import QueryPipeline.Proofs.NormalForm

/-!
What can be left out of a query object. A key whose value is null is as good as none, but for one thing:
keys of the sort section make up input, null or not, and a section that is disabled refuses input. A
number below zero is as good as null, but for one thing: as the place to start after it keeps the offset
from being looked at.
-/

namespace QueryPipeline

open Entries (get?)

/-! ## Null keys -/

namespace QueryObject

/-- The keys that clients are told of. -/
def clientKeys : List String :=
  "conditions" :: (Sorting.keys ++ Page.keys)

/-- The query object without the keys whose value is null. -/
def withoutNulls (object : Document) : Document :=
  Entries.without object ((Entries.keys object).filter fun key => get? object key = some .null)

/-- The keys of the sort section that are there, with their values. -/
def sortPart (object : Document) : Document :=
  Sorting.keys.filterMap fun key => (get? object key).map fun v => (key, v)

variable {object : Document}

theorem get?_withoutNulls (object : Document) (key : String) :
    get? (withoutNulls object) key = (get? object key).filter (· ≠ .null) := by
  rw [withoutNulls, Entries.get?_without]
  cases hkey : get? object key with
  | none => simp
  | some v =>
      have hmem : key ∈ Entries.keys object := by
        rw [← Entries.has_iff_mem_keys, Entries.has, hkey]
        rfl
      by_cases hnull : v = .null <;> simp [hmem, hkey, hnull, Option.filter]

/-- Where a missing value is taken for null, null values may as well be missing. -/
theorem given_withoutNulls (object : Document) (key : String) :
    (get? (withoutNulls object) key).getD .null = (get? object key).getD .null := by
  rw [get?_withoutNulls]
  cases get? object key with
  | none => rfl
  | some v => by_cases hnull : v = .null <;> simp [Option.filter, hnull]

theorem clientKeys_withoutNulls (h : ∀ key ∈ Entries.keys object, key ∈ clientKeys) :
    ∀ key ∈ Entries.keys (withoutNulls object), key ∈ clientKeys := by
  intro key hkey
  obtain ⟨entry, hentry, rfl⟩ := List.mem_map.mp hkey
  exact h _ (Entries.mem_keys_of_mem (List.mem_of_mem_filter hentry))

theorem get?_of_not_client (h : ∀ key ∈ Entries.keys object, key ∈ clientKeys) {key : String}
    (hkey : key ∉ clientKeys) : get? object key = none :=
  (Entries.get?_eq_none_iff object key).mpr fun hmem => hkey (h key hmem)

theorem filter?_withoutNulls (h : ∀ key ∈ Entries.keys object, key ∈ clientKeys) :
    (filter? (withoutNulls object)).getD .null = (filter? object).getD .null := by
  have hfilter : "filter" ∉ clientKeys := by decide
  rw [filter?, filter?, get?_of_not_client h hfilter,
    get?_of_not_client (clientKeys_withoutNulls h) hfilter, Option.or_none, Option.or_none,
    given_withoutNulls]

/-- The limit section as it was given by its keys. -/
def pagePart (object : Document) : Page.Input :=
  let given (key : String) : Value := (get? object key).getD .null
  { count := given "limitCount", offset := given "offsetCount", start := given "startAfter" }

theorem page?_eq (h : ∀ key ∈ Entries.keys object, key ∈ clientKeys) :
    page? object = if (pagePart object).isNull then none else some (pagePart object) := by
  have hlimit : get? object "limit" = none := get?_of_not_client h (by decide)
  unfold page?
  split
  · rfl
  · rename_i hnone
    have hmissing : ∀ key ∈ Page.keys, get? object key = none := by
      simpa [Entries.has] using hnone
    have hnull : (pagePart object).isNull = true := by
      simp [pagePart, Page.Input.isNull, hmissing _ (show "limitCount" ∈ Page.keys by decide),
        hmissing _ (show "offsetCount" ∈ Page.keys by decide),
        hmissing _ (show "startAfter" ∈ Page.keys by decide)]
    rw [hlimit, if_pos hnull]
    rfl

theorem page?_withoutNulls (h : ∀ key ∈ Entries.keys object, key ∈ clientKeys) :
    page? (withoutNulls object) = page? object := by
  have hsame : pagePart (withoutNulls object) = pagePart object := by
    simp only [pagePart, given_withoutNulls]
  rw [page?_eq h, page?_eq (clientKeys_withoutNulls h), hsame]

theorem sort?_eq (h : ∀ key ∈ Entries.keys object, key ∈ clientKeys) :
    sort? object = if sortPart object = [] then none else some (.object (sortPart object)) := by
  have hsort : get? object "sort" = none := get?_of_not_client h (by decide)
  rw [sort?, ← sortPart]
  cases sortPart object with
  | nil => exact hsort
  | cons entry rest => rfl

theorem get?_sortPart (object : Document) (key : String) :
    get? (sortPart object) key = if key ∈ Sorting.keys then get? object key else none :=
  Entries.get?_filterMap_keys object Sorting.keys key

theorem sortPart_eq_nil_iff (object : Document) :
    sortPart object = [] ↔ ∀ key ∈ Sorting.keys, get? object key = none := by
  simp [sortPart, List.filterMap_eq_nil_iff]

/-- The keys of the sort section that are there are all null, and there are some. -/
def HasNullSort (object : Document) : Prop :=
  (∃ key ∈ Sorting.keys, get? object key = some .null) ∧
    ∀ key ∈ Sorting.keys, ∀ v, get? object key = some v → v = .null

theorem hasNullSort_iff (object : Document) :
    HasNullSort object ↔ sortPart object ≠ [] ∧ sortPart (withoutNulls object) = [] := by
  have hgone : sortPart (withoutNulls object) = [] ↔
      ∀ key ∈ Sorting.keys, ∀ v, get? object key = some v → v = .null := by
    rw [sortPart_eq_nil_iff]
    refine forall₂_congr fun key _ => ?_
    rw [get?_withoutNulls, Option.filter_eq_none_iff]
    simp
  rw [HasNullSort, hgone]
  refine and_congr_left fun hnull => ?_
  rw [Ne, sortPart_eq_nil_iff]
  constructor
  · rintro ⟨key, hmem, hkey⟩ hnone
    cases (hnone key hmem).symm.trans hkey
  · intro hsome
    by_contra hnot
    refine hsome fun key hmem => ?_
    cases hkey : get? object key with
    | none => rfl
    | some v => exact absurd ⟨key, hmem, hnull key hmem v hkey ▸ hkey⟩ hnot

end QueryObject

namespace Sorting

variable {rules : Rules}

/-- A section is read by what it has under its keys, where a missing value counts as null. -/
theorem readSection_congr {part other : Document}
    (h : ∀ key ∈ keys, (get? part key).getD .null = (get? other key).getD .null) :
    readSection rules part = readSection rules other := by
  have hobject := h "sortObject" (by decide)
  have hfield := h "orderByField" (by decide)
  have hdirection := h "orderDirection" (by decide)
  simp only [readSection, readField, hobject, hfield, hdirection]

theorem read_sort? {object : Document} (h : ∀ key ∈ Entries.keys object, key ∈ QueryObject.clientKeys) :
    read rules ((QueryObject.sort? object).getD .null) =
      readSection rules (QueryObject.sortPart object) := by
  rw [QueryObject.sort?_eq h]
  split
  · rename_i hnil
    rw [hnil]
    rfl
  · rfl

theorem read_withoutNulls {object : Document}
    (h : ∀ key ∈ Entries.keys object, key ∈ QueryObject.clientKeys) :
    read rules ((QueryObject.sort? (QueryObject.withoutNulls object)).getD .null) =
      read rules ((QueryObject.sort? object).getD .null) := by
  rw [read_sort? h, read_sort? (QueryObject.clientKeys_withoutNulls h)]
  refine readSection_congr fun key hkey => ?_
  rw [QueryObject.get?_sortPart, QueryObject.get?_sortPart, if_pos hkey, if_pos hkey,
    QueryObject.given_withoutNulls]

end Sorting

/-! ## Refusing a section that is disabled -/

/-- The section that is refused for being disabled, if that is the fault. -/
def Fault.disabled? : Fault → Option Section
  | .invalid (.sectionDisabled part _) => some part
  | _ => none

theorem Settings.disabled?_requireEnabled {s : Settings} {collection : String} {part : Section}
    {fault : Fault} (h : s.requireEnabled collection part = .error fault) :
    fault.disabled? = some part := by
  unfold requireEnabled at h
  split at h <;> cases h
  rfl

namespace Sorting

variable {rules : Rules} {part : Document} {fault : Fault}

theorem readObject_error {v : Value} (h : readObject v = .error fault) : fault.disabled? = none := by
  unfold readObject at h
  split at h
  · obtain ⟨-, field, w, -, -, -, -, rfl⟩ := readEntries_error_iff.mp h
    rcases Fault.ofFlaw_cases (.sortDirection w field) with hflaw | ⟨hmisuse, -⟩
    · rw [hflaw]
      rfl
    · rw [hmisuse]
      rfl
  · cases h
    rfl

theorem readField_error (h : readField rules part = .error fault) : fault.disabled? = none := by
  have hsingle : ∀ {key direction}, single key direction = .error fault → fault.disabled? = none := by
    intro key direction h
    unfold single at h
    split at h <;> cases h
    rfl
  simp only [readField] at h
  split at h
  · exact hsingle h
  · split at h
    · exact hsingle h
    · cases h
      rfl

theorem readSection_error (h : readSection rules part = .error fault) : fault.disabled? = none := by
  simp only [readSection] at h
  split at h
  · split at h
    · cases h
    · rename_i hobject
      split at h
      · exact readField_error h
      · exact Except.error.inj h ▸ readObject_error hobject
    · rename_i hobject
      exact Except.error.inj h ▸ readObject_error hobject
  · exact readField_error h

end Sorting

namespace Query

variable {q source : Query} {object : Document} {fault : Fault}

theorem ownerKey_error {field : Value} (h : ownerKey field = .error fault) :
    ∃ cause, fault = .misuse cause := by
  unfold ownerKey at h
  split at h <;> cases h
  exact ⟨_, rfl⟩

theorem scope_error {ledger : Ledger} {ownerField : Value} (h : q.scope ledger ownerField = .error fault) :
    ∃ cause, fault = .misuse cause := by
  unfold scope at h
  extract_lets within at h
  have hwithin : ∀ own, within own = .error fault → ∃ cause, fault = .misuse cause := by
    intro own h
    simp only [within] at h
    split at h
    · exact ⟨_, (Except.error.inj h).symm⟩
    · split at h <;> cases h
  split at h
  · split at h
    · rcases bind_eq_error_iff.mp h with hown | ⟨own, -, h⟩
      · exact ownerKey_error (map_eq_error_iff.mp hown)
      · exact hwithin own h
    · exact hwithin [] h
  · exact hwithin [] h

/-- A query that cannot be ended is not the client's fault. -/
theorem pipeline_error (h : q.pipeline source = .error fault) : ∃ cause, fault = .misuse cause := by
  unfold pipeline at h
  extract_lets progress page assembled at h
  have hassembled : ∀ found, assembled found = .error fault → ∃ cause, fault = .misuse cause := by
    intro found h
    simp only [assembled] at h
    split at h <;> cases h <;> exact ⟨_, rfl⟩
  split at h
  · rcases bind_eq_error_iff.mp h with hscope | ⟨found, -, h⟩
    · exact scope_error (map_eq_error_iff.mp hscope)
    · exact hassembled found h
  · exact hassembled ([], []) h

end Query

/-! ## Leaving out the nulls -/

namespace Query

variable {q : Query} {object : Document}

/-- What comes of the filter section of a query object. -/
def filterOutcome (q : Query) (object : Document) : Except Fault (Filter × List LogEntry) :=
  Slot.outcome (q.requireEnabled .filter) (isGiven (QueryObject.filter? object)) (q.readFilter object)

/-- What comes of the sort section of a query object. -/
def sortOutcome (q : Query) (object : Document) : Except Fault SortSpec :=
  Slot.outcome (q.requireEnabled .sort) (isGiven (QueryObject.sort? object))
    (Sorting.read q.compiler.settings.sorting ((QueryObject.sort? object).getD .null))

section

variable (hkeys : ∀ key ∈ Entries.keys object, key ∈ QueryObject.clientKeys)

include hkeys

theorem isGiven_sort? :
    isGiven (QueryObject.sort? object) = decide (QueryObject.sortPart object ≠ []) := by
  rw [QueryObject.sort?_eq hkeys]
  by_cases hnil : QueryObject.sortPart object = [] <;> simp [isGiven, hnil]

/-- Without its nulls the sort section comes to the same, unless it has nothing else and is disabled. -/
theorem sortOutcome_withoutNulls
    (h : q.compiler.settings.isEnabled .sort = true ∨ ¬ QueryObject.HasNullSort object) :
    q.sortOutcome (QueryObject.withoutNulls object) = q.sortOutcome object := by
  rw [sortOutcome, sortOutcome, Sorting.read_withoutNulls hkeys]
  rcases h with henabled | hnot
  · have hallowed : q.requireEnabled .sort = .ok () := requireEnabled_eq_ok_iff.mpr henabled
    rw [Slot.outcome_enabled hallowed, Slot.outcome_enabled hallowed]
  · have hsame : QueryObject.sortPart (QueryObject.withoutNulls object) = [] ↔
        QueryObject.sortPart object = [] := by
      rw [QueryObject.hasNullSort_iff] at hnot
      refine ⟨fun hgone => by_contra fun hsome => hnot ⟨hsome, hgone⟩, fun hnil => ?_⟩
      rw [QueryObject.sortPart_eq_nil_iff] at hnil ⊢
      intro key hkey
      rw [QueryObject.get?_withoutNulls, hnil key hkey]
      rfl
    rw [isGiven_sort? hkeys, isGiven_sort? (QueryObject.clientKeys_withoutNulls hkeys),
      decide_eq_decide.mpr (not_congr hsame)]

theorem filterOutcome_withoutNulls :
    q.filterOutcome (QueryObject.withoutNulls object) = q.filterOutcome object := by
  rw [filterOutcome, filterOutcome, readFilter, readFilter, isGiven, isGiven,
    QueryObject.filter?_withoutNulls hkeys]

end

/-- What comes of the limit section of a query object. -/
def pageOutcome (q : Query) (object : Document) : Except Fault Page :=
  Slot.outcome (q.requireEnabled .limit) ((QueryObject.page? object).any fun input => !input.isNull)
    (Page.read q.compiler.settings.paging ((QueryObject.page? object).getD {}))

theorem parts_eq (q : Query) (object : Document) : q.parts object = (do
    let (filter, _) ← q.filterOutcome object
    let sort ← q.sortOutcome object
    let page ← q.pageOutcome object
    return { filter, sort, page }) := rfl

theorem compile_of_client (hq : q.progress = none)
    (hkeys : ∀ key ∈ Entries.keys object, key ∈ QueryObject.clientKeys) :
    q.compile object = (q.parts object >>= fun parts =>
      (q.holding parts).pipeline (q.holding parts)) := by
  have hknown : ∀ key ∈ QueryObject.clientKeys, key ∈ QueryObject.keys := by decide
  rw [compile_eq_parts hq, q.checkKeys_of_known fun key hkey => hknown key (hkeys key hkey)]
  rfl

theorem pageOutcome_withoutNulls
    (hkeys : ∀ key ∈ Entries.keys object, key ∈ QueryObject.clientKeys) :
    q.pageOutcome (QueryObject.withoutNulls object) = q.pageOutcome object := by
  rw [pageOutcome, pageOutcome, QueryObject.page?_withoutNulls hkeys]

/-- The query object is refused for its nulls: its filter section is accepted, its sort section is given
by nulls alone, and it is disabled. -/
structure RefusesNulls (q : Query) (object : Document) : Prop where
  filter_taken : (q.takeFilter object).2 = none
  sort_disabled : q.compiler.settings.isEnabled .sort = false
  sort_null : QueryObject.HasNullSort object

theorem filter_taken_iff :
    (q.takeFilter object).2 = none ↔ ∃ r, q.filterOutcome object = .ok r := by
  cases houtcome : q.filterOutcome object with
  | ok r => simp [takeFilter, Slot.take_of_ok houtcome]
  | error fault => simp [takeFilter, Slot.take_of_error houtcome]

section

variable (hkeys : ∀ key ∈ Entries.keys object, key ∈ QueryObject.clientKeys)

include hkeys

theorem parts_of_refusesNulls (h : q.RefusesNulls object) :
    q.parts object = .error (.invalid (.sectionDisabled .sort q.compiler.collection.plain)) := by
  obtain ⟨r, hfilter⟩ := filter_taken_iff.mp h.filter_taken
  have hgiven : isGiven (QueryObject.sort? object) = true := by
    rw [isGiven_sort? hkeys]
    exact decide_eq_true ((QueryObject.hasNullSort_iff object).mp h.sort_null).1
  have hsort : q.sortOutcome object =
      .error (.invalid (.sectionDisabled .sort q.compiler.collection.plain)) := by
    rw [sortOutcome, hgiven, requireEnabled, Settings.requireEnabled, h.sort_disabled]
    rfl
  rw [parts_eq, hfilter, hsort]
  rfl

/-- Without its nulls, a query object is not refused for a sort section that is disabled. -/
theorem disabled?_withoutNulls (h : q.RefusesNulls object) {fault : Fault}
    (hfault : q.parts (QueryObject.withoutNulls object) = .error fault) :
    fault.disabled? ≠ some .sort := by
  obtain ⟨r, hfilter⟩ := filter_taken_iff.mp h.filter_taken
  rw [parts_eq, filterOutcome_withoutNulls hkeys, hfilter] at hfault
  change (q.sortOutcome (QueryObject.withoutNulls object) >>= fun sort => _) = _ at hfault
  rcases bind_eq_error_iff.mp hfault with hsort | ⟨sort, -, hfault⟩
  · have hgone : isGiven (QueryObject.sort? (QueryObject.withoutNulls object)) = false := by
      rw [isGiven_sort? (QueryObject.clientKeys_withoutNulls hkeys)]
      simp [((QueryObject.hasNullSort_iff object).mp h.sort_null).2]
    rw [sortOutcome, hgone, Slot.outcome,
      Sorting.read_sort? (QueryObject.clientKeys_withoutNulls hkeys)] at hsort
    rw [Sorting.readSection_error hsort]
    simp
  · rcases bind_eq_error_iff.mp hfault with hpage | ⟨page, -, hfault⟩
    · rcases bind_eq_error_iff.mp hpage with hrefused | ⟨⟨⟩, -, hread⟩
      · split at hrefused
        · rw [Settings.disabled?_requireEnabled hrefused]
          simp
        · cases hrefused
      · rcases Page.read_error hread with rfl | ⟨key, rfl⟩ <;> simp [Fault.disabled?]
    · cases hfault

/-- Leaving out its nulls changes nothing about what a query object compiles to, unless it is refused for
them. -/
theorem compile_withoutNulls (hq : q.progress = none) :
    q.compile (QueryObject.withoutNulls object) = q.compile object ↔ ¬ q.RefusesNulls object := by
  rw [compile_of_client hq hkeys, compile_of_client hq (QueryObject.clientKeys_withoutNulls hkeys)]
  constructor
  · intro hsame h
    rw [parts_of_refusesNulls hkeys h] at hsame
    rcases bind_eq_error_iff.mp hsame with hparts | ⟨parts, -, hpipeline⟩
    · exact disabled?_withoutNulls hkeys h hparts rfl
    · obtain ⟨cause, hcause⟩ := pipeline_error hpipeline
      cases hcause
  · intro hnot
    have hparts : q.parts (QueryObject.withoutNulls object) = q.parts object := by
      rw [parts_eq, parts_eq, filterOutcome_withoutNulls hkeys, pageOutcome_withoutNulls hkeys]
      cases hfilter : q.filterOutcome object with
      | error fault => rfl
      | ok r =>
          have hsort : q.compiler.settings.isEnabled .sort = true ∨ ¬ QueryObject.HasNullSort object := by
            by_contra hneither
            obtain ⟨hdisabled, hnull⟩ := not_or.mp hneither
            exact hnot ⟨filter_taken_iff.mpr ⟨r, hfilter⟩, Bool.eq_false_iff.mpr hdisabled,
              not_not.mp hnull⟩
          rw [sortOutcome_withoutNulls hkeys hsort]
    rw [hparts]

end

end Query

/-- Leaving out the keys whose value is null changes nothing about what comes of a query object, unless
it is refused for them: then the fault is that of giving a section that is disabled. -/
theorem Compiler.compile_withoutNulls_iff (c : Compiler) (principal : Option Principal) {object : Document}
    (hkeys : ∀ key ∈ Entries.keys object, key ∈ QueryObject.clientKeys) :
    let q : Query := { compiler := c, principal }
    (c.compile principal (QueryObject.withoutNulls object) = c.compile principal object ↔
      ¬ q.RefusesNulls object) ∧
    (q.RefusesNulls object →
      c.compile principal object = .error (.invalid (.sectionDisabled .sort c.collection.plain))) := by
  intro q
  rw [compile_eq, compile_eq]
  refine ⟨Query.compile_withoutNulls hkeys rfl, fun h => ?_⟩
  rw [Query.compile_of_client rfl hkeys, Query.parts_of_refusesNulls hkeys h]
  rfl

/-- A strict query whose limit section is disabled, and given by nulls. -/
theorem Compiler.compile_withoutNulls_no_limit :
    let c : Compiler :=
      { collection := .text "users"
        settings := .ofMap [("limit_enabled", .value (.bool false)), ("lenient", .value (.bool false))]
        ledger := none }
    let conditions : Value :=
      .list [.object [("field", .text "age"), ("operator", .text "=="), ("value", .null)]]
    let object : Document :=
      [("limitCount", .null), ("orderByField", .null), ("conditions", conditions), ("startAfter", .null),
        ("orderDirection", .text "asc"), ("sortObject", .null)]
    ∃ p, c.compile none object = .ok p ∧
      c.compile none [("conditions", conditions), ("orderDirection", .text "asc")] = .ok p := by
  intro c conditions object
  obtain ⟨p, hp⟩ : ∃ p, c.compile none object = .ok p := ⟨_, by with_unfolding_all rfl⟩
  have hkeys : ∀ key ∈ Entries.keys object, key ∈ QueryObject.clientKeys := by
    simp [object, Entries.keys, QueryObject.clientKeys, Sorting.keys, Page.keys]
  have hrest : QueryObject.withoutNulls object =
      [("conditions", conditions), ("orderDirection", .text "asc")] := by decide
  have hsort : c.settings.isEnabled .sort = true := rfl
  have hsame := (c.compile_withoutNulls_iff none hkeys).1.mpr fun h =>
    Bool.false_ne_true (h.sort_disabled.symm.trans hsort)
  exact ⟨p, hp, hrest ▸ hsame.trans hp⟩

/-- Without sorting, a query object that has nothing but a null for the field to sort by is refused,
though an empty one is not. -/
theorem Compiler.refused_for_null_sort :
    let given : SettingMap := [("sort_enabled", .value (.bool false))]
    ∃ c p, make (.text "users") given = .ok c ∧
      c.compile none [("orderByField", .null)] = .error (.invalid (.sectionDisabled .sort "users")) ∧
      QueryObject.withoutNulls [("orderByField", .null)] = [] ∧ c.compile none [] = .ok p := by
  intro given
  exact ⟨_, _, by with_unfolding_all rfl, by with_unfolding_all rfl, by decide, by with_unfolding_all rfl⟩

/-! ## Numbers below zero -/

/-- A value that stands in for another: the same, or null for a number below zero. -/
def Value.StandsInFor (w v : Value) : Prop :=
  w = v ∨ w = .null ∧ ∃ n < 0, v.toInteger = .ok (some n)

namespace Page

variable {rules : Rules} {i j : Input} {page : Page}

/-- A limit section with nulls for some of its numbers below zero. -/
structure Input.StandsInFor (j i : Input) : Prop where
  count : j.count.StandsInFor i.count
  offset : j.offset.StandsInFor i.offset
  start : j.start.StandsInFor i.start

theorem natural?_of_neg {n : Int} (h : n < 0) : natural? (some n) = none := by
  simp [natural?, Option.filter, Int.not_le.mpr h]

theorem integer_of_toInteger {v : Value} {n : Int} (h : v.toInteger = .ok (some n)) (key : String) :
    integer rules key v = .ok (some n) := by
  rw [integer, h]
  rfl

/-- What stands in for a number is read as another one at most where neither counts. -/
theorem integer_standsIn {v w : Value} (h : w.StandsInFor v) {key : String} {n? : Option Int}
    (hv : integer rules key v = .ok n?) :
    ∃ m?, integer rules key w = .ok m? ∧ natural? m? = natural? n? := by
  rcases h with rfl | ⟨rfl, n, hn, hnegative⟩
  · exact ⟨n?, hv, rfl⟩
  · rw [integer_of_toInteger hnegative] at hv
    cases hv
    exact ⟨none, integer_null rules key, (natural?_of_neg hn).symm⟩

/-- The offset asks for nothing: it is null, no number, or below zero. -/
def Input.OffsetsNothing (rules : Rules) (i : Input) : Prop :=
  ∃ n?, integer rules "offsetCount" i.offset = .ok n? ∧ natural? n? = none

/-- Nulls for numbers below zero do not change a page, unless the place to start after was one of these
numbers, and there is an offset to come out instead. -/
theorem read_standsIn_iff (h : read rules i = .ok page) (hj : j.StandsInFor i) :
    read rules j = .ok page ↔ j.start = i.start ∨ j.OffsetsNothing rules := by
  obtain ⟨limit, start, skip, hlimit, hstart, hskip, rfl⟩ := read_eq_ok_iff.mp h
  obtain ⟨limit', hlimit', hlimitSame⟩ := integer_standsIn hj.count hlimit
  rcases hj.start with hsame | ⟨hnull, n, hn, hnegative⟩
  · refine iff_of_true (read_eq_ok_iff.mpr ?_) (.inl hsame)
    rcases hskip with ⟨rfl, hoffset⟩ | ⟨hsome, rfl⟩
    · obtain ⟨skip', hoffset', hskipSame⟩ := integer_standsIn hj.offset hoffset
      exact ⟨limit', none, skip', hlimit', hsame ▸ hstart, .inl ⟨rfl, hoffset'⟩,
        by rw [hlimitSame, hskipSame]⟩
    · exact ⟨limit', skip, skip, hlimit', hsame ▸ hstart, .inr ⟨hsome, rfl⟩, by rw [hlimitSame]⟩
  · -- The place to start after was a number below zero, so nothing was to be left out.
    rw [integer_of_toInteger hnegative] at hstart
    cases hstart
    obtain ⟨-, rfl⟩ := hskip.resolve_left fun hnone => nomatch hnone.1
    have hmoved : j.start ≠ i.start := by
      rw [hnull]
      intro hi
      rw [← hi] at hnegative
      cases hnegative
    have hstart' : integer rules "startAfter" j.start = .ok none := hnull ▸ integer_null rules _
    rw [or_iff_right hmoved, read_eq_ok_iff, natural?_of_neg hn]
    constructor
    · rintro ⟨_, start', skip', -, hread, hskip', hpage⟩
      cases hstart'.symm.trans hread
      obtain ⟨-, hoffset⟩ := hskip'.resolve_right fun hsome => hsome.1 rfl
      exact ⟨skip', hoffset, (congrArg Page.skip hpage).symm⟩
    · rintro ⟨skip', hoffset, hnone⟩
      exact ⟨limit', none, skip', hlimit', hstart', .inl ⟨rfl, hoffset⟩, by rw [hlimitSame, hnone]⟩

/-- All three numbers are below zero, in a text, as a double and outright. -/
theorem read_standsIn_all_negative :
    let rules : Rules := { cap := .int 10, lenient := false }
    let i : Input :=
      { count := .text " -3px", offset := .float (.finite true 5 0), start := .int (-7) }
    read rules i = .ok { skip := none, limit := some (.int 10) } ∧
      ({} : Input).StandsInFor i ∧ read rules {} = .ok { skip := none, limit := some (.int 10) } := by
  intro rules i
  have hread : read rules i = .ok { skip := none, limit := some (.int 10) } := by with_unfolding_all rfl
  have hstands : ({} : Input).StandsInFor i :=
    { count := .inr ⟨rfl, -3, by decide, by with_unfolding_all rfl⟩
      offset := .inr ⟨rfl, -5, by decide, by with_unfolding_all rfl⟩
      start := .inr ⟨rfl, -7, by decide, rfl⟩ }
  exact ⟨hread, hstands, (read_standsIn_iff hread hstands).mpr (.inr ⟨none, rfl, rfl⟩)⟩

/-- A place to start after that lies below zero keeps an offset of ten from being looked at. -/
theorem negative_start_hides_offset :
    let rules : Rules := { cap := .null, lenient := true }
    let i : Input := { offset := .int 10, start := .int (-5) }
    i.start.toInteger = .ok (some (-5)) ∧ ({ i with start := .null } : Input).StandsInFor i ∧
      read rules i = .ok { skip := none, limit := none } ∧
      read rules { i with start := .null } = .ok { skip := some 10, limit := none } := by
  intro rules i
  exact ⟨rfl, ⟨.inl rfl, .inl rfl, .inr ⟨rfl, -5, by decide, rfl⟩⟩, rfl, rfl⟩

end Page

end QueryPipeline
