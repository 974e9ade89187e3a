import QueryPipeline.Proofs.Cap
import QueryPipeline.Proofs.Conditions
import QueryPipeline.Proofs.Sections

/-!
The canonical form of a compiled query: what was read of its query object, as a query object again. It
compiles to the same pipeline, and it is its own canonical form.
-/

namespace QueryPipeline

open Entries (get?)

/-! ## Sort specs -/

/-- A sort spec as a sort object. -/
def SortSpec.toValue (spec : SortSpec) : Value :=
  .object (spec.map fun entry => (entry.1.plain, .int entry.2.sign))

/-- Whether there is something to sort by, all of it fields. -/
def SortSpec.IsNamed (spec : SortSpec) : Prop :=
  spec ≠ [] ∧ ∀ entry ∈ spec, ∃ field, entry.1 = .text field

namespace Sorting

variable {rules : Rules} {spec : SortSpec} {entries : Document}

theorem direction?_sign (d : Direction) : direction? (.int d.sign) = some d := by
  cases d <;> rfl

theorem readEntries_cons_iff {field : String} {v : Value} :
    readEntries ((field, v) :: entries) = .ok spec ↔ ∃ d others, direction? v = some d ∧
      readEntries entries = .ok others ∧ spec = (.text field, d) :: others := by
  rw [readEntries]
  cases direction? v with
  | none => simp
  | some d =>
      rw [map_eq_ok_iff]
      simp [eq_comm]

/-- The first entry that names no direction is at fault. -/
theorem readEntries_error_iff {fault : Fault} : readEntries entries = .error fault ↔
    ∃ before field v after, entries = before ++ (field, v) :: after ∧
      (∀ entry ∈ before, ∃ d, direction? entry.2 = some d) ∧ direction? v = none ∧
      fault = .ofFlaw (.sortDirection v field) := by
  constructor
  · intro h
    induction entries with
    | nil => cases h
    | cons entry rest ih =>
        obtain ⟨name, w⟩ := entry
        rw [readEntries] at h
        cases hw : direction? w with
        | none =>
            rw [hw] at h
            exact ⟨[], name, w, rest, rfl, List.forall_mem_nil _, hw, (Except.error.inj h).symm⟩
        | some d =>
            rw [hw] at h
            obtain ⟨before, field, v, after, rfl, hbefore, hv, hfault⟩ := ih (map_eq_error_iff.mp h)
            exact ⟨(name, w) :: before, field, v, after, rfl,
              List.forall_mem_cons.mpr ⟨⟨d, hw⟩, hbefore⟩, hv, hfault⟩
  · rintro ⟨before, field, v, after, rfl, hbefore, hv, rfl⟩
    induction before with
    | nil => rw [List.nil_append, readEntries, hv]
    | cons entry rest ih =>
        obtain ⟨⟨d, hd⟩, hrest⟩ := List.forall_mem_cons.mp hbefore
        rw [List.cons_append, readEntries, hd]
        exact map_eq_error_iff.mpr (ih hrest)

theorem readEntries_eq_nil_iff (h : readEntries entries = .ok spec) : spec = [] ↔ entries = [] := by
  cases entries with
  | nil =>
      cases h
      simp
  | cons entry rest =>
      obtain ⟨d, others, -, -, rfl⟩ := readEntries_cons_iff.mp h
      simp

theorem readEntries_fields (h : readEntries entries = .ok spec) :
    ∀ entry ∈ spec, ∃ field, entry.1 = .text field := by
  induction entries generalizing spec with
  | nil =>
      cases h
      simp
  | cons entry rest ih =>
      obtain ⟨d, others, -, hrest, rfl⟩ := readEntries_cons_iff.mp h
      exact List.forall_mem_cons.mpr ⟨⟨entry.1, rfl⟩, ih hrest⟩

theorem readEntries_toValue (h : ∀ entry ∈ spec, ∃ field, entry.1 = .text field) :
    readEntries (spec.map fun entry => (entry.1.plain, .int entry.2.sign)) = .ok spec := by
  induction spec with
  | nil => rfl
  | cons entry rest ih =>
      obtain ⟨⟨field, hfield⟩, hrest⟩ := List.forall_mem_cons.mp h
      obtain ⟨key, d⟩ := entry
      cases hfield
      rw [List.map_cons, readEntries, direction?_sign]
      simp only [ih hrest]
      rfl

theorem single_inv {key direction : Value} (h : single key direction = .ok spec) :
    ∃ d, spec = [(key, d)] := by
  unfold single at h
  split at h
  · cases h
    exact ⟨_, rfl⟩
  · cases h

theorem readField_inv {part : Document} (h : readField rules part = .ok spec) :
    ∃ key d, spec = [(key, d)] ∧ (key = rules.defaultField ∨ ∃ field, key = .text field) := by
  simp only [readField] at h
  split at h
  · rename_i hgiven
    obtain ⟨d, rfl⟩ := single_inv h
    exact ⟨_, d, rfl, .inr ⟨_, hgiven⟩⟩
  · split at h
    · obtain ⟨d, rfl⟩ := single_inv h
      exact ⟨_, d, rfl, .inl rfl⟩
    · cases h

theorem readField_named {field : String} (hfield : rules.defaultField = .text field) {part : Document}
    (h : readField rules part = .ok spec) : spec.IsNamed := by
  obtain ⟨key, d, rfl, hkey⟩ := readField_inv h
  have htext : ∃ field, key = .text field := hkey.elim (fun hsame => ⟨field, hsame.trans hfield⟩) id
  exact ⟨List.cons_ne_nil _ _, List.forall_mem_singleton.mpr htext⟩

/-- A sort spec is that of a sort object with something in it, or of a single key. -/
theorem readSection_inv {part : Document} (h : readSection rules part = .ok spec) :
    (∃ entries, entries ≠ [] ∧ readEntries entries = .ok spec) ∨ readField rules part = .ok spec := by
  simp only [readSection] at h
  split at h
  · rename_i htruthy
    split at h
    · rename_i found hread
      cases h
      cases hobject : (get? part "sortObject").getD .null with
      | object entries =>
          rw [hobject] at htruthy hread
          refine .inl ⟨entries, ?_, hread⟩
          rintro rfl
          cases htruthy
      | _ =>
          rw [hobject] at hread
          cases hread
    · split at h
      · exact .inr h
      · cases h
    · cases h
  · exact .inr h

theorem read_inv {part : Value} (h : read rules part = .ok spec) :
    (∃ entries, entries ≠ [] ∧ readEntries entries = .ok spec) ∨
      ∃ part, readField rules part = .ok spec := by
  unfold read at h
  split at h
  · exact (readSection_inv h).imp_right fun hfield => ⟨_, hfield⟩
  · exact (readSection_inv h).imp_right fun hfield => ⟨_, hfield⟩
  · split at h
    · exact (readSection_inv h).imp_right fun hfield => ⟨_, hfield⟩
    · cases h

/-- With a field to sort by where nothing is said, there always is a field to sort by. -/
theorem read_named {field : String} (hfield : rules.defaultField = .text field) {part : Value}
    (h : read rules part = .ok spec) : spec.IsNamed := by
  rcases read_inv h with ⟨entries, hne, hread⟩ | ⟨part, hread⟩
  · exact ⟨fun hnil => hne ((readEntries_eq_nil_iff hread).mp hnil), readEntries_fields hread⟩
  · exact readField_named hfield hread

theorem read_toValue (h : spec.IsNamed) :
    read rules (.object [("sortObject", spec.toValue)]) = .ok spec := by
  have htruthy : spec.toValue.isTruthy = true := by
    simp [SortSpec.toValue, Value.isTruthy, h.1]
  have hread : readObject spec.toValue = .ok spec := readEntries_toValue h.2
  simp [read, readSection, get?, htruthy, hread]

end Sorting

/-! ## Pages -/

namespace Page

variable {rules : Rules} {i : Input} {page : Page}

/-- The section that a page is read from. -/
def toInput (page : Page) : Input :=
  { count := page.limit.getD .null, offset := (page.skip.map .int).getD .null }

theorem natural?_natural? (n? : Option Int) : natural? (natural? n?) = natural? n? := by
  simp [natural?, Option.filter_filter]

theorem integer_toValue (rules : Rules) (key : String) (n? : Option Int) :
    integer rules key ((n?.map .int).getD .null) = .ok n? := by
  cases n? with
  | none => exact integer_null rules key
  | some n => simp [integer, Value.toInteger, Except.bind]

theorem capped_none {m : Int} (hm : m ≠ 0) : capped (.int m) none = some (.int m) := by
  simp [capped, Value.isTruthy, hm]

theorem capped_some {m : Int} (hm : m ≠ 0) (k : Int) :
    capped (.int m) (some k) = some (.int (if k ≠ 0 ∧ k < m then k else m)) := by
  by_cases h : k ≠ 0 ∧ k < m
  · simp [capped, Value.isTruthy, hm, Value.exceeds?, Value.ratio?, h]
  · have hnot : ¬ (k ≠ 0 ∧ (Value.int m).exceeds? k = some true) := by
      simpa [Value.exceeds?, Value.ratio?] using h
    simp [capped, Value.isTruthy, hm, hnot, h]

/-- A limit under a cap, taken for what was asked for, is the limit under the same cap. -/
theorem capped_capped {cap : Value} (hcap : cap = .null ∨ ∃ m, cap = .int m) (n? : Option Int) :
    ∃ limit : Option Int, capped cap (natural? n?) = limit.map .int ∧
      capped cap (natural? limit) = limit.map .int := by
  have hwithout : ∀ cap : Value, (∀ k?, capped cap k? = k?.map .int) →
      ∃ limit : Option Int, capped cap (natural? n?) = limit.map .int ∧
        capped cap (natural? limit) = limit.map .int := by
    intro cap hfree
    exact ⟨natural? n?, hfree _, by rw [natural?_natural?, hfree]⟩
  rcases hcap with rfl | ⟨m, rfl⟩
  · exact hwithout _ fun _ => rfl
  · by_cases hm : m = 0
    · subst hm
      exact hwithout _ fun _ => rfl
    · have hmost : capped (.int m) (natural? (some m)) = some (.int m) := by
        by_cases hsign : 0 ≤ m <;>
          simp [natural?, Option.filter, hsign, capped_none hm, capped_some hm]
      cases hk : natural? n? with
      | none => exact ⟨some m, capped_none hm, hmost⟩
      | some k =>
          have hself : natural? (some k) = some k := hk ▸ natural?_natural? n?
          by_cases hsmall : k ≠ 0 ∧ k < m
          · exact ⟨some k, by rw [capped_some hm, if_pos hsmall]; rfl,
              by rw [hself, capped_some hm, if_pos hsmall]; rfl⟩
          · exact ⟨some m, by rw [capped_some hm, if_neg hsmall]; rfl, hmost⟩

/-- A page, as a section, is read as itself. -/
theorem read_toInput (hcap : rules.cap = .null ∨ ∃ m, rules.cap = .int m)
    (h : read rules i = .ok page) : read rules page.toInput = .ok page := by
  obtain ⟨given, skip, -, rfl⟩ := read_inv h
  obtain ⟨limit, hlimit, hagain⟩ := capped_capped hcap given
  simp only [read, toInput, hlimit, integer_toValue, integer_null]
  simp only [bind, Except.bind, pure, Except.pure, hagain, natural?_natural?]

end Page

/-! ## Query objects -/

/-- The query object that asks for nothing else than what was read. -/
def Parts.toObject (parts : Parts) : Document :=
  [("conditions", parts.filter.toValue), ("sortObject", parts.sort.toValue),
    ("limitCount", parts.page.toInput.count), ("offsetCount", parts.page.toInput.offset)]

namespace Query

/-- The canonical form of what a query compiles: its conditions as they were read, and the sort and
the page of its pipeline. -/
def canonical (q : Query) (p : Pipeline) : Document :=
  [("conditions", ((q.progress.bind (·.filter.get?)).map Filter.toValue).getD .null),
    ("sortObject", p.sort.toValue), ("limitCount", p.limit.getD .null),
    ("offsetCount", (p.skip.map .int).getD .null)]

variable {q : Query} {object : Document} {parts : Parts} {p : Pipeline}

theorem canonical_holding (h : (q.holding parts).pipeline (q.holding parts) = .ok p) :
    (q.holding parts).canonical p = parts.toObject := by
  obtain ⟨hsort, hskip, hlimit⟩ := pipeline_holding h
  rw [canonical, hsort, hskip, hlimit]
  rfl

theorem page?_toObject (parts : Parts) :
    (QueryObject.page? parts.toObject).getD {} = parts.page.toInput := by
  have hgiven : QueryObject.page? parts.toObject =
      if parts.page.toInput.isNull then none else some parts.page.toInput := rfl
  rw [hgiven]
  split
  · rename_i hnull
    simp only [Page.Input.isNull, Bool.and_eq_true, decide_eq_true_eq] at hnull
    obtain ⟨⟨hcount, hoffset⟩, hstart⟩ := hnull
    rw [Option.getD_none, Page.Input.mk.injEq]
    exact ⟨hcount.symm, hoffset.symm, hstart.symm⟩
  · rfl

/-- What was read of a query object is read of its canonical form as well. -/
theorem parts_toObject (hall : ∀ part, q.compiler.settings.isEnabled part = true) {field : String}
    (hfield : q.compiler.settings.defaultSortField = .text field)
    (hcap : q.compiler.settings.maxItems = .null ∨ ∃ m, q.compiler.settings.maxItems = .int m)
    (h : q.parts object = .ok parts) : q.parts parts.toObject = .ok parts := by
  have henabled : ∀ part, q.requireEnabled part = .ok () := Compiler.requireEnabled_eq hall rfl
  simp only [parts_eq_ok_iff, Slot.outcome_enabled (henabled _)] at h ⊢
  obtain ⟨⟨log, hfilter⟩, hsort, hpage⟩ := h
  refine ⟨⟨[], ?_⟩, ?_, ?_⟩
  · have hgiven : QueryObject.filter? parts.toObject = some parts.filter.toValue := rfl
    rw [readFilter, hgiven, Option.getD_some, Filter.read_toValue hfilter]
  · have hgiven : QueryObject.sort? parts.toObject =
        some (.object [("sortObject", parts.sort.toValue)]) := by
      simp [QueryObject.sort?, Sorting.keys, get?, Parts.toObject]
    rw [hgiven, Option.getD_some]
    exact Sorting.read_toValue (Sorting.read_named hfield hsort)
  · rw [page?_toObject]
    exact Page.read_toInput hcap hpage

end Query

/-- The canonical form of what a query compiles is compiled to the same pipeline, and it is its own
canonical form. -/
theorem Compiler.compile_canonical (c : Compiler) (hall : ∀ part, c.settings.isEnabled part = true)
    {field : String} (hfield : c.settings.defaultSortField = .text field)
    (hcap : c.settings.maxItems = .null ∨ ∃ m, c.settings.maxItems = .int m)
    (principal : Option Principal) (object : Document) {p : Pipeline}
    (h : c.compile principal object = .ok p) :
    let taken (object : Document) : Query := (({ compiler := c, principal } : Query).take object).1
    let canonical := (taken object).canonical p
    c.compile principal canonical = .ok p ∧ (taken canonical).canonical p = canonical := by
  intro taken canonical
  let q : Query := { compiler := c, principal }
  rw [compile_eq] at h ⊢
  obtain ⟨-, parts, hparts, hpipeline⟩ := (Query.compile_eq_ok_iff rfl).mp h
  have hform : ∀ object, q.parts object = .ok parts → (taken object).canonical p = parts.toObject := by
    intro object hread
    rw [← Query.canonical_holding hpipeline, ← Query.take_eq_holding rfl hread]
  have hcanonical : canonical = parts.toObject := hform object hparts
  have hagain : q.parts canonical = .ok parts := hcanonical ▸ Query.parts_toObject hall hfield hcap hparts
  have hknown : q.checkKeys canonical = .ok [] := by
    refine q.checkKeys_of_known ?_
    simp [canonical, Query.canonical, Entries.keys, QueryObject.keys, Sorting.keys, Page.keys]
  exact ⟨(Query.compile_eq_ok_iff rfl).mpr ⟨⟨[], hknown⟩, parts, hagain, hpipeline⟩,
    (hform canonical hagain).trans hcanonical.symm⟩

/-- Conditions with a number in a text, a single value for a list, a pattern, an operator that nobody
has heard of and the owner's field, one that is no condition, and a page beyond the cap. -/
theorem Compiler.compile_canonical_ledger :
    let c : Compiler :=
      { collection := .text "transactions"
        settings := Settings.ofMap [("running_balance", .ledger {}), ("max_items", .value (.int 10))]
        ledger := some {} }
    let ann : Principal := { id := .text "ann" }
    let condition (field operator : String) (v : Value) : Value :=
      .object [("field", .text field), ("operator", .text operator), ("value", v)]
    let object : Document :=
      [("conditions", .list [condition "accountId" "==" (.text " 7 "), condition "tag" "in" (.text "25"),
          condition "note" "like" (.text "a.b"), condition "kind" "~" (.text "true"),
          condition "userId" ">" (.int 3), .int 5]),
        ("sortObject", .object [("date", .int 1), ("id", .int (-1))]),
        ("limitCount", .text "20px"), ("startAfter", .int 2)]
    let canonical : Document :=
      [("conditions", .list [condition "accountId" "==" (.int 7),
          condition "tag" "in" (.list [.int 25]), condition "note" "like" (.text "a.b"),
          condition "kind" "~" (.bool true), condition "userId" "==" (.text "ann")]),
        ("sortObject", .object [("date", .int 1), ("id", .int (-1))]),
        ("limitCount", .int 10), ("offsetCount", .int 2)]
    ∃ p, c.compile (some ann) object = .ok p ∧ c.compile (some ann) canonical = .ok p := by
  intro c ann condition object canonical
  obtain ⟨p, hp, hform⟩ : ∃ p, c.compile (some ann) object = .ok p ∧
      ((({ compiler := c, principal := some ann } : Query).take object).1).canonical p = canonical :=
    ⟨_, by with_unfolding_all rfl, by with_unfolding_all rfl⟩
  have hall : ∀ part, c.settings.isEnabled part = true := by
    intro part
    cases part <;> rfl
  have h := (c.compile_canonical hall rfl (.inr ⟨10, rfl⟩) (some ann) object hp).1
  rw [hform] at h
  exact ⟨p, hp, h⟩

end QueryPipeline
