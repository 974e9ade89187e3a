import QueryPipeline.Proofs.LeadingDigits
import QueryPipeline.Proofs.Skipping
import QueryPipeline.Proofs.SortSections

/-!
Lenient queries. Whatever the client sends, a lenient query compiles it, unless there are too many digits
in a number where it needs them: one of the page that is given by a text, or one that has to be put into
words. In JSON only the first can happen.
-/

namespace QueryPipeline

/-! ## Sections -/

namespace Filter

variable {rules : Rules} {part : Value}

/-- There is an entry in the section that asks for the words of a value that has none. -/
def Wordless (own : Condition.Ownership) (part : Value) : Prop :=
  ∃ entries, part = .list entries ∧ ∃ entry ∈ entries, Condition.Wordless own entry

theorem read_of_wordless (hlenient : rules.lenient = true) (h : Wordless rules.own part) :
    read rules part = .error (.misuse .tooManyDigits) := by
  obtain ⟨entries, rfl, hentry⟩ := h
  exact read_wordless rules hlenient hentry

theorem read_total (hlenient : rules.lenient = true) (h : ¬ Wordless rules.own part) :
    ∃ r, read rules part = .ok r := by
  cases part with
  | list entries =>
      have hall : ∀ entry ∈ entries, ¬ Condition.Wordless rules.own entry :=
        fun entry hentry hnone => h ⟨entries, rfl, entry, hentry, hnone⟩
      obtain ⟨f, hread, -⟩ := read_written rules hlenient hall
      exact ⟨_, hread⟩
  | _ =>
      unfold read
      rw [hlenient]
      split <;> exact ⟨_, rfl⟩

theorem not_wordless {own : Condition.Ownership} (h : part.hasText = true) : ¬ Wordless own part := by
  rintro ⟨entries, rfl, entry, hentry, hnone⟩
  exact Condition.not_wordless (Value.hasText_list.mp h entry hentry) hnone

end Filter

namespace Sorting

variable {rules : Rules} {part : Value}

theorem single_total {key : Value} (h : key.isKey = true) (direction : Value) :
    ∃ spec, single key direction = .ok spec := by
  rw [single, if_pos h]
  exact ⟨_, rfl⟩

theorem readField_total (h : rules.lenient = true) (hkey : rules.defaultField.isKey = true)
    (part : Document) : ∃ spec, readField rules part = .ok spec := by
  unfold readField
  simp only [h]
  split
  · rename_i hgiven
    rw [hgiven]
    exact single_total rfl _
  · exact single_total hkey _

theorem read_total (hlenient : rules.lenient = true) (hkey : rules.defaultField.isKey = true)
    (h : ¬ Unshown part) : ∃ spec, read rules part = .ok spec := by
  rw [read_section (.inl hlenient)]
  cases htruthy : (given part "sortObject").isTruthy with
  | false =>
      rw [readSection_none htruthy]
      exact readField_total hlenient hkey _
  | true =>
      by_cases hobject : IsSortObject (given part "sortObject")
      · obtain ⟨spec, -, hread⟩ := readSection_sortObject hobject
        exact ⟨spec, hread rules⟩
      · obtain ⟨flaw, hread⟩ := readSection_broken h htruthy hobject
        rw [hread, if_pos hlenient]
        exact readField_total hlenient hkey _

end Sorting

namespace Page

variable {rules : Rules} {i : Input}

/-- A number of the section that is looked at has too many digits. The offset is only looked at when the
other way to say how many documents to skip gives no number. -/
def Input.IsOverlong (i : Input) : Prop :=
  i.count.IsOverlong ∨ i.start.IsOverlong ∨ i.start.toInteger = .ok none ∧ i.offset.IsOverlong

theorem integer_lenient (h : rules.lenient = true) (key : String) (v : Value) :
    integer rules key v = v.toInteger := by
  unfold integer
  cases v.toInteger with
  | error fault => rfl
  | ok n? =>
      cases n? with
      | some n => rfl
      | none => simp [Except.bind, h]

theorem read_overlong (h : rules.lenient = true) (hlong : i.IsOverlong) :
    read rules i = .error (.misuse .tooManyDigits) := by
  unfold read
  simp only [integer_lenient h]
  by_cases hcount : i.count.IsOverlong
  · rw [Value.toInteger_overlong hcount]
    rfl
  · obtain ⟨limit, hlimit⟩ := Value.toInteger_of_not_overlong hcount
    rw [hlimit]
    rcases hlong.resolve_left hcount with hstart | ⟨hstart, hoffset⟩
    · rw [Value.toInteger_overlong hstart]
      rfl
    · rw [hstart, Value.toInteger_overlong hoffset]
      rfl

theorem read_of_not_overlong (h : rules.lenient = true) (hlong : ¬ i.IsOverlong) :
    ∃ page, read rules i = .ok page := by
  obtain ⟨hcount, hstart, hoffset⟩ : ¬ i.count.IsOverlong ∧ ¬ i.start.IsOverlong ∧
      (i.start.toInteger = .ok none → ¬ i.offset.IsOverlong) := by
    simpa [Input.IsOverlong, not_or] using hlong
  obtain ⟨limit, hlimit⟩ := Value.toInteger_of_not_overlong hcount
  obtain ⟨start, hread⟩ := Value.toInteger_of_not_overlong hstart
  unfold read
  simp only [integer_lenient h, hlimit, hread]
  cases start with
  | some n => exact ⟨_, rfl⟩
  | none =>
      obtain ⟨skip, hskip⟩ := Value.toInteger_of_not_overlong (hoffset hread)
      rw [hskip]
      exact ⟨_, rfl⟩

end Page

/-! ## Queries -/

theorem Value.keyText?_of_isKey {v : Value} (h : v.isKey = true) : ∃ key, v.keyText? = some key := by
  cases v with
  | bool b => cases b <;> exact ⟨_, rfl⟩
  | list items => cases h
  | object entries => cases h
  | _ => exact ⟨_, rfl⟩

namespace Query

variable {q : Query} {object : Document} {parts : Parts}

theorem checkKeys_total (h : q.compiler.settings.isLenient = true) (object : Document) :
    ∃ warnings, q.checkKeys object = .ok warnings := by
  unfold checkKeys
  rw [h]
  split <;> exact ⟨_, rfl⟩

theorem scope_total (hkey : q.compiler.settings.ownerField.isKey = true) {filter : Filter}
    (hf : q.progress.bind (·.filter.get?) = some filter) (ledger : Ledger) :
    ∃ scope, q.scope ledger q.compiler.settings.ownerField = .ok scope := by
  obtain ⟨key, hname⟩ := Value.keyText?_of_isKey hkey
  unfold scope
  simp only [hf, ownerKey, hname]
  split
  · split <;> cases filter.constraints.scalar? ledger.account <;> exact ⟨_, rfl⟩
  · cases filter.constraints.scalar? ledger.account <;> exact ⟨_, rfl⟩

/-- A query that has read its query object can be ended. -/
theorem pipeline_total (hkey : q.compiler.settings.ownerField.isKey = true) (parts : Parts) :
    ∃ p, (q.holding parts).pipeline (q.holding parts) = .ok p := by
  unfold pipeline
  cases (q.holding parts).activeLedger with
  | none => exact ⟨_, rfl⟩
  | some ledger =>
      obtain ⟨scope, hscope⟩ := scope_total (q := q.holding parts) hkey rfl ledger
      simp only [hscope]
      exact ⟨_, rfl⟩

end Query

/-! ## Compilation -/

namespace QueryObject

variable {own : Condition.Ownership} {object : Document}

/-- There are too many digits in a number of the query object, where they matter: in a value of the filter
or of the sort object that has to be put into words, or in a number of the page that is looked at. -/
inductive IsOverlong (own : Condition.Ownership) (object : Document) : Prop where
  | filter (h : Filter.Wordless own ((filter? object).getD .null))
  | sort (h : Sorting.Unshown ((sort? object).getD .null))
  | page (h : ((page? object).getD {}).IsOverlong)

theorem hasText_sort? (h : (Value.object object).hasText = true) :
    ((sort? object).getD .null).hasText = true := by
  unfold sort?
  split
  · exact Value.hasText_get? h "sort"
  · refine Value.hasText_object.mpr fun entry hentry => ?_
    obtain ⟨key, -, hkey⟩ := List.mem_filterMap.mp hentry
    obtain ⟨v, hv, rfl⟩ := Option.map_eq_some_iff.mp hkey
    exact Value.hasText_object.mp h _ (Entries.mem_of_get? hv)

/-- What has words can have too many digits only in the texts of its page. -/
theorem isOverlong_iff (h : (Value.object object).hasText = true) :
    IsOverlong own object ↔ ((page? object).getD {}).IsOverlong := by
  refine ⟨?_, .page⟩
  rintro (hfilter | hsort | hpage)
  · exact absurd hfilter (Filter.not_wordless (hasText_filter? h))
  · exact absurd hsort (Sorting.not_unshown (hasText_sort? h))
  · exact hpage

end QueryObject

namespace Compiler

section

variable {c : Compiler} (hlenient : c.settings.isLenient = true)
  (hall : ∀ part, c.settings.isEnabled part = true) (hsort : c.settings.defaultSortField.isKey = true)
  (principal : Option Principal) (object : Document)

include hall

/-- Where no section is disabled, a query reads them one after another. -/
theorem parts_enabled : ({ compiler := c, principal } : Query).parts object = (do
    let (filter, _) ← ({ compiler := c, principal } : Query).readFilter object
    let sort ← Sorting.read c.settings.sorting ((QueryObject.sort? object).getD .null)
    let page ← Page.read c.settings.paging ((QueryObject.page? object).getD {})
    return { filter, sort, page }) := by
  have henabled : ∀ part, ({ compiler := c, principal } : Query).requireEnabled part = .ok () :=
    requireEnabled_eq hall rfl
  unfold Query.parts
  simp only [Slot.outcome_enabled (henabled _)]

include hlenient hsort

theorem parts_overlong
    (h : QueryObject.IsOverlong ({ compiler := c, principal } : Query).ownership object) :
    ({ compiler := c, principal } : Query).parts object = .error (.misuse .tooManyDigits) := by
  let q : Query := { compiler := c, principal }
  rw [parts_enabled hall, Query.readFilter]
  by_cases hfilter : Filter.Wordless q.ownership ((QueryObject.filter? object).getD .null)
  · have hread : Filter.read q.filtering ((QueryObject.filter? object).getD .null) =
        .error (.misuse .tooManyDigits) := Filter.read_of_wordless hlenient hfilter
    rw [hread]
    rfl
  · obtain ⟨r, hread⟩ : ∃ r, Filter.read q.filtering ((QueryObject.filter? object).getD .null) = .ok r :=
      Filter.read_total hlenient hfilter
    rw [hread]
    by_cases hshown : Sorting.Unshown ((QueryObject.sort? object).getD .null)
    · rw [Sorting.read_unshown hshown]
      rfl
    · obtain ⟨sort, hsorted⟩ : ∃ sort, Sorting.read c.settings.sorting
          ((QueryObject.sort? object).getD .null) = .ok sort := Sorting.read_total hlenient hsort hshown
      have hpage : Page.read c.settings.paging ((QueryObject.page? object).getD {}) =
          .error (.misuse .tooManyDigits) := by
        rcases h with h | h | h
        · exact absurd h hfilter
        · exact absurd h hshown
        · exact Page.read_overlong hlenient h
      rw [hsorted, hpage]
      rfl

theorem parts_total
    (h : ¬ QueryObject.IsOverlong ({ compiler := c, principal } : Query).ownership object) :
    ∃ parts, ({ compiler := c, principal } : Query).parts object = .ok parts := by
  let q : Query := { compiler := c, principal }
  obtain ⟨r, hfilter⟩ : ∃ r, Filter.read q.filtering ((QueryObject.filter? object).getD .null) = .ok r :=
    Filter.read_total hlenient fun hnone => h (.filter hnone)
  obtain ⟨sort, hsorted⟩ : ∃ sort, Sorting.read c.settings.sorting
      ((QueryObject.sort? object).getD .null) = .ok sort :=
    Sorting.read_total hlenient hsort fun hnone => h (.sort hnone)
  obtain ⟨page, hpage⟩ : ∃ page, Page.read c.settings.paging ((QueryObject.page? object).getD {}) =
      .ok page := Page.read_of_not_overlong hlenient fun hlong => h (.page hlong)
  rw [parts_enabled hall, Query.readFilter, hfilter, hsorted, hpage]
  exact ⟨_, rfl⟩

theorem compile_overlong
    (h : QueryObject.IsOverlong ({ compiler := c, principal } : Query).ownership object) :
    c.compile principal object = .error (.misuse .tooManyDigits) := by
  let q : Query := { compiler := c, principal }
  obtain ⟨warnings, hkeys⟩ : ∃ warnings, q.checkKeys object = .ok warnings :=
    Query.checkKeys_total hlenient object
  rw [compile_eq, Query.compile_eq_parts rfl, hkeys, parts_overlong hlenient hall hsort principal object h]
  rfl

/-- A lenient query gives a pipeline for whatever it is sent, unless there are too many digits in a number
where it needs them; then it fails, and does not blame the client. In a query object of JSON only a number
of the page that is given by a text can have so many. -/
theorem lenient_compiles_iff (howner : c.settings.ownerField.isKey = true) :
    let own := ({ compiler := c, principal } : Query).ownership
    ((∃ p, c.compile principal object = .ok p) ↔ ¬ QueryObject.IsOverlong own object) ∧
    (QueryObject.IsOverlong own object → c.compile principal object = .error (.misuse .tooManyDigits)) ∧
    ((Value.object object).InJson →
      (QueryObject.IsOverlong own object ↔ ((QueryObject.page? object).getD {}).IsOverlong)) := by
  intro own
  have hfails := compile_overlong hlenient hall hsort principal object
  refine ⟨⟨?_, fun hlong => ?_⟩, hfails, fun hjson => QueryObject.isOverlong_iff hjson.hasText⟩
  · rintro ⟨p, hp⟩ hlong
    cases (hfails hlong).symm.trans hp
  · let q : Query := { compiler := c, principal }
    obtain ⟨parts, hparts⟩ := parts_total hlenient hall hsort principal object hlong
    obtain ⟨p, hpipeline⟩ := Query.pipeline_total (q := q) howner parts
    refine ⟨p, ?_⟩
    rw [compile_eq]
    exact (Query.compile_eq_ok_iff rfl).mpr ⟨Query.checkKeys_total hlenient object, _, hparts, hpipeline⟩

end

/-- A compiler with nothing but the usual settings. -/
def usual : Compiler where
  collection := .text "users"
  settings := Settings.ofMap []
  ledger := none

theorem usual_enabled (part : Section) : usual.settings.isEnabled part = true := by
  cases part <;> rfl

/-- An offset of too many digits does no harm as long as nobody looks at it. -/
theorem lenient_compiles_unread_offset :
    let digits : Value := .text (String.ofList (List.replicate 4301 '9'))
    let object (start : Value) : Document :=
      [("limitCount", .text "20px"), ("offsetCount", digits), ("startAfter", start),
        ("conditions", .int 5), ("sortObject", .list [.int 1]), ("nope", .null)]
    (∃ p, usual.compile none (object (.text " 7 items")) = .ok p) ∧
      usual.compile none (object (.text "seven")) = .error (.misuse .tooManyDigits) := by
  intro digits object
  have hread : ∀ {v n?}, Value.toInteger v = .ok n? → ¬ v.IsOverlong := by
    intro v n? hn hlong
    cases (Value.toInteger_overlong hlong).symm.trans hn
  have hcount : (Value.text "20px").toInteger = .ok (some 20) := by with_unfolding_all rfl
  have hseven : (Value.text " 7 items").toInteger = .ok (some 7) := by with_unfolding_all rfl
  have hnone : (Value.text "seven").toInteger = .ok none := by with_unfolding_all rfl
  have hdigits : digits.IsOverlong := Value.isOverlong_nines (by decide)
  constructor
  · refine (lenient_compiles_iff rfl usual_enabled rfl none (object _) rfl).1.mpr ?_
    rintro (⟨entries, hconditions, -⟩ | ⟨before, field, v, after, hobject, -⟩ | h | h | ⟨h, -⟩)
    · cases hconditions
    · cases hobject
    · exact hread hcount h
    · exact hread hseven h
    · cases hseven.symm.trans h
  · exact (lenient_compiles_iff rfl usual_enabled rfl none (object _) rfl).2.1
      (.page (.inr (.inr ⟨hnone, hdigits⟩)))

/-- With nothing but the usual settings, a limit of too many digits is an error of the program. -/
theorem uncompiled_long_limit :
    let digits : Value := .text (String.ofList (List.replicate 4301 '9'))
    make (.text "users") [] = .ok usual ∧ usual.settings.isLenient = true ∧
      (∀ part, usual.settings.isEnabled part = true) ∧
      usual.compile none [("limitCount", digits)] = .error (.misuse .tooManyDigits) ∧
      (Fault.misuse .tooManyDigits).status = 500 := by
  intro digits
  exact ⟨by with_unfolding_all rfl, rfl, usual_enabled, compile_overlong rfl usual_enabled rfl none _
    (.page (.inl (Value.isOverlong_nines (by decide)))), rfl⟩

end Compiler

end QueryPipeline
