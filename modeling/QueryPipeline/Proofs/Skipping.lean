import QueryPipeline.Proofs.Strictness

/-!
What becomes of each entry of a filter. A lenient reader makes a condition of it or warns about it, and
never both or neither; a strict one stops at the first entry that is no condition, or whose operator
nobody knows. Only for values without words there may be no pattern to ask for, and no message.
-/

namespace QueryPipeline

open Entries (get?)

namespace Condition

/-! ## Entries -/

/-- The entry names its field and its operator, by texts with something in them. -/
structure Names (entries : Document) (field operator : String) : Prop where
  has_field : get? entries "field" = some (.text field)
  field_ne : field ≠ ""
  has_operator : get? entries "operator" = some (.text operator)
  operator_ne : operator ≠ ""

/-- An entry with all that a condition needs: a field, an operator, and a value, which the owner's field
can do without. -/
def WellFormed (own : Ownership) (entry : Value) : Prop :=
  ∃ entries field operator, entry = .object entries ∧ Names entries field operator ∧
    (own.field = .text field ∨ ∃ v, get? entries "value" = some v)

/-- The condition that an operator makes of a value. One that nobody knows makes a plain comparison. -/
def ofNamed (field operator : String) (v : Value) : Condition :=
  let action := (Action.ofName? operator).getD .assign
  { field, operator, action, value := prepare action v }

/-- The condition that an entry stands for. -/
inductive StandsFor (own : Ownership) : Value → Condition → Prop where
  | owner {entries : Document} {field operator : String} (hnames : Names entries field operator)
      (howner : own.field = .text field) : StandsFor own (.object entries) (ofOwner own field)
  | other {entries : Document} {field operator : String} {v : Value}
      (hnames : Names entries field operator) (hother : own.field ≠ .text field)
      (hv : get? entries "value" = some v) :
      StandsFor own (.object entries) (ofNamed field operator v)

/-- An entry for another field than the owner's, with an operator that nobody knows. -/
def Unsupported (own : Ownership) (entry : Value) : Prop :=
  ∃ c, StandsFor own entry c ∧ own.field ≠ .text c.field ∧ Action.ofName? c.operator = none

/-- The field or the operator is missing, or counts as nothing, or the value is missing that another field
than the owner's needs. -/
def Lacks (own : Ownership) (entries : Document) : Prop :=
  let given (key : String) : Value := (get? entries key).getD .null
  (given "field").isTruthy = false ∨ (given "operator").isTruthy = false ∨
    own.claims (given "field") = false ∧ get? entries "value" = none

/-- What an entry is refused for. -/
inductive Refuses (own : Ownership) : Value → Flaw → Prop where
  | notObject {entry : Value} (hentry : ∀ entries, entry ≠ .object entries) :
      Refuses own entry (.condition .notObject entry)
  | incomplete {entries : Document} (hlacks : Lacks own entries) :
      Refuses own (.object entries) (.condition .incomplete (.object entries))
  | notText {entries : Document} (hlacks : ¬ Lacks own entries)
      (hnames : ∀ field operator, ¬ Names entries field operator) :
      Refuses own (.object entries) (.condition .notText (.object entries))
  | unsupported {entry : Value} {c : Condition} (hentry : StandsFor own entry c)
      (hother : own.field ≠ .text c.field) (hoperator : Action.ofName? c.operator = none) :
      Refuses own entry (.unsupportedOperator c.operator c.field)

variable {own : Ownership} {entries : Document} {field operator : String} {entry : Value} {c : Condition}

theorem Ownership.claims_text (own : Ownership) (field : String) :
    own.claims (.text field) = true ↔ own.field = .text field := by
  rw [claims]
  cases own.field with
  | text s =>
      have hsame : (Value.text field).alike (.text s) = true ↔ s = field :=
        (Value.alike_text_iff _ _).trans (by simp [eq_comm])
      simpa using hsame
  | _ => simp [Value.alike, Value.equalNumbers, Value.ratio?]

theorem ofOperator_eq (field operator : String) (v : Value) : ofOperator field operator v =
    if (Action.ofName? operator).isSome then .condition (ofNamed field operator v)
    else .unknownOperator (ofNamed field operator v) := by
  cases h : Action.ofName? operator <;> simp [ofOperator, ofNamed, h]

theorem lacks_iff (h : Names entries field operator) :
    Lacks own entries ↔ own.field ≠ .text field ∧ get? entries "value" = none := by
  have hf : (Value.text field).isTruthy = true := by simp [Value.isTruthy, h.field_ne]
  have ho : (Value.text operator).isTruthy = true := by simp [Value.isTruthy, h.operator_ne]
  simp only [Lacks, h.has_field, h.has_operator, Option.getD_some, hf, ho]
  rw [← Bool.not_eq_true (own.claims _), Ownership.claims_text]
  simp

theorem read_of_lacks (h : Lacks own entries) : read own (.object entries) = .malformed .incomplete := by
  simp only [Lacks] at h
  simp only [read]
  rcases h with hfield | hoperator | ⟨hother, hvalue⟩
  · simp [hfield]
  · simp [hoperator]
  · simp [hother, hvalue]

theorem names_of_given (hfield : (get? entries "field").getD .null = .text field)
    (hoperator : (get? entries "operator").getD .null = .text operator) (h : ¬ Lacks own entries) :
    Names entries field operator := by
  have hgiven : ∀ {v? : Option Value} {s}, v?.getD .null = .text s → v? = some (.text s) := by
    intro v? s hv
    cases v? with
    | none => cases hv
    | some v => exact congrArg some hv
  simp only [Lacks, hfield, hoperator, not_or] at h
  exact ⟨hgiven hfield, by simpa [Value.isTruthy] using h.1, hgiven hoperator,
    by simpa [Value.isTruthy] using h.2.1⟩

/-- What is complete and does not name its field and its operator has something else than texts there. -/
theorem read_of_unnamed (h : ¬ Lacks own entries)
    (hnames : ∀ field operator, ¬ Names entries field operator) :
    read own (.object entries) = .malformed .notText := by
  have hcomplete := h
  simp only [Lacks, not_or, Bool.not_eq_false] at hcomplete
  obtain ⟨hfield, hoperator, hvalue⟩ := hcomplete
  simp only [read, hfield, hoperator, Bool.not_true, Bool.or_false, Bool.false_eq_true, if_false]
  split
  · rename_i hnone
    split at hnone
    · cases hnone
    · rename_i hother
      exact absurd ⟨Bool.eq_false_iff.mpr hother, hnone⟩ hvalue
  · rename_i hf ho
    exact absurd (names_of_given hf ho h) (hnames _ _)
  · rfl

/-- What is named is the condition for the owner, or the one that the operator makes of the value. -/
theorem read_of_names (h : Names entries field operator) (hlacks : ¬ Lacks own entries) :
    own.field = .text field ∧ read own (.object entries) = .condition (ofOwner own field) ∨
      own.field ≠ .text field ∧ ∃ v, get? entries "value" = some v ∧
        read own (.object entries) = ofOperator field operator v := by
  have hf : (Value.text field).isTruthy = true := by simp [Value.isTruthy, h.field_ne]
  have ho : (Value.text operator).isTruthy = true := by simp [Value.isTruthy, h.operator_ne]
  by_cases howner : own.field = .text field
  · have hclaims : own.claims (.text field) = true := (own.claims_text field).mpr howner
    simp [read, h.has_field, h.has_operator, hf, ho, hclaims, howner]
  · have hclaims : own.claims (.text field) = false := by
      rw [← Bool.not_eq_true, own.claims_text field]
      exact howner
    rw [lacks_iff h, not_and] at hlacks
    obtain ⟨v, hv⟩ := Option.ne_none_iff_exists'.mp (hlacks howner)
    refine .inr ⟨howner, v, hv, ?_⟩
    simp [read, h.has_field, h.has_operator, hf, ho, hclaims, hv]

theorem wellFormed_iff_standsFor : WellFormed own entry ↔ ∃ c, StandsFor own entry c := by
  constructor
  · rintro ⟨entries, field, operator, rfl, hnames, hvalue⟩
    by_cases howner : own.field = .text field
    · exact ⟨_, .owner hnames howner⟩
    · obtain ⟨v, hv⟩ := hvalue.resolve_left howner
      exact ⟨_, .other hnames howner hv⟩
  · rintro ⟨c, (⟨hnames, howner⟩ | ⟨hnames, -, hv⟩)⟩
    · exact ⟨_, _, _, rfl, hnames, .inl howner⟩
    · exact ⟨_, _, _, rfl, hnames, .inr ⟨_, hv⟩⟩

theorem not_lacks (h : Names entries field operator)
    (hvalue : own.field = .text field ∨ ∃ v, get? entries "value" = some v) : ¬ Lacks own entries := by
  rw [lacks_iff h]
  rintro ⟨hother, hnone⟩
  obtain ⟨v, hv⟩ := hvalue.resolve_left hother
  cases hnone.symm.trans hv

/-- An entry is read as what it stands for. -/
theorem read_standsFor (h : StandsFor own entry c) : read own entry =
    if own.field ≠ .text c.field ∧ Action.ofName? c.operator = none then .unknownOperator c
    else .condition c := by
  cases h with
  | owner hnames howner =>
      rcases read_of_names hnames (not_lacks hnames (.inl howner)) with ⟨-, hread⟩ | ⟨hother, -⟩
      · rw [hread, if_neg fun hunknown => hunknown.1 howner]
      · exact absurd howner hother
  | other hnames hother hv =>
      rcases read_of_names hnames (not_lacks hnames (.inr ⟨_, hv⟩)) with ⟨howner, -⟩ | ⟨-, w, hw, hread⟩
      · exact absurd howner hother
      · cases hv.symm.trans hw
        rw [hread, ofOperator_eq]
        cases h : Action.ofName? _ <;> simp [ofNamed, h, hother]

/-- An entry that is not well-formed is malformed in one of three ways. -/
theorem read_malformed (h : ¬ WellFormed own entry) :
    ∃ flaw, Refuses own entry (.condition flaw entry) ∧ read own entry = .malformed flaw := by
  by_cases hobject : ∃ entries, entry = .object entries
  · obtain ⟨entries, rfl⟩ := hobject
    by_cases hlacks : Lacks own entries
    · exact ⟨_, .incomplete hlacks, read_of_lacks hlacks⟩
    · have hnames : ∀ field operator, ¬ Names entries field operator := by
        intro field operator hnames
        refine h ⟨entries, field, operator, rfl, hnames, ?_⟩
        rcases read_of_names hnames hlacks with ⟨howner, -⟩ | ⟨-, v, hv, -⟩
        · exact .inl howner
        · exact .inr ⟨v, hv⟩
      exact ⟨_, .notText hlacks hnames, read_of_unnamed hlacks hnames⟩
  · refine ⟨_, .notObject (not_exists.mp hobject), ?_⟩
    cases entry with
    | object entries => exact absurd ⟨entries, rfl⟩ hobject
    | _ => rfl

theorem isSome_condition?_iff : (read own entry).condition?.isSome = true ↔ WellFormed own entry := by
  by_cases h : WellFormed own entry
  · obtain ⟨c, hc⟩ := wellFormed_iff_standsFor.mp h
    rw [read_standsFor hc]
    split <;> exact iff_of_true rfl h
  · obtain ⟨flaw, -, hread⟩ := read_malformed h
    rw [hread]
    exact iff_of_false nofun h

instance (own : Ownership) : DecidablePred (WellFormed own) :=
  fun _ => decidable_of_iff _ isSome_condition?_iff

/-- On the owner's field an entry needs no value. -/
example : WellFormed { field := .text "userId", id := .int 7 }
    (.object [("operator", .text "=="), ("field", .text "userId")]) := by
  decide

/-- An entry that a strict reader makes a condition of. -/
def Accepted (own : Ownership) (entry : Value) : Prop :=
  WellFormed own entry ∧ ¬ Unsupported own entry

/-- The first entry that a strict reader does not accept is refused for this. -/
def FirstRefused (own : Ownership) (entries : List Value) (flaw : Flaw) : Prop :=
  ∃ before entry after, entries = before ++ entry :: after ∧ (∀ entry ∈ before, Accepted own entry) ∧
    ¬ Accepted own entry ∧ Refuses own entry flaw

/-- An entry for another field than the owner's that asks for the words of a value that has none. -/
def Wordless (own : Ownership) (entry : Value) : Prop :=
  ∃ entries field v, entry = .object entries ∧ Names entries field "like" ∧ own.field ≠ .text field ∧
    get? entries "value" = some v ∧ v.hasText = false

theorem ofName?_eq_contain {operator : String} :
    Action.ofName? operator = some .contain ↔ operator = "like" := by
  have hn : (Entries.keys Action.table).Nodup := by decide
  rw [Action.ofName?, ← Entries.mem_iff_get? hn]
  simp [Action.table]

/-- A condition lacks the pattern that it asks for just when its entry asks for words that there are not. -/
theorem hasPattern_eq_false_iff (h : StandsFor own entry c) : c.hasPattern = false ↔ Wordless own entry := by
  cases h with
  | @owner entries field operator hnames howner =>
      refine iff_of_false (fun hnone => Bool.false_ne_true hnone.symm) ?_
      rintro ⟨_, name, v, ⟨⟩, hlike, hother, -⟩
      cases hnames.has_field.symm.trans hlike.has_field
      exact hother howner
  | @other entries field operator v hnames hother hv =>
      have hsame : Wordless own (.object entries) ↔ operator = "like" ∧ v.hasText = false := by
        constructor
        · rintro ⟨_, name, w, ⟨⟩, hlike, -, hw, hnone⟩
          cases hv.symm.trans hw
          cases hnames.has_operator.symm.trans hlike.has_operator
          exact ⟨rfl, hnone⟩
        · rintro ⟨rfl, hnone⟩
          exact ⟨entries, field, v, rfl, hnames, hother, hv, hnone⟩
      rw [hsame, ← ofName?_eq_contain]
      cases haction : Action.ofName? operator with
      | none => simp [hasPattern, ofNamed, haction]
      | some action =>
          cases action <;>
            simp [hasPattern, pattern?, ofNamed, haction, prepare, Action.coerces,
              ← Value.isSome_plain?]

/-- What has words has the words that it asks for. -/
theorem not_wordless (h : entry.hasText = true) : ¬ Wordless own entry := by
  rintro ⟨entries, field, v, rfl, -, -, hv, hnone⟩
  have hwords : v.hasText = true := Value.hasText_object.mp h _ (Entries.mem_of_get? hv)
  exact Bool.false_ne_true (hnone.symm.trans hwords)

theorem Wordless.wellFormed (h : Wordless own entry) : WellFormed own entry := by
  obtain ⟨entries, field, v, rfl, hnames, -, hv, -⟩ := h
  exact ⟨entries, field, "like", rfl, hnames, .inr ⟨v, hv⟩⟩

end Condition

/-! ## Filters -/

namespace Filter

open Condition (WellFormed Unsupported Accepted StandsFor Refuses FirstRefused Wordless)

variable {rules : Rules} {entries : List Value} {entry : Value} {c : Condition} {flaw : Flaw}

theorem readEntry_standsFor (h : StandsFor rules.own entry c)
    (hsupported : rules.lenient = true ∨ ¬ Unsupported rules.own entry) :
    readEntry rules entry = .ok (some c, []) := by
  rw [readEntry, Condition.read_standsFor h]
  by_cases hunknown : rules.own.field ≠ .text c.field ∧ Action.ofName? c.operator = none
  · have hlenient : rules.lenient = true := hsupported.resolve_right fun hnot => hnot ⟨c, h, hunknown⟩
    rw [if_pos hunknown]
    exact if_pos hlenient
  · rw [if_neg hunknown]

theorem readEntry_accepted (h : Accepted rules.own entry) :
    ∃ c, readEntry rules entry = .ok (some c, []) := by
  obtain ⟨hformed, hsupported⟩ := h
  obtain ⟨c, hc⟩ := Condition.wellFormed_iff_standsFor.mp hformed
  exact ⟨c, readEntry_standsFor hc (.inr hsupported)⟩

theorem readEntry_skipped (hlenient : rules.lenient = true) (h : ¬ WellFormed rules.own entry) :
    readEntry rules entry = .ok (none, [skipped rules.collection entry]) := by
  obtain ⟨flaw, -, hread⟩ := Condition.read_malformed h
  rw [readEntry, hread]
  exact if_pos hlenient

theorem readEntry_refused (hstrict : rules.lenient = false) (h : Refuses rules.own entry flaw) :
    readEntry rules entry = .error flaw := by
  cases h with
  | notObject hentry =>
      cases entry with
      | object entries => exact absurd rfl (hentry entries)
      | _ => simp [readEntry, Condition.read, hstrict]
  | incomplete hlacks => simp [readEntry, Condition.read_of_lacks hlacks, hstrict]
  | notText hlacks hnames => simp [readEntry, Condition.read_of_unnamed hlacks hnames, hstrict]
  | unsupported hentry hother hoperator =>
      simp [readEntry, Condition.read_standsFor hentry, hother, hoperator, hstrict]

/-- A lenient reader makes a condition of each entry that is well-formed, and warns about each other. -/
theorem readEntries_filter (rules : Rules) (hlenient : rules.lenient = true) (entries : List Value) :
    ∃ cs, readEntries rules entries = .ok (cs,
        (entries.filter fun entry => ¬ WellFormed rules.own entry).map (skipped rules.collection)) ∧
      List.Forall₂ (StandsFor rules.own) (entries.filter fun entry => WellFormed rules.own entry) cs := by
  induction entries with
  | nil => exact ⟨[], rfl, .nil⟩
  | cons entry rest ih =>
      obtain ⟨cs, hrest, hcs⟩ := ih
      by_cases h : WellFormed rules.own entry
      · obtain ⟨c, hc⟩ := Condition.wellFormed_iff_standsFor.mp h
        have hentry := readEntry_standsFor hc (.inl hlenient)
        refine ⟨c :: cs, readEntries_cons.mpr ⟨some c, [], cs, _, hentry, hrest, rfl, ?_⟩, ?_⟩
        · simp [h]
        · simpa [h] using ⟨hc, hcs⟩
      · have hentry := readEntry_skipped hlenient h
        refine ⟨cs, readEntries_cons.mpr ⟨none, _, cs, _, hentry, hrest, rfl, ?_⟩, ?_⟩
        · simp [h]
        · simpa [h] using hcs

/-- A strict reader stops at the first entry that it refuses. -/
theorem readEntries_refused (rules : Rules) (hstrict : rules.lenient = false) {before after : List Value}
    (hbefore : ∀ entry ∈ before, Accepted rules.own entry) (h : Refuses rules.own entry flaw) :
    readEntries rules (before ++ entry :: after) = .error flaw := by
  induction before with
  | nil => rw [List.nil_append, readEntries, readEntry_refused hstrict h]
  | cons first rest ih =>
      obtain ⟨hentry, hrest⟩ := List.forall_mem_cons.mp hbefore
      obtain ⟨c, hc⟩ := readEntry_accepted hentry
      rw [List.cons_append, readEntries, hc]
      exact map_eq_error_iff.mpr (ih hrest)

/-- Conditions have patterns where no entry asks for words that there are not. -/
theorem hasPattern_iff {own : Condition.Ownership} {cs : List Condition}
    (h : List.Forall₂ (StandsFor own) entries cs) :
    (∀ c ∈ cs, c.hasPattern = true) ↔ ∀ entry ∈ entries, ¬ Wordless own entry := by
  induction h with
  | nil => simp
  | cons hentry _ ih =>
      rw [List.forall_mem_cons, List.forall_mem_cons, ih, ← Condition.hasPattern_eq_false_iff hentry,
        Bool.not_eq_false]

theorem wordless_wellFormed {own : Condition.Ownership} (entries : List Value) :
    (∀ entry ∈ entries.filter fun entry => WellFormed own entry, ¬ Wordless own entry) ↔
      ∀ entry ∈ entries, ¬ Wordless own entry := by
  refine ⟨fun h entry hentry hnone => h entry ?_ hnone, fun h entry hentry =>
    h entry (List.mem_of_mem_filter hentry)⟩
  exact List.mem_filter.mpr ⟨hentry, decide_eq_true hnone.wellFormed⟩

/-- A lenient reader makes a filter of the conditions that entries stand for, unless one of them asks for
words that there are not. -/
theorem read_written (rules : Rules) (hlenient : rules.lenient = true)
    (h : ∀ entry ∈ entries, ¬ Wordless rules.own entry) :
    ∃ f, read rules (.list entries) = .ok (f,
        (entries.filter fun entry => ¬ WellFormed rules.own entry).map (skipped rules.collection)) ∧
      List.Forall₂ (StandsFor rules.own) (entries.filter fun entry => WellFormed rules.own entry)
        f.conditions := by
  obtain ⟨cs, hcs, hall⟩ := readEntries_filter rules hlenient entries
  refine ⟨{ conditions := cs }, read_list_ok.mpr ⟨hcs, ?_⟩, hall⟩
  exact (hasPattern_iff hall).mpr ((wordless_wellFormed entries).mpr h)

theorem read_wordless (rules : Rules) (hlenient : rules.lenient = true)
    (h : ∃ entry ∈ entries, Wordless rules.own entry) :
    read rules (.list entries) = .error (.misuse .tooManyDigits) := by
  obtain ⟨cs, hcs, hall⟩ := readEntries_filter rules hlenient entries
  have hnone : ¬ ∀ c ∈ cs, c.hasPattern = true := by
    rw [hasPattern_iff hall, wordless_wellFormed]
    obtain ⟨entry, hentry, hwordless⟩ := h
    exact fun hno => hno entry hentry hwordless
  have hsome : ∃ c ∈ cs, c.hasPattern = false := by simpa using hnone
  rw [read_list, hcs]
  exact map_eq_error_iff.mpr (make_error hsome)

theorem read_refused (rules : Rules) (h : FirstRefused rules.own entries flaw) :
    read { rules with lenient := false } (.list entries) = .error (.ofFlaw flaw) := by
  obtain ⟨before, entry, after, rfl, hbefore, -, hflaw⟩ := h
  rw [read_list, readEntries_refused { rules with lenient := false } rfl hbefore hflaw]

end Filter

end QueryPipeline
