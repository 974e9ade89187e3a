import QueryPipeline.Proofs.Ownership

/-!
Conditions as entries again. They are read as themselves: what was replaced, coerced or made a list in
the first reading is left alone in the second.
-/

namespace QueryPipeline

namespace Value

theorem number?_ne_text (cs : List Char) (s : String) : number? cs ≠ some (.text s) := by
  intro h
  unfold number? at h
  split at h
  · cases h
  · obtain ⟨x, -, hx⟩ := Option.bind_eq_some_iff.mp h
    split at hx <;> cases hx

/-- A text stands for no text but itself. -/
theorem ofText_eq_text {s t : String} (h : ofText s = .text t) : t = s := by
  unfold ofText at h
  split at h
  · cases h
  · split at h
    · cases h
    · cases hn : number? (Text.trim s.toList) with
      | none =>
          rw [hn] at h
          cases h
          rfl
      | some v =>
          rw [hn] at h
          cases h
          exact absurd hn (number?_ne_text _ _)

theorem coerced_coerced (v : Value) : v.coerced.coerced = v.coerced := by
  cases v with
  | text s =>
      change (ofText s).coerced = ofText s
      cases h : ofText s with
      | text t =>
          rw [coerced, ofText_eq_text h] at *
          exact h
      | _ => rfl
  | _ => rfl

end Value

namespace Condition

variable {own : Ownership} {entry v : Value} {field operator : String} {c : Condition}

theorem prepare_prepare (action : Action) (v : Value) :
    prepare action (prepare action v) = prepare action v := by
  cases action with
  | equate | test | assign => exact Value.coerced_coerced v
  | member t =>
      have hlist : ∃ items, prepare (.member t) v = .list items := by
        cases h : v.coerced <;> simp [prepare, Action.coerces, h]
      obtain ⟨items, hitems⟩ := hlist
      rw [hitems]
      rfl
  | search | contain => rfl

theorem ofOperator_value (h : (ofOperator field operator v).condition? = some c) :
    ofOperator c.field c.operator c.value = ofOperator field operator v := by
  obtain ⟨rfl, rfl, hvalue, haction⟩ := ofOperator_condition h
  unfold ofOperator
  cases hname : Action.ofName? c.operator <;>
    simp [hname, hvalue, haction, prepare_prepare]

theorem read_named (hf : field ≠ "") (ho : operator ≠ "") (v : Value) :
    read own (.object [("field", .text field), ("operator", .text operator), ("value", v)]) =
      if own.claims (.text field) then .condition (ofOwner own field)
      else ofOperator field operator v := by
  by_cases hclaims : own.claims (.text field) = true <;>
    simp [read, Entries.get?, Value.isTruthy, hf, ho, hclaims]

/-- A condition, as an entry, is read as the entry was that it was read from. -/
theorem read_toValue (h : (read own entry).condition? = some c) :
    read own c.toValue = read own entry := by
  obtain ⟨hf, ho, hread⟩ := read_inv h
  rw [toValue, read_named hf ho]
  split
  · rename_i hclaims
    rw [if_pos hclaims] at hread
    exact hread.symm
  · rename_i hclaims
    rw [if_neg hclaims] at hread
    obtain ⟨v, hv⟩ := hread
    rw [hv] at h ⊢
    exact ofOperator_value h

end Condition

namespace Filter

variable {rules : Rules} {part : Value} {f : Filter} {log : List LogEntry}

theorem readEntry_toValue {entry : Value} {c : Condition} (h : readEntry rules entry = .ok (some c, log)) :
    readEntry rules c.toValue = .ok (some c, []) := by
  have hread := Condition.read_toValue (readEntry_condition h)
  unfold readEntry at h ⊢
  rw [hread]
  split at h
  · cases h
    rfl
  · split at h
    · rename_i hlenient
      cases h
      exact if_pos hlenient
    · cases h
  · split at h <;> cases h

theorem readEntries_toValue {entries : List Value} {cs : List Condition}
    (h : readEntries rules entries = .ok (cs, log)) :
    readEntries rules (cs.map Condition.toValue) = .ok (cs, []) := by
  induction entries generalizing cs log with
  | nil =>
      cases h
      rfl
  | cons entry rest ih =>
      obtain ⟨c?, warnings, others, more, hentry, hrest, rfl, -⟩ := readEntries_cons.mp h
      cases c? with
      | none => exact ih hrest
      | some c =>
          exact readEntries_cons.mpr ⟨some c, [], others, [], readEntry_toValue hentry, ih hrest, rfl, rfl⟩

/-- A filter, as a list of conditions, is read as itself, without a warning. -/
theorem read_toValue (h : read rules part = .ok (f, log)) : read rules f.toValue = .ok (f, []) := by
  obtain ⟨entries, warnings, hlist⟩ := read_entries h
  obtain ⟨hread, hpattern⟩ := read_list_ok.mp hlist
  exact read_list_ok.mpr ⟨readEntries_toValue hread, hpattern⟩

end Filter

end QueryPipeline
