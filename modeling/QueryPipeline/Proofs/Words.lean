import QueryPipeline.Filter
import QueryPipeline.Proofs.JsonDomain

/-!
Words for values. A value has a text unless there is a number of too many digits in it, so every value of
JSON has one. A fault that shows a value with a text is what it says, and a filter of conditions that have
the patterns they ask for can be made.
-/

namespace QueryPipeline

namespace Value

variable {v : Value} {items : List Value} {entries : Document}

theorem hasText_int (n : Int) : (int n).hasText = true ↔ n.natAbs < 10 ^ digitLimit := by
  simp [hasText, shown?, digits?, Nat.pow_eq]

theorem isSome_shownItems? (items : List Value) : (shownItems? items).isSome = items.all hasText := by
  induction items with
  | nil => rfl
  | cons v rest ih =>
      rw [shownItems?, List.all_cons, ← ih, hasText]
      cases v.shown? <;> simp

theorem isSome_shownEntries? (entries : Document) :
    (shownEntries? entries).isSome = entries.all fun entry => entry.2.hasText := by
  induction entries with
  | nil => rfl
  | cons entry rest ih =>
      obtain ⟨key, v⟩ := entry
      rw [shownEntries?, List.all_cons, ← ih, hasText]
      cases v.shown? <;> simp

theorem hasText_list : (list items).hasText = true ↔ ∀ v ∈ items, v.hasText = true := by
  rw [hasText, shown?, Option.isSome_map, isSome_shownItems?, List.all_eq_true]

theorem hasText_object :
    (object entries).hasText = true ↔ ∀ entry ∈ entries, entry.2.hasText = true := by
  rw [hasText, shown?, Option.isSome_map, isSome_shownEntries?, List.all_eq_true]

/-- What messages can show has words, and nothing else has. -/
theorem isSome_plain? (v : Value) : v.plain?.isSome = v.hasText := by
  cases v with
  | text | time => simp only [plain?, hasText, shown?, Option.isSome_some]
  | _ => rfl

theorem hasText_get? (h : (object entries).hasText = true) (key : String) :
    ((Entries.get? entries key).getD .null).hasText = true := by
  cases hget : Entries.get? entries key with
  | none => rfl
  | some v => exact hasText_object.mp h _ (Entries.mem_of_get? hget)

theorem InJson.hasText (h : v.InJson) : v.hasText = true := by
  induction h with
  | null | float | text => rfl
  | bool b => cases b <;> rfl
  | @int n h =>
      have hlength : (Nat.digits 10 n.natAbs).length ≤ digitLimit := h
      exact (hasText_int n).mpr ((Nat.digits_length_le_iff (by decide) _).mp hlength)
  | list _ ih => exact hasText_list.mpr ih
  | object _ _ ih => exact hasText_object.mpr ih

/-- A number of one digit more than there may be has no text. -/
theorem hasText_pow : (int ((10 ^ digitLimit : Nat) : Int)).hasText = false := by
  rw [← Bool.not_eq_true, hasText_int, Int.natAbs_natCast]
  exact Nat.lt_irrefl _

end Value

namespace Fault

variable {flaw : Flaw}

/-- A flaw is at fault itself, unless its words show a value without a text. -/
theorem ofFlaw_cases (flaw : Flaw) : ofFlaw flaw = .invalid flaw ∨
    ofFlaw flaw = .misuse .tooManyDigits ∧ ∃ v, flaw.shows? = some v ∧ v.hasText = false := by
  rw [ofFlaw]
  cases flaw.shows? with
  | none => exact .inl rfl
  | some v => cases h : v.hasText <;> simp [h]

theorem ofMissing_cases (missing : Missing) : ofMissing missing = .notFound missing ∨
    ofMissing missing = .misuse .tooManyDigits ∧ missing.key.hasText = false := by
  rw [ofMissing]
  cases h : missing.key.hasText <;> simp

end Fault

namespace Filter

variable {conditions : List Condition}

theorem make_ok (h : ∀ c ∈ conditions, c.hasPattern = true) : make conditions = .ok { conditions } :=
  if_pos (List.all_eq_true.mpr h)

theorem make_error (h : ∃ c ∈ conditions, c.hasPattern = false) :
    make conditions = .error (.misuse .tooManyDigits) := by
  obtain ⟨c, hc, hnone⟩ := h
  exact if_neg fun hall => Bool.false_ne_true (hnone.symm.trans (List.all_eq_true.mp hall c hc))

theorem make_eq_ok {f : Filter} (h : make conditions = .ok f) :
    f = { conditions } ∧ ∀ c ∈ conditions, c.hasPattern = true := by
  rw [make] at h
  split at h
  · rename_i hall
    cases h
    exact ⟨rfl, List.all_eq_true.mp hall⟩
  · cases h

end Filter

end QueryPipeline
