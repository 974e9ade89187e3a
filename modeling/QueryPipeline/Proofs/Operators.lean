import Mathlib.Data.List.Induction
import QueryPipeline.Proofs.Ownership

/-!
Operators of the store in a filter. Those in its tests come from the table of operators; but a field,
or a value that is compared with outright, goes into the filter as the client sent it.
-/

namespace QueryPipeline

open Entries (keys get?)

/-- In the store's language a key with a dollar in front is an operator. -/
def IsOperator (key : String) : Prop :=
  ['$'] <+: key.toList

instance (key : String) : Decidable (IsOperator key) :=
  inferInstanceAs (Decidable (['$'] <+: key.toList))

/-- Whether the store takes a value for tests: it is an object with an operator among its keys. -/
def Value.HoldsOperator : Value → Prop
  | .object entries => ∃ key ∈ keys entries, IsOperator key
  | _ => False

/-- The tests that an action comes to, if it comes to any. A value that is set is a test for equality
once there are others. -/
def Action.tests : Action → List Test
  | .equate | .assign => [.equal]
  | .test t | .member t => [t]
  | .search | .contain => [.pattern, .options]

/-- The tests of the operator of this name. One that is not in the table sets a value. -/
def Action.testsNamed (operator : String) : List Test :=
  ((ofName? operator).getD .assign).tests

theorem Condition.tests_of_read {own : Ownership} {entry : Value} {c : Condition}
    (h : (read own entry).condition? = some c) : c.action.tests = Action.testsNamed c.operator := by
  obtain ⟨-, -, hread⟩ := read_inv h
  split at hread
  · rw [hread] at h
    have hown : ofOwner own c.field = c := Option.some.inj h
    rw [← hown]
    rfl
  · obtain ⟨v, hv⟩ := hread
    rw [hv] at h
    obtain ⟨-, -, -, haction⟩ := ofOperator_condition h
    rw [haction]
    rfl

/-! ## What a field is asked -/

namespace Constraint

/-- What conditions ask of a field, when all of them are on it. -/
def asked (cs : List Condition) : Option Constraint :=
  cs.foldl (fun current c => some (after c current)) none

theorem asked_concat (cs : List Condition) (c : Condition) :
    asked (cs ++ [c]) = some (after c (asked cs)) :=
  List.foldl_concat ..

theorem asked_eq_none_iff {cs : List Condition} : asked cs = none ↔ cs = [] := by
  rcases List.eq_nil_or_concat' cs with rfl | ⟨init, c, rfl⟩
  · simp [asked]
  · simp [asked_concat]

/-- Where conditions come to a plain value: of those that are no `==`, the last one sets a value, if
there is any. -/
def Outright (cs : List Condition) : Prop :=
  ∀ c ∈ (cs.filter fun c => c.action ≠ .equate).getLast?, c.action = .assign

theorem outright_concat {cs : List Condition} {c : Condition} :
    Outright (cs ++ [c]) ↔ if c.action = .equate then Outright cs else c.action = .assign := by
  by_cases hc : c.action = .equate <;> simp [Outright, List.filter_append, hc]

theorem after_tests_iff (c : Condition) (current : Option Constraint) :
    (∃ ts, after c current = .tests ts) ↔
      if c.action = .equate then ∃ ts, current = some (.tests ts) else c.action ≠ .assign := by
  unfold after
  cases c.action with
  | equate =>
      rcases current with _ | v | ts <;> simp
  | _ => simp [adding, matching]

theorem asked_tests_iff (cs : List Condition) :
    (∃ ts, asked cs = some (.tests ts)) ↔ ¬ Outright cs := by
  induction cs using List.reverseRecOn with
  | nil => simp [asked, Outright]
  | append_singleton cs c ih =>
      simp only [asked_concat, Option.some.injEq, after_tests_iff, ih, outright_concat]
      split <;> rfl

theorem after_equals {c : Condition} {current : Option Constraint} {v : Value}
    (h : after c current = .equals v) : c.value = v ∧ .equal ∈ c.action.tests := by
  unfold after at h
  cases haction : c.action with
  | equate =>
      rw [haction] at h
      rcases current with _ | w | ts <;> simp at h
      · exact ⟨h, List.mem_singleton_self _⟩
      · exact ⟨h, List.mem_singleton_self _⟩
  | assign =>
      rw [haction] at h
      cases h
      exact ⟨rfl, List.mem_singleton_self _⟩
  | _ => simp [haction, adding, matching] at h

theorem asked_equals_iff {cs : List Condition} {v : Value} :
    asked cs = some (.equals v) ↔ Outright cs ∧ ∃ c ∈ cs.getLast?, c.value = v := by
  have hvalue : ∀ w, asked cs = some (.equals w) → ∃ c ∈ cs.getLast?, c.value = w := by
    intro w hw
    rcases List.eq_nil_or_concat' cs with rfl | ⟨init, c, rfl⟩
    · cases hw
    · rw [asked_concat] at hw
      exact ⟨c, by simp, (after_equals (Option.some.inj hw)).1⟩
  have houtright := asked_tests_iff cs
  constructor
  · intro h
    refine ⟨?_, hvalue v h⟩
    by_contra hnot
    obtain ⟨ts, hts⟩ := houtright.mpr hnot
    cases h.symm.trans hts
  · rintro ⟨hout, c, hlast, rfl⟩
    cases hasked : asked cs with
    | none =>
        rw [asked_eq_none_iff.mp hasked] at hlast
        cases hlast
    | some k =>
        cases k with
        | tests ts => exact absurd hout (houtright.mp ⟨ts, hasked⟩)
        | equals w =>
            obtain ⟨last, hlast', rfl⟩ := hvalue w hasked
            cases hlast.symm.trans hlast'
            rfl

theorem test_of_after {c : Condition} {current : Option Constraint} {t : Test}
    (h : t ∈ keys (after c current).toTests) :
    t ∈ c.action.tests ∨ ∃ k, current = some k ∧ t ∈ keys k.toTests := by
  have hadding : ∀ t', t ∈ keys (adding t' c.value current).toTests →
      t = t' ∨ ∃ k, current = some k ∧ t ∈ keys k.toTests := by
    intro t' ht
    rcases (Entries.mem_keys_put _ t' c.value).mp ht with rfl | hmem
    · exact .inl rfl
    · cases current with
      | none => cases hmem
      | some k => exact .inr ⟨k, rfl, hmem⟩
  unfold after at h
  cases haction : c.action with
  -- Beside tests, `==` is a test; otherwise it is a plain value, and forgets the one before.
  | equate =>
      rw [haction] at h
      rcases current with _ | v | ts
      · exact .inl h
      · exact .inl h
      · rcases (Entries.mem_keys_put ts .equal c.value).mp h with rfl | hmem
        · exact .inl (List.mem_singleton_self _)
        · exact .inr ⟨.tests ts, rfl, hmem⟩
  | test t' | member t' =>
      rw [haction] at h
      exact (hadding t' h).imp_left List.mem_singleton.mpr
  | assign | search | contain =>
      rw [haction] at h
      exact .inl h

theorem test_of_asked (cs : List Condition) {k : Constraint} (h : asked cs = some k) {t : Test}
    (ht : t ∈ keys k.toTests) : ∃ c ∈ cs, t ∈ c.action.tests := by
  induction cs using List.reverseRecOn generalizing k with
  | nil => cases h
  | append_singleton cs c ih =>
      rw [asked_concat] at h
      cases h
      rcases test_of_after ht with hc | ⟨k, hk, hmem⟩
      · exact ⟨c, by simp, hc⟩
      · obtain ⟨c', hc', hmem'⟩ := ih hk hmem
        exact ⟨c', List.mem_append_left _ hc', hmem'⟩

end Constraint

/-! ## What a filter asks -/

theorem Constraints.get?_ofConditions (cs : List Condition) (field : String) :
    get? (ofConditions cs) field = Constraint.asked (cs.filter (·.field = field)) := by
  have hfold : ∀ (cs : List Condition) (acc : Constraints), get? (cs.foldl add acc) field =
      (cs.filter (·.field = field)).foldl (fun current c => some (Constraint.after c current))
        (get? acc field) := by
    intro cs
    induction cs with
    | nil => exact fun _ => rfl
    | cons c rest ih =>
        intro acc
        rw [List.foldl_cons, ih, add, Entries.get?_put]
        by_cases hc : c.field = field
        · subst hc
          simp
        · simp [hc, Ne.symm hc]
  exact hfold cs []

theorem Constraints.mem_keys_ofConditions {cs : List Condition} {field : String} :
    field ∈ keys (ofConditions cs) ↔ ∃ c ∈ cs, c.field = field := by
  rw [← Entries.has_iff_mem_keys, Entries.has, Option.isSome_iff_ne_none, get?_ofConditions, Ne,
    Constraint.asked_eq_none_iff, List.filter_eq_nil_iff]
  simp

namespace Filter

/-- The conditions on a field, in order. -/
def on (f : Filter) (field : String) : List Condition :=
  f.conditions.filter (·.field = field)

/-- A filter that keeps data and operators apart: no field is an operator, and where the value of a
field holds one, it is because the field is tested. -/
def KeepsApart (f : Filter) : Prop :=
  (∀ key ∈ keys f.statement, ¬ IsOperator key) ∧
    ∀ field v, get? f.statement field = some v → v.HoldsOperator →
      ∃ ts, get? f.constraints field = some (.tests ts)

variable {rules : Rules} {part : Value} {f : Filter} {log : List LogEntry}

theorem get?_constraints (f : Filter) (field : String) :
    get? f.constraints field = Constraint.asked (f.on field) :=
  Constraints.get?_ofConditions f.conditions field

theorem mem_keys_statement {f : Filter} {key : String} :
    key ∈ keys f.statement ↔ ∃ c ∈ f.conditions, c.field = key := by
  rw [statement, Constraints.toFilter, Entries.keys_map]
  exact Constraints.mem_keys_ofConditions

theorem get?_statement (f : Filter) (field : String) :
    get? f.statement field = (Constraint.asked (f.on field)).map Constraint.toValue := by
  rw [statement, Constraints.get?_toFilter, get?_constraints]

/-- The operators in a filter's tests are those of its conditions. What the client sent becomes an
operator just when it is the name of a field, or the last value that a field is compared with
outright. -/
theorem keepsApart_iff (h : read rules part = .ok (f, log)) :
    (∀ field ts, get? f.constraints field = some (.tests ts) →
      ∃ entries, get? f.statement field = some (.object entries) ∧
        ∀ key ∈ keys entries, ∃ c ∈ f.conditions, c.field = field ∧
          ∃ t ∈ Action.testsNamed c.operator, key = t.key) ∧
    (f.KeepsApart ↔
      (∀ c ∈ f.conditions, ¬ IsOperator c.field) ∧
        ∀ field, Constraint.Outright (f.on field) →
          ∀ c ∈ (f.on field).getLast?, ¬ c.value.HoldsOperator) := by
  constructor
  · intro field ts hts
    rw [get?_constraints] at hts
    refine ⟨ts.map fun entry => (entry.1.key, entry.2), by rw [get?_statement, hts]; rfl, ?_⟩
    intro key hkey
    obtain ⟨t, ht, rfl⟩ : ∃ t ∈ keys ts, t.key = key := by
      simpa [keys] using hkey
    obtain ⟨c, hc, htest⟩ := Constraint.test_of_asked _ hts ht
    obtain ⟨hmem, hfield⟩ := List.mem_filter.mp hc
    obtain ⟨entry, hread⟩ := read_conditions h c hmem
    exact ⟨c, hmem, of_decide_eq_true hfield, t, Condition.tests_of_read hread ▸ htest, rfl⟩
  · refine and_congr ?_ (forall_congr' fun field => ?_)
    · simp [mem_keys_statement]
    · rw [get?_statement, get?_constraints]
      constructor
      · intro hkept hout c hlast holds
        have hequals : Constraint.asked (f.on field) = some (.equals c.value) :=
          Constraint.asked_equals_iff.mpr ⟨hout, c, hlast, rfl⟩
        obtain ⟨ts, hts⟩ := hkept c.value (by rw [hequals]; rfl) holds
        cases hequals.symm.trans hts
      · intro hplain v hv holds
        obtain ⟨k, hk, rfl⟩ := Option.map_eq_some_iff.mp hv
        cases k with
        | tests ts => exact ⟨ts, hk⟩
        | equals w =>
            obtain ⟨hout, c, hlast, rfl⟩ := Constraint.asked_equals_iff.mp hk
            exact absurd holds (hplain hout c hlast)

/-- An object that looks like a test is a value where it comes after a test. -/
theorem keepsApart_after_test :
    let rules : Rules :=
      { collection := "users", lenient := true, own := { field := .text "userId", id := .text "ann" } }
    let adult : Value :=
      .object [("field", .text "age"), ("operator", .text ">"), ("value", .int 18)]
    let posing : Value := .object [("field", .text "age"), ("operator", .text "=="),
      ("value", .object [("$gt", .int 0)])]
    ∃ f log, read rules (.list [adult, posing]) = .ok (f, log) ∧ f.KeepsApart ∧
      get? f.statement "age" =
        some (.object [("$gt", .int 18), ("$eq", .object [("$gt", .int 0)])]) := by
  intro rules adult posing
  let f : Filter :=
    { conditions :=
        [{ field := "age", operator := ">", action := .test .greater, value := .int 18 },
          { field := "age", operator := "==", action := .equate
            value := .object [("$gt", .int 0)] }] }
  have hread : read rules (.list [adult, posing]) = .ok (f, []) := rfl
  refine ⟨f, [], hread, (keepsApart_iff hread).2.mpr ⟨by decide, ?_⟩, rfl⟩
  intro field hout c hlast
  by_cases hfield : "age" = field
  · subst hfield
    cases hout _ rfl
  · simp [on, f, hfield] at hlast

/-- Someone who asks for the age that is this object gets whoever is older than that, as if asking for
them; and a field may be an operator that runs code. -/
theorem posing_object_is_test :
    let rules : Rules :=
      { collection := "users", lenient := true, own := { field := .text "userId", id := .text "ann" } }
    let condition (field operator : String) (v : Value) : Value :=
      .object [("field", .text field), ("operator", .text operator), ("value", v)]
    ∃ posing older code log, read rules
          (.list [condition "age" "==" (.object [("$gt", .int 0)])]) = .ok (posing, log) ∧
      read rules (.list [condition "age" ">" (.int 0)]) = .ok (older, log) ∧
      posing.statement = older.statement ∧ ¬ posing.KeepsApart ∧
      read rules (.list [condition "$where" "==" (.text "sleep(1000)")]) = .ok (code, log) ∧
      code.statement = [("$where", .text "sleep(1000)")] ∧ ¬ code.KeepsApart := by
  intro rules condition
  refine ⟨_, _, _, _, rfl, rfl, rfl, ?_, rfl, rfl, ?_⟩
  · rintro ⟨-, hvalues⟩
    obtain ⟨ts, hts⟩ := hvalues "age" (.object [("$gt", .int 0)]) rfl ⟨"$gt", by decide, by decide⟩
    cases hts
  · rintro ⟨hkeys, -⟩
    exact hkeys "$where" (by decide) (by decide)

end Filter

end QueryPipeline
