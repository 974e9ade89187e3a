import QueryPipeline.Proofs.Operators

/-!
Standing conditions. Of the conditions on a field, those stand that no later one does away with. They
come to each of their tests once, with the value that was given last.
-/

namespace QueryPipeline

open Entries (keys get?)

/-- The store's test that an action comes to. A plain value is a test for equality. -/
def Action.mainTest : Action → Test
  | .equate | .assign => .equal
  | .test t | .member t => t
  | .search | .contain => .pattern

namespace Condition

variable {c : Condition}

/-- A condition that was read from an entry. -/
def IsRead (c : Condition) : Prop :=
  ∃ own entry, (read own entry).condition? = some c

/-- What a condition compares with: its value, or the pattern that is made of it. -/
def argument (c : Condition) : Value :=
  if c.action = .contain then containing c.value else c.value

/-- Whether a condition gives a value and no more. -/
def IsPlain (c : Condition) : Prop :=
  c.action = .equate ∨ c.action = .assign

instance (c : Condition) : Decidable c.IsPlain :=
  inferInstanceAs (Decidable (c.action = .equate ∨ c.action = .assign))

/-- What a condition asks when it is alone. -/
def asks (c : Condition) : Entries Test Value :=
  (Constraint.after c none).toTests

theorem IsRead.mem_table (h : c.IsRead) : c.action ∈ Action.table.map (·.2) := by
  obtain ⟨own, entry, h⟩ := h
  have hassign : Action.assign ∈ Action.table.map (·.2) := by decide
  obtain ⟨-, -, hread⟩ := read_inv h
  split at hread
  · rw [hread] at h
    rw [← Option.some.inj h]
    exact hassign
  · obtain ⟨v, hv⟩ := hread
    rw [hv] at h
    obtain ⟨-, -, -, haction⟩ := ofOperator_condition h
    cases hname : Action.ofName? c.operator with
    | none =>
        rw [haction, hname]
        exact hassign
    | some action =>
        rw [haction, hname]
        exact List.mem_map_of_mem (Entries.mem_of_get? hname)

theorem IsRead.mainTest_ne_options (h : c.IsRead) : c.action.mainTest ≠ .options := by
  have htable : ∀ action ∈ Action.table.map (·.2), action.mainTest ≠ .options := by decide
  exact htable _ h.mem_table

theorem IsRead.overwrites_of_pattern (h : c.IsRead) (ht : c.action.mainTest = .pattern) :
    c.action.overwrites = true := by
  have htable : ∀ action ∈ Action.table.map (·.2), action.mainTest = .pattern →
      action.overwrites = true := by decide
  exact htable _ h.mem_table ht

theorem nodup_asks (c : Condition) : (keys c.asks).Nodup := by
  unfold asks Constraint.after
  cases c.action <;> simp [Constraint.toTests, Constraint.adding, Constraint.matching, Entries.put, keys]

/-- A condition asks one test, and a match of a pattern also that it is whatever the case. -/
theorem IsRead.asks_eq (h : c.IsRead) :
    c.asks = (c.action.mainTest, c.argument) ::
      if c.action.mainTest = .pattern then [(.options, .text "i")] else [] := by
  have hpattern := h.overwrites_of_pattern
  unfold asks argument Constraint.after
  cases haction : c.action with
  | test t | member t =>
      rw [haction] at hpattern
      have hne : t ≠ .pattern := fun ht => Bool.false_ne_true (hpattern ht)
      simp [Action.mainTest, Constraint.toTests, Constraint.adding, Entries.put, hne]
  | _ => simp [Action.mainTest, Constraint.toTests, Constraint.matching]

end Condition

namespace Constraint

/-- The conditions that stand: those from the last one on that does away with the ones before it, or
all if there is none. -/
def standing : List Condition → List Condition
  | [] => []
  | c :: rest => if rest.any (·.action.overwrites) then standing rest else c :: rest

theorem standing_concat (cs : List Condition) (c : Condition) :
    standing (cs ++ [c]) = if c.action.overwrites then [c] else standing cs ++ [c] := by
  induction cs with
  | nil => simp [standing]
  | cons d rest ih =>
      rw [List.cons_append, standing, ih, standing]
      cases hover : c.action.overwrites with
      | true => simp [hover]
      | false =>
          have hany : (rest ++ [c]).any (·.action.overwrites) = rest.any (·.action.overwrites) := by
            simp [hover]
          rw [hany]
          split <;> simp

theorem standing_sublist (cs : List Condition) : (standing cs).Sublist cs := by
  induction cs with
  | nil => exact .slnil
  | cons c rest ih =>
      rw [standing]
      split
      · exact ih.cons c
      · exact .refl _

/-! ## What the standing conditions come to -/

theorem toTests_after (c : Condition) (current : Option Constraint) :
    (after c current).toTests =
      if c.action.overwrites then c.asks
      else Entries.merge ((current.map toTests).getD []) c.asks := by
  unfold Condition.asks after
  cases c.action with
  | equate => rcases current with _ | v | ts <;> rfl
  | _ => rfl

/-- The tests of a field are those of the conditions that stand, written one after another. -/
theorem toTests_asked (cs : List Condition) :
    ((asked cs).map toTests).getD [] = Entries.ofList ((standing cs).flatMap Condition.asks) := by
  induction cs using List.reverseRecOn with
  | nil => rfl
  | append_singleton cs c ih =>
      rw [asked_concat, standing_concat, Option.map_some, Option.getD_some, toTests_after, ih]
      split
      · simp [Entries.ofList_of_nodup c.nodup_asks]
      · simp [Entries.ofList_append]

theorem asked_tests_iff_standing (cs : List Condition) :
    (∃ ts, asked cs = some (.tests ts)) ↔ ∃ c ∈ standing cs, ¬ c.IsPlain := by
  induction cs using List.reverseRecOn with
  | nil => simp [asked, standing]
  | append_singleton cs c ih =>
      simp only [asked_concat, Option.some.injEq, after_tests_iff, ih, standing_concat]
      cases haction : c.action <;>
        simp [Condition.IsPlain, Action.overwrites, haction, or_and_right, exists_or]

/-! ## The last value of each test -/

variable {cs : List Condition}

theorem get?_asks (h : ∀ c ∈ cs, c.IsRead) {t : Test} (ht : t ≠ .options) :
    get? (Entries.ofList (cs.flatMap Condition.asks)) t =
      ((cs.filter (·.action.mainTest = t)).getLast?).map Condition.argument := by
  have hfilter : (cs.flatMap Condition.asks).filter (·.1 = t) =
      (cs.filter (·.action.mainTest = t)).map fun c => (c.action.mainTest, c.argument) := by
    induction cs with
    | nil => rfl
    | cons c rest ih =>
        obtain ⟨hc, hrest⟩ := List.forall_mem_cons.mp h
        rw [List.flatMap_cons, List.filter_append, ih hrest, hc.asks_eq]
        by_cases hsame : c.action.mainTest = t <;>
          by_cases hpattern : c.action.mainTest = .pattern <;> simp_all [Ne.symm ht]
  rw [Entries.get?_ofList, hfilter, List.getLast?_map, Option.map_map]
  rfl

theorem get?_asks_options (h : ∀ c ∈ cs, c.IsRead) :
    get? (Entries.ofList (cs.flatMap Condition.asks)) .options =
      if ∃ c ∈ cs, c.action.mainTest = .pattern then some (.text "i") else none := by
  have hfilter : (cs.flatMap Condition.asks).filter (·.1 = .options) =
      (cs.filter (·.action.mainTest = .pattern)).map fun _ => (.options, .text "i") := by
    induction cs with
    | nil => rfl
    | cons c rest ih =>
        obtain ⟨hc, hrest⟩ := List.forall_mem_cons.mp h
        rw [List.flatMap_cons, List.filter_append, ih hrest, hc.asks_eq]
        by_cases hpattern : c.action.mainTest = .pattern <;> simp [hpattern, hc.mainTest_ne_options]
  rw [Entries.get?_ofList, hfilter, List.getLast?_map, Option.map_map]
  split
  · rename_i hsome
    obtain ⟨c, hc, hpattern⟩ := hsome
    have hne : cs.filter (·.action.mainTest = .pattern) ≠ [] :=
      List.ne_nil_of_mem (List.mem_filter.mpr ⟨hc, decide_eq_true hpattern⟩)
    rw [List.getLast?_eq_some_getLast hne]
    rfl
  · rename_i hnone
    have hnil : cs.filter (·.action.mainTest = .pattern) = [] := by
      simpa using hnone
    rw [hnil]
    rfl

theorem toTests_of_asked {k : Constraint} (h : asked cs = some k) :
    k.toTests = Entries.ofList ((standing cs).flatMap Condition.asks) := by
  rw [← toTests_asked, h]
  rfl

theorem equals_iff_standing {k : Constraint} (h : asked cs = some k) :
    (∃ v, k = .equals v) ↔ ∀ c ∈ standing cs, c.IsPlain := by
  have htests := asked_tests_iff_standing cs
  rw [h] at htests
  cases k with
  | equals v => simpa using htests
  | tests ts => simpa using htests

end Constraint

/-- What conditions ask of a field is what those that stand ask of it: each of their tests with the
argument of the last condition that comes to it, and with no regard to case where it is a match of a
pattern. It is a plain value if each of them gives just a value. -/
theorem Constraints.get?_ofConditions_standing {cs : List Condition} (hread : ∀ c ∈ cs, c.IsRead)
    (field : String) :
    let relevant := Constraint.standing (cs.filter (·.field = field))
    (get? (ofConditions cs) field = none ↔ ∀ c ∈ cs, c.field ≠ field) ∧
      ∀ k, get? (ofConditions cs) field = some k →
        (keys k.toTests).Nodup ∧
        (∀ t, t ≠ .options → get? k.toTests t =
          ((relevant.filter (·.action.mainTest = t)).getLast?).map Condition.argument) ∧
        get? k.toTests .options =
          (if ∃ c ∈ relevant, c.action.mainTest = .pattern then some (.text "i") else none) ∧
        ((∃ v, k = .equals v) ↔ ∀ c ∈ relevant, c.IsPlain) := by
  intro relevant
  rw [get?_ofConditions, Constraint.asked_eq_none_iff]
  refine ⟨by simp, fun k hk => ?_⟩
  have hrelevant : ∀ c ∈ relevant, c.IsRead := fun c hc =>
    hread c (List.mem_of_mem_filter ((Constraint.standing_sublist _).subset hc))
  rw [Constraint.toTests_of_asked hk]
  exact ⟨Entries.nodup_ofList _, fun t ht => Constraint.get?_asks hrelevant ht,
    Constraint.get?_asks_options hrelevant, Constraint.equals_iff_standing hk⟩

/-- A text that has to be part of the name does away with the name itself; of the bounds that are set on
the age, the last ones hold beside the value. -/
theorem Constraints.get?_ofConditions_standing_bounds :
    let named (v : Value) : Condition := { field := "name", operator := "==", action := .equate, value := v }
    let like (v : Value) : Condition := { field := "name", operator := "like", action := .contain, value := v }
    let age (operator : String) (action : Action) (n : Int) : Condition :=
      { field := "age", operator, action, value := .int n }
    let cs := [named (.text "Ann"), age "==" .equate 30, like (.text "a.b"), age ">" (.test .greater) 18,
      age "<" (.test .less) 65, age ">" (.test .greater) 21]
    (∀ c ∈ cs, c.IsRead) ∧
      (∃ k, get? (ofConditions cs) "age" = some k ∧ (keys k.toTests).Nodup ∧
        get? k.toTests .equal = some (.int 30) ∧ get? k.toTests .greater = some (.int 21) ∧
        get? k.toTests .less = some (.int 65) ∧ get? k.toTests .options = none ∧ ¬ ∃ v, k = .equals v) ∧
      ∃ k, get? (ofConditions cs) "name" = some k ∧ get? k.toTests .equal = none ∧
        get? k.toTests .pattern = some (.text ".*a\\.b.*") ∧ get? k.toTests .options = some (.text "i") := by
  intro named like age cs
  have hread : ∀ c ∈ cs, c.IsRead := by
    have hentries : ∀ c ∈ cs,
        (Condition.read { field := .text "userId", id := .text "ann" } c.toValue).condition? = some c := by
      simp only [cs, List.forall_mem_cons]
      exact ⟨rfl, rfl, rfl, rfl, rfl, rfl, by simp⟩
    exact fun c hc => ⟨_, _, hentries c hc⟩
  obtain ⟨-, hage⟩ := get?_ofConditions_standing hread "age"
  obtain ⟨-, hname⟩ := get?_ofConditions_standing hread "name"
  refine ⟨hread, ⟨_, rfl, ?_⟩, _, rfl, ?_⟩
  · obtain ⟨hnodup, hvalue, hoptions, hplain⟩ := hage _ rfl
    refine ⟨hnodup, hvalue .equal (by decide), hvalue .greater (by decide), hvalue .less (by decide),
      hoptions, ?_⟩
    rw [hplain]
    have hstanding : age "<" (.test .less) 65 ∈ Constraint.standing (cs.filter (·.field = "age")) :=
      .tail _ (.tail _ (.head _))
    exact fun hall => absurd (hall _ hstanding) (by decide)
  · obtain ⟨-, hvalue, hoptions, -⟩ := hname _ rfl
    have hpattern : Condition.containing (.text "a.b") = .text ".*a\\.b.*" := by decide +kernel
    exact ⟨hvalue .equal (by decide), (hvalue .pattern (by decide)).trans (congrArg some hpattern), hoptions⟩

end QueryPipeline
