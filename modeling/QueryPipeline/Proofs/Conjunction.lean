import Mathlib.Data.List.Nodup
import Mathlib.Data.List.Perm.Basic
import QueryPipeline.Proofs.Scope
import QueryPipeline.Proofs.Standing

/-!
Conditions side by side. Where no test is asked twice of a field and nothing is done away with, a filter
is the conjunction of its conditions: a document satisfies it just when it satisfies each of them alone,
in whatever order they come.
-/

namespace QueryPipeline

open Entries (keys get?)

/-! ## What tests mean -/

/-- A meaning of the store's tests, for what a document has in a field and the argument of the test. A
match of a pattern is one test with its options. -/
structure Semantics (α : Type) where
  holds : Test → α → Value → Prop
  isMatch : α → Value → Option Value → Prop

namespace Semantics

variable {α : Type} (s : Semantics α)

/-- An entry among tests holds of what the field has; the options of a pattern are no test of their own.
-/
def holdsAmong (tests : Entries Test Value) (x : α) (entry : Test × Value) : Prop :=
  match entry.1 with
  | .pattern => s.isMatch x entry.2 (get? tests .options)
  | .options => True
  | t => s.holds t x entry.2

/-- What a field holds meets a constraint if all of its tests hold; a plain value is one for equality. -/
def meets (x : α) (k : Constraint) : Prop :=
  ∀ entry ∈ k.toTests, s.holdsAmong k.toTests x entry

/-- The document meets every constraint on its fields. -/
def satisfies (document : String → α) (constraints : Constraints) : Prop :=
  ∀ entry ∈ constraints, s.meets (document entry.1) entry.2

variable {s}

theorem holdsAmong_congr {tests others : Entries Test Value} {x : α} {entry : Test × Value}
    (h : entry.1 = .pattern → get? tests .options = get? others .options) :
    s.holdsAmong tests x entry ↔ s.holdsAmong others x entry := by
  unfold holdsAmong
  cases ht : entry.1 with
  | pattern => simp only [h ht]
  | _ => rfl

end Semantics

/-! ## Conditions on one field -/

namespace Condition

/-- Whether two conditions can be on the same field: they come to different tests, and neither does away
with others. -/
def Apart (c d : Condition) : Prop :=
  c.action.mainTest ≠ d.action.mainTest ∧ c.action.overwrites = false ∧ d.action.overwrites = false

instance (c d : Condition) : Decidable (c.Apart d) :=
  inferInstanceAs (Decidable (_ ∧ _ ∧ _))

theorem Apart.symm {c d : Condition} (h : c.Apart d) : d.Apart c :=
  ⟨h.1.symm, h.2.2, h.2.1⟩

variable {c : Condition}

theorem IsRead.keys_asks (h : c.IsRead) (hover : c.action.overwrites = false) :
    keys c.asks = [c.action.mainTest] := by
  have hne : c.action.mainTest ≠ .pattern := fun ht => by
    rw [h.overwrites_of_pattern ht] at hover
    cases hover
  rw [h.asks_eq, if_neg hne]
  rfl

theorem IsRead.options_of_pattern (h : c.IsRead) {entry : Test × Value} (hmem : entry ∈ c.asks)
    (ht : entry.1 = .pattern) : (.options, .text "i") ∈ c.asks := by
  rw [h.asks_eq] at hmem ⊢
  have hpattern : c.action.mainTest = .pattern := by
    rcases List.mem_cons.mp hmem with rfl | hrest
    · exact ht
    · split at hrest
      · assumption
      · cases hrest
  simp [hpattern]

end Condition

namespace Constraint

open Condition (Apart IsRead)

variable {cs ds : List Condition} {k l : Constraint}

theorem standing_of_apart (h : cs.Pairwise Apart) : standing cs = cs := by
  cases cs with
  | nil => rfl
  | cons c rest =>
      have hnone : rest.any (·.action.overwrites) = false := by
        rw [List.any_eq_false]
        intro d hd
        simp [((List.pairwise_cons.mp h).1 d hd).2.2]
      rw [standing, hnone]
      rfl

theorem nodup_flatMap_asks (hread : ∀ c ∈ cs, c.IsRead) (h : cs.Pairwise Apart) :
    (keys (cs.flatMap Condition.asks)).Nodup := by
  rw [keys, List.map_flatMap, List.nodup_flatMap]
  refine ⟨fun c _ => c.nodup_asks, h.imp_of_mem fun {c d} hc hd hapart => ?_⟩
  have hkeys := (hread c hc).keys_asks hapart.2.1
  have hkeys' := (hread d hd).keys_asks hapart.2.2
  rw [keys] at hkeys hkeys'
  simp [Function.onFun, hkeys, hkeys', hapart.1.symm]

theorem toTests_of_apart (hread : ∀ c ∈ cs, c.IsRead) (h : cs.Pairwise Apart) (hk : asked cs = some k) :
    k.toTests = cs.flatMap Condition.asks := by
  rw [toTests_of_asked hk, standing_of_apart h, Entries.ofList_of_nodup (nodup_flatMap_asks hread h)]

/-- What a field is asked holds if what each condition asks of it holds. -/
theorem meets_asked_iff {α : Type} {s : Semantics α} {x : α} (hread : ∀ c ∈ cs, c.IsRead)
    (h : cs.Pairwise Apart) (hk : asked cs = some k) :
    s.meets x k ↔ ∀ c ∈ cs, s.meets x (after c none) := by
  have hnodup := nodup_flatMap_asks hread h
  have hamong : ∀ c ∈ cs, ∀ entry ∈ c.asks,
      s.holdsAmong (cs.flatMap Condition.asks) x entry ↔ s.holdsAmong c.asks x entry := by
    intro c hc entry hentry
    refine Semantics.holdsAmong_congr fun ht => ?_
    have hoptions := (hread c hc).options_of_pattern hentry ht
    rw [Entries.get?_of_mem hnodup (List.mem_flatMap_of_mem hc hoptions),
      Entries.get?_of_mem c.nodup_asks hoptions]
  have hsplit : s.meets x k ↔ ∀ c ∈ cs, ∀ entry ∈ c.asks,
      s.holdsAmong (cs.flatMap Condition.asks) x entry := by
    rw [Semantics.meets, toTests_of_apart hread h hk]
    simp only [List.mem_flatMap, forall_exists_index, and_imp]
    exact ⟨fun hall c hc entry hentry => hall entry c hc hentry,
      fun hall entry c hc hentry => hall c hc entry hentry⟩
  rw [hsplit]
  exact forall₂_congr fun c hc => forall₂_congr fun entry hentry => hamong c hc entry hentry

/-- The same constraint, its tests in any order. -/
def Same : Constraint → Constraint → Prop
  | .equals v, .equals w => v = w
  | .tests ts, .tests us => ts.Perm us
  | _, _ => False

theorem same_iff : Same k l ↔
    ((∃ v, k = .equals v) ↔ ∃ v, l = .equals v) ∧ k.toTests.Perm l.toTests := by
  cases k <;> cases l <;> simp [Same, toTests]

theorem asked_same (hread : ∀ c ∈ cs, c.IsRead) (h : cs.Pairwise Apart) (hperm : cs.Perm ds) :
    Option.Rel Same (asked cs) (asked ds) := by
  have hread' : ∀ c ∈ ds, c.IsRead := fun c hc => hread c (hperm.mem_iff.mpr hc)
  have h' : ds.Pairwise Apart := (hperm.pairwise_iff fun hapart => hapart.symm).mp h
  cases hk : asked cs with
  | none =>
      obtain rfl := asked_eq_none_iff.mp hk
      rw [hperm.nil_eq.symm]
      exact .none
  | some k =>
      cases hl : asked ds with
      | none =>
          obtain rfl := asked_eq_none_iff.mp hl
          rw [hperm.eq_nil] at hk
          cases hk
      | some l =>
          refine .some (same_iff.mpr ⟨?_, ?_⟩)
          · rw [equals_iff_standing hk, equals_iff_standing hl, standing_of_apart h, standing_of_apart h']
            simp only [hperm.mem_iff]
          · rw [toTests_of_apart hread h hk, toTests_of_apart hread' h' hl]
            exact hperm.flatMap fun _ _ => .refl _

end Constraint

/-! ## Conditions on any fields -/

/-- Conditions that can stand side by side: those on the same field are apart. -/
def Condition.Compatible (cs : List Condition) : Prop :=
  cs.Pairwise fun c d => c.field = d.field → c.Apart d

instance (cs : List Condition) : Decidable (Condition.Compatible cs) :=
  inferInstanceAs (Decidable (cs.Pairwise _))

namespace Constraints

open Condition (Apart Compatible)

variable {cs ds : List Condition}

theorem apart_on (h : Compatible cs) (field : String) :
    (cs.filter (·.field = field)).Pairwise Apart := by
  refine (h.filter _).imp_of_mem fun {c d} hc hd hapart => hapart ?_
  rw [of_decide_eq_true (List.mem_filter.mp hc).2, of_decide_eq_true (List.mem_filter.mp hd).2]

theorem satisfies_iff_get? {α : Type} (s : Semantics α) (document : String → α) (cs : List Condition) :
    s.satisfies document (ofConditions cs) ↔
      ∀ field k, get? (ofConditions cs) field = some k → s.meets (document field) k := by
  have hmem := @Entries.mem_iff_get? _ _ _ _ (nodup_ofConditions cs)
  exact ⟨fun h field k hk => h (field, k) (hmem.mpr hk), fun h entry hentry => h _ _ (hmem.mp hentry)⟩

/-- A document satisfies what conditions ask for just when it satisfies what each of them does. -/
theorem satisfies_ofConditions_iff (hread : ∀ c ∈ cs, c.IsRead) (h : Compatible cs) {α : Type}
    (s : Semantics α) (document : String → α) :
    s.satisfies document (ofConditions cs) ↔ ∀ c ∈ cs, s.satisfies document (ofConditions [c]) := by
  have halone : ∀ c : Condition, s.satisfies document (ofConditions [c]) ↔
      s.meets (document c.field) (Constraint.after c none) :=
    fun c => List.forall_mem_singleton
  have hon : ∀ field, ∀ c ∈ cs.filter (·.field = field), c.IsRead :=
    fun field c hc => hread c (List.mem_of_mem_filter hc)
  simp only [halone]
  rw [satisfies_iff_get?]
  constructor
  · intro hall c hc
    obtain ⟨k, hk⟩ := Entries.exists_of_mem_keys (mem_keys_ofConditions.mpr ⟨c, hc, rfl⟩)
    have hmeets := hall c.field k hk
    rw [get?_ofConditions] at hk
    exact (Constraint.meets_asked_iff (hon _) (apart_on h _) hk).mp hmeets c
      (List.mem_filter.mpr ⟨hc, decide_eq_true rfl⟩)
  · intro hall field k hk
    rw [get?_ofConditions] at hk
    refine (Constraint.meets_asked_iff (hon _) (apart_on h _) hk).mpr fun c hc => ?_
    obtain ⟨hmem, hfield⟩ := List.mem_filter.mp hc
    rw [← of_decide_eq_true hfield]
    exact hall c hmem

/-- The same constraints, fields and tests in any order. -/
def Same (first second : Constraints) : Prop :=
  (keys first).Perm (keys second) ∧
    ∀ field, Option.Rel Constraint.Same (get? first field) (get? second field)

theorem ofConditions_same (hread : ∀ c ∈ cs, c.IsRead) (h : Compatible cs) (hperm : cs.Perm ds) :
    Same (ofConditions cs) (ofConditions ds) := by
  constructor
  · refine (List.perm_ext_iff_of_nodup (nodup_ofConditions cs) (nodup_ofConditions ds)).mpr fun field => ?_
    simp only [mem_keys_ofConditions, hperm.mem_iff]
  · intro field
    rw [get?_ofConditions, get?_ofConditions]
    exact Constraint.asked_same (fun c hc => hread c (List.mem_of_mem_filter hc)) (apart_on h field)
      (hperm.filter _)

end Constraints

/-! ## Filters -/

namespace Filter

open Condition (Compatible)

variable {rules : Rules} {entries others : List Value} {cs : List Condition} {f : Filter}
  {log : List LogEntry}

theorem readEntries_perm (hperm : entries.Perm others) (h : readEntries rules entries = .ok (cs, log)) :
    ∃ ds warnings, readEntries rules others = .ok (ds, warnings) ∧ cs.Perm ds := by
  induction hperm generalizing cs log with
  | nil => exact ⟨cs, log, h, .refl _⟩
  | cons entry _ ih =>
      obtain ⟨c?, first, rest, more, hentry, hrest, rfl, -⟩ := readEntries_cons.mp h
      obtain ⟨ds, warnings, hread, hperm⟩ := ih hrest
      exact ⟨_, _, readEntries_cons.mpr ⟨c?, first, ds, warnings, hentry, hread, rfl, rfl⟩,
        hperm.append_left _⟩
  | swap entry entry' _ =>
      obtain ⟨c?, first, _, _, hentry, htail, rfl, -⟩ := readEntries_cons.mp h
      obtain ⟨d?, second, rest, more, hentry', hrest, rfl, -⟩ := readEntries_cons.mp htail
      have hinner := readEntries_cons.mpr ⟨c?, first, rest, more, hentry, hrest, rfl, rfl⟩
      refine ⟨_, _, readEntries_cons.mpr ⟨d?, second, _, _, hentry', hinner, rfl, rfl⟩, ?_⟩
      rw [← List.append_assoc, ← List.append_assoc]
      exact List.perm_append_comm.append_right _
  | trans _ _ ih ih' =>
      obtain ⟨ds, warnings, hread, hfirst⟩ := ih h
      obtain ⟨es, more, hread', hsecond⟩ := ih' hread
      exact ⟨es, more, hread', hfirst.trans hsecond⟩

/-- The conditions of a list are those of its entries, each of them read alone. -/
theorem forall_readEntries (h : readEntries rules entries = .ok (cs, log)) (P : Condition → Prop) :
    (∀ c ∈ cs, P c) ↔ ∀ entry ∈ entries, ∃ c? warnings, readEntry rules entry = .ok (c?, warnings) ∧
      ∀ c ∈ c?.toList, P c := by
  induction entries generalizing cs log with
  | nil =>
      cases h
      simp
  | cons entry rest ih =>
      obtain ⟨c?, warnings, others, more, hentry, hrest, rfl, -⟩ := readEntries_cons.mp h
      rw [List.forall_mem_append, List.forall_mem_cons, ih hrest, hentry]
      refine and_congr_left' ⟨fun hall => ⟨c?, warnings, rfl, hall⟩, ?_⟩
      rintro ⟨c?, warnings, ⟨⟩, hall⟩
      exact hall

theorem read_single {entry : Value} {c? : Option Condition} (h : readEntry rules entry = .ok (c?, log))
    (hpattern : ∀ c ∈ c?.toList, c.hasPattern = true) :
    read rules (.list [entry]) = .ok ({ conditions := c?.toList }, log) :=
  read_list_ok.mpr ⟨readEntries_cons.mpr ⟨c?, log, [], [], h, rfl, List.append_nil _, List.append_nil _⟩,
    hpattern⟩

/-- Conditions that can stand side by side are and-ed: a document satisfies the filter just when it
satisfies what each entry asks alone. Other orders of the entries come to the same filter, but for the
order of its keys. -/
theorem satisfies_iff_each (h : read rules (.list entries) = .ok (f, log)) (hc : Compatible f.conditions) :
    (∀ (α : Type) (s : Semantics α) (document : String → α),
      s.satisfies document f.constraints ↔ ∀ entry ∈ entries, ∃ g warnings,
        read rules (.list [entry]) = .ok (g, warnings) ∧ s.satisfies document g.constraints) ∧
    ∀ others, entries.Perm others → ∃ g warnings,
      read rules (.list others) = .ok (g, warnings) ∧ f.constraints.Same g.constraints := by
  have hread : ∀ c ∈ f.conditions, c.IsRead := fun c hmem => ⟨_, read_conditions h c hmem⟩
  obtain ⟨hentries, hpattern⟩ := read_list_ok.mp h
  constructor
  · intro α s document
    rw [constraints, Constraints.satisfies_ofConditions_iff hread hc, forall_readEntries hentries]
    refine forall₂_congr fun entry hmem => ?_
    obtain ⟨c?, warnings, hentry, hasked⟩ :=
      (forall_readEntries hentries (·.hasPattern = true)).mp hpattern entry hmem
    rw [hentry, read_single hentry hasked]
    cases c? with
    | none => simp [constraints, Constraints.ofConditions, Semantics.satisfies]
    | some c => simp [constraints]
  · intro others hperm
    obtain ⟨ds, warnings, hothers, hsame⟩ := readEntries_perm hperm hentries
    refine ⟨⟨ds⟩, warnings, ?_, Constraints.ofConditions_same hread hc hsame⟩
    exact read_list_ok.mpr ⟨hothers, fun c hds => hpattern c (hsame.mem_iff.mpr hds)⟩

/-- The value that is asked for comes before the bounds in one order and among them in the other; the
text that has to be matched is on a field of its own. -/
theorem satisfies_iff_each_bounds :
    let rules : Rules :=
      { collection := "users", lenient := true, own := { field := .text "userId", id := .text "ann" } }
    let entry (field operator : String) (v : Value) : Value :=
      .object [("field", .text field), ("operator", .text operator), ("value", v)]
    let value := entry "age" "==" (.int 30)
    let above := entry "age" ">" (.int 18)
    let below := entry "age" "<" (.int 65)
    let named := entry "name" "like" (.text "ann")
    ∃ f g log, read rules (.list [value, above, named, below]) = .ok (f, log) ∧
      Compatible f.conditions ∧
      (∀ (α : Type) (s : Semantics α) (document : String → α),
        s.satisfies document f.constraints ↔ ∀ entry ∈ [value, above, named, below], ∃ g warnings,
          read rules (.list [entry]) = .ok (g, warnings) ∧ s.satisfies document g.constraints) ∧
      read rules (.list [above, named, value, below]) = .ok (g, log) ∧ f.constraints.Same g.constraints ∧
      get? f.statement "age" = some (.object [("$eq", .int 30), ("$gt", .int 18), ("$lt", .int 65)]) ∧
      get? g.statement "age" = some (.object [("$gt", .int 18), ("$eq", .int 30), ("$lt", .int 65)]) := by
  intro rules entry value above below named
  let f : Filter :=
    { conditions :=
        [{ field := "age", operator := "==", action := .equate, value := .int 30 },
          { field := "age", operator := ">", action := .test .greater, value := .int 18 },
          { field := "name", operator := "like", action := .contain, value := .text "ann" },
          { field := "age", operator := "<", action := .test .less, value := .int 65 }] }
  have hread : read rules (.list [value, above, named, below]) = .ok (f, []) := rfl
  have hcompatible : Compatible f.conditions := by decide
  obtain ⟨heach, hperm⟩ := satisfies_iff_each hread hcompatible
  have hmoved : [value, above, named, below].Perm [above, named, value, below] :=
    (List.Perm.swap above value _).trans ((List.Perm.swap named value _).cons above)
  obtain ⟨g, warnings, hg, hsame⟩ := hperm _ hmoved
  cases hg
  exact ⟨f, _, [], hread, hcompatible, heach, rfl, hsame, rfl, rfl⟩

end Filter

end QueryPipeline
