import Mathlib.Data.List.Forall2
import QueryPipeline.Query
import QueryPipeline.Proofs.Words
import QueryPipeline.Proofs.Results

/-!
The owner's field in filters. Whatever conditions ask of it, a filter holds at most the owner's id
there, as it is; and it reads the same for whatever operators and values those conditions come with.
-/

namespace QueryPipeline

theorem Value.alike_text_iff (v : Value) (s : String) : v.alike (.text s) = true ↔ v = .text s := by
  cases v <;> simp [alike, equalNumbers, ratio?]

namespace Condition

theorem Ownership.claims_iff {own : Ownership} {owner : String} (h : own.field = .text owner)
    (v : Value) : own.claims v = true ↔ v = .text owner := by
  rw [Ownership.claims, h, Bool.and_eq_true, Value.alike_text_iff]
  exact ⟨And.right, fun hv => ⟨rfl, hv⟩⟩

/-- An entry that asks something of the owner's field, by any operator, with any value or none. -/
def Claiming (owner : String) : Value → Prop
  | .object entries =>
    Entries.get? entries "field" = some (.text owner) ∧
      ∃ operator, operator ≠ "" ∧ Entries.get? entries "operator" = some (.text operator)
  | _ => False

/-- Entries that are the same unless both of them ask something of the owner's field. -/
def AlikeButForOwner (owner : String) (a b : Value) : Prop :=
  a = b ∨ Claiming owner a ∧ Claiming owner b

variable {own : Ownership} {owner : String}

theorem read_of_claiming (ho : own.field = .text owner) (hne : owner ≠ "") {entry : Value}
    (h : Claiming owner entry) : read own entry = .condition (ofOwner own owner) := by
  cases entry with
  | object entries =>
      obtain ⟨hf, operator, hop, hoperator⟩ := h
      have hforced : own.claims (.text owner) = true := (Ownership.claims_iff ho _).mpr rfl
      simp [read, hf, hoperator, hforced, Value.isTruthy, hne, hop]
  | _ => exact h.elim

theorem read_alikeButForOwner (ho : own.field = .text owner) (hne : owner ≠ "") {a b : Value}
    (h : AlikeButForOwner owner a b) :
    a = b ∨ read own a = .condition (ofOwner own owner) ∧
      read own b = .condition (ofOwner own owner) := by
  rcases h with rfl | ⟨ha, hb⟩
  · exact .inl rfl
  · exact .inr ⟨read_of_claiming ho hne ha, read_of_claiming ho hne hb⟩

/-- What an entry is read as, if it is read as a condition at all. -/
def Reading.condition? : Reading → Option Condition
  | .condition c | .unknownOperator c => some c
  | .malformed _ => none

theorem ofOperator_condition {field operator : String} {v : Value} {c : Condition}
    (h : (ofOperator field operator v).condition? = some c) :
    c.field = field ∧ c.operator = operator ∧ c.value = prepare c.action v ∧
      c.action = (Action.ofName? operator).getD .assign := by
  unfold ofOperator at h
  split at h <;> cases h <;> simp [*]

/-- The field and the operator of a condition have names. On the owner's field the condition is the
one for the owner, elsewhere the one that the operator makes of a value. -/
theorem read_inv {entry : Value} {c : Condition} (h : (read own entry).condition? = some c) :
    c.field ≠ "" ∧ c.operator ≠ "" ∧
      if own.claims (.text c.field) then read own entry = .condition (ofOwner own c.field)
      else ∃ v, read own entry = ofOperator c.field c.operator v := by
  cases entry with
  | object entries =>
      simp only [read] at h ⊢
      split at h
      · cases h
      · rename_i hnamed
        rw [if_neg hnamed]
        split at h
        · cases h
        · rename_i v field operator _ hfield hoperator
          simp only [hfield, hoperator] at hnamed h ⊢
          obtain ⟨hf, ho⟩ : field ≠ "" ∧ operator ≠ "" := by
            simpa [Value.isTruthy] using hnamed
          split at h
          · rename_i hclaims
            cases h
            simp [ofOwner, hf, hclaims]
          · rename_i hclaims
            obtain ⟨rfl, rfl, -⟩ := ofOperator_condition h
            rw [if_neg hclaims]
            exact ⟨hf, ho, v, by simp [hclaims]⟩
        · cases h
  | _ => cases h

/-- A condition on the owner's field is the one for the owner. -/
theorem eq_ofOwner_of_read (ho : own.field = .text owner) {entry : Value} {c : Condition}
    (h : (read own entry).condition? = some c) (hc : c.field = owner) : c = ofOwner own owner := by
  obtain ⟨-, -, hread⟩ := read_inv h
  rw [if_pos ((Ownership.claims_iff ho _).mpr (congrArg Value.text hc)), hc] at hread
  rw [hread] at h
  exact (Option.some.inj h).symm

end Condition

/-! ## Reading a whole filter -/

namespace Filter

variable {rules : Rules} {owner : String}

theorem readEntries_cons {entry : Value} {rest : List Value} {cs : List Condition} {log : List LogEntry} :
    readEntries rules (entry :: rest) = .ok (cs, log) ↔
      ∃ c? warnings others more, readEntry rules entry = .ok (c?, warnings) ∧
        readEntries rules rest = .ok (others, more) ∧ c?.toList ++ others = cs ∧
        warnings ++ more = log := by
  rw [readEntries]
  cases readEntry rules entry with
  | error flaw => simp
  | ok first =>
      obtain ⟨c?, warnings⟩ := first
      simp [map_eq_ok_iff]

theorem read_list (rules : Rules) (entries : List Value) : read rules (.list entries) =
    match readEntries rules entries with
    | .error flaw => .error (.ofFlaw flaw)
    | .ok (conditions, warnings) => (make conditions).map fun filter => (filter, warnings) := by
  cases entries with
  | nil => rfl
  | cons entry rest => rfl

theorem read_list_ok {entries : List Value} {f : Filter} {log : List LogEntry} :
    read rules (.list entries) = .ok (f, log) ↔
      readEntries rules entries = .ok (f.conditions, log) ∧
        ∀ c ∈ f.conditions, c.hasPattern = true := by
  rw [read_list]
  constructor
  · intro h
    split at h
    · cases h
    · rename_i hread
      obtain ⟨made, hmake, heq⟩ := map_eq_ok_iff.mp h
      cases heq
      obtain ⟨rfl, hpattern⟩ := make_eq_ok hmake
      exact ⟨hread, hpattern⟩
  · rintro ⟨hread, hpattern⟩
    simp only [hread, make_ok hpattern]
    rfl

/-- The conditions of a filter are those of some list of entries. -/
theorem read_entries {part : Value} {f : Filter} {log : List LogEntry}
    (h : read rules part = .ok (f, log)) :
    ∃ entries warnings, read rules (.list entries) = .ok (f, warnings) := by
  cases part with
  | list entries => exact ⟨entries, log, h⟩
  | _ =>
      unfold read at h
      refine ⟨[], [], ?_⟩
      split at h
      · cases h
        rfl
      · simp only at h
        split at h
        · cases h
          rfl
        · cases h

theorem readEntry_condition {entry : Value} {c : Condition} {log : List LogEntry}
    (h : readEntry rules entry = .ok (some c, log)) :
    (Condition.read rules.own entry).condition? = some c := by
  unfold readEntry at h
  split at h
  · rename_i hr
    cases h; rw [hr]; rfl
  · rename_i hr
    split at h <;> cases h
    rw [hr]; rfl
  · split at h <;> cases h

theorem readEntries_conditions {entries : List Value} {cs : List Condition} {log : List LogEntry}
    (h : readEntries rules entries = .ok (cs, log)) :
    ∀ c ∈ cs, ∃ entry ∈ entries, (Condition.read rules.own entry).condition? = some c := by
  induction entries generalizing cs log with
  | nil => cases h; simp
  | cons entry rest ih =>
      obtain ⟨c?, warnings, others, more, hentry, hrest, rfl, -⟩ := readEntries_cons.mp h
      intro c hc
      rcases List.mem_append.mp hc with hc | hc
      · obtain rfl : c? = some c := Option.mem_toList.mp hc
        exact ⟨entry, List.mem_cons_self, readEntry_condition hentry⟩
      · obtain ⟨e, hm, hread⟩ := ih hrest c hc
        exact ⟨e, List.mem_cons_of_mem _ hm, hread⟩

/-- Every condition of a filter was read from some value. -/
theorem read_conditions {part : Value} {f : Filter} {log : List LogEntry}
    (h : read rules part = .ok (f, log)) :
    ∀ c ∈ f.conditions, ∃ entry, (Condition.read rules.own entry).condition? = some c := by
  obtain ⟨entries, warnings, hread⟩ := read_entries h
  intro c hc
  obtain ⟨entry, -, hcondition⟩ := readEntries_conditions (read_list_ok.mp hread).1 c hc
  exact ⟨entry, hcondition⟩

theorem readEntries_alikeButForOwner (ho : rules.own.field = .text owner) (hne : owner ≠ "")
    {xs ys : List Value} (h : List.Forall₂ (Condition.AlikeButForOwner owner) xs ys) :
    readEntries rules xs = readEntries rules ys := by
  induction h with
  | nil => rfl
  | @cons a b xs ys hab _ ih =>
      have hentry : readEntry rules a = readEntry rules b := by
        rcases Condition.read_alikeButForOwner ho hne hab with rfl | ⟨ha, hb⟩
        · rfl
        · simp only [readEntry, ha, hb]
      simp only [readEntries, hentry, ih]

theorem read_alikeButForOwner (ho : rules.own.field = .text owner) (hne : owner ≠ "")
    {xs ys : List Value} (h : List.Forall₂ (Condition.AlikeButForOwner owner) xs ys) :
    read rules (.list xs) = read rules (.list ys) := by
  rw [read_list, read_list, readEntries_alikeButForOwner ho hne h]

end Filter

/-! ## What a filter asks of the owner's field -/

namespace Constraints

/-- What conditions ask of a field on which all of them ask for one and the same value. -/
theorem get?_foldl_assign {field : String} {v : Value} {cs : List Condition}
    (h : ∀ c ∈ cs, c.field = field → c.action = .assign ∧ c.value = v) {acc : Constraints}
    (hacc : ∀ k, Entries.get? acc field = some k → k = .equals v) {k : Constraint}
    (hk : Entries.get? (cs.foldl add acc) field = some k) : k = .equals v := by
  induction cs generalizing acc with
  | nil => exact hacc k hk
  | cons c rest ih =>
      refine ih (fun c' hc' => h c' (List.mem_cons_of_mem _ hc')) ?_ hk
      intro k' hk'
      rw [add, Entries.get?_put] at hk'
      split at hk'
      · rename_i hfield
        obtain ⟨haction, hvalue⟩ := h c List.mem_cons_self hfield.symm
        simp only [Constraint.after, haction, hvalue, Option.some.injEq] at hk'
        exact hk'.symm
      · exact hacc k' hk'

theorem get?_toFilter (constraints : Constraints) (field : String) :
    Entries.get? constraints.toFilter field =
      (Entries.get? constraints field).map Constraint.toValue :=
  Entries.get?_map constraints Constraint.toValue field

end Constraints

namespace Filter

variable {rules : Rules} {owner : String} {part : Value} {f : Filter} {log : List LogEntry}

/-- Of the owner's field a filter asks at most for the owner's id. -/
theorem owner_constraint (ho : rules.own.field = .text owner) (h : read rules part = .ok (f, log))
    {k : Constraint} (hk : Entries.get? f.constraints owner = some k) : k = .equals rules.own.id := by
  have hassign : ∀ c ∈ f.conditions, c.field = owner → c.action = .assign ∧ c.value = rules.own.id := by
    intro c hc hfield
    obtain ⟨entry, hread⟩ := read_conditions h c hc
    rw [Condition.eq_ofOwner_of_read ho hread hfield]
    exact ⟨rfl, rfl⟩
  have hnone : ∀ k, Entries.get? ([] : Constraints) owner = some k → k = .equals rules.own.id := by
    simp [Entries.get?]
  exact Constraints.get?_foldl_assign hassign hnone hk

theorem owner_statement (ho : rules.own.field = .text owner) (h : read rules part = .ok (f, log))
    {v : Value} (hv : Entries.get? f.statement owner = some v) :
    Entries.get? f.constraints owner = some (.equals v) ∧ v = rules.own.id := by
  rw [statement, Constraints.get?_toFilter] at hv
  obtain ⟨k, hk, hkv⟩ := Option.map_eq_some_iff.mp hv
  have he := owner_constraint ho h hk
  subst he
  cases hkv
  exact ⟨hk, rfl⟩

end Filter

/-- What conditions ask of the owner's field leaves no trace: lists that differ in nothing else read
as the same filter, with the same warnings, or are refused alike. And whatever else a filter asks, at
the owner's field it holds nothing but the caller's id, compared with as it is. -/
theorem Query.owner_noninterference (q : Query) {owner : String}
    (ho : q.compiler.settings.ownerField = .text owner) (hne : owner ≠ "") :
    (∀ xs ys : List Value, List.Forall₂ (Condition.AlikeButForOwner owner) xs ys →
      Filter.read q.filtering (.list xs) = Filter.read q.filtering (.list ys)) ∧
    ∀ (part : Value) (f : Filter) (log : List LogEntry) (v : Value),
      Filter.read q.filtering part = .ok (f, log) →
      Entries.get? f.statement owner = some v →
      Entries.get? f.constraints owner = some (.equals v) ∧
        v = (q.principal.map (·.id)).getD (.text "") := by
  constructor
  · intro xs ys h
    exact Filter.read_alikeButForOwner ho hne h
  · intro part f log v hread hv
    exact Filter.owner_statement ho hread hv

/-- The caller 42, whose id looks like a number, asks for the owners from 7 on, or for those that
match a pattern which is not given. -/
theorem Query.owner_noninterference_number_like :
    let q : Query :=
      { compiler := { collection := .text "orders", settings := .ofMap [], ledger := none }
        principal := some { id := .text "42" } }
    let above : Value :=
      .object [("field", .text "userId"), ("operator", .text ">="), ("value", .text "7")]
    let matching : Value := .object [("field", .text "userId"), ("operator", .text "regex")]
    let status : Value :=
      .object [("field", .text "status"), ("operator", .text "=="), ("value", .text "open")]
    Filter.read q.filtering (.list [above, status]) =
        Filter.read q.filtering (.list [matching, status]) ∧
      ∃ f log, Filter.read q.filtering (.list [matching, status]) = .ok (f, log) ∧
        Entries.get? f.statement "userId" = some (.text "42") ∧
        Entries.get? f.constraints "userId" = some (.equals (.text "42")) := by
  intro q above matching status
  have ho : q.compiler.settings.ownerField = .text "userId" := rfl
  have h := q.owner_noninterference ho (by decide)
  refine ⟨h.1 _ _ (.cons (.inr ?_) (.cons (.inl rfl) .nil)), _, _, rfl, rfl, ?_⟩
  · exact ⟨⟨rfl, ">=", by decide, rfl⟩, rfl, "regex", by decide, rfl⟩
  · exact (h.2 (.list [matching, status]) _ _ _ rfl rfl).1

end QueryPipeline
