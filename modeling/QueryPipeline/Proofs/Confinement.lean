import QueryPipeline.Proofs.History
import QueryPipeline.Proofs.Substitution

/-!
Parameters stay in their places: whatever they are, a compiled query has the stages that are stored, each
with the keys and lists that it has there, and after them those that the options ask for.
-/

namespace QueryPipeline

open Entries (keys get?)

namespace Template

/-- A value that is a template with parameters in the place of placeholders: the template's objects have
their keys and its lists their lengths, and all leaves but placeholders with a parameter are there. -/
structure Fills (params : Document) (t v : Value) : Prop where
  object : ∀ path entries, t.at? path = some (.object entries) →
    ∃ others, v.at? path = some (.object others) ∧ keys others = keys entries
  list : ∀ path items, t.at? path = some (.list items) →
    ∃ others, v.at? path = some (.list others) ∧ others.length = items.length
  kept : ∀ path leaf, leaf.isKey = true → t.at? path = some leaf →
    (∀ name, name? leaf = some name → get? params name = none) → v.at? path = some leaf
  replaced : ∀ path leaf name param, t.at? path = some leaf → name? leaf = some name →
    get? params name = some param → v.at? path = some param

theorem isKey_of_name? {v : Value} {name : String} (h : name? v = some name) : v.isKey = true := by
  cases v with
  | list items => cases h
  | object entries => cases h
  | _ => rfl

theorem fills_graft (params : Document) (t : Value) : Fills params t (t.graft (filled params)) := by
  constructor
  case object =>
    intro path entries h
    exact ⟨_, (Value.at?_graft _ h).trans (congrArg some (Value.graft_object _ entries)),
      Entries.keys_map entries _⟩
  case list =>
    intro path items h
    exact ⟨_, (Value.at?_graft _ h).trans (congrArg some (Value.graft_list _ items)), List.length_map _⟩
  case kept =>
    intro path leaf hleaf h hnone
    rw [Value.at?_graft _ h, Value.graft_leaf _ hleaf, filled]
    cases hname : name? leaf with
    | none => rfl
    | some name => rw [Option.bind_some, hnone name hname, Option.getD_none]
  case replaced =>
    intro path leaf name param h hname hparam
    rw [Value.at?_graft _ h, Value.graft_leaf _ (isKey_of_name? hname), filled, hname, Option.bind_some,
      hparam, Option.getD_some]

end Template

namespace Registry

open Template (filled)

/-! ## Stored pipelines -/

/-- A pipeline as it may be registered: there are stages, and all of them are objects. -/
def Staged (pipeline : List Value) : Prop :=
  pipeline ≠ [] ∧ ∀ stage ∈ pipeline, ∃ entries, stage = .object entries

theorem staged_of_check {entry : Entry} {e : Entry.Checked} (h : entry.check = .ok e) :
    Staged e.pipeline := by
  unfold Entry.check at h
  split at h
  · cases h
  split at h
  · cases h
  split at h
  · cases h
  rename_i pipeline hpipeline
  split at h
  · rename_i hobjects
    split at h
    · cases h
    cases h
    constructor
    · rintro rfl
      unfold nonempty? at hpipeline
      split at hpipeline <;> simp_all
    · intro stage hmem
      have hobject := List.all_eq_true.mp hobjects stage hmem
      cases stage with
      | object entries => exact ⟨entries, rfl⟩
      | _ => cases hobject
  · cases h

/-- All pipelines of the named queries are as they may be registered. -/
def AllStaged (entries : Entries String NamedQuery) : Prop :=
  ∀ name q, get? entries name = some q → Staged q.pipeline

/-- The pipelines of a registry are as they may be registered, and so are those of the last commit. -/
structure Wellformed (r : Registry) : Prop where
  current : AllStaged r.current
  committed : AllStaged r.committed

variable {r : Registry}

theorem Wellformed.register (h : Wellformed r) (entry : Entry) : Wellformed (r.register entry).state := by
  cases hcheck : entry.check with
  | error flaw =>
      rw [register_error hcheck]
      exact h
  | ok e =>
      refine ⟨fun name q hq => ?_, ?_⟩
      · simp only [Registry.register, hcheck, Entries.get?_put] at hq
        split at hq
        · cases hq
          exact staged_of_check hcheck
        · exact h.current name q hq
      · simp only [Registry.register, hcheck]
        exact h.committed

theorem Wellformed.delete (h : Wellformed r) (name : String) : Wellformed (r.delete name).state := by
  rcases r.get_eq name with ⟨q, -, hget⟩ | ⟨-, hget⟩
  · simp only [Registry.delete, hget]
    refine ⟨fun other q hq => ?_, h.committed⟩
    rw [Entries.get?_without] at hq
    split at hq
    · cases hq
    · exact h.current other q hq
  · simp only [Registry.delete, hget]
    exact h

theorem Wellformed.after (h : Wellformed r) (move : Move) : Wellformed (r.after move) := by
  cases move with
  | register entry => exact h.register entry
  | delete name => exact h.delete name
  | commit => exact ⟨h.current, h.current⟩
  | rollback => exact ⟨h.committed, h.committed⟩
  | wait micros => exact ⟨h.current, h.committed⟩
  | get name => exact h
  | list => exact h
  | compile lenient name params options =>
      rw [Registry.after, compiling_state]
      exact h

theorem Wellformed.run (h : Wellformed r) (moves : List Move) : Wellformed (r.run moves) := by
  induction moves generalizing r with
  | nil => exact h
  | cons move rest ih => exact ih (h.after move)

theorem wellformed_new (clock : Clock) : Wellformed { clock } := by
  constructor <;> exact fun _ _ hq => nomatch hq

/-! ## Compiled queries -/

/-- The stage that an option asks for, if it is given and counts as something. -/
def optionStage (options : Document) (key operator : String) : List Value :=
  let v := (get? options key).getD .null
  if v.isTruthy then [.object [(operator, v)]] else []

theorem optionStages_eq (options : Document) : optionStages options =
    optionStage options "sort" "$sort" ++ optionStage options "skip" "$skip" ++
      optionStage options "limit" "$limit" := by
  simp only [optionStages, optionStage, List.filterMap_cons, List.filterMap_nil]
  cases ((get? options "sort").getD .null).isTruthy <;>
    cases ((get? options "skip").getD .null).isTruthy <;>
      cases ((get? options "limit").getD .null).isTruthy <;> rfl

theorem compile_ok {lenient : Bool} {name : String} {params options : Document} {q : NamedQuery}
    {stages : List Value} (h : r.compile lenient name params options = .ok (q, stages)) :
    r.get name = .ok q ∧
      stages = q.pipeline.map (Value.graft (filled params)) ++ optionStages options := by
  rw [compile_eq] at h
  cases hget : r.get name with
  | error fault =>
      rw [hget] at h
      cases h
  | ok found =>
      simp only [hget, Template.substituteItems_eq] at h
      cases hnamed : Template.requireNamed lenient params (Template.namesOfItems found.pipeline) with
      | error fault =>
          rw [hnamed] at h
          cases h
      | ok _ =>
          rw [hnamed] at h
          cases h
          have hitems := Value.list.inj (Value.graft_list (filled params) q.pipeline)
          exact ⟨rfl, congrArg (· ++ optionStages options) hitems⟩

theorem get?_run {moves : List Move} {name : String}
    (h : ∀ move ∈ moves, move ≠ .rollback ∧ move.target? ≠ some name) :
    get? (r.run moves).current name = get? r.current name := by
  induction moves generalizing r with
  | nil => rfl
  | cons move rest ih =>
      obtain ⟨hmove, hrest⟩ := List.forall_mem_cons.mp h
      exact (ih hrest).trans (get?_after move hmove.1 hmove.2)

/-- To compile a named query is no change. -/
theorem after_compile (r : Registry) (lenient : Bool) (name : String) (params options : Document) :
    r.after (.compile lenient name params options) = r :=
  compiling_state r lenient name params options

theorem compile_congr {r s : Registry} {name : String} (h : get? r.current name = get? s.current name)
    (lenient : Bool) (params options : Document) :
    r.compile lenient name params options = s.compile lenient name params options := by
  rw [compile_eq, compile_eq, get, get, h]

/-- Whatever has been done with a registry and whatever the parameters are: the stages of a compiled query
are the stored ones, each an object with the keys that it has there and with parameters in the place of
placeholders only, and after them those that the options ask for. The registry does not change, and as
long as nobody writes to the name, the query is compiled to the same stages again. -/
theorem compile_keeps_stages (clock : Clock) (moves : List Move) {lenient : Bool} {name : String}
    {params options : Document} {q : NamedQuery} {stages : List Value}
    (h : (run { clock } moves).compile lenient name params options = .ok (q, stages)) :
    let r := run { clock } moves
    r.get name = .ok q ∧ q.pipeline ≠ [] ∧
    (∃ front : List Value, front.length = q.pipeline.length ∧
      stages = front ++ optionStage options "sort" "$sort" ++ optionStage options "skip" "$skip" ++
        optionStage options "limit" "$limit" ∧
      (∀ (i : Nat) stage, q.pipeline[i]? = some stage → ∃ entries others,
        stage = Value.object entries ∧ front[i]? = some (Value.object others) ∧
          keys others = keys entries) ∧
      Template.Fills params (.list q.pipeline) (.list front)) ∧
    r.after (.compile lenient name params options) = r ∧
    ∀ later, (∀ move ∈ later, move ≠ .rollback ∧ move.target? ≠ some name) →
      (run (r.after (.compile lenient name params options)) later).compile lenient name params options =
        .ok (q, stages) := by
  intro r
  obtain ⟨hget, hstages⟩ := compile_ok h
  obtain ⟨hsome, hobjects⟩ :=
    ((wellformed_new clock).run moves).current name q (get_eq_ok_iff.mp hget)
  refine ⟨hget, hsome, ⟨q.pipeline.map (Value.graft (filled params)), List.length_map _, ?_, ?_, ?_⟩,
    after_compile r lenient name params options, ?_⟩
  · rw [hstages, optionStages_eq]
    simp only [List.append_assoc]
  · intro i stage hstage
    obtain ⟨entries, rfl⟩ := hobjects stage (List.mem_of_getElem? hstage)
    refine ⟨entries, _, rfl, ?_, Entries.keys_map entries (Value.graft (filled params))⟩
    rw [List.getElem?_map, hstage, Option.map_some, Value.graft_object]
  · rw [← Value.graft_list]
    exact Template.fills_graft params _
  · intro later hlater
    rw [after_compile]
    exact (compile_congr (get?_run hlater) lenient params options).trans h

/-- Parameters that are an operator and a text like a placeholder, in a list and in a stage of its own,
while others go on registering. -/
theorem compile_keeps_stages_operator :
    let stages : List Value := [Stage.object "$match" (.object [("userId", .text "{{ user }}"),
      ("tags", .list [.text "{{tag}}", .text "a {{tag}}"])]), Stage.object "$limit" (.text "{{n}}")]
    let params : Document := [("user", Stage.object "$ne" .null), ("tag", .text "{{user}}"), ("n", .int 3)]
    let options : Document := [("limit", .int 0), ("skip", .int 2), ("sort", .object [])]
    let r := run {} [.register (.plain "report" stages), .commit]
    ∃ q compiled, r.compile false "report" params options = .ok (q, compiled) ∧
      (∃ front, compiled = front ++ [Stage.object "$skip" (.int 2)] ∧ front.length = 2 ∧
        (Value.list front).at? [0, 0, 1, 0] = some (.text "{{user}}")) ∧
      (run r [.register (.plain "other" stages), .delete "other"]).compile false "report" params
        options = .ok (q, compiled) := by
  intro stages params options r
  have huser : Template.name? (.text "{{ user }}") = some "user" := by decide +kernel
  have htag : Template.name? (.text "{{tag}}") = some "tag" := by decide +kernel
  have hplain : Template.name? (.text "a {{tag}}") = none := by decide +kernel
  have hn : Template.name? (.text "{{n}}") = some "n" := by decide +kernel
  have hnamed : Template.requireNamed false params (Template.namesOfItems stages) = .ok () := by
    simp [stages, Stage.object, Template.namesOfItems, Template.names, Template.namesOfEntries, huser, htag,
      hplain, hn, Template.requireNamed, params, Entries.has, get?]
  obtain ⟨q, hget, hq⟩ : ∃ q, r.get "report" = .ok q ∧ q.pipeline = stages := ⟨_, rfl, rfl⟩
  obtain ⟨compiled, h⟩ : ∃ compiled, r.compile false "report" params options = .ok (q, compiled) := by
    rw [compile_eq, hget]
    simp only [hq, Template.substituteItems_eq, hnamed]
    exact ⟨_, rfl⟩
  obtain ⟨-, -, ⟨front, hlength, hcompiled, -, hfills⟩, -, hagain⟩ :=
    compile_keeps_stages {} [.register (.plain "report" stages), .commit] h
  have hskip : optionStage options "skip" "$skip" = [Stage.object "$skip" (.int 2)] := rfl
  have hsort : optionStage options "sort" "$sort" = [] := rfl
  have hlimit : optionStage options "limit" "$limit" = [] := rfl
  rw [hsort, hskip, hlimit, List.append_nil, List.append_nil] at hcompiled
  rw [hq] at hlength hfills
  have hlater := hagain [.register (.plain "other" stages), .delete "other"]
    (by simp [Move.target?, Entry.plain, filled?])
  rw [after_compile] at hlater
  exact ⟨q, compiled, h, ⟨front, hcompiled, hlength,
    hfills.replaced [0, 0, 1, 0] (.text "{{tag}}") "tag" _ rfl htag rfl⟩, hlater⟩

end Registry

end QueryPipeline
