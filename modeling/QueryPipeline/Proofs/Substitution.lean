import QueryPipeline.Proofs.Trees
import QueryPipeline.Template

/-!
What substitution does to a template. It puts a value in the place of each leaf and leaves everything
else as it is; a strict one does so only if it finds a parameter for each placeholder.
-/

namespace QueryPipeline.Template

open Entries (keys get?)

/-- What a leaf gives way to. -/
def filled (params : Document) (leaf : Value) : Value :=
  ((name? leaf).bind (get? params)).getD leaf

/-- Refuses the first of some names that has no parameter, unless placeholders may stay. -/
def requireNamed (lenient : Bool) (params : Document) (names : List String) : Except Fault Unit :=
  match names.find? fun name => !Entries.has params name with
  | none => .ok ()
  | some name => if lenient then .ok () else .error (.invalid (.unresolvedPlaceholder name))

variable (lenient : Bool) (params : Document)

theorem requireNamed_append (first second : List String) :
    requireNamed lenient params (first ++ second) =
      (requireNamed lenient params first).bind fun _ => requireNamed lenient params second := by
  unfold requireNamed
  rw [List.find?_append]
  cases first.find? fun name => !Entries.has params name with
  | none => rfl
  | some name =>
      cases lenient with
      | false => rfl
      | true => cases second.find? fun name => !Entries.has params name <;> rfl

theorem substituteLeaf_eq (v : Value) : substituteLeaf lenient params v =
    (requireNamed lenient params (name? v).toList).map fun _ => filled params v := by
  unfold substituteLeaf filled requireNamed
  cases name? v with
  | none => rfl
  | some name =>
      cases hparam : get? params name with
      | none => cases lenient <;> simp [Entries.has, hparam, Except.map]
      | some param => simp [Entries.has, hparam, Except.map]

mutual
theorem substitute_eq : ∀ v : Value, substitute lenient params v =
    (requireNamed lenient params (names v)).map fun _ => v.graft (filled params)
  | .list items => by
      rw [substitute, substituteItems_eq items, names]
      cases requireNamed lenient params (namesOfItems items) <;> rfl
  | .object entries => by
      rw [substitute, substituteEntries_eq entries, names]
      cases requireNamed lenient params (namesOfEntries entries) <;> rfl
  | .null => substituteLeaf_eq lenient params .null
  | .bool b => substituteLeaf_eq lenient params (.bool b)
  | .int n => substituteLeaf_eq lenient params (.int n)
  | .float x => substituteLeaf_eq lenient params (.float x)
  | .text s => substituteLeaf_eq lenient params (.text s)
  | .time t => substituteLeaf_eq lenient params (.time t)

theorem substituteItems_eq : ∀ items : List Value, substituteItems lenient params items =
    (requireNamed lenient params (namesOfItems items)).map fun _ => Value.graftItems (filled params) items
  | [] => rfl
  | v :: rest => by
      rw [substituteItems, substitute_eq v, substituteItems_eq rest, namesOfItems, requireNamed_append]
      cases requireNamed lenient params (names v) <;>
        cases requireNamed lenient params (namesOfItems rest) <;> rfl

theorem substituteEntries_eq : ∀ entries : List (String × Value),
    substituteEntries lenient params entries =
      (requireNamed lenient params (namesOfEntries entries)).map fun _ =>
        Value.graftEntries (filled params) entries
  | [] => rfl
  | (key, v) :: rest => by
      rw [substituteEntries, substitute_eq v, substituteEntries_eq rest, namesOfEntries,
        requireNamed_append]
      cases requireNamed lenient params (names v) <;>
        cases requireNamed lenient params (namesOfEntries rest) <;> rfl
end

theorem substitute_lenient (v : Value) : substitute true params v = .ok (v.graft (filled params)) := by
  rw [substitute_eq, requireNamed]
  split <;> rfl

/-! ## One substitution after another -/

/-- The parameters that do in one substitution what two do one after another. -/
def composed (first second : Document) : Document :=
  first.map (fun entry => (entry.1, entry.2.graft (filled second))) ++
    Entries.without second (keys first)

theorem get?_composed (first second : Document) (name : String) :
    get? (composed first second) name =
      ((get? first name).map (Value.graft (filled second))).or (get? second name) := by
  rw [composed, Entries.get?_append, Entries.get?_map, Entries.get?_without]
  cases hfirst : get? first name with
  | none =>
      rw [if_neg ((Entries.get?_eq_none_iff first name).mp hfirst)]
  | some v => rfl

theorem filled_composed (first second : Document) {leaf : Value} (h : leaf.isKey = true) :
    filled (composed first second) leaf = (filled first leaf).graft (filled second) := by
  have hleaf : leaf.graft (filled second) = filled second leaf := Value.graft_leaf _ h
  cases hname : name? leaf with
  | none => simp [filled, hname, hleaf]
  | some name =>
      cases hparam : get? first name with
      | none => simp [filled, hname, hleaf, get?_composed, hparam]
      | some param => simp [filled, hname, get?_composed, hparam]

theorem filled_nil (leaf : Value) : filled [] leaf = leaf := by
  unfold filled
  cases name? leaf <;> rfl

theorem graft_composed (first second : Document) (t : Value) :
    t.graft (filled (composed first second)) = (t.graft (filled first)).graft (filled second) := by
  rw [Value.graft_graft]
  exact Value.graft_congr (fun leaf h => filled_composed first second h) t

/-- Substitutions compose: two of them, one after another, are the one that puts in what the first puts
in, with what the second makes of it, and what the second puts in elsewhere. Without parameters nothing
changes. And one substitution keeps the keys of objects, the lengths of lists and the leaves that are no
placeholders, wherever they are; in the place of a placeholder stands its parameter as it was given. -/
theorem substitute_substitute (first second : Document) (t : Value) :
    let both := composed first second
    (∀ name param, get? first name = some param →
      ∃ v, substitute true second param = .ok v ∧ get? both name = some v) ∧
    (∀ name, get? first name = none → get? both name = get? second name) ∧
    substitute true [] t = .ok t ∧
    ∃ v, substitute true first t = .ok v ∧ substitute true second v = substitute true both t ∧
      (∀ path entries, t.at? path = some (.object entries) →
        ∃ others, v.at? path = some (.object others) ∧ keys others = keys entries) ∧
      (∀ path items, t.at? path = some (.list items) →
        ∃ others, v.at? path = some (.list others) ∧ others.length = items.length) ∧
      ∀ path leaf, leaf.isKey = true → t.at? path = some leaf →
        (name? leaf = none → v.at? path = some leaf) ∧
        ∀ name, name? leaf = some name → v.at? path = some ((get? first name).getD leaf) := by
  intro both
  refine ⟨?_, ?_, ?_, t.graft (filled first), substitute_lenient _ t, ?_, ?_, ?_, ?_⟩
  · intro name param hparam
    refine ⟨_, substitute_lenient _ param, ?_⟩
    rw [get?_composed, hparam]
    rfl
  · intro name hnone
    rw [get?_composed, hnone]
    rfl
  · rw [substitute_lenient, Value.graft_self _ filled_nil]
  · rw [substitute_lenient, substitute_lenient, graft_composed]
  · intro path entries h
    refine ⟨_, (Value.at?_graft _ h).trans (congrArg some (Value.graft_object _ entries)), ?_⟩
    exact Entries.keys_map entries _
  · intro path items h
    refine ⟨_, (Value.at?_graft _ h).trans (congrArg some (Value.graft_list _ items)), ?_⟩
    exact List.length_map _
  · intro path leaf hleaf h
    have hpart := Value.at?_graft (filled first) h
    rw [Value.graft_leaf _ hleaf] at hpart
    refine ⟨fun hname => ?_, fun name hname => ?_⟩
    · rw [hpart, filled, hname]
      rfl
    · rw [hpart, filled, hname]
      rfl

end QueryPipeline.Template
