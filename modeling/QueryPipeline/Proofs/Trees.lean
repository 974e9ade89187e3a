import QueryPipeline.Proofs.Entries
import QueryPipeline.Value

/-!
Values as trees. The lists and objects of a value are its branches, and its leaves are what stands in
them; a part of a value is found by the places that lead to it.
-/

namespace QueryPipeline.Value

/-- The values within a list or an object, in order. -/
def parts : Value → List Value
  | .list items => items
  | .object entries => entries.map (·.2)
  | _ => []

theorem sizeOf_lt_of_mem_parts {v w : Value} (h : w ∈ v.parts) : sizeOf w < sizeOf v := by
  cases v with
  | list items =>
      have hlt : sizeOf w < sizeOf items := List.sizeOf_lt_of_mem h
      simp only [list.sizeOf_spec]
      omega
  | object entries =>
      obtain ⟨entry, hmem, rfl⟩ := List.mem_map.mp h
      have hlt := List.sizeOf_lt_of_mem hmem
      obtain ⟨key, v⟩ := entry
      simp only [object.sizeOf_spec, Prod.mk.sizeOf_spec] at hlt ⊢
      omega
  | _ => cases h

theorem isKey_of_mem_parts {v w : Value} (h : w ∈ v.parts) : v.isKey = false := by
  cases v with
  | list items => rfl
  | object entries => rfl
  | _ => cases h

@[elab_as_elim]
theorem parts_induction {P : Value → Prop} (step : ∀ v, (∀ w ∈ v.parts, P w) → P v) (v : Value) : P v :=
  step v fun w _ => parts_induction step w
termination_by sizeOf v
decreasing_by exact sizeOf_lt_of_mem_parts ‹_›

/-- What holds of lists and objects whose parts it holds of, and of all leaves, holds of all values. -/
@[elab_as_elim]
theorem tree_induction {P : Value → Prop} (list : ∀ items, (∀ v ∈ items, P v) → P (.list items))
    (object : ∀ entries, (∀ entry ∈ entries, P entry.2) → P (.object entries))
    (leaf : ∀ v, v.isKey = true → P v) (v : Value) : P v := by
  induction v using parts_induction with
  | step v ih =>
      cases v with
      | list items => exact list items ih
      | object entries => exact object entries fun entry h => ih _ (List.mem_map_of_mem h)
      | _ => exact leaf _ rfl

/-! ## Leaves -/

mutual
/-- The value with something else in the place of each leaf. -/
def graft (f : Value → Value) : Value → Value
  | .list items => .list (graftItems f items)
  | .object entries => .object (graftEntries f entries)
  | leaf => f leaf

/-- The items with something else in the place of each leaf. -/
def graftItems (f : Value → Value) : List Value → List Value
  | [] => []
  | v :: rest => graft f v :: graftItems f rest

/-- The entries with something else in the place of each leaf. -/
def graftEntries (f : Value → Value) : List (String × Value) → List (String × Value)
  | [] => []
  | (key, v) :: rest => (key, graft f v) :: graftEntries f rest
end

variable (f g : Value → Value)

theorem graft_list (items : List Value) : graft f (.list items) = .list (items.map (graft f)) := by
  rw [graft]
  congr 1
  induction items with
  | nil => rfl
  | cons v rest ih => rw [graftItems, ih, List.map_cons]

theorem graft_object (entries : Document) :
    graft f (.object entries) = .object (entries.map fun entry => (entry.1, graft f entry.2)) := by
  rw [graft]
  congr 1
  induction entries with
  | nil => rfl
  | cons entry rest ih => rw [graftEntries, ih, List.map_cons]

theorem graft_leaf {v : Value} (h : v.isKey = true) : graft f v = f v := by
  cases v with
  | list items => cases h
  | object entries => cases h
  | _ => rfl

theorem isKey_graft {v : Value} (h : v.isKey = false) : (graft f v).isKey = false := by
  cases v with
  | list items => rfl
  | object entries => rfl
  | _ => cases h

theorem graft_graft (v : Value) : graft g (graft f v) = graft (fun leaf => graft g (f leaf)) v := by
  induction v using tree_induction with
  | list items ih =>
      simp only [graft_list, List.map_map]
      exact congrArg Value.list (List.map_congr_left ih)
  | object entries ih =>
      simp only [graft_object, List.map_map]
      exact congrArg Value.object (List.map_congr_left fun entry h => congrArg (entry.1, ·) (ih entry h))
  | leaf v h => rw [graft_leaf f h, graft_leaf _ h]

theorem graft_congr {f g : Value → Value} (h : ∀ leaf, leaf.isKey = true → f leaf = g leaf) (v : Value) :
    graft f v = graft g v := by
  induction v using tree_induction with
  | list items ih => rw [graft_list, graft_list, List.map_congr_left ih]
  | object entries ih =>
      rw [graft_object, graft_object,
        List.map_congr_left fun entry h => congrArg (entry.1, ·) (ih entry h)]
  | leaf v hleaf => rw [graft_leaf f hleaf, graft_leaf g hleaf, h v hleaf]

theorem graft_self (h : ∀ leaf, f leaf = leaf) (v : Value) : graft f v = v := by
  induction v using tree_induction with
  | list items ih => rw [graft_list, List.map_congr_left ih, List.map_id']
  | object entries ih =>
      rw [graft_object, List.map_congr_left fun entry h => congrArg (entry.1, ·) (ih entry h)]
      exact congrArg Value.object (List.map_id' _)
  | leaf v hleaf => rw [graft_leaf f hleaf, h v]

/-! ## Places -/

/-- The part of a value to which places lead, in each list or object on the way the place of the next. -/
def at? : List Nat → Value → Option Value
  | [], v => some v
  | place :: path, v => v.parts[place]?.bind (at? path)

theorem parts_graft {v : Value} (h : v.isKey = false) : (graft f v).parts = v.parts.map (graft f) := by
  cases v with
  | list items => rw [graft_list]; rfl
  | object entries =>
      rw [graft_object]
      simp [parts]
  | _ => cases h

theorem at?_graft {path : List Nat} {v part : Value} (h : v.at? path = some part) :
    (graft f v).at? path = some (graft f part) := by
  induction path generalizing v with
  | nil =>
      cases h
      rfl
  | cons place path ih =>
      obtain ⟨next, hnext, hpart⟩ := Option.bind_eq_some_iff.mp h
      have hbranch : v.isKey = false := isKey_of_mem_parts (List.mem_of_getElem? hnext)
      rw [at?, parts_graft f hbranch, List.getElem?_map, hnext]
      exact ih hpart

end QueryPipeline.Value
