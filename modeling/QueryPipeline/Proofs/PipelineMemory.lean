import QueryPipeline.Proofs.Entries
import QueryPipeline.Registry

/-!
Pipelines in memory. A named query is compiled in a copy of its pipeline, so that what is stored stays as it
is, and comes to the stored stages with the parameters in them and those of the options after them.
-/

namespace QueryPipeline.Registry

open Entries (keys get?)

namespace Memory

variable {memory : Memory} {place : Nat}

theorem read_append (memory more : Memory) (h : place < memory.length) :
    read (memory ++ more) place = read memory place := by
  rw [read, List.getElem?_append_left h, read]

theorem read_new (memory : Memory) (pipeline : List Value) :
    read (memory ++ [pipeline]) memory.length = pipeline := by
  simp [read]

theorem modify_new (memory : Memory) (pipeline : List Value) (f : List Value → List Value) :
    List.modify (memory ++ [pipeline]) memory.length f = memory ++ [f pipeline] := by
  induction memory with
  | nil => rfl
  | cons first rest ih => exact congrArg (first :: ·) ih

/-- A pipeline is compiled in a place of its own, after what was in memory before. -/
theorem compile_eq (memory : Memory) (place : Nat) (lenient : Bool) (params options : Document) :
    ∃ copy, memory.compile place lenient params options = (memory ++ [copy],
      (Template.substituteItems lenient params (memory.read place)).map (· ++ optionStages options)) := by
  unfold compile
  simp only [read_new, modify_new]
  cases Template.substituteItems lenient params (memory.read place) with
  | error fault => exact ⟨_, rfl⟩
  | ok stages => exact ⟨_, rfl⟩

end Memory

/-- What comes after its own pipelines in memory is nothing to a registry. -/
theorem withMemory_append (r : Registry) (more : Memory) : r.withMemory (r.memory ++ more) = r := by
  have hcurrent : r.current.mapIdx (fun place entry =>
      (entry.1, { entry.2 with pipeline := Memory.read (r.memory ++ more) place })) = r.current := by
    refine List.ext_getElem? fun place => ?_
    rw [List.getElem?_mapIdx]
    cases hentry : r.current[place]? with
    | none => rfl
    | some entry =>
        have hplace : place < r.memory.length := by
          rw [memory, List.length_map]
          exact (List.getElem?_eq_some_iff.mp hentry).1
        have hread : Memory.read (r.memory ++ more) place = entry.2.pipeline := by
          rw [Memory.read_append _ _ hplace, Memory.read, memory, List.getElem?_map, hentry]
          rfl
        rw [hread]
        rfl
  rw [withMemory, hcurrent]

/-- The pipeline of a named query is in the place of its name. -/
theorem read_memory {r : Registry} {name : String} {q : NamedQuery}
    (h : get? r.current name = some q) :
    r.memory.read ((keys r.current).idxOf name) = q.pipeline := by
  obtain ⟨entries, committed, clock⟩ := r
  rw [Memory.read, memory]
  dsimp only at h ⊢
  induction entries with
  | nil => cases h
  | cons entry rest ih =>
      obtain ⟨key, found⟩ := entry
      by_cases hkey : key = name
      · subst hkey
        simp only [get?, if_true, Option.some.injEq] at h
        simp [keys, h]
      · simp only [get?, hkey, if_false] at h
        have hidx : (keys ((key, found) :: rest)).idxOf name = (keys rest).idxOf name + 1 :=
          by simp [keys, List.idxOf_cons, beq_eq_false_iff_ne.mpr hkey]
        rw [hidx, List.map_cons, List.getElem?_cons_succ]
        exact ih h

/-- To compile a named query leaves the registry as it was. -/
theorem compiling_state (r : Registry) (lenient : Bool) (name : String) (params options : Document) :
    (r.compiling lenient name params options).state = r := by
  unfold compiling
  split
  · rfl
  · obtain ⟨copy, hcompile⟩ := r.memory.compile_eq ((keys r.current).idxOf name) lenient params options
    simp only [hcompile]
    exact withMemory_append r [copy]

theorem compile_eq (r : Registry) (lenient : Bool) (name : String) (params options : Document) :
    r.compile lenient name params options =
      match r.get name with
      | .error fault => .error fault
      | .ok q => (Template.substituteItems lenient params q.pipeline).map fun stages =>
          (q, stages ++ optionStages options) := by
  unfold compile compiling
  cases hget : r.get name with
  | error fault => rfl
  | ok q =>
      have hplace : get? r.current name = some q := by
        unfold get at hget
        split at hget <;> cases hget
        assumption
      obtain ⟨copy, hcompile⟩ := r.memory.compile_eq ((keys r.current).idxOf name) lenient params options
      rw [read_memory hplace] at hcompile
      simp only [hcompile]
      cases Template.substituteItems lenient params q.pipeline <;> rfl

end QueryPipeline.Registry
