import QueryPipeline.Proofs.Scope

/-!
What a store does with a pipeline. A filter keeps the documents of which every entry holds; whatever
other stages do, they do it to the documents that reach them.
-/

namespace QueryPipeline

/-- A store as its pipelines see it: whether an entry of a filter holds of a document, and what a
stage that is no filter makes of the documents that reach it. -/
structure Engine (δ : Type) where
  holds : String → Value → δ → Bool
  transform : Stage → List δ → List δ

namespace Engine

variable {δ : Type} (e : Engine δ)

/-- Whether every entry of a filter holds of a document. -/
def accepts (filter : Document) (d : δ) : Bool :=
  filter.all fun entry => e.holds entry.1 entry.2 d

/-- What a stage makes of the documents that reach it. -/
def step : Stage → List δ → List δ
  | .keep filter, docs => docs.filter (e.accepts filter)
  | stage, docs => e.transform stage docs

/-- What stages make of documents, one after another. -/
def run (stages : List Stage) (docs : List δ) : List δ :=
  stages.foldl (fun docs stage => e.step stage docs) docs

/-- The number of documents that a filter accepts. -/
def count (filter : Document) (docs : List δ) : Nat :=
  (docs.filter (e.accepts filter)).length

theorem run_append (first second : List Stage) (docs : List δ) :
    e.run (first ++ second) docs = e.run second (e.run first docs) :=
  List.foldl_append

theorem run_keep (filter : Document) (rest : List Stage) (docs : List δ) :
    e.run (.keep filter :: rest) docs = e.run rest (docs.filter (e.accepts filter)) := rfl

theorem accepts_iff {filter : Document} (hn : (Entries.keys filter).Nodup) {d : δ} :
    e.accepts filter d = true ↔
      ∀ key v, Entries.get? filter key = some v → e.holds key v d = true := by
  simp only [accepts, List.all_eq_true, Prod.forall, Entries.mem_iff_get? hn]

theorem holds_of_accepts {filter : Document} {d : δ} (h : e.accepts filter d = true) {key : String}
    {v : Value} (hv : Entries.get? filter key = some v) : e.holds key v d = true :=
  List.all_eq_true.mp h _ (Entries.mem_of_get? hv)

/-- A filter looks only at the documents of which one of its entries holds. -/
theorem filter_accepts {filter : Document} {key : String} {v : Value}
    (hv : Entries.get? filter key = some v) (docs : List δ) :
    docs.filter (e.accepts filter) = (docs.filter (e.holds key v)).filter (e.accepts filter) := by
  rw [List.filter_filter]
  refine List.filter_congr fun d _ => ?_
  by_cases ha : e.accepts filter d = true
  · rw [ha, e.holds_of_accepts ha hv]; rfl
  · rw [Bool.not_eq_true] at ha
    rw [ha, Bool.false_and]

/-- Two filters without a conflict, merged, accept what both of them accept. -/
theorem accepts_merge {first second : Document} (h : Entries.Agree first second)
    (hf : (Entries.keys first).Nodup) (hs : (Entries.keys second).Nodup) (d : δ) :
    e.accepts (Entries.merge first second) d = (e.accepts first d && e.accepts second d) := by
  rw [Bool.eq_iff_iff]
  simp only [accepts, Bool.and_eq_true, List.all_eq_true, h.mem_merge_iff hf hs]
  constructor
  · intro ha
    exact ⟨fun entry hm => ha entry (.inl hm), fun entry hm => ha entry (.inr hm)⟩
  · rintro ⟨ha, hb⟩ entry (hm | hm)
    · exact ha entry hm
    · exact hb entry hm

end Engine

end QueryPipeline
