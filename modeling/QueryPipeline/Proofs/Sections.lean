import QueryPipeline.Proofs.Runs

/-!
A query object taken section by section. The first section at fault is the fault of the whole; without
one the query holds what was read of all three, and its pipeline is put together from them.
-/

namespace QueryPipeline

namespace Slot

variable {α : Type} {enabled : Except Fault Unit} {isGiven : Bool} {read : Except Fault α}

/-- What is read of a section, unless there is input and the section is disabled. -/
def outcome (enabled : Except Fault Unit) (isGiven : Bool) (read : Except Fault α) : Except Fault α :=
  (if isGiven then enabled else .ok ()) >>= fun _ => read

theorem take_of_ok {a : α} (h : outcome enabled isGiven read = .ok a) :
    take enabled isGiven read = (.held a, none) := by
  obtain ⟨⟨⟩, hallowed, hread⟩ := bind_eq_ok_iff.mp h
  simp only [take, hallowed, hread]

theorem take_of_error {fault : Fault} (h : outcome enabled isGiven read = .error fault) :
    (take enabled isGiven read).2 = some fault := by
  rcases bind_eq_error_iff.mp h with hrefused | ⟨⟨⟩, hallowed, hread⟩
  · simp only [take, hrefused]
  · simp only [take, hallowed, hread]

theorem outcome_enabled (h : enabled = .ok ()) (isGiven : Bool) (read : Except Fault α) :
    outcome enabled isGiven read = read := by
  rw [outcome, h, ite_self]
  rfl

end Slot

/-- What is read of a query object. -/
structure Parts where
  filter : Filter
  sort : SortSpec
  page : Page

/-- How far a query has got that has read all of its query object. -/
def Parts.progress (parts : Parts) : Progress :=
  { filter := .held parts.filter, sort := .held parts.sort, page := .held parts.page }

namespace Query

/-- Reads the sections of a query object, one after another. -/
def parts (q : Query) (object : Document) : Except Fault Parts := do
  let filter? := QueryObject.filter? object
  let (filter, _) ← Slot.outcome (q.requireEnabled .filter) (isGiven filter?) (q.readFilter object)
  let sort? := QueryObject.sort? object
  let sort ← Slot.outcome (q.requireEnabled .sort) (isGiven sort?)
    (Sorting.read q.compiler.settings.sorting (sort?.getD .null))
  let page? := QueryObject.page? object
  let page ← Slot.outcome (q.requireEnabled .limit) (page?.any fun input => !input.isNull)
    (Page.read q.compiler.settings.paging (page?.getD {}))
  return { filter, sort, page }

/-- The query once it has read all of its query object. -/
def holding (q : Query) (parts : Parts) : Query :=
  { q with progress := some parts.progress }

variable {q : Query} {object : Document}

theorem parts_eq_ok_iff {parts : Parts} : q.parts object = .ok parts ↔
    (∃ log, Slot.outcome (q.requireEnabled .filter) (isGiven (QueryObject.filter? object))
      (q.readFilter object) = .ok (parts.filter, log)) ∧
    Slot.outcome (q.requireEnabled .sort) (isGiven (QueryObject.sort? object))
      (Sorting.read q.compiler.settings.sorting ((QueryObject.sort? object).getD .null)) =
        .ok parts.sort ∧
    Slot.outcome (q.requireEnabled .limit)
      ((QueryObject.page? object).any fun input => !input.isNull)
      (Page.read q.compiler.settings.paging ((QueryObject.page? object).getD {})) =
        .ok parts.page := by
  unfold Query.parts
  constructor
  · intro h
    obtain ⟨⟨filter, log⟩, hfilter, h⟩ := bind_eq_ok_iff.mp h
    obtain ⟨sort, hsort, h⟩ := bind_eq_ok_iff.mp h
    obtain ⟨page, hpage, h⟩ := bind_eq_ok_iff.mp h
    cases h
    exact ⟨⟨log, hfilter⟩, hsort, hpage⟩
  · rintro ⟨⟨log, hfilter⟩, hsort, hpage⟩
    simp only [hfilter, hsort, hpage]
    rfl

theorem fill_of_parts {parts : Parts} (h : q.parts object = .ok parts) :
    (q.fill object).1 = parts.progress ∧ (q.fill object).2.2 = .ok () := by
  obtain ⟨⟨log, hfilter⟩, hsort, hpage⟩ := parts_eq_ok_iff.mp h
  rw [readFilter] at hfilter
  unfold fill fillWith
  simp only [Slot.take_of_ok hfilter, Slot.take_of_ok hsort, Slot.take_of_ok hpage, Parts.progress,
    and_self]

theorem fill_of_fault {fault : Fault} (h : q.parts object = .error fault) :
    (q.fill object).2.2 = .error fault := by
  unfold Query.parts at h
  unfold fill fillWith
  rw [← readFilter]
  rcases bind_eq_error_iff.mp h with hfilter | ⟨⟨filter, log⟩, hfilter, h⟩
  · have hfault := Slot.take_of_error hfilter
    rcases htaken : Slot.take (q.requireEnabled .filter) (isGiven (QueryObject.filter? object))
      (q.readFilter object) with ⟨slot, fault?⟩
    rw [htaken] at hfault
    cases hfault
    simp only [htaken]
    cases slot <;> rfl
  · simp only [Slot.take_of_ok hfilter]
    rcases bind_eq_error_iff.mp h with hsort | ⟨sort, hsort, h⟩
    · rw [Slot.take_of_error hsort]
    · rw [Slot.take_of_ok hsort]
      rcases bind_eq_error_iff.mp h with hpage | ⟨page, hpage, h⟩
      · simp only [Slot.take_of_error hpage]
      · cases h

/-- Compiling is to check the keys of the query object, to read its sections, and to put the pipeline
together. -/
theorem compile_eq_parts (hq : q.progress = none) (object : Document) :
    q.compile object = (q.checkKeys object >>= fun _ => q.parts object >>= fun parts =>
      (q.holding parts).pipeline (q.holding parts)) := by
  unfold compile
  refine congrArg _ (funext fun warnings => ?_)
  simp only [take_of_unread hq]
  cases hparts : q.parts object with
  | error fault => rw [fill_of_fault hparts]; rfl
  | ok parts =>
      obtain ⟨hprogress, hresult⟩ := fill_of_parts hparts
      rw [hprogress, hresult]
      rfl

theorem compile_eq_ok_iff (hq : q.progress = none) {p : Pipeline} :
    q.compile object = .ok p ↔
      (∃ warnings, q.checkKeys object = .ok warnings) ∧
        ∃ parts, q.parts object = .ok parts ∧
          (q.holding parts).pipeline (q.holding parts) = .ok p := by
  rw [compile_eq_parts hq]
  constructor
  · intro h
    obtain ⟨warnings, hkeys, h⟩ := bind_eq_ok_iff.mp h
    obtain ⟨parts, hparts, h⟩ := bind_eq_ok_iff.mp h
    exact ⟨⟨warnings, hkeys⟩, parts, hparts, h⟩
  · rintro ⟨⟨warnings, hkeys⟩, parts, hparts, h⟩
    exact bind_eq_ok_iff.mpr ⟨warnings, hkeys, bind_eq_ok_iff.mpr ⟨parts, hparts, h⟩⟩

theorem checkKeys_of_known (q : Query) (h : ∀ key ∈ Entries.keys object, key ∈ QueryObject.keys) :
    q.checkKeys object = .ok [] := by
  rw [checkKeys, QueryObject.unknown_eq_nil h]

theorem take_eq_holding (hq : q.progress = none) {parts : Parts} (h : q.parts object = .ok parts) :
    (q.take object).1 = q.holding parts := by
  rw [take_of_unread hq, (fill_of_parts h).1]
  rfl

theorem pipeline_holding {parts : Parts} {p : Pipeline}
    (h : (q.holding parts).pipeline (q.holding parts) = .ok p) :
    p.sort = parts.sort ∧ p.skip = parts.page.skip ∧ p.limit = parts.page.limit := by
  obtain ⟨filter, sort, scope, before, hf, hs, -, -, rfl⟩ := pipeline_ok h
  cases hs
  exact ⟨rfl, rfl, rfl⟩

theorem requireEnabled_eq_ok_iff {part : Section} :
    q.requireEnabled part = .ok () ↔ q.compiler.settings.isEnabled part = true := by
  simp [requireEnabled, Settings.requireEnabled]

end Query

/-- Where no section is disabled, none refuses its input. -/
theorem Compiler.requireEnabled_eq {c : Compiler} (hall : ∀ part, c.settings.isEnabled part = true)
    {q : Query} (hc : q.compiler = c) (part : Section) : q.requireEnabled part = .ok () :=
  Query.requireEnabled_eq_ok_iff.mpr (hc ▸ hall part)

end QueryPipeline
