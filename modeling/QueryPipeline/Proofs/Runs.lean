import QueryPipeline.Proofs.Desk

/-!
Runs: what the holder of a query does with it, one use after another. A query that has taken its
query object itself is what its own uses make of it, whatever happens beside it.
-/

namespace QueryPipeline

open Crud.Desk (Use)

namespace Query

/-- The query after a query object was offered to it: it takes none of which it refuses the keys. -/
def offered (q : Query) (object : Document) : Query :=
  match q.checkKeys object with
  | .ok _ => (q.take object).1
  | .error _ => q

/-- The query after a use. Ended before it has taken anything, it takes an empty query object first. -/
def after (q : Query) : Use → Query
  | .setPrincipal principal => q.withPrincipal principal
  | .take object => q.offered object
  | .finish => if q.isReceived .filter then q else q.offered []
  | .copy => q

/-- What ending the query comes to. -/
def ended (q : Query) : Except Fault Pipeline :=
  if q.isReceived .filter then q.pipeline q else q.compile []

variable {q : Query}

theorem after_finish (q : Query) :
    q.after .finish = if q.isReceived .filter then q else q.offered [] := rfl

theorem checkKeys_nil (q : Query) : q.checkKeys [] = .ok [] := by
  rw [checkKeys, QueryObject.unknown_eq_nil (by simp [Entries.keys])]

theorem compile_nil (q : Query) :
    q.compile [] = (q.take []).2.2.bind fun _ => (q.take []).1.pipeline (q.take []).1 :=
  compile_of_known q (by simp [Entries.keys])

theorem offered_nil (q : Query) : q.offered [] = (q.take []).1 := by
  rw [offered, checkKeys_nil]

theorem progress_take (q : Query) (object : Document) : (q.take object).1.progress ≠ none := by
  unfold take
  split
  · rename_i h
    simp [h]
  · simp

theorem take_of_progress {progress : Progress} (h : q.progress = some progress) (object : Document) :
    q.take object = (q, [], .error .alreadyQueried) := by
  rw [take, h]

theorem offered_of_progress (h : q.progress ≠ none) (object : Document) : q.offered object = q := by
  obtain ⟨progress, hp⟩ := Option.ne_none_iff_exists'.mp h
  unfold offered
  split
  · rw [take_of_progress hp]
  · rfl

theorem isReceived_filter_eq (h : q.progress = none) : q.isReceived .filter = false := by
  simp [isReceived, h]

theorem compiler_take (q : Query) (object : Document) :
    (q.take object).1.compiler = q.compiler := by
  unfold take
  split <;> rfl

theorem compiler_offered (q : Query) (object : Document) :
    (q.offered object).compiler = q.compiler := by
  unfold offered
  split
  · exact compiler_take q object
  · rfl

theorem compiler_after (q : Query) (use : Use) : (q.after use).compiler = q.compiler := by
  cases use with
  | setPrincipal principal => rfl
  | take object => exact compiler_offered q object
  | finish =>
      rw [after_finish]
      split
      · rfl
      · exact compiler_offered q []
  | copy => rfl

theorem compiler_foldl_after (uses : List Use) (q : Query) :
    (uses.foldl after q).compiler = q.compiler := by
  induction uses generalizing q with
  | nil => rfl
  | cons use rest ih => exact (ih _).trans (compiler_after q use)

theorem progress_after (h : q.progress ≠ none) (use : Use) : (q.after use).progress = q.progress := by
  cases use with
  | setPrincipal principal => rfl
  | take object => rw [after, offered_of_progress h]
  | finish =>
      rw [after_finish, offered_of_progress h, ite_self]
  | copy => rfl

theorem progress_foldl_after (h : q.progress ≠ none) (uses : List Use) :
    (uses.foldl after q).progress = q.progress := by
  induction uses generalizing q with
  | nil => rfl
  | cons use rest ih =>
      have huse := progress_after h use
      rw [List.foldl_cons, ih (huse ▸ h), huse]

theorem take_of_unread (h : q.progress = none) (object : Document) :
    q.take object =
      ({ q with progress := some (q.fill object).1 }, (q.fill object).2.1, (q.fill object).2.2) := by
  rw [take, h]

/-- What a use has a query read, it is offered by the use. -/
theorem progress_of_use (hq : q.progress = none) {use : Use} {progress : Progress}
    (h : (q.after use).progress = some progress) :
    ∃ object, (use = .take object ∨ use = .finish ∧ object = []) ∧
      (∃ warnings, q.checkKeys object = .ok warnings) ∧ progress = (q.fill object).1 := by
  have hoffered : ∀ object, q.offered object = q.after use →
      (∃ warnings, q.checkKeys object = .ok warnings) ∧ progress = (q.fill object).1 := by
    intro object hsame
    rw [← hsame] at h
    unfold offered at h
    split at h
    · rename_i warnings hk
      rw [take_of_unread hq] at h
      cases h
      exact ⟨⟨warnings, hk⟩, rfl⟩
    · cases hq.symm.trans h
  cases use with
  | setPrincipal principal => cases hq.symm.trans h
  | take object => exact ⟨object, .inl rfl, hoffered object rfl⟩
  | finish =>
      have hwaiting : q.after .finish = q.offered [] := by
        rw [after_finish, isReceived_filter_eq hq]
        rfl
      exact ⟨[], .inr ⟨rfl, rfl⟩, hoffered [] hwaiting.symm⟩
  | copy => cases hq.symm.trans h

/-- What a run has read, it has read from one query object, the first whose keys were accepted. -/
theorem progress_origin (uses : List Use) (hq : q.progress = none) {progress : Progress}
    (h : (uses.foldl after q).progress = some progress) :
    ∃ before use rest object, uses = before ++ use :: rest ∧
      (use = .take object ∨ use = .finish ∧ object = []) ∧
      (before.foldl after q).progress = none ∧
      (∃ warnings, (before.foldl after q).checkKeys object = .ok warnings) ∧
      progress = ((before.foldl after q).fill object).1 := by
  induction uses generalizing q with
  | nil => cases hq.symm.trans h
  | cons use rest ih =>
      -- Either the query is still without a query object after this use, or it will keep the one it got.
      by_cases huse : (q.after use).progress = none
      · obtain ⟨before, other, after, object, rfl, hread⟩ := ih huse h
        exact ⟨use :: before, other, after, object, rfl, hread⟩
      · have hkept : (q.after use).progress = some progress :=
          (progress_foldl_after huse rest).symm.trans h
        obtain ⟨object, hoffers, hread⟩ := progress_of_use hq hkept
        exact ⟨[], use, rest, object, rfl, hoffers, hq, hread⟩

/-- A pipeline depends on the query by its compiler and by what it has read; the rest comes from the
query that took the query object. -/
theorem pipeline_congr {other : Query} (hc : q.compiler = other.compiler)
    (hp : q.progress = other.progress) (source : Query) :
    q.pipeline source = other.pipeline source := by
  unfold pipeline activeLedger
  rw [hc, hp]

/-- The page that the query has read; everything, if it has read none. -/
def page (q : Query) : Page :=
  (q.progress.bind (·.page.get?)).getD {}

/-- A pipeline is put together from a filter, a sort spec and a page, all of them the query's, and
from the scope of the ledger. -/
theorem pipeline_ok {source : Query} {p : Pipeline} (h : q.pipeline source = .ok p) :
    ∃ filter sort scope before,
      q.progress.bind (·.filter.get?) = some filter ∧ q.progress.bind (·.sort.get?) = some sort ∧
      (∀ ledger, q.activeLedger = some ledger →
        source.scope ledger q.compiler.settings.ownerField = .ok scope ∧
        before = ledgerStages ledger scope) ∧
      (q.activeLedger = none → scope = [] ∧ before = []) ∧
      p = { stages := before ++ [.keep filter.statement] ++ sort.stages ++ q.page.stages
            filter := filter.statement
            sort
            skip := q.page.skip
            limit := q.page.limit
            countFilter := Entries.merge scope filter.statement } := by
  have hpage : (q.progress.getD {}).page.get?.getD {} = q.page := by
    unfold page
    cases q.progress <;> rfl
  have hfilter : (q.progress.getD {}).filter.get? = q.progress.bind (·.filter.get?) := by
    cases q.progress <;> rfl
  have hsort : (q.progress.getD {}).sort.get? = q.progress.bind (·.sort.get?) := by
    cases q.progress <;> rfl
  unfold pipeline at h
  cases hl : q.activeLedger with
  | none =>
      simp only [hl, hpage, hfilter, hsort] at h
      obtain ⟨_, hbefore, h⟩ := bind_eq_ok_iff.mp h
      cases hbefore
      split at h
      · cases h
      · cases h
      · rename_i filter sort hf hs
        cases h
        exact ⟨filter, sort, [], [], hf, hs, fun _ hl => (nomatch hl), fun _ => ⟨rfl, rfl⟩, rfl⟩
  | some ledger =>
      simp only [hl, hpage, hfilter, hsort] at h
      obtain ⟨⟨scope, before⟩, hbefore, h⟩ := bind_eq_ok_iff.mp h
      obtain ⟨found, hscope, hfound⟩ := map_eq_ok_iff.mp hbefore
      cases hfound
      split at h
      · cases h
      · cases h
      · rename_i filter sort hf hs
        cases h
        refine ⟨filter, sort, scope, _, hf, hs, ?_, fun hl => (nomatch hl), rfl⟩
        intro other hother
        cases hother
        exact ⟨hscope, rfl⟩

end Query

namespace Session

variable {s : Session} {id other : Nat} {q : Query}

/-- A query of the session that has not taken its query object from another one. -/
def Owns (s : Session) (id : Nat) (q : Query) : Prop :=
  s.cells[id]? = some { query := q } ∨ s.cells[id]? = some { query := q, source := some id }

theorem Owns.cell (h : s.Owns id q) :
    ∃ source, s.cells[id]? = some { query := q, source } ∧ (source = none ∨ source = some id) := by
  rcases h with h | h
  · exact ⟨none, h, .inl rfl⟩
  · exact ⟨some id, h, .inr rfl⟩

theorem Owns.get? (h : s.Owns id q) : s.get? id = some q := by
  obtain ⟨source, hcell, -⟩ := h.cell
  exact get?_of_cell hcell

theorem Owns.pipeline (h : s.Owns id q) : s.pipeline id = q.pipeline q := by
  rcases h with h | h
  · simp [Session.pipeline, h]
  · have hget : s.get? id = some q := get?_of_cell h
    simp [Session.pipeline, h, hget]

theorem Owns.add (h : s.Owns id q) (cell : Cell) : (s.add cell).1.Owns id q := by
  rcases h with h | h
  · exact .inl (cells_add s cell h)
  · exact .inr (cells_add s cell h)

theorem Owns.revise (h : s.Owns id q) (f : Query → Query) : (s.revise id f).Owns id (f q) := by
  rcases h with h | h
  · exact .inl (cells_revise_self f h)
  · exact .inr (cells_revise_self f h)

theorem query_error {cell : Cell} (h : s.cells[id]? = some cell) {object : Document} {fault : Fault}
    (hk : cell.query.checkKeys object = .error fault) :
    s.query id object = { state := s, result := .error fault } := by
  simp [query, get?_of_cell h, hk]

theorem query_ok {cell : Cell} (h : s.cells[id]? = some cell) {object : Document}
    {warnings : List LogEntry} (hk : cell.query.checkKeys object = .ok warnings) :
    s.query id object =
      { state := s.modify id fun _ => { query := (cell.query.take object).1, source := some id }
        log := warnings ++ (cell.query.take object).2.1
        result := (cell.query.take object).2.2 } := by
  simp [query, get?_of_cell h, hk]

theorem Owns.query (h : s.Owns id q) (object : Document) :
    (s.query id object).state.Owns id (q.offered object) := by
  obtain ⟨source, hcell, -⟩ := h.cell
  unfold Query.offered
  cases hk : q.checkKeys object with
  | error fault =>
      rw [query_error hcell hk]
      exact h
  | ok warnings =>
      rw [query_ok hcell hk]
      refine .inr ?_
      rw [cells_modify, if_pos rfl, hcell]
      rfl

theorem Owns.query_result (h : s.Owns id q) (object : Document) :
    (s.query id object).result = (q.checkKeys object).bind fun _ => (q.take object).2.2 := by
  obtain ⟨source, hcell, -⟩ := h.cell
  exact Session.query_result hcell object

theorem finish_of_waiting (h : s.get? id = some q) (hr : q.isReceived .filter = false) :
    s.finish id =
      match (s.query id []).result with
      | .error fault => { s.query id [] with result := .error fault }
      | .ok () => { s.query id [] with result := (s.query id []).state.pipeline id } := by
  rw [finish, h, Option.map_some, hr]
  rfl

theorem Owns.finish (h : s.Owns id q) :
    (s.finish id).result = q.ended ∧ (s.finish id).state.Owns id (q.after .finish) := by
  cases hr : q.isReceived .filter with
  | true =>
      have hfinish : s.finish id = { state := s, result := s.pipeline id } := by
        simp [Session.finish, h.get?, hr]
      rw [hfinish, Query.ended, Query.after, if_pos hr, if_pos hr]
      exact ⟨h.pipeline, h⟩
  | false =>
      have howns := h.query []
      have hresult := h.query_result []
      rw [Query.checkKeys_nil] at hresult
      have hnot : ¬ q.isReceived .filter = true := by simp [hr]
      rw [finish_of_waiting h.get? hr, Query.ended, Query.after, if_neg hnot, if_neg hnot,
        Query.compile_nil, hresult]
      cases htaken : (q.take []).2.2 with
      | error fault => exact ⟨rfl, howns⟩
      | ok done =>
          refine ⟨?_, howns⟩
          rw [Query.offered_nil] at howns
          exact howns.pipeline

theorem Owns.copy (h : s.Owns id q) : (s.copy id).1.Owns id q := by
  rcases h with h | h
  · exact .inl (copy_other s id h)
  · exact .inr (copy_other s id h)

/-- A use of a query makes of it what it makes of the query alone. -/
theorem Owns.apply (h : s.Owns id q) (use : Use) : (use.apply s id).Owns id (q.after use) := by
  cases use with
  | setPrincipal principal => exact h.revise _
  | take object => exact h.query object
  | finish => exact h.finish.2
  | copy => exact h.copy

theorem Owns.apply_other (h : s.Owns id q) (use : Use) (hne : other ≠ id) :
    (use.apply s other).Owns id q := by
  rcases h with h | h
  · exact .inl (use.apply_other hne h)
  · exact .inr (use.apply_other hne h)

theorem length_query (s : Session) (id : Nat) (object : Document) :
    (s.query id object).state.cells.length = s.cells.length := by
  unfold Session.query
  split
  · rfl
  · split
    · rfl
    · simp [modify]

theorem length_finish (s : Session) (id : Nat) :
    (s.finish id).state.cells.length = s.cells.length := by
  unfold Session.finish
  split
  · rfl
  · simp only
    split <;> exact s.length_query id []

theorem length_apply (s : Session) (id : Nat) {use : Use} (hne : use ≠ .copy) :
    (use.apply s id).cells.length = s.cells.length := by
  cases use with
  | setPrincipal principal => exact List.length_modify _ _ _
  | take object => exact s.length_query id object
  | finish => exact s.length_finish id
  | copy => exact absurd rfl hne

/-- The session of one new query, after uses of it. -/
def alone (compiler : Compiler) (uses : List Use) : Session :=
  uses.foldl (fun s use => use.apply s 0) (start {} compiler).1

theorem owns_alone (compiler : Compiler) (uses : List Use) :
    (alone compiler uses).Owns 0 (uses.foldl Query.after { compiler }) := by
  have hrun : ∀ (uses : List Use) (s : Session) (q : Query), s.Owns 0 q →
      (uses.foldl (fun s use => use.apply s 0) s).Owns 0 (uses.foldl Query.after q) := by
    intro uses
    induction uses with
    | nil => exact fun s q h => h
    | cons use rest ih => exact fun s q h => ih _ _ (h.apply use)
  exact hrun uses _ _ (.inl rfl)

end Session

end QueryPipeline
