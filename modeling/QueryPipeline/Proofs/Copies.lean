import QueryPipeline.Proofs.Runs

/-!
Copies: several queries side by side, some of them copied from others. A copy that is made before the
query object comes has nothing of the principals of the query it comes from; one that is made later
stays with the query that took the query object, and has no principal of its own.
-/

namespace QueryPipeline

open Crud.Desk (Use)
open Entries (get?)

namespace Query

variable {q : Query}

theorem progress_offered {object : Document} (h : (q.offered object).progress = none) :
    ∃ fault, q.checkKeys object = .error fault := by
  unfold offered at h
  split at h
  · exact absurd h (progress_take q object)
  · exact ⟨_, ‹_›⟩

theorem principal_take (q : Query) (object : Document) :
    (q.take object).1.principal = q.principal := by
  unfold take
  split <;> rfl

theorem principal_offered (q : Query) (object : Document) :
    (q.offered object).principal = q.principal := by
  unfold offered
  split
  · exact principal_take q object
  · rfl

theorem isReceived_congr {other : Query} (h : q.progress = other.progress) (part : Section) :
    q.isReceived part = other.isReceived part := by
  cases part <;> simp only [isReceived, h]

end Query

/-! ## The scope of a pipeline -/

theorem Filter.get?_scopeWithin_owner (f : Filter) {ledger : Ledger} {owner : String} (hne : owner ≠ "")
    (hapart : owner ≠ ledger.account) (principal : Option Principal) :
    get? (f.scopeWithin ledger (ownScope (.text owner) principal)) owner =
      principal.map (·.id) := by
  have hown : get? (ownScope (.text owner) principal) owner = principal.map (·.id) := by
    cases principal <;> simp [ownScope, hne, get?]
  unfold scopeWithin
  split
  · exact (Entries.get?_put_of_ne _ _ hapart).trans hown
  · exact hown

namespace Query

variable {q : Query} {p : Pipeline} {ledger : Ledger}

theorem get?_scope {filter : Filter} (hf : q.progress.bind (·.filter.get?) = some filter) {owner : String}
    (ho : q.compiler.settings.ownerField = .text owner) (hne : owner ≠ "")
    (hapart : owner ≠ ledger.account) {scope : Document}
    (h : q.scope ledger q.compiler.settings.ownerField = .ok scope) :
    get? scope owner = q.principal.map (·.id) := by
  rw [scope_eq (.inr ⟨owner, ho⟩) hf, ho] at h
  cases h
  exact filter.get?_scopeWithin_owner hne hapart q.principal

/-- The scope of a query that is ended is its own principal's. -/
theorem get?_scope_ended (h : q.ended = .ok p) (hl : q.activeLedger = some ledger) {owner : String}
    (ho : q.compiler.settings.ownerField = .text owner) (hne : owner ≠ "")
    (hapart : owner ≠ ledger.account) :
    ∃ scope rest, p.stages = ledgerStages ledger scope ++ rest ∧
      get? scope owner = q.principal.map (·.id) := by
  have hread : ∀ q' : Query, q'.compiler = q.compiler → q'.principal = q.principal →
      q'.pipeline q' = .ok p → ∃ scope rest, p.stages = ledgerStages ledger scope ++ rest ∧
        get? scope owner = q.principal.map (·.id) := by
    intro q' hc hp hpipeline
    have hl' : q'.activeLedger = some ledger := by
      unfold activeLedger at hl ⊢
      rw [hc, hl]
    obtain ⟨filter, sort, scope, before, hf, -, hledger, -, rfl⟩ := pipeline_ok hpipeline
    obtain ⟨hscope, rfl⟩ := hledger ledger hl'
    exact ⟨scope, [.keep filter.statement] ++ sort.stages ++ q'.page.stages, by simp,
      hp ▸ get?_scope hf (hc ▸ ho) hne hapart hscope⟩
  unfold ended at h
  split at h
  · exact hread q rfl rfl h
  · rw [compile_nil] at h
    obtain ⟨_, -, h⟩ := bind_eq_ok_iff.mp h
    exact hread _ (compiler_take q []) (principal_take q []) h

end Query

/-! ## Queries that share a query object -/

namespace Session

variable {s : Session} {id : Nat} {q : Query}

/-- The query that took the query object of this one: itself, unless it is a copy. -/
def home (s : Session) (id : Nat) : Nat :=
  (s.cells[id]?.bind (·.source)).getD id

theorem cell_eq_of_source {cell : Cell} {source : Option Nat} (h : cell.source = source) :
    cell = { query := cell.query, source } := by
  subst h
  rfl

/-- A query that took its query object itself, and has read the same as the given one. -/
def Lends (s : Session) (home : Nat) (q : Query) : Prop :=
  ∃ lender : Query, s.cells[home]? = some { query := lender, source := some home } ∧
    lender.compiler = q.compiler ∧ lender.progress = q.progress ∧ lender.progress ≠ none

/-- Every query that has its query object from another one has read the same as that one. -/
def Tied (s : Session) : Prop :=
  ∀ (id : Nat) (cell : Cell) (home : Nat), s.cells[id]? = some cell → cell.source = some home →
    s.Lends home cell.query

theorem Lends.congr {home : Nat} (h : s.Lends home q) {other : Query}
    (hc : other.compiler = q.compiler) (hp : q.progress ≠ none → other.progress = q.progress) :
    s.Lends home other := by
  obtain ⟨lender, hcell, hcompiler, hprogress, hne⟩ := h
  exact ⟨lender, hcell, hcompiler.trans hc.symm, hprogress.trans (hp (hprogress ▸ hne)).symm, hne⟩

theorem Tied.add (h : s.Tied) {cell : Cell}
    (hcell : ∀ home, cell.source = some home → s.Lends home cell.query) : (s.add cell).1.Tied := by
  intro id found home hfound hsource
  have hlends : s.Lends home found.query := by
    by_cases hlt : id < s.cells.length
    · rw [Session.add, List.getElem?_append_left hlt] at hfound
      exact h id found home hfound hsource
    · rw [Session.add, List.getElem?_append_right (Nat.le_of_not_lt hlt),
        List.getElem?_singleton] at hfound
      split at hfound
      · cases hfound
        exact hcell home hsource
      · cases hfound
  obtain ⟨lender, hhome, hread⟩ := hlends
  exact ⟨lender, cells_add s cell hhome, hread⟩

/-- A query may change as long as it keeps its compiler and what it has read, and has its query object
from where it was or from itself. -/
theorem Tied.modify (h : s.Tied) {f : Cell → Cell}
    (hf : ∀ cell, s.cells[id]? = some cell →
      (f cell).query.compiler = cell.query.compiler ∧
      (cell.query.progress ≠ none → (f cell).query.progress = cell.query.progress) ∧
      ((f cell).source = cell.source ∨ (f cell).source = some id ∧ (f cell).query.progress ≠ none)) :
    (s.modify id f).Tied := by
  have hkept : ∀ {home q}, s.Lends home q → (s.modify id f).Lends home q := by
    rintro home q ⟨lender, hhome, hcompiler, hprogress, hne⟩
    by_cases hid : id = home
    -- The lender itself changes: it stays its own source, which `f` may only confirm.
    · subst hid
      obtain ⟨hc, hp, hsource⟩ := hf _ hhome
      have hself : (f { query := lender, source := some id }).source = some id := by
        rcases hsource with hsource | ⟨hsource, -⟩ <;> exact hsource
      refine ⟨(f { query := lender, source := some id }).query, ?_, hc.trans hcompiler,
        (hp hne).trans hprogress, (hp hne).symm ▸ hne⟩
      rw [cells_modify, if_pos rfl, hhome, Option.map_some]
      exact congrArg some (cell_eq_of_source hself)
    · exact ⟨lender, by rw [cells_modify, if_neg hid, hhome], hcompiler, hprogress, hne⟩
  intro other found home hfound hsource
  rw [cells_modify] at hfound
  by_cases hid : id = other
  · subst hid
    rw [if_pos rfl] at hfound
    obtain ⟨cell, hcell, rfl⟩ := Option.map_eq_some_iff.mp hfound
    obtain ⟨hc, hp, hfrom⟩ := hf cell hcell
    rcases hfrom with hfrom | ⟨hself, hne⟩
    · exact (hkept (h id cell home hcell (hfrom ▸ hsource))).congr hc hp
    · obtain rfl : id = home := Option.some.inj (hself.symm.trans hsource)
      refine ⟨(f cell).query, ?_, rfl, rfl, hne⟩
      rw [cells_modify, if_pos rfl, hcell, Option.map_some]
      exact congrArg some (cell_eq_of_source hself)
  · rw [if_neg hid] at hfound
    exact hkept (h other found home hfound hsource)

theorem Tied.query (h : s.Tied) (id : Nat) (object : Document) : (s.query id object).state.Tied := by
  cases hcell : s.cells[id]? with
  | none =>
      have hget : s.get? id = none := by simp [Session.get?, hcell]
      simpa [Session.query, hget] using h
  | some cell =>
      cases hk : cell.query.checkKeys object with
      | error fault =>
          rw [query_error hcell hk]
          exact h
      | ok warnings =>
          rw [query_ok hcell hk]
          refine h.modify fun found hfound => ?_
          obtain rfl : cell = found := Option.some.inj (hcell.symm.trans hfound)
          refine ⟨Query.compiler_take _ _, fun hne => ?_, .inr ⟨rfl, Query.progress_take _ _⟩⟩
          obtain ⟨progress, hp⟩ := Option.ne_none_iff_exists'.mp hne
          rw [Query.take_of_progress hp]

theorem Tied.finish (h : s.Tied) (id : Nat) : (s.finish id).state.Tied := by
  unfold Session.finish
  split
  · exact h
  · simp only
    split <;> exact h.query id []

theorem Tied.copy (h : s.Tied) (id : Nat) : (s.copy id).1.Tied := by
  unfold Session.copy
  split
  · rename_i cell hcell
    exact h.add fun home hsource => h id cell home hcell hsource
  · exact h

theorem Tied.apply (h : s.Tied) (id : Nat) (use : Use) : (use.apply s id).Tied := by
  cases use with
  | setPrincipal principal => exact h.modify fun _ _ => ⟨rfl, fun _ => rfl, .inl rfl⟩
  | take object => exact h.query id object
  | finish => exact h.finish id
  | copy => exact h.copy id

/-- A query that has its query object from another one is ended as that one is. -/
theorem Tied.finish_home (h : s.Tied) (id : Nat) :
    (s.finish id).result = (s.finish (s.home id)).result := by
  cases hcell : s.cells[id]? with
  | none => simp [home, hcell]
  | some cell =>
      cases hsource : cell.source with
      | none => simp [home, hcell, hsource]
      | some other =>
          obtain ⟨q, hhome, hcompiler, hprogress, hne⟩ := h id cell other hcell hsource
          have hid : s.home id = other := by simp [home, hcell, hsource]
          have howns : s.Owns other q := .inr hhome
          rw [hid, howns.finish.1]
          have hget : s.get? id = some cell.query := get?_of_cell hcell
          have hgethome : s.get? other = some q := get?_of_cell hhome
          have hsame := Query.isReceived_congr hprogress .filter
          cases hr : q.isReceived .filter with
          | true =>
              have hfinish : s.finish id = { state := s, result := s.pipeline id } := by
                simp [Session.finish, hget, ← hsame, hr]
              rw [hfinish, Query.ended, if_pos hr, Query.pipeline_congr hcompiler hprogress]
              simp [Session.pipeline, hcell, hsource, hgethome]
          | false =>
              -- The filter was never read. Ended, both ask once more, and are told that they did before.
              obtain ⟨progress, hp⟩ := Option.ne_none_iff_exists'.mp hne
              have hcellp : cell.query.progress = some progress := hprogress ▸ hp
              have htaken : (s.query id []).result = .error .alreadyQueried := by
                rw [query_ok hcell (Query.checkKeys_nil _), Query.take_of_progress hcellp]
              rw [finish_of_waiting hget (hsame ▸ hr), htaken, Query.ended, if_neg (by simp [hr]),
                Query.compile_nil, Query.take_of_progress hp]
              rfl

end Session

/-! ## What was done with a query -/

/-- Whether the use says whom the query is for. -/
def Crud.Desk.Use.isPersonal : Use → Bool
  | .setPrincipal _ => true
  | _ => false

/-- Whom a query is for after the use. -/
def Crud.Desk.Use.principal (before : Option Principal) : Use → Option Principal
  | .setPrincipal principal => principal
  | _ => before

namespace Query

variable {q : Query}

theorem principal_after (q : Query) (use : Use) :
    (q.after use).principal = use.principal q.principal := by
  cases use with
  | setPrincipal principal => rfl
  | take object => exact principal_offered q object
  | finish =>
      rw [after_finish]
      split
      · rfl
      · exact principal_offered q []
  | copy => rfl

theorem principal_foldl_after (uses : List Use) (q : Query) :
    (uses.foldl after q).principal = uses.foldl Use.principal q.principal := by
  induction uses generalizing q with
  | nil => rfl
  | cons use rest ih => rw [List.foldl_cons, List.foldl_cons, ih, principal_after]

theorem after_of_unread {use : Use} (hu : use.isPersonal = false)
    (h : (q.after use).progress = none) :
    q.after use = q ∧ (q.withPrincipal none).after use = q.withPrincipal none := by
  cases use with
  | setPrincipal principal => cases hu
  | take object =>
      obtain ⟨fault, hk⟩ := progress_offered h
      have hknone : (q.withPrincipal none).checkKeys object = .error fault := hk
      simp only [after, offered, hk, hknone, and_self]
  | finish =>
      -- Ending a query makes it take an empty query object, unless it has one.
      have hne : (q.after .finish).progress ≠ none := by
        rw [after_finish]
        split
        · rename_i hr
          intro hnone
          rw [isReceived_filter_eq hnone] at hr
          cases hr
        · rw [offered_nil]
          exact progress_take q []
      exact absurd h hne
  | copy => exact ⟨rfl, rfl⟩

/-- Without its principals, a query that has no query object is a new one. -/
theorem foldl_after_impersonal (uses : List Use) (h : (uses.foldl after q).progress = none) :
    (uses.filter fun use => !use.isPersonal).foldl after (q.withPrincipal none) =
      (uses.foldl after q).withPrincipal none := by
  induction uses generalizing q with
  | nil => rfl
  | cons use rest ih =>
      have hunread : (q.after use).progress = none := by
        by_contra hne
        exact hne ((progress_foldl_after hne rest).symm.trans h)
      cases hu : use.isPersonal with
      | true =>
          obtain ⟨principal, rfl⟩ : ∃ principal, use = .setPrincipal principal := by
            cases use <;> first | exact ⟨_, rfl⟩ | cases hu
          exact ih h
      | false =>
          obtain ⟨hsame, hnone⟩ := after_of_unread hu hunread
          rw [List.filter_cons_of_pos (by simp [hu]), List.foldl_cons, List.foldl_cons, hnone, hsame]
          rw [List.foldl_cons, hsame] at h
          exact ih h

end Query

/-- What has been done with a query: the compiler it was made with and the uses since then. A copy
goes on with the uses of the query it comes from, but for its principals; it is late when that one had
already taken its query object. -/
structure Life where
  compiler : Compiler
  uses : List Use := []
  isLate : Bool := false

namespace Life

/-- The life of a copy. -/
def copied (life : Life) (isTaken : Bool) : Life :=
  { life with
    uses := life.uses.filter fun use => !use.isPersonal
    isLate := life.isLate || isTaken }

/-- The query as its uses leave it. -/
def query (life : Life) : Query :=
  life.uses.foldl Query.after { compiler := life.compiler }

/-- What a new query gives when it is ended after the same uses. -/
def ended (life : Life) : Except Fault Pipeline :=
  ((Session.alone life.compiler life.uses).finish 0).result

/-- Whom the query is for after its uses. -/
def principal (life : Life) : Option Principal :=
  life.uses.foldl Use.principal none

theorem ended_eq (life : Life) : life.ended = life.query.ended :=
  (Session.owns_alone life.compiler life.uses).finish.1

theorem principal_eq (life : Life) : life.query.principal = life.principal :=
  Query.principal_foldl_after life.uses _

end Life

/-- What is done in a session: a query is started, or one of them is used. -/
inductive Session.Step where
  | start (compiler : Compiler)
  | use (id : Nat) (use : Use)

/-- A session, with what has been done with each of its queries. -/
structure Course where
  session : Session := {}
  lives : List Life := []

namespace Course

/-- The lives after a use of a query; a copy begins a life of its own. -/
def livesAfter (c : Course) (id : Nat) : Use → List Life
  | .copy =>
    let isTaken := ((c.session.get? id).map (·.isReceived .balance)).getD false
    c.lives ++ (c.lives[id]?.map (·.copied isTaken)).toList
  | use => c.lives.modify id fun life => { life with uses := life.uses ++ [use] }

/-- The session and the lives after a step. -/
def step (c : Course) : Session.Step → Course
  | .start compiler =>
    { session := (c.session.start compiler).1, lives := c.lives ++ [{ compiler }] }
  | .use id use => { session := use.apply c.session id, lives := c.livesAfter id use }

/-- The session and the lives after some steps, from nothing on. -/
def run (steps : List Session.Step) : Course :=
  steps.foldl step {}

/-- Every query has its life beside it, and one that is not late is what a new query would be. -/
structure Faithful (c : Course) : Prop where
  length_eq : c.lives.length = c.session.cells.length
  tied : c.session.Tied
  owns : ∀ (id : Nat) (life : Life), c.lives[id]? = some life → life.isLate = false →
    c.session.Owns id life.query

variable {c : Course}

theorem Faithful.add (h : c.Faithful) {cell : Cell} {life : Life}
    (hlends : ∀ home, cell.source = some home → c.session.Lends home cell.query)
    (hlife : life.isLate = false → cell = { query := life.query }) :
    Faithful { session := (c.session.add cell).1, lives := c.lives ++ [life] } := by
  refine ⟨by simp [Session.add, h.length_eq], h.tied.add hlends, ?_⟩
  intro id found hfound hlate
  by_cases hlt : id < c.lives.length
  · rw [List.getElem?_append_left hlt] at hfound
    exact (h.owns id found hfound hlate).add cell
  · rw [List.getElem?_append_right (Nat.le_of_not_lt hlt), List.getElem?_singleton] at hfound
    split at hfound
    · cases hfound
      obtain rfl : id = c.session.cells.length := by
        have hlength := h.length_eq
        omega
      have hself := Session.cells_add_self c.session cell
      rw [hlife hlate] at hself ⊢
      exact .inl hself
    · cases hfound

theorem Faithful.start (h : c.Faithful) (compiler : Compiler) :
    (c.step (.start compiler)).Faithful := by
  let life : Life := { compiler }
  exact h.add (fun _ hsource => nomatch hsource) fun _ : life.isLate = false => rfl

theorem Faithful.cell_of_unread (h : c.Faithful) {id : Nat} {life : Life} {cell : Cell}
    (hlife : c.lives[id]? = some life) (hlate : life.isLate = false)
    (hcell : c.session.cells[id]? = some cell) (hnone : cell.query.progress = none) :
    cell = { query := life.query } := by
  obtain ⟨source, howned, hsource⟩ := (h.owns id life hlife hlate).cell
  obtain rfl : cell = { query := life.query, source } := Option.some.inj (hcell.symm.trans howned)
  rcases hsource with rfl | rfl
  · rfl
  · obtain ⟨_, _, -, hprogress, hne⟩ := h.tied id _ id hcell rfl
    exact absurd (hprogress.trans hnone) hne

theorem Faithful.copy (h : c.Faithful) (id : Nat) : (c.step (.use id .copy)).Faithful := by
  cases hlife : c.lives[id]? with
  | none =>
      have hcell : c.session.cells[id]? = none := by
        rw [List.getElem?_eq_none_iff] at hlife ⊢
        exact h.length_eq ▸ hlife
      have hstep : c.step (.use id .copy) = c := by
        simp [step, livesAfter, Use.apply, Session.copy, hlife, hcell]
      rw [hstep]
      exact h
  | some life =>
      have hlt : id < c.session.cells.length := by
        rw [← h.length_eq]
        exact (List.getElem?_eq_some_iff.mp hlife).1
      obtain ⟨cell, hcell⟩ : ∃ cell, c.session.cells[id]? = some cell :=
        ⟨_, List.getElem?_eq_getElem hlt⟩
      have hstep : c.step (.use id .copy) =
          { session := (c.session.add { cell with query := cell.query.withPrincipal none }).1
            lives := c.lives ++ [life.copied (cell.query.isReceived .balance)] } := by
        simp [step, livesAfter, Use.apply, Session.copy_of_cell hcell, hlife,
          Session.get?_of_cell hcell]
      rw [hstep]
      refine h.add (fun home hsource => h.tied id cell home hcell hsource) fun hlate => ?_
      obtain ⟨hearly, htaken⟩ : life.isLate = false ∧ cell.query.isReceived .balance = false := by
        simpa [Life.copied] using hlate
      have hnone : cell.query.progress = none := by
        simpa [Query.isReceived] using htaken
      have hown := h.cell_of_unread hlife hearly hcell hnone
      subst hown
      have hquery : (life.copied (life.query.isReceived .balance)).query =
          life.query.withPrincipal none :=
        Query.foldl_after_impersonal life.uses hnone
      rw [hquery]

theorem livesAfter_of_ne_copy (c : Course) (id : Nat) {use : Use} (hne : use ≠ .copy) :
    c.livesAfter id use = c.lives.modify id fun life => { life with uses := life.uses ++ [use] } := by
  cases use with
  | copy => exact absurd rfl hne
  | _ => rfl

theorem Faithful.use (h : c.Faithful) (id : Nat) {use : Use} (hne : use ≠ .copy) :
    (c.step (.use id use)).Faithful := by
  have hlives : (c.step (.use id use)).lives =
      c.lives.modify id fun life => { life with uses := life.uses ++ [use] } :=
    livesAfter_of_ne_copy c id hne
  refine ⟨?_, h.tied.apply id use, ?_⟩
  · rw [hlives, List.length_modify, h.length_eq]
    exact (c.session.length_apply id hne).symm
  · intro other life hlife hlate
    rw [hlives, List.getElem?_modify] at hlife
    split at hlife
    · rename_i hid
      subst hid
      obtain ⟨before, hbefore, rfl⟩ := Option.map_eq_some_iff.mp hlife
      have hquery : Life.query { before with uses := before.uses ++ [use] } =
          before.query.after use := by
        simp [Life.query]
      rw [hquery]
      exact (h.owns id before hbefore hlate).apply use
    · rename_i hid
      rw [id_map'] at hlife
      exact (h.owns other life hlife hlate).apply_other use hid

theorem Faithful.step (h : c.Faithful) (step : Session.Step) : (c.step step).Faithful := by
  cases step with
  | start compiler => exact h.start compiler
  | use id use =>
      by_cases hcopy : use = .copy
      · subst hcopy
        exact h.copy id
      · exact h.use id hcopy

theorem faithful_run (steps : List Session.Step) : (run steps).Faithful := by
  have hrun : ∀ (steps : List Session.Step) (c : Course), c.Faithful →
      (steps.foldl Course.step c).Faithful := by
    intro steps
    induction steps with
    | nil => exact fun _ h => h
    | cons step rest ih => exact fun c h => ih _ (h.step step)
  refine hrun steps {} ⟨rfl, ?_, ?_⟩
  · intro id cell home hcell
    cases hcell
  · intro id life hlife
    cases hlife

/-- A query whose copies were all made in time is ended as it would be alone, after what was done with
it: by itself since it was made or copied, and by the queries it comes from but for their principals.
The scope of its ledger is its own principal's. And every query, late or not, is ended as the one that
took its query object. -/
theorem finish_eq_ended (steps : List Session.Step) {id : Nat} {life : Life}
    (h : (run steps).lives[id]? = some life) :
    let s := (run steps).session
    (life.isLate = false →
      (s.finish id).result = life.ended ∧
      ∀ (p : Pipeline) (ledger : Ledger) (owner : String), (s.finish id).result = .ok p →
        life.compiler.ledger = some ledger → life.compiler.settings.isEnabled .balance = true →
        life.compiler.settings.ownerField = .text owner → owner ≠ "" → owner ≠ ledger.account →
        ∃ scope rest, p.stages = Query.ledgerStages ledger scope ++ rest ∧
          get? scope owner = life.principal.map (·.id)) ∧
    (s.finish id).result = (s.finish (s.home id)).result := by
  intro s
  have hfaithful := faithful_run steps
  refine ⟨fun hlate => ?_, hfaithful.tied.finish_home id⟩
  have hfinish : (s.finish id).result = life.query.ended := (hfaithful.owns id life h hlate).finish.1
  refine ⟨hfinish.trans life.ended_eq.symm, ?_⟩
  intro p ledger owner hp hledger henabled howner hne hapart
  have hcompiler : life.query.compiler = life.compiler := Query.compiler_foldl_after life.uses _
  have hactive : life.query.activeLedger = some ledger := by
    rw [Query.activeLedger, hcompiler, henabled, hledger]
    rfl
  rw [← life.principal_eq]
  exact Query.get?_scope_ended (hfinish.symm.trans hp) hactive (hcompiler ▸ howner) hne hapart

/-- A query for Ann is copied for Bob before either of them asks: Bob's is about his own documents. -/
theorem early_copy_of_ann :
    let ann : Principal := { id := .text "ann" }
    let bob : Principal := { id := .text "bob" }
    let steps : List Session.Step := [.start .usualLedger, .use 0 (.setPrincipal (some ann)),
      .use 0 .copy, .use 0 (.take []), .use 1 (.setPrincipal (some bob)), .use 1 (.take [])]
    ∃ life p, (run steps).lives[1]? = some life ∧ life.isLate = false ∧
      ((run steps).session.finish 1).result = .ok p ∧ life.ended = .ok p ∧
      ∃ scope rest, p.stages = Query.ledgerStages {} scope ++ rest ∧
        get? scope "userId" = some (.text "bob") := by
  intro ann bob steps
  let life : Life :=
    { compiler := .usualLedger, uses := [.setPrincipal (some bob), .take []] }
  have hlife : (run steps).lives[1]? = some life := rfl
  obtain ⟨hended, hscope⟩ := (finish_eq_ended steps hlife).1 rfl
  obtain ⟨p, hp⟩ : ∃ p, ((run steps).session.finish 1).result = .ok p := by
    rw [hended]
    exact ⟨_, by with_unfolding_all rfl⟩
  exact ⟨life, p, hlife, rfl, hp, hended ▸ hp,
    hscope p {} "userId" hp rfl rfl rfl (by decide) (by decide)⟩

/-- Ann's ledger is asked for, and the query is copied for Bob: the copy gives him Ann's documents, where
a query of his own with the same query object gives him his. -/
theorem late_copy_of_ann :
    let ann : Principal := { id := .text "ann" }
    let bob : Principal := { id := .text "bob" }
    let steps : List Session.Step := [.start .usualLedger, .use 0 (.setPrincipal (some ann)),
      .use 0 (.take []), .use 0 .copy, .use 1 (.setPrincipal (some bob))]
    ∃ life p own, (run steps).lives[1]? = some life ∧ life.principal = some bob ∧
      ((run steps).session.finish 1).result = .ok p ∧ life.ended = .ok own ∧
      p.stages.head? = some (.keep [("userId", .text "ann")]) ∧
      own.stages.head? = some (.keep [("userId", .text "bob")]) := by
  intro ann bob steps
  let spec : SortSpec := [(.text "_id", .descending)]
  let pipelineOf (scope : Document) : Pipeline :=
    { stages := .keep scope :: (Ledger.stages {} ++ [.keep [], .sort spec]), filter := [], sort := spec
      skip := none, limit := none, countFilter := scope }
  let life : Life :=
    { compiler := .usualLedger, uses := [.take [], .setPrincipal (some bob)], isLate := true }
  refine ⟨life, pipelineOf [("userId", .text "ann")], pipelineOf [("userId", .text "bob")], ?_, rfl, ?_,
    ?_, rfl, rfl⟩
  · with_unfolding_all rfl
  · with_unfolding_all rfl
  · with_unfolding_all rfl

end Course

end QueryPipeline
