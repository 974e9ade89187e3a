import Mathlib.Data.List.Forall2
import QueryPipeline.Proofs.Runs

/-!
Callers that share a desk. Whatever they ask for, in whatever order, and whenever they end the queries
they were given: each of them gets what a new query, made for this caller alone, would give.
-/

namespace QueryPipeline

namespace Session

variable {s t : Session} {id other : Nat} {cell : Cell}

theorem query_alike (hs : s.cells[id]? = some cell) (ht : t.cells[other]? = some cell)
    (object : Document) :
    (s.query id object).result = (t.query other object).result ∧
      (s.query id object).log = (t.query other object).log := by
  refine ⟨(query_result hs object).trans (query_result ht object).symm, ?_⟩
  cases hk : cell.query.checkKeys object with
  | error fault => rw [query_error hs hk, query_error ht hk]
  | ok warnings => rw [query_ok hs hk, query_ok ht hk]

end Session

namespace Crud.Desk

variable {config : Config} {d d' d'' : Desk}

/-! ## What callers do -/

/-- What a caller asks for: a query on the collection of this name. -/
structure Enquiry where
  collection : String
  queryObject : Value
  principal : Option Principal

/-- What callers do, one after another: they ask for a query, or end the one that the enquiry of this
number came to. -/
inductive Move where
  | ask (e : Enquiry)
  | finish (number : Nat)

/-- What a move comes to, with the lines that it logs. -/
inductive Answer where
  | asked (log : List LogEntry) (result : Except Fault Unit)
  | ended (log : List LogEntry) (result : Except Fault Pipeline)
  | noQuery

/-- A desk, and the query that each enquiry came to, if it was not refused. -/
structure Callers where
  desk : Desk
  given : List (Option Nat) := []

/-- The lines that were logged after an earlier state of the desk. -/
def loggedSince (d before : Desk) : List LogEntry :=
  d.log.drop before.log.length

/-- What a move comes to at the desk, and the desk with its callers after it. -/
def Callers.step (c : Callers) : Move → Answer × Callers
  | .ask e =>
    let (result, desk) := c.desk.act (query (.text e.collection) e.queryObject e.principal)
    (.asked (desk.loggedSince c.desk) (result.map fun _ => ()),
      { desk, given := c.given ++ [result.toOption] })
  | .finish number =>
    match c.given[number]?.join with
    | some id =>
      let (result, desk) := c.desk.act (onSession (·.finish id))
      (.ended (desk.loggedSince c.desk) result, { c with desk })
    | none => (.noQuery, c)

/-- A new query, made for this enquiry alone, takes its query object. -/
def Enquiry.alone (config : Config) (e : Enquiry) : Outcome Session Unit :=
  match objectOf? e.queryObject with
  | none => { state := {}, result := .error (.invalid .queryNotObject) }
  | some object =>
    match config.compilerFor (.text e.collection) with
    | .error fault => { state := {}, result := .error fault }
    | .ok compiler =>
      let (s, id) := Session.start {} compiler
      (s.setPrincipal id e.principal).query id object

/-- What an enquiry comes to when its own query is ended. -/
def Enquiry.finished (config : Config) (e : Enquiry) : Answer :=
  match (e.alone config).result with
  | .ok () =>
    let outcome := (e.alone config).state.finish 0
    .ended outcome.log outcome.result
  | .error _ => .noQuery

/-- A move where every enquiry has a query of its own. -/
def Enquiry.step (config : Config) (asked : List Enquiry) : Move → Answer × List Enquiry
  | .ask e => (.asked (e.alone config).log (e.alone config).result, asked ++ [e])
  | .finish number => ((asked[number]?.map (·.finished config)).getD .noQuery, asked)

/-- The answers to moves, one after another. -/
def answers {σ : Type} (step : σ → Move → Answer × σ) : σ → List Move → List Answer
  | _, [] => []
  | s, move :: rest => (step s move).1 :: answers step (step s move).2 rest

/-! ## An enquiry at the desk -/

/-- The queries in the hands of callers stay there, and stay as they are. -/
def Spares (d d' : Desk) : Prop :=
  ∀ id cell, Held d id → d.session.cells[id]? = some cell →
    Held d' id ∧ d'.session.cells[id]? = some cell

theorem Spares.refl (d : Desk) : Spares d d :=
  fun _ _ held hcell => ⟨held, hcell⟩

theorem Spares.trans (h : Spares d d') (h' : Spares d' d'') : Spares d d'' := by
  intro id cell held hcell
  obtain ⟨held', hcell'⟩ := h id cell held hcell
  exact h' id cell held' hcell'

theorem Sound.act_compilerFor (h : Sound config d) (name : String) :
    match config.compilerFor (.text name) with
    | .error fault => d.act (compilerFor (.text name)) = (.error fault, d)
    | .ok compiler => ∃ kept d', d.act (compilerFor (.text name)) = (.ok kept, d') ∧ Spares d d' ∧
        d'.log = d.log ∧ d'.session.cells[kept]? = some { query := { compiler } } := by
  have hact : d.act (compilerFor (.text name)) =
      match Entries.get? d.compilers name with
      | some id => (.ok id, d)
      | none => d.act (keepCompiler (.text name)) := by
    have hkey : (Value.text name).isKey = true := rfl
    rw [compilerFor, if_pos hkey, act_bind, act_get]
    simp only [kept?]
    cases Entries.get? d.compilers name <;> rfl
  rw [hact]
  cases hkept : Entries.get? d.compilers name with
  | some id =>
      obtain ⟨compiler, hmake, hcell⟩ := h.kept hkept
      rw [hmake]
      exact ⟨id, d, rfl, Spares.refl d, rfl, hcell⟩
  | none =>
      simp only [act_keepCompiler, h.config_eq]
      cases config.compilerFor (.text name) with
      | error fault => rfl
      | ok compiler =>
          refine ⟨_, _, rfl, ?_, rfl, Session.cells_add_self _ _⟩
          intro id cell held hcell
          refine ⟨fun other hget => ?_, Session.cells_add _ _ hcell⟩
          rw [Entries.get?_put] at hget
          split at hget
          -- The new query has a number that no query had.
          · cases hget
            rw [Session.start, Session.add, List.getElem?_eq_none (Nat.le_refl _)] at hcell
            cases hcell
          · exact held other hget

/-- What an enquiry came to at a desk, and what it comes to alone: both refuse it, or both have a
query that took the query object. -/
inductive Matches (config : Config) (d : Desk) : Option Nat → Enquiry → Prop where
  | refused {e : Enquiry} {fault : Fault} : (e.alone config).result = .error fault →
      Matches config d none e
  | given {e : Enquiry} {id : Nat} (q : Query) : (e.alone config).result = .ok () →
      q.isReceived .filter = true → Held d id →
      d.session.cells[id]? = some { query := q, source := some id } →
      (e.alone config).state.cells[0]? = some { query := q, source := some 0 } →
      Matches config d (some id) e

theorem Matches.spared {id? : Option Nat} {e : Enquiry} (hspares : Spares d d')
    (h : Matches config d id? e) : Matches config d' id? e := by
  cases h with
  | refused hfault => exact .refused hfault
  | given q hok hr held hcell halone =>
      obtain ⟨held', hcell'⟩ := hspares _ _ held hcell
      exact .given q hok hr held' hcell' halone

theorem Sound.copy_query (h : Sound config d) {compiler : Compiler} {kept : Nat}
    (hcell : d.session.cells[kept]? = some { query := { compiler } }) (principal : Option Principal)
    (object : Document) :
    let id := (d.session.copy kept).2
    let asked := (d.session.copy kept).1.setPrincipal id principal
    asked.cells[id]? = some { query := { compiler, principal } } ∧ Held d id ∧
      Spares d { d with
        session := (asked.query id object).state, log := d.log ++ (asked.query id object).log } := by
  intro id asked
  have hid : id = d.session.cells.length := by
    simp only [id, Session.copy_of_cell hcell]
    rfl
  refine ⟨?_, h.held_copy hcell, fun other cell held hother => ⟨held, ?_⟩⟩
  · have hcopy : (d.session.copy kept).1.cells[id]? = some { query := { compiler } } := by
      simp only [id, Session.copy_of_cell hcell]
      exact Session.cells_add_self _ _
    exact Session.cells_revise_self _ hcopy
  · have hne : id ≠ other := by
      rintro rfl
      rw [hid, List.getElem?_eq_none (Nat.le_refl _)] at hother
      cases hother
    have hcopy := Session.copy_other d.session kept hother
    rw [Session.query_other object hne]
    exact (Session.revise_other _ hne).trans hcopy

theorem Matches.taken {e : Enquiry} {s t : Session} {id : Nat} {q : Query} {object : Document}
    (hs : s.cells[id]? = some { query := q }) (ht : t.cells[0]? = some { query := q })
    (hq : q.progress = none) (halone : e.alone config = t.query 0 object)
    (hd : d.session = (s.query id object).state) (held : Held d id) :
    Matches config d ((s.query id object).result.map fun _ => id).toOption e := by
  have hresult := (Session.query_alike hs ht object).1
  cases htaken : (s.query id object).result with
  | error fault => exact .refused (by rw [halone, ← hresult, htaken])
  | ok done =>
      have halone' : (t.query 0 object).result = .ok () := hresult.symm.trans htaken
      obtain ⟨hcell, hr⟩ := Session.query_taken hs hq htaken
      obtain ⟨hcell', -⟩ := Session.query_taken ht hq halone'
      exact .given _ (halone ▸ halone') hr held (hd ▸ hcell) (halone ▸ hcell')

/-- An enquiry at a sound desk comes to what it comes to alone. -/
theorem Sound.ask (h : Sound config d) (e : Enquiry) {result : Except Fault Nat}
    (hact : d.act (query (.text e.collection) e.queryObject e.principal) = (result, d')) :
    Spares d d' ∧ d'.log = d.log ++ (e.alone config).log ∧
      result.map (fun _ => ()) = (e.alone config).result ∧
      Matches config d' result.toOption e := by
  -- What is refused before there is a query leaves the desk as it was.
  have hrefused : ∀ fault, (result, d') = (.error fault, d) →
      e.alone config = { state := {}, result := .error fault } →
      Spares d d' ∧ d'.log = d.log ++ (e.alone config).log ∧
        result.map (fun _ => ()) = (e.alone config).result ∧
        Matches config d' result.toOption e := by
    rintro fault ⟨⟩ halone
    rw [halone]
    exact ⟨Spares.refl d, (List.append_nil _).symm, rfl, .refused (congrArg Outcome.result halone)⟩
  rw [query_eq] at hact
  cases hobject : objectOf? e.queryObject with
  | none =>
      rw [hobject] at hact
      exact hrefused _ hact.symm (by rw [Enquiry.alone, hobject])
  | some object =>
      rw [hobject] at hact
      have hcompiler := h.act_compilerFor e.collection
      cases hmake : config.compilerFor (.text e.collection) with
      | error fault =>
          rw [hmake] at hcompiler
          refine hrefused fault ?_ (by rw [Enquiry.alone, hobject, hmake])
          simp only [queryWith, act_bind, hcompiler] at hact
          exact hact.symm
      | ok compiler =>
          rw [hmake] at hcompiler
          obtain ⟨kept, found, hfound, hspares, hlog, hkept⟩ := hcompiler
          have hsound := (keeps_compilerFor (.text e.collection)).sound h trivial hfound
          obtain ⟨hcell, held, hcopied⟩ := hsound.copy_query hkept e.principal object
          have halone : e.alone config =
              ((Session.start {} compiler).1.setPrincipal 0 e.principal).query 0 object := by
            rw [Enquiry.alone, hobject, hmake]
            rfl
          have hcell' : ((Session.start {} compiler).1.setPrincipal 0 e.principal).cells[0]? =
              some { query := { compiler, principal := e.principal } } := rfl
          obtain ⟨hresult, hlogs⟩ := Session.query_alike hcell hcell' object
          simp only [act_queryWith hfound] at hact
          cases hact
          refine ⟨hspares.trans hcopied, ?_, ?_, .taken hcell hcell' rfl halone rfl held⟩
          · rw [halone, ← hlogs, ← hlog]
          · rw [halone, ← hresult]
            cases Outcome.result _ <;> rfl

/-! ## Any moves -/

/-- Each enquiry has come to a query at the desk that is like the one of its own, or to none in both
places. -/
structure Mirrors (config : Config) (c : Callers) (asked : List Enquiry) : Prop where
  sound : Sound config c.desk
  given : List.Forall₂ (Matches config c.desk) c.given asked

theorem Mirrors.lookup {c : Callers} {asked : List Enquiry} (h : Mirrors config c asked)
    (number : Nat) :
    c.given[number]? = none ∧ asked[number]? = none ∨
      ∃ id? e, c.given[number]? = some id? ∧ asked[number]? = some e ∧
        Matches config c.desk id? e := by
  have hlength := h.given.length_eq
  rcases Nat.lt_or_ge number c.given.length with hlt | hge
  · have hlt' : number < asked.length := hlength ▸ hlt
    exact .inr ⟨c.given[number], asked[number], List.getElem?_eq_getElem hlt,
      List.getElem?_eq_getElem hlt', h.given.get hlt hlt'⟩
  · exact .inl ⟨List.getElem?_eq_none hge, List.getElem?_eq_none (hlength ▸ hge)⟩

theorem Mirrors.finish {c : Callers} {asked : List Enquiry} (h : Mirrors config c asked)
    (number : Nat) :
    (c.step (.finish number)).1 = (Enquiry.step config asked (.finish number)).1 ∧
      (c.step (.finish number)).2 = c := by
  unfold Callers.step Enquiry.step
  rcases h.lookup number with ⟨hgiven, hasked⟩ | ⟨id?, e, hgiven, hasked, hmatches⟩
  · simp [hgiven, hasked]
  · simp only [hgiven, hasked]
    cases hmatches with
    | refused hfault => simp [Enquiry.finished, hfault]
    | given q hok hr held hcell halone =>
        simp [Enquiry.finished, hok, act_onSession, Session.finish_of_received hcell hr,
          Session.finish_of_received halone hr, loggedSince]

theorem Mirrors.step {c : Callers} {asked : List Enquiry} (h : Mirrors config c asked) (move : Move) :
    (c.step move).1 = (Enquiry.step config asked move).1 ∧
      Mirrors config (c.step move).2 (Enquiry.step config asked move).2 := by
  cases move with
  | ask e =>
      rcases hact : c.desk.act (query (.text e.collection) e.queryObject e.principal)
        with ⟨result, desk⟩
      obtain ⟨hspares, hlog, hresult, hmatches⟩ := h.sound.ask e hact
      have hsound := (keeps_query (.text e.collection) e.queryObject e.principal).sound h.sound
        trivial hact
      have hgiven : List.Forall₂ (Matches config desk) c.given asked :=
        h.given.imp fun _ _ => Matches.spared hspares
      simp only [Callers.step, Enquiry.step, hact, hresult, loggedSince, hlog, List.drop_left]
      exact ⟨trivial, hsound, List.rel_append hgiven (.cons hmatches .nil)⟩
  | finish number =>
      obtain ⟨hanswer, hsame⟩ := h.finish number
      refine ⟨hanswer, ?_⟩
      rw [hsame]
      exact h

theorem Mirrors.answers {c : Callers} {asked : List Enquiry} (h : Mirrors config c asked)
    (moves : List Move) :
    answers Callers.step c moves = answers (Enquiry.step config) asked moves ∧
      Sound config (moves.foldl (fun c move => (c.step move).2) c).desk := by
  induction moves generalizing c asked with
  | nil => exact ⟨rfl, h.sound⟩
  | cons move rest ih =>
      obtain ⟨hanswer, hnext⟩ := h.step move
      obtain ⟨hrest, hsound⟩ := ih hnext
      exact ⟨congrArg₂ List.cons hanswer hrest, hsound⟩

/-- Whatever callers do at a desk, each enquiry is answered, and each query is ended, as if it were
alone; and the compilers that the desk keeps are as they were made. -/
theorem answers_eq_alone (config : Config) (clock : Clock) (issued : Nat) (moves : List Move) :
    let opened : Callers := { desk := { config, clock, issued } }
    answers Callers.step opened moves = answers (Enquiry.step config) [] moves ∧
      Sound config (moves.foldl (fun c move => (c.step move).2) opened).desk :=
  Mirrors.answers ⟨(Reached.opened clock issued).sound, .nil⟩ moves

end Crud.Desk

end QueryPipeline
