import QueryPipeline.Proofs.Compilation
import QueryPipeline.Proofs.Steps

/-!
The desk keeps one compiler for a collection, and all queries on the collection are copies of it:
whatever has happened at the desk, a query is compiled as a new one would be.
-/

namespace QueryPipeline

namespace Session

variable {s : Session} {id other : Nat} {cell : Cell}

/-! ## What a step on one query leaves to the others -/

theorem revise_other (f : Query → Query) (h : id ≠ other) :
    (s.revise id f).cells[other]? = s.cells[other]? := by
  rw [revise, cells_modify, if_neg h]

theorem query_other (object : Document) (h : id ≠ other) :
    (s.query id object).state.cells[other]? = s.cells[other]? := by
  unfold query
  split
  · rfl
  · split
    · rfl
    · rw [cells_modify, if_neg h]

theorem finish_other (h : id ≠ other) : (s.finish id).state.cells[other]? = s.cells[other]? := by
  unfold finish
  split
  · rfl
  · simp only
    split <;> exact query_other [] h

theorem cells_add (s : Session) (cell : Cell) {other : Nat} {kept : Cell}
    (h : s.cells[other]? = some kept) : (s.add cell).1.cells[other]? = some kept := by
  obtain ⟨hlt, _⟩ := List.getElem?_eq_some_iff.mp h
  rw [add, List.getElem?_append_left hlt]
  exact h

theorem cells_add_self (s : Session) (cell : Cell) :
    (s.add cell).1.cells[(s.add cell).2]? = some cell := by
  simp [add]

theorem copy_other (s : Session) (id : Nat) {other : Nat} {kept : Cell}
    (h : s.cells[other]? = some kept) : (s.copy id).1.cells[other]? = some kept := by
  unfold copy
  split
  · exact cells_add s _ h
  · exact h

theorem copy_of_cell (h : s.cells[id]? = some cell) :
    s.copy id = s.add { cell with query := cell.query.withPrincipal none } := by
  simp [copy, h]

theorem cells_revise_self (f : Query → Query) (h : s.cells[id]? = some cell) :
    (s.revise id f).cells[id]? = some { cell with query := f cell.query } := by
  rw [revise, cells_modify, if_pos rfl, h]; rfl

end Session

namespace Crud

namespace Desk

variable {α β : Type} {config : Config} {d : Desk}

/-! ## The compilers that are kept -/

/-- A desk with this configuration whose kept compilers are those that the configuration makes, and
have never taken a query object. -/
structure Sound (config : Config) (d : Desk) : Prop where
  config_eq : d.config = config
  kept : ∀ {name id}, Entries.get? d.compilers name = some id →
    ∃ compiler, config.compilerFor (.text name) = .ok compiler ∧
      d.session.cells[id]? = some { query := { compiler } }

/-- A query that is not one of those that are kept. -/
def Held (d : Desk) (id : Nat) : Prop :=
  ∀ name, Entries.get? d.compilers name ≠ some id

/-- Any step on the session will do that leaves alone what is kept. -/
theorem Sound.of_session (h : Sound config d) {d' : Desk} (hc : d'.config = d.config)
    (hk : d'.compilers = d.compilers)
    (hs : ∀ {id cell}, ¬ Held d id → d.session.cells[id]? = some cell →
      d'.session.cells[id]? = some cell) : Sound config d' := by
  refine ⟨hc.trans h.config_eq, fun {name id} hget => ?_⟩
  rw [hk] at hget
  obtain ⟨compiler, hmake, hcell⟩ := h.kept hget
  exact ⟨compiler, hmake, hs (fun held => held name hget) hcell⟩

/-- At a sound desk where `before` holds, the action leaves a sound desk in any case, and when it
comes to something, `after` holds. -/
def Keeps (config : Config) (before : Desk → Prop) (a : Action α) (after : α → Desk → Prop) : Prop :=
  ∀ d, Sound config d → before d →
    Sound config (d.act a).2 ∧ ∀ x, (d.act a).1 = .ok x → after x (d.act a).2

variable {before : Desk → Prop} {after : α → Desk → Prop}

theorem Keeps.sound {a : Action α} (ha : Keeps config before a after) (hd : Sound config d)
    (hbefore : before d) {result : Except Fault α} {d' : Desk} (hact : d.act a = (result, d')) :
    Sound config d' := by
  have h := (ha d hd hbefore).1
  rwa [hact] at h

theorem Keeps.bind {a : Action α} {f : α → Action β} {final : β → Desk → Prop}
    (ha : Keeps config before a after) (hf : ∀ x, Keeps config (after x) (f x) final) :
    Keeps config before (a >>= f) final := by
  intro d hd hbefore
  have h := ha d hd hbefore
  rw [act_bind]
  rcases hact : d.act a with ⟨result, d'⟩
  rw [hact] at h
  cases result with
  | error fault => exact ⟨h.1, fun _ hx => nomatch hx⟩
  | ok x => exact hf x d' h.1 (h.2 x rfl)

theorem Keeps.pure {x : α} (h : ∀ d, before d → after x d) :
    Keeps config before (pure x : Action α) after :=
  fun d hd hbefore => ⟨hd, fun _ hx => Except.ok.inj hx ▸ h d hbefore⟩

theorem Keeps.throw (fault : Fault) : Keeps config before (throw fault : Action α) after :=
  fun _ hd _ => ⟨hd, fun _ hx => nomatch hx⟩

theorem Keeps.get : Keeps config before (get : Action Desk) fun x d =>
    x = d ∧ Sound config x ∧ before x := by
  intro d hd hbefore
  refine ⟨hd, fun x hx => ?_⟩
  cases hx
  exact ⟨rfl, hd, hbefore⟩

theorem Keeps.modify {f : Desk → Desk} (after : Desk → Prop)
    (h : ∀ d, Sound config d → before d → Sound config (f d) ∧ after (f d)) :
    Keeps config before (modify f : Action Unit) fun _ => after :=
  fun d hd hbefore => ⟨(h d hd hbefore).1, fun _ _ => (h d hd hbefore).2⟩

theorem Idle.keeps {a : Action α} (h : Idle a) : Keeps config before a fun _ _ => True := by
  intro d hd _
  obtain ⟨hc, hs, hk⟩ := h d
  refine ⟨hd.of_session hc hk fun _ hcell => ?_, fun _ _ => trivial⟩
  rw [hs]; exact hcell

/-- A query that has taken nothing, with the compiler that the configuration makes for a collection. -/
def Serves (config : Config) (collection : Value) (id : Nat) (d : Desk) : Prop :=
  ∃ compiler, config.compilerFor collection = .ok compiler ∧
    d.session.cells[id]? = some { query := { compiler } }

theorem collectionName_eq_ok {collection : Value} {name : String}
    (h : collectionName collection = .ok name) : collection = .text name := by
  unfold collectionName at h
  split at h
  · split at h
    · cases h; rfl
    · cases h
  · cases h

theorem Sound.put {name : String} {compiler : Compiler} (h : Sound config d)
    (hmake : config.compilerFor (.text name) = .ok compiler) :
    Sound config { d with
      session := (d.session.start compiler).1
      compilers := Entries.put d.compilers name (d.session.start compiler).2 } := by
  refine ⟨h.config_eq, fun {other id} hget => ?_⟩
  rw [Entries.get?_put] at hget
  split at hget
  · rename_i hsame
    subst hsame; cases hget
    exact ⟨compiler, hmake, Session.cells_add_self _ _⟩
  · obtain ⟨kept, hkept, hcell⟩ := h.kept hget
    exact ⟨kept, hkept, Session.cells_add _ _ hcell⟩

theorem act_keepCompiler (d : Desk) (name : String) :
    d.act (keepCompiler (.text name)) =
      match d.config.compilerFor (.text name) with
      | .ok compiler => (.ok (d.session.start compiler).2,
          { d with
            session := (d.session.start compiler).1
            compilers := Entries.put d.compilers name (d.session.start compiler).2 })
      | .error fault => (.error fault, d) := by
  unfold keepCompiler Config.compilerFor
  simp only [act_bind, act_result, act_get]
  cases hname : collectionName (.text name) with
  | error fault => rfl
  | ok found =>
      obtain rfl : name = found := Value.text.inj (collectionName_eq_ok hname)
      cases hgiven : d.config.settingsOf (.text name) with
      | error fault => simp [hgiven, bind, Except.bind]
      | ok given =>
          cases hmake : Compiler.make (.text name) given <;>
            simp [hgiven, hmake, bind, Except.bind]

theorem keeps_keepCompiler (collection : Value) :
    Keeps config (fun _ => True) (keepCompiler collection) (Serves config collection) := by
  intro d hd _
  obtain rfl := hd.config_eq
  cases collection with
  | text name =>
      rw [act_keepCompiler]
      cases hmake : d.config.compilerFor (.text name) with
      | error fault => exact ⟨hd, fun _ h => nomatch h⟩
      | ok compiler =>
          refine ⟨hd.put hmake, fun id hid => ?_⟩
          cases hid
          exact ⟨compiler, hmake, Session.cells_add_self _ _⟩
  | _ => exact ⟨hd, fun _ h => nomatch h⟩

theorem keeps_compilerFor (collection : Value) :
    Keeps config (fun _ => True) (compilerFor collection) (Serves config collection) := by
  unfold compilerFor
  split
  · apply Keeps.bind Keeps.get
    intro d
    split
    · rename_i id hkept
      refine Keeps.pure ?_
      rintro _ ⟨rfl, hd, -⟩
      cases collection with
      | text name => exact hd.kept hkept
      | _ => cases hkept
    · exact fun d' hd' _ => keeps_keepCompiler collection d' hd' trivial
  · exact Keeps.throw _

theorem act_onSession (d : Desk) (step : Session → Outcome Session α) :
    d.act (onSession step) = ((step d.session).result,
      { d with session := (step d.session).state, log := d.log ++ (step d.session).log }) :=
  rfl

theorem Sound.onSession (h : Sound config d) {step : Session → Outcome Session α}
    (hs : ∀ {id cell}, ¬ Held d id → d.session.cells[id]? = some cell →
      (step d.session).state.cells[id]? = some cell) : Sound config (d.act (onSession step)).2 :=
  h.of_session rfl rfl hs

theorem Held.ne {id other : Nat} (h : Held d id) (hother : ¬ Held d other) : id ≠ other := by
  rintro rfl
  exact hother h

/-- A copy of a kept query is none of those that are kept. -/
theorem Sound.held_copy (h : Sound config d) {kept : Nat} {cell : Cell}
    (hcell : d.session.cells[kept]? = some cell) : Held d (d.session.copy kept).2 := by
  intro name hget
  obtain ⟨_, -, hlast⟩ := h.kept hget
  rw [Session.copy_of_cell hcell, Session.add, List.getElem?_eq_none (Nat.le_refl _)] at hlast
  cases hlast

/-- The query object that a value is. -/
def objectOf? : Value → Option Document
  | .null => some []
  | .object entries => some entries
  | _ => none

/-- A query on a collection that takes this query object. -/
def queryWith (collection : Value) (object : Document) (principal : Option Principal) :
    Action Nat := do
  let kept ← compilerFor collection
  let (session, id) := (← get).session.copy kept
  modify fun d => { d with session := session.setPrincipal id principal }
  onSession (·.query id object)
  return id

theorem query_eq (collection queryObject : Value) (principal : Option Principal) :
    query collection queryObject principal =
      match objectOf? queryObject with
      | some object => queryWith collection object principal
      | none => refuse .queryNotObject := by
  cases queryObject <;> rfl

theorem act_queryWith {collection : Value} {kept : Nat} {d' : Desk}
    (h : d.act (compilerFor collection) = (.ok kept, d')) (object : Document)
    (principal : Option Principal) :
    d.act (queryWith collection object principal) =
      let copied := d'.session.copy kept
      let taken := (copied.1.setPrincipal copied.2 principal).query copied.2 object
      (taken.result.map fun _ => copied.2,
        { d' with session := taken.state, log := d'.log ++ taken.log }) := by
  unfold queryWith
  simp only [act_bind, h, act_get, act_modify, act_onSession]
  cases Outcome.result _ <;> rfl

/-- A query in the hands of its caller: ended, it is what a new query would make of the query
object. -/
def Taken (config : Config) (collection : Value) (object : Document) (principal : Option Principal)
    (id : Nat) (d : Desk) : Prop :=
  Held d id ∧ ∃ compiler, config.compilerFor collection = .ok compiler ∧
    (d.session.finish id).result = compiler.compile principal object

/-- A query in the hands of its caller, before it takes a query object. -/
def Asked (config : Config) (collection : Value) (principal : Option Principal) (id : Nat)
    (d : Desk) : Prop :=
  Held d id ∧ ∃ compiler, config.compilerFor collection = .ok compiler ∧
    d.session.cells[id]? = some { query := { compiler, principal } }

theorem keeps_take (collection : Value) (object : Document) (principal : Option Principal) (id : Nat) :
    Keeps config (Asked config collection principal id) (onSession (·.query id object))
      fun _ => Taken config collection object principal id := by
  rintro d hd ⟨hheld, compiler, hmake, hcell⟩
  refine ⟨hd.onSession fun hother hkept => (Session.query_other _ (hheld.ne hother)).trans hkept,
    fun _ hresult => ⟨hheld, compiler, hmake, ?_⟩⟩
  have htaken : (d.session.query id object).result = .ok () := hresult
  have hfinish := Session.query_finish hcell rfl object
  rw [htaken] at hfinish
  exact hfinish.trans (compiler.compile_eq principal object).symm

theorem keeps_queryWith (collection : Value) (object : Document) (principal : Option Principal) :
    Keeps config (fun _ => True) (queryWith collection object principal)
      (Taken config collection object principal) := by
  unfold queryWith
  apply Keeps.bind (keeps_compilerFor collection)
  intro kept
  apply Keeps.bind Keeps.get
  intro d
  dsimp only
  generalize hid : (d.session.copy kept).2 = id
  refine Keeps.bind (Keeps.modify (Asked config collection principal id) ?_) fun _ => ?_
  · rintro _ hd ⟨rfl, -, compiler, hmake, hcell⟩
    have hheld : Held d id := hid ▸ hd.held_copy hcell
    refine ⟨hd.of_session rfl rfl fun {other cell} hother hkept => ?_, hheld, compiler, hmake, ?_⟩
    · have hcopy := Session.copy_other d.session kept hkept
      exact (Session.revise_other _ (hheld.ne hother)).trans hcopy
    · rw [Session.copy_of_cell hcell] at hid ⊢
      subst hid
      exact Session.cells_revise_self _ (Session.cells_add_self _ _)
  · apply Keeps.bind (keeps_take collection object principal id)
    intro _
    exact Keeps.pure fun _ h => h

theorem keeps_listed (around : Surroundings) (collection : Value) (object : Document) :
    Keeps config (fun _ => True) (listed around collection (.object object)) fun _ _ => True := by
  unfold listed
  rw [query_eq]
  apply Keeps.bind (keeps_queryWith collection object around.principal)
  intro id
  refine Keeps.bind (Keeps.modify (fun d => Held d id) ?_) fun _ => ?_
  · rintro d hd ⟨hheld, -⟩
    refine ⟨hd.of_session rfl rfl fun hother hkept => ?_, hheld⟩
    exact (Session.revise_other _ (hheld.ne hother)).trans hkept
  have hfinish : Keeps config (fun d => Held d id) (onSession (·.finish id)) fun _ _ => True := by
    intro d hd hheld
    refine ⟨hd.onSession fun hother hkept => ?_, fun _ _ => trivial⟩
    exact (Session.finish_other (hheld.ne hother)).trans hkept
  apply Keeps.bind hfinish
  intro pipeline
  refine Idle.keeps ?_
  apply untouched.bind (idle_ask _ _)
  intro _
  apply untouched.bind (idle_ask _ _)
  intro _
  exact untouched.pure _

theorem keeps_list (around : Surroundings) (collection : Value) (text : Option String) :
    Keeps config (fun _ => True) (list around collection text) fun _ _ => True := by
  unfold list
  exact Keeps.bind (Idle.keeps (untouched.result _)) fun object => keeps_listed around collection object

theorem keeps_handle (around : Surroundings) (request : Request) :
    Keeps config (fun _ => True) (handle around request) fun _ _ => True := by
  unfold handle
  refine Keeps.bind (Keeps.modify (fun _ => True) ?_) fun _ => ?_
  · exact fun _ hd _ => ⟨hd.of_session rfl rfl fun _ hcell => hcell, trivial⟩
  by_cases h : ∃ collection text, request = .list collection text
  · obtain ⟨collection, text, rfl⟩ := h
    exact keeps_list around collection text
  · exact (idle_perform around fun collection text hlist => h ⟨collection, text, hlist⟩).keeps

/-! ## The desks that there can be -/

/-- What the holder of a query can do with it. -/
inductive Use where
  | setPrincipal (principal : Option Principal)
  | take (object : Document)
  | finish
  | copy

/-- The session after a use of a query. -/
def Use.apply (s : Session) (id : Nat) : Use → Session
  | .setPrincipal principal => s.setPrincipal id principal
  | .take object => (s.query id object).state
  | .finish => (s.finish id).state
  | .copy => (s.copy id).1

theorem Use.apply_other {s : Session} {id other : Nat} {cell : Cell} (use : Use) (h : id ≠ other)
    (hcell : s.cells[other]? = some cell) : (use.apply s id).cells[other]? = some cell := by
  cases use with
  | setPrincipal principal => exact (Session.revise_other _ h).trans hcell
  | take object => exact (Session.query_other object h).trans hcell
  | finish => exact (Session.finish_other h).trans hcell
  | copy => exact Session.copy_other s id hcell

/-- The desks that a configuration comes to, in any order of requests, of queries that callers ask
for, and of uses that they make of these. -/
inductive Reached (config : Config) : Desk → Prop where
  | opened (clock : Clock) (issued : Nat) : Reached config { config, clock, issued }
  | handled (d : Desk) (around : Surroundings) (request : Request) :
      Reached config d → Reached config (d.act (handle around request)).2
  | queried (d : Desk) (collection queryObject : Value) (principal : Option Principal) :
      Reached config d → Reached config (d.act (query collection queryObject principal)).2
  | used (d : Desk) (id : Nat) (use : Use) :
      Held d id → Reached config d → Reached config { d with session := use.apply d.session id }

theorem keeps_query (collection queryObject : Value) (principal : Option Principal) :
    Keeps config (fun _ => True) (query collection queryObject principal) fun id d =>
      ∃ object, objectOf? queryObject = some object ∧ Taken config collection object principal id d := by
  rw [query_eq]
  cases hobject : objectOf? queryObject with
  | none => exact Keeps.throw _
  | some object =>
      intro d hd hbefore
      obtain ⟨hsound, htaken⟩ := keeps_queryWith collection object principal d hd hbefore
      exact ⟨hsound, fun id hid => ⟨object, rfl, htaken id hid⟩⟩

theorem Reached.sound (h : Reached config d) : Sound config d := by
  induction h with
  | opened clock issued => exact ⟨rfl, fun hget => nomatch hget⟩
  | handled d around request _ ih => exact (keeps_handle around request d ih trivial).1
  | queried d collection queryObject principal _ ih =>
      exact (keeps_query collection queryObject principal d ih trivial).1
  | used d id use held _ ih =>
      exact ih.of_session rfl rfl fun hother hkept => use.apply_other (held.ne hother) hkept

/-- Whatever has happened at the desk, a query on a collection is compiled as a new one would be. -/
theorem Reached.query_compile (h : Reached config d) {collection queryObject : Value}
    {principal : Option Principal} {id : Nat} {d' : Desk}
    (hquery : d.act (query collection queryObject principal) = (.ok id, d')) :
    ∃ object compiler, objectOf? queryObject = some object ∧
      config.compilerFor collection = .ok compiler ∧
      (d'.session.finish id).result = compiler.compile principal object := by
  have hspec := (keeps_query collection queryObject principal d h.sound trivial).2 id
  rw [hquery] at hspec
  obtain ⟨object, hobject, -, compiler, hmake, hfinish⟩ := hspec rfl
  exact ⟨object, compiler, hobject, hmake, hfinish⟩

end Desk

end Crud

end QueryPipeline
