import QueryPipeline.Proofs.Creations
import QueryPipeline.Proofs.Desk
import QueryPipeline.Registry.Request

/-!
What is rejected does not reach the store. A request is checked before its first call, and what can go
wrong from then on is not the client's doing; the calls are about the collection that was asked for.
-/

namespace QueryPipeline

/-- Whether a fault is a rejection: of what the client sent, or of a named query that is not there. -/
def Fault.isRejection : Fault → Bool
  | .invalid _ => true
  | .notFound (.namedQuery _) => true
  | _ => false

/-- A store whose failures are its own. -/
def Store.Honest (store : Store) : Prop :=
  ∀ before call fault, store before call = .error fault → fault.isRejection = false

/-- The collection that a request is about. -/
def Crud.Request.collection : Request → Value
  | .list collection _ | .get collection _ | .create collection _ | .createMany collection _
  | .update collection _ _ | .delete collection _ | .deleteMany collection _ => collection

namespace Crud.Desk

variable {α β : Type} {config : Config} {d : Desk} {collection : Value}

theorem isCollectionName_of_ok {name : String} (h : collectionName collection = .ok name) :
    isCollectionName name = true := by
  obtain rfl := collectionName_eq_ok h
  rw [collectionName] at h
  split at h
  · assumption
  · cases h

theorem collectionName_error {fault : Fault} (h : collectionName collection = .error fault) :
    fault = .invalid (.collectionName collection) := by
  unfold collectionName at h
  split at h
  · split at h
    · cases h
    · cases h; rfl
  · cases h; rfl

theorem collectionName_of_compilerFor {compiler : Compiler}
    (h : config.compilerFor collection = .ok compiler) :
    collectionName collection = .ok collection.plain := by
  unfold Config.compilerFor at h
  cases hname : collectionName collection with
  | error fault =>
      rw [hname] at h
      cases h
  | ok name =>
      obtain rfl := collectionName_eq_ok hname
      rfl

/-! ## Actions without calls -/

/-- No call was made from one desk to the other. -/
def Uncalled (d d' : Desk) : Prop :=
  d'.calls = d.calls

theorem uncalled : Bookkeeping fun _ a => Within Uncalled a where
  toComposes := Steady.composes { refl := fun _ => rfl, trans := fun h h' => h'.trans h }
  clock _ := rfl
  issued _ := rfl
  saving collection document d := by simp [Uncalled, act_modify, calls]

theorem uncalled_onSession (step : Session → Outcome Session α) : Within Uncalled (onSession step) :=
  fun _ => rfl

theorem uncalled_keepCompiler (collection : Value) : Within Uncalled (keepCompiler collection) := by
  unfold keepCompiler
  apply uncalled.bind (uncalled.result _)
  intro name
  refine Within.get_bind fun d => ?_
  apply uncalled.bind (uncalled.result _)
  intro given
  apply uncalled.bind (uncalled.result _)
  intro compiler
  refine Within.get_bind fun d => ?_
  refine uncalled.bind (Within.modify fun _ => rfl) fun _ => ?_
  exact uncalled.pure _

theorem uncalled_compilerFor (collection : Value) : Within Uncalled (compilerFor collection) := by
  unfold compilerFor
  split
  · refine Within.get_bind fun d => ?_
    split
    · exact uncalled.pure _
    · exact uncalled_keepCompiler collection
  · exact uncalled.throw _

theorem uncalled_query (collection queryObject : Value) (principal : Option Principal) :
    Within Uncalled (query collection queryObject principal) := by
  rw [query_eq]
  split
  · apply uncalled.bind (uncalled_compilerFor collection)
    intro kept
    refine Within.get_bind fun d => ?_
    refine uncalled.bind (Within.modify fun _ => rfl) fun _ => ?_
    apply uncalled.bind (uncalled_onSession _)
    intro _
    exact uncalled.pure _
  · exact uncalled.throw _

/-! ## Actions with calls -/

/-- An action whose calls are about a collection, and which does not reject. -/
def Accepts (collection : Value) (a : Action α) : Prop :=
  ∀ d : Desk, ∃ made, (d.act a).2.calls = d.calls ++ made ∧
    (∀ call ∈ made, collectionName collection = .ok call.collection) ∧
    ∀ fault, (d.act a).1 = .error fault → fault.isRejection = false

/-- At this desk, the calls of an action are about a collection, and if it rejects there are none. -/
def Screens (collection : Value) (d : Desk) (a : Action α) : Prop :=
  ∃ made, (d.act a).2.calls = d.calls ++ made ∧
    (∀ call ∈ made, collectionName collection = .ok call.collection) ∧
    ∀ fault, (d.act a).1 = .error fault → fault.isRejection = true → made = []

theorem Accepts.of_uncalled {a : Action α} (h : Within Uncalled a)
    (hfault : ∀ (d : Desk) fault, (d.act a).1 = .error fault → fault.isRejection = false) :
    Accepts collection a :=
  fun d => ⟨[], by rw [List.append_nil]; exact h d, fun _ hcall => (List.not_mem_nil hcall).elim,
    hfault d⟩

theorem Accepts.result {result : Except Fault α}
    (h : ∀ fault, result = .error fault → fault.isRejection = false) :
    Accepts collection (ExceptT.mk (pure result) : Action α) :=
  Accepts.of_uncalled (uncalled.result _) fun _ => h

theorem Accepts.pure (x : α) : Accepts collection (pure x : Action α) :=
  Accepts.result fun _ h => nomatch h

theorem Accepts.get : Accepts collection (get : Action Desk) :=
  Accepts.of_uncalled (fun _ => rfl) fun _ _ h => nomatch h

theorem Accepts.bind {a : Action α} {f : α → Action β} (ha : Accepts collection a)
    (hf : ∀ x, Accepts collection (f x)) : Accepts collection (a >>= f) := by
  intro d
  obtain ⟨first, hfirst, hallfirst, hfault⟩ := ha d
  rw [act_bind]
  rcases hact : d.act a with ⟨result, d'⟩
  rw [hact] at hfirst hfault
  cases result with
  | error fault => exact ⟨first, hfirst, hallfirst, fun fault' h => hfault fault' (by cases h; rfl)⟩
  | ok x =>
      obtain ⟨second, hsecond, hallsecond, hfault'⟩ := hf x d'
      refine ⟨first ++ second, ?_, fun call hcall => ?_, hfault'⟩
      · rw [hsecond, hfirst, List.append_assoc]
      · exact (List.mem_append.mp hcall).elim (hallfirst call) (hallsecond call)

theorem Accepts.found {name : String} (id answer : Value) : Accepts collection (found name id answer) := by
  unfold Desk.found
  split
  · refine Accepts.result fun fault h => ?_
    cases h
    rcases Fault.ofMissing_cases (.document name id) with hmissing | ⟨hmissing, -⟩ <;> rw [hmissing] <;> rfl
  · exact Accepts.pure _

theorem Accepts.ask {store : Store} (honest : store.Honest) {call : Call}
    (h : collectionName collection = .ok call.collection) : Accepts collection (ask store call) := by
  intro d
  refine ⟨[call], ?_, fun other hother => ?_, fun fault => honest d.calls call fault⟩
  · simp only [Desk.ask, act_bind, act_get, act_modify, act_result, calls, List.filterMap_append]
    rfl
  · rwa [List.mem_singleton.mp hother]

theorem Accepts.screens {a : Action α} (h : Accepts collection a) (d : Desk) :
    Screens collection d a := by
  obtain ⟨made, hmade, hall, hfault⟩ := h d
  refine ⟨made, hmade, hall, fun fault herror hrejection => ?_⟩
  rw [hfault fault herror] at hrejection
  cases hrejection

theorem Screens.of_calls_eq {a : Action α} (h : (d.act a).2.calls = d.calls) : Screens collection d a :=
  ⟨[], by rw [List.append_nil, h], fun _ hcall => (List.not_mem_nil hcall).elim, fun _ _ _ => rfl⟩

theorem Screens.after {a : Action α} {f : α → Action β} (ha : Within Uncalled a)
    (hf : ∀ x d', d.act a = (.ok x, d') → Screens collection d' (f x)) :
    Screens collection d (a >>= f) := by
  have hcalls : (d.act a).2.calls = d.calls := ha d
  rcases hact : d.act a with ⟨result, d'⟩
  rw [hact] at hcalls
  cases result with
  | error fault => exact Screens.of_calls_eq (by rw [act_bind, hact]; exact hcalls)
  | ok x =>
      obtain ⟨made, hmade, hrest⟩ := hf x d' hact
      unfold Screens
      rw [act_bind, hact]
      exact ⟨made, by rw [hmade, hcalls], hrest⟩

/-- A request that looks at the name of its collection first goes on with that name. -/
theorem Screens.named {f : String → Action β}
    (hf : ∀ name, collectionName collection = .ok name → Screens collection d (f name)) :
    Screens collection d (settle (collectionName collection) >>= f) := by
  refine Screens.after (uncalled.result _) fun name d' hact => ?_
  rw [settle, act_result] at hact
  obtain ⟨hname, rfl⟩ := Prod.mk.inj hact
  exact hf name hname

/-! ## Requests -/

theorem screens_list (hd : Sound config d) (around : Surroundings) (honest : around.store.Honest)
    (text : Option String) : Screens collection d (list around collection text) := by
  refine Screens.after (uncalled.result _) fun object d' hread => ?_
  rw [settle, act_result] at hread
  obtain ⟨-, rfl⟩ := Prod.mk.inj hread
  refine Screens.after (uncalled_query _ _ _) fun id d' hquery => ?_
  -- The query is there, so the name of the collection was looked at when its compiler was made.
  have hname : collectionName collection = .ok collection.plain := by
    have htaken := (keeps_query collection (.object object) around.principal d hd trivial).2 id
    rw [hquery] at htaken
    obtain ⟨-, -, -, compiler, hmake, -⟩ := htaken rfl
    exact collectionName_of_compilerFor hmake
  refine Screens.after (Within.modify fun _ => rfl) fun _ d' _ => ?_
  refine Screens.after (uncalled_onSession _) fun pipeline d' _ => ?_
  apply Accepts.screens
  apply Accepts.bind (Accepts.ask honest hname)
  intro data
  apply Accepts.bind (Accepts.ask honest hname)
  intro total
  exact Accepts.pure _

theorem accepts_documentsIn (answer : Value) : Accepts collection (settle (documentsIn answer)) := by
  refine Accepts.result fun fault h => ?_
  unfold documentsIn at h
  split at h
  · cases h
  · split at h <;> cases h
    rfl
  · split at h <;> cases h
    rfl
  · cases h; rfl

theorem accepts_foundIds (field : String) (documents : List Value) :
    Accepts collection (settle (foundIds field documents)) := by
  refine Accepts.result ?_
  induction documents with
  | nil => exact fun _ h => nomatch h
  | cons document rest ih =>
      intro fault h
      cases document with
      | object entries =>
          rw [foundIds] at h
          split at h
          · cases hrest : foundIds field rest with
            | error fault' =>
                rw [hrest] at h
                cases h
                exact ih _ hrest
            | ok ids =>
                rw [hrest] at h
                cases h
          · cases h; rfl
      | _ => cases h; rfl

theorem accepts_missingIds (found ids : List Value) :
    Accepts collection (settle (missingIds found ids)) := by
  refine Accepts.result ?_
  induction ids with
  | nil => exact fun _ h => nomatch h
  | cons id rest ih =>
      intro fault h
      rw [missingIds] at h
      dsimp only at h
      split at h
      · cases hrest : missingIds found rest with
        | error fault' =>
            rw [hrest] at h
            cases h
            exact ih _ hrest
        | ok lines =>
            rw [hrest] at h
            cases h
      · cases h; rfl

theorem screens_deleteMany (around : Surroundings) (honest : around.store.Honest) (ids : Value) :
    Screens collection d (deleteMany around collection ids) := by
  refine Screens.named fun name hname => ?_
  split
  · apply Accepts.screens
    apply Accepts.bind Accepts.get
    intro _
    apply Accepts.bind (Accepts.ask honest hname)
    intro answer
    apply Accepts.bind (accepts_documentsIn answer)
    intro documents
    apply Accepts.bind (accepts_foundIds _ _)
    intro found
    apply Accepts.bind (Accepts.ask honest hname)
    intro count
    apply Accepts.bind (accepts_missingIds _ _)
    intro errors
    exact Accepts.pure _
  · exact Screens.of_calls_eq rfl

theorem accepts_lookup {store : Store} (honest : store.Honest) (name : String) (id : Value)
    (callOf : Document → Call) (h : ∀ filter, collectionName collection = .ok (callOf filter).collection) :
    Accepts collection (do found name id (← ask store (callOf ((← get).config.idFilter id)))) := by
  apply Accepts.bind Accepts.get
  intro d
  exact Accepts.bind (Accepts.ask honest (h _)) fun answer => Accepts.found id answer

/-- A request is rejected before it calls the store, if at all. -/
theorem screens_perform (hd : Sound config d) (around : Surroundings) (honest : around.store.Honest)
    (request : Request) : Screens request.collection d (perform around request) := by
  cases request with
  | list collection text => exact screens_list hd around honest text
  | get collection id =>
      refine Screens.named fun name hname => ?_
      exact (accepts_lookup honest name id (.findOne name) fun _ => hname).screens d
  | create collection document =>
      refine Screens.named fun name hname => ?_
      refine Screens.after (uncalled.newDocument _) fun document d' _ => ?_
      refine Screens.after (uncalled.announce _ _ _) fun _ d' _ => ?_
      exact (Accepts.ask honest hname).screens d'
  | createMany collection documents =>
      refine Screens.named fun name hname => ?_
      refine Screens.after (uncalled.newDocuments _) fun documents d' _ => ?_
      refine Screens.after (uncalled.forM (uncalled.announce _ _) _) fun _ d' _ => ?_
      exact (Accepts.ask honest hname).screens d'
  | update collection id fields =>
      refine Screens.named fun name hname => ?_
      refine Screens.after (uncalled.updatedFields _) fun fields d' _ => ?_
      refine Screens.after (uncalled.announce _ _ _) fun _ d' _ => ?_
      let callOf (filter : Document) : Call :=
        if fields.isEmpty then .findOne name filter else .updateOne name filter fields
      have hcall : ∀ filter, collectionName collection = .ok (callOf filter).collection := by
        intro filter
        simp only [callOf]
        split <;> exact hname
      exact (accepts_lookup honest name id callOf hcall).screens d'
  | delete collection id =>
      refine Screens.named fun name hname => ?_
      exact (accepts_lookup honest name id (.deleteOne name) fun _ => hname).screens d
  | deleteMany collection ids => exact screens_deleteMany around honest ids

/-! ## Batches -/

/-- A batch with something in it that is no document is rejected. -/
theorem act_createMany {items : List Value} (h : ∃ v ∈ items, v.entries? = none) (d : Desk)
    (around : Surroundings) (collection : Value) :
    ∃ flaw, (d.act (createMany around collection (.list items))).1 = .error (.invalid flaw) := by
  unfold createMany settle
  rw [act_bind, act_result]
  cases hname : collectionName collection with
  | error fault => exact ⟨_, congrArg _ (collectionName_error hname)⟩
  | ok name =>
      obtain ⟨flaw, hflaw⟩ := act_newDocuments h d
      refine ⟨flaw, ?_⟩
      dsimp only
      cases items with
      | nil =>
          obtain ⟨v, hmem, -⟩ := h
          cases hmem
      | cons v rest =>
          have hlist : newDocuments (.list (v :: rest)) = (v :: rest).mapM newDocument := rfl
          rw [hlist, act_bind_error hflaw]

/-! ## Runs -/

/-- Something to do: handle a request, or execute a named query. -/
inductive Errand where
  | request (around : Surroundings) (request : Request)
  | execute (r : Registry) (lenient : Bool) (store : Store) (name : String) (body : Value)

/-- The store that an errand is about. -/
def Errand.store : Errand → Store
  | .request around _ => around.store
  | .execute _ _ store _ _ => store

/-- What has become of an errand, and the calls that it made. -/
structure Report where
  errand : Errand
  calls : List Call
  result : Except Fault Value

/-- Does an errand. -/
def attend (d : Desk) (errand : Errand) : Report × Desk :=
  match errand with
  | .request around request =>
    let (result, d') := d.act (handle around request)
    ({ errand, calls := d'.calls, result }, d')
  | .execute r lenient store name body =>
    let (calls, result) := r.requestExecute lenient store name body
    ({ errand, calls, result := result.map .object }, d)

/-- What becomes of errands, one after another. -/
def reports (d : Desk) : List Errand → List Report
  | [] => []
  | errand :: rest => (d.attend errand).1 :: reports (d.attend errand).2 rest

/-- An errand that is rejected has made no call, like one for a batch with something in it that is no
document. The calls for a request are about its collection, whose name is one. -/
structure Report.Orderly (report : Report) : Prop where
  rejected : ∀ fault, report.result = .error fault → fault.isRejection = true → report.calls = []
  batch : ∀ around collection items,
    report.errand = .request around (.createMany collection (.list items)) →
    (∃ v ∈ items, v.entries? = none) →
    report.calls = [] ∧ ∃ flaw, report.result = .error (.invalid flaw)
  named : ∀ around request, report.errand = .request around request → ∀ call ∈ report.calls,
    request.collection = .text call.collection ∧ call.collection ≠ "" ∧
      call.collection.startsWith "$" = false ∧ call.collection.startsWith "system." = false ∧
      '\x00' ∉ call.collection.toList

theorem isCollectionName_iff {name : String} : isCollectionName name = true ↔
    name ≠ "" ∧ name.startsWith "$" = false ∧ name.startsWith "system." = false ∧
      '\x00' ∉ name.toList := by
  simp [isCollectionName, and_assoc]

theorem calls_handle (hd : Sound config d) (around : Surroundings) (honest : around.store.Honest)
    (request : Request) :
    (∀ call ∈ (d.act (handle around request)).2.calls,
      collectionName request.collection = .ok call.collection) ∧
    ∀ fault, (d.act (handle around request)).1 = .error fault → fault.isRejection = true →
      (d.act (handle around request)).2.calls = [] := by
  unfold handle
  rw [act_bind, act_modify]
  have hnew : Sound config { d with events := [], current := none } :=
    hd.of_session rfl rfl fun _ hcell => hcell
  obtain ⟨made, hmade, hall, hfault⟩ := screens_perform hnew around honest request
  change _ = [] ++ made at hmade
  rw [hmade, List.nil_append]
  exact ⟨hall, hfault⟩

theorem orderly_request (hd : Sound config d) (around : Surroundings) (honest : around.store.Honest)
    (request : Request) : (d.attend (.request around request)).1.Orderly := by
  obtain ⟨hnamed, hrejected⟩ := calls_handle hd around honest request
  constructor
  case rejected => exact hrejected
  case batch =>
    intro around' collection items herrand hbatch
    cases herrand
    obtain ⟨flaw, hflaw⟩ :=
      act_createMany hbatch { d with events := [], current := none } around collection
    exact ⟨hrejected _ hflaw rfl, flaw, hflaw⟩
  case named =>
    intro around' request' herrand call hcall
    cases herrand
    have hname := hnamed call hcall
    exact ⟨collectionName_eq_ok hname, isCollectionName_iff.mp (isCollectionName_of_ok hname)⟩

theorem calls_execute (r : Registry) (lenient : Bool) {store : Store} (honest : store.Honest)
    (name : String) (body : Value) {fault : Fault}
    (h : (r.requestExecute lenient store name body).2 = .error fault)
    (hrejection : fault.isRejection = true) :
    (r.requestExecute lenient store name body).1 = [] := by
  unfold Registry.requestExecute at h ⊢
  split
  · rfl
  · rename_i params options hbody
    simp only [hbody, Registry.execute] at h ⊢
    split
    · rfl
    · rename_i q stages hcompile
      rw [hcompile] at h
      -- The store was called, so the fault is what it answered.
      cases hanswer : store [] (.aggregate q.collection (stages.map .given)) with
      | error fault' =>
          simp only [hanswer, Except.map] at h
          cases h
          rw [honest _ _ _ hanswer] at hrejection
          cases hrejection
      | ok answer =>
          simp only [hanswer, Except.map] at h
          cases h

theorem orderly_execute (d : Desk) (r : Registry) (lenient : Bool) {store : Store}
    (honest : store.Honest) (name : String) (body : Value) :
    (d.attend (.execute r lenient store name body)).1.Orderly := by
  constructor
  case rejected =>
    intro fault hfault hrejection
    refine calls_execute r lenient honest name body ?_ hrejection
    change (r.requestExecute lenient store name body).2.map Value.object = .error fault at hfault
    cases hresult : (r.requestExecute lenient store name body).2 with
    | error fault' =>
        rw [hresult] at hfault
        cases hfault
        rfl
    | ok answer =>
        rw [hresult] at hfault
        cases hfault
  case batch => exact fun _ _ _ herrand => nomatch herrand
  case named => exact fun _ _ herrand => nomatch herrand

theorem orderly_attend (hd : Sound config d) {errand : Errand} (honest : errand.store.Honest) :
    (d.attend errand).1.Orderly := by
  cases errand with
  | request around request => exact orderly_request hd around honest request
  | execute r lenient store name body => exact orderly_execute d r lenient honest name body

theorem sound_attend (hd : Sound config d) (errand : Errand) : Sound config (d.attend errand).2 := by
  cases errand with
  | request around request => exact (keeps_handle around request d hd trivial).1
  | execute r lenient store name body => exact hd

theorem orderly_reports (hd : Sound config d) {errands : List Errand}
    (honest : ∀ errand ∈ errands, errand.store.Honest) : ∀ report ∈ d.reports errands, report.Orderly := by
  induction errands generalizing d with
  | nil => exact fun _ hmem => nomatch hmem
  | cons errand rest ih =>
      intro report hmem
      rcases List.mem_cons.mp hmem with rfl | hmem
      · exact orderly_attend hd (honest errand List.mem_cons_self)
      · exact ih (sound_attend hd errand) (fun other hother => honest other (List.mem_cons_of_mem _ hother))
          report hmem

/-- Whatever has happened at the desk, of any errands those that are rejected make no call, and the
calls for requests are about collections with proper names. -/
theorem reports_orderly (hd : Reached config d) (errands : List Errand)
    (honest : ∀ errand ∈ errands, errand.store.Honest) :
    ∀ report ∈ d.reports errands, report.Orderly :=
  orderly_reports hd.sound honest

/-- A store without documents, which takes new ones and loses them. -/
def vacant : Store := fun _ call =>
  match call with
  | .aggregate .. => .ok (.list [])
  | .count .. | .deleteMany .. => .ok (.int 0)
  | .insertOne _ document => .ok (.object document)
  | .insertMany _ documents => .ok (.list (documents.map .object))
  | .findOne .. | .updateOne .. | .deleteOne .. => .ok .null

theorem vacant_honest : vacant.Honest := by
  intro before call fault h
  cases call <;> cases h

/-- Documents are listed twice, the second time with the compiler that was kept; then a batch with a
number in it, another name, and a query that nobody has registered are rejected. -/
theorem reports_orderly_rejections :
    let around : Surroundings := { store := vacant }
    let errands : List Errand := [.request around (.list (.text "users") none),
      .request around (.list (.text "users") (some "{}")),
      .request around (.createMany (.text "users") (.list [.object [], .int 5])),
      .request around (.list (.text "system.users") none), .execute {} true vacant "report" .null]
    (∀ errand ∈ errands, errand.store.Honest) ∧
      (∀ report ∈ reports { config := {} } errands, report.Orderly) ∧
      (reports { config := {} } errands).map (·.calls.length) = [2, 2, 0, 0, 0] := by
  intro around errands
  have honest : ∀ errand ∈ errands, errand.store.Honest := by
    intro errand hmem
    simp only [errands, List.mem_cons, List.not_mem_nil, or_false] at hmem
    rcases hmem with rfl | rfl | rfl | rfl | rfl <;> exact vacant_honest
  exact ⟨honest, reports_orderly (.opened {} 0) errands honest, by decide +kernel⟩

end Crud.Desk

end QueryPipeline
