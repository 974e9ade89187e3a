import QueryPipeline.Crud.View

/-!
Steps of requests: what they come to, one after another, what they leave alone at the desk, and what they
see of its configuration. What holds of single steps holds of requests if it goes from steps to what is
put together from them.
-/

namespace QueryPipeline.Crud

/-! ## Configurations -/

/-- The compiler for queries on a collection. -/
def Config.compilerFor (c : Config) (collection : Value) : Except Fault Compiler := do
  let name ← Desk.collectionName collection
  let given ← c.settingsOf (.text name)
  Compiler.make (.text name) given

/-- The two configurations do the same to documents, and make the same compilers. -/
structure Config.Alike (c c' : Config) : Prop where
  idField : c'.idField = c.idField
  timestamps : c'.timestamps = c.timestamps
  readOnly : c'.readOnly = c.readOnly
  compilerFor : ∀ collection, c'.compilerFor collection = c.compilerFor collection

theorem Config.Alike.protectedFields {c c' : Config} (h : Alike c c') :
    c'.protectedFields = c.protectedFields := by
  rw [Config.protectedFields, Config.protectedFields, h.idField, h.readOnly]

theorem Config.Alike.idFilter {c c' : Config} (h : Alike c c') (id : Value) :
    c'.idFilter id = c.idFilter id := by
  rw [Config.idFilter, Config.idFilter, h.idField]

namespace Desk

/-- Desks that differ in nothing but their configurations, and these are alike. -/
def Twin (d d' : Desk) : Prop :=
  ∃ config, d.config.Alike config ∧ d' = { d with config }

/-! ## What actions come to -/

/-- What an action comes to at a desk, and the desk after it. -/
def act {α : Type} (d : Desk) (a : Action α) : Except Fault α × Desk :=
  (a.run : StateM Desk (Except Fault α)) d

variable {α β : Type}

theorem act_bind (d : Desk) (a : Action α) (f : α → Action β) :
    d.act (a >>= f) =
      match d.act a with
      | (.ok x, d') => d'.act (f x)
      | (.error fault, d') => (.error fault, d') := by
  unfold act
  rw [ExceptT.run_bind]
  simp only [bind, StateT.bind]
  rcases (a.run : StateM Desk (Except Fault α)) d with ⟨result, d'⟩
  cases result <;> rfl

theorem act_bind_ok {d : Desk} {a : Action α} {x : α} (h : (d.act a).1 = .ok x) (f : α → Action β) :
    d.act (a >>= f) = (d.act a).2.act (f x) := by
  rw [act_bind]
  rcases hact : d.act a with ⟨result, d'⟩
  rw [hact] at h
  cases h
  rfl

theorem act_bind_error {d : Desk} {a : Action α} {fault : Fault} (h : (d.act a).1 = .error fault)
    (f : α → Action β) : d.act (a >>= f) = (.error fault, (d.act a).2) := by
  rw [act_bind]
  rcases hact : d.act a with ⟨result, d'⟩
  rw [hact] at h
  cases h
  rfl

@[simp]
theorem act_pure (d : Desk) (x : α) : d.act (pure x) = (.ok x, d) := rfl

@[simp]
theorem act_result (d : Desk) (result : Except Fault α) :
    d.act (ExceptT.mk (pure result)) = (result, d) := rfl

@[simp]
theorem act_get (d : Desk) : d.act get = (.ok d, d) := rfl

@[simp]
theorem act_modify (d : Desk) (f : Desk → Desk) : d.act (modify f) = (.ok ⟨⟩, f d) := rfl

theorem act_ask (d : Desk) (store : Store) (call : Call) :
    d.act (ask store call) = (store d.calls call, { d with events := d.events ++ [.call call] }) :=
  rfl

/-- The document with the time in the given fields, if the configuration wants it. -/
def dated (d : Desk) (fields : List String) (document : Document) : Document :=
  if d.config.timestamps then
    fields.foldl (fun document field => Entries.put document field (.time (d.clock.tick.time true)))
      document
  else document

theorem act_stamped (d : Desk) (fields : List String) (document : Document) :
    d.act (stamped fields document) = (.ok (d.dated fields document),
      { d with clock := if d.config.timestamps then d.clock.tick else d.clock }) := by
  unfold stamped now dated
  rw [act_bind, act_get]
  dsimp only
  split <;> rfl

theorem get?_dated (d : Desk) (fields : List String) (document : Document) (key : String) :
    Entries.get? (d.dated fields document) key =
      if d.config.timestamps = true ∧ key ∈ fields then some (.time (d.clock.tick.time true))
      else Entries.get? document key := by
  unfold dated
  split
  · rename_i htimes
    induction fields generalizing document with
    | nil => simp
    | cons field rest ih =>
        rw [List.foldl_cons, ih, Entries.get?_put]
        by_cases hrest : key ∈ rest <;> simp [htimes, hrest]
  · rename_i htimes
    simp [htimes]

/-! ## Properties of what is put together -/

/-- A property that actions have when all their steps do, and that lookups at the desk do not spoil as
long as they come to the same for configurations that are alike. -/
structure Composes (P : (α : Type) → Action α → Prop) : Prop where
  result : ∀ {α : Type} (result : Except Fault α), P α (ExceptT.mk (pure result))
  bind : ∀ {α β : Type} {a : Action α} {f : α → Action β},
    P α a → (∀ x, P β (f x)) → P β (a >>= f)
  look : ∀ {α : Type} {f : Desk → Action α},
    (∀ d, P α (f d)) → (∀ d d', Twin d d' → f d' = f d) → P α (MonadState.get >>= f)

namespace Composes

variable {P : (α : Type) → Action α → Prop} (h : Composes P)
include h

theorem pure (x : α) : P α (pure x) :=
  h.result (.ok x)

theorem throw (fault : Fault) : P α (throw fault) :=
  h.result (.error fault)

theorem mapM {f : α → Action β} (hf : ∀ x, P β (f x)) (xs : List α) : P (List β) (xs.mapM f) := by
  induction xs with
  | nil => exact h.pure _
  | cons x rest ih =>
      rw [List.mapM_cons]
      apply h.bind (hf x)
      intro _
      apply h.bind ih
      intro _
      exact h.pure _

theorem forM {f : α → Action Unit} (hf : ∀ x, P Unit (f x)) (xs : List α) : P Unit (xs.forM f) := by
  induction xs with
  | nil => exact h.pure _
  | cons x rest ih =>
      apply h.bind (hf x)
      intro _
      exact ih

theorem found (collection : String) (id answer : Value) : P Value (found collection id answer) := by
  unfold Desk.found
  split
  · exact h.throw _
  · exact h.pure _

end Composes

/-- Such a property of an action that makes the clock go on, gives out ids and announces documents. -/
structure Bookkeeping (P : (α : Type) → Action α → Prop) : Prop extends Composes P where
  clock : P Unit (modify fun d => { d with clock := d.clock.tick })
  issued : P Unit (modify fun d => { d with issued := d.issued + 1 })
  saving : ∀ collection document,
    P Unit (modify fun d => { d with events := d.events ++ [.saving collection document] })

namespace Bookkeeping

variable {P : (α : Type) → Action α → Prop} (h : Bookkeeping P)
include h

theorem now : P Instant now := by
  unfold Desk.now
  refine h.bind h.clock fun _ => h.look (fun _ => h.pure _) ?_
  rintro d _ ⟨config, -, rfl⟩
  rfl

theorem newId : P String newId := by
  unfold Desk.newId
  refine h.bind h.issued fun _ => h.look (fun _ => h.pure _) ?_
  rintro d _ ⟨config, -, rfl⟩
  rfl

theorem announce (around : Surroundings) (collection : String) (document : Document) :
    P Unit (announce around collection document) := by
  unfold Desk.announce
  apply h.bind (h.saving collection document)
  intro _
  exact h.result _

theorem identified (document : Document) : P Document (identified document) := by
  unfold Desk.identified
  refine h.look (fun d => ?_) ?_
  · dsimp only
    split
    · exact h.pure _
    · apply h.bind h.newId
      intro _
      exact h.pure _
  · rintro d _ ⟨config, halike, rfl⟩
    dsimp only
    rw [halike.idField]

theorem stamped (fields : List String) (document : Document) :
    P Document (stamped fields document) := by
  unfold Desk.stamped
  refine h.look (fun d => ?_) ?_
  · split
    · apply h.bind h.now
      intro _
      exact h.pure _
    · exact h.pure _
  · rintro d _ ⟨config, halike, rfl⟩
    dsimp only
    rw [halike.timestamps]

theorem newDocument (v : Value) : P Document (newDocument v) := by
  unfold Desk.newDocument
  split
  · apply h.bind (h.identified _)
    intro _
    exact h.stamped _ _
  · exact h.throw _

theorem newDocuments (v : Value) : P (List Document) (newDocuments v) := by
  unfold Desk.newDocuments
  split
  · exact h.throw _
  · exact h.mapM h.newDocument _
  · exact h.throw _

theorem updatedFields (v : Value) : P Document (updatedFields v) := by
  unfold Desk.updatedFields
  split
  · refine h.look (fun d => h.stamped _ _) ?_
    rintro d _ ⟨config, halike, rfl⟩
    dsimp only
    rw [halike.protectedFields]
  · exact h.throw _

/-! ## Requests -/

variable {around : Surroundings} (hask : ∀ call, P Value (ask around.store call))
include hask

/-- A call for the document with an id. -/
theorem lookup (name : String) (id : Value) (callOf : Document → Call) :
    P Value (do Desk.found name id (← ask around.store (callOf ((← get).config.idFilter id)))) := by
  refine h.look (fun d => ?_) ?_
  · apply h.bind (hask _)
    intro answer
    exact h.found _ _ _
  · rintro d _ ⟨config, halike, rfl⟩
    dsimp only
    rw [halike.idFilter]

theorem deleteMany (collection ids : Value) : P Value (deleteMany around collection ids) := by
  unfold Desk.deleteMany
  apply h.bind (h.result _)
  intro name
  split
  · refine h.look (fun d => ?_) ?_
    · apply h.bind (hask _)
      intro answer
      apply h.bind (h.result _)
      intro documents
      apply h.bind (h.result _)
      intro found
      apply h.bind (hask _)
      intro count
      apply h.bind (h.result _)
      intro errors
      exact h.pure _
    · rintro d _ ⟨config, halike, rfl⟩
      dsimp only
      rw [halike.idField]
  · exact h.throw _

/-- A request has the property if calls of the store have it, and a request for a list if that has it. -/
theorem perform (request : Request)
    (hlist : ∀ collection text, request = .list collection text →
      P Value (list around collection text)) : P Value (perform around request) := by
  cases request with
  | list collection text => exact hlist collection text rfl
  | get collection id =>
      apply h.bind (h.result _)
      intro name
      exact h.lookup hask name id (.findOne name)
  | create collection document =>
      apply h.bind (h.result _)
      intro name
      apply h.bind (h.newDocument _)
      intro document
      apply h.bind (h.announce _ _ _)
      intro _
      exact hask _
  | createMany collection documents =>
      apply h.bind (h.result _)
      intro name
      apply h.bind (h.newDocuments _)
      intro documents
      apply h.bind (h.forM (h.announce _ _) _)
      intro _
      exact hask _
  | update collection id fields =>
      apply h.bind (h.result _)
      intro name
      apply h.bind (h.updatedFields _)
      intro fields
      apply h.bind (h.announce _ _ _)
      intro _
      exact h.lookup hask name id fun filter =>
        if fields.isEmpty then .findOne name filter else .updateOne name filter fields
  | delete collection id =>
      apply h.bind (h.result _)
      intro name
      exact h.lookup hask name id (.deleteOne name)
  | deleteMany collection ids => exact h.deleteMany hask collection ids

end Bookkeeping

/-! ## What actions leave as it was -/

/-- Wherever it starts, an action comes to a desk that `R` relates to the first one. -/
def Within (R : Desk → Desk → Prop) (a : Action α) : Prop :=
  ∀ d, R d (d.act a).2

/-- A relation that an action which does nothing keeps within, and one action after another does if both
of them do. -/
structure Steady (R : Desk → Desk → Prop) : Prop where
  refl : ∀ d, R d d
  trans : ∀ {d d' d''}, R d d' → R d' d'' → R d d''

variable {R : Desk → Desk → Prop}

theorem Within.modify {f : Desk → Desk} (hf : ∀ d, R d (f d)) : Within R (modify f : Action Unit) :=
  hf

theorem Within.get_bind {f : Desk → Action α} (hf : ∀ d, Within R (f d)) :
    Within R (MonadState.get >>= f) :=
  fun d => hf d d

theorem Steady.bind (h : Steady R) {a : Action α} {f : α → Action β} (ha : Within R a)
    (hf : ∀ x, Within R (f x)) : Within R (a >>= f) := by
  intro d
  have hfirst := ha d
  rw [act_bind]
  rcases hact : d.act a with ⟨result, d'⟩
  rw [hact] at hfirst
  cases result with
  | error fault => exact hfirst
  | ok x => exact h.trans hfirst (hf x d')

theorem Steady.composes (h : Steady R) : Composes fun _ a => Within R a where
  result _ := h.refl
  bind := h.bind
  look hf _ := Within.get_bind hf

/-- The queries and their compilers are the same. -/
def Untouched (d d' : Desk) : Prop :=
  d'.config = d.config ∧ d'.session = d.session ∧ d'.compilers = d.compilers

/-- An action that only looks at the queries and their compilers. -/
def Idle (a : Action α) : Prop :=
  ∀ d : Desk, (d.act a).2.config = d.config ∧ (d.act a).2.session = d.session ∧
    (d.act a).2.compilers = d.compilers

theorem steady_untouched : Steady Untouched where
  refl _ := ⟨rfl, rfl, rfl⟩
  trans h h' := ⟨h'.1.trans h.1, h'.2.1.trans h.2.1, h'.2.2.trans h.2.2⟩

theorem untouched : Bookkeeping fun _ a => Within Untouched a where
  toComposes := steady_untouched.composes
  clock _ := ⟨rfl, rfl, rfl⟩
  issued _ := ⟨rfl, rfl, rfl⟩
  saving _ _ _ := ⟨rfl, rfl, rfl⟩

theorem idle_ask (store : Store) (call : Call) : Idle (ask store call) := by
  unfold ask
  change Within Untouched _
  refine Within.get_bind fun d => ?_
  refine untouched.bind (Within.modify fun _ => ⟨rfl, rfl, rfl⟩) fun _ => ?_
  exact untouched.result _

/-- No request but a list touches a query. -/
theorem idle_perform (around : Surroundings) {request : Request}
    (h : ∀ collection text, request ≠ .list collection text) : Idle (perform around request) :=
  untouched.perform (idle_ask around.store) request
    fun collection text hlist => absurd hlist (h collection text)

end Desk

end QueryPipeline.Crud
