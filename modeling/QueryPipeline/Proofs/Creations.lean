import Mathlib.Data.List.Forall2
import QueryPipeline.Proofs.Steps

/-!
New documents. They have what the client gave, an id and the times of their creation. An id of the
client's is kept unless it counts as none, which a zero and an empty list do as well.
-/

namespace QueryPipeline.Crud

open Entries (get?)

/-! ## What a new document has -/

/-- What a client gives as an id: neither null nor the empty text. -/
def GivesId (given : Document) (v : Value) : Prop :=
  get? given "id" = some v ∧ v ≠ .null ∧ v ≠ .text ""

/-- An id that the client gave is kept. -/
def KeepsId (given document : Document) : Prop :=
  ∀ v, GivesId given v → get? document "id" = some v

/-- An id that the client gave does not count as none. -/
def UsableId (given : Document) : Prop :=
  ∀ v, GivesId given v → v.isTruthy = true

/-- A document made of what a client gave: its id, or a new one if that counts as none; the times of its
creation, if the configuration wants them; and for the rest nothing but what was given, without the
database's own id. -/
structure Created (config : Config) (given document : Document) : Prop where
  ownId : get? document "_id" = none
  kept : ∀ v, get? given "id" = some v → v.isTruthy = true → get? document "id" = some v
  issued : (∀ v, get? given "id" = some v → v.isTruthy = false) →
    ∃ n, get? document "id" = some (.text (Desk.idText n)) ∧ Desk.idText n ≠ ""
  times : config.timestamps = true → ∃ t, get? document "createdAt" = some (.time t) ∧
    get? document "updatedAt" = some (.time t)
  rest : ∀ key, key ≠ "_id" → key ≠ "id" →
    (config.timestamps = true → key ≠ "createdAt" ∧ key ≠ "updatedAt") →
    get? document key = get? given key

theorem falsy_of_not_usableId {given : Document} (h : ¬ UsableId given) :
    ∃ v, GivesId given v ∧ v.isTruthy = false := by
  unfold UsableId at h
  push Not at h
  obtain ⟨v, hgives, hfalsy⟩ := h
  exact ⟨v, hgives, by simpa using hfalsy⟩

/-- Such a document keeps an id that was given exactly if this does not count as none. -/
theorem Created.keepsId_iff {config : Config} {given document : Document}
    (h : Created config given document) : KeepsId given document ↔ UsableId given := by
  refine ⟨fun hkeeps => ?_, fun husable v hgives => h.kept v hgives.1 (husable v hgives)⟩
  by_contra husable
  obtain ⟨v, hgives, hfalsy⟩ := falsy_of_not_usableId husable
  obtain ⟨n, hnew, hne⟩ := h.issued fun w hw => by rwa [← Option.some.inj (hgives.1.symm.trans hw)]
  -- The new id is not empty, so it is not the one that counts as none.
  rw [hkeeps v hgives] at hnew
  cases hnew
  simp [Value.isTruthy, hne] at hfalsy

namespace Desk

variable {d : Desk} {given : Document}

theorem length_hex (width n : Nat) : (Text.hex width n).length = width := by
  induction width generalizing n with
  | zero => rfl
  | succ width ih => rw [Text.hex, List.length_append, ih, List.length_singleton]

theorem idText_ne_empty (n : Nat) : idText n ≠ "" := by
  intro h
  have hlength := congrArg (·.toList.length) h
  simp [idText, length_hex] at hlength

/-! ## One document -/

/-- Whether a new document keeps the id that it has. -/
def hasId (d : Desk) (document : Document) : Bool :=
  ((get? document d.config.idField).getD .null).isTruthy

/-- The document with an id. -/
def named (d : Desk) (document : Document) : Document :=
  if d.hasId document then document
  else Entries.put document d.config.idField (.text (idText (d.issued + 1)))

/-- The document that is made of what a client gave. -/
def created (d : Desk) (given : Document) : Document :=
  d.dated ["createdAt", "updatedAt"] (d.named (Entries.without given ["_id"]))

/-- The desk after a document was made. -/
def afterCreated (d : Desk) (given : Document) : Desk :=
  { d with
    issued := if d.hasId (Entries.without given ["_id"]) then d.issued else d.issued + 1
    clock := if d.config.timestamps then d.clock.tick else d.clock }

theorem act_identified (d : Desk) (document : Document) :
    d.act (identified document) = (.ok (d.named document),
      { d with issued := if d.hasId document then d.issued else d.issued + 1 }) := by
  unfold identified newId named hasId
  rw [act_bind, act_get]
  dsimp only
  split <;> rfl

/-- An object is always a document. -/
theorem act_newDocument (d : Desk) (given : Document) :
    d.act (newDocument (.object given)) = (.ok (d.created given), d.afterCreated given) := by
  unfold newDocument
  rw [act_bind, act_identified]
  exact act_stamped _ _ _

theorem get?_named (d : Desk) (document : Document) (key : String) :
    get? (d.named document) key =
      if key = d.config.idField ∧ d.hasId document = false then some (.text (idText (d.issued + 1)))
      else get? document key := by
  unfold named
  split <;> simp_all [Entries.get?_put]

/-- What a new document has under a key. -/
theorem get?_created (d : Desk) (given : Document) (key : String) :
    get? (d.created given) key =
      if d.config.timestamps = true ∧ (key = "createdAt" ∨ key = "updatedAt") then
        some (.time (d.clock.tick.time true))
      else if key = d.config.idField ∧ d.hasId (Entries.without given ["_id"]) = false then
        some (.text (idText (d.issued + 1)))
      else if key = "_id" then none
      else get? given key := by
  rw [created, get?_dated, get?_named, Entries.get?_without]
  simp only [List.mem_cons, List.not_mem_nil, or_false]

theorem hasId_iff (hid : d.config.idField = "id") :
    d.hasId (Entries.without given ["_id"]) = true ↔ ∃ v, get? given "id" = some v ∧ v.isTruthy = true := by
  unfold hasId
  rw [hid, Entries.get?_without, if_neg (by decide)]
  cases get? given "id" with
  | none => simp [Value.isTruthy]
  | some v => simp

theorem created_created (hid : d.config.idField = "id") (given : Document) :
    Created d.config given (d.created given) := by
  constructor
  case ownId => simp [get?_created, hid]
  case kept =>
    intro v hv htruthy
    have hhas := (hasId_iff hid).mpr ⟨v, hv, htruthy⟩
    simp [get?_created, hhas, hv]
  case issued =>
    intro hfalsy
    have hhas : ¬ d.hasId (Entries.without given ["_id"]) = true := by
      rw [hasId_iff hid]
      rintro ⟨v, hv, htruthy⟩
      rw [hfalsy v hv] at htruthy
      cases htruthy
    exact ⟨d.issued + 1, by simp [get?_created, hid, hhas], idText_ne_empty _⟩
  case times =>
    intro htimes
    exact ⟨d.clock.tick.time true, by simp [get?_created, htimes], by simp [get?_created, htimes]⟩
  case rest =>
    intro key hown hkey htimes
    rw [get?_created, if_neg, if_neg, if_neg hown]
    · exact fun h => hkey (hid ▸ h.1)
    · rintro ⟨hon, hcreated | hupdated⟩
      · exact (htimes hon).1 hcreated
      · exact (htimes hon).2 hupdated

/-! ## Batches -/

/-- The documents that are made of what a client gave, one after another. -/
def createdAll (d : Desk) : List Document → List Document
  | [] => []
  | given :: rest => d.created given :: (d.afterCreated given).createdAll rest

theorem act_mapM_newDocument (d : Desk) (batch : List Document) :
    (d.act ((batch.map Value.object).mapM newDocument)).1 = .ok (d.createdAll batch) := by
  induction batch generalizing d with
  | nil => rfl
  | cons given rest ih =>
      rw [List.map_cons, List.mapM_cons, act_bind, act_newDocument]
      exact congrArg Prod.fst (act_bind_ok (ih (d.afterCreated given)) _)

theorem created_createdAll (hid : d.config.idField = "id") (batch : List Document) :
    List.Forall₂ (Created d.config) batch (d.createdAll batch) := by
  induction batch generalizing d with
  | nil => exact .nil
  | cons given rest ih => exact .cons (created_created hid given) (ih (d := d.afterCreated given) hid)

theorem keepsIds_iff {config : Config} {batch documents : List Document}
    (h : List.Forall₂ (Created config) batch documents) :
    List.Forall₂ KeepsId batch documents ↔ ∀ given ∈ batch, UsableId given := by
  induction h with
  | nil => simp
  | cons hfirst _ ih => rw [List.forall₂_cons, hfirst.keepsId_iff, ih, List.forall_mem_cons]

theorem all_objects_or_not (items : List Value) :
    (∃ batch : List Document, items = batch.map .object) ∨ ∃ v ∈ items, v.entries? = none := by
  induction items with
  | nil => exact .inl ⟨[], rfl⟩
  | cons v rest ih =>
      cases v with
      | object given =>
          rcases ih with ⟨batch, rfl⟩ | ⟨w, hmem, hw⟩
          · exact .inl ⟨given :: batch, rfl⟩
          · exact .inr ⟨w, List.mem_cons_of_mem _ hmem, hw⟩
      | _ => exact .inr ⟨_, List.mem_cons_self, rfl⟩

theorem act_newDocuments {items : List Value} (h : ∃ v ∈ items, v.entries? = none) (d : Desk) :
    ∃ flaw, (d.act (items.mapM newDocument)).1 = .error (.invalid flaw) := by
  induction items generalizing d with
  | nil =>
      obtain ⟨v, hmem, -⟩ := h
      cases hmem
  | cons v rest ih =>
      rw [List.mapM_cons]
      cases v with
      | object given =>
          have hrest : ∃ v ∈ rest, v.entries? = none := by
            obtain ⟨v, hmem, hv⟩ := h
            rcases List.mem_cons.mp hmem with rfl | hmem
            · cases hv
            · exact ⟨v, hmem, hv⟩
          obtain ⟨flaw, hflaw⟩ := ih hrest (d.afterCreated given)
          refine ⟨flaw, ?_⟩
          rw [act_bind, act_newDocument]
          exact congrArg Prod.fst (act_bind_error hflaw _)
      | _ => exact ⟨.documentNotObject, rfl⟩

theorem act_newDocuments_ok (d : Desk) {batch : List Document} (h : batch ≠ []) :
    (d.act (newDocuments (.list (batch.map .object)))).1 = .ok (d.createdAll batch) := by
  cases batch with
  | nil => exact absurd rfl h
  | cons given rest => exact act_mapM_newDocument d (given :: rest)

/-- What is accepted as a document is an object. -/
theorem newDocument_eq_ok {v : Value} {document : Document} (h : (d.act (newDocument v)).1 = .ok document) :
    ∃ given, v = .object given ∧ document = d.created given := by
  cases v with
  | object given =>
      rw [act_newDocument] at h
      cases h
      exact ⟨given, rfl, rfl⟩
  | _ => cases h

/-- What is accepted as documents is a list of objects. -/
theorem newDocuments_eq_ok {v : Value} {documents : List Document}
    (h : (d.act (newDocuments v)).1 = .ok documents) :
    ∃ batch : List Document, v = .list (batch.map .object) ∧ documents = d.createdAll batch := by
  cases v with
  | list items =>
      cases items with
      | nil => cases h
      | cons first others =>
          change (d.act ((first :: others).mapM newDocument)).1 = .ok documents at h
          rcases all_objects_or_not (first :: others) with ⟨batch, hbatch⟩ | hother
          · rw [hbatch, act_mapM_newDocument] at h
            cases h
            exact ⟨batch, congrArg _ hbatch, rfl⟩
          · obtain ⟨flaw, hflaw⟩ := act_newDocuments hother d
            rw [hflaw] at h
            cases h
  | _ => cases h

/-- Objects are accepted, and made into documents one by one in their order. The ids that were given are
kept exactly if none of them but null and the empty text counts as none. -/
theorem newDocuments_keep_iff (hid : d.config.idField = "id") :
    (∀ given, ∃ document, (d.act (newDocument (.object given))).1 = .ok document) ∧
    (∀ v document, (d.act (newDocument v)).1 = .ok document → ∃ given, v = .object given ∧
      Created d.config given document ∧ (KeepsId given document ↔ UsableId given)) ∧
    (∀ batch : List Document, batch ≠ [] →
      ∃ documents, (d.act (newDocuments (.list (batch.map .object)))).1 = .ok documents) ∧
    ∀ v documents, (d.act (newDocuments v)).1 = .ok documents →
      ∃ batch : List Document, v = .list (batch.map .object) ∧
        List.Forall₂ (Created d.config) batch documents ∧
        (List.Forall₂ KeepsId batch documents ↔ ∀ given ∈ batch, UsableId given) := by
  refine ⟨fun given => ⟨_, congrArg Prod.fst (act_newDocument d given)⟩, fun v document h => ?_,
    fun batch hbatch => ⟨_, act_newDocuments_ok d hbatch⟩, fun v documents h => ?_⟩
  · obtain ⟨given, rfl, rfl⟩ := newDocument_eq_ok h
    have hcreated := created_created hid given
    exact ⟨given, rfl, hcreated, hcreated.keepsId_iff⟩
  · obtain ⟨batch, rfl, rfl⟩ := newDocuments_eq_ok h
    have hcreated := created_createdAll hid batch
    exact ⟨batch, rfl, hcreated, keepsIds_iff hcreated⟩

/-- Of two documents the one keeps its id, and the other gets one. -/
theorem newDocuments_keep_iff_two :
    let d : Desk := { config := {} }
    let batch : List Document := [[("id", .text "mine"), ("_id", .int 1)], [("name", .text "a")]]
    d.config.idField = "id" ∧
      ∃ documents, (d.act (newDocuments (.list (batch.map .object)))).1 = .ok documents ∧
        List.Forall₂ (Created d.config) batch documents ∧ List.Forall₂ KeepsId batch documents := by
  intro d batch
  have husable : ∀ given ∈ batch, UsableId given := by
    intro given hmem v hgives
    simp only [batch, List.mem_cons, List.not_mem_nil, or_false] at hmem
    rcases hmem with rfl | rfl
    · cases hgives.1
      decide
    · cases hgives.1
  obtain ⟨-, -, haccepted, hmade⟩ := newDocuments_keep_iff (d := d) rfl
  obtain ⟨documents, hdocuments⟩ := haccepted batch (List.cons_ne_nil _ _)
  obtain ⟨batch', hbatch, hcreated, hkeep⟩ := hmade _ _ hdocuments
  have hsame : batch = batch' := by
    have hinj : Function.Injective Value.object := fun _ _ h => Value.object.inj h
    exact hinj.list_map (Value.list.inj hbatch)
  subst hsame
  exact ⟨rfl, documents, hdocuments, hcreated, hkeep.mpr husable⟩

/-- A zero was given as the id, and another id has taken its place. -/
theorem created_over_zero :
    let d : Desk := { config := {} }
    let given : Document := [("id", .int 0), ("name", .text "a")]
    GivesId given (.int 0) ∧
      ∃ document, (d.act (newDocument (.object given))).1 = .ok document ∧
        get? document "id" = some (.text (idText 1)) ∧ ¬ KeepsId given document := by
  intro d given
  have hgives : GivesId given (.int 0) := ⟨rfl, nofun, nofun⟩
  have hnew : get? (d.created given) "id" = some (.text (idText 1)) := by
    rw [get?_created]
    rfl
  refine ⟨hgives, _, congrArg Prod.fst (act_newDocument d given), hnew, fun hkeeps => ?_⟩
  have hkept := hkeeps _ hgives
  rw [hnew] at hkept
  cases hkept

end Desk

end QueryPipeline.Crud
