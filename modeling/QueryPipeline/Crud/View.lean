import QueryPipeline.Crud.Desk
import QueryPipeline.QueryText

/-! Requests to collections: list, get, create, update and delete documents. -/

namespace QueryPipeline.Crud

/-- What a request does with a collection. -/
inductive Method where
  | list
  | get
  | create
  | update
  | delete
deriving DecidableEq, Repr

/-- A request to a collection, as the client sent it. -/
inductive Request where
  | list (collection : Value) (text : Option String)
  | get (collection id : Value)
  | create (collection document : Value)
  | createMany (collection documents : Value)
  | update (collection id fields : Value)
  | delete (collection id : Value)
  | deleteMany (collection ids : Value)

/-- What a request does. -/
def Request.method : Request → Method
  | .list .. => .list
  | .get .. => .get
  | .create .. | .createMany .. => .create
  | .update .. => .update
  | .delete .. | .deleteMany .. => .delete

/-- What surrounds a request: the store, who asks, what happens to a query before it is compiled,
and who has a say before a document is saved. -/
structure Surroundings where
  store : Store
  principal : Option Principal := none
  review : Query → Query := id
  beforeSave : String → Document → Except Fault Unit := fun _ _ => .ok ()

namespace Desk

/-- A computation that cannot change anything. -/
def settle {α : Type} (result : Except Fault α) : Action α :=
  ExceptT.mk (pure result)

/-- Tells who has a say that a document is about to be saved. -/
def announce (around : Surroundings) (collection : String) (document : Document) :
    Action Unit := do
  modify fun d => { d with events := d.events ++ [.saving collection document] }
  settle (around.beforeSave collection document)

/-- The document that the store gave, if it gave one. -/
def found (collection : String) (id answer : Value) : Action Value :=
  if answer = .null then throw (.ofMissing (.document collection id)) else pure answer

/-- Lists the documents of a collection that a query object asks for. -/
def listed (around : Surroundings) (collection queryObject : Value) : Action Value := do
  let id ← query collection queryObject around.principal
  modify fun d => { d with session := d.session.revise id around.review, current := some id }
  let pipeline ← onSession (·.finish id)
  let name := collection.plain
  let data ← ask around.store (.aggregate name pipeline.stages)
  let total ← ask around.store (.count name pipeline.countFilter)
  return .object [("data", data), ("metadata", .object (pipeline.metadata total))]

/-- Lists the documents of a collection that the query object in a text asks for. -/
def list (around : Surroundings) (collection : Value) (text : Option String) : Action Value := do
  let object ← settle ((QueryText.read text).mapError .invalid)
  listed around collection (.object object)

/-- The document with an id. -/
def fetch (around : Surroundings) (collection id : Value) : Action Value := do
  let name ← settle (collectionName collection)
  found name id (← ask around.store (.findOne name ((← get).config.idFilter id)))

/-- Saves a new document. -/
def create (around : Surroundings) (collection document : Value) : Action Value := do
  let name ← settle (collectionName collection)
  let document ← newDocument document
  announce around name document
  ask around.store (.insertOne name document)

/-- Saves new documents, all at once. -/
def createMany (around : Surroundings) (collection documents : Value) : Action Value := do
  let name ← settle (collectionName collection)
  let documents ← newDocuments documents
  documents.forM (announce around name)
  ask around.store (.insertMany name documents)

/-- Sets fields of the document with an id; without any field to set it is only looked up. -/
def update (around : Surroundings) (collection id fields : Value) : Action Value := do
  let name ← settle (collectionName collection)
  let fields ← updatedFields fields
  announce around name fields
  let filter := (← get).config.idFilter id
  let call := if fields.isEmpty then Call.findOne name filter else .updateOne name filter fields
  found name id (← ask around.store call)

/-- Deletes the document with an id. -/
def delete (around : Surroundings) (collection id : Value) : Action Value := do
  let name ← settle (collectionName collection)
  found name id (← ask around.store (.deleteOne name ((← get).config.idFilter id)))

/-- The documents in an answer that is gone through item by item: an object's keys and a text's
characters are no documents. -/
def documentsIn : Value → Except Fault (List Value)
  | .list documents => .ok documents
  | .object entries => if entries.isEmpty then .ok [] else .error (.misuse .notDocument)
  | .text s => if s.isEmpty then .ok [] else .error (.misuse .notDocument)
  | _ => .error (.misuse .notList)

/-- The ids of documents, by which they can be looked up. -/
def foundIds (field : String) : List Value → Except Fault (List Value)
  | [] => .ok []
  | .object document :: rest =>
    let id := (Entries.get? document field).getD .null
    if id.isKey then (foundIds field rest).map (id :: ·) else .error (.misuse .notKey)
  | _ => .error (.misuse .notDocument)

/-- A line for every id that is not among the found ones. -/
def missingIds (found : List Value) : List Value → Except Fault (List Value)
  | [] => .ok []
  | id :: rest =>
    if id.isKey then
      let line := Value.object [("id", id), ("error", .text "Not found")]
      (missingIds found rest).map fun lines => if found.any id.alike then lines else line :: lines
    else .error (.misuse .notKey)

/-- Deletes documents by their ids, and tells which of them were not there. -/
def deleteMany (around : Surroundings) (collection ids : Value) : Action Value := do
  let name ← settle (collectionName collection)
  match ids with
  | .list (first :: others) =>
    let ids := first :: others
    let field := (← get).config.idField
    let filter : Document := [(field, .object [("$in", .list ids)])]
    let answer ← ask around.store (.aggregate name [.keep filter, .pick field])
    let documents ← settle (documentsIn answer)
    let found ← settle (foundIds field documents)
    let count ← ask around.store (.deleteMany name filter)
    let errors ← settle (missingIds found ids)
    return .object [("successCount", count), ("errors", .list errors)]
  | _ => refuse .identifiersMissing

/-- Does what a request says. -/
def perform (around : Surroundings) : Request → Action Value
  | .list collection text => list around collection text
  | .get collection id => fetch around collection id
  | .create collection document => create around collection document
  | .createMany collection documents => createMany around collection documents
  | .update collection id fields => update around collection id fields
  | .delete collection id => delete around collection id
  | .deleteMany collection ids => deleteMany around collection ids

/-- Handles a request, with a new page for what happens. -/
def handle (around : Surroundings) (request : Request) : Action Value := do
  modify fun d => { d with events := [], current := none }
  perform around request

end Desk

end QueryPipeline.Crud
