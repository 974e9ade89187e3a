import QueryPipeline.Log
import QueryPipeline.Store

/-!
A document store over a MongoDB client. Documents leave it without the database's own id, and the
client's errors leave it as failures of the store.
-/

namespace QueryPipeline.Mongo

/-- A call of the client: a method of a collection, with its arguments and its options. -/
structure ClientCall where
  method : String
  collection : String
  arguments : List Value
  options : Document

/-- What the client raises: one of its own errors, by its kind and its words, or something else. -/
inductive ClientError where
  | own (kind text : String)
  | other (reason : String)
deriving DecidableEq, Repr

/-- A client, by its answers to calls: the value of an operation, the documents of an aggregation
and what ends them early, the ids for the documents it is given, and into which of them it writes its
id. -/
structure Client where
  answer : ClientCall → Except ClientError Value
  documents : ClientCall → List Value × Option ClientError
  idOf : ClientCall → Nat → Value
  writes : ClientCall → Nat → Bool := fun _ _ => true

/-- Why an operation fails: the client's error as a failure of the store, or what is passed on. -/
inductive Failure where
  | store (failure : StoreFailure) (cause : ClientError)
  | passed (fault : Fault)

/-- A failure as a fault. -/
def Failure.toFault : Failure → Fault
  | .store failure _ => .store failure
  | .passed fault => fault

/-- Documents in memory. Whoever has the place of one can change it. -/
abbrev Memory := List Document

/-- An operation of the store: what the client was asked, what was logged, the result, and the memory
of the caller afterwards. -/
structure Exchange where
  sent : ClientCall
  log : List LogEntry
  result : Except Failure Value
  memory : Memory

/-! ## Connecting -/

/-- The options of a client: few connections, and no waiting for ever. Given ones come over them. -/
def clientOptions (given : Document) : Document :=
  Entries.merge [("maxPoolSize", .int 5), ("serverSelectionTimeoutMS", .int 5000),
    ("socketTimeoutMS", .int 10000), ("retryWrites", .bool true), ("retryReads", .bool true)] given

/-- The line that is logged when a client has been made for a database. -/
def connected (database : String) : LogEntry :=
  { level := .info, origin := .store
    text := "MongoDB client initialized for database \"" ++ database ++ "\"" }

/-- The line that is logged when the client is closed. -/
def closed : LogEntry :=
  { level := .info, origin := .store, text := "MongoDB client closed" }

/-! ## Operations -/

/-- The field of the database's own id. -/
def ownId : String := "_id"

/-- What an operation is called in its failures. -/
def operation : Call → String
  | .aggregate .. => "aggregate"
  | .count .. => "count"
  | .findOne .. => "find"
  | .insertOne .. | .insertMany .. => "insert"
  | .updateOne .. => "update"
  | .deleteOne .. | .deleteMany .. => "delete"

/-- The options of an operation that gives a document: without the database's own id. -/
def withoutOwnId : Document :=
  [("projection", .object [(ownId, .int 0)])]

/-- What the client is asked for an operation. -/
def clientCall : Call → ClientCall
  | .aggregate collection stages =>
    { method := "aggregate", collection, options := []
      arguments := [.list (stages.map Stage.toValue)] }
  | .count collection filter =>
    { method := "count_documents", collection, arguments := [.object filter], options := [] }
  | .findOne collection filter =>
    { method := "find_one", collection, arguments := [.object filter], options := withoutOwnId }
  | .insertOne collection document =>
    { method := "insert_one", collection, arguments := [.object document], options := [] }
  | .insertMany collection documents =>
    { method := "insert_many", collection, options := []
      arguments := [.list (documents.map .object)] }
  | .updateOne collection filter fields =>
    { method := "find_one_and_update", collection
      arguments := [.object filter, .object [("$set", .object fields)]]
      options := Entries.put withoutOwnId "return_document" (.bool true) }
  | .deleteOne collection filter =>
    { method := "find_one_and_delete", collection, arguments := [.object filter]
      options := withoutOwnId }
  | .deleteMany collection filter =>
    { method := "delete_many", collection, arguments := [.object filter], options := [] }

/-- A document without the database's own id. -/
def strip (document : Document) : Document :=
  Entries.without document [ownId]

/-- What a cursor gave, without the database's own id; a cursor may also give nothing. -/
def stripValue : Value → Except Failure Value
  | .object document => .ok (.object (strip document))
  | .null => .ok .null
  | .list _ => .error (.passed (.misuse .notMapping))
  | _ => .error (.passed (.misuse .notDocument))

/-- A document after the client has written an id into it. -/
def written (id : Value) (document : Document) : Document :=
  Entries.put document ownId id

/-- The client's error as this operation's failure. -/
def failureOf (call : Call) : ClientError → Failure
  | .own kind text =>
    .store { operation := operation call, collection := call.collection, cause := text }
      (.own kind text)
  | .other reason => .passed (.refused reason)

/-- The line that is logged for a client's error. -/
def logOf (call : Call) : ClientError → List LogEntry
  | .own _ text =>
    [{ level := .error, origin := .store
       text := "MongoDB failed to " ++ operation call ++ " on \"" ++ call.collection ++ "\": " ++
         text }]
  | .other _ => []

/-- The result of an operation that the client answers. -/
def answered (client : Client) (call : Call) (memory : Memory) : Exchange :=
  let sent := clientCall call
  match client.answer sent with
  | .ok v => { sent, log := [], result := .ok v, memory }
  | .error e => { sent, log := logOf call e, result := .error (failureOf call e), memory }

/-- The result of an aggregation: all its documents, unless it ends early. -/
def collected (client : Client) (call : Call) (memory : Memory) : Exchange :=
  let sent := clientCall call
  let (documents, early) := client.documents sent
  match documents.mapM stripValue, early with
  | .error failure, _ => { sent, log := [], result := .error failure, memory }
  | .ok documents, none => { sent, log := [], result := .ok (.list documents), memory }
  | .ok _, some e => { sent, log := logOf call e, result := .error (failureOf call e), memory }

/-! ## Insertions -/

namespace Memory

/-- The document at a place. -/
def read (memory : Memory) (place : Nat) : Document :=
  memory[place]?.getD []

/-- Changes the documents at the given places, one after another. -/
def change (memory : Memory) (places : List Nat) (f : Nat → Document → Document) : Memory :=
  places.zipIdx.foldl (fun memory entry => memory.modify entry.1 (f entry.2)) memory

theorem map_read_range (memory : Memory) : (List.range memory.length).map memory.read = memory := by
  apply List.ext_getElem
  · simp
  · intro i hi hi'
    simp [read, hi']

end Memory

/-- The documents that an operation inserts. -/
def inserts : Call → List Document
  | .insertOne _ document => [document]
  | .insertMany _ documents => documents
  | _ => []

/-- A call, with the places in the caller's memory where the documents are that it inserts. -/
structure Placed where
  call : Call
  memory : Memory
  places : List Nat
  here : places.map memory.read = inserts call

/-- A call with documents that nobody else has. -/
def Placed.ofCall (call : Call) : Placed where
  call
  memory := inserts call
  places := List.range (inserts call).length
  here := Memory.map_read_range _

/-- What the client does to the document of this number that it is given. -/
def Client.touch (client : Client) (sent : ClientCall) (i : Nat) (document : Document) : Document :=
  if client.writes sent i then written (client.idOf sent i) document else document

/-- The result of an insertion, made from the documents. The client is given copies of the caller's
documents, and these are given back without the ids that it wrote into them. -/
def inserted (client : Client) (placed : Placed) (give : List Document → Value) : Exchange :=
  let sent := clientCall placed.call
  let copies := List.range' placed.memory.length placed.places.length
  let memory := placed.memory ++ placed.places.map placed.memory.read
  let memory := Memory.change memory copies (client.touch sent)
  match client.answer sent with
  | .ok _ =>
    let memory := memory.change copies fun _ => strip
    { sent, log := [], result := .ok (give (copies.map memory.read)), memory }
  | .error e =>
    { sent, log := logOf placed.call e, result := .error (failureOf placed.call e), memory }

/-- Has the client do an operation for a caller with documents in memory. -/
def performIn (client : Client) (placed : Placed) : Exchange :=
  match placed.call with
  | .aggregate .. => collected client placed.call placed.memory
  | .insertOne .. => inserted client placed fun documents => .object (documents.headD [])
  | .insertMany .. => inserted client placed fun documents => .list (documents.map .object)
  | _ => answered client placed.call placed.memory

/-- Has the client do an operation. -/
def perform (client : Client) (call : Call) : Exchange :=
  performIn client (.ofCall call)

end QueryPipeline.Mongo
