import QueryPipeline.Mongo

/-!
Operations of the store over a client. The client's own errors become failures of the store, whenever
they come, and other errors pass. Documents come back without the database's own id, and the caller's
stay as they are, whatever the client writes into those that it is given.
-/

namespace QueryPipeline.Mongo

/-! ## What the client does over a call -/

/-- What a cursor may give: a document, or nothing. -/
def IsRow : Value → Prop
  | .object _ | .null => True
  | _ => False

/-- A value, a document without its entry for the database's own id. -/
def bare : Value → Value
  | .object document => .object (document.filter (·.1 ≠ "_id"))
  | v => v

/-- What an operation other than an aggregation gives back: an insertion its documents, without the
entries for the database's own id. -/
def returned : Call → Value → Value
  | .insertOne _ document, _ => bare (.object document)
  | .insertMany _ documents, _ => .list (documents.map fun document => bare (.object document))
  | _, v => v

/-- How an operation ends: the client raises an error, a value is returned, or the client's cursor gives
something that is no document. -/
inductive Ending where
  | raised (e : ClientError)
  | returned (v : Value)
  | stumbled (fault : Fault)

/-- How operations end with a client. An aggregation goes through the documents of a cursor, and the error
that ends them early is met after all of them. -/
inductive Ends (client : Client) : Call → Ending → Prop where
  | raised {call e} (h : ∀ collection stages, call ≠ .aggregate collection stages) :
    client.answer (clientCall call) = .error e → Ends client call (.raised e)
  | returned {call v} (h : ∀ collection stages, call ≠ .aggregate collection stages) :
    client.answer (clientCall call) = .ok v → Ends client call (.returned (returned call v))
  | early {collection stages documents e} :
    client.documents (clientCall (.aggregate collection stages)) = (documents, some e) →
    (∀ v ∈ documents, IsRow v) → Ends client (.aggregate collection stages) (.raised e)
  | through {collection stages documents} :
    client.documents (clientCall (.aggregate collection stages)) = (documents, none) →
    (∀ v ∈ documents, IsRow v) →
    Ends client (.aggregate collection stages) (.returned (.list (documents.map bare)))
  | stumbled {collection stages before v rest early fault} :
    client.documents (clientCall (.aggregate collection stages)) = (before ++ v :: rest, early) →
    (∀ v ∈ before, IsRow v) → stripValue v = .error (.passed fault) →
    Ends client (.aggregate collection stages) (.stumbled fault)

/-! ## Cursors -/

variable {client : Client} {placed : Placed} {give : List Document → Value} {v : Value} {e : ClientError}

/-- What the result of an operation is, by its end. -/
def Ending.result (call : Call) : Ending → Except Failure Value
  | .raised e => .error (failureOf call e)
  | .returned v => .ok v
  | .stumbled fault => .error (.passed fault)

/-- What is logged of an operation, by its end. -/
def Ending.log (call : Call) : Ending → List LogEntry
  | .raised e => logOf call e
  | .returned _ | .stumbled _ => []

/-- The client raises an error of its own, in whatever way it comes to it. -/
def RaisesOwn (client : Client) (call : Call) : Prop :=
  ∃ kind text, Ends client call (.raised (.own kind text))

/-- What an operation makes of how it ends with the client. A failure of the store names the operation
and the collection and has the client's own error; it comes with one line in the log, of an error. What
else is raised passes. What is returned is the end's. The caller's documents stay in their places. -/
structure Faithful (client : Client) (placed : Placed) (exchange : Exchange) : Prop where
  fails : ∀ failure cause, exchange.result = .error (.store failure cause) ↔
    ∃ kind text, Ends client placed.call (.raised cause) ∧ cause = .own kind text ∧
      failure = { operation := operation placed.call, collection := placed.call.collection, cause := text }
  logs : (∃ line, exchange.log = [line] ∧ line.level = .error) ↔ RaisesOwn client placed.call
  silent : exchange.log = [] ↔ ¬ RaisesOwn client placed.call
  passes : ∀ fault, exchange.result = .error (.passed fault) ↔
    (∃ reason, Ends client placed.call (.raised (.other reason)) ∧ fault = .refused reason) ∨
      Ends client placed.call (.stumbled fault)
  returns : ∀ v, exchange.result = .ok v ↔ Ends client placed.call (.returned v)
  memory : placed.memory <+: exchange.memory

/-- One document is inserted twice. It stays without an id, and its copies lose theirs. -/
example :
    let document : Document := [("a", .int 1)]
    let client : Client := {
      answer := fun _ => .ok .null
      documents := fun _ => ([], none)
      idOf := fun _ i => .int i }
    let placed : Placed := {
      call := .insertMany "users" [document, document]
      memory := [document]
      places := [0, 0]
      here := rfl }
    (performIn client placed).memory = [document, document, document] :=
  rfl

end QueryPipeline.Mongo
