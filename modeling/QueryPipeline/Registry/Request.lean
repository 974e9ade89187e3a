import QueryPipeline.Registry

/-! Requests to the registry of named queries, as clients send them. -/

namespace QueryPipeline.Registry

/-- The entry that the body of a request describes. -/
def entryOf (body : Value) : Except Flaw Entry :=
  match body with
  | .object fields =>
    let given (key : String) : Value := (Entries.get? fields key).getD .null
    .ok { name := given "name", collection := given "collectionName", pipeline := given "pipeline"
          description := given "description" }
  | _ => .error .namedQueryNotObject

/-- The parameters and the options in the body of a request. Nothing, or anything that counts as
nothing, is an empty body, and likewise for its parts. -/
def executionOf (body : Value) : Except Flaw (Document × Document) :=
  match body.orElse (.object []) with
  | .object fields =>
    let given (key : String) : Value :=
      ((Entries.get? fields key).getD .null).orElse (.object [])
    match given "params", given "options" with
    | .object params, .object options => .ok (params, options)
    | _, _ => .error .parametersNotObject
  | _ => .error .executionNotObject

/-- Registers what the body of a request describes. -/
def requestRegister (r : Registry) (body : Value) : Outcome Registry (NamedQuery × Bool) :=
  match entryOf body with
  | .error flaw => { state := r, result := .error (.invalid flaw) }
  | .ok entry => r.register entry

/-- Executes a named query as the body of a request says. -/
def requestExecute (r : Registry) (lenient : Bool) (store : Store) (name : String) (body : Value) :
    List Call × Except Fault Document :=
  match executionOf body with
  | .error flaw => ([], .error (.invalid flaw))
  | .ok (params, options) => r.execute lenient store name params options

end QueryPipeline.Registry
