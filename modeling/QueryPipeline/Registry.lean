import QueryPipeline.Clock
import QueryPipeline.Outcome
import QueryPipeline.Store
import QueryPipeline.Template

/-!
The registry of named queries: pipelines with placeholders, stored under a name. The last to
register a name wins. Changes become final with a commit; a rollback takes back those since the last
one.
-/

namespace QueryPipeline

/-- A registered pipeline. -/
structure NamedQuery where
  name : String
  collection : String
  pipeline : List Value
  description : Option String
  createdAt : Instant
  updatedAt : Instant

namespace NamedQuery

/-- The named query as clients see it, but for its pipeline. -/
def summary (q : NamedQuery) : Document :=
  [("name", .text q.name), ("collectionName", .text q.collection),
    ("description", (q.description.map .text).getD .null),
    ("createdAt", .text q.createdAt.iso), ("updatedAt", .text q.updatedAt.iso)]

/-- The named query as clients see it. -/
def toDocument (q : NamedQuery) : Document :=
  q.summary.put "pipeline" (.list q.pipeline)

/-- The named query as messages show it. -/
def shown (q : NamedQuery) : String :=
  "<NamedQuery " ++ Text.quoted q.name ++ " on " ++ Text.quoted q.collection ++ ">"

end NamedQuery

/-- The named queries as they are and as of the last commit, and the clock that dates them. -/
structure Registry where
  current : Entries String NamedQuery := []
  committed : Entries String NamedQuery := []
  clock : Clock := {}

namespace Registry

/-- What somebody wants to register. -/
structure Entry where
  name : Value
  collection : Value
  pipeline : Value
  description : Value := .null

/-- What an entry has to be: a name, a collection, stages and perhaps a description. -/
structure Entry.Checked where
  name : String
  collection : String
  pipeline : List Value
  description : Option String

/-- A text with something in it. -/
def filled? : Value → Option String
  | .text s => if s = "" then none else some s
  | _ => none

/-- A list with something in it. -/
def nonempty? : Value → Option (List Value)
  | .list [] => none
  | .list items => some items
  | _ => none

/-- A text, or null for none; anything else is no description. -/
def description? : Value → Option (Option String)
  | .null => some none
  | .text s => some (some s)
  | _ => none

/-- Checks an entry. -/
def Entry.check (e : Entry) : Except Flaw Entry.Checked :=
  match filled? e.name with
  | none => .error .queryNameMissing
  | some name =>
    match filled? e.collection with
    | none => .error .queryCollectionMissing
    | some collection =>
      match nonempty? e.pipeline with
      | none => .error .pipelineNotList
      | some pipeline =>
        if pipeline.all (·.entries?.isSome) then
          match description? e.description with
          | none => .error .descriptionNotText
          | some description => .ok { name, collection, pipeline, description }
        else .error .stageNotObject

/-- The line that is logged when a named query has changed. -/
def changed (what : String) (q : NamedQuery) : LogEntry :=
  { level := .info, origin := .registry, text := "Named query " ++ what ++ ": " ++ q.shown }

/-- Registers an entry, and tells whether its name is new. A query that is there keeps the time of
its creation. -/
def register (r : Registry) (entry : Entry) : Outcome Registry (NamedQuery × Bool) :=
  match entry.check with
  | .error flaw => { state := r, result := .error (.invalid flaw) }
  | .ok e =>
    let clock := r.clock.tick
    let now := clock.time false
    let existing := Entries.get? r.current e.name
    let q : NamedQuery :=
      { name := e.name, collection := e.collection, pipeline := e.pipeline
        description := e.description
        createdAt := (existing.map (·.createdAt)).getD now, updatedAt := now }
    { state := { r with current := r.current.put e.name q, clock }
      log := [changed (if existing.isSome then "updated" else "created") q]
      result := .ok (q, existing.isNone) }

/-- The named query of this name. -/
def get (r : Registry) (name : String) : Except Fault NamedQuery :=
  match Entries.get? r.current name with
  | some q => .ok q
  | none => .error (.notFound (.namedQuery (.text name)))

/-- Deletes the named query of this name. -/
def delete (r : Registry) (name : String) : Outcome Registry NamedQuery :=
  match r.get name with
  | .error fault => { state := r, result := .error fault }
  | .ok q =>
    { state := { r with current := Entries.without r.current [name] }
      log := [changed "deleted" q]
      result := .ok q }

/-- All named queries, by name. -/
def list (r : Registry) : List NamedQuery :=
  (r.current.map (·.2)).mergeSort fun a b => decide (a.name ≤ b.name)

/-- Makes the changes final. -/
def commit (r : Registry) : Registry :=
  { r with committed := r.current }

/-- Takes back the changes since the last commit. -/
def rollback (r : Registry) : Registry :=
  { r with current := r.committed }

/-! ## Execution -/

/-- The stages that options ask for: those that are given and count as something. -/
def optionStages (options : Document) : List Value :=
  [("sort", "$sort"), ("skip", "$skip"), ("limit", "$limit")].filterMap fun (key, operator) =>
    let v := (Entries.get? options key).getD .null
    if v.isTruthy then some (Stage.object operator v) else none

/-- Pipelines in memory. Whoever has the place of one can change it. -/
abbrev Memory := List (List Value)

namespace Memory

/-- The pipeline at a place. -/
def read (memory : Memory) (place : Nat) : List Value :=
  memory[place]?.getD []

/-- Compiles the pipeline at a place. A copy is made of it; into this the parameters are written, and
at its end the stages that the options ask for. -/
def compile (memory : Memory) (place : Nat) (lenient : Bool) (params options : Document) :
    Memory × Except Fault (List Value) :=
  let copy := memory.length
  let memory : Memory := memory ++ [memory.read place]
  match Template.substituteItems lenient params (memory.read copy) with
  | .error fault => (memory, .error fault)
  | .ok stages =>
    let memory : Memory := memory.modify copy fun _ => stages
    let memory : Memory := memory.modify copy (· ++ optionStages options)
    (memory, .ok (memory.read copy))

end Memory

/-- The pipelines of the named queries. -/
def memory (r : Registry) : Memory :=
  r.current.map (·.2.pipeline)

/-- The registry with the pipelines that memory holds in the places of its own. -/
def withMemory (r : Registry) (memory : Memory) : Registry :=
  { r with current := r.current.mapIdx fun place entry =>
      (entry.1, { entry.2 with pipeline := memory.read place }) }

/-- Compiles a named query with these parameters and options. -/
def compiling (r : Registry) (lenient : Bool) (name : String) (params options : Document) :
    Outcome Registry (NamedQuery × List Value) :=
  match r.get name with
  | .error fault => { state := r, result := .error fault }
  | .ok q =>
    let place := (Entries.keys r.current).idxOf name
    let (memory, stages) := r.memory.compile place lenient params options
    { state := r.withMemory memory, result := stages.map fun stages => (q, stages) }

/-- The stages of a named query with these parameters and options. -/
def compile (r : Registry) (lenient : Bool) (name : String) (params options : Document) :
    Except Fault (NamedQuery × List Value) :=
  (r.compiling lenient name params options).result

/-- What an execution gives to the client. -/
def report (q : NamedQuery) (stages : List Value) (result : Value) : Document :=
  let total : Int := match result with
    | .list items => items.length
    | _ => 0
  [("result", result),
    ("metadata", .object [("total", .int total), ("executedPipeline", .list stages),
      ("queryName", .text q.name)])]

/-- Executes a named query; the calls of the store come with the result. -/
def execute (r : Registry) (lenient : Bool) (store : Store) (name : String)
    (params options : Document) : List Call × Except Fault Document :=
  match r.compile lenient name params options with
  | .error fault => ([], .error fault)
  | .ok (q, stages) =>
    let call := Call.aggregate q.collection (stages.map .given)
    ([call], (store [] call).map (report q stages))

end Registry

end QueryPipeline
