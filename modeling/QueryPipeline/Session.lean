import QueryPipeline.Outcome
import QueryPipeline.Query

/-!
Sessions: several queries side by side, some of them copies of others. A copy starts without a
principal; it goes on with what the query it comes from has taken, and the ledger's scope stays with
the query that took it.
-/

namespace QueryPipeline

/-- A query of a session, and the query that took its query object. -/
structure Cell where
  query : Query
  source : Option Nat := none

/-- Queries by number. -/
structure Session where
  cells : List Cell := []

/-- A way to get at a query: itself, or a new copy of it at every access. -/
inductive Handle where
  | direct (id : Nat)
  | reusable (id : Nat)
deriving DecidableEq, Repr

namespace Session

/-- The query of this number. -/
def get? (s : Session) (id : Nat) : Option Query :=
  s.cells[id]?.map (·.query)

/-- The session with one more cell, and its number. -/
def add (s : Session) (cell : Cell) : Session × Nat :=
  ({ cells := s.cells ++ [cell] }, s.cells.length)

/-- A new query. -/
def start (s : Session) (compiler : Compiler) : Session × Nat :=
  s.add { query := { compiler } }

/-- Changes the cell of this number. -/
def modify (s : Session) (id : Nat) (f : Cell → Cell) : Session :=
  { cells := s.cells.modify id f }

/-- Changes a query, but not where it comes from. -/
def revise (s : Session) (id : Nat) (f : Query → Query) : Session :=
  s.modify id fun cell => { cell with query := f cell.query }

/-- Sets the principal of a query. -/
def setPrincipal (s : Session) (id : Nat) (principal : Option Principal) : Session :=
  s.revise id (·.withPrincipal principal)

/-- A copy of a query, without its principal. -/
def copy (s : Session) (id : Nat) : Session × Nat :=
  match s.cells[id]? with
  | some cell => s.add { cell with query := cell.query.withPrincipal none }
  | none => (s, id)

/-- The query that an access through a handle reaches. -/
def access (s : Session) : Handle → Session × Nat
  | .direct id => (s, id)
  | .reusable id => s.copy id

/-- The number of the query behind a handle. -/
def behind : Handle → Nat
  | .direct id | .reusable id => id

/-- What is behind a handle, as messages show it. -/
def shown (s : Session) (h : Handle) : String :=
  let text := ((s.get? (behind h)).map (·.shown)).getD ""
  match h with
  | .direct _ => text
  | .reusable _ => "Reusable(" ++ text ++ ")"

/-- Has a query take a query object. -/
def query (s : Session) (id : Nat) (object : Document) : Outcome Session Unit :=
  match s.get? id with
  | none => { state := s, result := .error (.misuse .noSuchQuery) }
  | some q =>
    match q.checkKeys object with
    | .error fault => { state := s, result := .error fault }
    | .ok warnings =>
      let (q, log, result) := q.take object
      { state := s.modify id fun _ => { query := q, source := some id }
        log := warnings ++ log
        result }

/-- The pipeline of a query, with the scope of the query that took its query object. -/
def pipeline (s : Session) (id : Nat) : Except Fault Pipeline :=
  match s.cells[id]? with
  | none => .error (.misuse .noSuchQuery)
  | some cell => cell.query.pipeline ((cell.source.bind s.get?).getD cell.query)

/-- Ends a query. One whose filter has no input yet takes an empty query object first. -/
def finish (s : Session) (id : Nat) : Outcome Session Pipeline :=
  if ((s.get? id).map (·.isReceived .filter)).getD false then
    { state := s, result := s.pipeline id }
  else
    let taken := s.query id []
    match taken.result with
    | .error fault => { taken with result := .error fault }
    | .ok () => { taken with result := taken.state.pipeline id }

end Session

end QueryPipeline
