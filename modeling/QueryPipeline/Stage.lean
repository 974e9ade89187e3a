import QueryPipeline.Ledger
import QueryPipeline.Page
import QueryPipeline.Sorting

/-! The stages of a pipeline, and their form in the store's language. -/

namespace QueryPipeline

/-- A stage: what it does with the documents that reach it. -/
inductive Stage where
  /-- Keeps the documents that a filter holds of. -/
  | keep (filter : Document)
  /-- Sets a field to another one in cents, rounded. -/
  | toCents (target source : String)
  /-- Sets a field to the sum of another one over the documents of the same partition up to the
  document itself, in ascending order of some fields. -/
  | accumulate (partition : String) (order : List String) (target source : String)
  /-- Sets a field to another one, which is in cents, in units. -/
  | fromCents (target source : String)
  /-- Takes fields away. -/
  | drop (fields : List String)
  /-- Keeps one field alone. -/
  | pick (field : String)
  /-- Sorts the documents. -/
  | sort (spec : SortSpec)
  /-- Leaves out documents at the front. -/
  | skip (n : Int)
  /-- Leaves out documents after the first ones. -/
  | limit (n : Value)
  /-- Does what the client says, in the store's language. -/
  | given (stage : Value)

namespace Stage

/-- A reference to a field. -/
def reference (field : String) : Value :=
  .text ("$" ++ field)

/-- An object with one entry. -/
def object (key : String) (v : Value) : Value :=
  .object [(key, v)]

/-- The same number for each of some fields. -/
def each (fields : List String) (n : Int) : Value :=
  .object (Entries.ofList (fields.map fun field => (field, .int n)))

/-- A sort spec as an object. -/
def specObject (spec : SortSpec) : Value :=
  .object (Entries.ofList (spec.map fun (key, d) => ((key.keyText?).getD "", .int d.sign)))

/-- The stage in the store's language. -/
def toValue : Stage → Value
  | .keep filter => object "$match" (.object filter)
  | .toCents target source =>
    object "$addFields" (object target (object "$round"
      (.list [object "$multiply" (.list [reference source, .int 100]), .int 0])))
  | .accumulate partition order target source =>
    object "$setWindowFields" (.object [
      ("partitionBy", reference partition),
      ("sortBy", each order 1),
      ("output", object target (.object [
        ("$sum", reference source),
        ("window", object "documents" (.list [.text "unbounded", .text "current"]))]))])
  | .fromCents target source =>
    object "$addFields" (object target
      (object "$divide" (.list [reference source, .int 100])))
  | .drop fields => object "$project" (each fields 0)
  | .pick field => object "$project" (object field (.int 1))
  | .sort spec => object "$sort" (specObject spec)
  | .skip n => object "$skip" (.int n)
  | .limit n => object "$limit" n
  | .given stage => stage

end Stage

/-- The stages that compute the running balance of a ledger. -/
def Ledger.stages (l : Ledger) : List Stage :=
  [.toCents l.amountCents l.amount,
    .accumulate l.account [l.date, l.tiebreak] l.balanceCents l.amountCents,
    .fromCents l.balance l.balanceCents,
    .drop [l.amountCents, l.balanceCents]]

/-- The stages for a part of the documents; what leaves out nothing has no stage. -/
def Page.stages (p : Page) : List Stage :=
  (match p.skip with
    | some n => if n = 0 then [] else [.skip n]
    | none => []) ++
  (match p.limit with
    | some n => if n.isTruthy then [.limit n] else []
    | none => [])

/-- The stage for a sort, if there is anything to sort by. -/
def SortSpec.stages (spec : SortSpec) : List Stage :=
  if spec.isEmpty then [] else [.sort spec]

end QueryPipeline
