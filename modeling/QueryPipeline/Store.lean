import QueryPipeline.Fault
import QueryPipeline.Stage

/-! Document stores: what they are asked, and what they answer. -/

namespace QueryPipeline

/-- A call of a document store. -/
inductive Call where
  | aggregate (collection : String) (stages : List Stage)
  | count (collection : String) (filter : Document)
  | findOne (collection : String) (filter : Document)
  | insertOne (collection : String) (document : Document)
  | insertMany (collection : String) (documents : List Document)
  | updateOne (collection : String) (filter fields : Document)
  | deleteOne (collection : String) (filter : Document)
  | deleteMany (collection : String) (filter : Document)

/-- The collection that a call is about. -/
def Call.collection : Call → String
  | .aggregate collection _ | .count collection _ | .findOne collection _
  | .insertOne collection _ | .insertMany collection _ | .updateOne collection _ _
  | .deleteOne collection _ | .deleteMany collection _ => collection

/-- A document store: its answer to a call, after the calls before it. -/
abbrev Store := List Call → Call → Except Fault Value

end QueryPipeline
