import QueryPipeline.Filter
import QueryPipeline.Stage

/-! Pipelines: what a query is compiled to. -/

namespace QueryPipeline

/-- A compiled query: the stages, and the parts that a caller may need on their own. The filter for
counting is the filter within the scope of the ledger. -/
structure Pipeline where
  stages : List Stage
  filter : Document
  sort : SortSpec
  skip : Option Int
  limit : Option Value
  countFilter : Document

namespace Pipeline

/-- Where the page lies in a list of so many documents. -/
def metadata (p : Pipeline) (total : Value) : Document :=
  [("total", total), ("limit", (p.limit.getD .null).orElse total),
    ("offset", .int (p.skip.getD 0))]

end Pipeline

end QueryPipeline
