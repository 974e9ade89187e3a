/-! The sections of a query, in the order in which their stages run. -/

namespace QueryPipeline

/-- A section of a query. The balance takes nothing from the query object; the others do. -/
inductive Section where
  | balance
  | filter
  | sort
  | limit
deriving DecidableEq, Repr

namespace Section

/-- The name of a section, in query objects and settings. -/
def name : Section → String
  | .balance => "balance"
  | .filter => "filter"
  | .sort => "sort"
  | .limit => "limit"

/-- All sections, in order. -/
def all : List Section :=
  [.balance, .filter, .sort, .limit]

end Section

end QueryPipeline
