/-! What is worth a line in the log. -/

namespace QueryPipeline

/-- The weight of a log entry. -/
inductive Level where
  | info
  | warning
  | error
deriving DecidableEq, Repr

/-- The part of the library that a log entry comes from. -/
inductive Origin where
  | query
  | filter
  | registry
  | store
deriving DecidableEq, Repr

/-- A line of the log. -/
structure LogEntry where
  level : Level
  origin : Origin
  text : String
deriving DecidableEq, Repr

end QueryPipeline
