import QueryPipeline.Fault
import QueryPipeline.Log

/-! Steps that may fail half-way: what they have done and logged until then remains. -/

namespace QueryPipeline

/-- What a step leaves behind: the new state, the lines it logged, and its result. -/
structure Outcome (σ α : Type) where
  state : σ
  log : List LogEntry := []
  result : Except Fault α

end QueryPipeline
