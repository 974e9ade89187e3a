import QueryPipeline.Number.Decimal
import QueryPipeline.Text.Blank
import QueryPipeline.Value

/-! Texts that stand for a number or a truth value, where a client has only texts at hand. -/

namespace QueryPipeline.Value

/-- The number that a text without white space around it writes, whole or finite. -/
def number? (cs : List Char) : Option Value :=
  match readInteger? cs with
  | some n => some (.int n)
  | none =>
    (Decimal.read? cs).bind fun x =>
      if x.toDouble.isFinite then some (.float x.toDouble) else none

/-- The value that a text stands for: a truth value, a number, or else the text itself. -/
def ofText (s : String) : Value :=
  if s = "true" then .bool true
  else if s = "false" then .bool false
  else (number? (Text.trim s.toList)).getD (.text s)

/-- Replaces a text by the value that it stands for; what lies inside collections is left alone. -/
def coerced : Value → Value
  | .text s => ofText s
  | v => v

end QueryPipeline.Value
