import QueryPipeline.Constraint
import QueryPipeline.Log

/-!
The filter section: a list of conditions that all have to hold. A lenient reader leaves out what is
malformed, with a warning, and takes an unknown operator for a plain comparison; a strict one
refuses the first of either.
-/

namespace QueryPipeline

/-- A filter that was read. -/
structure Filter where
  conditions : List Condition

namespace Filter

/-- What the filter asks, field for field. -/
def constraints (f : Filter) : Constraints :=
  .ofConditions f.conditions

/-- The filter in the store's language. -/
def statement (f : Filter) : Document :=
  f.constraints.toFilter

/-- The list of conditions that reads as the same filter. -/
def toValue (f : Filter) : Value :=
  .list (f.conditions.map Condition.toValue)

/-- How a filter is read: for which collection, whose documents, and how strictly. -/
structure Rules where
  collection : String
  lenient : Bool
  own : Condition.Ownership

/-- The warning about an entry, or a whole section, that is left out. -/
def skipped (collection : String) (entry : Value) : LogEntry :=
  { level := .warning, origin := .filter
    text := "Skipping malformed condition for \"" ++ collection ++ "\": " ++ entry.shown }

/-- What becomes of one entry: its condition if it has one, the warnings about it, or the flaw that
a strict reader finds in it. -/
def readEntry (rules : Rules) (entry : Value) : Except Flaw (Option Condition × List LogEntry) :=
  match Condition.read rules.own entry with
  | .condition c => .ok (some c, [])
  | .unknownOperator c =>
    if rules.lenient then .ok (some c, [])
    else .error (.unsupportedOperator c.operator c.field)
  | .malformed flaw =>
    if rules.lenient then .ok (none, [skipped rules.collection entry])
    else .error (.condition flaw entry)

/-- Reads the entries of a filter, up to the first that is refused. -/
def readEntries (rules : Rules) : List Value → Except Flaw (List Condition × List LogEntry)
  | [] => .ok ([], [])
  | entry :: rest =>
    match readEntry rules entry with
    | .error flaw => .error flaw
    | .ok (c?, warnings) =>
      (readEntries rules rest).map fun (cs, more) => (c?.toList ++ cs, warnings ++ more)

/-- The filter of some conditions. There is none when one of them has no pattern to ask for. -/
def make (conditions : List Condition) : Except Fault Filter :=
  if conditions.all Condition.hasPattern then .ok { conditions } else .error (.misuse .tooManyDigits)

/-- Reads the filter section. Nothing, or anything that counts as nothing, asks nothing. -/
def read (rules : Rules) (part : Value) : Except Fault (Filter × List LogEntry) :=
  if !part.isTruthy then .ok ({ conditions := [] }, [])
  else
    match part with
    | .list entries =>
      match readEntries rules entries with
      | .error flaw => .error (.ofFlaw flaw)
      | .ok (conditions, warnings) => (make conditions).map fun filter => (filter, warnings)
    | part =>
      if rules.lenient then .ok ({ conditions := [] }, [skipped rules.collection part])
      else .error (.ofFlaw (.conditionsNotList part))

/-- The warnings of a reading that comes to nothing: all entries were looked at by then, unless one
was refused. -/
def warnings (rules : Rules) : Value → List LogEntry
  | .list entries => ((readEntries rules entries).toOption.map (·.2)).getD []
  | _ => []

end Filter

end QueryPipeline
