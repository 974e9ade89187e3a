import QueryPipeline.Condition

/-!
What the conditions of a filter ask of each field, folded in order: a value to be equal to, or tests
that must all hold.
-/

namespace QueryPipeline

/-- What is asked of a field. -/
inductive Constraint where
  | equals (v : Value)
  | tests (tests : Entries Test Value)

namespace Constraint

/-- The tests of a constraint; a bare value is a test for equality. -/
def toTests : Constraint → Entries Test Value
  | .equals v => [(.equal, v)]
  | .tests ts => ts

/-- The tests for a match of a pattern, whatever the case of its letters. -/
def matching (pattern : Value) : Constraint :=
  .tests [(.pattern, pattern), (.options, .text "i")]

/-- Adds a test to what is asked already. -/
def adding (t : Test) (v : Value) (current : Option Constraint) : Constraint :=
  .tests (Entries.put ((current.map toTests).getD []) t v)

/-- What is asked of a field after one more condition on it. -/
def after (c : Condition) (current : Option Constraint) : Constraint :=
  match c.action with
  | .equate =>
    match current with
    | some (.tests ts) => .tests (ts.put .equal c.value)
    | _ => .equals c.value
  | .test t | .member t => adding t c.value current
  | .assign => .equals c.value
  | .search => matching c.value
  | .contain => matching (Condition.containing c.value)

/-- The value that a field is compared with by plain equality. -/
def scalar? : Constraint → Option Value
  | .equals v => some v
  | .tests _ => none

/-- The constraint in the store's filter language. -/
def toValue : Constraint → Value
  | .equals v => v
  | .tests ts => .object (ts.map fun entry => (entry.1.key, entry.2))

end Constraint

/-- What a list of conditions asks, field for field. -/
abbrev Constraints := Entries String Constraint

namespace Constraints

/-- The constraints after one more condition. -/
def add (constraints : Constraints) (c : Condition) : Constraints :=
  Entries.put constraints c.field (Constraint.after c (Entries.get? constraints c.field))

/-- The constraints that conditions ask for, in order. -/
def ofConditions (conditions : List Condition) : Constraints :=
  conditions.foldl add []

/-- The constraints in the store's filter language. -/
def toFilter (constraints : Constraints) : Document :=
  constraints.map fun entry => (entry.1, entry.2.toValue)

/-- The value that the field is compared with by plain equality. -/
def scalar? (constraints : Constraints) (field : String) : Option Value :=
  (Entries.get? constraints field).bind Constraint.scalar?

end Constraints

end QueryPipeline
