import QueryPipeline.Entries

/-! The operators of conditions, and the tests of the document store that they stand for. -/

namespace QueryPipeline

/-- A test that the store makes on a field. `options` is no test of its own: it says how `pattern`
reads its argument. -/
inductive Test where
  | equal
  | notEqual
  | greater
  | greaterOrEqual
  | less
  | lessOrEqual
  | among
  | notAmong
  | present
  | pattern
  | options
deriving DecidableEq, Repr

/-- The store's name of a test. -/
def Test.key : Test → String
  | .equal => "$eq"
  | .notEqual => "$ne"
  | .greater => "$gt"
  | .greaterOrEqual => "$gte"
  | .less => "$lt"
  | .lessOrEqual => "$lte"
  | .among => "$in"
  | .notAmong => "$nin"
  | .present => "$exists"
  | .pattern => "$regex"
  | .options => "$options"

/-- What a condition does with the constraint on its field. -/
inductive Action where
  /-- Asks for a value, beside the tests that are there. -/
  | equate
  /-- Adds a test. -/
  | test (t : Test)
  /-- Adds a test against a list of values. -/
  | member (t : Test)
  /-- Asks for a value, whatever was there. -/
  | assign
  /-- Asks for a match of a pattern, whatever was there. -/
  | search
  /-- Asks for a text inside the field's, whatever was there. -/
  | contain
deriving DecidableEq, Repr

namespace Action

/-- The operators that conditions may use. -/
def table : Entries String Action :=
  [("==", .equate), ("!=", .test .notEqual), (">", .test .greater), (">=", .test .greaterOrEqual),
    ("<", .test .less), ("<=", .test .lessOrEqual), ("in", .member .among),
    ("nin", .member .notAmong), ("array-contains", .assign), ("array-contains-any", .member .among),
    ("exists", .test .present), ("regex", .search), ("like", .contain)]

/-- What the operator of this name does. -/
def ofName? (operator : String) : Option Action :=
  table.get? operator

/-- Whether the action reads a text as the value that it stands for. -/
def coerces : Action → Bool
  | .search | .contain => false
  | _ => true

/-- Whether the action does away with the constraint that was there. -/
def overwrites : Action → Bool
  | .assign | .search | .contain => true
  | _ => false

end Action

end QueryPipeline
