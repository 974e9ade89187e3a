import QueryPipeline.Fault

/-!
The sort section: a sort object with a direction for each of its fields, or one field and its
direction. A sort object counts as a whole or not at all.
-/

namespace QueryPipeline

/-- The direction of a sort. -/
inductive Direction where
  | ascending
  | descending
deriving DecidableEq, Repr

/-- The store's number for a direction. -/
def Direction.sign : Direction → Int
  | .ascending => 1
  | .descending => -1

/-- What to sort by, the most significant first. The keys are the names of fields, unless the
settings name a default that is no text. -/
abbrev SortSpec := List (Value × Direction)

namespace Sorting

/-- The keys of a query object that make up the section. -/
def keys : List String :=
  ["orderByField", "orderDirection", "sortObject"]

/-- The directions that texts name, in lower case. -/
def directionNames : Entries String Direction :=
  [("1", .ascending), ("-1", .descending), ("asc", .ascending), ("ascending", .ascending),
    ("desc", .descending), ("descending", .descending)]

/-- The direction that a value names: one of the texts in any case of letters, or a number equal to
one or minus one. -/
def direction? : Value → Option Direction
  | .text s => directionNames.get? s.toLower
  | .bool _ => none
  | v =>
    if v.equalNumbers (.int 1) then some .ascending
    else if v.equalNumbers (.int (-1)) then some .descending
    else none

/-- How the section is read: what to sort by when it does not say, and how strictly. -/
structure Rules where
  defaultField : Value
  defaultDirection : Value
  lenient : Bool

/-- Reads the entries of a sort object; all of them name a direction, or the first that does not is
at fault. -/
def readEntries : Document → Except Fault SortSpec
  | [] => .ok []
  | (field, v) :: rest =>
    match direction? v with
    | none => .error (.ofFlaw (.sortDirection v field))
    | some d => (readEntries rest).map fun spec => (.text field, d) :: spec

/-- Reads a sort object. -/
def readObject : Value → Except Fault SortSpec
  | .object entries => readEntries entries
  | _ => .error (.invalid .sortObjectNotObject)

/-- The spec of a single key. Without a direction other than ascending it is descending. -/
def single (key direction : Value) : Except Fault SortSpec :=
  if key.isKey then
    .ok [(key, if direction = .text "asc" then .ascending else .descending)]
  else .error (.misuse .notKey)

/-- Reads a section without a sort object, or with one that leniency has passed over. -/
def readField (rules : Rules) (part : Document) : Except Fault SortSpec :=
  let given (key : String) : Value := (Entries.get? part key).getD .null
  let field := (given "orderByField").orElse rules.defaultField
  let direction := (given "orderDirection").orElse rules.defaultDirection
  match field with
  | .text _ => single field direction
  | _ =>
    if rules.lenient then single rules.defaultField direction
    else .error (.invalid .sortFieldNotText)

/-- Reads a section that is an object. Leniency passes over a flaw of its sort object, once there are
words for the flaw. -/
def readSection (rules : Rules) (part : Document) : Except Fault SortSpec :=
  let sortObject := (Entries.get? part "sortObject").getD .null
  if sortObject.isTruthy then
    match readObject sortObject with
    | .ok spec => .ok spec
    | .error (.invalid flaw) =>
      if rules.lenient then readField rules part else .error (.invalid flaw)
    | .error fault => .error fault
  else readField rules part

/-- Reads the sort section; null is the same as an empty one. -/
def read (rules : Rules) : Value → Except Fault SortSpec
  | .object part => readSection rules part
  | .null => readSection rules []
  | _ => if rules.lenient then readSection rules [] else .error (.invalid .sortNotObject)

end Sorting

end QueryPipeline
