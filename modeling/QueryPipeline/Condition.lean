import QueryPipeline.Fault
import QueryPipeline.Operator
import QueryPipeline.Value.Coerced

/-!
Conditions: one field, one operator and one value each. A condition on the field of the owner asks
for the owner's own documents, whatever the client wrote.
-/

namespace QueryPipeline

/-- A condition that was read. -/
structure Condition where
  field : String
  operator : String
  action : Action
  value : Value

namespace Condition

/-- The value as a condition of this action compares with it. -/
def prepare (action : Action) (v : Value) : Value :=
  if action.coerces then
    match action, v.coerced with
    | .member _, .list items => .list items
    | .member _, v => .list [v]
    | _, v => v
  else v

/-- The condition as messages show it. -/
def shown (c : Condition) : String :=
  c.field ++ " " ++ c.operator ++ " " ++ c.value.shown

/-- The condition as an object that reads as the same condition. -/
def toValue (c : Condition) : Value :=
  .object [("field", .text c.field), ("operator", .text c.operator), ("value", c.value)]

/-! ## Patterns -/

/-- The characters that mean something in a pattern. -/
def special : List Char :=
  "\t\n\x0b\x0c\r #$&()*+-.?[\\]^\x7b|\x7d~".toList

/-- The pattern that only this text matches. -/
def literally (cs : List Char) : List Char :=
  cs.flatMap fun c => if special.contains c then ['\\', c] else [c]

/-- The pattern for a text that holds the words of the value, if it has words. -/
def pattern? (v : Value) : Option String :=
  v.plain?.map fun words => ".*" ++ String.ofList (literally words.toList) ++ ".*"

/-- The pattern that a condition asks for with this value. -/
def containing (v : Value) : Value :=
  .text ((pattern? v).getD "")

/-- Whether there is the pattern that a condition asks for; most ask for none. -/
def hasPattern (c : Condition) : Bool :=
  c.action != .contain || (pattern? c.value).isSome

/-! ## Reading -/

/-- Whose documents a query is about: the field that names the owner of a document, and who asks. -/
structure Ownership where
  field : Value
  id : Value

/-- Whether a condition's field is the owner's. -/
def Ownership.claims (own : Ownership) (field : Value) : Bool :=
  own.field != .null && field.alike own.field

/-- What an entry of a filter turns out to be. With an unknown operator it is read as a plain
comparison, for those who want that. -/
inductive Reading where
  | condition (c : Condition)
  | unknownOperator (c : Condition)
  | malformed (flaw : ConditionFlaw)

/-- The condition with this operator, on a field that is not the owner's. -/
def ofOperator (field operator : String) (v : Value) : Reading :=
  match Action.ofName? operator with
  | some action => .condition { field, operator, action, value := prepare action v }
  | none => .unknownOperator { field, operator, action := .assign, value := prepare .assign v }

/-- The condition on the owner's field: the owner's id as it is, for every operator. -/
def ofOwner (own : Ownership) (field : String) : Condition :=
  { field, operator := "==", action := .assign, value := own.id }

/-- Reads an entry of a filter. -/
def read (own : Ownership) : Value → Reading
  | .object entries =>
    let field := (Entries.get? entries "field").getD .null
    let operator := (Entries.get? entries "operator").getD .null
    let forced := own.claims field
    let value? := if forced then some own.id else Entries.get? entries "value"
    if !field.isTruthy || !operator.isTruthy then .malformed .incomplete
    else
      match value?, field, operator with
      | none, _, _ => .malformed .incomplete
      | some v, .text field, .text operator =>
        if forced then .condition (ofOwner own field) else ofOperator field operator v
      | _, _, _ => .malformed .notText
  | _ => .malformed .notObject

end Condition

end QueryPipeline
