import QueryPipeline.Number.Decimal
import QueryPipeline.Number.Shortest
import QueryPipeline.Text.Quoted
import QueryPipeline.Value

/-! Values as messages show them. A number of too many digits has no text, nor has what it is in. -/

namespace QueryPipeline.Value

/-- The digits of a whole number, unless there are too many of them. -/
def digits? (n : Int) : Option String :=
  if n.natAbs < Nat.pow 10 digitLimit then some (toString n) else none

mutual
/-- A value in a message: texts in quotation marks, collections in brackets. -/
def shown? : Value → Option String
  | .null => some "None"
  | .bool true => some "True"
  | .bool false => some "False"
  | .int n => digits? n
  | .float x => some x.toText
  | .text s => some (Text.quoted s)
  | .list items =>
    (shownItems? items).map fun texts => "[" ++ String.intercalate ", " texts ++ "]"
  | .object entries =>
    (shownEntries? entries).map fun texts => "\x7b" ++ String.intercalate ", " texts ++ "\x7d"
  | .time t => some t.shown

/-- The items of a list in a message. -/
def shownItems? : List Value → Option (List String)
  | [] => some []
  | v :: rest => (shown? v).bind fun text => (shownItems? rest).map (text :: ·)

/-- The entries of an object in a message. -/
def shownEntries? : List (String × Value) → Option (List String)
  | [] => some []
  | (k, v) :: rest =>
    (shown? v).bind fun text => (shownEntries? rest).map ((Text.quoted k ++ ": " ++ text) :: ·)
end

/-- A value as the words of a text: as messages show it, but a text without quotation marks and a
time as it is written. -/
def plain? : Value → Option String
  | .text s => some s
  | .time t => some (t.written " ")
  | v => v.shown?

/-- Whether messages can show a value. -/
def hasText (v : Value) : Bool :=
  v.shown?.isSome

/-- What messages show of a value that may have no text: nothing, if it has none. -/
def shown (v : Value) : String :=
  v.shown?.getD ""

/-- The words of a value that may have none. -/
def plain (v : Value) : String :=
  v.plain?.getD ""

/-- A value as the key of an object: a text is its own key, other values are spelled as in JSON.
Collections are no keys. -/
def keyText? : Value → Option String
  | .text s => some s
  | .null => some "null"
  | .bool true => some "true"
  | .bool false => some "false"
  | .int n => some (toString n)
  | .float x => some x.toText
  | .time t => some t.iso
  | .list _ | .object _ => none

end QueryPipeline.Value
