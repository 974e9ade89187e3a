import QueryPipeline.Fault
import QueryPipeline.Number.Decimal
import QueryPipeline.Text.Blank

/-! The whole number at the front of a value, read the forgiving way. -/

namespace QueryPipeline

open Text

/-- The sign and the digits, of any script, at the front of a text after its white space. -/
def leadingDigits? (cs : List Char) : Option (Bool × List Char) :=
  let (negative, cs) := Decimal.takeSign (cs.dropWhile isBlank)
  match cs.takeWhile isDigit with
  | [] => none
  | digits => some (negative, digits)

/-- The whole number at the front of a text. More digits than the limit are a fault. -/
def leadingInteger (cs : List Char) : Except Fault (Option Int) :=
  match leadingDigits? cs with
  | none => .ok none
  | some (negative, digits) =>
    if digitLimit < digits.length then .error (.misuse .tooManyDigits)
    else
      let n : Int := ofDigits digit? digits
      .ok (some (if negative then -n else n))

/-- The whole number of a value: of a double its whole part, of a text the number at its front. -/
def Value.toInteger : Value → Except Fault (Option Int)
  | .int n => .ok (some n)
  | .float x => .ok x.truncate?
  | .text s => leadingInteger s.toList
  | _ => .ok none

end QueryPipeline
