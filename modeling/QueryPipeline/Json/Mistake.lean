/-! What can be wrong with a JSON text, and where. -/

namespace QueryPipeline.Json

/-- What is wrong at some place of a text. -/
inductive Complaint where
  | noValue
  | noName
  | noColon
  | noComma
  | trailing
  | openText
  | controlCharacter
  | unknownEscape
  | brokenUnit
  | byteOrderMark
deriving DecidableEq, Repr

/-- The words for a complaint. -/
def Complaint.words : Complaint → String
  | .noValue => "Expecting value"
  | .noName => "Expecting property name enclosed in double quotes"
  | .noColon => "Expecting ':' delimiter"
  | .noComma => "Expecting ',' delimiter"
  | .trailing => "Extra data"
  | .openText => "Unterminated string starting at"
  | .controlCharacter => "Invalid control character at"
  | .unknownEscape => "Invalid \\escape"
  | .brokenUnit => "Invalid \\uXXXX escape"
  | .byteOrderMark => "Unexpected UTF-8 BOM (decode using utf-8-sig)"

/-- A reader's mistake: a complaint with the number of characters from its place to the end, or a
whole number with too many digits for the reader. -/
inductive Mistake where
  | found (complaint : Complaint) (left : Nat)
  | tooManyDigits (limit digits : Nat)
deriving DecidableEq, Repr

/-- A place in a text: the line and the column count from one, the offset from zero. -/
structure Place where
  line : Nat
  column : Nat
  offset : Nat
deriving DecidableEq, Repr

/-- The place after the given characters of a text. Only a line feed ends a line. -/
def Place.after (before : List Char) : Place :=
  { line := before.count '\n' + 1
    column := (before.reverse.takeWhile (· != '\n')).length + 1
    offset := before.length }

/-- The message for a mistake in the given text. -/
def Mistake.message (text : List Char) : Mistake → String
  | .found complaint left =>
    let place := Place.after (text.take (text.length - left))
    complaint.words ++ ": line " ++ toString place.line ++ " column " ++ toString place.column ++
      " (char " ++ toString place.offset ++ ")"
  | .tooManyDigits limit digits =>
    "Exceeds the limit (" ++ toString limit ++
      " digits) for integer string conversion: value has " ++ toString digits ++
      " digits; use sys.set_int_max_str_digits() to increase the limit"

end QueryPipeline.Json
