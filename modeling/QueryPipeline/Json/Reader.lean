import QueryPipeline.Json.Mistake
import QueryPipeline.Number.Decimal
import QueryPipeline.Value

/-!
Reading JSON texts. Beyond the standard, `NaN` and the infinities are numbers; of several members of
one name the last counts, in the place of the first.
-/

namespace QueryPipeline.Json

open Text

/-- What a reader takes off the front of a text, and the rest. -/
abbrev Reading (α : Type) := Except Mistake (α × List Char)

/-- The white space of JSON. -/
def isSpace (c : Char) : Bool :=
  c == ' ' || c == '\t' || c == '\n' || c == '\r'

/-- A text from its first character on that is not white space. -/
def skip (cs : List Char) : List Char :=
  cs.dropWhile isSpace

/-- The mistake of a complaint about the front of the rest of a text. -/
def complain {α : Type} (complaint : Complaint) (rest : List Char) : Reading α :=
  .error (.found complaint rest.length)

/-! ## Texts -/

/-- The value of a hexadecimal digit. -/
def hexValue? (c : Char) : Option Nat :=
  if '0' ≤ c ∧ c ≤ '9' then some (c.toNat - 48)
  else if 'a' ≤ c ∧ c ≤ 'f' then some (c.toNat - 87)
  else if 'A' ≤ c ∧ c ≤ 'F' then some (c.toNat - 55)
  else none

/-- The unit that four hexadecimal digits write. -/
def unit? (a b c d : Char) : Option Nat := do
  let a ← hexValue? a
  let b ← hexValue? b
  let c ← hexValue? c
  let d ← hexValue? d
  return ((a * 16 + b) * 16 + c) * 16 + d

/-- The character that a letter after a backslash writes. -/
def escapedCharacter? : Char → Option Char
  | '"' => some '"'
  | '\\' => some '\\'
  | '/' => some '/'
  | 'b' => some '\x08'
  | 'f' => some '\x0c'
  | 'n' => some '\n'
  | 'r' => some '\r'
  | 't' => some '\t'
  | _ => none

/-- Reads a text after its opening quotation mark, as code points and UTF-16 units. `opened` is what
was left of the whole at that mark. -/
def units (opened : Nat) : List Char → Reading (List Nat)
  | [] => .error (.found .openText opened)
  | '"' :: rest => .ok ([], rest)
  | ['\\'] => .error (.found .openText opened)
  | '\\' :: 'u' :: a :: b :: c :: d :: rest =>
    match unit? a b c d, rest with
    | some unit, _ :: _ => (units opened rest).map fun (us, rest) => (unit :: us, rest)
    | _, _ => complain .brokenUnit ('u' :: a :: b :: c :: d :: rest)
  | '\\' :: 'u' :: rest => complain .brokenUnit ('u' :: rest)
  | '\\' :: e :: rest =>
    match escapedCharacter? e with
    | some c => (units opened rest).map fun (us, rest) => (c.toNat :: us, rest)
    | none => complain .unknownEscape ('\\' :: e :: rest)
  | c :: rest =>
    if c.toNat ≤ 0x1F then complain .controlCharacter (c :: rest)
    else (units opened rest).map fun (us, rest) => (c.toNat :: us, rest)

/-- Whether a unit is the first half of a surrogate pair. -/
def isHigh (u : Nat) : Bool :=
  decide (0xD800 ≤ u) && decide (u < 0xDC00)

/-- Whether a unit is the second half of a surrogate pair. -/
def isLow (u : Nat) : Bool :=
  decide (0xDC00 ≤ u) && decide (u < 0xE000)

/-- The character of a code point; a half of a pair that stands alone is the replacement
character. -/
def character (u : Nat) : Char :=
  if isHigh u || isLow u then '\uFFFD' else Char.ofNat u

/-- Joins surrogate pairs. -/
def characters : List Nat → List Char
  | high :: low :: rest =>
    if isHigh high && isLow low then
      Char.ofNat (0x10000 + (high - 0xD800) * 0x400 + (low - 0xDC00)) :: characters rest
    else character high :: characters (low :: rest)
  | [u] => [character u]
  | [] => []

/-- Reads a text after its opening quotation mark. -/
def text (opened : Nat) (cs : List Char) : Reading String :=
  (units opened cs).map fun (us, rest) => (String.ofList (characters us), rest)

/-! ## Numbers and words -/

/-- The digits of the whole part of a number: a zero alone, or digits that begin with another. -/
def wholeDigits : List Char → Option (List Char × List Char)
  | '0' :: rest => some (['0'], rest)
  | cs =>
    match cs.takeWhile isAsciiDigit with
    | [] => none
    | digits => some (digits, cs.dropWhile isAsciiDigit)

/-- The digits after a point, unless there are none. -/
def fractionDigits : List Char → Option (List Char × List Char)
  | '.' :: cs =>
    match cs.takeWhile isAsciiDigit with
    | [] => none
    | digits => some (digits, cs.dropWhile isAsciiDigit)
  | _ => none

/-- The power of ten after a letter `e`, unless it has no digits. -/
def exponentDigits : List Char → Option (Int × List Char)
  | e :: cs =>
    if e = 'e' ∨ e = 'E' then
      let (negative, cs) := Decimal.takeSign cs
      match cs.takeWhile isAsciiDigit with
      | [] => none
      | digits =>
        let n : Int := ofDigits asciiDigit? digits
        some (if negative then -n else n, cs.dropWhile isAsciiDigit)
    else none
  | [] => none

/-- Reads a number: without fraction and power of ten a whole one, of at most `limit` digits. -/
def number (limit : Nat) (cs : List Char) : Reading Value :=
  let (negative, body) := match cs with
    | '-' :: rest => (true, rest)
    | cs => (false, cs)
  match wholeDigits body with
  | none => complain .noValue cs
  | some (whole, rest) =>
    let fraction? := fractionDigits rest
    let (fraction, rest) := fraction?.getD ([], rest)
    let exponent? := exponentDigits rest
    let (exponent, rest) := exponent?.getD (0, rest)
    if fraction?.isSome || exponent?.isSome then
      .ok (.float (Decimal.toDouble { negative, whole, fraction, exponent }), rest)
    else if limit < whole.length then .error (.tooManyDigits limit whole.length)
    else
      let n : Int := ofDigits asciiDigit? whole
      .ok (.int (if negative then -n else n), rest)

/-- The values that are written as words. -/
def words : List (List Char × Value) :=
  [("null".toList, .null), ("true".toList, .bool true), ("false".toList, .bool false),
    ("NaN".toList, .float .nan), ("Infinity".toList, .float (.infinite false)),
    ("-Infinity".toList, .float (.infinite true))]

/-- Reads a value that is written as a word. -/
def word? (cs : List Char) : Option (Value × List Char) :=
  words.findSome? fun (word, v) => (word.isPrefixOf? cs).map fun rest => (v, rest)

/-! ## Values -/

mutual
/-- Reads a value. Every level of nesting takes two steps off the first argument. -/
def value (limit : Nat) : Nat → List Char → Reading Value
  | 0, cs => complain .noValue cs
  | _ + 1, '"' :: rest => (text (rest.length + 1) rest).map fun (s, rest) => (.text s, rest)
  | steps + 1, '[' :: rest =>
    match skip rest with
    | ']' :: rest => .ok (.list [], rest)
    | rest => (items limit steps rest).map fun (vs, rest) => (.list vs, rest)
  | steps + 1, '\x7b' :: rest =>
    match skip rest with
    | '\x7d' :: rest => .ok (.object [], rest)
    | rest => (members limit steps rest).map fun (ms, rest) => (.object (Entries.ofList ms), rest)
  | _ + 1, cs =>
    match word? cs with
    | some read => .ok read
    | none => number limit cs

/-- Reads the items of a list up to its closing bracket. -/
def items (limit : Nat) : Nat → List Char → Reading (List Value)
  | 0, cs => complain .noValue cs
  | steps + 1, cs => (value limit steps cs).bind fun (v, rest) =>
    match skip rest with
    | ']' :: rest => .ok ([v], rest)
    | ',' :: rest => (items limit steps (skip rest)).map fun (vs, rest) => (v :: vs, rest)
    | rest => complain .noComma rest

/-- Reads the members of an object up to its closing brace. -/
def members (limit : Nat) : Nat → List Char → Reading (List (String × Value))
  | 0, cs => complain .noValue cs
  | steps + 1, '"' :: rest => (text (rest.length + 1) rest).bind fun (name, rest) =>
    match skip rest with
    | ':' :: rest => (value limit steps (skip rest)).bind fun (v, rest) =>
      match skip rest with
      | '\x7d' :: rest => .ok ([(name, v)], rest)
      | ',' :: rest =>
        (members limit steps (skip rest)).map fun (ms, rest) => ((name, v) :: ms, rest)
      | rest => complain .noComma rest
    | rest => complain .noColon rest
  | _ + 1, cs => complain .noName cs
end

/-- Reads a JSON text: one value, with white space around it. -/
def read (limit : Nat) (cs : List Char) : Except Mistake Value :=
  match cs with
  | '\uFEFF' :: _ => .error (.found .byteOrderMark cs.length)
  | cs => do
    let (v, rest) ← value limit (2 * cs.length + 2) (skip cs)
    match skip rest with
    | [] => .ok v
    | rest => .error (.found .trailing rest.length)

end QueryPipeline.Json
