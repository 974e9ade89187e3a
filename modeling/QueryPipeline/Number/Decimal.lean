import QueryPipeline.Number.Double
import QueryPipeline.Text.Digit

/-!
Decimal numerals in ASCII: whole numbers with a sign, and numbers with a fraction and a power of ten.
-/

namespace QueryPipeline

open Text

/-- A decimal numeral: the digits before and after its point, and its power of ten. -/
structure Decimal where
  negative : Bool
  whole : List Char
  fraction : List Char
  exponent : Int

namespace Decimal

/-- The digits of the numeral, as one whole number. -/
def significand (x : Decimal) : Nat :=
  ofDigits asciiDigit? (x.whole ++ x.fraction)

/-- The power of ten that the last digit counts. -/
def scale (x : Decimal) : Int :=
  x.exponent - x.fraction.length

/-- The numeral is at least ten to this power, unless it is zero. -/
def magnitude (x : Decimal) : Int :=
  ((x.whole ++ x.fraction).dropWhile (· == '0')).length + x.scale - 1

/-- The double nearest to the numeral. Magnitudes far outside the range of doubles are settled
without computing their powers of ten. -/
def toDouble (x : Decimal) : Double :=
  if x.significand = 0 then .zero x.negative
  else if 310 ≤ x.magnitude then .infinite x.negative
  else if x.magnitude ≤ -326 then .zero x.negative
  else if 0 ≤ x.scale then .ofRatio x.negative (x.significand * Nat.pow 10 x.scale.toNat) 1
  else .ofRatio x.negative x.significand (Nat.pow 10 (-x.scale).toNat)

/-- Takes a sign off the front of a text; no sign counts as plus. -/
def takeSign : List Char → Bool × List Char
  | '-' :: rest => (true, rest)
  | '+' :: rest => (false, rest)
  | cs => (false, cs)

/-- The power of ten after the digits: nothing, or a letter `e`, a sign and digits up to the end. -/
def readExponent? : List Char → Option Int
  | [] => some 0
  | e :: rest =>
    if e = 'e' ∨ e = 'E' then
      let (negative, digits) := takeSign rest
      if digits ≠ [] ∧ digits.all isAsciiDigit then
        let n : Int := ofDigits asciiDigit? digits
        some (if negative then -n else n)
      else none
    else none

/-- Reads a numeral that fills the whole text: a sign, digits with at most one point among or around
them, and a power of ten. -/
def read? (cs : List Char) : Option Decimal :=
  let (negative, cs) := takeSign cs
  let whole := cs.takeWhile isAsciiDigit
  let (fraction, rest) := match cs.dropWhile isAsciiDigit with
    | '.' :: rest => (rest.takeWhile isAsciiDigit, rest.dropWhile isAsciiDigit)
    | rest => ([], rest)
  if whole.isEmpty && fraction.isEmpty then none
  else (readExponent? rest).map fun exponent => { negative, whole, fraction, exponent }

end Decimal

/-- Whole numbers of more digits than this are neither read, leading zeros counted, nor written. -/
def digitLimit : Nat := 4300

/-- Reads a whole number that fills the whole text: a sign and ASCII digits, not too many. -/
def readInteger? (cs : List Char) : Option Int :=
  let (negative, digits) := Decimal.takeSign cs
  if digits ≠ [] ∧ digits.all isAsciiDigit ∧ digits.length ≤ digitLimit then
    let n : Int := ofDigits asciiDigit? digits
    some (if negative then -n else n)
  else none

end QueryPipeline
