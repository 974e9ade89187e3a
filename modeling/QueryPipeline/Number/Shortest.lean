import QueryPipeline.Number.Double

/-!
The shortest decimal form of a double: the fewest digits that read back as the same double, and of
the decimals with that many digits the nearest one.
-/

namespace QueryPipeline

namespace Double

/-- An interval of positive rationals over one denominator, with or without its ends. -/
structure Interval where
  low : Nat
  high : Nat
  denominator : Nat
  closed : Bool

/-- Whether `n / d` lies in the interval. -/
def Interval.contains (i : Interval) (n d : Nat) : Bool :=
  let x := n * i.denominator
  let low := i.low * d
  let high := i.high * d
  if i.closed then decide (low ≤ x) && decide (x ≤ high)
  else decide (low < x) && decide (x < high)

/-- The rationals that round to `m * 2 ^ q`. They reach half way to both neighbours, the lower of
which is twice as near under a power of two; the ends belong to the even mantissa. -/
def readingBack (m : Nat) (q : Int) : Interval :=
  let nearBelow := m = Nat.pow 2 52 ∧ minExponent < q
  let low := if nearBelow then 4 * m - 1 else 4 * m - 2
  let up := Nat.pow 2 (q - 2).toNat
  { low := low * up
    high := (4 * m + 2) * up
    denominator := Nat.pow 2 (2 - q).toNat
    closed := m % 2 == 0 }

/-- The fraction `n / d` in units of `10 ^ k`, as a numerator and a denominator. -/
def inTens (n d : Nat) (k : Int) : Nat × Nat :=
  if 0 ≤ k then (n, d * Nat.pow 10 k.toNat) else (n * Nat.pow 10 (-k).toNat, d)

/-- The number `digits * 10 ^ k` as a numerator and a denominator. -/
def ofTens (digits : Nat) (k : Int) : Nat × Nat :=
  if 0 ≤ k then (digits * Nat.pow 10 k.toNat, 1) else (digits, Nat.pow 10 (-k).toNat)

/-- The grid point of step `10 ^ k` that reads back as the double with value `n / d`: of its two
neighbours on the grid the nearer one, of two that are equally near the even one. -/
def onGrid? (i : Interval) (n d : Nat) (k : Int) : Option Nat :=
  let scaled := inTens n d k
  let below := scaled.1 / scaled.2
  let nearest := roundDiv scaled.1 scaled.2
  let other := if nearest = below then below + 1 else below
  [nearest, other].find? fun digits =>
    let point := ofTens digits k
    decide (0 < digits) && i.contains point.1 point.2

/-- The power of ten of the first digit of `n / d`. -/
def leadingPower (n d : Nat) : Int :=
  let estimate : Int := (((n.log2 : Int) - (d.log2 : Int)) * 30103) / 100000
  let atLeast (k : Int) : Bool :=
    let point := ofTens 1 k
    decide (point.1 * d ≤ n * point.2)
  if atLeast (estimate + 1) then estimate + 1
  else if atLeast estimate then estimate
  else estimate - 1

/-- Tries grids of more and more digits; seventeen digits are enough for every double. -/
def searchGrids (i : Interval) (n d : Nat) : Nat → Int → Nat × Int
  | 0, k => (roundDiv (inTens n d k).1 (inTens n d k).2, k)
  | more + 1, k =>
    match onGrid? i n d k with
    | some digits => (digits, k)
    | none => searchGrids i n d more (k - 1)

/-- The digits and the power of ten of the shortest decimal for `m * 2 ^ q`, with `m` positive. -/
def shortest (m : Nat) (q : Int) : Nat × Int :=
  let n := m * Nat.pow 2 q.toNat
  let d := Nat.pow 2 (-q).toNat
  searchGrids (readingBack m q) n d 16 (leadingPower n d)

/-! ## Writing -/

/-- How a decimal is written: powers of ten from `least` up to and without `most` positionally, any
other with an exponent of at least `exponentDigits` digits. -/
structure Form where
  least : Int
  most : Int
  exponentDigits : Nat

/-- Numbers in messages and answers are positional from `0.0001` on and below `10 ^ 16`. -/
def Form.standard : Form :=
  { least := -4, most := 16, exponentDigits := 2 }

/-- A number of `width` digits at least, zeros filling up its front. -/
def padded (width n : Nat) : String :=
  let digits := Nat.repr n
  String.ofList (List.replicate (width - digits.length) '0') ++ digits

/-- Digits without the zeros at their end, but never empty. -/
def withoutZeros (digits : List Char) : List Char :=
  match (digits.reverse.dropWhile (· == '0')).reverse with
  | [] => ['0']
  | kept => kept

/-- Writes `digits * 10 ^ k`. -/
def Form.write (form : Form) (digits : Nat) (k : Int) : String :=
  let cs := (Nat.repr digits).toList
  let power : Int := cs.length - 1 + k
  if form.least ≤ power ∧ power < form.most then
    if power < 0 then
      "0." ++ String.ofList (List.replicate (-power - 1).toNat '0' ++ withoutZeros cs)
    else
      let width := power.toNat + 1
      let filled := cs ++ List.replicate (width - cs.length) '0'
      String.ofList (filled.take width) ++ "." ++ String.ofList (withoutZeros (filled.drop width))
  else
    let mantissa := match cs with
      | first :: rest =>
        match withoutZeros rest with
        | ['0'] => String.ofList [first]
        | kept => String.ofList (first :: '.' :: kept)
      | [] => ""
    let sign := if power < 0 then "-" else "+"
    mantissa ++ "e" ++ sign ++ padded form.exponentDigits power.natAbs

/-- The written form of a double. -/
def write (x : Double) (form : Form) : String :=
  match x with
  | .nan => "nan"
  | .infinite negative => if negative then "-inf" else "inf"
  | .finite negative m q =>
    let sign := if negative then "-" else ""
    if m = 0 then sign ++ "0.0"
    else
      let (digits, k) := shortest m q
      sign ++ form.write digits k

/-- The standard written form of a double. -/
def toText (x : Double) : String :=
  x.write .standard

end Double

end QueryPipeline
