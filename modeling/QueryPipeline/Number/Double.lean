/-!
Double-precision numbers, exactly: a finite one is a sign, a mantissa below 2^53 and a power of two.
Every rational has a nearest double, ties going to the even mantissa.
-/

namespace QueryPipeline

/-- A double: `finite negative m q` stands for `m * 2 ^ q` with the given sign, so there are two
zeros. -/
inductive Double where
  | finite (negative : Bool) (mantissa : Nat) (exponent : Int)
  | infinite (negative : Bool)
  | nan
deriving DecidableEq, Repr

namespace Double

/-- The exponent of the smallest doubles. -/
def minExponent : Int := -1074

/-- The exponent of the largest doubles. -/
def maxExponent : Int := 971

/-- Mantissas are below this number. -/
def mantissaBound : Nat := Nat.pow 2 53

/-- The zero of a sign. -/
def zero (negative : Bool) : Double :=
  .finite negative 0 minExponent

/-- The whole number nearest to `n / d`; of two that are equally near, the even one. -/
def roundDiv (n d : Nat) : Nat :=
  let below := n / d
  let twice := 2 * (n % d)
  if twice < d then below
  else if d < twice then below + 1
  else if below % 2 = 0 then below else below + 1

/-- The fraction `n / d` in units of `2 ^ q`, as a numerator and a denominator. -/
def inUnits (n d : Nat) (q : Int) : Nat × Nat :=
  if 0 ≤ q then (n, d * Nat.pow 2 q.toNat) else (n * Nat.pow 2 (-q).toNat, d)

/-- The exponent at which the mantissa of `n / d` fills its 53 bits, or the least exponent. -/
def exponentOf (n d : Nat) : Int :=
  let q : Int := (n.log2 : Int) - (d.log2 : Int) - 53
  let scaled := inUnits n d q
  max minExponent (if mantissaBound ≤ scaled.1 / scaled.2 then q + 1 else q)

/-- The double nearest to `n / d` for a positive `d`; beyond the largest one, infinity. -/
def ofRatio (negative : Bool) (n d : Nat) : Double :=
  if n = 0 then .zero negative
  else
    let q := exponentOf n d
    let scaled := inUnits n d q
    let m := roundDiv scaled.1 scaled.2
    let (m, q) := if m = mantissaBound then (Nat.pow 2 52, q + 1) else (m, q)
    if maxExponent < q then .infinite negative else .finite negative m q

/-- A finite double as a fraction. -/
def ratio? : Double → Option (Int × Nat)
  | .finite negative m q =>
    let n : Int := if 0 ≤ q then (m * Nat.pow 2 q.toNat : Nat) else m
    let d : Nat := if 0 ≤ q then 1 else Nat.pow 2 (-q).toNat
    some (if negative then -n else n, d)
  | _ => none

/-- Whether the double is a number with a value, and not an infinity or NaN. -/
def isFinite : Double → Bool
  | .finite .. => true
  | _ => false

/-- Whether the double is one of the two zeros. -/
def isZero : Double → Bool
  | .finite _ m _ => m == 0
  | _ => false

/-- The whole part of a finite double. -/
def truncate? (x : Double) : Option Int :=
  x.ratio?.map fun (n, d) => n.tdiv d

end Double

end QueryPipeline
