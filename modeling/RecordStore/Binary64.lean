/-!
# RecordStore.Binary64

Binary floating-point numbers of 64 bits, as exact values: a finite number is a sign, a mantissa and
a power of two.  Reading a decimal rounds to the nearest such number, a tie going to the even
mantissa; a decimal past the largest number gives an infinity.

Comparison is by value: the two zeros are equal, and no number equals a NaN.
This module depends only on the Lean 4 core library.
-/

namespace RecordStore

/-- A floating-point number; `finite s m e` stands for `m · 2 ^ e`, negated when `s` is true. -/
inductive Binary64 where
  | nan
  | infinite (negative : Bool)
  | finite (negative : Bool) (mantissa : Nat) (exponent : Int)
deriving DecidableEq, Inhabited

namespace Binary64

/-- The exponent of the smallest numbers. -/
def minExponent : Int := -1074

/-- The exponent of the largest numbers. -/
def maxExponent : Int := 971

/-- The zeros. -/
def zero (negative : Bool) : Binary64 := finite negative 0 minExponent

/-! ## Powers -/

/-- A power of two. -/
def twoTo (k : Nat) : Nat := Nat.pow 2 k

/-- A power of ten. -/
def tenTo (k : Nat) : Nat := Nat.pow 10 k

/-- The mantissas of 53 bits lie between this number and its double. -/
def leastMantissa : Nat := twoTo 52

/-- Signed integers of 64 bits are smaller than this. -/
def wordLimit : Nat := twoTo 63

/-! ## Rounding -/

/-- The fraction `n / d` divided by a power of two, again as a fraction. -/
def shiftFraction (n d : Nat) (e : Int) : Nat × Nat :=
  if e < 0 then (n * twoTo (-e).toNat, d) else (n, d * twoTo e.toNat)

/-- The nearest natural number to a fraction; a half goes to the even neighbour. -/
def roundFraction (n d : Nat) : Nat :=
  let q := n / d
  let r := n % d
  if 2 * r < d then q else if d < 2 * r then q + 1 else if q % 2 = 0 then q else q + 1

/-- The exponent at which the mantissa of `n / d` has 53 bits, or the smallest exponent. -/
def exponentOf (n d : Nat) : Int :=
  let guess : Int := (n.log2 : Int) - d.log2 - 52
  let (a, b) := shiftFraction n d guess
  max minExponent (if a / b < leastMantissa then guess - 1 else guess)

/-- The number nearest to the fraction `n / d`. -/
def ofFraction (negative : Bool) (n d : Nat) : Binary64 :=
  if n = 0 then
    zero negative
  else
    let e := exponentOf n d
    let (a, b) := shiftFraction n d e
    let m := roundFraction a b
    let (m, e) := if m = 2 * leastMantissa then (leastMantissa, e + 1) else (m, e)
    if maxExponent < e then infinite negative else finite negative m e

/-- The number nearest to a signed fraction. -/
def ofSigned (n : Int) (d : Nat) : Binary64 := ofFraction (n < 0) n.natAbs d

/-- The number nearest to `digits · 10 ^ exponent`.  Decimals far out of range are settled by their
order of magnitude, so that no huge power is computed. -/
def ofDecimal (negative : Bool) (digits : Nat) (exponent : Int) : Binary64 :=
  let magnitude : Int := (digits.log2 * 30103 / 100000 : Nat) + exponent
  if digits = 0 ∨ magnitude < -400 then
    zero negative
  else if 400 < magnitude then
    infinite negative
  else if exponent < 0 then
    ofFraction negative digits (tenTo (-exponent).toNat)
  else
    ofFraction negative (digits * tenTo exponent.toNat) 1

/-! ## Values -/

/-- A finite number as a signed fraction. -/
def fraction? : Binary64 → Option (Int × Nat)
  | finite s m e =>
    let (n, d) := if e < 0 then (m, twoTo (-e).toNat) else (m * twoTo e.toNat, 1)
    some (if s then -n else n, d)
  | _ => none

/-- Equality of values. -/
def sameValue (x y : Binary64) : Bool :=
  match x, y with
  | infinite s, infinite t => s == t
  | finite .., finite .. =>
    match x.fraction?, y.fraction? with
    | some (n, d), some (n', d') => n * d' == n' * d
    | _, _ => false
  | _, _ => false

/-- Equality with an integer. -/
def sameInt (x : Binary64) (k : Int) : Bool :=
  match x.fraction? with
  | some (n, d) => n == k * d
  | none => false

/-- The integer that a number is, if it is one. -/
def toInt? (x : Binary64) : Option Int :=
  match x.fraction? with
  | some (n, d) => if n % d = 0 then some (n / d) else none
  | none => none

/-- A finite number times an integer, rounded to the nearest number; other numbers stay. -/
def scaled (x : Binary64) (k : Int) : Binary64 :=
  match x.fraction? with
  | some (n, d) => ofSigned (n * k) d
  | none => x

/-- A finite number plus an integer, rounded to the nearest number; other numbers stay. -/
def shifted (x : Binary64) (k : Int) : Binary64 :=
  match x.fraction? with
  | some (n, d) => ofSigned (n + k * d) d
  | none => x

/-- Whether the number is one of the zeros. -/
def isZero : Binary64 → Bool
  | finite _ m _ => m == 0
  | _ => false

end Binary64

end RecordStore
