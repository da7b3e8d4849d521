import RecordStore.Binary64

/-!
# RecordStore.Binary64.Shortest

The shortest decimal text of a floating-point number: the fewest digits that read back as the
number, of several candidates the nearest, and of two equally near ones the one whose last digit is
even.  It is positional from `0.0001` up to below `1e16`,
with `.0` after a whole number, and in exponent form outside, the exponent having a sign and at
least two digits.

    0.1   100.0   1234567890123456.0   1e+16   1.5e-05
-/

namespace RecordStore.Binary64

/-- A decimal: its digits, the first of them standing for `10 ^ scale`. -/
structure Decimal where
  digits : List Char
  scale : Int
deriving DecidableEq

/-- Whether `10 ^ t ≤ n / d`. -/
def reachesPower (n d : Nat) (t : Int) : Bool :=
  if t < 0 then d ≤ n * tenTo (-t).toNat else d * tenTo t.toNat ≤ n

/-- The largest power of ten not above `n / d`, given a guess that is off by one at most. -/
def scaleOf (n d : Nat) : Int :=
  let guess : Int := (((n.log2 : Int) - d.log2) * 30103).fdiv 100000
  if reachesPower n d (guess + 1) then guess + 1
  else if reachesPower n d guess then guess
  else guess - 1

/-- The multiples of one unit next to `a / b`, the nearer of them first; of two equally near ones
the even one is first. -/
def neighbours (a b : Nat) : Nat × Nat :=
  let below := a / b
  let twice := 2 * (a % b)
  if twice < b ∨ (twice = b ∧ below % 2 = 0) then (below, below + 1) else (below + 1, below)

/-- The numeral of `count` digits nearest to `n / d` among those that read back as `x`. -/
def candidate? (x : Binary64) (n d : Nat) (scale : Int) (count : Nat) : Option Decimal :=
  let grid : Int := scale - count + 1
  let (a, b) := if grid < 0 then (n * tenTo (-grid).toNat, d) else (n, d * tenTo grid.toNat)
  let reads (k : Nat) : Bool := ofDecimal false k grid == x
  let show? (k : Nat) : Option Decimal :=
    if reads k then
      let digits := Nat.toDigits 10 k
      some ⟨digits, grid + digits.length - 1⟩
    else
      none
  let (near, far) := neighbours a b
  show? near <|> show? far

/-- The shortest decimal of a positive number. -/
def shortest (mantissa : Nat) (exponent : Int) : Decimal :=
  let x := finite false mantissa exponent
  let (n, d) := if exponent < 0 then (mantissa, twoTo (-exponent).toNat)
    else (mantissa * twoTo exponent.toNat, 1)
  let scale := scaleOf n d
  ((List.range 17).findSome? fun i => candidate? x n d scale (i + 1)).getD ⟨['0'], 0⟩

/-- The digits of a decimal without zeros at the end. -/
def trimZeros (digits : List Char) : List Char :=
  match (digits.reverse.dropWhile (· == '0')).reverse with
  | [] => ['0']
  | kept => kept

/-- A decimal as text. -/
def Decimal.text (x : Decimal) : List Char :=
  let digits := trimZeros x.digits
  if x.scale < -4 ∨ 16 ≤ x.scale then
    let (head, tail) := (digits.take 1, digits.drop 1)
    let size := Nat.toDigits 10 x.scale.natAbs
    head ++ (if tail.isEmpty then [] else '.' :: tail) ++ ['e', if x.scale < 0 then '-' else '+']
      ++ List.replicate (2 - size.length) '0' ++ size
  else if x.scale < 0 then
    ['0', '.'] ++ List.replicate (x.scale.natAbs - 1) '0' ++ digits
  else
    let whole := x.scale.toNat + 1
    let fraction := digits.drop whole
    digits.take whole ++ List.replicate (whole - digits.length) '0' ++ ['.']
      ++ (if fraction.isEmpty then ['0'] else fraction)

/-- The spellings of the numbers that have no digits. -/
structure Spelling where
  nan : String
  infinity : String

/-- The shortest text of a number. -/
def text (spelling : Spelling) : Binary64 → List Char
  | nan => spelling.nan.toList
  | infinite s => (if s then ['-'] else []) ++ spelling.infinity.toList
  | finite s m e => (if s then ['-'] else []) ++
      if m = 0 then ['0', '.', '0'] else (shortest m e).text

end RecordStore.Binary64
