import OptionDefaults.Numeric.Binary64

/-!
# The fewest digits that read back

`Binary64.shortest` finds, for a double other than zero, the decimal number with the fewest digits
that lies between the midpoints to the neighbouring doubles, and of those with as few digits the
one nearest to the double. `DecimalLayout` says where positional notation ends; everything else
about the written form is fixed: at least one digit on either side of the point in positional
notation, and in exponent notation no trailing `.0`, a sign that is always written and no padding.
-/

namespace OptionDefaults

namespace Binary64

/-- The reals that round to a double, as numerators over one denominator. -/
structure RoundingRange where
  low : Nat
  middle : Nat
  high : Nat
  denominator : Nat
  endsIncluded : Bool

/-- Half the gap to either neighbour; the gap below a power of two is half as wide. The ends round
to the double itself exactly when its mantissa is even. -/
def roundingRange (x : Binary64) : RoundingRange :=
  let scale := Nat.pow 2 (x.exponent - 2).toNat
  let below := if x.mantissa = leastNormal ∧ -1074 < x.exponent then 1 else 2
  { low := (4 * x.mantissa - below) * scale
    middle := 4 * x.mantissa * scale
    high := (4 * x.mantissa + 2) * scale
    denominator := Nat.pow 2 (2 - x.exponent).toNat
    endsIncluded := x.mantissa % 2 == 0 }

/-- The decimal number `digits · 10 ^ power`. -/
structure Decimal where
  digits : Nat
  power : Int
deriving DecidableEq, Repr

namespace RoundingRange

/-- The number of digits of `n`, and none for zero. -/
def digitCount (n : Nat) : Nat := if n = 0 then 0 else (Nat.toDigits 10 n).length

/-- The decimal exponent of the leading digit of the middle. -/
def leadingExponent (r : RoundingRange) : Int :=
  if r.denominator ≤ r.middle then (digitCount (r.middle / r.denominator) : Int) - 1
  else -(digitCount ((r.denominator + r.middle - 1) / r.middle - 1) : Int)

/-- `d` and `middle` over a common denominator. -/
def onGrid (r : RoundingRange) (power : Int) (d : Nat) : Nat :=
  d * Nat.pow 10 power.toNat * r.denominator

def scaled (_r : RoundingRange) (power : Int) (n : Nat) : Nat := n * Nat.pow 10 (-power).toNat

/-- Whether `d · 10 ^ power` rounds to the double. -/
def contains (r : RoundingRange) (power : Int) (d : Nat) : Bool :=
  let here := r.onGrid power d
  let low := r.scaled power r.low
  let high := r.scaled power r.high
  if r.endsIncluded then low ≤ here && here ≤ high else low < here && here < high

/-- The point of the grid of `count` digits, the first of them at `10 ^ leading`, that is in the range
and nearest to the middle; of two equally near ones the even one. -/
def nearestOnGrid (r : RoundingRange) (leading : Int) (count : Nat) : Option Decimal :=
  let power := leading - (count - 1 : Nat)
  let middle := r.scaled power r.middle
  let d := middle / (Nat.pow 10 power.toNat * r.denominator)
  let belowGap := middle - r.onGrid power d
  let aboveGap := r.onGrid power (d + 1) - middle
  let belowFirst := belowGap < aboveGap || (belowGap == aboveGap && d % 2 == 0)
  match r.contains power d, r.contains power (d + 1) with
  | true, true => some ⟨if belowFirst then d else d + 1, power⟩
  | true, false => some ⟨d, power⟩
  | false, true => some ⟨d + 1, power⟩
  | false, false => none

end RoundingRange

/-- The decimal with the fewest digits, at most 17, that reads back as the double. -/
def shortest (x : Binary64) : Decimal :=
  let r := x.roundingRange
  let leading := r.leadingExponent
  ((List.range 17).findSome? fun n => r.nearestOnGrid leading (n + 1)).getD ⟨0, 0⟩

end Binary64

/-- The decimal exponents of the leading digit for which a number is written in positional
notation. -/
structure DecimalLayout where
  lowestPlain : Int
  highestPlain : Int
deriving DecidableEq, Repr

namespace DecimalLayout

def trimZeros (ds : List Char) : List Char := (ds.reverse.dropWhile (· == '0')).reverse

/-- Digits `ds`, the first of them at `10 ^ leading`, in positional notation. -/
def plain (ds : List Char) (leading : Int) : List Char :=
  if leading < 0 then
    '0' :: '.' :: (List.replicate (leading.natAbs - 1) '0' ++ ds)
  else
    let whole := leading.toNat + 1
    let fraction := ds.drop whole
    ds.take whole ++ List.replicate (whole - ds.length) '0' ++
      '.' :: (if fraction.isEmpty then ['0'] else fraction)

/-- Digits `ds`, the first of them at `10 ^ leading`, with an exponent. -/
def scientific (ds : List Char) (leading : Int) : List Char :=
  let sign := if leading < 0 then '-' else '+'
  ds.take 1 ++ (if ds.length ≤ 1 then [] else '.' :: ds.drop 1) ++
    'e' :: sign :: Nat.toDigits 10 leading.natAbs

def write (layout : DecimalLayout) (x : Binary64) : List Char :=
  let sign := if x.negative then ['-'] else []
  if x.isZero then sign ++ ['0', '.', '0'] else
    let shortest := x.shortest
    let written := Nat.toDigits 10 shortest.digits
    let leading := shortest.power + written.length - 1
    let ds := trimZeros written
    sign ++
      if layout.lowestPlain ≤ leading ∧ leading ≤ layout.highestPlain then plain ds leading
      else scientific ds leading

end DecimalLayout

end OptionDefaults
