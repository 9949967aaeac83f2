import OptionDefaults.Numeric.Binary64

/-!
# From decimal digits to binary64

A decimal text is cut down to a significand that fits an unsigned 64-bit word and a power of ten;
the double is then reached by at most a few rounded multiplications or divisions by powers of ten.
This is a rule of its own and not correct rounding: each step rounds, so the last bit can differ
from the double nearest to the text.
-/

namespace OptionDefaults.Binary64

/-- The largest power of ten below the largest finite double is `10 ^ maxPower`. -/
def maxPower : Nat := 308

def powerOfTen (k : Nat) : Option Binary64 := ofNat (Nat.pow 10 k)

/-- Appends digits to a significand while it stays below the bound, and returns the digits left
out. -/
def appendDigits (bound : Nat) : Nat → List Nat → Nat × List Nat
  | significand, [] => (significand, [])
  | significand, d :: ds =>
    if significand * 10 + d < bound then appendDigits bound (significand * 10 + d) ds
    else (significand, d :: ds)

/-- `x / 10 ^ k`, in steps of `10 ^ maxPower` that stop at zero. -/
def divByPowerOfTen (x : Binary64) (k : Nat) : Option Binary64 :=
  if k ≤ maxPower then (powerOfTen k).bind x.div
  else if x.isZero then some x
  else ((powerOfTen maxPower).bind x.div).bind fun y => divByPowerOfTen y (k - maxPower)
termination_by k
decreasing_by simp_all [maxPower]; omega

/-- `x · 10 ^ k`; a power beyond `10 ^ maxPower` leaves only zero in range. -/
def mulByPowerOfTen (x : Binary64) (k : Nat) : Option Binary64 :=
  if k ≤ maxPower then (powerOfTen k).bind x.mul
  else if x.isZero then some x else none

/-- The double that `± significand · 10 ^ exponent` is read as; `none` when it is out of range. -/
def ofDecimal (negative : Bool) (significand : Nat) (exponent : Int) : Option Binary64 := do
  let x ← ofNat significand
  let y ← if exponent < 0 then divByPowerOfTen x exponent.natAbs
    else mulByPowerOfTen x exponent.natAbs
  return y.withSign negative

end OptionDefaults.Binary64
