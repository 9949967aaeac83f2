/-!
# Finite binary64 numbers as exact data

A number is a sign, a mantissa `m` and an exponent `e`, standing for `± m · 2 ^ e`. The pair is kept
in the one form in which the format stores it, so two equal records are the same stored number, and
`0` and `-0` are two records. Arithmetic is exact on ratios of naturals and rounded once, to nearest
with ties to the even mantissa; a result past the largest finite number is `none`.
-/

namespace OptionDefaults

namespace Binary64

/-- The least mantissa of 53 bits. -/
def leastNormal : Nat := Nat.pow 2 52

/-- The first number beyond the mantissas. -/
def mantissaBound : Nat := Nat.pow 2 53

/-- The stored form: 53 significant bits, or fewer at the smallest exponent. -/
def Canonical (mantissa : Nat) (exponent : Int) : Prop :=
  (exponent = -1074 ∧ mantissa < mantissaBound) ∨
    (-1074 < exponent ∧ exponent ≤ 971 ∧ leastNormal ≤ mantissa ∧ mantissa < mantissaBound)

instance (mantissa : Nat) (exponent : Int) : Decidable (Canonical mantissa exponent) := by
  unfold Canonical; infer_instance

end Binary64

/-- A finite double `± mantissa · 2 ^ exponent`. -/
structure Binary64 where
  negative : Bool
  mantissa : Nat
  exponent : Int
  canonical : Binary64.Canonical mantissa exponent
deriving DecidableEq, Repr

namespace Binary64

def zero (negative : Bool) : Binary64 :=
  ⟨negative, 0, -1074, .inl ⟨rfl, by decide⟩⟩

instance : Inhabited Binary64 := ⟨zero false⟩

def isZero (x : Binary64) : Bool := x.mantissa == 0

/-- The size of the number is `numerator / denominator`. -/
def numerator (x : Binary64) : Nat := x.mantissa * Nat.pow 2 x.exponent.toNat

def denominator (x : Binary64) : Nat := Nat.pow 2 (-x.exponent).toNat

/-- The integer nearest to `num / den`; a half goes to the even neighbour. -/
def roundHalfEven (num den : Nat) : Nat :=
  let quotient := num / den
  let twice := 2 * (num % den)
  if twice < den ∨ (twice = den ∧ quotient % 2 = 0) then quotient else quotient + 1

/-- The exponent at which `num / den` has 53 bits before the point, or the smallest one there is. -/
def exponentFor (num den : Nat) : Int :=
  let guess : Int := (num.log2 : Int) - den.log2 - 52
  let exact :=
    if num * Nat.pow 2 (-guess).toNat < leastNormal * (den * Nat.pow 2 guess.toNat) then guess - 1
    else guess
  if exact < -1074 then -1074 else exact

/-- The double nearest to `± num / den`, a tie going to the even mantissa. -/
def ofRatio (negative : Bool) (num den : Nat) : Option Binary64 :=
  if num = 0 then some (zero negative) else
    let e := exponentFor num den
    let m := roundHalfEven (num * Nat.pow 2 (-e).toNat) (den * Nat.pow 2 e.toNat)
    -- Rounding up to the bound moves one binary place.
    let (m, e) := if m = mantissaBound then (leastNormal, e + 1) else (m, e)
    if h : Canonical m e then some ⟨negative, m, e, h⟩ else none

def ofNat (n : Nat) : Option Binary64 := ofRatio false n 1

/-- The double nearest to the exact product. -/
def mul (x y : Binary64) : Option Binary64 :=
  ofRatio (x.negative != y.negative)
    (x.numerator * y.numerator) (x.denominator * y.denominator)

/-- The double nearest to the exact quotient by a number other than zero. -/
def div (x y : Binary64) : Option Binary64 :=
  ofRatio (x.negative != y.negative)
    (x.numerator * y.denominator) (x.denominator * y.numerator)

def withSign (negative : Bool) (x : Binary64) : Binary64 := { x with negative }

/-- Equality as numbers: the sign of zero does not count. -/
def SameValue (x y : Binary64) : Prop := x = y ∨ (x.isZero ∧ y.isZero)

instance (x y : Binary64) : Decidable (SameValue x y) := by
  unfold SameValue; infer_instance

theorem SameValue.refl (x : Binary64) : SameValue x x := .inl rfl

theorem SameValue.symm {x y : Binary64} : SameValue x y → SameValue y x
  | .inl h => .inl h.symm
  | .inr ⟨hx, hy⟩ => .inr ⟨hy, hx⟩

theorem SameValue.trans {x y z : Binary64} : SameValue x y → SameValue y z → SameValue x z
  | .inl h, k => h ▸ k
  | h, .inl k => k ▸ h
  | .inr ⟨hx, _⟩, .inr ⟨_, hz⟩ => .inr ⟨hx, hz⟩

end Binary64

end OptionDefaults
