/-
# Doubles: the finite binary numbers of 53 bits

A `Double` is a sign and an exact value `significand · 2 ^ exponent`.  The pair is canonical: the
significand has exactly 53 bits, or fewer at the least exponent.  So each number has one
representation for each sign, and all arithmetic on it is arithmetic of natural numbers.

`Double.ofDecimal?` is the double nearest to a decimal, an exact half going to the even
neighbour; it has no value for a decimal beyond the greatest double.

A decimal can also be read in steps, with little work: its digits are rounded to a double, and that
is multiplied or divided by a power of ten, which is rounded itself.  Every step gives the nearest
double, yet the outcome of `Double.ofSteps?` may miss the double nearest to the decimal by a unit in
the last place.
-/

namespace AccessRules

/-! ## 1. Ratios -/

/-- A ratio of natural numbers.  Comparison multiplies crosswise, so nothing is rounded. -/
structure Ratio where
  num : Nat
  den : Nat
  deriving DecidableEq

namespace Ratio

/-- The ratio `m · base ^ k`. -/
def scaled (m base : Nat) (k : Int) : Ratio :=
  if 0 ≤ k then ⟨m * Nat.pow base k.toNat, 1⟩ else ⟨m, Nat.pow base (-k).toNat⟩

/-- The product of two ratios. -/
def mul (a b : Ratio) : Ratio := ⟨a.num * b.num, a.den * b.den⟩

/-- The inverse of a ratio. -/
def inverse (a : Ratio) : Ratio := ⟨a.den, a.num⟩

/-- Whether one ratio is at most another. -/
def le (a b : Ratio) : Bool := a.num * b.den ≤ b.num * a.den

/-- Whether one ratio is below another. -/
def lt (a b : Ratio) : Bool := a.num * b.den < b.num * a.den

/-- The greatest natural number not above the ratio. -/
def floor (a : Ratio) : Nat := a.num / a.den

/-- The natural number nearest to the ratio, an exact half going to the even one. -/
def roundEven (a : Ratio) : Nat :=
  let q := a.num / a.den
  let r := a.num % a.den
  if 2 * r < a.den then q
  else if a.den < 2 * r then q + 1
  else if q % 2 = 0 then q else q + 1

/-- The exponent `k` with `2 ^ k ≤ a < 2 ^ (k + 1)`, for a positive ratio. -/
def log2 (a : Ratio) : Int :=
  let k : Int := (a.num.log2 : Int) - (a.den.log2 : Int)
  if a.lt (scaled 1 2 k) then k - 1 else k

/-- The exponent `k` with `10 ^ k ≤ a < 10 ^ (k + 1)`, for a positive ratio.  The first guess is
off by at most one. -/
def log10 (a : Ratio) : Int :=
  let k := (a.log2 * 30103).fdiv 100000
  if a.lt (scaled 1 10 k) then k - 1
  else if (scaled 1 10 (k + 1)).le a then k + 1
  else k

end Ratio

/-! ## 2. Doubles -/

namespace Double

/-- The bits of a full significand. -/
def precision : Nat := 53

/-- The least exponent. -/
def leastExponent : Int := -1074

/-- The greatest exponent. -/
def greatestExponent : Int := 971

/-- Whether a significand and an exponent represent a value in the one permitted way. -/
def Canonical (significand : Nat) (exponent : Int) : Prop :=
  (exponent = leastExponent ∧ significand < Nat.pow 2 (precision - 1)) ∨
    (Nat.pow 2 (precision - 1) ≤ significand ∧ significand < Nat.pow 2 precision ∧
      leastExponent ≤ exponent ∧ exponent ≤ greatestExponent)

instance (s : Nat) (e : Int) : Decidable (Canonical s e) := by
  unfold Canonical; infer_instance

end Double

/-- A finite binary number of double precision. -/
structure Double where
  negative : Bool
  significand : Nat
  exponent : Int
  canonical : Double.Canonical significand exponent
  deriving DecidableEq

namespace Double

/-- Zero with either sign. -/
def zero (negative : Bool) : Double :=
  ⟨negative, 0, leastExponent, .inl ⟨rfl, by decide⟩⟩

instance : Inhabited Double := ⟨zero false⟩

/-- Whether the number is zero, of either sign. -/
def isZero (d : Double) : Bool := d.significand == 0

/-- Equality of values: the two zeros are equal. -/
def same (a b : Double) : Bool := decide (a = b) || (a.isZero && b.isZero)

/-- The size of the number. -/
def magnitude (d : Double) : Ratio := .scaled d.significand 2 d.exponent

/-- The double with the given parts, if they are canonical. -/
def mk? (negative : Bool) (significand : Nat) (exponent : Int) : Option Double :=
  if h : Canonical significand exponent then some ⟨negative, significand, exponent, h⟩ else none

/-- The double nearest to a ratio, an exact half going to the even significand. -/
def ofRatio? (negative : Bool) (a : Ratio) : Option Double :=
  if a.num = 0 then some (zero negative)
  else
    let e := max (a.log2 - ((precision - 1 : Nat) : Int)) leastExponent
    let s := (a.mul (.scaled 1 2 (-e))).roundEven
    if s = Nat.pow 2 precision then mk? negative (Nat.pow 2 (precision - 1)) (e + 1)
    else mk? negative s e

/-- No double is as great as ten to this power, and none but zero is as small as its inverse. -/
def decimalReach : Int := 400

/-- The double nearest to `m · 10 ^ e`. -/
def ofDecimal? (negative : Bool) (m : Nat) (e : Int) : Option Double :=
  if m = 0 then some (zero negative)
  else if decimalReach < e then none
  else if e + (m.log2 : Int) < -decimalReach then some (zero negative)
  else ofRatio? negative (.scaled m 10 e)

/-- The nearest natural number, a half going up, kept within the given bound; zero for numbers
below zero. -/
def toCount (d : Double) (bound : Nat) : Nat :=
  if d.negative then 0
  else min bound ((2 * d.magnitude.num + d.magnitude.den) / (2 * d.magnitude.den))

/-! ## 3. Decimals read in steps -/

/-- The greatest power of ten that is a double. -/
def greatestPower : Nat := 308

/-- The double nearest to a power of ten. -/
def powerOfTen (k : Nat) : Double := (ofRatio? false ⟨Nat.pow 10 k, 1⟩).getD default

/-- The double nearest to a product. -/
def times? (a b : Double) : Option Double := ofRatio? a.negative (a.magnitude.mul b.magnitude)

/-- The double nearest to a quotient; the divisor is positive. -/
def over? (a b : Double) : Option Double :=
  ofRatio? a.negative (a.magnitude.mul b.magnitude.inverse)

/-- Moves a double by a power of ten.  What lies too far down is first divided by the greatest
power, as often as it takes. -/
def shift? (d : Double) (e : Int) : Option Double :=
  if d.isZero then some d
  else if greatestPower < e then none
  else if 0 ≤ e then d.times? (powerOfTen e.toNat)
  else if -greatestPower ≤ e then d.over? (powerOfTen (-e).toNat)
  else (d.over? (powerOfTen greatestPower)).bind fun d => d.shift? (e + greatestPower)
termination_by (-e).toNat
decreasing_by
  simp only [greatestPower] at *
  omega

/-- The double that stands for `m · 10 ^ e` when it is read in steps. -/
def ofSteps? (negative : Bool) (m : Nat) (e : Int) : Option Double :=
  (ofRatio? negative ⟨m, 1⟩).bind (·.shift? e)

end Double

end AccessRules
