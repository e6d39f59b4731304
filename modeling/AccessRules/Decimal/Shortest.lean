/-
# The fewest digits that read back

Every decimal that lies between a double's two half-way points reads back as that double; the
half-way points themselves do so when the significand is even.  `Double.shortest` takes the
coarsest decimal grid on which such a decimal exists and on it the one nearest to the value.  The
value may lie in the middle between two of them; a `Tie` says which one is then taken.

A `DecimalStyle` holds what a format decides: how ties are broken, which exponents are written in
place, and whether a whole number keeps a point.
-/
import AccessRules.Decimal.Double

namespace AccessRules

/-! ## 1. Digits -/

/-- The decimal `digits · 10 ^ exponent`, without a final zero among its digits. -/
structure Decimal where
  digits : Nat
  exponent : Int
  deriving DecidableEq

namespace Decimal

/-- The exact value. -/
def value (d : Decimal) : Ratio := .scaled d.digits 10 d.exponent

/-- Drops final zeros, at most `fuel` of them. -/
def trimZeros (fuel : Nat) (d : Decimal) : Decimal :=
  match fuel with
  | 0 => d
  | fuel + 1 =>
    if d.digits ≠ 0 ∧ d.digits % 10 = 0 then trimZeros fuel ⟨d.digits / 10, d.exponent + 1⟩ else d

end Decimal

/-- Which of two decimals is taken that are equally near to a value. -/
inductive Tie where
  /-- The one with an even last digit. -/
  | toEven
  /-- The one farther from zero. -/
  | away
  deriving DecidableEq

/-- Whether the decimal nearer to zero is taken of a tie, given its digits. -/
def Tie.prefersLower : Tie → Nat → Bool
  | toEven, low => low % 2 == 0
  | away, _ => false

namespace Double

/-- The lower half-way point.  Below a full significand with no other bit the spacing is half
as wide. -/
def lower (d : Double) : Ratio :=
  let gap := if d.significand = Nat.pow 2 (precision - 1) ∧ leastExponent < d.exponent then 1 else 2
  .scaled (4 * d.significand - gap) 2 (d.exponent - 2)

/-- The upper half-way point. -/
def upper (d : Double) : Ratio := .scaled (4 * d.significand + 2) 2 (d.exponent - 2)

/-- Whether a decimal reads back as the size of the double. -/
def readsBack (d : Double) (x : Decimal) : Bool :=
  if d.significand % 2 = 0 then d.lower.le x.value && x.value.le d.upper
  else d.lower.lt x.value && x.value.lt d.upper

/-- Whether of the two grid points around the value the lower one is to be taken: it is nearer,
or as near and preferred. -/
def prefersLower (d : Double) (tie : Tie) (low : Nat) (exponent : Int) : Bool :=
  let twice := (Ratio.scaled 2 10 0).mul d.magnitude
  let middle := Ratio.scaled (2 * low + 1) 10 exponent
  twice.lt middle || (twice.le middle && tie.prefersLower low)

/-- The decimal to be taken on the grid of multiples of `10 ^ exponent`, if one reads back. -/
def onGrid? (d : Double) (tie : Tie) (exponent : Int) : Option Decimal :=
  let low := (d.magnitude.mul (.scaled 1 10 (-exponent))).floor
  let a : Decimal := ⟨low, exponent⟩
  let b : Decimal := ⟨low + 1, exponent⟩
  if d.readsBack a then
    if d.readsBack b && !d.prefersLower tie low exponent then some b else some a
  else if d.readsBack b then some b
  else none

/-- As many digits tell any two doubles apart. -/
def enoughDigits : Nat := 17

/-- The decimal that is exactly the size of the double. -/
def exact (d : Double) : Decimal :=
  if 0 ≤ d.exponent then ⟨d.significand * Nat.pow 2 d.exponent.toNat, 0⟩
  else ⟨d.significand * Nat.pow 5 (-d.exponent).toNat, d.exponent⟩

/-- The shortest decimal that reads back as the size of a double other than zero. -/
def shortest (d : Double) (tie : Tie) : Decimal :=
  let top := d.magnitude.log10
  match (List.range enoughDigits).findSome? fun (n : Nat) => d.onGrid? tie (top - (n : Int)) with
  | some x => x.trimZeros (enoughDigits + 1)
  | none => d.exact

end Double

/-! ## 2. Style -/

/-- How a format writes a number. -/
structure DecimalStyle where
  /-- Which of two equally near decimals is written. -/
  tie : Tie
  /-- Whether a number with this decimal exponent is written in place. -/
  inPlace : Int → Bool
  /-- Whether a whole number written in place ends in `.0`. -/
  keepsPoint : Bool

namespace DecimalStyle

/-- The decimal digits of a natural number. -/
def digitsOf (n : Nat) : List Char := Nat.toDigits 10 n

/-- An exponent with its sign. -/
def exponentText (k : Int) : List Char :=
  (if k < 0 then '-' else '+') :: digitsOf k.natAbs

/-- The digits with the point in its place. -/
def placed (style : DecimalStyle) (digits : List Char) (exponent : Int) : List Char :=
  let whole := exponent + (digits.length : Int)
  if 0 ≤ exponent then
    digits ++ List.replicate exponent.toNat '0' ++ if style.keepsPoint then ['.', '0'] else []
  else if 0 < whole then digits.take whole.toNat ++ '.' :: digits.drop whole.toNat
  else '0' :: '.' :: (List.replicate (-whole).toNat '0' ++ digits)

/-- The digits with the point after the first and the exponent behind. -/
def scientific (digits : List Char) (k : Int) : List Char :=
  match digits with
  | [] => []
  | [d] => d :: 'e' :: exponentText k
  | d :: ds => d :: '.' :: ds ++ 'e' :: exponentText k

/-- The text of a double. -/
def write (style : DecimalStyle) (d : Double) : List Char :=
  let sign := if d.negative then ['-'] else []
  if d.isZero then sign ++ style.placed ['0'] 0
  else
    let x := d.shortest style.tie
    let digits := digitsOf x.digits
    let k := x.exponent + (digits.length : Int) - 1
    sign ++ if style.inPlace k then style.placed digits x.exponent else scientific digits k

/-- Every number in place, whole numbers without a point; a tie goes away from zero. -/
def plain : DecimalStyle := ⟨.away, fun _ => true, false⟩

end DecimalStyle

end AccessRules
