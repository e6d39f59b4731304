/-
# Floating numbers and their plain text

A floating number is a double, an infinity, or no number at all.  The plain text writes every
double in place with its fewest digits, of two equally near decimals the one farther from zero.
Reading takes an optional sign before digits with an optional point and exponent, or before a word
for an infinity or for no number; a decimal beyond the greatest double reads as an infinity.
-/
import AccessRules.Json.Read
import AccessRules.Text.Case

namespace AccessRules

/-- A double, an infinity, or no number. -/
inductive Floating where
  | finite (value : Double)
  | infinite (negative : Bool)
  | notANumber
  deriving DecidableEq

namespace Floating

/-! ## 1. Writing -/

/-- The plain text. -/
def text : Floating → String
  | finite d => String.ofList (DecimalStyle.plain.write d)
  | infinite negative => if negative then "-inf" else "inf"
  | notANumber => "NaN"

/-! ## 2. Reading -/

/-- The number that a word stands for, given its sign. -/
def ofWord? (negative : Bool) (word : String) : Option Floating :=
  if word = "inf" ∨ word = "infinity" then some (infinite negative)
  else if word = "nan" then some notANumber
  else none

/-- The digits after an optional point. -/
def fractionOf : List Char → List Char × List Char
  | '.' :: cs => Json.digitRun cs
  | cs => ([], cs)

/-- The exponent that makes up all of the given text; an empty text means zero. -/
def exponentOf? : List Char → Option Int
  | [] => some 0
  | c :: cs =>
    if c = 'e' ∨ c = 'E' then
      match Json.exponent? cs with
      | some (e, []) => some e
      | _ => none
    else none

/-- The number that a text without its sign stands for. -/
def ofUnsigned? (negative : Bool) (cs : List Char) : Option Floating :=
  let (whole, rest) := Json.digitRun cs
  let (fraction, rest) := fractionOf rest
  if whole.isEmpty && fraction.isEmpty then ofWord? negative (Text.lowerAscii (String.ofList cs))
  else
    (exponentOf? rest).map fun e =>
      match Double.ofDecimal? negative (Json.naturalOf (whole ++ fraction))
          (e - (fraction.length : Int)) with
      | some d => finite d
      | none => infinite negative

/-- The number that a text stands for. -/
def parse? (s : String) : Option Floating :=
  match s.toList with
  | '-' :: cs => ofUnsigned? true cs
  | '+' :: cs => ofUnsigned? false cs
  | cs => ofUnsigned? false cs

/-! ## 3. Conversions -/

/-- Whether the number is not zero; what is no number is not zero either. -/
def isNonzero : Floating → Bool
  | finite d => !d.isZero
  | _ => true

/-- The nearest natural number, a half going up, kept between zero and the bound. -/
def toCount (x : Floating) (bound : Nat) : Nat :=
  match x with
  | finite d => d.toCount bound
  | infinite negative => if negative then 0 else bound
  | notANumber => 0

end Floating

end AccessRules
