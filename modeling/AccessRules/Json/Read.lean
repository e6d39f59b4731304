/-
# Reading JSON text

The reader takes one value with the white space around it and refuses a text with anything else.
A number without point and exponent is an integer if it fits into 64 bits, signed or unsigned; any
other number is a double, and `-0` is the negative zero.  A double is read in steps from the digits
that together fit into 64 bits, so it need not be the nearest.  Of two fields of one name the last
counts.
-/
import AccessRules.Decimal.Double
import AccessRules.Json.Value

namespace AccessRules.Json

/-! ## 1. Characters -/

/-- Whether a character may stand between tokens. -/
def isGap (c : Char) : Bool := c == ' ' || c == '\t' || c == '\n' || c == '\r'

/-- The text after the white space at its start. -/
def skipGap (cs : List Char) : List Char := cs.dropWhile isGap

/-- The value of a hexadecimal digit in either case. -/
def hexValue? (c : Char) : Option Nat :=
  if '0' ≤ c && c ≤ '9' then some (c.toNat - '0'.toNat)
  else if 'a' ≤ c && c ≤ 'f' then some (c.toNat - 'a'.toNat + 10)
  else if 'A' ≤ c && c ≤ 'F' then some (c.toNat - 'A'.toNat + 10)
  else none

/-- The number that four hexadecimal digits at the start of the text form. -/
def hexQuad? : List Char → Option (Nat × List Char)
  | a :: b :: c :: d :: rest =>
    match hexValue? a, hexValue? b, hexValue? c, hexValue? d with
    | some a, some b, some c, some d => some (((a * 16 + b) * 16 + c) * 16 + d, rest)
    | _, _, _, _ => none
  | _ => none

/-- The character of a code point that is one. -/
def charOf? (n : Nat) : Option Char := if n.isValidChar then some (Char.ofNat n) else none

/-- The character of a `\u` escape, which takes a second escape for a surrogate pair. -/
def unicodeEscape? (cs : List Char) : Option (Char × List Char) :=
  match hexQuad? cs with
  | none => none
  | some (high, rest) =>
    if 0xD800 ≤ high && high < 0xDC00 then
      match rest with
      | '\\' :: 'u' :: rest =>
        match hexQuad? rest with
        | some (low, rest) =>
          if 0xDC00 ≤ low && low < 0xE000 then
            (charOf? (0x10000 + (high - 0xD800) * 0x400 + (low - 0xDC00))).map (·, rest)
          else none
        | none => none
      | _ => none
    else (charOf? high).map (·, rest)

/-- The character of an escape, without its backslash. -/
def escaped? : List Char → Option (Char × List Char)
  | '"' :: rest => some ('"', rest)
  | '\\' :: rest => some ('\\', rest)
  | '/' :: rest => some ('/', rest)
  | 'b' :: rest => some ('\x08', rest)
  | 'f' :: rest => some ('\x0c', rest)
  | 'n' :: rest => some ('\n', rest)
  | 'r' :: rest => some ('\r', rest)
  | 't' :: rest => some ('\t', rest)
  | 'u' :: rest => unicodeEscape? rest
  | _ => none

/-- The rest of a string after its opening quote, with the characters so far in reverse. -/
def readString (fuel : Nat) (done : List Char) (cs : List Char) : Option (String × List Char) :=
  match fuel with
  | 0 => none
  | fuel + 1 =>
    match cs with
    | '"' :: rest => some (String.ofList done.reverse, rest)
    | '\\' :: rest =>
      match escaped? rest with
      | some (c, rest) => readString fuel (c :: done) rest
      | none => none
    | c :: rest => if c.toNat < 0x20 then none else readString fuel (c :: done) rest
    | [] => none

/-! ## 2. Numbers -/

/-- The number that decimal digits form. -/
def naturalOf (digits : List Char) : Nat :=
  digits.foldl (fun n c => n * 10 + (c.toNat - '0'.toNat)) 0

/-- The digits at the start of the text. -/
def digitRun (cs : List Char) : List Char × List Char :=
  (cs.takeWhile Char.isDigit, cs.dropWhile Char.isDigit)

/-- The digits of a double that are taken into account: a number, and the power of ten by which it
is to be moved. -/
structure Mantissa where
  digits : Nat
  exponent : Int

namespace Mantissa

/-- The greatest number that the digits may form. -/
def limit : Nat := Nat.pow 2 64 - 1

/-- The number with one more digit, while it keeps to the limit. -/
def digit? (n : Nat) (c : Char) : Option Nat :=
  let next := n * 10 + (c.toNat - '0'.toNat)
  if next ≤ limit then some next else none

/-- The digits before the point.  From the first that goes beyond the limit on, digits only
count. -/
def whole (n : Nat) : List Char → Mantissa
  | [] => ⟨n, 0⟩
  | c :: cs =>
    match digit? n c with
    | some next => whole next cs
    | none => ⟨n, cs.length + 1⟩

/-- The digits after the point, up to the first that goes beyond the limit. -/
def fraction (m : Mantissa) : List Char → Mantissa
  | [] => m
  | c :: cs =>
    match digit? m.digits c with
    | some next => fraction ⟨next, m.exponent - 1⟩ cs
    | none => m

/-- The double that digits and an exponent stand for. -/
def double? (m : Mantissa) (negative : Bool) (e : Int) : Option Json :=
  (Double.ofSteps? negative m.digits (m.exponent + e)).map .double

end Mantissa

/-- The integer of a number without point and exponent, or the double where it has none. -/
def ofWhole (negative : Bool) (digits : List Char) : Option Json :=
  let n := naturalOf digits
  let double := (Mantissa.whole 0 digits).double? negative 0
  if negative then
    if n = 0 then some (.double (.zero true))
    else if n ≤ Nat.pow 2 63 then some (.integer (-(n : Int)))
    else double
  else if n < Nat.pow 2 64 then some (.integer n)
  else double

/-- The sign and the digits of an exponent. -/
def exponent? (cs : List Char) : Option (Int × List Char) :=
  let (sign, cs) : Int × List Char :=
    match cs with
    | '-' :: rest => (-1, rest)
    | '+' :: rest => (1, rest)
    | _ => (1, cs)
  match digitRun cs with
  | ([], _) => none
  | (digits, rest) => some (sign * naturalOf digits, rest)

/-- The digits after a point; a point without digits is refused. -/
def fraction? : List Char → Option (List Char × List Char)
  | '.' :: rest =>
    match digitRun rest with
    | ([], _) => none
    | found => some found
  | cs => some ([], cs)

/-- Reads a number. -/
def readNumber (cs : List Char) : Option (Json × List Char) :=
  let (negative, cs) :=
    match cs with
    | '-' :: rest => (true, rest)
    | _ => (false, cs)
  match digitRun cs with
  | ([], _) => none
  | ('0' :: _ :: _, _) => none
  | (whole, rest) =>
    match fraction? rest with
    | none => none
    | some (fraction, rest) =>
      let decimal := ((Mantissa.whole 0 whole).fraction fraction).double? negative
      match rest with
      | 'e' :: rest => (exponent? rest).bind fun (e, rest) => (decimal e).map (·, rest)
      | 'E' :: rest => (exponent? rest).bind fun (e, rest) => (decimal e).map (·, rest)
      | _ =>
        if fraction.isEmpty then (ofWhole negative whole).map (·, rest)
        else (decimal 0).map (·, rest)

/-! ## 3. Values -/

/-- Reads a word that stands for a value. -/
def readWord (word : List Char) (value : Json) (cs : List Char) : Option (Json × List Char) :=
  if cs.take word.length = word then some (value, cs.drop word.length) else none

mutual

/-- Reads a value; `fuel` bounds the steps. -/
def readValue (fuel : Nat) (cs : List Char) : Option (Json × List Char) :=
  match fuel with
  | 0 => none
  | fuel + 1 =>
    match skipGap cs with
    | '{' :: rest =>
      match skipGap rest with
      | '}' :: rest => some (.object [], rest)
      | rest => readFields fuel .empty rest
    | '[' :: rest =>
      match skipGap rest with
      | ']' :: rest => some (.array [], rest)
      | rest => readItems fuel [] rest
    | '"' :: rest => (readString (rest.length + 1) [] rest).map fun (s, rest) => (.string s, rest)
    | 't' :: rest => readWord "rue".toList (.bool true) rest
    | 'f' :: rest => readWord "alse".toList (.bool false) rest
    | 'n' :: rest => readWord "ull".toList .null rest
    | rest => readNumber rest

/-- Reads the items of an array, with those so far in reverse. -/
def readItems (fuel : Nat) (done : List Json) (cs : List Char) : Option (Json × List Char) :=
  match fuel with
  | 0 => none
  | fuel + 1 =>
    match readValue fuel cs with
    | none => none
    | some (item, rest) =>
      match skipGap rest with
      | ',' :: rest => readItems fuel (item :: done) rest
      | ']' :: rest => some (.array (item :: done).reverse, rest)
      | _ => none

/-- Reads the fields of an object, with those so far. -/
def readFields (fuel : Nat) (done : SortedMap Json) (cs : List Char) :
    Option (Json × List Char) :=
  match fuel with
  | 0 => none
  | fuel + 1 =>
    match skipGap cs with
    | '"' :: rest =>
      match readString (rest.length + 1) [] rest with
      | none => none
      | some (name, rest) =>
        match skipGap rest with
        | ':' :: rest =>
          match readValue fuel rest with
          | none => none
          | some (value, rest) =>
            match skipGap rest with
            | ',' :: rest => readFields fuel (done.insert name value) rest
            | '}' :: rest => some (.ofMap (done.insert name value), rest)
            | _ => none
        | _ => none
    | _ => none

end

/-- Reads a whole text as one value. -/
def read? (s : String) : Option Json :=
  let cs := s.toList
  match readValue (cs.length + 1) cs with
  | some (value, rest) => if (skipGap rest).isEmpty then some value else none
  | none => none

end AccessRules.Json
