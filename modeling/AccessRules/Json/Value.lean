/-
# JSON values and their compact text

A number is an integer or a double, and the two never are the same value.  The fields of an
object ascend strictly by name in every value that the reader makes.

The compact text has no blanks.  A string is escaped only where it must be: the quote, the
backslash and the control characters below the blank.  So two values with the same text differ
at most in the sign of a zero.
-/
import AccessRules.Data.SortedMap
import AccessRules.Decimal.Shortest

namespace AccessRules

/-- A JSON value. -/
inductive Json where
  | null
  | bool (value : Bool)
  | integer (value : Int)
  | double (value : Double)
  | string (value : String)
  | array (items : List Json)
  | object (fields : List (String × Json))
  deriving Inhabited

namespace Json

/-! ## 1. Equality -/

mutual

/-- Structural equality; the two zeros of doubles are equal. -/
def same : Json → Json → Bool
  | .null, .null => true
  | .bool a, .bool b => a == b
  | .integer a, .integer b => a == b
  | .double a, .double b => a.same b
  | .string a, .string b => a == b
  | .array a, .array b => sameItems a b
  | .object a, .object b => sameFields a b
  | _, _ => false

/-- Equality item by item. -/
def sameItems : List Json → List Json → Bool
  | [], [] => true
  | a :: as, b :: bs => same a b && sameItems as bs
  | _, _ => false

/-- Equality field by field. -/
def sameFields : List (String × Json) → List (String × Json) → Bool
  | [], [] => true
  | (m, a) :: as, (n, b) :: bs => m == n && same a b && sameFields as bs
  | _, _ => false

end

instance : BEq Json := ⟨same⟩

/-! ## 2. Compact text -/

/-- A hexadecimal digit in lower case. -/
def hexDigit (n : Nat) : Char := Nat.digitChar (n % 16)

/-- The escaped form of one character of a string. -/
def escape (c : Char) : List Char :=
  if c = '"' then ['\\', '"']
  else if c = '\\' then ['\\', '\\']
  else if c = '\x08' then ['\\', 'b']
  else if c = '\t' then ['\\', 't']
  else if c = '\n' then ['\\', 'n']
  else if c = '\x0c' then ['\\', 'f']
  else if c = '\r' then ['\\', 'r']
  else if c.toNat < 0x20 then ['\\', 'u', '0', '0', hexDigit (c.toNat / 16), hexDigit c.toNat]
  else [c]

/-- A string between its quotes. -/
def quoted (s : String) : List Char := '"' :: s.toList.flatMap escape ++ ['"']

/-- Exponents from -5 to 15 are written in place, a double always shows that it is one, and of two
equally near decimals the even one is written. -/
def doubleStyle : DecimalStyle := ⟨.toEven, fun k => -5 ≤ k && k ≤ 15, true⟩

/-- An integer in decimal digits. -/
def integerText (i : Int) : List Char :=
  if i < 0 then '-' :: DecimalStyle.digitsOf i.natAbs else DecimalStyle.digitsOf i.natAbs

mutual

/-- The characters of the compact text. -/
def chars : Json → List Char
  | .null => "null".toList
  | .bool true => "true".toList
  | .bool false => "false".toList
  | .integer i => integerText i
  | .double d => doubleStyle.write d
  | .string s => quoted s
  | .array [] => ['[', ']']
  | .array (a :: as) => '[' :: (chars a ++ charsOfItems as)
  | .object [] => ['{', '}']
  | .object ((n, a) :: as) => '{' :: (quoted n ++ ':' :: (chars a ++ charsOfFields as))

/-- The items of an array after the first, with what closes it. -/
def charsOfItems : List Json → List Char
  | [] => [']']
  | a :: as => ',' :: (chars a ++ charsOfItems as)

/-- The fields of an object after the first, with what closes it. -/
def charsOfFields : List (String × Json) → List Char
  | [] => ['}']
  | (n, a) :: as => ',' :: (quoted n ++ ':' :: (chars a ++ charsOfFields as))

end

/-- The compact text. -/
def text (j : Json) : String := String.ofList j.chars

/-- The text that diagnostics show: a string without quotes and as it stands, all else in
compact form. -/
def shown : Json → String
  | .string s => s
  | j => j.text

/-! ## 3. Building and taking apart -/

/-- The object of a sorted map. -/
def ofMap (m : SortedMap Json) : Json := .object m.entries

/-- The object with the given fields, of which the last under a name counts. -/
def ofFields (l : List (String × Json)) : Json := ofMap (.ofList l)

/-- A string or null. -/
def ofText? : Option String → Json
  | some s => .string s
  | none => .null

/-- The string that the value is. -/
def string? : Json → Option String
  | .string s => some s
  | _ => none

/-- The truth value that the value is. -/
def bool? : Json → Option Bool
  | .bool b => some b
  | _ => none

/-- The items of an array. -/
def items? : Json → Option (List Json)
  | .array l => some l
  | _ => none

/-- The fields of an object. -/
def fields? : Json → Option (List (String × Json))
  | .object l => some l
  | _ => none

/-- The value of a field of an object. -/
def field? (j : Json) (name : String) : Option Json :=
  match j with
  | .object l => SortedMap.findEntry name l
  | _ => none

end Json

end AccessRules
