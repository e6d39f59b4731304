/-
# Values of settings

Settings files and environment variables give values that are looser than JSON: where a setting
wants a truth value, a count or a text, another scalar will do if it can be converted.

* truth values: numbers other than zero are true; the words `1`, `true`, `on`, `yes` and `0`,
  `false`, `off`, `no` in any case;
* counts: whole numbers from zero on, other numbers rounded, truth values and the words for them,
  and decimal digits with an optional plus sign;
* texts: numbers and truth values as they are written.
-/
import AccessRules.Decimal.Floating
import AccessRules.Exchange.Record

namespace AccessRules

/-- A value of settings.  The entries of a table ascend by name. -/
inductive Setting where
  | null
  | bool (value : Bool)
  | integer (value : Int)
  | floating (value : Floating)
  | text (value : String)
  | list (items : List Setting)
  | table (entries : List (String × Setting))
  deriving Inhabited

namespace Setting

/-- The greatest count. -/
def maxCount : Nat := Nat.pow 2 64 - 1

/-- The truth value that a word means. -/
def wordFlag? (word : String) : Option Bool :=
  if word = "true" ∨ word = "on" ∨ word = "yes" then some true
  else if word = "false" ∨ word = "off" ∨ word = "no" then some false
  else none

/-- The truth value that the value is or converts to. -/
def flag? : Setting → Option Bool
  | bool b => some b
  | integer i => some (i != 0)
  | floating x => some x.isNonzero
  | text s =>
    let word := Text.lower s
    if word = "1" then some true else if word = "0" then some false else wordFlag? word
  | _ => none

/-- The count that decimal digits with an optional plus sign form. -/
def digitCount? (s : String) : Option Nat :=
  let digits :=
    match s.toList with
    | '+' :: rest => rest
    | cs => cs
  if !digits.isEmpty && digits.all Char.isDigit then
    let n := Json.naturalOf digits
    if n ≤ maxCount then some n else none
  else none

/-- The count that the value is or converts to. -/
def count? : Setting → Option Nat
  | bool b => some b.toNat
  | integer i => if 0 ≤ i then some i.toNat else none
  | floating x => some (x.toCount maxCount)
  | text s =>
    match wordFlag? (Text.lower s) with
    | some b => some b.toNat
    | none => digitCount? s
  | _ => none

/-- The text that the value is or converts to. -/
def text? : Setting → Option String
  | bool b => some (if b then "true" else "false")
  | integer i => some (String.ofList (Json.integerText i))
  | floating x => some x.text
  | text s => some s
  | _ => none

/-- The text that the value is. -/
def exactText? : Setting → Option String
  | text s => some s
  | _ => none

/-- The items of a list. -/
def items? : Setting → Option (List Setting)
  | list l => some l
  | _ => none

/-- The entries of a table. -/
def entries? : Setting → Option (List (String × Setting))
  | table l => some l
  | _ => none

/-- The members of a table or a list. -/
def members? : Setting → Option (Members Setting)
  | table l => some (.named l)
  | list l => some (.listed l)
  | _ => none

/-- Whether the value is null. -/
def isNull : Setting → Bool
  | null => true
  | _ => false

instance : Source Setting where
  members? := members?
  items? := items?
  table? := entries?
  text? := text?
  exactText? := exactText?
  flag? := flag?
  count? := count?
  isNull := isNull
  passesOverItems := true

end Setting

end AccessRules
