/-
# Nodes

A node is a scalar, a sequence or a mapping.  A plain scalar is a number, a truth value or null if
it is written like one; any other scalar is a text, unless its tag asks for one of the core kinds.
A node that is not what its tag asks for is unfit, and so is one that an alias repeats before it
is complete: it can stand as a value, but not as the name of an entry.

The names of a mapping differ from each other.
-/
import AccessRules.Decimal.Floating
import AccessRules.Yaml.Tag

namespace AccessRules.Yaml

/-- A node of a document. -/
inductive Node where
  | unfit
  | null
  | bool (value : Bool)
  | integer (value : Int)
  /-- A number with a point or an exponent, an infinity, or no number, as it is written. -/
  | real (text : String)
  | text (value : String)
  | sequence (items : List Node)
  | mapping (entries : List (Node × Node))
  deriving Inhabited

namespace Node

/-! ## 1. Whole numbers -/

/-- The whole numbers that a scalar can be. -/
def inRange (i : Int) : Bool := -(Nat.pow 2 63 : Int) ≤ i && i < (Nat.pow 2 63 : Int)

/-- The value of a digit in a base up to sixteen. -/
def digitIn? (base : Nat) (c : Char) : Option Nat :=
  (Json.hexValue? c).filter (· < base)

/-- The number that digits in a base form. -/
def digitsIn? (base : Nat) (cs : List Char) : Option Nat :=
  if cs.isEmpty then none
  else
    cs.foldl (fun n c => n.bind fun n => (digitIn? base c).map (n * base + ·)) (some 0)

/-- The whole number that digits with an optional sign form. -/
def wholeIn? (base : Nat) (cs : List Char) : Option Int :=
  let found : Option Int :=
    match cs with
    | '-' :: cs => (digitsIn? base cs).map fun (n : Nat) => -(n : Int)
    | '+' :: cs => (digitsIn? base cs).map fun (n : Nat) => (n : Int)
    | cs => (digitsIn? base cs).map fun (n : Nat) => (n : Int)
  found.filter inRange

/-- The whole number that a plain scalar is: in base sixteen behind `0x`, in base eight behind
`0o`, else in base ten. -/
def whole? (cs : List Char) : Option Int :=
  match cs with
  | '0' :: 'x' :: digits => wholeIn? 16 digits
  | '0' :: 'o' :: digits => wholeIn? 8 digits
  | '+' :: rest => wholeIn? 10 rest <|> wholeIn? 10 cs
  | cs => wholeIn? 10 cs

/-! ## 2. Scalars -/

/-- The spellings of an infinity, and of no number, that start with a point. -/
def pointedWords : List String :=
  [".inf", ".Inf", ".INF", "+.inf", "+.Inf", "+.INF", "-.inf", "-.Inf", "-.INF", ".nan", ".NAN"]

/-- Whether a scalar is written like a number that is not whole. -/
def isReal (s : String) : Bool := pointedWords.contains s || (Floating.parse? s).isSome

/-- The null or the truth value that a word means. -/
def ofWord? (s : String) : Option Node :=
  if s = "~" ∨ s = "null" then some null
  else if s = "true" then some (bool true)
  else if s = "false" then some (bool false)
  else none

/-- The node of a plain scalar without a tag. -/
def ofPlain (s : String) : Node :=
  match whole? s.toList with
  | some i => integer i
  | none => (ofWord? s).getD (if isReal s then real s else text s)

/-- The node of a plain scalar whose tag asks for one of the core kinds. -/
def ofCore (kind s : String) : Node :=
  if kind = "bool" then
    if s = "true" then bool true else if s = "false" then bool false else unfit
  else if kind = "int" then ((wholeIn? 10 s.toList).map integer).getD unfit
  else if kind = "float" then if isReal s then real s else unfit
  else if kind = "null" then if s = "~" ∨ s = "null" then null else unfit
  else text s

/-- The node of a scalar. -/
def ofScalar (isPlain : Bool) (tag : Option Tag) (s : String) : Node :=
  if isPlain then
    match tag with
    | none => ofPlain s
    | some (.core kind) => ofCore kind s
    | some .other => text s
  else text s

/-! ## 3. Names -/

mutual

/-- Whether two nodes are the same name.  Numbers that are not whole count as they are written. -/
def same : Node → Node → Bool
  | unfit, unfit => true
  | null, null => true
  | bool a, bool b => a == b
  | integer a, integer b => a == b
  | real a, real b => a == b
  | text a, text b => a == b
  | sequence a, sequence b => sameItems a b
  | mapping a, mapping b => sameEntries a b
  | _, _ => false

/-- Whether two lists hold the same nodes. -/
def sameItems : List Node → List Node → Bool
  | [], [] => true
  | x :: xs, y :: ys => same x y && sameItems xs ys
  | _, _ => false

/-- Whether two lists hold the same entries in the same order. -/
def sameEntries : List (Node × Node) → List (Node × Node) → Bool
  | [], [] => true
  | (a, v) :: xs, (b, w) :: ys => same a b && same v w && sameEntries xs ys
  | _, _ => false

end

/-- Whether a node cannot be a name. -/
def isUnfit : Node → Bool
  | unfit => true
  | _ => false

/-! ## 4. Mappings -/

/-- Adds names and values in turn to the entries before them, all of whose names must differ.  In
place of a name that is unfit comes the next part; a name without a value is left out. -/
def addParts (entries : List (Node × Node)) : List Node → Option (List (Node × Node))
  | name :: value :: rest =>
    if name.isUnfit then addParts entries (value :: rest)
    else if entries.any fun e => e.1.same name then none
    else addParts (entries ++ [(name, value)]) rest
  | _ => some entries

/-- The mapping of entries, given in reverse. -/
def ofReversed? (entries : List (Node × Node)) : Option Node :=
  (addParts [] (entries.reverse.flatMap fun e => [e.1, e.2])).map mapping

end Node

end AccessRules.Yaml
