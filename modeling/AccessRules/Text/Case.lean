/-
# Upper and lower case

`upper` and `lower` are the full Unicode mappings, under which a character may become several.
They depend on no language.  Lower case looks at its surroundings once: a capital sigma that ends
a word becomes the final sigma.

`lowerAscii` moves the twenty-six ASCII capitals only.
-/
import AccessRules.Text.White
import AccessRules.Text.CaseTable

namespace AccessRules.Text

/-! ## 1. Characters -/

/-- Where a run moves a code point that belongs to it. -/
def CaseRun.move? (r : CaseRun) (n : Nat) : Option Nat :=
  if r.first ≤ n ∧ n ≤ r.last ∧ (n - r.first) % r.step = 0 then some (((n : Int) + r.shift).toNat)
  else none

/-- The code points that one code point becomes under a mapping. -/
def mapCode (runs : List CaseRun) (expansions : List (Nat × List Nat)) (n : Nat) : List Nat :=
  match expansions.find? fun e => e.1 == n with
  | some (_, ns) => ns
  | none =>
    match runs.findSome? fun r => r.move? n with
    | some m => [m]
    | none => [n]

/-- The upper case of one character. -/
def upperChar (c : Char) : List Char :=
  (mapCode upperRuns upperExpansions c.toNat).map Char.ofNat

/-- The lower case of one character by itself. -/
def lowerChar (c : Char) : List Char :=
  (mapCode lowerRuns lowerExpansions c.toNat).map Char.ofNat

/-- Whether a character is passed over in the search for a cased neighbour. -/
def isIgnorable (c : Char) : Bool := inRanges ignorableRanges c.toNat

/-- Whether a character has case and is not passed over. -/
def isCased (c : Char) : Bool := inRanges casedRanges c.toNat

/-! ## 2. Texts -/

/-- The upper case of a text. -/
def upper (s : String) : String := String.ofList (s.toList.flatMap upperChar)

/-- Whether the first character that is not passed over has case. -/
def leadsToCased (cs : List Char) : Bool :=
  match cs.dropWhile isIgnorable with
  | c :: _ => isCased c
  | [] => false

/-- The lower case of the characters that follow `before`, which is given in reverse. -/
def lowerFrom (before : List Char) : List Char → List Char
  | [] => []
  | c :: cs =>
    (if c = 'Σ' then [if leadsToCased before && !leadsToCased cs then 'ς' else 'σ']
      else lowerChar c) ++ lowerFrom (c :: before) cs

/-- The lower case of a text. -/
def lower (s : String) : String := String.ofList (lowerFrom [] s.toList)

/-- The text with its ASCII capitals moved to lower case. -/
def lowerAscii (s : String) : String := String.ofList (s.toList.map Char.toLower)

end AccessRules.Text
