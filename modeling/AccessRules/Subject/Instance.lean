/-
# Instance identifiers

A resource that has no id yet is told from others by an identifier of 128 bits, written as
thirty-two hexadecimal digits.  The canonical text groups the digits by hyphens and uses lower
case; `parse?` also takes the digits without hyphens, the hyphenated form in braces, the form with
a leading `urn:uuid:`, and capitals throughout.

A `Supply` hands out identifiers one after the other, no two alike.
-/

namespace AccessRules

/-- An identifier of thirty-two hexadecimal digits. -/
structure InstanceId where
  digits : List (Fin 16)
  length_eq : digits.length = 32
  deriving DecidableEq

namespace InstanceId

/-! ## 1. Digits -/

/-- A hexadecimal digit in lower case. -/
def digitChar (d : Fin 16) : Char := Nat.digitChar d.val

/-- The value of a hexadecimal digit in either case. -/
def digitOf? (c : Char) : Option (Fin 16) :=
  ("0123456789abcdef".toList.findIdx? (· == c.toLower)).bind fun i =>
    if h : i < 16 then some ⟨i, h⟩ else none

theorem digitOf?_digitChar (d : Fin 16) : digitOf? (digitChar d) = some d := by
  revert d; decide

/-! ## 2. Texts -/

/-- The canonical text: groups of eight, four, four, four and twelve digits. -/
def text (u : InstanceId) : String :=
  let cs := u.digits.map digitChar
  String.ofList (cs.take 8 ++ '-' :: (cs.drop 8).take 4 ++ '-' :: (cs.drop 12).take 4 ++
    '-' :: (cs.drop 16).take 4 ++ '-' :: cs.drop 20)

/-- The identifier that digits without hyphens form. -/
def ofDigits? (cs : List Char) : Option InstanceId :=
  match cs.mapM digitOf? with
  | some ds => if h : ds.length = 32 then some ⟨ds, h⟩ else none
  | none => none

/-- The identifier that digits with hyphens in the canonical places form. -/
def ofGroups? (cs : List Char) : Option InstanceId :=
  if cs[8]? = some '-' ∧ cs[13]? = some '-' ∧ cs[18]? = some '-' ∧ cs[23]? = some '-' then
    ofDigits? (cs.take 8 ++ (cs.drop 9).take 4 ++ (cs.drop 14).take 4 ++ (cs.drop 19).take 4 ++
      cs.drop 24)
  else none

/-- The lead of the form as a uniform resource name. -/
def urnLead : List Char := "urn:uuid:".toList

/-- The identifier that a text in one of the permitted forms stands for. -/
def parse? (s : String) : Option InstanceId :=
  let cs := s.toList
  if cs.length = 32 then ofDigits? cs
  else if cs.length = 36 then ofGroups? cs
  else if cs.length = 38 ∧ cs.head? = some '{' ∧ cs.getLast? = some '}' then
    ofGroups? (cs.drop 1).dropLast
  else if cs.length = 45 ∧ (cs.take urnLead.length).map Char.toLower = urnLead then
    ofGroups? (cs.drop urnLead.length)
  else none

end InstanceId

/-! ## 3. New identifiers -/

/-- How many identifiers have been handed out. -/
structure Supply where
  drawn : Nat
  deriving DecidableEq

namespace Supply

/-- The supply before the first identifier. -/
def initial : Supply := ⟨0⟩

/-- The digit at one place of the `n`-th identifier: the places of version and variant are fixed
as in a random identifier, the others count. -/
def digitAt (n place : Nat) : Fin 16 :=
  if place = 12 then 4
  else if place = 16 then 8
  else Fin.ofNat 16 (n / Nat.pow 16 (31 - place))

/-- The `n`-th identifier. -/
def nth (n : Nat) : InstanceId := ⟨(List.range 32).map (digitAt n), by simp⟩

/-- The next identifier. -/
def draw (s : Supply) : InstanceId × Supply := (nth s.drawn, ⟨s.drawn + 1⟩)

end Supply

end AccessRules
