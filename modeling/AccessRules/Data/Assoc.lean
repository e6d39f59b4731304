/-
# Maps over keys without an order

An association list holds at most one value under each key, in the order in which the keys first
came.  No answer of this library shows that order; what counts is `find?` and the number of
entries.
-/

namespace AccessRules

/-- Entries under keys of any type with decidable equality. -/
abbrev Assoc (κ ν : Type) := List (κ × ν)

namespace Assoc

variable {κ ν : Type} [DecidableEq κ]

/-- The value under a key. -/
def find? (key : κ) : Assoc κ ν → Option ν
  | [] => none
  | (k, v) :: rest => if k = key then some v else find? key rest

/-- Puts a value under a key, in place of the one there. -/
def insert (key : κ) (value : ν) : Assoc κ ν → Assoc κ ν
  | [] => [(key, value)]
  | (k, v) :: rest => if k = key then (key, value) :: rest else (k, v) :: insert key value rest

@[simp] theorem find?_insert_self (key : κ) (value : ν) (m : Assoc κ ν) :
    find? key (insert key value m) = some value := by
  induction m with
  | nil => simp [insert, find?]
  | cons hd tl ih =>
    simp only [insert]
    split
    · simp [find?]
    · next h => simp [find?, h, ih]

theorem find?_insert_of_ne {key other : κ} (value : ν) (h : other ≠ key) (m : Assoc κ ν) :
    find? other (insert key value m) = find? other m := by
  induction m with
  | nil => simp [insert, find?, Ne.symm h]
  | cons hd tl ih =>
    simp only [insert]
    split
    · next he => simp [find?, he, Ne.symm h]
    · simp [find?, ih]

theorem find?_insert (key other : κ) (value : ν) (m : Assoc κ ν) :
    find? other (insert key value m) = if other = key then some value else find? other m := by
  by_cases h : other = key
  · subst h; simp
  · rw [if_neg h, find?_insert_of_ne value h]

end Assoc

end AccessRules
