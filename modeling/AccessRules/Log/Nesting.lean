/-
# How deep the parts of a pattern are nested

A pattern is a tree.  Characters, escapes and flags are its leaves, of depth zero.  A group, a class
between brackets and a sign of repetition are one deeper than what they hold, and so are several
parts in a row, several branches between bars, and two sets joined by an operator.  The depth is
found while a pattern is read, so only the parts in progress are kept: a `Row` of parts, the
`Branches` of a group, the `Members` of a class.
-/

namespace AccessRules.Pattern

/-- How deep a pattern may be nested. -/
def depthLimit : Nat := 250

/-! ## 1. Rows -/

/-- Parts that stand side by side. -/
structure Row where
  count : Nat
  /-- The greatest depth of the parts before the last one. -/
  deepest : Nat
  /-- The depth of the last part. -/
  last : Nat

namespace Row

/-- So many leaves. -/
def leaves (count : Nat) : Row := ⟨count, 0, 0⟩

/-- Adds a part of the given depth. -/
def push (r : Row) (depth : Nat) : Row := ⟨r.count + 1, max r.deepest r.last, depth⟩

/-- Puts the last part one deeper. -/
def deepen (r : Row) : Row := { r with last := r.last + 1 }

/-- The depth of the whole row; a single part stands for itself. -/
def depth (r : Row) : Nat :=
  if r.count ≤ 1 then max r.deepest r.last else max r.deepest r.last + 1

end Row

/-! ## 2. Groups -/

/-- What has been read of a group. -/
structure Branches where
  /-- The branches before the last bar. -/
  earlier : Row
  /-- The parts behind it. -/
  current : Row

namespace Branches

/-- A group of which nothing has been read. -/
def start : Branches := ⟨.leaves 0, .leaves 0⟩

/-- Adds a part of the given depth. -/
def push (b : Branches) (depth : Nat) : Branches := { b with current := b.current.push depth }

/-- Repeats the last part. -/
def deepen (b : Branches) : Branches := { b with current := b.current.deepen }

/-- Ends a branch at a bar. -/
def split (b : Branches) : Branches := ⟨b.earlier.push b.current.depth, .leaves 0⟩

/-- The depth of what has been read. -/
def depth (b : Branches) : Nat := b.split.earlier.depth

end Branches

/-! ## 3. Classes -/

/-- What has been read of a class between brackets. -/
structure Members where
  /-- The depth of the set before the last operator, if there is one. -/
  operand : Option Nat
  /-- The members behind it. -/
  current : Row

namespace Members

/-- A class that starts with so many characters. -/
def start (count : Nat) : Members := ⟨none, .leaves count⟩

/-- Adds a member of the given depth. -/
def push (s : Members) (depth : Nat) : Members := { s with current := s.current.push depth }

/-- The depth of what has been read; operators reach back to the start of the class. -/
def depth (s : Members) : Nat :=
  match s.operand with
  | none => s.current.depth
  | some left => max left s.current.depth + 1

/-- Ends an operand at an operator. -/
def split (s : Members) : Members := ⟨some s.depth, .leaves 0⟩

end Members

end AccessRules.Pattern
