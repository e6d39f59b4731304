/-
# Rules: formulas over check names

A rule combines named checks with `AND`, `OR` and `NOT`.  `Formula` is the tree over any kind of
leaf: a rule as written has names at its leaves, a bound rule has checks there.  `Rule.text` is
the canonical text, with parentheses around every binary node and nowhere else.
-/

namespace AccessRules

/-- A formula in conjunction, disjunction and negation over leaves of one type. -/
inductive Formula (α : Type) where
  | leaf (value : α)
  | and (left right : Formula α)
  | or (left right : Formula α)
  | not (child : Formula α)
  deriving DecidableEq

namespace Formula

/-- The leaves from left to right, with repetitions. -/
def leaves {α : Type} : Formula α → List α
  | leaf a => [a]
  | and l r => l.leaves ++ r.leaves
  | or l r => l.leaves ++ r.leaves
  | not c => c.leaves

/-- Replaces every leaf. -/
def map {α β : Type} (f : α → β) : Formula α → Formula β
  | leaf a => leaf (f a)
  | and l r => and (l.map f) (r.map f)
  | or l r => or (l.map f) (r.map f)
  | not c => not (c.map f)

/-- Replaces every leaf by a formula or fails at the leftmost leaf that has no replacement. -/
def mapM? {α β ε : Type} (f : α → Except ε β) : Formula α → Except ε (Formula β)
  | leaf a =>
    match f a with
    | .error e => .error e
    | .ok b => .ok (leaf b)
  | and l r =>
    match l.mapM? f with
    | .error e => .error e
    | .ok l' =>
      match r.mapM? f with
      | .error e => .error e
      | .ok r' => .ok (and l' r')
  | or l r =>
    match l.mapM? f with
    | .error e => .error e
    | .ok l' =>
      match r.mapM? f with
      | .error e => .error e
      | .ok r' => .ok (or l' r')
  | not c =>
    match c.mapM? f with
    | .error e => .error e
    | .ok c' => .ok (not c')

/-- The two-valued value of a formula, given the value of each leaf. -/
def value {α : Type} (v : α → Bool) : Formula α → Bool
  | leaf a => v a
  | and l r => l.value v && r.value v
  | or l r => l.value v || r.value v
  | not c => !c.value v

end Formula

/-- A rule as written: a formula over check names. -/
abbrev Rule := Formula String

/-- Canonical text: `(l AND r)`, `(l OR r)`, `NOT c`, and a name as it stands. -/
def Rule.text : Rule → String
  | .leaf name => name
  | .and l r => "(" ++ Rule.text l ++ " AND " ++ Rule.text r ++ ")"
  | .or l r => "(" ++ Rule.text l ++ " OR " ++ Rule.text r ++ ")"
  | .not c => "NOT " ++ Rule.text c

end AccessRules
