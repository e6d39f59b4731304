/-
# The book of parsed rules

Reading a rule is costly next to using it, so a book keeps every rule that it has read under its
text.  A text that is no rule is never kept.  Binding looks up the check of every name, leftmost
first, each time anew, so a book serves any dictionary.

That a page is the reading of its text is part of the type, so no history of a book can show in
what it answers (`read_fst`, `bind_fst`).

The generation counts how often the book was emptied: two readings of one text give the same page
exactly when they fall into one generation.
-/
import AccessRules.Policy.Dictionary
import AccessRules.Rule.Parse

namespace AccessRules

/-- A check with the name under which a rule mentions it. -/
structure NamedCheck where
  name : String
  check : Check

/-- A rule whose names are bound to checks. -/
structure BoundRule where
  source : String
  formula : Formula NamedCheck

/-- The check of a name, or the error that there is none. -/
def Dictionary.bindName (d : Dictionary) (name : String) : Except RuleError NamedCheck :=
  match d.check? name with
  | some check => .ok ⟨name, check⟩
  | none => .error ⟨.unknownCheck name, none⟩

/-- Binds every name of a rule. -/
def Dictionary.bindRule (d : Dictionary) (r : Rule) : Except RuleError (Formula NamedCheck) :=
  r.mapM? d.bindName

/-- Reads a text and binds its names, without a book. -/
def Dictionary.compile (d : Dictionary) (text : String) : Except RuleError BoundRule :=
  match Rule.parse text with
  | .error e => .error e
  | .ok r =>
    match d.bindRule r with
    | .error e => .error e
    | .ok formula => .ok ⟨text, formula⟩

/-- The outline of a bound rule. -/
def BoundRule.outline (r : BoundRule) : String :=
  Text.outline "CompiledRule" [("source", Text.quoted r.source)]

/-- Rules that were read, by their text. -/
structure RuleBook where
  pages : Assoc String Rule
  generation : Nat
  /-- Every page is the reading of its text. -/
  faithful : ∀ text r, Assoc.find? text pages = some r → Rule.parse text = .ok r

namespace RuleBook

/-- The book before the first reading. -/
def empty : RuleBook := ⟨[], 0, fun _ _ h => nomatch h⟩

/-- How many rules the book holds. -/
def size (b : RuleBook) : Nat := b.pages.length

/-- Keeps the rule of a text. -/
def keep (b : RuleBook) (text : String) (r : Rule) (h : Rule.parse text = .ok r) : RuleBook where
  pages := Assoc.insert text r b.pages
  generation := b.generation
  faithful := by
    intro other r' hr'
    rw [Assoc.find?_insert] at hr'
    split at hr'
    · next heq => rw [heq, h, Option.some.inj hr']
    · exact b.faithful other r' hr'

/-- Finds the rule of a text, or reads and keeps it. -/
def read (b : RuleBook) (text : String) : Except RuleError Rule × RuleBook :=
  match Assoc.find? text b.pages with
  | some r => (.ok r, b)
  | none =>
    match h : Rule.parse text with
    | .ok r => (.ok r, b.keep text r h)
    | .error e => (.error e, b)

/-- Reads a text and binds its names. -/
def bind (b : RuleBook) (d : Dictionary) (text : String) : Except RuleError BoundRule × RuleBook :=
  match b.read text with
  | (.error e, b) => (.error e, b)
  | (.ok r, b) =>
    match d.bindRule r with
    | .error e => (.error e, b)
    | .ok formula => (.ok ⟨text, formula⟩, b)

/-- A book answers as if it read every text anew. -/
theorem read_fst (b : RuleBook) (text : String) : (b.read text).1 = Rule.parse text := by
  unfold read
  split
  · next r hr => exact (b.faithful text r hr).symm
  · split
    · next r hr => exact hr.symm
    · next e he => exact he.symm

/-- What a book has kept does not show in what it binds. -/
theorem bind_fst (b : RuleBook) (d : Dictionary) (text : String) :
    (b.bind d text).1 = d.compile text := by
  have hread : Rule.parse text = (b.read text).1 := (b.read_fst text).symm
  unfold bind Dictionary.compile
  rw [hread]
  rcases b.read text with ⟨e | r, book⟩
  · rfl
  · cases hr : d.bindRule r with
    | error e => simp only [hr]
    | ok formula => simp only [hr]

/-- Empties the book. -/
def clear (b : RuleBook) : RuleBook := ⟨[], b.generation + 1, fun _ _ h => nomatch h⟩

/-- The outline of a book. -/
def outline (b : RuleBook) : String :=
  Text.outline "RuleCompiler" [("entry_count", toString b.size)]

end RuleBook

end AccessRules
