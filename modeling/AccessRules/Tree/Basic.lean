/-
# Decision trees

A decision tree combines checks, constants and deferred checks, and every node remembers its
status.  A node starts unevaluated, gets a status at most once and then keeps it.

Deferred is the third truth value: the outcome hangs on a check that can only run once the changes
are staged.  `Status.and`, `Status.or` and `Status.negate` are the strong connectives on the three
values.

The root of a tree that was made for a decision carries the condition it decides.

Rendering shows the present state of a tree and evaluates nothing.  A check shows its name and
its status, a deferred check its name, and the connectives their operands in parentheses; the
root shows its condition first.
-/
import AccessRules.Check.Basic

namespace AccessRules

/-! ## 1. Status -/

/-- What is known of a node. -/
inductive Status where
  | unevaluated
  | passed
  | failed
  /-- The outcome hangs on a check that runs later. -/
  | deferred
  deriving DecidableEq

namespace Status

/-- The status of a yes or a no. -/
def ofBool (b : Bool) : Status := if b then passed else failed

/-- Whether this status denies a decision. -/
def denies (s : Status) : Bool := s == failed

/-- Conjunction. -/
def and : Status → Status → Status
  | failed, _ => failed
  | _, failed => failed
  | passed, passed => passed
  | _, _ => deferred

/-- Disjunction. -/
def or : Status → Status → Status
  | passed, _ => passed
  | _, passed => passed
  | failed, failed => failed
  | _, _ => deferred

/-- Negation. -/
def negate : Status → Status
  | passed => failed
  | failed => passed
  | s => s

/-- The words that a rendered check shows. -/
def label : Status → String
  | unevaluated => "WAS UNEVALUATED"
  | passed => "PASSED"
  | failed => "FAILED"
  | deferred => "DEFERRED"

/-- The name of a status. -/
def name : Status → String
  | unevaluated => "Unevaluated"
  | passed => "Passed"
  | failed => "Failed"
  | deferred => "Deferred"

end Status

/-! ## 2. What a tree is about -/

/-- The question that a tree decides. -/
structure Condition where
  category : Category
  resource : Resource
  field : Option String
  change : Option Change

/-- The text that messages show; it ends in a blank where there is no change. -/
def Condition.text (c : Condition) : String :=
  c.category.name ++ " PERMISSION WAS INVOKED ON " ++ c.resource.text ++ " " ++
    match c.change with
    | some change => "WITH CHANGES " ++ change.text
    | none => ""

/-- What the checks of a tree are asked about, and the request whose answers they share. -/
structure Situation where
  resource : Resource
  category : Category
  change : Option Change
  user : User
  request : Nat

/-- A check at a leaf, under the name by which its rule mentions it. -/
structure Leaf where
  name : String
  check : Check
  situation : Situation

/-- What the check at a leaf is shown. -/
def Leaf.context (l : Leaf) : Context :=
  ⟨l.situation.resource, l.check.visibleChange l.situation.change, l.situation.user⟩

/-! ## 3. Trees -/

/-- A decision tree with the status of every node. -/
inductive Tree where
  | check (leaf : Leaf) (status : Status)
  | constant (passed : Bool) (label : Option String) (status : Status)
  /-- Stands for a check that runs later. -/
  | deferred (name : String) (status : Status)
  | and (left right : Tree) (status : Status)
  | or (left right : Tree) (status : Status)
  | not (child : Tree) (status : Status)
  /-- Passes if a field rule does, and otherwise goes by the rule of the type. -/
  | anyField (condition : Condition) (fields entity : Tree) (status : Status)
  /-- Goes by the rule of one field. -/
  | fieldRule (condition : Condition) (rule : Tree) (status : Status)
  /-- Goes by the rule of the type, for a field without a rule of its own. -/
  | entityRule (condition : Condition) (rule : Tree) (status : Status)
  /-- Passes, for a field that no rule covers. -/
  | unrestricted (condition : Condition) (status : Status)

namespace Tree

/-- The status of the root. -/
def status : Tree → Status
  | check _ s => s
  | constant _ _ s => s
  | deferred _ s => s
  | and _ _ s => s
  | or _ _ s => s
  | not _ s => s
  | anyField _ _ _ s => s
  | fieldRule _ _ s => s
  | entityRule _ _ s => s
  | unrestricted _ s => s

/-- The condition that the root carries. -/
def condition? : Tree → Option Condition
  | anyField c _ _ _ => some c
  | fieldRule c _ _ => some c
  | entityRule c _ _ => some c
  | unrestricted c _ => some c
  | _ => none

/-! New nodes are unevaluated. -/

/-- A check. -/
def ofLeaf (leaf : Leaf) : Tree := check leaf .unevaluated

/-- The tree that passes. -/
def success : Tree := constant true none .unevaluated

/-- The tree that fails. -/
def failure : Tree := constant false none .unevaluated

/-- A constant that is shown by a label. -/
def labelled (passed : Bool) (label : String) : Tree := constant passed (some label) .unevaluated

/-- A check that runs later. -/
def later (name : String) : Tree := deferred name .unevaluated

/-- The decision about one field: its own rule, else the rule of its type, else a pass. -/
def forField (condition : Condition) (field entity : Option Tree) : Tree :=
  match field, entity with
  | some rule, _ => fieldRule condition rule .unevaluated
  | none, some rule => entityRule condition rule .unevaluated
  | none, none => unrestricted condition .unevaluated

/-- The decision about a resource as a whole. -/
def forResource (condition : Condition) (fields entity : Tree) : Tree :=
  anyField condition fields entity .unevaluated

/-! ## 4. The text of a tree -/

/-- The text of a constant. -/
def constantText (passed : Bool) : Option String → String
  | some label => label
  | none => if passed then "SUCCESS" else "FAILURE"

/-- The text of a tree. -/
def text : Tree → String
  | check leaf s => "(" ++ leaf.name ++ " " ++ s.label ++ ")"
  | constant passed label _ => constantText passed label
  | deferred name _ => "(" ++ name ++ " DEFERRED)"
  | and l r _ => "(" ++ l.text ++ ") AND (" ++ r.text ++ ")"
  | or l r _ => "(" ++ l.text ++ ") OR (" ++ r.text ++ ")"
  | not c _ => "NOT (" ++ c.text ++ ")"
  | anyField c f e _ =>
    c.text ++ " FOR EXPRESSION [FIELDS(" ++ f.text ++ ") OR ENTITY(" ++ e.text ++ ")]"
  | fieldRule c r _ => c.text ++ " FOR EXPRESSION [FIELD(" ++ r.text ++ ")]"
  | entityRule c r _ => c.text ++ " FOR EXPRESSION [ENTITY(" ++ r.text ++ ")]"
  | unrestricted c _ => c.text ++ " FOR EXPRESSION [SUCCESS]"

/-- The outline of a tree. -/
def outline (t : Tree) : String :=
  Text.outline "Expression" [("status", t.status.name), ("rendered", Text.quoted t.text)]

end Tree

end AccessRules
