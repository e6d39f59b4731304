/-
# Checks

A check answers yes or no about a resource, or raises an error.  A user check is asked before
anything changes and never sees a change; an operation check is asked once the changes are staged
and may see the one at hand.

An implementation of a check is known by a number, so that two names of one implementation share
its results.  Its procedure may consult everything that ran before it, which covers checks that
answer differently from run to run; a *steady* procedure does not.
-/
import AccessRules.Subject.Basic

namespace AccessRules

/-- When a check may run. -/
inductive CheckKind where
  /-- Before anything changes. -/
  | user
  /-- Once the changes are staged. -/
  | operation
  deriving DecidableEq

/-- What a check may look at. -/
structure Context where
  resource : Resource
  change : Option Change
  user : User

/-- A yes, a no, or the text of an error. -/
abbrev Answer := Except String Bool

/-- The number of an implementation. -/
abbrev CheckId := Nat

/-- One finished run of a check. -/
structure Run where
  check : CheckId
  context : Context
  answer : Answer

/-- How a check finds its answer. -/
inductive Procedure where
  /-- Says yes. -/
  | allow
  /-- Says no. -/
  | deny
  /-- Says yes to the users who hold a role. -/
  | role (name : String)
  /-- Asks a function, which is given the runs so far, the latest first. -/
  | custom (kind : CheckKind) (answer : List Run → Context → Answer)

namespace Procedure

/-- When the check may run. -/
def kind : Procedure → CheckKind
  | custom kind _ => kind
  | _ => .user

/-- The answer in a context, after the given runs. -/
def answer : Procedure → List Run → Context → Answer
  | allow, _, _ => .ok true
  | deny, _, _ => .ok false
  | role name, _, ctx => .ok (ctx.user.holds name)
  | custom _ f, runs, ctx => f runs ctx

/-- Whether the answer depends on the context alone. -/
def Steady (p : Procedure) : Prop :=
  ∀ runs runs' ctx, p.answer runs ctx = p.answer runs' ctx

/-- Whether the check never raises an error. -/
def Calm (p : Procedure) : Prop :=
  ∀ runs ctx, ∃ b, p.answer runs ctx = .ok b

end Procedure

/-- The name of a kind. -/
def CheckKind.text : CheckKind → String
  | .user => "User"
  | .operation => "Operation"

/-- The outline of a procedure. -/
def Procedure.outline : Procedure → String
  | .allow => "All"
  | .deny => "None"
  | .role name => "Has(" ++ Text.quoted name ++ ")"
  | .custom kind _ => Text.outline "FnCheck" [("kind", kind.text)]

/-- An implementation of a check. -/
structure Check where
  id : CheckId
  procedure : Procedure

/-- When the check may run. -/
def Check.kind (c : Check) : CheckKind := c.procedure.kind

/-- The change that a check is shown: none for a user check. -/
def Check.visibleChange (c : Check) (change : Option Change) : Option Change :=
  match c.kind with
  | .user => none
  | .operation => change

end AccessRules
