/-
# Why a decision is not a yes

A decision fails because its type is not declared, because a rule that it needs is no rule, because
a check raised an error, or because the rules say no.  Only the last is an answer; the others mean
that there is none.
-/
import AccessRules.Rule.Parse
import AccessRules.Tree.Evaluate

namespace AccessRules

/-- The reasons for which a decision is not a yes. -/
inductive Failure where
  /-- A declared rule cannot be used. -/
  | invalidRule (typeName : String) (field : Option String) (category text : String)
      (error : RuleError)
  /-- A check raised an error. -/
  | checkFailed (check detail : String)
  /-- The rules say no; the diagnostic is the text of the tree that said so. -/
  | forbidden (category resource diagnostic : String)
  /-- Nothing is declared for the type. -/
  | typeNotFound (typeName : String)
  deriving DecidableEq

namespace Failure

/-- What a rule is declared for: a type, or a field of it. -/
def target (typeName : String) : Option String → String
  | some field => typeName ++ "." ++ field
  | none => typeName

/-- The wording of a failure. -/
def message : Failure → String
  | invalidRule typeName field category text error =>
    "invalid permission expression '" ++ text ++ "' for " ++ category ++ " on " ++
      target typeName field ++ ": " ++ error.text
  | checkFailed check detail => "check '" ++ check ++ "' failed: " ++ detail
  | forbidden category resource _ => category ++ " permission denied on " ++ resource
  | typeNotFound typeName => "type not found: " ++ typeName

/-- The failure that stopped an evaluation. -/
def ofCheck (f : CheckFailure) : Failure := checkFailed f.check f.detail

end Failure

end AccessRules
