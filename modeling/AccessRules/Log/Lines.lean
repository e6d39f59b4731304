/-
# Events and their lines in the log

Every event that the engine reports has a level, a target that says which part of the engine speaks,
a message and named fields.  A field is a text shown as it stands, a text that lines of text put
between quotes, a number or a truth value, or it has no value at all.

An event becomes one line, either a JSON object or text.  A line of text shows the level, the
target, the message and then each field as `name=value`.  A field without a value is left out.
-/
import AccessRules.Decision.Failure
import AccessRules.Log.Level
import AccessRules.Text.Outline

namespace AccessRules

/-! ## 1. Events -/

/-- The value of a field of an event. -/
inductive EventValue where
  /-- A text as it stands. -/
  | plain (text : String)
  /-- A text between quotes. -/
  | quoted (text : String)
  | count (n : Nat)
  | flag (b : Bool)
  /-- No value; lines leave the field out. -/
  | absent
  deriving DecidableEq

/-- What the engine reports. -/
inductive Event where
  /-- A check has an answer, new or remembered. -/
  | checkEvaluated (check : String) (category : Category) (resource : String) (passed : Bool)
  /-- A check raised an error. -/
  | checkRaised (check : String) (category : Category) (resource : String) (detail : String)
  /-- The trees for a resource as a whole are made. -/
  | plannedWhole (resource : String) (category : Category) (fieldRules : Nat) (tree : String)
  /-- The trees for one field are made. -/
  | plannedField (resource : String) (category : Category) (field : String) (tree : String)
  /-- The queued trees are about to be evaluated. -/
  | committing (count : Nat)
  /-- A queued tree did not pass. -/
  | commitFailed (failure : Failure)
  /-- The rules say no. -/
  | denied (diagnostic : String)
  /-- A request could not be decided. -/
  | failedClosed (resource : String) (category : Category) (failure : Failure)
  /-- A request was decided. -/
  | decided (resource : String) (category : Category) (field : Option String) (allowed : Bool)
  /-- A batch was decided. -/
  | batchDecided (size hits evaluations : Nat)
  deriving DecidableEq

namespace Event

/-- How much the event matters. -/
def level : Event → Level
  | checkEvaluated .. => .trace
  | checkRaised .. => .warn
  | failedClosed .. => .warn
  | _ => .debug

/-- The part of the engine that speaks. -/
def target : Event → String
  | checkEvaluated .. => "rsperm_domain::expression"
  | checkRaised .. => "rsperm_domain::expression"
  | plannedWhole .. => "rsperm_domain::builder"
  | plannedField .. => "rsperm_domain::builder"
  | committing .. => "rsperm_domain::executor"
  | commitFailed .. => "rsperm_domain::executor"
  | denied .. => "rsperm_domain::executor"
  | failedClosed .. => "rsperm_server::handlers::authorize::handler"
  | decided .. => "rsperm_server::handlers::authorize::handler"
  | batchDecided .. => "rsperm_server::handlers::authorize::handler"

/-- What the event says. -/
def message : Event → String
  | checkEvaluated .. => "check evaluated"
  | checkRaised .. => "check raised an error"
  | plannedWhole .. => "built any-field expressions"
  | plannedField .. => "built specific-field expressions"
  | committing .. => "executing commit checks"
  | commitFailed .. => "commit check failed"
  | denied .. => "permission denied"
  | failedClosed .. => "authorization failed closed"
  | decided .. => "authorization decided"
  | batchDecided .. => "batch authorized"

/-- The fields of the event in the order in which lines show them. -/
def fields : Event → List (String × EventValue)
  | checkEvaluated check category resource passed =>
    [("check", .plain check), ("category", .plain category.name), ("resource", .plain resource),
      ("passed", .flag passed)]
  | checkRaised check category resource detail =>
    [("check", .plain check), ("category", .plain category.name), ("resource", .plain resource),
      ("error", .plain detail)]
  | plannedWhole resource category fieldRules tree =>
    [("resource", .plain resource), ("category", .plain category.name),
      ("field_rules", .count fieldRules), ("expression", .plain tree)]
  | plannedField resource category field tree =>
    [("resource", .plain resource), ("category", .plain category.name), ("field", .quoted field),
      ("expression", .plain tree)]
  | committing count => [("count", .count count)]
  | commitFailed failure => [("error", .plain failure.message)]
  | denied diagnostic => [("diagnostic", .plain diagnostic)]
  | failedClosed resource category failure =>
    [("resource", .plain resource), ("category", .plain category.name),
      ("error", .plain failure.message)]
  | decided resource category field allowed =>
    [("resource", .plain resource), ("category", .plain category.name),
      ("field", (field.map EventValue.quoted).getD .absent), ("allowed", .flag allowed)]
  | batchDecided size hits evaluations =>
    [("size", .count size), ("cache_hits", .count hits),
      ("check_evaluations", .count evaluations)]

end Event

/-! ## 2. Lines -/

/-- A field value as JSON. -/
def EventValue.toJson? : EventValue → Option Json
  | plain text => some (.string text)
  | quoted text => some (.string text)
  | count n => some (.integer n)
  | flag b => some (.bool b)
  | absent => none

/-- A field value in a line of text. -/
def EventValue.text? : EventValue → Option String
  | plain text => some text
  | quoted text => some (Text.quoted text)
  | count n => some (toString n)
  | flag b => some (Text.outlineBool b)
  | absent => none

namespace Event

/-- The JSON object of an event. -/
def toJson (e : Event) : Json :=
  .ofFields [("level", .string e.level.name), ("target", .string e.target),
    ("fields", .ofFields (("message", .string e.message) ::
      e.fields.filterMap fun f => f.2.toJson?.map (f.1, ·)))]

/-- The line of text of an event. -/
def text (e : Event) : String :=
  e.level.name ++ " " ++ e.target ++ ": " ++
    " ".intercalate (e.message :: e.fields.filterMap fun f => f.2.text?.map (f.1 ++ "=" ++ ·))

end Event

end AccessRules
