/-
# Settings

The settings of a service: how much room to set aside for answers and whether decisions carry
their diagnostic, how much to log and in which format, and the policy, which binds check names to
ready-made checks and declares the rules of each entity.

`ServerSettings.validate` looks at names, roles, levels and categories.  It does not read the
rules.
-/
import AccessRules.Answers.Basic
import AccessRules.Rule.Parse
import AccessRules.Text.Case

namespace AccessRules

/-! ## 1. The settings -/

/-- The settings of the engine. -/
structure EngineSettings where
  initialCapacity : Nat
  showsDiagnostics : Bool
  deriving DecidableEq

/-- The settings of the log. -/
structure LogSettings where
  level : String
  json : Bool
  deriving DecidableEq

/-- A ready-made check. -/
inductive CheckBinding where
  | allow
  | deny
  | role (name : String)
  deriving DecidableEq

/-- The rules of one entity, by category, as a whole and field by field. -/
structure EntityRules where
  name : String
  permissions : SortedMap String
  fields : SortedMap (SortedMap String)

/-- The checks and rules of a service. -/
structure PolicySettings where
  checks : SortedMap CheckBinding
  entities : List EntityRules

/-- All settings of a service. -/
structure ServerSettings where
  engine : EngineSettings
  log : LogSettings
  policy : PolicySettings

/-- The engine settings where none are made. -/
def EngineSettings.standard : EngineSettings := ⟨Answers.defaultCapacity, true⟩

/-- The log settings where none are made. -/
def LogSettings.standard : LogSettings := ⟨"info", false⟩

/-- The policy without checks and rules. -/
def PolicySettings.standard : PolicySettings := ⟨.empty, []⟩

/-- The settings where none are made. -/
def ServerSettings.standard : ServerSettings := ⟨.standard, .standard, .standard⟩

/-! ## 2. Problems -/

/-- Where a policy has a rule: under a category of an entity or of one of its fields. -/
structure RulePlace where
  entity : String
  field : Option String
  category : String
  deriving DecidableEq

/-- The path of a rule in the settings. -/
def RulePlace.path (p : RulePlace) : String :=
  "policy.entities." ++ p.entity ++ "." ++
    match p.field with
    | none => "permissions." ++ p.category
    | some f => "fields." ++ f ++ "." ++ p.category

/-- What is wrong with settings. -/
inductive SettingsProblem where
  /-- The level is none of the five names. -/
  | levelName (level : String)
  /-- The level is neither a name nor a number of a level. -/
  | levelText (level : String)
  | blankCheckName
  | blankRole (check : String)
  | blankEntityName
  | blankCategory (entity : String)
  /-- A category that no rule can be declared for. -/
  | noCategory (entity : String)
  | invalidRule (place : RulePlace) (error : RuleError)
  | unknownCheck (place : RulePlace) (name : String) (known : List String)
  deriving DecidableEq

/-- The names of levels that settings may use. -/
def LogSettings.levelNames : List String := ["trace", "debug", "info", "warn", "error"]

/-- The wording of a problem. -/
def SettingsProblem.message : SettingsProblem → String
  | levelName level =>
    "logging.level must be one of: " ++ Text.outlineList (LogSettings.levelNames.map Text.quoted) ++
      ", got: " ++ level
  | levelText level => "logging.level: unknown level '" ++ level ++ "'"
  | blankCheckName => "policy.checks names must not be empty"
  | blankRole check => "policy.checks." ++ check ++ ": role checks require a non-empty role"
  | blankEntityName => "policy.entities entries require a name"
  | blankCategory entity =>
    "policy.entities." ++ entity ++ ": permission category must not be empty"
  | noCategory entity => "policy.entities." ++ entity ++ ": " ++ Category.emptyMessage
  | invalidRule place error => place.path ++ ": " ++ error.text
  | unknownCheck place name known =>
    place.path ++ ": unknown check '" ++ name ++ "' (configured checks: " ++
      ", ".intercalate known ++ ")"

/-- Why settings cannot be used. -/
inductive SettingsError where
  /-- The text is no settings at all. -/
  | unreadable
  | fileNotFound (path : String)
  | invalid (problem : SettingsProblem)
  deriving DecidableEq

/-- The wording of an error. -/
def SettingsError.message : SettingsError → String
  | unreadable => "failed to load configuration"
  | fileNotFound path => "configuration file not found: " ++ path
  | invalid problem => "invalid configuration: " ++ problem.message

/-! ## 3. Validation -/

/-- The problem with a check, if there is one. -/
def CheckBinding.problem? (name : String) (b : CheckBinding) : Option SettingsProblem :=
  if Text.isBlank name then some .blankCheckName
  else
    match b with
    | role r => if Text.isBlank r then some (.blankRole name) else none
    | _ => none

/-- The categories that an entity mentions: its own first, then those of its fields. -/
def EntityRules.categories (e : EntityRules) : List String :=
  e.permissions.names ++ e.fields.entries.flatMap fun f => f.2.names

/-- The problem with an entity, if there is one. -/
def EntityRules.problem? (e : EntityRules) : Option SettingsProblem :=
  if Text.isBlank e.name then some .blankEntityName
  else if e.categories.any Text.isBlank then some (.blankCategory e.name)
  else none

/-- The problem with the log settings, if there is one. -/
def LogSettings.problem? (l : LogSettings) : Option SettingsProblem :=
  if levelNames.contains (Text.lower l.level) then none else some (.levelName l.level)

/-- The first problem with the settings, if there is one. -/
def ServerSettings.problem? (s : ServerSettings) : Option SettingsProblem :=
  match s.log.problem? with
  | some p => some p
  | none =>
    match s.policy.checks.entries.findSome? fun c => c.2.problem? c.1 with
    | some p => some p
    | none => s.policy.entities.findSome? EntityRules.problem?

/-- Accepts settings without a problem. -/
def ServerSettings.validate (s : ServerSettings) : Except SettingsError Unit :=
  match s.problem? with
  | some p => .error (.invalid p)
  | none => .ok ()

end AccessRules
