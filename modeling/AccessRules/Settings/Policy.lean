/-
# From a policy to a dictionary

Every check of the policy is bound under its name and every entity declared, in their order.
Then every rule must be in order: it must be a rule, and every name in it must be bound.  A
category that names nothing comes before any trouble with a rule.
-/
import AccessRules.Policy.Dictionary
import AccessRules.Settings.Basic

namespace AccessRules

/-- The procedure of a ready-made check. -/
def CheckBinding.procedure : CheckBinding → Procedure
  | allow => .allow
  | deny => .deny
  | role name => .role name

namespace EntityRules

/-- The category that a key of the settings names. -/
def category (e : EntityRules) (key : String) : Except SettingsProblem Category :=
  match Category.parse? key with
  | some c => .ok c
  | none => .error (.noCategory e.name)

/-- Declares the rules of the entity as a whole. -/
def declarePermissions (e : EntityRules) (rules : List (String × String)) (d : Declaration) :
    Except SettingsProblem Declaration :=
  rules.foldlM (fun d r => (e.category r.1).map fun c => d.permission c r.2) d

/-- Declares a field and its rules. -/
def declareField (e : EntityRules) (d : Declaration) (field : String × SortedMap String) :
    Except SettingsProblem Declaration :=
  field.2.entries.foldlM
    (fun d r => (e.category r.1).map fun c => d.fieldPermission field.1 c r.2) (d.field field.1)

/-- The declaration of an entity. -/
def declaration (e : EntityRules) : Except SettingsProblem Declaration :=
  match e.declarePermissions e.permissions.entries (.bare e.name) with
  | .error p => .error p
  | .ok d => e.fields.entries.foldlM e.declareField d

/-- The rules of an entity with their places: its own first, then those of its fields. -/
def rules (e : EntityRules) : List (RulePlace × String) :=
  e.permissions.entries.map (fun r => (⟨e.name, none, r.1⟩, r.2)) ++
    e.fields.entries.flatMap fun f => f.2.entries.map fun r => (⟨e.name, some f.1, r.1⟩, r.2)

end EntityRules

namespace PolicySettings

/-- The dictionary with the checks of the policy. -/
def checkDictionary (p : PolicySettings) : Dictionary :=
  p.checks.entries.foldl (fun d c => d.addCheck c.1 c.2.procedure) .empty

/-- The dictionary with the checks and the declarations of the policy. -/
def declare (p : PolicySettings) : Except SettingsProblem Dictionary :=
  p.entities.foldlM (fun d e => e.declaration.map d.addType) p.checkDictionary

/-- The problem with a rule, given the bound names, if there is one. -/
def ruleProblem? (known : List String) (rule : RulePlace × String) : Option SettingsProblem :=
  match Rule.parse rule.2 with
  | .error e => some (.invalidRule rule.1 e)
  | .ok r =>
    (r.leaves.find? fun name => !known.contains name).map fun name =>
      .unknownCheck rule.1 name known

/-- The rules of the policy with their places. -/
def rules (p : PolicySettings) : List (RulePlace × String) := p.entities.flatMap EntityRules.rules

/-- The dictionary of the policy. -/
def dictionary (p : PolicySettings) : Except SettingsProblem Dictionary :=
  match p.declare with
  | .error e => .error e
  | .ok d =>
    match p.rules.findSome? (ruleProblem? d.checkNames) with
    | some e => .error e
    | none => .ok d

end PolicySettings

end AccessRules
