/-
# Plans: the two trees of a decision

A decision is taken twice.  The *preview* tree is evaluated before anything changes and holds a
deferred node in the place of every operation check; the *commit* tree has the same shape and asks
all checks, once the changes are staged.

The decision about a resource as a whole passes if the rule of any field does, and otherwise goes
by the rule of the type.  The decision about one field goes by its own rule, else by the rule of
the type.  Either way a missing rule of the type passes.

A plan consults the rule of the type first and then the rules of fields in ascending order of
their names.  Every rule it consults must be in order, even one that could not change the
decision.
-/
import AccessRules.Session.Basic

namespace AccessRules

/-! ## 1. Consulting rules -/

/-- Binds the rule that is declared for a type, or for a field of it. -/
def Dictionary.consult (d : Dictionary) (typeName : String) (field : Option String)
    (category : Category) (text : String) (book : RuleBook) :
    Except Failure BoundRule × RuleBook :=
  match book.bind d text with
  | (.ok rule, book) => (.ok rule, book)
  | (.error e, book) => (.error (.invalidRule typeName field category.name text e), book)

/-- Binds the rule that is declared, if one is. -/
def Dictionary.consult? (d : Dictionary) (typeName : String) (field : Option String)
    (category : Category) (text : Option String) (book : RuleBook) :
    Except Failure (Option BoundRule) × RuleBook :=
  match text with
  | none => (.ok none, book)
  | some text =>
    match d.consult typeName field category text book with
    | (.ok rule, book) => (.ok (some rule), book)
    | (.error e, book) => (.error e, book)

/-- Binds the rules of fields one after the other, up to the first that fails. -/
def Dictionary.consultFields (d : Dictionary) (typeName : String) (category : Category) :
    List String → RuleBook → Except Failure (List BoundRule) × RuleBook
  | [], book => (.ok [], book)
  | field :: fields, book =>
    match d.consult? typeName (some field) category (d.fieldRuleText? typeName field category)
        book with
    | (.error e, book) => (.error e, book)
    | (.ok rule, book) =>
      match d.consultFields typeName category fields book with
      | (.error e, book) => (.error e, book)
      | (.ok rules, book) => (.ok (rule.toList ++ rules), book)

/-! ## 2. From rules to trees -/

/-- The tree of a formula, with the given trees for its leaves. -/
def Formula.tree {α : Type} (leaf : α → Tree) : Formula α → Tree
  | .leaf a => leaf a
  | .and l r => .and (l.tree leaf) (r.tree leaf) .unevaluated
  | .or l r => .or (l.tree leaf) (r.tree leaf) .unevaluated
  | .not c => .not (c.tree leaf) .unevaluated

/-- The two phases of a decision. -/
inductive Phase where
  /-- Before anything changes. -/
  | preview
  /-- Once the changes are staged. -/
  | commit
  deriving DecidableEq

/-- The leaf of a check in one phase. -/
def Phase.leaf (phase : Phase) (situation : Situation) (c : NamedCheck) : Tree :=
  match phase, c.check.kind with
  | .preview, .operation => .later c.name
  | _, _ => .ofLeaf ⟨c.name, c.check, situation⟩

/-- The tree of a bound rule in one phase. -/
def BoundRule.tree (phase : Phase) (situation : Situation) (r : BoundRule) : Tree :=
  r.formula.tree (phase.leaf situation)

/-- The disjunction of trees, to the left; it fails if there is none. -/
def Tree.anyOf : List Tree → Tree
  | [] => .failure
  | t :: ts => ts.foldl (fun l r => .or l r .unevaluated) t

/-! ## 3. Plans -/

/-- What the decisions of a request share. -/
structure RequestScope where
  dictionary : Dictionary
  user : User
  request : Nat

/-- The two trees of a decision. -/
structure Plan where
  preview : Tree
  commit : Tree

namespace RequestScope

/-- What checks are asked about in one phase: the preview shows no change. -/
def situation (scope : RequestScope) (condition : Condition) : Phase → Situation
  | .preview => ⟨condition.resource, condition.category, none, scope.user, scope.request⟩
  | .commit =>
    ⟨condition.resource, condition.category, condition.change, scope.user, scope.request⟩

/-- The tree for a resource as a whole in one phase. -/
def wholeTree (scope : RequestScope) (condition : Condition) (entity : Option BoundRule)
    (fields : List BoundRule) (phase : Phase) : Tree :=
  let situation := scope.situation condition phase
  .forResource condition (.anyOf (fields.map (·.tree phase situation)))
    ((entity.map (·.tree phase situation)).getD .success)

/-- The tree for one field in one phase. -/
def fieldTree (scope : RequestScope) (condition : Condition) (entity field : Option BoundRule)
    (phase : Phase) : Tree :=
  let situation := scope.situation condition phase
  .forField condition (field.map (·.tree phase situation)) (entity.map (·.tree phase situation))

/-- Plans the decision about a resource as a whole. -/
def planWhole (scope : RequestScope) (resource : Resource) (category : Category)
    (change : Option Change) (s : Session) : Except Failure Plan × Session :=
  let d := scope.dictionary
  let typeName := resource.typeName
  if d.declares typeName then
    match d.consult? typeName none category (d.ruleText? typeName category) s.book with
    | (.error e, book) => (.error e, { s with book })
    | (.ok entity, book) =>
      match d.consultFields typeName category (d.fieldsWithRule typeName category) book with
      | (.error e, book) => (.error e, { s with book })
      | (.ok fields, book) =>
        let tree := scope.wholeTree ⟨category, resource, none, change⟩ entity fields
        let plan : Plan := ⟨tree .preview, tree .commit⟩
        (.ok plan, { s with book }.report
          (.plannedWhole resource.text category fields.length plan.commit.text))
  else (.error (.typeNotFound typeName), s)

/-- Plans the decision about one field. -/
def planField (scope : RequestScope) (resource : Resource) (category : Category)
    (field : String) (change : Option Change) (s : Session) : Except Failure Plan × Session :=
  let d := scope.dictionary
  let typeName := resource.typeName
  if d.declares typeName then
    match d.consult? typeName none category (d.ruleText? typeName category) s.book with
    | (.error e, book) => (.error e, { s with book })
    | (.ok entity, book) =>
      match d.consult? typeName (some field) category (d.fieldRuleText? typeName field category)
          book with
      | (.error e, book) => (.error e, { s with book })
      | (.ok rule, book) =>
        let tree := scope.fieldTree ⟨category, resource, some field, change⟩ entity rule
        let plan : Plan := ⟨tree .preview, tree .commit⟩
        (.ok plan, { s with book }.report
          (.plannedField resource.text category field plan.commit.text))
  else (.error (.typeNotFound typeName), s)

/-- The outline of what the decisions of a request share. -/
def outline (scope : RequestScope) (s : Session) : String :=
  Text.outline "PermissionExpressionBuilder" [("cache", (s.answers scope.request).outline),
    ("compiler", s.book.outline), ("user", scope.user.outline)]

end RequestScope

end AccessRules
