/-
# Implementations under other numbers

The number of an implementation is its place on the shelf of a dictionary, so it tells which
implementation came first.  Nothing else depends on that order.  If two dictionaries declare the
same rules and bind every name to the same procedure, under numbers that a function `f` takes from
the one to the other, then a plan made under the second is that made under the first, with the
numbers at its leaves changed by `f`.

* `Dictionary.Renumbers`: what the two dictionaries must have in common;
* `Renumbers.compile`, `Renumbers.obstacle?`: rules bind alike and have the same faults;
* `RequestScope.plan_fst_of_renumbers`: plans are the same up to the numbers.
-/
import AccessRules.Proofs.Building

namespace AccessRules

/-! ## 1. Other numbers -/

section Renumber

variable (f : CheckId → CheckId)

/-- The implementation under another number. -/
def Check.renumber (c : Check) : Check := ⟨f c.id, c.procedure⟩

/-- A named check with the implementation under another number. -/
def NamedCheck.renumber (c : NamedCheck) : NamedCheck := ⟨c.name, c.check.renumber f⟩

/-- A bound rule with other numbers at its leaves. -/
def BoundRule.renumber (r : BoundRule) : BoundRule := ⟨r.source, r.formula.map (·.renumber f)⟩

/-- A tree with other numbers at its leaves. -/
def Tree.renumber : Tree → Tree
  | check leaf s => .check { leaf with check := leaf.check.renumber f } s
  | constant passed label s => .constant passed label s
  | deferred name s => .deferred name s
  | and l r s => .and l.renumber r.renumber s
  | or l r s => .or l.renumber r.renumber s
  | not c s => .not c.renumber s
  | anyField condition fields entity s => .anyField condition fields.renumber entity.renumber s
  | fieldRule condition r s => .fieldRule condition r.renumber s
  | entityRule condition r s => .entityRule condition r.renumber s
  | unrestricted condition s => .unrestricted condition s

/-- A plan with other numbers at its leaves. -/
def Plan.renumber (p : Plan) : Plan := ⟨p.preview.renumber f, p.commit.renumber f⟩

@[simp] theorem Check.kind_renumber (c : Check) : (c.renumber f).kind = c.kind := rfl

@[simp] theorem Tree.renumber_id (t : Tree) : t.renumber id = t := by
  induction t with
  | check _ _ | constant _ _ _ | deferred _ _ | unrestricted _ _ => rfl
  | and l r s ihl ihr | or l r s ihl ihr | anyField _ l r s ihl ihr => simp [renumber, ihl, ihr]
  | not c s ih | fieldRule _ c s ih | entityRule _ c s ih => simp [renumber, ih]

@[simp] theorem Plan.renumber_id (p : Plan) : p.renumber id = p := by simp [renumber]

/-! ## 2. From rules to trees -/

/-- Replacing leaves by what is then mapped is mapping what replaces them. -/
theorem Formula.mapM?_map {α β γ ε : Type} (g : α → Except ε β) (h : β → γ) (φ : Formula α) :
    φ.mapM? (fun a => (g a).map h) = (φ.mapM? g).map (Formula.map h) := by
  induction φ with
  | leaf a => rw [mapM?, mapM?]; cases g a <;> rfl
  | and l r ihl ihr | or l r ihl ihr =>
    rw [mapM?, mapM?, ihl, ihr]
    cases l.mapM? g with
    | error e => rfl
    | ok l' => cases r.mapM? g <;> rfl
  | not c ih =>
    rw [mapM?, mapM?, ih]
    cases c.mapM? g <;> rfl

theorem Phase.renumber_leaf (p : Phase) (situation : Situation) (c : NamedCheck) :
    (p.leaf situation c).renumber f = p.leaf situation (c.renumber f) := by
  cases p with
  | commit => rfl
  | preview =>
    simp only [Phase.leaf, NamedCheck.renumber, Check.kind_renumber]
    cases c.check.kind <;> rfl

theorem Formula.renumber_tree {leaf : NamedCheck → Tree}
    (h : ∀ c, (leaf c).renumber f = leaf (c.renumber f)) (φ : Formula NamedCheck) :
    (φ.tree leaf).renumber f = (φ.map (·.renumber f)).tree leaf := by
  induction φ with
  | leaf c => exact h c
  | and l r ihl ihr | or l r ihl ihr => simp [tree, map, Tree.renumber, ihl, ihr]
  | not c ih => simp [tree, map, Tree.renumber, ih]

theorem BoundRule.renumber_tree (p : Phase) (situation : Situation) (r : BoundRule) :
    (r.tree p situation).renumber f = (r.renumber f).tree p situation :=
  Formula.renumber_tree f (p.renumber_leaf f situation) r.formula

theorem Tree.renumber_anyOf (ts : List Tree) :
    (anyOf ts).renumber f = anyOf (ts.map (·.renumber f)) :=
  map_anyOf (·.renumber f) (fun _ _ => rfl) rfl ts

end Renumber

/-! ## 3. Dictionaries with other numbers -/

/-- Two dictionaries that declare the same rules and bind the same procedures, the second under the
numbers that `f` takes those of the first to. -/
structure Dictionary.Renumbers (f : CheckId → CheckId) (d d' : Dictionary) : Prop where
  declares : ∀ typeName, d'.declares typeName = d.declares typeName
  rule : ∀ typeName category, d'.ruleText? typeName category = d.ruleText? typeName category
  fieldRule : ∀ typeName name category,
    d'.fieldRuleText? typeName name category = d.fieldRuleText? typeName name category
  check : ∀ name, d'.check? name = (d.check? name).map (·.renumber f)

namespace Dictionary.Renumbers

variable {f : CheckId → CheckId} {d d' : Dictionary} (h : d.Renumbers f d')

include h

/-- **Rules bind alike**, with the same errors. -/
theorem compile (text : String) : d'.compile text = (d.compile text).map (·.renumber f) := by
  have hname : d'.bindName = fun name => (d.bindName name).map (·.renumber f) := by
    funext name
    rw [bindName, bindName, h.check]
    cases d.check? name <;> rfl
  rw [Dictionary.compile, Dictionary.compile]
  cases Rule.parse text with
  | error e => rfl
  | ok r =>
    dsimp only
    rw [bindRule, bindRule, hname, Formula.mapM?_map]
    cases r.mapM? d.bindName <;> rfl

theorem fields (typeName : String) (category : Category) :
    d'.fieldsWithRule typeName category = d.fieldsWithRule typeName category :=
  fieldsWithRule_congr fun name => h.fieldRule typeName name category

theorem declared? (typeName : String) (category : Category) (place : Option String) :
    d'.declared? typeName category place = d.declared? typeName category place := by
  cases place with
  | none => exact h.rule typeName category
  | some name => exact h.fieldRule typeName name category

theorem rule? (typeName : String) (category : Category) (place : Option String) :
    d'.rule? typeName category place =
      (d.rule? typeName category place).map (·.renumber f) := by
  rw [Dictionary.rule?, Dictionary.rule?, h.declared?]
  cases d.declared? typeName category place with
  | none => rfl
  | some text =>
    rw [Option.bind_some, Option.bind_some, h.compile]
    cases d.compile text <;> rfl

theorem obstacle? (typeName : String) (category : Category) (field : Option String) :
    d'.obstacle? typeName category field = d.obstacle? typeName category field := by
  have hfault : d'.fault? typeName category = d.fault? typeName category := by
    funext place
    rw [fault?, fault?, h.declared?]
    cases d.declared? typeName category place with
    | none => rfl
    | some text =>
      dsimp only
      rw [h.compile]
      cases d.compile text <;> rfl
  have hplaces : d'.places typeName category field = d.places typeName category field := by
    cases field with
    | none => rw [places, places, h.fields]
    | some name => rfl
  rw [Dictionary.obstacle?, Dictionary.obstacle?, h.declares, hplaces, hfault]

end Dictionary.Renumbers

namespace RequestScope

variable {f : CheckId → CheckId} (scope : RequestScope) {d : Dictionary}
  (h : scope.dictionary.Renumbers f d) (resource : Resource) (category : Category)
  (field : Option String) (change : Option Change)

include h

theorem tree_of_renumbers (p : Phase) :
    { scope with dictionary := d }.tree resource category field change p =
      (scope.tree resource category field change p).renumber f := by
  cases field with
  | none =>
    simp only [tree, wholeTree, Tree.forResource, Tree.renumber, Tree.renumber_anyOf, h.fields,
      h.rule?, ← List.map_filterMap, List.map_map, Function.comp_def, BoundRule.renumber_tree]
    cases scope.dictionary.rule? resource.typeName category none with
    | none => rfl
    | some rule =>
      simp only [Option.map_some, Option.getD_some, BoundRule.renumber_tree]
      rfl
  | some name =>
    simp only [tree, fieldTree, h.rule?]
    cases scope.dictionary.rule? resource.typeName category (some name) with
    | some rule =>
      simp only [Option.map_some, Tree.forField, Tree.renumber, BoundRule.renumber_tree]
      rfl
    | none =>
      cases scope.dictionary.rule? resource.typeName category none with
      | some rule =>
        simp only [Option.map_some, Option.map_none, Tree.forField, Tree.renumber,
          BoundRule.renumber_tree]
        rfl
      | none => rfl

/-- **Plans are the same up to the numbers.** -/
theorem plan_fst_of_renumbers (s : Session) :
    ({ scope with dictionary := d }.plan resource category field change s).1 =
      (scope.plan resource category field change s).1.map (·.renumber f) := by
  rw [plan_fst, plan_fst, h.obstacle?, tree_of_renumbers scope h, tree_of_renumbers scope h]
  cases scope.dictionary.obstacle? resource.typeName category field <;> rfl

end RequestScope

end AccessRules
