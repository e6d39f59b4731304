/-
# What a plan is made of

Planning consults the book of rules, and the book may grow; but what a plan comes to depends on the
dictionary alone.  `Dictionary.obstacle?` says what keeps a decision from being planned: a type that
is not declared, or the first consulted rule that cannot be used, whether or not it could matter.
Where there is no obstacle, `RequestScope.tree` is the tree of either phase.

* `plan_fst`: planning gives the obstacle or the two trees;
* `plan_quiet`: planning asks no check and leaves all answers alone;
* `tree_related`: the trees of the two phases differ at their leaves alone;
* `fresh_tree`, `fits_of_mem_tree`: they are fresh, and their leaves ask bound checks about what is
  shown in the phase.
-/
import AccessRules.Proofs.Ledger
import Mathlib.Data.List.Forall2

namespace AccessRules

/-! ## 1. Rules and what is wrong with them -/

namespace Dictionary

/-- The rule text of a type, or of a field of it. -/
def declared? (d : Dictionary) (typeName : String) (category : Category) :
    Option String → Option String
  | none => d.ruleText? typeName category
  | some field => d.fieldRuleText? typeName field category

/-- Where a decision looks for rules: at the type, and then at its field, or at every field with a
rule of its own where it is about the resource as a whole. -/
def places (d : Dictionary) (typeName : String) (category : Category) :
    Option String → List (Option String)
  | some field => [none, some field]
  | none => none :: (d.fieldsWithRule typeName category).map some

/-- The failure of the rule at a place, if one is declared there that cannot be used. -/
def fault? (d : Dictionary) (typeName : String) (category : Category) (place : Option String) :
    Option Failure :=
  match d.declared? typeName category place with
  | none => none
  | some text =>
    match d.compile text with
    | .ok _ => none
    | .error e => some (.invalidRule typeName place category.name text e)

/-- The bound rule at a place, if a usable one is declared there. -/
def rule? (d : Dictionary) (typeName : String) (category : Category) (place : Option String) :
    Option BoundRule :=
  (d.declared? typeName category place).bind fun text => (d.compile text).toOption

/-- What keeps a decision from being planned, if anything does. -/
def obstacle? (d : Dictionary) (typeName : String) (category : Category) (field : Option String) :
    Option Failure :=
  if d.declares typeName then
    (d.places typeName category field).findSome? (d.fault? typeName category)
  else some (.typeNotFound typeName)

/-- An obstacle is a type that is not declared, or a consulted rule that cannot be used. -/
theorem isSome_obstacle?_iff {d : Dictionary} {typeName : String} {category : Category}
    {field : Option String} : (d.obstacle? typeName category field).isSome ↔
      d.declares typeName = false ∨ ∃ place ∈ d.places typeName category field, ∃ text e,
        d.declared? typeName category place = some text ∧ d.compile text = .error e := by
  have hfault : ∀ place, (d.fault? typeName category place).isSome ↔ ∃ text e,
      d.declared? typeName category place = some text ∧ d.compile text = .error e := by
    intro place
    rw [fault?]
    cases ht : d.declared? typeName category place with
    | none => simp
    | some text => cases hc : d.compile text <;> simp [hc]
  rw [obstacle?]
  cases hd : d.declares typeName with
  | false => simp
  | true => simp only [if_true, List.findSome?_isSome_iff, hfault, Bool.true_eq_false, false_or]

theorem fault?_eq_none_of_unobstructed {d : Dictionary} {typeName : String} {category : Category}
    {field : Option String} (h : d.obstacle? typeName category field = none) :
    ∀ place ∈ d.places typeName category field, d.fault? typeName category place = none := by
  rw [obstacle?] at h
  split at h
  · exact List.findSome?_eq_none_iff.mp h
  · cases h

/-- An obstacle is no denial. -/
theorem obstacle?_ne_forbidden {d : Dictionary} {typeName : String} {category : Category}
    {field : Option String} {f : Failure} (h : d.obstacle? typeName category field = some f)
    (name resource diagnostic : String) : f ≠ .forbidden name resource diagnostic := by
  rintro rfl
  rw [obstacle?] at h
  split at h
  · obtain ⟨place, -, hplace⟩ := List.exists_of_findSome?_eq_some h
    rw [fault?] at hplace
    split at hplace
    · cases hplace
    · split at hplace <;> cases hplace
  · cases h

/-! ## 2. Consulting -/

variable (d : Dictionary) (typeName : String) (category : Category)

/-- Consulting the rule at a place gives its fault or the bound rule. -/
theorem consult?_eq (place : Option String) (book : RuleBook) :
    ∃ book', d.consult? typeName place category (d.declared? typeName category place) book =
      (match d.fault? typeName category place with
        | some f => .error f
        | none => .ok (d.rule? typeName category place), book') := by
  unfold fault? rule?
  cases d.declared? typeName category place with
  | none => exact ⟨book, rfl⟩
  | some text =>
    have hbind : (book.bind d text).1 = d.compile text := book.bind_fst d text
    simp only [consult?, consult, Option.bind_some]
    generalize book.bind d text = out at hbind ⊢
    obtain ⟨outcome, book'⟩ := out
    obtain rfl : outcome = d.compile text := hbind
    exact ⟨book', by cases d.compile text <;> rfl⟩

/-- Consulting the rules of fields gives the first fault or all bound rules. -/
theorem consultFields_eq (fields : List String) (book : RuleBook) :
    ∃ book', d.consultFields typeName category fields book =
      (match (fields.map some).findSome? (d.fault? typeName category) with
        | some f => .error f
        | none => .ok (fields.filterMap fun field => d.rule? typeName category (some field)),
        book') := by
  induction fields generalizing book with
  | nil => exact ⟨book, rfl⟩
  | cons field fields ih =>
    obtain ⟨book', hhead⟩ := d.consult?_eq typeName category (some field) book
    obtain ⟨book'', htail⟩ := ih book'
    rw [declared?] at hhead
    rw [consultFields, hhead, List.map_cons, List.findSome?_cons, List.filterMap_cons]
    cases d.fault? typeName category (some field) with
    | some f => exact ⟨book', rfl⟩
    | none =>
      simp only [htail]
      cases (fields.map some).findSome? (d.fault? typeName category) with
      | some f => exact ⟨book'', rfl⟩
      | none =>
        refine ⟨book'', ?_⟩
        cases d.rule? typeName category (some field) <;> rfl

end Dictionary

/-! ## 3. Plans -/

/-- From one session to another nothing was asked: the account and all answers are the same. -/
structure Session.Quiet (s s' : Session) : Prop where
  lookUps : s'.lookUps = s.lookUps
  requests : s'.requests = s.requests

namespace RequestScope

/-- Plans the decision about one field, or about the resource as a whole. -/
def plan (scope : RequestScope) (resource : Resource) (category : Category) :
    Option String → Option Change → Session → Except Failure Plan × Session
  | some field, change, s => scope.planField resource category field change s
  | none, change, s => scope.planWhole resource category change s

/-- The tree of a decision in one phase, made of the rules that can be used. -/
def tree (scope : RequestScope) (resource : Resource) (category : Category)
    (field : Option String) (change : Option Change) (phase : Phase) : Tree :=
  let d := scope.dictionary
  let rule := d.rule? resource.typeName category
  match field with
  | some field =>
    scope.fieldTree ⟨category, resource, some field, change⟩ (rule none) (rule (some field)) phase
  | none =>
    scope.wholeTree ⟨category, resource, none, change⟩ (rule none)
      ((d.fieldsWithRule resource.typeName category).filterMap fun field => rule (some field)) phase

variable (scope : RequestScope) (resource : Resource) (category : Category)
  (field : Option String) (change : Option Change) (s : Session)

/-- **Planning gives the obstacle or the two trees**, whatever the book holds. -/
theorem plan_fst :
    (scope.plan resource category field change s).1 =
      match scope.dictionary.obstacle? resource.typeName category field with
      | some f => .error f
      | none => .ok ⟨scope.tree resource category field change .preview,
          scope.tree resource category field change .commit⟩ := by
  cases hd : scope.dictionary.declares resource.typeName with
  | false => cases field <;> simp [plan, planField, planWhole, Dictionary.obstacle?, hd]
  | true =>
    obtain ⟨book, hentity⟩ :=
      scope.dictionary.consult?_eq resource.typeName category none s.book
    rw [Dictionary.declared?] at hentity
    cases field with
    | none =>
      obtain ⟨book', hfields⟩ := scope.dictionary.consultFields_eq resource.typeName category
        (scope.dictionary.fieldsWithRule resource.typeName category) book
      simp only [plan, planWhole, Dictionary.obstacle?, hd, if_true, Dictionary.places, hentity,
        List.findSome?_cons]
      cases scope.dictionary.fault? resource.typeName category none with
      | some f => rfl
      | none =>
        simp only [hfields]
        cases ((scope.dictionary.fieldsWithRule resource.typeName category).map some).findSome?
          (scope.dictionary.fault? resource.typeName category) <;> rfl
    | some field =>
      obtain ⟨book', hfield⟩ :=
        scope.dictionary.consult?_eq resource.typeName category (some field) book
      rw [Dictionary.declared?] at hfield
      simp only [plan, planField, Dictionary.obstacle?, hd, if_true, Dictionary.places, hentity,
        List.findSome?_cons, List.findSome?_nil]
      cases scope.dictionary.fault? resource.typeName category none with
      | some f => rfl
      | none =>
        simp only [hfield]
        cases scope.dictionary.fault? resource.typeName category (some field) <;> rfl

/-- Where nothing is in the way, planning gives the two trees. -/
theorem plan_of_unobstructed
    (h : scope.dictionary.obstacle? resource.typeName category field = none) :
    (scope.plan resource category field change s).1 =
      .ok ⟨scope.tree resource category field change .preview,
        scope.tree resource category field change .commit⟩ := by
  rw [plan_fst, h]

/-- The trees of a plan that was made. -/
theorem plan_eq_ok {scope : RequestScope} {resource : Resource} {category : Category}
    {field : Option String} {change : Option Change} {s : Session} {plan : Plan}
    (h : (scope.plan resource category field change s).1 = .ok plan) :
    plan = ⟨scope.tree resource category field change .preview,
      scope.tree resource category field change .commit⟩ := by
  rw [plan_fst] at h
  cases ho : scope.dictionary.obstacle? resource.typeName category field with
  | some f =>
    rw [ho] at h
    cases h
  | none =>
    rw [ho] at h
    exact (Except.ok.inj h).symm

/-- Planning reads rules and reports; it asks no check and leaves all answers alone. -/
theorem plan_quiet : s.Quiet (scope.plan resource category field change s).2 := by
  cases field with
  | none =>
    simp only [plan, planWhole]
    split
    · split
      · exact ⟨rfl, rfl⟩
      · split
        · exact ⟨rfl, rfl⟩
        · exact ⟨rfl, rfl⟩
    · exact ⟨rfl, rfl⟩
  | some field =>
    simp only [plan, planField]
    split
    · split
      · exact ⟨rfl, rfl⟩
      · split
        · exact ⟨rfl, rfl⟩
        · exact ⟨rfl, rfl⟩
    · exact ⟨rfl, rfl⟩

/-- Planning looks at the book alone, and adds to the events. -/
theorem plan_of_book_eq {s s' : Session} (h : s'.book = s.book) :
    (scope.plan resource category field change s').1 =
        (scope.plan resource category field change s).1 ∧
      (scope.plan resource category field change s').2.book =
        (scope.plan resource category field change s).2.book ∧
      ∃ es, (scope.plan resource category field change s').2.events = es ++ s'.events ∧
        (scope.plan resource category field change s).2.events = es ++ s.events := by
  cases field with
  | none =>
    simp only [plan, planWhole, h]
    split
    · split
      · exact ⟨rfl, rfl, [], rfl, rfl⟩
      · split
        · exact ⟨rfl, rfl, [], rfl, rfl⟩
        · exact ⟨rfl, rfl, [_], rfl, rfl⟩
    · exact ⟨rfl, h, [], rfl, rfl⟩
  | some field =>
    simp only [plan, planField, h]
    split
    · split
      · exact ⟨rfl, rfl, [], rfl, rfl⟩
      · split
        · exact ⟨rfl, rfl, [], rfl, rfl⟩
        · exact ⟨rfl, rfl, [_], rfl, rfl⟩
    · exact ⟨rfl, h, [], rfl, rfl⟩

end RequestScope

/-! ## 4. The names of a rule that was bound -/

namespace Formula

variable {α β ε : Type} {f : α → Except ε β}

/-- A formula with what `f` gives in the place of every leaf. -/
inductive Replaces (f : α → Except ε β) : Formula α → Formula β → Prop where
  | leaf {a : α} {b : β} (h : f a = .ok b) : Replaces f (.leaf a) (.leaf b)
  | and {l r : Formula α} {l' r' : Formula β} (hl : Replaces f l l') (hr : Replaces f r r') :
      Replaces f (.and l r) (.and l' r')
  | or {l r : Formula α} {l' r' : Formula β} (hl : Replaces f l l') (hr : Replaces f r r') :
      Replaces f (.or l r) (.or l' r')
  | not {c : Formula α} {c' : Formula β} (hc : Replaces f c c') : Replaces f (.not c) (.not c')

theorem replaces_of_mapM? {φ : Formula α} {ψ : Formula β} (h : φ.mapM? f = .ok ψ) :
    Replaces f φ ψ := by
  induction φ generalizing ψ with
  | leaf a =>
    rw [mapM?] at h
    split at h
    · cases h
    · next b hb =>
      cases h
      exact .leaf hb
  | and l r ihl ihr =>
    rw [mapM?] at h
    split at h
    · cases h
    · next l' hl =>
      split at h
      · cases h
      · next r' hr =>
        cases h
        exact .and (ihl hl) (ihr hr)
  | or l r ihl ihr =>
    rw [mapM?] at h
    split at h
    · cases h
    · next l' hl =>
      split at h
      · cases h
      · next r' hr =>
        cases h
        exact .or (ihl hl) (ihr hr)
  | not c ih =>
    rw [mapM?] at h
    split at h
    · cases h
    · next c' hc =>
      cases h
      exact .not (ih hc)

/-- Every leaf of the new formula was given for a leaf of the old one. -/
theorem Replaces.exists_leaf {φ : Formula α} {ψ : Formula β} (h : Replaces f φ ψ) {b : β}
    (hb : b ∈ ψ.leaves) : ∃ a ∈ φ.leaves, f a = .ok b := by
  induction h with
  | leaf h =>
    obtain rfl := List.mem_singleton.mp hb
    exact ⟨_, List.mem_singleton_self _, h⟩
  | and _ _ ihl ihr | or _ _ ihl ihr =>
    rcases List.mem_append.mp hb with hb | hb
    · obtain ⟨a, ha, hab⟩ := ihl hb
      exact ⟨a, List.mem_append_left _ ha, hab⟩
    · obtain ⟨a, ha, hab⟩ := ihr hb
      exact ⟨a, List.mem_append_right _ ha, hab⟩
  | not _ ih => exact ih hb

/-- Replacing leaves by such of the same value keeps the value. -/
theorem Replaces.value_eq {φ : Formula α} {ψ : Formula β} (h : Replaces f φ ψ) {v : α → Bool}
    {w : β → Bool} (hvw : ∀ a b, f a = .ok b → w b = v a) : ψ.value w = φ.value v := by
  induction h with
  | leaf h => exact hvw _ _ h
  | and _ _ ihl ihr => rw [value, value, ihl, ihr]
  | or _ _ ihl ihr => rw [value, value, ihl, ihr]
  | not _ ih => rw [value, value, ih]

end Formula

namespace Dictionary

/-- A rule that can be used is one that was read, with a check for every name. -/
theorem compile_eq_ok {d : Dictionary} {text : String} {rule : BoundRule}
    (h : d.compile text = .ok rule) :
    ∃ r, Rule.parse text = .ok r ∧ Formula.Replaces d.bindName r rule.formula := by
  rw [compile] at h
  split at h
  · cases h
  · next r hr =>
    split at h
    · cases h
    · next formula hf =>
      cases h
      exact ⟨r, hr, Formula.replaces_of_mapM? hf⟩

/-- A name is bound to its check. -/
theorem check?_of_bindName {d : Dictionary} {name : String} {c : NamedCheck}
    (h : d.bindName name = .ok c) : c.name = name ∧ d.check? name = some c.check := by
  rw [bindName] at h
  split at h
  · next check hcheck =>
    cases h
    exact ⟨rfl, hcheck⟩
  · cases h

/-- A usable rule is one whose text is declared and can be used. -/
theorem compile_of_rule? {d : Dictionary} {typeName : String} {category : Category}
    {place : Option String} {rule : BoundRule} (h : d.rule? typeName category place = some rule) :
    ∃ text, d.declared? typeName category place = some text ∧ d.compile text = .ok rule := by
  rw [rule?, Option.bind_eq_some_iff] at h
  obtain ⟨text, htext, hrule⟩ := h
  refine ⟨text, htext, ?_⟩
  cases hcompile : d.compile text with
  | error e =>
    rw [hcompile] at hrule
    cases hrule
  | ok rule' =>
    rw [hcompile] at hrule
    cases hrule
    rfl

/-- The leaves of a usable rule are bound names. -/
theorem check?_of_mem_rule {d : Dictionary} {typeName : String} {category : Category}
    {place : Option String} {rule : BoundRule} (h : d.rule? typeName category place = some rule)
    {c : NamedCheck} (hc : c ∈ rule.formula.leaves) : d.check? c.name = some c.check := by
  obtain ⟨text, -, hcompile⟩ := compile_of_rule? h
  obtain ⟨r, -, hr⟩ := compile_eq_ok hcompile
  obtain ⟨name, -, hname⟩ := hr.exists_leaf hc
  obtain ⟨rfl, hcheck⟩ := check?_of_bindName hname
  exact hcheck

end Dictionary

/-! ## 5. Two phases of one plan -/

/-- A relation between trees that every connective respects. -/
structure Tree.Congruent (M : Tree → Tree → Prop) : Prop where
  constant : ∀ passed label,
    M (.constant passed label .unevaluated) (.constant passed label .unevaluated)
  and : ∀ {l l' r r'}, M l l' → M r r' → M (.and l r .unevaluated) (.and l' r' .unevaluated)
  or : ∀ {l l' r r'}, M l l' → M r r' → M (.or l r .unevaluated) (.or l' r' .unevaluated)
  not : ∀ {c c'}, M c c' → M (.not c .unevaluated) (.not c' .unevaluated)
  anyField : ∀ condition {f f' e e'}, M f f' → M e e' →
    M (.anyField condition f e .unevaluated) (.anyField condition f' e' .unevaluated)
  fieldRule : ∀ condition {r r'}, M r r' →
    M (.fieldRule condition r .unevaluated) (.fieldRule condition r' .unevaluated)
  entityRule : ∀ condition {r r'}, M r r' →
    M (.entityRule condition r .unevaluated) (.entityRule condition r' .unevaluated)
  unrestricted : ∀ condition, M (.unrestricted condition .unevaluated)
    (.unrestricted condition .unevaluated)

/-- A relation that the connectives respect may be claimed of trees with certain leaves alone. -/
theorem Tree.Congruent.within {M : Tree → Tree → Prop} (h : Congruent M) (P : Leaf → Prop) :
    Congruent fun t t' => (∀ l ∈ t.leaves, P l) → M t t' where
  constant passed label _ := h.constant passed label
  and hl hr hP :=
    have hP := binary_and.forall_leaves.mp hP
    h.and (hl hP.1) (hr hP.2)
  or hl hr hP :=
    have hP := binary_or.forall_leaves.mp hP
    h.or (hl hP.1) (hr hP.2)
  not hc hP := h.not (hc hP)
  anyField condition _ _ _ _ hf he hP :=
    have hP := (binary_anyField condition).forall_leaves.mp hP
    h.anyField condition (hf hP.1) (he hP.2)
  fieldRule condition _ _ hr hP := h.fieldRule condition (hr hP)
  entityRule condition _ _ hr hP := h.entityRule condition (hr hP)
  unrestricted condition _ := h.unrestricted condition

/-- A user check is asked in both phases. -/
theorem Phase.leaf_of_user (p : Phase) (situation : Situation) {c : NamedCheck}
    (h : c.check.kind = .user) : p.leaf situation c = .ofLeaf ⟨c.name, c.check, situation⟩ := by
  cases p with
  | preview => simp only [Phase.leaf, h]
  | commit => rfl

/-- An operation check is put off until the commit. -/
theorem Phase.leaf_of_operation (situation : Situation) {c : NamedCheck}
    (h : c.check.kind = .operation) : Phase.preview.leaf situation c = .later c.name := by
  simp only [Phase.leaf, h]

/-- A relation holds between the leaves of one check in two situations if it holds between checks
that are asked in them, and between checks that are put off. -/
theorem Phase.leaf_related {M : Tree → Tree → Prop} {p : Phase} {situation situation' : Situation}
    {c : NamedCheck}
    (hasked : M (.ofLeaf ⟨c.name, c.check, situation⟩) (.ofLeaf ⟨c.name, c.check, situation'⟩))
    (hlater : M (.later c.name) (.later c.name)) :
    M (p.leaf situation c) (p.leaf situation' c) := by
  cases hkind : c.check.kind with
  | user =>
    rw [leaf_of_user _ _ hkind, leaf_of_user _ _ hkind]
    exact hasked
  | operation =>
    cases p with
    | preview =>
      rw [leaf_of_operation _ hkind, leaf_of_operation _ hkind]
      exact hlater
    | commit => exact hasked

/-- What holds of the leaves of a plan in one phase. -/
structure Leaf.Fits (l : Leaf) (scope : RequestScope) (condition : Condition) (p : Phase) :
    Prop where
  /-- The name is bound to the check. -/
  bound : scope.dictionary.check? l.name = some l.check
  situation : l.situation = scope.situation condition p
  /-- The preview asks user checks alone. -/
  user : p = .preview → l.check.kind = .user

section Related

variable {M : Tree → Tree → Prop}

theorem Formula.tree_related {α : Type} (h : Tree.Congruent M) {f g : α → Tree} {φ : Formula α}
    (hleaf : ∀ a ∈ φ.leaves, M (f a) (g a)) : M (φ.tree f) (φ.tree g) := by
  induction φ with
  | leaf a => exact hleaf a (List.mem_singleton_self a)
  | and l r ihl ihr =>
    obtain ⟨hl, hr⟩ := List.forall_mem_append.mp hleaf
    exact h.and (ihl hl) (ihr hr)
  | or l r ihl ihr =>
    obtain ⟨hl, hr⟩ := List.forall_mem_append.mp hleaf
    exact h.or (ihl hl) (ihr hr)
  | not c ih => exact h.not (ih hleaf)

theorem Tree.anyOf_related (h : Tree.Congruent M) {ts ts' : List Tree}
    (hts : List.Forall₂ M ts ts') : M (.anyOf ts) (.anyOf ts') := by
  have fold : ∀ {ts ts' : List Tree}, List.Forall₂ M ts ts' → ∀ {t t' : Tree}, M t t' →
      M (ts.foldl (fun l r => .or l r .unevaluated) t)
        (ts'.foldl (fun l r => .or l r .unevaluated) t') := by
    intro ts ts' hts
    induction hts with
    | nil => exact fun ht => ht
    | cons hhead _ ih => exact fun ht => ih (h.or ht hhead)
  cases hts with
  | nil => exact h.constant false none
  | cons hhead htail => exact fold htail hhead

/-- What passes through a disjunction and leaves failure alone passes through all of them. -/
theorem Tree.map_anyOf (g : Tree → Tree)
    (hor : ∀ l r, g (.or l r .unevaluated) = .or (g l) (g r) .unevaluated)
    (hfailure : g .failure = .failure) (ts : List Tree) : g (anyOf ts) = anyOf (ts.map g) := by
  cases ts with
  | nil => exact hfailure
  | cons t ts =>
    rw [anyOf, List.map_cons, anyOf, List.foldl_map]
    exact (List.foldl_hom g fun l r => (hor l r).symm).symm

namespace RequestScope

variable {scope : RequestScope} {resource : Resource} {category : Category}
  {field : Option String} {change : Option Change} {p q : Phase}

/-- The trees of one question differ at their leaves alone, whatever the phases and the requests.
A relation that the connectives respect holds between them once it holds for the leaves of every
bound check. -/
theorem tree_related_across {scope' : RequestScope} (hd : scope'.dictionary = scope.dictionary)
    (h : Tree.Congruent M)
    (hleaf : ∀ c, scope.dictionary.check? c.name = some c.check →
      M (p.leaf (scope.situation ⟨category, resource, field, change⟩ p) c)
        (q.leaf (scope'.situation ⟨category, resource, field, change⟩ q) c)) :
    M (scope.tree resource category field change p)
      (scope'.tree resource category field change q) := by
  have rule : ∀ place r, scope.dictionary.rule? resource.typeName category place = some r →
      M (r.tree p (scope.situation ⟨category, resource, field, change⟩ p))
        (r.tree q (scope'.situation ⟨category, resource, field, change⟩ q)) := by
    intro place r hr
    exact Formula.tree_related h fun c hc => hleaf c (Dictionary.check?_of_mem_rule hr hc)
  cases field with
  | none =>
    rw [tree, tree, hd]
    refine h.anyField _ (Tree.anyOf_related h ?_) ?_
    · rw [List.forall₂_map_left_iff, List.forall₂_map_right_iff, List.forall₂_same]
      intro r hr
      obtain ⟨name, -, hname⟩ := List.mem_filterMap.mp hr
      exact rule (some name) r hname
    · cases hentity : scope.dictionary.rule? resource.typeName category none with
      | none => exact h.constant true none
      | some r => exact rule none r hentity
  | some field =>
    rw [tree, tree, fieldTree, fieldTree, hd]
    cases hfield : scope.dictionary.rule? resource.typeName category (some field) with
    | some r => exact h.fieldRule _ (rule (some field) r hfield)
    | none =>
      cases hentity : scope.dictionary.rule? resource.typeName category none with
      | some r => exact h.entityRule _ (rule none r hentity)
      | none => exact h.unrestricted _

/-- **The trees of two phases differ at their leaves alone.** -/
theorem tree_related (h : Tree.Congruent M)
    (hleaf : ∀ c, scope.dictionary.check? c.name = some c.check →
      M (p.leaf (scope.situation ⟨category, resource, field, change⟩ p) c)
        (q.leaf (scope.situation ⟨category, resource, field, change⟩ q) c)) :
    M (scope.tree resource category field change p)
      (scope.tree resource category field change q) :=
  tree_related_across rfl h hleaf

/-- The tree of a phase is fresh, and only the preview defers. -/
theorem fresh_tree : Tree.Fresh p (scope.tree resource category field change p) := by
  refine tree_related (M := fun t _ => Tree.Fresh p t) (q := p) ?_ ?_
  · exact ⟨.constant, .and, .or, .not, fun c => .anyField c, fun c => .fieldRule c,
      fun c => .entityRule c, .unrestricted⟩
  · intro c _
    cases hkind : c.check.kind with
    | user =>
      rw [Phase.leaf_of_user p _ hkind]
      exact .check _
    | operation =>
      cases p with
      | preview =>
        rw [Phase.leaf_of_operation _ hkind]
        exact .deferred c.name
      | commit => exact .check _

/-- Every leaf asks the check that its name is bound to, about what is shown in the phase. -/
theorem fits_of_mem_tree : ∀ l ∈ (scope.tree resource category field change p).leaves,
    l.Fits scope ⟨category, resource, field, change⟩ p := by
  refine tree_related (q := p)
    (M := fun t _ => ∀ l ∈ t.leaves, l.Fits scope ⟨category, resource, field, change⟩ p) ?_ ?_
  · exact ⟨fun _ _ _ h => absurd h List.not_mem_nil,
      fun hl hr => Tree.binary_and.forall_leaves.mpr ⟨hl, hr⟩,
      fun hl hr => Tree.binary_or.forall_leaves.mpr ⟨hl, hr⟩,
      fun hc => hc,
      fun condition _ _ _ _ hf he => (Tree.binary_anyField condition).forall_leaves.mpr ⟨hf, he⟩,
      fun _ _ _ hr => hr, fun _ _ _ hr => hr, fun _ _ h => absurd h List.not_mem_nil⟩
  · intro c hc l hl
    cases hkind : c.check.kind with
    | user =>
      rw [Phase.leaf_of_user p _ hkind] at hl
      rw [List.mem_singleton.mp hl]
      exact ⟨hc, rfl, fun _ => hkind⟩
    | operation =>
      cases p with
      | preview =>
        rw [Phase.leaf_of_operation _ hkind] at hl
        exact absurd hl List.not_mem_nil
      | commit =>
        rw [List.mem_singleton.mp hl]
        exact ⟨hc, rfl, fun h => absurd h (by decide)⟩

end RequestScope

end Related

/-! ## 6. A specimen

A dictionary with one rule whose two phases differ, for the instances in later modules. -/

namespace Specimen

/-- A title may be changed by whoever is not the owner, and only for another one. -/
def dictionary : Dictionary :=
  ((Dictionary.empty.addCheck "owner" (.role "owner")).addCheck "retitles"
    (.custom .operation fun _ ctx => .ok (ctx.change.any fun c => !c.before.same c.after))).addType
      ((Declaration.bare "book").fieldPermission "title" .update "retitles AND NOT owner")

def book : Resource := ⟨"book", some "1", Supply.nth 0, .empty⟩

def retitling : Change := ⟨book, "title", .string "Emma", .string "Persuasion"⟩

/-- The first request of all, by an owner or by somebody else. -/
def scope (owner : Bool) : RequestScope :=
  ⟨dictionary, ⟨some "ann", .ofNames (if owner then ["owner"] else [])⟩, 0⟩

def opened : Session := (Session.initial.openRequest Answers.defaultCapacity).2

end Specimen

end AccessRules
