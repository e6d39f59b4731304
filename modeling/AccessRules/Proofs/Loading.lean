/-
# Loading a policy

Settings are read once and rules are compiled with every decision.  Loading does not compile: it
reads each rule text and compares the names in it with the list of bound names, word for word,
where compiling looks them up one after the other with their white space collapsed.  Both come to
the same.

* `errorOf_compile`: the error of compiling is what is wrong with the text, or else the leftmost
  name that is not bound;
* `ruleProblem?_eq`: loading reports that error and no other;
* `exists_declare_iff`: nothing but a blank key gets in the way of declaring;
* `sound_dictionary`, `error_decide`: every rule of a loaded dictionary can be used, so nothing but
  an unknown type is an error of a decision.
-/
import AccessRules.Proofs.Canonical
import AccessRules.Proofs.FailClosed

namespace AccessRules

/-! ## 1. The error of compiling a rule -/

/-- The error of an outcome. -/
def errorOf {ε α : Type} : Except ε α → Option ε
  | .error e => some e
  | .ok _ => none

theorem errorOf_eq_none {ε α : Type} {x : Except ε α} :
    errorOf x = none ↔ ∃ a, x = .ok a := by
  cases x <;> simp [errorOf]

theorem errorOf_eq_some {ε α : Type} {x : Except ε α} {e : ε} :
    errorOf x = some e ↔ x = .error e := by
  cases x <;> simp [errorOf]

/-- Replacing leaves fails with the error of the leftmost leaf that has one. -/
theorem Formula.errorOf_mapM? {α β ε : Type} (f : α → Except ε β) (φ : Formula α) :
    errorOf (φ.mapM? f) = φ.leaves.findSome? fun a => errorOf (f a) := by
  induction φ with
  | leaf a =>
    rw [mapM?, leaves, List.findSome?_singleton]
    cases f a <;> rfl
  | and l r ihl ihr | or l r ihl ihr =>
    rw [mapM?, leaves, List.findSome?_append, ← ihl, ← ihr]
    cases l.mapM? f with
    | error e => rfl
    | ok l' => cases r.mapM? f <;> rfl
  | not c ih =>
    rw [mapM?, leaves, ← ih]
    cases c.mapM? f <;> rfl

namespace Dictionary

/-- Every bound name has its implementation on the shelf. -/
def Stocked (d : Dictionary) : Prop := ∀ name id, d.names.find? name = some id → id < d.shelf.length

theorem stocked_empty : Dictionary.empty.Stocked := by
  intro name id h
  cases h

theorem Stocked.addCheck {d : Dictionary} (h : d.Stocked) (name : String) (p : Procedure) :
    (d.addCheck name p).Stocked := by
  intro other id hid
  have hlength : (d.addCheck name p).shelf.length = d.shelf.length + 1 := List.length_append
  rw [Dictionary.addCheck, SortedMap.find?_insert] at hid
  rw [hlength]
  split at hid
  · cases hid
    exact Nat.lt_succ_self _
  · exact Nat.lt_succ_of_lt (h other id hid)

/-- In a dictionary that has what it binds, a name is bound if its collapsed form is listed. -/
theorem Stocked.isNone_check? {d : Dictionary} (h : d.Stocked) (name : String) :
    (d.check? name).isNone = !d.checkNames.contains (Text.collapse name) := by
  have hsome : (d.check? name).isSome = d.checkNames.contains (Text.collapse name) := by
    rw [Bool.eq_iff_iff, List.contains_iff_mem, checkNames, ← SortedMap.isSome_find?_iff, check?]
    cases hid : d.names.find? (Text.collapse name) with
    | none => simp
    | some id => simp [implementation?, h _ id hid]
  rw [← hsome, Option.not_isSome]

/-- The error at a name that is not bound. -/
def unbound (name : String) : RuleError := ⟨.unknownCheck name, none⟩

theorem errorOf_bindName (d : Dictionary) :
    (fun name => errorOf (d.bindName name)) =
      Option.map unbound ∘ Option.guard fun name => (d.check? name).isNone := by
  funext name
  rw [bindName, Function.comp_apply, Option.guard]
  cases d.check? name <;> rfl

/-- **Compiling fails with what is wrong with the text, or else at the leftmost name that is not
bound.** -/
theorem errorOf_compile (d : Dictionary) (text : String) :
    errorOf (d.compile text) =
      match Rule.parse text with
      | .error e => some e
      | .ok r => (r.leaves.find? fun name => (d.check? name).isNone).map unbound := by
  rw [compile]
  cases Rule.parse text with
  | error e => rfl
  | ok r =>
    have hbind : errorOf (d.bindRule r) =
        (r.leaves.find? fun name => (d.check? name).isNone).map unbound := by
      rw [bindRule, Formula.errorOf_mapM?, errorOf_bindName, ← List.map_findSome?,
        List.findSome?_guard]
    simp only [← hbind]
    cases d.bindRule r <;> rfl

end Dictionary

/-! ## 2. The problem with a rule -/

/-- No text is taken for one that names a check. -/
theorem Rule.fault_of_parse_error {text : String} {e : RuleError} (h : parse text = .error e)
    (name : String) : e.fault ≠ .unknownCheck name := by
  rw [parse] at h
  split at h
  · cases h
    exact RuleFault.noConfusion
  · split at h
    · cases h
    · cases h
      simp only [errorAt, faultAt]
      split
      · exact RuleFault.noConfusion
      · split
        · exact RuleFault.noConfusion
        · exact RuleFault.noConfusion
        · split <;> exact RuleFault.noConfusion

/-- The problem that the error of a rule is for a policy: a name that is not bound is shown with
those that are. -/
def RuleError.problem (e : RuleError) (place : RulePlace) (known : List String) :
    SettingsProblem :=
  match e.fault with
  | .unknownCheck name => .unknownCheck place name known
  | _ => .invalidRule place e

theorem Rule.problem_of_parse_error {text : String} {e : RuleError} (h : parse text = .error e)
    (place : RulePlace) (known : List String) : e.problem place known = .invalidRule place e := by
  have hfault := fault_of_parse_error h
  rw [RuleError.problem]
  split
  · next name hname => exact absurd hname (hfault name)
  · rfl

/-- Predicates that agree on a list find the same in it. -/
theorem find?_eq_of_forall_mem {α : Type} {p q : α → Bool} {l : List α}
    (h : ∀ a ∈ l, p a = q a) : l.find? p = l.find? q := by
  induction l with
  | nil => rfl
  | cons a l ih =>
    obtain ⟨ha, hl⟩ := List.forall_mem_cons.mp h
    rw [List.find?_cons, List.find?_cons, ha, ih hl]

/-- **Loading reports the error of compiling and no other.**  The names that loading compares were
read, so they are collapsed as the bound ones are. -/
theorem PolicySettings.ruleProblem?_eq {d : Dictionary} (h : d.Stocked)
    (rule : RulePlace × String) :
    ruleProblem? d.checkNames rule =
      (errorOf (d.compile rule.2)).map (·.problem rule.1 d.checkNames) := by
  rw [ruleProblem?, Dictionary.errorOf_compile]
  cases hparse : Rule.parse rule.2 with
  | error e => exact congrArg some (Rule.problem_of_parse_error hparse _ _).symm
  | ok r =>
    have hnames : ∀ name ∈ r.leaves,
        (!d.checkNames.contains name) = (d.check? name).isNone := by
      intro name hname
      rw [h.isNone_check?, (Rule.canonical_of_parse hparse name hname).collapse]
    dsimp only
    rw [find?_eq_of_forall_mem hnames, Option.map_map]
    rfl

/-! ## 3. Steps and folds that can fail -/

section Fold

variable {α β ε : Type}

theorem map_eq_ok_iff {x : Except ε α} {g : α → β} {b : β} :
    x.map g = .ok b ↔ ∃ a, x = .ok a ∧ g a = b := by
  cases x <;> simp [Except.map]

theorem exists_map_iff {x : Except ε α} {g : α → β} :
    (∃ b, x.map g = .ok b) ↔ ∃ a, x = .ok a := by
  cases x <;> simp [Except.map]

variable {f : β → α → Except ε β} {l : List α}

/-- A fold succeeds if its first step does, and the rest of it from there. -/
theorem foldlM_cons_eq_ok_iff {a : α} {b b' : β} :
    (a :: l).foldlM f b = .ok b' ↔ ∃ c, f b a = .ok c ∧ l.foldlM f c = .ok b' := by
  rw [List.foldlM_cons]
  cases f b a with
  | error e => simp [bind, Except.bind]
  | ok c => simp [bind, Except.bind]

/-- If it depends on the entry alone whether a step succeeds, then a fold succeeds if all its
entries let it. -/
theorem exists_foldlM_iff {P : α → Prop} (h : ∀ a ∈ l, ∀ b, (∃ b', f b a = .ok b') ↔ P a)
    (b : β) : (∃ b', l.foldlM f b = .ok b') ↔ ∀ a ∈ l, P a := by
  induction l generalizing b with
  | nil => exact ⟨fun _ => List.forall_mem_nil _, fun _ => ⟨b, rfl⟩⟩
  | cons a l ih =>
    obtain ⟨ha, hl⟩ := List.forall_mem_cons.mp h
    simp only [foldlM_cons_eq_ok_iff, List.forall_mem_cons]
    constructor
    · rintro ⟨b', c, hstep, hrest⟩
      exact ⟨(ha b).mp ⟨c, hstep⟩, (ih hl c).mp ⟨b', hrest⟩⟩
    · rintro ⟨hentry, hentries⟩
      obtain ⟨c, hstep⟩ := (ha b).mpr hentry
      obtain ⟨b', hrest⟩ := (ih hl c).mpr hentries
      exact ⟨b', c, hstep, hrest⟩

/-- What every step keeps holds at the end. -/
theorem foldlM_keeps {I : β → Prop} (h : ∀ a ∈ l, ∀ b b', I b → f b a = .ok b' → I b') {b b' : β}
    (hb : I b) (hout : l.foldlM f b = .ok b') : I b' := by
  induction l generalizing b with
  | nil =>
    cases hout
    exact hb
  | cons a l ih =>
    obtain ⟨ha, hl⟩ := List.forall_mem_cons.mp h
    obtain ⟨c, hstep, hrest⟩ := foldlM_cons_eq_ok_iff.mp hout
    exact ih hl (ha b c hb hstep) hrest

end Fold

/-! ## 4. Declaring -/

namespace EntityRules

variable {e : EntityRules} {d : Declaration}

theorem category_eq_ok {key : String} {c : Category} (h : e.category key = .ok c) :
    Category.parse? key = some c := by
  rw [category] at h
  split at h
  · cases h
    assumption
  · cases h

/-- A key names a category unless it is blank. -/
theorem exists_category_iff {key : String} :
    (∃ c, e.category key = .ok c) ↔ Text.isBlank key = false := by
  rw [category, Category.parse?]
  cases Text.isBlank key with
  | true => simp
  | false =>
    simp only [Bool.false_eq_true, if_false, iff_true]
    cases Category.builtin? (Text.lowerAscii (Text.trim key)) with
    | none => exact ⟨_, rfl⟩
    | some c => exact ⟨c, rfl⟩

/-- A rule is declared under a key unless the key is blank. -/
theorem exists_map_category_iff {key : String} (g : Category → Declaration) :
    (∃ d, (e.category key).map g = .ok d) ↔ Text.isBlank key = false :=
  exists_map_iff.trans exists_category_iff

theorem exists_declareField_iff {field : String × SortedMap String} :
    (∃ d', e.declareField d field = .ok d') ↔ ∀ key ∈ field.2.names, Text.isBlank key = false := by
  rw [declareField, SortedMap.names, List.forall_mem_map]
  exact exists_foldlM_iff (P := fun r : String × String => Text.isBlank r.1 = false)
    (fun r _ d => exists_map_category_iff _) _

/-- **Nothing but a blank key gets in the way of a declaration.** -/
theorem exists_declaration_iff :
    (∃ d, e.declaration = .ok d) ↔ ∀ key ∈ e.categories, Text.isBlank key = false := by
  have hwhole : (∃ d, e.declarePermissions e.permissions.entries (.bare e.name) = .ok d) ↔
      ∀ key ∈ e.permissions.names, Text.isBlank key = false := by
    rw [declarePermissions, SortedMap.names, List.forall_mem_map]
    exact exists_foldlM_iff (P := fun r : String × String => Text.isBlank r.1 = false)
      (fun r _ d => exists_map_category_iff _) _
  have hfields : ∀ d, (∃ d', e.fields.entries.foldlM e.declareField d = .ok d') ↔
      ∀ field ∈ e.fields.entries, ∀ key ∈ field.2.names, Text.isBlank key = false :=
    exists_foldlM_iff fun field _ d => exists_declareField_iff
  rw [categories, List.forall_mem_append, ← hwhole, List.forall_mem_flatMap, declaration]
  cases e.declarePermissions e.permissions.entries (.bare e.name) with
  | error p => simp
  | ok d => exact (hfields d).trans ⟨fun h => ⟨⟨d, rfl⟩, h⟩, And.right⟩

/-- What holds of the bare type and is kept with every rule and field holds of the declaration.  A
rule goes under the category that its key names. -/
theorem declaration_keeps {I : Declaration → Prop} (bare : I (.bare e.name))
    (permission : ∀ r ∈ e.permissions.entries, ∀ d c, Category.parse? r.1 = some c → I d →
      I (d.permission c r.2))
    (field : ∀ f ∈ e.fields.entries, ∀ d, I d → I (d.field f.1))
    (fieldPermission : ∀ f ∈ e.fields.entries, ∀ r ∈ f.2.entries, ∀ d c,
      Category.parse? r.1 = some c → I d → I (d.fieldPermission f.1 c r.2))
    (h : e.declaration = .ok d) : I d := by
  have step : ∀ (key : String) (g : Category → Declaration),
      (∀ c, Category.parse? key = some c → I (g c)) →
      ∀ d', (e.category key).map g = .ok d' → I d' := by
    intro key g hg d' hd'
    obtain ⟨c, hc, rfl⟩ := map_eq_ok_iff.mp hd'
    exact hg c (category_eq_ok hc)
  rw [declaration] at h
  split at h
  · cases h
  · next d₀ hwhole =>
    have hd₀ : I d₀ := by
      refine foldlM_keeps (fun r hr d d' hd hd' => ?_) bare hwhole
      exact step r.1 _ (fun c hc => permission r hr d c hc hd) d' hd'
    refine foldlM_keeps (fun f hf d d' hd hd' => ?_) hd₀ h
    rw [declareField] at hd'
    refine foldlM_keeps (fun r hr d d' hd hd' => ?_) (field f hf d hd) hd'
    exact step r.1 _ (fun c hc => fieldPermission f hf r hr d c hc hd) d' hd'

end EntityRules

/-- Every text among the rules of a type or field is in order. -/
def RuleTexts.All (P : String → Prop) (rules : RuleTexts) : Prop :=
  ∀ c text, Assoc.find? c rules = some text → P text

theorem RuleTexts.All.insert {P : String → Prop} {rules : RuleTexts} (h : All P rules)
    {c : Category} {text : String} (ht : P text) : All P (Assoc.insert c text rules) := by
  intro c' text' hfound
  rw [Assoc.find?_insert] at hfound
  split at hfound
  · cases hfound
    exact ht
  · exact h c' text' hfound

namespace Declaration

/-- Every declared text is in order. -/
structure All (P : String → Prop) (d : Declaration) : Prop where
  rules : RuleTexts.All P d.rules
  fields : ∀ field rules, d.fields.find? field = some rules → RuleTexts.All P rules

variable {P : String → Prop} {d : Declaration}

theorem all_bare (typeName : String) : (bare typeName).All P where
  rules := fun _ _ h => nomatch h
  fields := fun _ _ h => nomatch h

theorem All.permission (h : d.All P) (c : Category) {text : String} (ht : P text) :
    (d.permission c text).All P where
  rules := h.rules.insert ht
  fields := h.fields

/-- Changing the rules of a field in order keeps the order. -/
theorem All.update (h : d.All P) (name : String) {f : RuleTexts → RuleTexts}
    (hf : ∀ rules, RuleTexts.All P rules → RuleTexts.All P (f rules)) :
    All P { d with fields := d.fields.update name [] f } where
  rules := h.rules
  fields := by
    intro field rules hfound
    rw [SortedMap.update, SortedMap.find?_insert] at hfound
    split at hfound
    · cases hfound
      refine hf _ ?_
      cases hold : d.fields.find? name with
      | none => exact fun _ _ h => nomatch h
      | some rules => exact h.fields name rules hold
    · exact h.fields field rules hfound

theorem All.field (h : d.All P) (name : String) : (d.field name).All P := h.update name fun _ => id

theorem All.fieldPermission (h : d.All P) (name : String) (c : Category) {text : String}
    (ht : P text) : (d.fieldPermission name c text).All P :=
  h.update name fun _ hrules => hrules.insert ht

end Declaration

/-- A declaration is of the type that the entity names, and holds rules of the entity alone. -/
theorem EntityRules.declaration_all {e : EntityRules} {d : Declaration} {P : String → Prop}
    (hrules : ∀ rule ∈ e.rules, P rule.2) (h : e.declaration = .ok d) :
    d.typeName = e.name ∧ d.All P := by
  rw [rules, List.forall_mem_append, List.forall_mem_map, List.forall_mem_flatMap] at hrules
  obtain ⟨hwhole, hfields⟩ := hrules
  refine declaration_keeps (I := fun d => d.typeName = e.name ∧ d.All P)
    ⟨rfl, Declaration.all_bare e.name⟩ ?_ ?_ ?_ h
  · intro r hr d c _ hd
    exact ⟨hd.1, hd.2.permission c (hwhole r hr)⟩
  · intro f _ d hd
    exact ⟨hd.1, hd.2.field f.1⟩
  · intro f hf r hr d c _ hd
    exact ⟨hd.1, hd.2.fieldPermission f.1 c (List.forall_mem_map.mp (hfields f hf) r hr)⟩

namespace Dictionary

/-- Every declared text is in order. -/
def All (P : String → Prop) (d : Dictionary) : Prop :=
  ∀ typeName t, d.types.find? typeName = some t → t.All P

variable {P : String → Prop} {d : Dictionary}

theorem All.addType (h : d.All P) {t : Declaration} (ht : t.All P) : (d.addType t).All P := by
  intro typeName t' hfound
  rw [Dictionary.addType, SortedMap.find?_insert] at hfound
  split at hfound
  · cases hfound
    exact ht
  · exact h typeName t' hfound

/-- What is declared for a type or a field is one of the declared texts. -/
theorem All.declared (h : d.All P) {typeName : String} {category : Category}
    {place : Option String} {text : String}
    (htext : d.declared? typeName category place = some text) : P text := by
  cases place with
  | none =>
    obtain ⟨t, ht, hfound⟩ := Option.bind_eq_some_iff.mp htext
    exact (h typeName t ht).rules category text hfound
  | some field =>
    obtain ⟨t, ht, hfield⟩ := Option.bind_eq_some_iff.mp htext
    obtain ⟨rules, hrules, hfound⟩ := Option.bind_eq_some_iff.mp hfield
    exact (h typeName t ht).fields field rules hrules category text hfound

theorem declares_addType (t : Declaration) (typeName : String) :
    (d.addType t).declares typeName = true ↔
      typeName = t.typeName ∨ d.declares typeName = true := by
  rw [declares, declares, addType, SortedMap.contains, SortedMap.contains, SortedMap.find?_insert]
  split
  · simp [*]
  · simp [*]

end Dictionary

/-! ## 5. The dictionary of a policy -/

/-- Two words on one rule that cannot be used: what compiling says, and what loading says. -/
inductive Dictionary.Offence (d : Dictionary) (place : RulePlace) (text : String) :
    RuleError → SettingsProblem → Prop where
  /-- The text is no rule. -/
  | unreadable {e : RuleError} (h : Rule.parse text = .error e) :
      Offence d place text e (.invalidRule place e)
  /-- The leftmost name that is not bound. -/
  | unbound {r : Rule} {before after : List String} {name : String}
      (hread : Rule.parse text = .ok r) (hleaves : r.leaves = before ++ name :: after)
      (hbefore : ∀ n ∈ before, (d.check? n).isSome) (hname : d.check? name = none) :
      Offence d place text ⟨.unknownCheck name, none⟩ (.unknownCheck place name d.checkNames)

/-- The error of compiling makes for one problem, and so they are two words on one fault. -/
theorem Dictionary.offence_iff {d : Dictionary} {place : RulePlace} {text : String} {e : RuleError}
    (h : d.compile text = .error e) {problem : SettingsProblem} :
    d.Offence place text e problem ↔ problem = e.problem place d.checkNames := by
  constructor
  · rintro (⟨hread⟩ | ⟨-, -, -, -⟩)
    · exact (Rule.problem_of_parse_error hread place _).symm
    · rfl
  · rintro rfl
    have herror := errorOf_compile d text
    rw [errorOf_eq_some.mpr h] at herror
    cases hread : Rule.parse text with
    | error e' =>
      rw [hread] at herror
      cases herror
      rw [Rule.problem_of_parse_error hread]
      exact .unreadable hread
    | ok r =>
      rw [hread] at herror
      obtain ⟨name, hfound, rfl⟩ := Option.map_eq_some_iff.mp herror.symm
      obtain ⟨hname, before, after, hleaves, hbefore⟩ := List.find?_eq_some_iff_append.mp hfound
      refine .unbound hread hleaves (fun n hn => ?_) (Option.isNone_iff_eq_none.mp hname)
      have := hbefore n hn
      rwa [Option.not_isNone] at this

namespace PolicySettings

variable {p : PolicySettings} {d : Dictionary}

/-- Every category key of the policy names a category. -/
def KeysNamed (p : PolicySettings) : Prop :=
  ∀ e ∈ p.entities, ∀ key ∈ e.categories, Text.isBlank key = false

/-- **Nothing but a blank key gets in the way of declaring.** -/
theorem exists_declare_iff : (∃ d, p.declare = .ok d) ↔ p.KeysNamed := by
  refine exists_foldlM_iff (fun e _ d => ?_) _
  exact exists_map_iff.trans EntityRules.exists_declaration_iff

/-- What the bare checks have and every declaration of an entity keeps holds of the dictionary. -/
theorem declare_keeps {I : Dictionary → Prop} (checks : I p.checkDictionary)
    (addType : ∀ e ∈ p.entities, ∀ t, e.declaration = .ok t → ∀ d, I d → I (d.addType t))
    (h : p.declare = .ok d) : I d := by
  refine foldlM_keeps (fun e he d d' hd hd' => ?_) checks h
  obtain ⟨t, ht, rfl⟩ := map_eq_ok_iff.mp hd'
  exact addType e he t ht d hd

/-- The bare checks have their implementations on the shelf, and none of them raises an error. -/
theorem checkDictionary_keeps :
    p.checkDictionary.Stocked ∧ ∀ q ∈ p.checkDictionary.shelf, q.Calm := by
  refine List.foldlRecOn
    (motive := fun d : Dictionary => d.Stocked ∧ ∀ q ∈ d.shelf, q.Calm) p.checks.entries _
    ⟨Dictionary.stocked_empty, List.forall_mem_nil _⟩ fun d hd c _ => ⟨hd.1.addCheck _ _, ?_⟩
  intro q hq
  rcases List.mem_append.mp hq with hq | hq
  · exact hd.2 q hq
  · rw [List.mem_singleton.mp hq]
    cases c.2 <;> exact fun _ _ => ⟨_, rfl⟩

/-- The bare checks declare no type. -/
theorem checkDictionary_types : p.checkDictionary.types = .empty :=
  List.foldlRecOn (motive := fun d : Dictionary => d.types = .empty) p.checks.entries _ rfl
    fun _ hd _ _ => hd

/-- Declaring binds no check, so rules compile as before. -/
theorem compile_declare (h : p.declare = .ok d) :
    d.check? = p.checkDictionary.check? ∧ d.compile = p.checkDictionary.compile ∧
      d.checkNames = p.checkDictionary.checkNames :=
  declare_keeps (I := fun d => d.check? = p.checkDictionary.check? ∧
    d.compile = p.checkDictionary.compile ∧ d.checkNames = p.checkDictionary.checkNames)
    ⟨rfl, rfl, rfl⟩ (fun _ _ _ _ _ hd => hd) h

/-- The problem with a rule, from the error of compiling it with the checks of the policy. -/
def problem? (p : PolicySettings) (rule : RulePlace × String) : Option SettingsProblem :=
  (errorOf (p.checkDictionary.compile rule.2)).map
    (·.problem rule.1 p.checkDictionary.checkNames)

theorem dictionary_of_declare (h : p.declare = .ok d) :
    p.dictionary = match p.rules.findSome? p.problem? with
      | some problem => .error problem
      | none => .ok d := by
  have hproblem : ruleProblem? d.checkNames = p.problem? := by
    rw [(compile_declare h).2.2]
    exact funext (ruleProblem?_eq checkDictionary_keeps.1)
  cases hfound : p.rules.findSome? p.problem? with
  | none => simp only [dictionary, h, hproblem, hfound]
  | some problem => simp only [dictionary, h, hproblem, hfound]

theorem declare_of_dictionary (h : p.dictionary = .ok d) : p.declare = .ok d := by
  rw [dictionary] at h
  split at h
  · cases h
  · next d' hd' =>
    split at h
    · cases h
    · cases h
      exact hd'

theorem findSome?_problem?_eq_none :
    p.rules.findSome? p.problem? = none ↔
      ∀ rule ∈ p.rules, ∃ bound, p.checkDictionary.compile rule.2 = .ok bound := by
  rw [List.findSome?_eq_none_iff]
  refine forall₂_congr fun rule _ => ?_
  rw [problem?, Option.map_eq_none_iff, errorOf_eq_none]

/-- A policy loads if all its keys name categories and all its rules compile. -/
theorem exists_dictionary_iff : (∃ d, p.dictionary = .ok d) ↔
    p.KeysNamed ∧ ∀ rule ∈ p.rules, ∃ bound, p.checkDictionary.compile rule.2 = .ok bound := by
  rw [← exists_declare_iff, ← findSome?_problem?_eq_none]
  constructor
  · rintro ⟨d, hd⟩
    have hdeclare := declare_of_dictionary hd
    refine ⟨⟨d, hdeclare⟩, ?_⟩
    rw [dictionary_of_declare hdeclare] at hd
    split at hd
    · cases hd
    · assumption
  · rintro ⟨⟨d, hd⟩, hnone⟩
    exact ⟨d, by rw [dictionary_of_declare hd, hnone]⟩

/-- Where all keys name categories, a policy fails with the first rule that does not compile. -/
theorem dictionary_eq_error_iff (hkeys : p.KeysNamed) {problem : SettingsProblem} :
    p.dictionary = .error problem ↔ ∃ before rule after e, p.rules = before ++ rule :: after ∧
      (∀ earlier ∈ before, ∃ bound, p.checkDictionary.compile earlier.2 = .ok bound) ∧
      p.checkDictionary.compile rule.2 = .error e ∧
      p.checkDictionary.Offence rule.1 rule.2 e problem := by
  obtain ⟨d, hd⟩ := exists_declare_iff.mpr hkeys
  have hfirst : p.dictionary = .error problem ↔
      p.rules.findSome? p.problem? = some problem := by
    rw [dictionary_of_declare hd]
    cases p.rules.findSome? p.problem? <;> simp
  rw [hfirst, List.findSome?_eq_some_iff]
  constructor
  · rintro ⟨before, rule, after, hrules, hproblem, hbefore⟩
    obtain ⟨e, he, hproblem⟩ := Option.map_eq_some_iff.mp hproblem
    have hcompile := errorOf_eq_some.mp he
    refine ⟨before, rule, after, e, hrules, fun earlier hearlier => ?_, hcompile,
      (Dictionary.offence_iff hcompile).mpr hproblem.symm⟩
    exact errorOf_eq_none.mp (Option.map_eq_none_iff.mp (hbefore earlier hearlier))
  · rintro ⟨before, rule, after, e, hrules, hbefore, hcompile, hoffence⟩
    refine ⟨before, rule, after, hrules, ?_, fun earlier hearlier => ?_⟩
    · rw [problem?, errorOf_eq_some.mpr hcompile, (Dictionary.offence_iff hcompile).mp hoffence]
      rfl
    · rw [problem?, errorOf_eq_none.mpr (hbefore earlier hearlier)]
      rfl

/-- The first of two bad rules is reported, with the leftmost of its unknown names. -/
example : PolicySettings.dictionary ⟨.ofList [("is  owner", .allow)],
    [⟨"book", .empty, .ofList [("title", .ofList [("read", "is owner AND (late OR lost)")])]⟩,
      ⟨"book", .ofList [("read", "is owner AND")], .empty⟩]⟩ =
    .error (.unknownCheck ⟨"book", some "title", "read"⟩ "late" ["is owner"]) := by rfl

/-- Declaring one entity after the other declares the types that they name. -/
theorem declares_foldlM {es : List EntityRules} {d₀ : Dictionary}
    (h : es.foldlM (fun d e => e.declaration.map d.addType) d₀ = .ok d) (typeName : String) :
    d.declares typeName = true ↔
      d₀.declares typeName = true ∨ ∃ e ∈ es, e.name = typeName := by
  induction es generalizing d₀ with
  | nil =>
    cases h
    simp
  | cons e es ih =>
    obtain ⟨d₁, hstep, hrest⟩ := foldlM_cons_eq_ok_iff.mp h
    obtain ⟨t, ht, rfl⟩ := map_eq_ok_iff.mp hstep
    obtain ⟨hname, -⟩ := EntityRules.declaration_all (P := fun _ => True) (fun _ _ => trivial) ht
    rw [ih hrest, Dictionary.declares_addType, hname]
    simp only [List.exists_mem_cons_iff, or_assoc, or_left_comm, @eq_comm _ typeName]

/-- A type is declared if an entity names it. -/
theorem declares_iff (h : p.dictionary = .ok d) (typeName : String) :
    d.declares typeName = true ↔ ∃ e ∈ p.entities, e.name = typeName := by
  have hnone : p.checkDictionary.declares typeName = false := by
    rw [Dictionary.declares, checkDictionary_types]
    rfl
  rw [declares_foldlM (declare_of_dictionary h), hnone]
  simp

/-- Every declared text is a rule of the policy, so it is in order if those are. -/
theorem all_of_declare {P : String → Prop} (hrules : ∀ rule ∈ p.rules, P rule.2)
    (h : p.declare = .ok d) : d.All P := by
  refine declare_keeps ?_ (fun e he t ht d hd => hd.addType ?_) h
  · intro typeName t ht
    rw [checkDictionary_types] at ht
    cases ht
  · refine (EntityRules.declaration_all (fun rule hrule => ?_) ht).2
    exact hrules rule (List.mem_flatMap_of_mem he hrule)

end PolicySettings

/-! ## 6. A service that was loaded -/

/-- A dictionary whose checks raise no error and whose rules can all be used. -/
structure Dictionary.Sound (d : Dictionary) : Prop where
  calm : ∀ name c, d.check? name = some c → c.procedure.Calm
  rules : ∀ typeName category place text, d.declared? typeName category place = some text →
    ∃ rule, d.compile text = .ok rule

/-- **A loaded dictionary is sound**, also where a later entity replaced an earlier one. -/
theorem PolicySettings.sound_dictionary {p : PolicySettings} {d : Dictionary}
    (h : p.dictionary = .ok d) : d.Sound := by
  have hdeclare := declare_of_dictionary h
  obtain ⟨hcheck, hcompile, -⟩ := compile_declare hdeclare
  obtain ⟨-, hrules⟩ := exists_dictionary_iff.mp ⟨d, h⟩
  refine ⟨fun name c hc => ?_, fun typeName category place text htext => ?_⟩
  · rw [hcheck] at hc
    exact checkDictionary_keeps.2 c.procedure (Dictionary.mem_shelf_of_check? hc)
  · rw [hcompile]
    exact (all_of_declare (P := fun text => ∃ rule, p.checkDictionary.compile text = .ok rule)
      hrules hdeclare).declared htext

/-- Under a sound dictionary nothing but an unknown type keeps a decision from being planned. -/
theorem Dictionary.Sound.obstacle?_eq_none {d : Dictionary} (h : d.Sound) {typeName : String}
    (hd : d.declares typeName = true) (category : Category) (field : Option String) :
    d.obstacle? typeName category field = none := by
  rw [← Option.not_isSome_iff_eq_none, isSome_obstacle?_iff, hd]
  rintro (hfalse | ⟨place, -, text, e, htext, he⟩)
  · cases hfalse
  · obtain ⟨rule, hrule⟩ := h.rules _ _ _ text htext
    rw [hrule] at he
    cases he

namespace Service

variable (service : Service) {scope : RequestScope} {r : Request} {index : Nat}

/-- **With a sound dictionary nothing but an unknown type is an error.** -/
theorem error_decide (hsound : scope.dictionary.Sound) (hvalid : r.validate index = .ok ())
    (s : Session) : (service.decide scope r s).1.error =
      if scope.dictionary.declares r.resource.typeName then none
      else some (Failure.typeNotFound r.resource.typeName).message := by
  cases hd : scope.dictionary.declares r.resource.typeName with
  | false =>
    have hobstacle : r.obstacle? scope = some (.typeNotFound r.resource.typeName) := by
      rw [Request.obstacle?, Dictionary.obstacle?, hd]
      rfl
    obtain ⟨us, hus⟩ := service.decide_failsClosed scope s hvalid
    rw [(hus.barred _ hobstacle).1]
    rfl
  | true =>
    have hclear : r.obstacle? scope = none := hsound.obstacle?_eq_none hd r.category r.field
    have htotal : ∀ p s, ∃ st, ((r.tree scope p).evaluate s).result = .ok st := by
      intro p s
      refine Tree.evaluateWith_total _ (fun l hl s => Session.exists_answer_of_calm ?_ s) s
      exact hsound.calm l.name l.check (RequestScope.fits_of_mem_tree l hl).bound
    obtain ⟨st, hst⟩ := htotal .preview (r.planned scope s)
    obtain ⟨st', hst'⟩ := htotal .commit ((r.previewed scope s).state.report (.committing 1))
    rw [(service.decide_judged hvalid hclear).1]
    exact service.error_judge hst hst'

/-- The error that a request gets, if it gets one: its type is unknown. -/
def typeError? (r : Request) : Option String :=
  if service.dictionary.declares r.resource.typeName then none
  else some (Failure.typeNotFound r.resource.typeName).message

end Service

/-- **Loading agrees with compiling.**  A policy loads if its keys name categories and all its
rules compile with its checks, and otherwise it fails with the first rule that does not, and with
what compiling says of that rule.  So no decision of a service that was loaded carries an error,
but for a type that no entity names.  It does not matter what the book of rules holds. -/
theorem PolicySettings.loads_as_compiled (p : PolicySettings) (book : RuleBook) :
    ((∃ d, p.dictionary = .ok d) ↔ p.KeysNamed ∧
      ∀ rule ∈ p.rules, ∃ bound, (book.bind p.checkDictionary rule.2).1 = .ok bound) ∧
    (p.KeysNamed → ∀ problem, p.dictionary = .error problem ↔
      ∃ before rule after e, p.rules = before ++ rule :: after ∧
        (∀ earlier ∈ before, ∃ bound, (book.bind p.checkDictionary earlier.2).1 = .ok bound) ∧
        (book.bind p.checkDictionary rule.2).1 = .error e ∧
        p.checkDictionary.Offence rule.1 rule.2 e problem) ∧
    ∀ settings service, settings.policy = p → Service.ofSettings settings = .ok service →
      (∀ typeName, service.dictionary.declares typeName = true ↔
        ∃ e ∈ p.entities, e.name = typeName) ∧
      ∀ user s,
        (∀ r : Request, r.validate 0 = .ok () → ∃ d s',
          service.authorize user r s = (.ok d, s') ∧ d.error = service.typeError? r) ∧
        ∀ rs, Request.validateBatch rs = .ok () → ∃ ds s',
          service.authorizeBatch user rs s = (.ok ds, s') ∧
            List.Forall₂ (fun r d => d.error = service.typeError? r) rs ds := by
  simp only [RuleBook.bind_fst]
  refine ⟨exists_dictionary_iff, fun hkeys problem => dictionary_eq_error_iff hkeys, ?_⟩
  rintro settings service rfl hservice
  have hloaded : settings.policy.dictionary = .ok service.dictionary := by
    rw [Service.ofSettings] at hservice
    cases hd : settings.policy.dictionary with
    | error problem =>
      rw [hd] at hservice
      cases hservice
    | ok d =>
      rw [hd] at hservice
      cases hservice
      rfl
  have hsound := sound_dictionary hloaded
  refine ⟨declares_iff hloaded, fun user s => ⟨fun r hr => ?_, fun rs hrs => ?_⟩⟩
  · obtain ⟨s', hcall⟩ := service.authorize_of_validate user hr s
    exact ⟨_, s', hcall, service.error_decide hsound hr _⟩
  · obtain ⟨s', hcall⟩ := service.authorizeBatch_of_validate user hrs s
    refine ⟨_, s', hcall, ?_⟩
    refine service.decideAll_forall (I := fun _ => True) (fun r hr t _ => ⟨?_, trivial⟩) trivial
    obtain ⟨index, hindex⟩ := Request.validate_of_validateBatch hrs r hr
    exact service.error_decide hsound hindex t

/-- Books are declared twice, and the second declaration is the one that counts. -/
def Specimen.books : PolicySettings :=
  ⟨.ofList [("is  owner", .allow)],
    [⟨"book", .ofList [("read", "is owner")], .empty⟩,
      ⟨"book", .ofList [("read", "NOT is   owner")], .empty⟩]⟩

/-- The question whether a thing of a type may be read. -/
def Specimen.asking (typeName : String) : Request :=
  .whole ⟨typeName, some "1", Supply.nth 0, .empty⟩ .read

/-- A policy that loads, a request that the service under it decides without an error, and one
about a type that no entity names. -/
theorem PolicySettings.loads_as_compiled_books :
    ∃ service, Service.ofSettings ⟨.standard, .standard, Specimen.books⟩ = .ok service ∧
      ∀ user s,
        (∃ d s', service.authorize user (Specimen.asking "book") s = (.ok d, s') ∧
          d.error = none) ∧
        ∃ d s', service.authorize user (Specimen.asking "ghost") s = (.ok d, s') ∧
          d.error = some (Failure.typeNotFound "ghost").message := by
  obtain ⟨hloads, -, hdecides⟩ := Specimen.books.loads_as_compiled .empty
  have hkeys : ∀ e ∈ Specimen.books.entities, ∀ key ∈ e.categories,
      Text.isBlank key = false := by decide
  have hrules : ∀ rule ∈ Specimen.books.rules,
      ∃ bound, (RuleBook.empty.bind Specimen.books.checkDictionary rule.2).1 = .ok bound := by
    refine List.forall_mem_cons.mpr ⟨⟨_, rfl⟩, List.forall_mem_cons.mpr ⟨⟨_, rfl⟩, ?_⟩⟩
    exact List.forall_mem_nil _
  obtain ⟨d, hd⟩ := hloads.mpr ⟨hkeys, hrules⟩
  let settings : ServerSettings := ⟨.standard, .standard, Specimen.books⟩
  let service : Service := ⟨d, settings.engine.initialCapacity, settings.engine.showsDiagnostics⟩
  have hservice : Service.ofSettings settings = .ok service := by
    rw [Service.ofSettings, hd]
  obtain ⟨htypes, hcalls⟩ := hdecides settings service rfl hservice
  have hbook : service.dictionary.declares "book" = true := (htypes "book").mpr (by decide)
  have hghost : ¬ service.dictionary.declares "ghost" = true := fun h =>
    absurd ((htypes "ghost").mp h) (by decide)
  refine ⟨service, hservice, fun user s => ⟨?_, ?_⟩⟩
  · obtain ⟨d, s', hcall, herror⟩ := (hcalls user s).1 (Specimen.asking "book") (by rfl)
    exact ⟨d, s', hcall, herror.trans (if_pos hbook)⟩
  · obtain ⟨d, s', hcall, herror⟩ := (hcalls user s).1 (Specimen.asking "ghost") (by rfl)
    exact ⟨d, s', hcall, herror.trans (if_neg hghost)⟩

end AccessRules
