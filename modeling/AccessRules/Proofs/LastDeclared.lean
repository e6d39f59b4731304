/-
# The last declaration counts

A dictionary is built step by step: a name is bound to a new implementation or to one that is there
already, a type is declared with the rules of its own steps.  Replacing happens at three levels: a
type takes the place of an earlier one as a whole, within a type a rule takes the place of an
earlier one of its category, and a name that of an earlier one with the same words.

`last?` says what should be found: the value of the last step that gives the key one.

* `Declaration.rules_ofSteps`, `Declaration.fieldText?_ofSteps`: the steps of one type;
* `Building`: the steps of a dictionary, in which no name is bound to what is not there;
* `Building.coherent`: look-ups find what was declared last, and lists hold what look-ups find;
* `Building.Agrees.renumbers`: buildings with the same last values make dictionaries that differ in
  the numbers of implementations at most, in whatever order the steps come;
* `Building.lookups_last_declared`: both, with what it means for queries and plans.
-/
import AccessRules.Proofs.Declaring
import AccessRules.Proofs.Renumbering

namespace AccessRules

/-! ## 1. The last value in a list -/

section Last

variable {α β σ : Type}

/-- The last of the values that the members of a list give. -/
def last? (f : α → Option β) : List α → Option β
  | [] => none
  | a :: l => (last? f l).or (f a)

variable {f : α → Option β} {l : List α}

theorem isSome_last?_iff : (last? f l).isSome ↔ ∃ a ∈ l, (f a).isSome := by
  induction l with
  | nil => simp [last?]
  | cons a l ih => simp [last?, Option.isSome_or, ih, or_comm]

/-- The last value is that of a member behind which no other gives one. -/
theorem last?_eq_some_iff {b : β} : last? f l = some b ↔
    ∃ before a after, l = before ++ a :: after ∧ f a = some b ∧ ∀ a' ∈ after, f a' = none := by
  constructor
  · intro h
    induction l with
    | nil => cases h
    | cons a l ih =>
      rw [last?] at h
      cases hl : last? f l with
      | some b' =>
        rw [hl, Option.some_or] at h
        obtain ⟨before, a', after, rfl, ha', hafter⟩ := ih (hl.trans h)
        exact ⟨a :: before, a', after, rfl, ha', hafter⟩
      | none =>
        rw [hl, Option.none_or] at h
        refine ⟨[], a, l, rfl, h, fun a' ha' => Option.not_isSome_iff_eq_none.mp fun hsome => ?_⟩
        have hlast : (last? f l).isSome := isSome_last?_iff.mpr ⟨a', ha', hsome⟩
        rw [hl] at hlast
        cases hlast
  · rintro ⟨before, a, after, rfl, ha, hafter⟩
    induction before with
    | nil =>
      have hnone : last? f after = none := by
        refine Option.not_isSome_iff_eq_none.mp fun hsome => ?_
        obtain ⟨a', ha', hsome⟩ := isSome_last?_iff.mp hsome
        rw [hafter a' ha'] at hsome
        cases hsome
      rw [List.nil_append, last?, hnone, ha, Option.none_or]
    | cons a' before ih => rw [List.cons_append, last?, ih, Option.some_or]

theorem last?_map {γ : Type} (f : α → Option β) (g : β → γ) (l : List α) :
    last? (fun a => (f a).map g) l = (last? f l).map g := by
  induction l with
  | nil => rfl
  | cons a l ih =>
    rw [last?, last?, ih]
    cases last? f l <;> rfl

/-- **A run finds the last value**, if every step of it puts its value in the place of the one
there. -/
theorem foldl_last?_of_mem {step : σ → α → σ} (found : σ → Option β)
    (h : ∀ a ∈ l, ∀ s, found (step s a) = (f a).or (found s)) (s : σ) :
    found (l.foldl step s) = (last? f l).or (found s) := by
  induction l generalizing s with
  | nil => rfl
  | cons a l ih =>
    obtain ⟨ha, hl⟩ := List.forall_mem_cons.mp h
    rw [List.foldl_cons, ih hl, ha, last?, Option.or_assoc]

theorem foldl_last? {step : σ → α → σ} (found : σ → Option β)
    (h : ∀ s a, found (step s a) = (f a).or (found s)) (l : List α) (s : σ) :
    found (l.foldl step s) = (last? f l).or (found s) :=
  foldl_last?_of_mem found (fun a _ s => h s a) s

end Last

/-! ## 2. The steps of a type -/

/-- A step in the declaration of a type. -/
inductive Declaration.Step where
  /-- The rule of the type as a whole for a category. -/
  | permission (category : Category) (text : String)
  /-- A field, perhaps without rules. -/
  | field (name : String)
  /-- The rule of a field for a category. -/
  | fieldPermission (name : String) (category : Category) (text : String)

namespace Declaration

/-- Takes a step. -/
def perform (d : Declaration) : Step → Declaration
  | .permission c text => d.permission c text
  | .field name => d.field name
  | .fieldPermission name c text => d.fieldPermission name c text

/-- The declaration that steps make. -/
def ofSteps (typeName : String) (steps : List Step) : Declaration :=
  steps.foldl perform (bare typeName)

/-- The rule that a step declares for the type as a whole. -/
def Step.rule? (category : Category) : Step → Option String
  | permission c text => if category = c then some text else none
  | _ => none

/-- The rule that a step declares for a field. -/
def Step.fieldRule? (name : String) (category : Category) : Step → Option String
  | fieldPermission n c text => if name = n ∧ category = c then some text else none
  | _ => none

theorem typeName_ofSteps (typeName : String) (steps : List Step) :
    (ofSteps typeName steps).typeName = typeName := by
  refine List.foldlRecOn steps perform (b := bare typeName)
    (motive := fun d => d.typeName = typeName) rfl ?_
  intro d hd s _
  cases s <;> exact hd

theorem find?_rules_perform (d : Declaration) (s : Step) (c : Category) :
    Assoc.find? c (d.perform s).rules = (s.rule? c).or (Assoc.find? c d.rules) := by
  cases s with
  | permission c' text =>
    rw [perform, permission, Assoc.find?_insert, Step.rule?]
    split <;> rfl
  | field name => rfl
  | fieldPermission name c' text => rfl

theorem fieldText?_perform (d : Declaration) (s : Step) (name : String) (c : Category) :
    (d.perform s).fieldText? name c = (s.fieldRule? name c).or (d.fieldText? name c) := by
  cases s with
  | permission c' text => rfl
  | field n => exact d.fieldText?_field n name c
  | fieldPermission n c' text =>
    rw [perform, fieldText?_fieldPermission, Step.fieldRule?]
    split <;> rfl

/-- **The rule of a type** is the last that its steps declare. -/
theorem rules_ofSteps (typeName : String) (steps : List Step) (c : Category) :
    Assoc.find? c (ofSteps typeName steps).rules = last? (Step.rule? c) steps := by
  have h := foldl_last? (fun d => Assoc.find? c d.rules)
    (fun d s => find?_rules_perform d s c) steps (bare typeName)
  exact h.trans (Option.or_none ..)

/-- **The rule of a field** is the last that the steps of its type declare. -/
theorem fieldText?_ofSteps (typeName : String) (steps : List Step) (name : String)
    (c : Category) :
    (ofSteps typeName steps).fieldText? name c = last? (Step.fieldRule? name c) steps := by
  have h := foldl_last? (fun d => fieldText? d name c)
    (fun d s => fieldText?_perform d s name c) steps (bare typeName)
  exact h.trans (Option.or_none ..)

end Declaration

/-! ## 3. The steps of a dictionary -/

/-- A step in the building of a dictionary. -/
inductive Dictionary.Step where
  /-- A name for a new implementation. -/
  | addCheck (name : String) (p : Procedure)
  /-- A name for an implementation on the shelf. -/
  | addName (name : String) (id : CheckId)
  /-- A type, declared by steps of its own. -/
  | addType (typeName : String) (steps : List Declaration.Step)

namespace Dictionary

/-- Takes a step. -/
def perform (d : Dictionary) : Step → Dictionary
  | .addCheck name p => d.addCheck name p
  | .addName name id => d.addName name id
  | .addType typeName steps => d.addType (.ofSteps typeName steps)

/-- The steps of a type that a step declares. -/
def Step.declared? (typeName : String) : Step → Option (List Declaration.Step)
  | addType t steps => if typeName = t then some steps else none
  | _ => none

/-- The name that a step binds. -/
def Step.name? : Step → Option String
  | addCheck name _ | addName name _ => some name
  | addType _ _ => none

/-- The implementation that a step puts on the shelf. -/
def Step.procedure? : Step → Option Procedure
  | addCheck _ p => some p
  | _ => none

/-- The numbers that steps bind names to, from a shelf of some length on. -/
def bindings (length : Nat) : List Step → List (String × CheckId)
  | [] => []
  | .addCheck name _ :: rest => (name, length) :: bindings (length + 1) rest
  | .addName name id :: rest => (name, id) :: bindings length rest
  | .addType _ _ :: rest => bindings length rest

/-- Steps that bind no name to what is not on the shelf yet. -/
def Supplied (length : Nat) : List Step → Prop
  | [] => True
  | .addCheck _ _ :: rest => Supplied (length + 1) rest
  | .addName _ id :: rest => id < length ∧ Supplied length rest
  | .addType _ _ :: rest => Supplied length rest

/-- The number that a binding gives a collapsed name: what counts of a name are its words. -/
def numberOf? (words : String) (binding : String × CheckId) : Option CheckId :=
  if words = Text.collapse binding.1 then some binding.2 else none

variable (d : Dictionary) (steps : List Step)

theorem shelf_performed :
    (steps.foldl perform d).shelf = d.shelf ++ steps.filterMap Step.procedure? := by
  induction steps generalizing d with
  | nil => simp
  | cons s steps ih =>
    rw [List.foldl_cons, ih]
    cases s with
    | addCheck name p => simp [perform, addCheck, Step.procedure?]
    | addName name id | addType t inner => rfl

theorem types_performed (typeName : String) :
    (steps.foldl perform d).types.find? typeName =
      (last? (fun s => (s.declared? typeName).map (Declaration.ofSteps typeName)) steps).or
        (d.types.find? typeName) := by
  refine foldl_last? (fun d => d.types.find? typeName) (fun d s => ?_) steps d
  cases s with
  | addCheck name p | addName name id => rfl
  | addType t inner =>
    rw [perform, addType, Declaration.typeName_ofSteps, SortedMap.find?_insert, Step.declared?]
    split
    · next h => rw [h]; rfl
    · rfl

theorem names_performed (words : String) :
    (steps.foldl perform d).names.find? words =
      (last? (numberOf? words) (bindings d.shelf.length steps)).or (d.names.find? words) := by
  induction steps generalizing d with
  | nil => rfl
  | cons s steps ih =>
    rw [List.foldl_cons, ih]
    cases s with
    | addCheck n p =>
      have hlength : (d.addCheck n p).shelf.length = d.shelf.length + 1 := List.length_append
      rw [perform, hlength, bindings, last?, Option.or_assoc]
      congr 1
      rw [addCheck, SortedMap.find?_insert, numberOf?]
      split <;> rfl
    | addName n id =>
      rw [perform, bindings, last?, Option.or_assoc]
      congr 1
      rw [addName, SortedMap.find?_insert, numberOf?]
      split <;> rfl
    | addType t inner => rfl

end Dictionary

/-! ## 4. Buildings -/

/-- How a dictionary is built: by steps, with the implementations of a pool on the shelf from the
start.  Names are bound to implementations that are on the shelf when their turn comes. -/
structure Building where
  pool : List Procedure
  steps : List Dictionary.Step
  supplied : Dictionary.Supplied pool.length steps

namespace Dictionary

variable {length : Nat} {steps : List Step}

theorem map_fst_bindings (length : Nat) (steps : List Step) :
    (bindings length steps).map (·.1) = steps.filterMap Step.name? := by
  induction steps generalizing length with
  | nil => rfl
  | cons s steps ih =>
    cases s with
    | addCheck name p => simp [bindings, Step.name?, ih]
    | addName name id => simp [bindings, Step.name?, ih]
    | addType t inner => simp [bindings, Step.name?, ih, List.filterMap_cons]

/-- What names are bound to is on the shelf in the end. -/
theorem Supplied.lt_of_mem (h : Supplied length steps) {name : String} {id : CheckId}
    (he : (name, id) ∈ bindings length steps) :
    id < length + (steps.filterMap Step.procedure?).length := by
  induction steps generalizing length with
  | nil => cases he
  | cons s steps ih =>
    cases s with
    | addCheck n p =>
      have hshelf : ((Step.addCheck n p :: steps).filterMap Step.procedure?).length =
          (steps.filterMap Step.procedure?).length + 1 := rfl
      rw [hshelf, ← Nat.add_assoc, Nat.add_right_comm]
      rcases List.mem_cons.mp he with heq | he
      · cases heq
        exact Nat.lt_add_right _ (Nat.lt_succ_self _)
      · exact ih h he
    | addName n k =>
      rcases List.mem_cons.mp he with heq | he
      · cases heq
        exact Nat.lt_add_right _ h.1
      · exact ih h.2 he
    | addType t inner => exact ih h he

end Dictionary

namespace Building

open Dictionary (bindings numberOf?)

variable (b : Building)

/-- The dictionary that the steps make. -/
def dictionary : Dictionary := b.steps.foldl Dictionary.perform ⟨b.pool, .empty, .empty⟩

/-- All implementations, the given ones first. -/
def shelf : List Procedure := b.pool ++ b.steps.filterMap Dictionary.Step.procedure?

/-- The steps of the last declaration of a type. -/
def lastSteps? (typeName : String) : Option (List Declaration.Step) :=
  last? (Dictionary.Step.declared? typeName) b.steps

/-- The rule declared last for a type, within its last declaration. -/
def lastRule? (typeName : String) (category : Category) : Option String :=
  (b.lastSteps? typeName).bind (last? (Declaration.Step.rule? category))

/-- The rule declared last for a field, within the last declaration of its type. -/
def lastFieldRule? (typeName name : String) (category : Category) : Option String :=
  (b.lastSteps? typeName).bind (last? (Declaration.Step.fieldRule? name category))

/-- The implementation bound last to a name with the same words. -/
def lastCheck? (name : String) : Option Check :=
  (last? (numberOf? (Text.collapse name)) (bindings b.pool.length b.steps)).bind fun id =>
    (b.shelf[id]?).map fun p => ⟨id, p⟩

theorem find?_types (typeName : String) : b.dictionary.types.find? typeName =
    (b.lastSteps? typeName).map (Declaration.ofSteps typeName) := by
  rw [dictionary, Dictionary.types_performed, SortedMap.find?_empty, Option.or_none, last?_map,
    lastSteps?]

theorem find?_names (words : String) : b.dictionary.names.find? words =
    last? (numberOf? words) (bindings b.pool.length b.steps) := by
  rw [dictionary, Dictionary.names_performed, SortedMap.find?_empty, Option.or_none]

theorem ruleText?_dictionary (typeName : String) (c : Category) :
    b.dictionary.ruleText? typeName c = b.lastRule? typeName c := by
  rw [Dictionary.ruleText?, find?_types, lastRule?, Option.bind_map]
  simp only [Function.comp_def, Declaration.rules_ofSteps]

theorem fieldRuleText?_dictionary (typeName name : String) (c : Category) :
    b.dictionary.fieldRuleText? typeName name c = b.lastFieldRule? typeName name c := by
  have h : ∀ steps, ((Declaration.ofSteps typeName steps).fields.find? name).bind
      (Assoc.find? c) = last? (Declaration.Step.fieldRule? name c) steps :=
    fun steps => Declaration.fieldText?_ofSteps typeName steps name c
  rw [Dictionary.fieldRuleText?, find?_types, lastFieldRule?, Option.bind_map]
  simp only [Function.comp_def, h]

theorem check?_dictionary (name : String) :
    b.dictionary.check? name = b.lastCheck? name := by
  have hshelf : b.dictionary.shelf = b.shelf := Dictionary.shelf_performed _ _
  rw [Dictionary.check?, find?_names, lastCheck?]
  unfold Dictionary.implementation?
  rw [hshelf]

theorem declares_dictionary (typeName : String) :
    b.dictionary.declares typeName = (b.lastSteps? typeName).isSome := by
  rw [Dictionary.declares, SortedMap.contains, find?_types, Option.isSome_map]

/-- A type counts as declared if a step declares it. -/
theorem isSome_lastSteps?_iff {typeName : String} : (b.lastSteps? typeName).isSome ↔
    ∃ steps, Dictionary.Step.addType typeName steps ∈ b.steps := by
  rw [lastSteps?, isSome_last?_iff]
  constructor
  · rintro ⟨s, hs, hsome⟩
    cases s with
    | addCheck name p | addName name id => cases hsome
    | addType t steps =>
      rw [Dictionary.Step.declared?] at hsome
      split at hsome
      · next h => exact ⟨steps, h ▸ hs⟩
      · cases hsome
  · rintro ⟨steps, hs⟩
    exact ⟨_, hs, by simp [Dictionary.Step.declared?]⟩

/-- A name is listed if a step binds one with its words. -/
theorem mem_checkNames_iff {words : String} : words ∈ b.dictionary.checkNames ↔
    ∃ name ∈ b.steps.filterMap Dictionary.Step.name?, Text.collapse name = words := by
  rw [Dictionary.checkNames, ← SortedMap.isSome_find?_iff, find?_names, isSome_last?_iff,
    ← Dictionary.map_fst_bindings b.pool.length]
  constructor
  · rintro ⟨e, he, hsome⟩
    refine ⟨e.1, List.mem_map_of_mem he, ?_⟩
    rw [numberOf?] at hsome
    split at hsome
    · next h => exact h.symm
    · cases hsome
  · rintro ⟨name, hname, rfl⟩
    obtain ⟨e, he, rfl⟩ := List.mem_map.mp hname
    exact ⟨e, he, by simp [numberOf?]⟩

/-- Whatever name is bound, there is an implementation for it. -/
theorem isSome_lastCheck?_iff {name : String} :
    (b.lastCheck? name).isSome ↔ Text.collapse name ∈ b.dictionary.checkNames := by
  rw [Dictionary.checkNames, ← SortedMap.isSome_find?_iff, find?_names, lastCheck?]
  cases hid : last? (numberOf? (Text.collapse name)) (bindings b.pool.length b.steps) with
  | none => rfl
  | some id =>
    obtain ⟨before, e, after, hsplit, he, -⟩ := last?_eq_some_iff.mp hid
    have hmem : e ∈ bindings b.pool.length b.steps := by
      rw [hsplit]
      exact List.mem_append_cons_self
    have hnumber : e.2 = id := by
      rw [numberOf?] at he
      split at he
      · exact Option.some.inj he
      · cases he
    have hlt : id < b.shelf.length := by
      rw [shelf, List.length_append, ← hnumber]
      exact b.supplied.lt_of_mem hmem
    rw [Option.bind_some, Option.isSome_map, List.getElem?_eq_getElem hlt]
    rfl

/-! ## 5. Look-ups and lists -/

/-- What a dictionary lists is what it finds, and it finds what was declared last. -/
structure Coherent : Prop where
  /-- A field is listed exactly if it has a rule. -/
  listed : ∀ typeName name category,
    name ∈ b.dictionary.fieldsWithRule typeName category ↔
      (b.dictionary.fieldRuleText? typeName name category).isSome
  ascending : ∀ typeName category,
    (b.dictionary.fieldsWithRule typeName category).Pairwise (· < ·)
  rule : ∀ typeName category,
    b.dictionary.ruleText? typeName category = b.lastRule? typeName category
  fieldRule : ∀ typeName name category,
    b.dictionary.fieldRuleText? typeName name category = b.lastFieldRule? typeName name category
  check : ∀ name, b.dictionary.check? name = b.lastCheck? name
  /-- There is a check under a name exactly if one with the same words was bound. -/
  bound : ∀ name, (b.dictionary.check? name).isSome ↔
    ∃ given ∈ b.steps.filterMap Dictionary.Step.name?, Text.collapse given = Text.collapse name
  /-- The listed names are those that were bound, collapsed. -/
  names : ∀ words, words ∈ b.dictionary.checkNames ↔
    ∃ given ∈ b.steps.filterMap Dictionary.Step.name?, Text.collapse given = words
  ascendingNames : b.dictionary.checkNames.Pairwise (· < ·)
  declares : ∀ typeName, b.dictionary.declares typeName = true ↔
    ∃ steps, Dictionary.Step.addType typeName steps ∈ b.steps

/-- **Every building is coherent.** -/
theorem coherent : b.Coherent where
  listed typeName name category := b.dictionary.mem_fieldsWithRule_iff typeName category
  ascending := b.dictionary.pairwise_fieldsWithRule
  rule := b.ruleText?_dictionary
  fieldRule := b.fieldRuleText?_dictionary
  check := b.check?_dictionary
  bound name := by rw [check?_dictionary, isSome_lastCheck?_iff, mem_checkNames_iff]
  names _ := b.mem_checkNames_iff
  ascendingNames := b.dictionary.names.pairwise_names
  declares typeName := by rw [declares_dictionary, isSome_lastSteps?_iff]

/-- Two buildings with the same last values.  As an implementation has another number where its turn
comes earlier or later, those of the second are those of the first under `f`. -/
structure Agrees (f : CheckId → CheckId) (b' : Building) : Prop where
  declared : ∀ typeName, (b'.lastSteps? typeName).isSome = (b.lastSteps? typeName).isSome
  rule : ∀ typeName category, b'.lastRule? typeName category = b.lastRule? typeName category
  fieldRule : ∀ typeName name category,
    b'.lastFieldRule? typeName name category = b.lastFieldRule? typeName name category
  check : ∀ name, b'.lastCheck? name = (b.lastCheck? name).map (·.renumber f)

/-- What two buildings answer alike: every query, and every plan up to the numbers at its leaves. -/
structure Alike (f : CheckId → CheckId) (b' : Building) : Prop where
  declares : ∀ typeName, b'.dictionary.declares typeName = b.dictionary.declares typeName
  rule : ∀ typeName category,
    b'.dictionary.ruleText? typeName category = b.dictionary.ruleText? typeName category
  fieldRule : ∀ typeName name category, b'.dictionary.fieldRuleText? typeName name category =
    b.dictionary.fieldRuleText? typeName name category
  fields : ∀ typeName category,
    b'.dictionary.fieldsWithRule typeName category = b.dictionary.fieldsWithRule typeName category
  check : ∀ name, b'.dictionary.check? name = (b.dictionary.check? name).map (·.renumber f)
  names : b'.dictionary.checkNames = b.dictionary.checkNames
  plan : ∀ user request resource category field change s s',
    (RequestScope.plan ⟨b'.dictionary, user, request⟩ resource category field change s').1 =
      (RequestScope.plan ⟨b.dictionary, user, request⟩ resource category field change s).1.map
        (·.renumber f)

variable {b} {f : CheckId → CheckId} {b' : Building}

/-- **Buildings with the same last values** make dictionaries that differ in the numbers of
implementations at most. -/
theorem Agrees.renumbers (h : b.Agrees f b') : b.dictionary.Renumbers f b'.dictionary where
  declares typeName := by rw [declares_dictionary, declares_dictionary, h.declared]
  rule typeName c := by rw [ruleText?_dictionary, ruleText?_dictionary, h.rule]
  fieldRule typeName name c := by
    rw [fieldRuleText?_dictionary, fieldRuleText?_dictionary, h.fieldRule]
  check name := by rw [check?_dictionary, check?_dictionary, h.check]

theorem Agrees.checkNames (h : b.Agrees f b') :
    b'.dictionary.checkNames = b.dictionary.checkNames := by
  have hiff : ∀ name, Text.collapse name ∈ b'.dictionary.checkNames ↔
      Text.collapse name ∈ b.dictionary.checkNames := by
    intro name
    rw [← isSome_lastCheck?_iff, ← isSome_lastCheck?_iff, h.check, Option.isSome_map]
  refine List.Pairwise.eq_of_mem_iff b'.coherent.ascendingNames b.coherent.ascendingNames
    fun words => ?_
  constructor
  · intro hwords
    obtain ⟨name, -, rfl⟩ := b'.mem_checkNames_iff.mp hwords
    exact (hiff name).mp hwords
  · intro hwords
    obtain ⟨name, -, rfl⟩ := b.mem_checkNames_iff.mp hwords
    exact (hiff name).mpr hwords

/-- **Buildings with the same last values answer alike.** -/
theorem Agrees.alike (h : b.Agrees f b') : b.Alike f b' where
  declares := h.renumbers.declares
  rule := h.renumbers.rule
  fieldRule := h.renumbers.fieldRule
  fields := h.renumbers.fields
  check := h.renumbers.check
  names := h.checkNames
  plan user request resource category field change s s' := by
    rw [← RequestScope.plan_fst_of_renumbers ⟨b.dictionary, user, request⟩ h.renumbers,
      RequestScope.plan_fst, RequestScope.plan_fst]

/-- **The last declaration counts, and nothing else does.**  In every dictionary that steps build,
lists hold what look-ups find, in ascending order, and look-ups find what was declared last.  So two
buildings with the same last values answer every query alike and make the same plans, and if they
bind names to the same implementations, under the same numbers. -/
theorem lookups_last_declared (b : Building) :
    b.Coherent ∧ (∀ f b', b.Agrees f b' → b.Alike f b') ∧
      ∀ b', b.Agrees id b' → (∀ name, b'.dictionary.check? name = b.dictionary.check? name) ∧
        ∀ user request resource category field change s s',
          (RequestScope.plan ⟨b'.dictionary, user, request⟩ resource category field change s').1 =
            (RequestScope.plan ⟨b.dictionary, user, request⟩ resource category field change s).1 := by
  refine ⟨b.coherent, fun f b' h => h.alike, fun b' h => ⟨fun name => ?_, ?_⟩⟩
  · rw [h.alike.check]
    exact Option.map_id' ..
  · intro user request resource category field change s s'
    rw [h.alike.plan user request resource category field change s s']
    cases (RequestScope.plan ⟨b.dictionary, user, request⟩ resource category field change s).1 with
    | error e => rfl
    | ok plan => exact congrArg Except.ok plan.renumber_id

end Building

/-- A dictionary of two checks and one type, declared once. -/
def Specimen.declaredOnce : Building where
  pool := []
  steps := [.addCheck "is owner" .allow, .addCheck "is  admin" .deny,
    .addType "book" [.permission .read "is owner", .fieldPermission "title" .update "is owner",
      .fieldPermission "isbn" .update "is admin"]]
  supplied := trivial

/-- The same declarations in another order, after others that they replace. -/
def Specimen.declaredAgain : Building where
  pool := []
  steps := [.addType "book" [.permission .delete "is owner"], .addCheck "is admin" .deny,
    .addCheck "is owner" .deny,
    .addType "book" [.fieldPermission "isbn" .update "is owner", .field "isbn",
      .fieldPermission "isbn" .update "is admin", .fieldPermission "title" .update "is owner",
      .permission .read "is owner"],
    .addCheck "is  owner" .allow]
  supplied := trivial

/-- The numbers of the one specimen in the other. -/
def Specimen.renumbering (id : CheckId) : CheckId := if id = 0 then 2 else 0

namespace Building

open Dictionary (bindings numberOf?)

open Specimen in
theorem agrees_declaredAgain : declaredOnce.Agrees renumbering declaredAgain where
  declared typeName := by
    by_cases h : typeName = "book" <;>
      simp [lastSteps?, declaredOnce, declaredAgain, last?, Dictionary.Step.declared?, h]
  rule typeName category := by
    by_cases h : typeName = "book" <;>
      simp [lastRule?, lastSteps?, declaredOnce, declaredAgain, last?, Dictionary.Step.declared?, h,
        Declaration.Step.rule?]
  fieldRule typeName name category := by
    by_cases h : typeName = "book"
    · by_cases ht : name = "title" <;> by_cases hi : name = "isbn" <;>
        by_cases hc : category = .update <;>
        simp_all [lastFieldRule?, lastSteps?, declaredOnce, declaredAgain, last?,
          Dictionary.Step.declared?, Declaration.Step.fieldRule?]
    · simp [lastFieldRule?, lastSteps?, declaredOnce, declaredAgain, last?,
        Dictionary.Step.declared?, h]
  check name := by
    have howner : Text.collapse "is owner" = "is owner" := by decide
    have howner' : Text.collapse "is  owner" = "is owner" := by decide
    have hadmin : Text.collapse "is admin" = "is admin" := by decide
    have hadmin' : Text.collapse "is  admin" = "is admin" := by decide
    have hshelf : declaredOnce.shelf = [.allow, .deny] := rfl
    have hshelf' : declaredAgain.shelf = [.deny, .deny, .allow] := rfl
    have hbound : bindings declaredOnce.pool.length declaredOnce.steps =
        [("is owner", 0), ("is  admin", 1)] := rfl
    have hbound' : bindings declaredAgain.pool.length declaredAgain.steps =
        [("is admin", 0), ("is owner", 1), ("is  owner", 2)] := rfl
    rw [lastCheck?, lastCheck?, hshelf, hshelf', hbound, hbound']
    by_cases ho : Text.collapse name = "is owner"
    · simp [last?, numberOf?, ho, howner, howner', hadmin, hadmin', Check.renumber, renumbering]
    · by_cases ha : Text.collapse name = "is admin" <;>
        simp [last?, numberOf?, ho, ha, howner, howner', hadmin, hadmin', Check.renumber,
          renumbering]

open Specimen in
/-- The specimens agree: the same fields are listed, and checks are found under other numbers. -/
theorem lookups_last_declared_reordered : declaredOnce.Agrees renumbering declaredAgain ∧
    declaredAgain.dictionary.fieldsWithRule "book" .update = ["isbn", "title"] ∧
    declaredAgain.dictionary.ruleText? "book" .delete = none ∧
    declaredAgain.dictionary.checkNames = ["is admin", "is owner"] ∧
    (declaredOnce.dictionary.check? "is admin").map (·.id) = some 1 ∧
    (declaredAgain.dictionary.check? "is admin").map (·.id) = some 0 := by
  obtain ⟨-, halike, -⟩ := lookups_last_declared declaredOnce
  have h := halike renumbering declaredAgain agrees_declaredAgain
  have hadmin : (declaredOnce.dictionary.check? "is admin").map (·.id) = some 1 := by decide
  refine ⟨agrees_declaredAgain, ?_, ?_, ?_, hadmin, ?_⟩
  · rw [h.fields]
    decide
  · rw [h.rule]
    decide
  · rw [h.names]
    decide
  · obtain ⟨c, hc, hid⟩ := Option.map_eq_some_iff.mp hadmin
    rw [h.check, hc, Option.map_some, Option.map_some, Check.renumber, hid]
    rfl

end Building

end AccessRules
