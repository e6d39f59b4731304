/-
# Exactly what planning does

Planning consults the rule of the type first and then rules of fields: of every field that declares
one for the category, in ascending order, or of the one field at hand.  `Planned` says what may come
of it and in which state it leaves the book: the type is not declared, or one of the consulted
rules is the first that cannot be used and nothing is read after it, or all of them can be used and
there are two trees.

The preview tree is the commit tree with its operation checks put off (`Tree.putOff`).  Rules that
are not consulted may be as they like: `Dictionary.SameFor` compares two dictionaries at the
consulted places alone.

* `planned_plan`: planning does what `Planned` says;
* `preview_eq_putOff`: the preview is the commit, put off;
* `plan_fst_of_sameFor`: nothing but the consulted rules counts;
* `planning_exact`: all of this of every plan.
-/
import AccessRules.Proofs.Planning
import Mathlib.Data.List.Sort

namespace AccessRules

/-! ## 1. The fields with a rule -/

namespace SortedMap

variable {α : Type}

theorem find?_of_mem {m : SortedMap α} {e : String × α} (h : e ∈ m.entries) :
    m.find? e.1 = some e.2 := by
  obtain ⟨l, hl⟩ := m
  change findEntry e.1 l = some e.2
  induction l with
  | nil => exact absurd h List.not_mem_nil
  | cons hd tl ih =>
    rw [List.pairwise_cons] at hl
    rcases List.mem_cons.mp h with rfl | h
    · rw [findEntry, if_pos rfl]
    · have hne : hd.1 ≠ e.1 := fun he => String.lt_irrefl e.1 (he ▸ hl.1 e h)
      rw [findEntry, if_neg hne]
      exact ih hl.2 h

theorem mem_of_find? {m : SortedMap α} {name : String} {a : α} (h : m.find? name = some a) :
    (name, a) ∈ m.entries := by
  obtain ⟨e, he, hname⟩ := List.mem_map.mp (isSome_find?_iff.mp (Option.isSome_of_eq_some h))
  have ha := find?_of_mem he
  rw [hname, h] at ha
  rw [← hname, Option.some.inj ha]
  exact he

end SortedMap

namespace Dictionary

variable (d : Dictionary) (typeName : String) (category : Category)

/-- The fields with a rule are exactly those whose rule has a text. -/
theorem mem_fieldsWithRule_iff {field : String} : field ∈ d.fieldsWithRule typeName category ↔
    (d.fieldRuleText? typeName field category).isSome := by
  rw [fieldsWithRule, fieldRuleText?]
  cases d.types.find? typeName with
  | none => simp
  | some t =>
    rw [Option.bind_some, Option.isSome_bind, Option.any_eq_true]
    constructor
    · intro h
      obtain ⟨e, he, rfl⟩ := List.mem_map.mp h
      obtain ⟨he, hrule⟩ := List.mem_filter.mp he
      exact ⟨e.2, SortedMap.find?_of_mem he, hrule⟩
    · rintro ⟨rules, hrules, hrule⟩
      exact List.mem_map.mpr
        ⟨(field, rules), List.mem_filter.mpr ⟨SortedMap.mem_of_find? hrules, hrule⟩, rfl⟩

theorem pairwise_fieldsWithRule : (d.fieldsWithRule typeName category).Pairwise (· < ·) := by
  rw [fieldsWithRule]
  cases d.types.find? typeName with
  | none => exact .nil
  | some t => exact List.pairwise_map.mpr (t.fields.sorted.filter _)

end Dictionary

/-! ## 2. What is read -/

/-- The book after texts were read one after the other. -/
def RuleBook.readAll (b : RuleBook) (texts : List String) : RuleBook :=
  texts.foldl (fun b text => (b.read text).2) b

/-- Binding a rule reads its text and nothing else. -/
theorem RuleBook.bind_snd (b : RuleBook) (d : Dictionary) (text : String) :
    (b.bind d text).2 = b.readAll [text] := by
  change _ = (b.read text).2
  unfold bind
  rcases b.read text with ⟨e | r, b'⟩
  · rfl
  · dsimp only
    cases d.bindRule r <;> rfl

theorem RuleBook.readAll_append (b : RuleBook) (texts texts' : List String) :
    b.readAll (texts ++ texts') = (b.readAll texts).readAll texts' :=
  List.foldl_append

namespace Dictionary

variable (d : Dictionary) (typeName : String) (category : Category)

/-- Whether a place has no rule that cannot be used. -/
def Usable (place : Option String) : Prop :=
  ∀ text, d.declared? typeName category place = some text → ∃ rule, d.compile text = .ok rule

variable {d typeName category} {place : Option String}

theorem usable_iff : d.Usable typeName category place ↔
    d.fault? typeName category place = none := by
  rw [Usable, fault?]
  cases d.declared? typeName category place with
  | none => simp
  | some text => cases hc : d.compile text <;> simp [hc]

/-- A fault is that of the rule declared at the place. -/
theorem exists_of_fault? {f : Failure} (h : d.fault? typeName category place = some f) :
    ∃ text e, d.declared? typeName category place = some text ∧ d.compile text = .error e ∧
      f = .invalidRule typeName place category.name text e := by
  rw [fault?] at h
  split at h
  · cases h
  · next text ht =>
    split at h
    · cases h
    · next e he => exact ⟨text, e, ht, he, (Option.some.inj h).symm⟩

/-- Consulting a place reads its rule, if one is declared there. -/
theorem consult?_snd (d : Dictionary) (typeName : String) (category : Category)
    (place : Option String) (book : RuleBook) :
    (d.consult? typeName place category (d.declared? typeName category place) book).2 =
      book.readAll (d.declared? typeName category place).toList := by
  cases d.declared? typeName category place with
  | none => rfl
  | some text =>
    rw [Option.toList_some, ← book.bind_snd d text]
    simp only [consult?, consult]
    rcases book.bind d text with ⟨e | rule, book'⟩ <;> rfl

/-- Consulting a place, with its outcome and what it reads. -/
theorem consult?_read (d : Dictionary) (typeName : String) (category : Category)
    (place : Option String) (book : RuleBook) :
    d.consult? typeName place category (d.declared? typeName category place) book =
      (match d.fault? typeName category place with
        | some f => .error f
        | none => .ok (d.rule? typeName category place),
        book.readAll (d.declared? typeName category place).toList) := by
  obtain ⟨book', h⟩ := d.consult?_eq typeName category place book
  have hread := d.consult?_snd typeName category place book
  rw [h] at hread ⊢
  exact congrArg _ hread

end Dictionary

/-! ## 3. Up to the first fault -/

/-- How consulting places one after the other goes: all are usable and read, or one of them is the
first that is not, and nothing behind it is read. -/
inductive Dictionary.Consulted (d : Dictionary) (typeName : String) (category : Category)
    (places : List (Option String)) (book : RuleBook) : Option Failure → RuleBook → Prop where
  | through (usable : ∀ q ∈ places, d.Usable typeName category q) :
      Consulted d typeName category places book none
        (book.readAll (places.filterMap (d.declared? typeName category)))
  | stopped {earlier later : List (Option String)} {place : Option String} {text : String}
      {e : RuleError} (split : places = earlier ++ place :: later)
      (usable : ∀ q ∈ earlier, d.Usable typeName category q)
      (declared : d.declared? typeName category place = some text)
      (refused : d.compile text = .error e) :
      Consulted d typeName category places book
        (some (.invalidRule typeName place category.name text e))
        (book.readAll (earlier.filterMap (d.declared? typeName category) ++ [text]))

namespace Dictionary

variable {d : Dictionary} {typeName : String} {category : Category}
  {places : List (Option String)} {book : RuleBook}

/-- A place that can be used is passed. -/
theorem Consulted.cons {place : Option String} {f : Option Failure} {book' : RuleBook}
    (hplace : d.Usable typeName category place)
    (h : d.Consulted typeName category places
      (book.readAll (d.declared? typeName category place).toList) f book') :
    d.Consulted typeName category (place :: places) book f book' := by
  have hread : ∀ ps : List (Option String),
      (place :: ps).filterMap (d.declared? typeName category) =
        (d.declared? typeName category place).toList ++
          ps.filterMap (d.declared? typeName category) := by
    intro ps
    rw [List.filterMap_cons]
    cases d.declared? typeName category place <;> rfl
  cases h with
  | through usable =>
    rw [← RuleBook.readAll_append, ← hread]
    exact .through (List.forall_mem_cons.mpr ⟨hplace, usable⟩)
  | stopped split usable declared refused =>
    rw [← RuleBook.readAll_append, ← List.append_assoc, ← hread]
    exact .stopped (congrArg (place :: ·) split) (List.forall_mem_cons.mpr ⟨hplace, usable⟩)
      declared refused

/-- A place that cannot be used is the last. -/
theorem consulted_of_fault {place : Option String} {f : Failure}
    (h : d.fault? typeName category place = some f) :
    d.Consulted typeName category (place :: places) book (some f)
      (book.readAll (d.declared? typeName category place).toList) := by
  obtain ⟨text, e, htext, he, rfl⟩ := exists_of_fault? h
  have hstop : d.Consulted typeName category (place :: places) book
      (some (.invalidRule typeName place category.name text e)) (book.readAll ([] ++ [text])) :=
    .stopped rfl (List.forall_mem_nil _) htext he
  rw [htext]
  exact hstop

/-- **Consulting fields** goes through their places in order. -/
theorem consulted_consultFields (d : Dictionary) (typeName : String) (category : Category)
    (fields : List String) (book : RuleBook) :
    d.Consulted typeName category (fields.map some) book
        ((fields.map some).findSome? (d.fault? typeName category))
        (d.consultFields typeName category fields book).2 := by
  induction fields generalizing book with
  | nil => exact .through (List.forall_mem_nil _)
  | cons field fields ih =>
    have hhead := d.consult?_read typeName category (some field) book
    rw [declared?] at hhead
    rw [consultFields, hhead, List.map_cons, List.findSome?_cons]
    cases hfault : d.fault? typeName category (some field) with
    | some f => exact consulted_of_fault hfault
    | none =>
      dsimp only
      refine .cons (usable_iff.mpr hfault) ?_
      have htail := ih (book.readAll (d.declared? typeName category (some field)).toList)
      rw [declared?] at htail
      split
      · next h => rw [h] at htail; exact htail
      · next h => rw [h] at htail; exact htail

end Dictionary

namespace RequestScope

variable (scope : RequestScope) (resource : Resource) (category : Category)
  (field : Option String) (change : Option Change)

/-- How planning may end, and the book that it leaves. -/
inductive Planned (book : RuleBook) : Except Failure Plan → RuleBook → Prop where
  | undeclared (unknown : scope.dictionary.declares resource.typeName = false) :
      Planned book (.error (.typeNotFound resource.typeName)) book
  | refused {f : Failure} {book' : RuleBook}
      (known : scope.dictionary.declares resource.typeName = true)
      (consulted : scope.dictionary.Consulted resource.typeName category
        (scope.dictionary.places resource.typeName category field) book (some f) book') :
      Planned book (.error f) book'
  | made {book' : RuleBook} (known : scope.dictionary.declares resource.typeName = true)
      (consulted : scope.dictionary.Consulted resource.typeName category
        (scope.dictionary.places resource.typeName category field) book none book') :
      Planned book (.ok ⟨scope.tree resource category field change .preview,
        scope.tree resource category field change .commit⟩) book'

/-- The book that planning leaves is that of consulting the places. -/
theorem consulted_plan (hd : scope.dictionary.declares resource.typeName = true) (s : Session) :
    scope.dictionary.Consulted resource.typeName category
      (scope.dictionary.places resource.typeName category field) s.book
      ((scope.dictionary.places resource.typeName category field).findSome?
        (scope.dictionary.fault? resource.typeName category))
      (scope.plan resource category field change s).2.book := by
  have hentity := scope.dictionary.consult?_read resource.typeName category none s.book
  rw [Dictionary.declared?] at hentity
  cases field with
  | none =>
    have hfields := scope.dictionary.consulted_consultFields resource.typeName category
      (scope.dictionary.fieldsWithRule resource.typeName category)
      (s.book.readAll (scope.dictionary.declared? resource.typeName category none).toList)
    rw [Dictionary.declared?] at hfields
    simp only [plan, planWhole, hd, if_true, Dictionary.places, hentity, List.findSome?_cons]
    cases hfault : scope.dictionary.fault? resource.typeName category none with
    | some f => exact Dictionary.consulted_of_fault hfault
    | none =>
      refine .cons (Dictionary.usable_iff.mpr hfault) ?_
      dsimp only
      split
      · next h => rw [h] at hfields; exact hfields
      · next h => rw [h] at hfields; exact hfields
  | some field =>
    have hfield := scope.dictionary.consult?_read resource.typeName category (some field)
      (s.book.readAll (scope.dictionary.declared? resource.typeName category none).toList)
    rw [Dictionary.declared?] at hfield
    simp only [plan, planField, hd, if_true, Dictionary.places, hentity, List.findSome?_cons,
      List.findSome?_nil]
    cases hfault : scope.dictionary.fault? resource.typeName category none with
    | some f => exact Dictionary.consulted_of_fault hfault
    | none =>
      refine .cons (Dictionary.usable_iff.mpr hfault) ?_
      simp only [Dictionary.declared?] at hfield ⊢
      rw [hfield]
      cases hfault' : scope.dictionary.fault? resource.typeName category (some field) with
      | some f => exact Dictionary.consulted_of_fault hfault'
      | none =>
        refine .cons (Dictionary.usable_iff.mpr hfault') ?_
        exact .through (List.forall_mem_nil _)

variable {scope resource category field change}

/-- **Planning consults its places** and nothing else, and says what is wrong with the first that
cannot be used. -/
theorem planned_plan (s : Session) : scope.Planned resource category field change s.book
    (scope.plan resource category field change s).1
    (scope.plan resource category field change s).2.book := by
  cases hd : scope.dictionary.declares resource.typeName with
  | false =>
    have hplan : scope.plan resource category field change s =
        (.error (.typeNotFound resource.typeName), s) := by
      cases field <;> simp [plan, planField, planWhole, hd]
    rw [hplan]
    exact .undeclared hd
  | true =>
    have hconsulted := consulted_plan scope resource category field change hd s
    rw [plan_fst, Dictionary.obstacle?, if_pos hd]
    generalize (scope.dictionary.places resource.typeName category field).findSome? _ = f
      at hconsulted ⊢
    cases f with
    | some f => exact .refused hd hconsulted
    | none => exact .made hd hconsulted

end RequestScope

/-! ## 4. A plan with its operation checks put off -/

/-- The leaf as a preview asks it, without the change. -/
def Leaf.withoutChange (l : Leaf) : Leaf :=
  { l with situation := { l.situation with change := none } }

/-- A user check cannot tell whether there is a change: it is asked and shown the same. -/
theorem Leaf.withoutChange_of_user {l : Leaf} (h : l.check.kind = .user) :
    l.withoutChange.question = l.question ∧ l.withoutChange.context = l.context := by
  simp only [withoutChange, question, context, Check.visibleChange, h, and_self]

/-- The tree with a deferred node in the place of every operation check, and no change shown. -/
def Tree.putOff : Tree → Tree
  | check leaf s =>
    match leaf.check.kind with
    | .operation => .deferred leaf.name s
    | .user => .check leaf.withoutChange s
  | constant passed label s => .constant passed label s
  | deferred name s => .deferred name s
  | and l r s => .and l.putOff r.putOff s
  | or l r s => .or l.putOff r.putOff s
  | not c s => .not c.putOff s
  | anyField condition f e s => .anyField condition f.putOff e.putOff s
  | fieldRule condition r s => .fieldRule condition r.putOff s
  | entityRule condition r s => .entityRule condition r.putOff s
  | unrestricted condition s => .unrestricted condition s

theorem Tree.congruent_putOff : Congruent fun t c => t = c.putOff where
  constant _ _ := rfl
  and hl hr := by rw [hl, hr]; rfl
  or hl hr := by rw [hl, hr]; rfl
  not hc := by rw [hc]; rfl
  anyField _ _ _ _ _ hf he := by rw [hf, he]; rfl
  fieldRule _ _ _ hr := by rw [hr]; rfl
  entityRule _ _ _ hr := by rw [hr]; rfl
  unrestricted _ := rfl

/-- What the two trees of a plan share, and in what they differ. -/
structure Plan.Paired (plan : Plan) : Prop where
  /-- No node of the commit tree is evaluated, and none is deferred. -/
  commit : Tree.Fresh .commit plan.commit
  /-- No node of the preview tree is evaluated. -/
  preview : Tree.Fresh .preview plan.preview
  /-- The preview puts off every operation check, and differs in nothing else. -/
  putOff : plan.preview = plan.commit.putOff
  /-- That no change is shown makes no difference to a user check. -/
  user : ∀ l ∈ plan.commit.leaves, l.check.kind = .user →
    l.withoutChange.question = l.question ∧ l.withoutChange.context = l.context

namespace RequestScope

variable {scope : RequestScope} {resource : Resource} {category : Category}
  {field : Option String} {change : Option Change}

/-- **The preview is the commit, put off.** -/
theorem preview_eq_putOff : scope.tree resource category field change .preview =
    (scope.tree resource category field change .commit).putOff := by
  refine tree_related (M := fun t c => t = c.putOff) Tree.congruent_putOff fun c _ => ?_
  cases hkind : c.check.kind with
  | user =>
    rw [Phase.leaf_of_user _ _ hkind, Phase.leaf_of_user _ _ hkind]
    simp only [Tree.ofLeaf, Tree.putOff, hkind]
    rfl
  | operation =>
    rw [Phase.leaf_of_operation _ hkind]
    simp only [Phase.leaf, Tree.ofLeaf, Tree.putOff, hkind]
    rfl

theorem paired_tree : Plan.Paired ⟨scope.tree resource category field change .preview,
    scope.tree resource category field change .commit⟩ where
  commit := fresh_tree
  preview := fresh_tree
  putOff := preview_eq_putOff
  user _ _ := Leaf.withoutChange_of_user

end RequestScope

/-! ## 5. Rules that are not consulted -/

/-- The rules of fields tell which fields have one. -/
theorem Dictionary.fieldsWithRule_congr {d d' : Dictionary} {typeName : String}
    {category : Category} (h : ∀ name,
      d'.fieldRuleText? typeName name category = d.fieldRuleText? typeName name category) :
    d'.fieldsWithRule typeName category = d.fieldsWithRule typeName category := by
  refine List.Pairwise.eq_of_mem_iff (d'.pairwise_fieldsWithRule typeName category)
    (d.pairwise_fieldsWithRule typeName category) fun name => ?_
  rw [mem_fieldsWithRule_iff, mem_fieldsWithRule_iff, h name]

/-- Two dictionaries that a decision cannot tell apart: they bind the same checks and have the same
rules for the category, at the type and at every field, or at the type and the field at hand. -/
structure Dictionary.SameFor (typeName : String) (category : Category) (field : Option String)
    (d d' : Dictionary) : Prop where
  check : ∀ name, d'.check? name = d.check? name
  declares : d'.declares typeName = d.declares typeName
  rule : d'.ruleText? typeName category = d.ruleText? typeName category
  fieldRule : ∀ name, field = none ∨ field = some name →
    d'.fieldRuleText? typeName name category = d.fieldRuleText? typeName name category

namespace Dictionary

variable {d d' : Dictionary} {typeName : String} {category : Category} {field : Option String}

theorem compile_of_check?_eq (h : ∀ name, d'.check? name = d.check? name) (text : String) :
    d'.compile text = d.compile text := by
  have hname : d'.bindName = d.bindName := by
    funext name
    rw [bindName, bindName, h]
  have hrule : d'.bindRule = d.bindRule := by
    funext r
    rw [bindRule, bindRule, hname]
  rw [compile, compile, hrule]

theorem SameFor.fieldsWithRule (h : SameFor typeName category none d d') :
    d'.fieldsWithRule typeName category = d.fieldsWithRule typeName category :=
  fieldsWithRule_congr fun name => h.fieldRule name (.inl rfl)

theorem SameFor.places (h : SameFor typeName category field d d') :
    d'.places typeName category field = d.places typeName category field := by
  cases field with
  | some name => rfl
  | none => rw [Dictionary.places, Dictionary.places, h.fieldsWithRule]

theorem SameFor.declared? (h : SameFor typeName category field d d') {place : Option String}
    (hplace : place ∈ d.places typeName category field) :
    d'.declared? typeName category place = d.declared? typeName category place := by
  cases place with
  | none => exact h.rule
  | some name =>
    refine h.fieldRule name ?_
    cases field with
    | none => exact .inl rfl
    | some field =>
      have hname : name = field := by simpa [Dictionary.places] using hplace
      exact .inr (congrArg some hname.symm)

theorem SameFor.fault? (h : SameFor typeName category field d d') {place : Option String}
    (hplace : place ∈ d.places typeName category field) :
    d'.fault? typeName category place = d.fault? typeName category place := by
  simp only [Dictionary.fault?, h.declared? hplace, compile_of_check?_eq h.check]

theorem SameFor.rule? (h : SameFor typeName category field d d') (place : Option String)
    (hplace : place ∈ d.places typeName category field) :
    d'.rule? typeName category place = d.rule? typeName category place := by
  simp only [Dictionary.rule?, h.declared? hplace, compile_of_check?_eq h.check]

theorem SameFor.obstacle? (h : SameFor typeName category field d d') :
    d'.obstacle? typeName category field = d.obstacle? typeName category field := by
  have hfaults : (d.places typeName category field).findSome? (d'.fault? typeName category) =
      (d.places typeName category field).findSome? (d.fault? typeName category) := by
    rw [← List.head?_filterMap, ← List.head?_filterMap,
      List.filterMap_congr fun _ hplace => h.fault? hplace]
  rw [Dictionary.obstacle?, Dictionary.obstacle?, h.declares, h.places, hfaults]

end Dictionary

namespace RequestScope

variable {scope : RequestScope} {resource : Resource} {category : Category}
  {field : Option String} {d : Dictionary}

theorem tree_of_sameFor (h : scope.dictionary.SameFor resource.typeName category field d)
    (change : Option Change) (p : Phase) :
    { scope with dictionary := d }.tree resource category field change p =
      scope.tree resource category field change p := by
  have hentity := h.rule? none (by cases field <;> exact List.mem_cons_self)
  cases field with
  | none =>
    have hfields : ∀ name ∈ scope.dictionary.fieldsWithRule resource.typeName category,
        d.rule? resource.typeName category (some name) =
          scope.dictionary.rule? resource.typeName category (some name) := fun name hname =>
      h.rule? _ (List.mem_cons_of_mem _ (List.mem_map_of_mem hname))
    simp only [tree, hentity, h.fieldsWithRule, List.filterMap_congr hfields]
    rfl
  | some name =>
    have hfield := h.rule? (some name) (List.mem_cons_of_mem _ List.mem_cons_self)
    simp only [tree, hentity, hfield]
    rfl

/-- **Nothing but the consulted rules counts**: under any dictionary that has the same checks and
the same rules at the consulted places, planning comes to the same. -/
theorem plan_fst_of_sameFor (h : scope.dictionary.SameFor resource.typeName category field d)
    (change : Option Change) (s : Session) :
    ({ scope with dictionary := d }.plan resource category field change s).1 =
      (scope.plan resource category field change s).1 := by
  rw [plan_fst, plan_fst, h.obstacle?, tree_of_sameFor h, tree_of_sameFor h]

/-! ## 6. Planning -/

/-- **Planning is exact.**  It consults the rule of the type and then those of the fields that
declare one, in ascending order, or of the one field at hand; it ends with the first thing that is
wrong with them, and otherwise with a fresh pair of trees of which one is the other put off.  It
asks no check, leaves all answers and counters alone, and takes no notice of other rules. -/
theorem planning_exact (scope : RequestScope) (resource : Resource) (category : Category)
    (field : Option String) (change : Option Change) (s : Session) :
    let d := scope.dictionary
    let planned := scope.plan resource category field change s
    (d.fieldsWithRule resource.typeName category).Pairwise (· < ·) ∧
      (∀ name, name ∈ d.fieldsWithRule resource.typeName category ↔
        (d.fieldRuleText? resource.typeName name category).isSome) ∧
      scope.Planned resource category field change s.book planned.1 planned.2.book ∧
      (∀ plan, planned.1 = .ok plan → plan.Paired) ∧
      s.Quiet planned.2 ∧
      ∀ d', d.SameFor resource.typeName category field d' →
        ({ scope with dictionary := d' }.plan resource category field change s).1 = planned.1 := by
  refine ⟨scope.dictionary.pairwise_fieldsWithRule _ _, fun name =>
    scope.dictionary.mem_fieldsWithRule_iff _ _, planned_plan s, fun plan hplan => ?_,
    plan_quiet scope resource category field change s,
    fun d' h => plan_fst_of_sameFor h change s⟩
  rw [plan_eq_ok hplan]
  exact paired_tree

end RequestScope

end AccessRules
