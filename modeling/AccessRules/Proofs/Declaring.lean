/-
# What a loaded policy declares

A policy is a list of entries, and the dictionary is a map: an entity goes under its name, a rule
under the category that its key names, a check under its name with the white space collapsed.
Entries with different keys in the policy may come to one key in the dictionary.  The later one then
takes the place of the earlier one, and an entity takes the place of an earlier one as a whole.

So an entry is found in the dictionary if no later one has its key, and nothing else is found there.
Fields are the exception that needs no such condition, for their names are compared as they are.

* `Latest`: no later entry has the key of this one;
* `foldlM_latest`: what the latest entry sets is there in the end;
* `latest_of_rule`, `latest_of_fieldRule`, `latest_of_type`, `latest_of_check`: what is found was
  set by a latest entry;
* `latest_declared`: what is latest in a policy, and nothing else, is found in its dictionary;
* `earlier_lost`: an entry that is not may be lost.
-/
import AccessRules.Proofs.Loading

namespace AccessRules

/-! ## 1. Latest entries -/

section Latest

variable {α κ : Type}

/-- An entry of a list after which no other has its key. -/
def Latest (key : α → κ) (a : α) (l : List α) : Prop :=
  ∃ before after, l = before ++ a :: after ∧ ∀ b ∈ after, key b ≠ key a

/-- Where no two entries have one key, every entry is the latest. -/
theorem latest_of_pairwise {key : α → κ} {a : α} {l : List α}
    (hl : l.Pairwise fun a b => key a ≠ key b) (ha : a ∈ l) : Latest key a l := by
  obtain ⟨before, after, rfl⟩ := List.append_of_mem ha
  refine ⟨before, after, rfl, fun b hb => ?_⟩
  exact ((List.pairwise_cons.mp (List.pairwise_append.mp hl).2.1).1 b hb).symm

/-- Of the entries with one key there is a latest. -/
theorem exists_latest (key : α → κ) {a : α} {l : List α} (ha : a ∈ l) :
    ∃ b, Latest key b l ∧ key b = key a := by
  induction l generalizing a with
  | nil => cases ha
  | cons a₀ l ih =>
    by_cases hlater : ∃ b ∈ l, key b = key a
    · obtain ⟨b, hb, hkey⟩ := hlater
      obtain ⟨c, ⟨before, after, rfl, hafter⟩, hc⟩ := ih hb
      exact ⟨c, ⟨a₀ :: before, after, rfl, hafter⟩, hc.trans hkey⟩
    · obtain rfl | ha := List.mem_cons.mp ha
      · exact ⟨a, ⟨[], l, rfl, fun b hb hkey => hlater ⟨b, hb, hkey⟩⟩, rfl⟩
      · exact absurd ⟨a, ha, rfl⟩ hlater

/-- The entries of a map have different names. -/
theorem SortedMap.latest_of_mem {m : SortedMap α} {e : String × α} (h : e ∈ m.entries) :
    Latest Prod.fst e m.entries :=
  latest_of_pairwise (m.sorted.imp fun {a b} hlt (heq : a.1 = b.1) =>
    String.lt_irrefl b.1 (by rwa [heq] at hlt)) h

/-- **What the latest entry sets is there in the end**, if entries with another key keep it. -/
theorem foldlM_latest {β ε : Type} {f : β → α → Except ε β} {key : α → κ} {I : β → Prop} {a : α}
    {l : List α} (ha : Latest key a l) (set : ∀ b b', f b a = .ok b' → I b')
    (keep : ∀ a' ∈ l, key a' ≠ key a → ∀ b b', I b → f b a' = .ok b' → I b') {b b' : β}
    (h : l.foldlM f b = .ok b') : I b' := by
  obtain ⟨before, after, rfl, hafter⟩ := ha
  induction before generalizing b with
  | nil =>
    obtain ⟨c, hstep, hrest⟩ := foldlM_cons_eq_ok_iff.mp h
    refine foldlM_keeps (fun a' ha' => keep a' ?_ (hafter a' ha')) (set b c hstep) hrest
    exact List.mem_cons_of_mem _ ha'
  | cons a₀ before ih =>
    obtain ⟨c, -, hrest⟩ := foldlM_cons_eq_ok_iff.mp h
    exact ih (fun a' ha' => keep a' (List.mem_cons_of_mem _ ha')) hrest

end Latest

/-! ## 2. Entities -/

namespace Declaration

/-- The rule text that is declared for a field. -/
def fieldText? (d : Declaration) (name : String) (c : Category) : Option String :=
  (d.fields.find? name).bind (Assoc.find? c)

theorem fieldText?_field (d : Declaration) (f name : String) (c : Category) :
    (d.field f).fieldText? name c = d.fieldText? name c := by
  rw [fieldText?, field, SortedMap.update, SortedMap.find?_insert]
  split
  · next h =>
    rw [h, fieldText?]
    cases d.fields.find? f <;> rfl
  · rfl

theorem fieldText?_fieldPermission (d : Declaration) (f name text : String) (c c' : Category) :
    (d.fieldPermission f c text).fieldText? name c' =
      if name = f ∧ c' = c then some text else d.fieldText? name c' := by
  rw [fieldText?, fieldPermission, SortedMap.update, SortedMap.find?_insert]
  by_cases hname : name = f
  · subst hname
    rw [if_pos rfl, Option.bind_some, Assoc.find?_insert, fieldText?]
    by_cases hc : c' = c
    · rw [if_pos hc, if_pos ⟨rfl, hc⟩]
    · rw [if_neg hc, if_neg fun h => hc h.2]
      cases d.fields.find? name <;> rfl
  · rw [if_neg hname, if_neg fun h => hname h.1]
    rfl

end Declaration

namespace Dictionary

/-- A type that was declared last has the rules of its declaration. -/
theorem ruleText?_addType (d : Dictionary) (t : Declaration) (c : Category) :
    (d.addType t).ruleText? t.typeName c = Assoc.find? c t.rules := by
  rw [ruleText?, addType, SortedMap.find?_insert_self, Option.bind_some]

theorem fieldRuleText?_addType (d : Dictionary) (t : Declaration) (name : String) (c : Category) :
    (d.addType t).fieldRuleText? t.typeName name c = t.fieldText? name c := by
  rw [fieldRuleText?, addType, SortedMap.find?_insert_self, Option.bind_some]
  rfl

end Dictionary

namespace EntityRules

variable {e : EntityRules} {t : Declaration}

/-- The category that the key of a rule names. -/
def keyOf (r : String × String) : Option Category := Category.parse? r.1

/-- **The latest rule of an entity under a category is declared for it.** -/
theorem rule_of_declaration {r : String × String} (hr : Latest keyOf r e.permissions.entries)
    (h : e.declaration = .ok t) :
    ∃ c, Category.parse? r.1 = some c ∧ Assoc.find? c t.rules = some r.2 := by
  rw [declaration] at h
  split at h
  · cases h
  · next d hwhole =>
    let I (d : Declaration) : Prop :=
      ∃ c, Category.parse? r.1 = some c ∧ Assoc.find? c d.rules = some r.2
    have hd : I d := by
      refine foldlM_latest (I := I) hr (fun d d' hd' => ?_) (fun r' _ hne d d' hd hd' => ?_) hwhole
      · obtain ⟨c, hc, rfl⟩ := map_eq_ok_iff.mp hd'
        exact ⟨c, category_eq_ok hc, Assoc.find?_insert_self c r.2 d.rules⟩
      · obtain ⟨c, hc, hfound⟩ := hd
        obtain ⟨c', hc', rfl⟩ := map_eq_ok_iff.mp hd'
        have hother : c ≠ c' := by
          rintro rfl
          exact hne ((category_eq_ok hc').trans hc.symm)
        exact ⟨c, hc, (Assoc.find?_insert_of_ne r'.2 hother d.rules).trans hfound⟩
    -- declaring fields leaves the rules of the entity alone
    refine foldlM_keeps (I := I) (fun f _ d d' hd hd' => ?_) hd h
    refine foldlM_keeps (I := I) (fun r' _ d d' hd hd' => ?_) (b := d.field f.1) hd hd'
    obtain ⟨c', -, rfl⟩ := map_eq_ok_iff.mp hd'
    exact hd

/-- **The latest rule of a field under a category is declared for it.** -/
theorem fieldRule_of_declaration {f : String × SortedMap String} (hf : f ∈ e.fields.entries)
    {r : String × String} (hr : Latest keyOf r f.2.entries) (h : e.declaration = .ok t) :
    ∃ c, Category.parse? r.1 = some c ∧ t.fieldText? f.1 c = some r.2 := by
  rw [declaration] at h
  split at h
  · cases h
  · let I (d : Declaration) : Prop :=
      ∃ c, Category.parse? r.1 = some c ∧ d.fieldText? f.1 c = some r.2
    refine foldlM_latest (I := I) (SortedMap.latest_of_mem hf) (fun d d' hd' => ?_)
      (fun f' _ hne d d' hd hd' => ?_) h
    · refine foldlM_latest (I := I) hr (fun d d' hd' => ?_) (fun r' _ hne d d' hd hd' => ?_) hd'
      · obtain ⟨c, hc, rfl⟩ := map_eq_ok_iff.mp hd'
        refine ⟨c, category_eq_ok hc, ?_⟩
        rw [Declaration.fieldText?_fieldPermission, if_pos ⟨rfl, rfl⟩]
      · obtain ⟨c, hc, hfound⟩ := hd
        obtain ⟨c', hc', rfl⟩ := map_eq_ok_iff.mp hd'
        refine ⟨c, hc, ?_⟩
        rw [Declaration.fieldText?_fieldPermission, if_neg, hfound]
        rintro ⟨-, rfl⟩
        exact hne ((category_eq_ok hc').trans hc.symm)
    · -- another field
      refine foldlM_keeps (I := I) (fun r' _ d d' hd hd' => ?_) (b := d.field f'.1) ?_ hd'
      · obtain ⟨c, hc, hfound⟩ := hd
        obtain ⟨c', -, rfl⟩ := map_eq_ok_iff.mp hd'
        refine ⟨c, hc, ?_⟩
        rw [Declaration.fieldText?_fieldPermission, if_neg fun h => hne h.1.symm, hfound]
      · obtain ⟨c, hc, hfound⟩ := hd
        exact ⟨c, hc, (d.fieldText?_field f'.1 f.1 c).trans hfound⟩

/-- What is declared for an entity stands under a key of it. -/
theorem exists_key_of_rule {c : Category} {text : String} (h : e.declaration = .ok t)
    (hfound : Assoc.find? c t.rules = some text) :
    ∃ r ∈ e.permissions.entries, keyOf r = some c := by
  let I (d : Declaration) : Prop := ∀ c text, Assoc.find? c d.rules = some text →
    ∃ r ∈ e.permissions.entries, keyOf r = some c
  refine declaration_keeps (I := I) (fun _ _ h => nomatch h) (fun r hr d c hc hd => ?_)
    (fun _ _ _ hd => hd) (fun _ _ _ _ _ _ _ hd => hd) h c text hfound
  intro c' text' hfound'
  rw [Declaration.permission, Assoc.find?_insert] at hfound'
  split at hfound'
  · next heq => exact ⟨r, hr, heq ▸ hc⟩
  · exact hd c' text' hfound'

/-- What is declared for a field stands under a key of it. -/
theorem exists_key_of_fieldRule {name : String} {c : Category} {text : String}
    (h : e.declaration = .ok t) (hfound : t.fieldText? name c = some text) :
    ∃ f ∈ e.fields.entries, f.1 = name ∧ ∃ r ∈ f.2.entries, keyOf r = some c := by
  let I (d : Declaration) : Prop := ∀ c text, d.fieldText? name c = some text →
    ∃ f ∈ e.fields.entries, f.1 = name ∧ ∃ r ∈ f.2.entries, keyOf r = some c
  refine declaration_keeps (I := I) (fun _ _ h => nomatch h) (fun _ _ _ _ _ hd => hd)
    (fun f _ d hd c text hfound => ?_) (fun f hf r hr d c hc hd c' text' hfound' => ?_)
    h c text hfound
  · exact hd c text ((d.fieldText?_field f.1 name c).symm.trans hfound)
  · rw [Declaration.fieldText?_fieldPermission] at hfound'
    split at hfound'
    · next heq => exact ⟨f, hf, heq.1.symm, r, hr, heq.2 ▸ hc⟩
    · exact hd c' text' hfound'

/-- Where the latest rules of a list are declared, and under its keys alone, what is declared is the
latest. -/
theorem latest_of_found {l : List (String × String)} {look : Category → Option String}
    {c : Category} {text : String}
    (hset : ∀ r, Latest keyOf r l → ∃ c, Category.parse? r.1 = some c ∧ look c = some r.2)
    (hkey : ∃ r ∈ l, keyOf r = some c) (hfound : look c = some text) :
    ∃ r, Latest keyOf r l ∧ Category.parse? r.1 = some c ∧ r.2 = text := by
  obtain ⟨r₀, hr₀, hkey⟩ := hkey
  obtain ⟨r, hr, hsame⟩ := exists_latest keyOf hr₀
  obtain ⟨c', hc', hrule⟩ := hset r hr
  obtain rfl : c' = c := Option.some.inj (hc'.symm.trans (hsame.trans hkey))
  exact ⟨r, hr, hc', Option.some.inj (hrule.symm.trans hfound)⟩

/-- **A rule that is declared for an entity is its latest** under the category. -/
theorem latest_of_rule {c : Category} {text : String} (h : e.declaration = .ok t)
    (hfound : Assoc.find? c t.rules = some text) :
    ∃ r, Latest keyOf r e.permissions.entries ∧ Category.parse? r.1 = some c ∧ r.2 = text :=
  latest_of_found (fun _ hr => rule_of_declaration hr h) (exists_key_of_rule h hfound) hfound

/-- **A rule that is declared for a field is its latest** under the category. -/
theorem latest_of_fieldRule {name : String} {c : Category} {text : String}
    (h : e.declaration = .ok t) (hfound : t.fieldText? name c = some text) :
    ∃ f ∈ e.fields.entries, f.1 = name ∧
      ∃ r, Latest keyOf r f.2.entries ∧ Category.parse? r.1 = some c ∧ r.2 = text := by
  obtain ⟨f, hf, rfl, hkey⟩ := exists_key_of_fieldRule h hfound
  exact ⟨f, hf, rfl, latest_of_found (fun _ hr => fieldRule_of_declaration hf hr h) hkey hfound⟩

end EntityRules

/-! ## 3. Checks -/

namespace Dictionary

variable {d : Dictionary}

/-- A check that was added is found under every name that collapses to its own, and the others stay
where they are. -/
theorem Stocked.check?_addCheck (h : d.Stocked) (name other : String) (p : Procedure) :
    (d.addCheck name p).check? other =
      if Text.collapse other = Text.collapse name then some ⟨d.shelf.length, p⟩
      else d.check? other := by
  rw [check?, Dictionary.addCheck, SortedMap.find?_insert]
  split
  · simp [implementation?]
  · rw [check?]
    cases hid : d.names.find? (Text.collapse other) with
    | none => rfl
    | some id =>
      have hlt := h _ id hid
      simp [implementation?, List.getElem?_append_left hlt]

end Dictionary

namespace PolicySettings

variable {p : PolicySettings} {d : Dictionary}

/-- The name under which a check is found. -/
def nameOf (b : String × CheckBinding) : String := Text.collapse b.1

/-- **The latest check under a name is bound to it.** -/
theorem check_of_checkDictionary {b : String × CheckBinding}
    (hb : Latest nameOf b p.checks.entries) :
    ∃ id, p.checkDictionary.check? b.1 = some ⟨id, b.2.procedure⟩ := by
  obtain ⟨before, after, hentries, hafter⟩ := hb
  rw [checkDictionary, hentries, List.foldl_append, List.foldl_cons]
  have hstocked : (before.foldl (fun d c => d.addCheck c.1 c.2.procedure)
      Dictionary.empty).Stocked :=
    List.foldlRecOn before _ Dictionary.stocked_empty fun _ hd c _ => hd.addCheck _ _
  generalize before.foldl (fun d c => d.addCheck c.1 c.2.procedure)
    Dictionary.empty = d₁ at hstocked ⊢
  -- later checks go under other names
  refine ⟨d₁.shelf.length, (List.foldlRecOn after _ (motive := fun d : Dictionary =>
    d.Stocked ∧ d.check? b.1 = some ⟨d₁.shelf.length, b.2.procedure⟩) ?_ ?_).2⟩
  · exact ⟨hstocked.addCheck _ _, by rw [hstocked.check?_addCheck, if_pos rfl]⟩
  · rintro d ⟨hd, hfound⟩ c hc
    refine ⟨hd.addCheck _ _, ?_⟩
    rw [hd.check?_addCheck]
    exact (if_neg (Ne.symm (hafter c hc))).trans hfound

/-- A check that is found is there under a name of the policy. -/
theorem exists_name_of_check {name : String} {c : Check}
    (h : p.checkDictionary.check? name = some c) :
    ∃ b ∈ p.checks.entries, nameOf b = Text.collapse name := by
  let I (d : Dictionary) : Prop := d.Stocked ∧ ∀ name c, d.check? name = some c →
    ∃ b ∈ p.checks.entries, nameOf b = Text.collapse name
  refine (List.foldlRecOn (motive := I) p.checks.entries _
    ⟨Dictionary.stocked_empty, fun _ _ h => nomatch h⟩ fun d hd b hb => ?_).2 name c h
  refine ⟨hd.1.addCheck _ _, fun other c hc => ?_⟩
  rw [hd.1.check?_addCheck] at hc
  split at hc
  · next heq => exact ⟨b, hb, heq.symm⟩
  · exact hd.2 other c hc

/-- **A check that is found is the latest** under its name. -/
theorem latest_of_check {name : String} {c : Check}
    (h : p.checkDictionary.check? name = some c) :
    ∃ b, Latest nameOf b p.checks.entries ∧ nameOf b = Text.collapse name ∧
      c.procedure = b.2.procedure := by
  obtain ⟨b₀, hb₀, hname⟩ := exists_name_of_check h
  obtain ⟨b, hb, hsame⟩ := exists_latest nameOf hb₀
  obtain ⟨id, hid⟩ := check_of_checkDictionary hb
  have hcollapsed : Text.collapse b.1 = Text.collapse name := hsame.trans hname
  rw [Dictionary.check?, hcollapsed] at hid
  obtain rfl := Option.some.inj (hid.symm.trans h)
  exact ⟨b, hb, hcollapsed, rfl⟩

/-! ## 4. The dictionary -/

/-- The latest entity of a name is declared as its declaration. -/
theorem type_of_declare {e : EntityRules} (he : Latest EntityRules.name e p.entities)
    (h : p.declare = .ok d) :
    ∃ t, e.declaration = .ok t ∧ d.types.find? e.name = some t := by
  refine foldlM_latest
    (I := fun d => ∃ t, e.declaration = .ok t ∧ d.types.find? e.name = some t) he
    (fun d d' hd' => ?_) (fun e' _ hne d d' hd hd' => ?_) h
  · obtain ⟨t, ht, rfl⟩ := map_eq_ok_iff.mp hd'
    obtain ⟨hname, -⟩ := EntityRules.declaration_all (P := fun _ => True) (fun _ _ => trivial) ht
    exact ⟨t, ht, by rw [Dictionary.addType, hname, SortedMap.find?_insert_self]⟩
  · obtain ⟨t, ht, hfound⟩ := hd
    obtain ⟨t', ht', rfl⟩ := map_eq_ok_iff.mp hd'
    obtain ⟨hname, -⟩ := EntityRules.declaration_all (P := fun _ => True) (fun _ _ => trivial) ht'
    refine ⟨t, ht, ?_⟩
    rw [Dictionary.addType, hname, SortedMap.find?_insert_of_ne _ _ (Ne.symm hne), hfound]

/-- **A type that is declared is the latest entity of its name**, as a whole. -/
theorem latest_of_type {name : String} {t : Declaration} (h : p.dictionary = .ok d)
    (ht : d.types.find? name = some t) :
    ∃ e, Latest EntityRules.name e p.entities ∧ e.name = name ∧ e.declaration = .ok t := by
  have hdeclares : d.declares name = true := by
    rw [Dictionary.declares, SortedMap.contains, ht]
    rfl
  obtain ⟨e₀, he₀, hname⟩ := (declares_iff h name).mp hdeclares
  obtain ⟨e, he, hsame⟩ := exists_latest EntityRules.name he₀
  obtain ⟨t', ht', hfound⟩ := type_of_declare he (declare_of_dictionary h)
  rw [hsame, hname, ht] at hfound
  obtain rfl := Option.some.inj hfound
  exact ⟨e, he, hsame.trans hname, ht'⟩

/-- **What is latest in a policy is found in its dictionary, and nothing else.**  An entity counts
if no later one has its name, a rule of it if no later key of the same list names the category of
its own key, and a check if no later name is the same up to white space.  Whatever is found for a
type is a rule of its latest entity, so an earlier one is replaced as a whole.  Replacing is what
the dictionary is for: the last declaration under a key counts. -/
theorem latest_declared (h : p.dictionary = .ok d) :
    ((∀ e, Latest EntityRules.name e p.entities →
      (∀ r, Latest EntityRules.keyOf r e.permissions.entries →
        ∃ c, Category.parse? r.1 = some c ∧ d.ruleText? e.name c = some r.2) ∧
      ∀ f ∈ e.fields.entries, ∀ r, Latest EntityRules.keyOf r f.2.entries →
        ∃ c, Category.parse? r.1 = some c ∧ d.fieldRuleText? e.name f.1 c = some r.2) ∧
    ∀ b, Latest nameOf b p.checks.entries → ∃ id, d.check? b.1 = some ⟨id, b.2.procedure⟩) ∧
    (∀ name c text, d.ruleText? name c = some text →
      ∃ e, Latest EntityRules.name e p.entities ∧ e.name = name ∧
        ∃ r, Latest EntityRules.keyOf r e.permissions.entries ∧
          Category.parse? r.1 = some c ∧ r.2 = text) ∧
    (∀ name field c text, d.fieldRuleText? name field c = some text →
      ∃ e, Latest EntityRules.name e p.entities ∧ e.name = name ∧
        ∃ f ∈ e.fields.entries, f.1 = field ∧
          ∃ r, Latest EntityRules.keyOf r f.2.entries ∧
            Category.parse? r.1 = some c ∧ r.2 = text) ∧
    ∀ name c, d.check? name = some c →
      ∃ b, Latest nameOf b p.checks.entries ∧ nameOf b = Text.collapse name ∧
        c.procedure = b.2.procedure := by
  have hdeclare := declare_of_dictionary h
  have hcheck := (compile_declare hdeclare).1
  refine ⟨⟨fun e he => ?_, fun b hb => ?_⟩, fun name c text hfound => ?_,
    fun name field c text hfound => ?_, fun name c hfound => ?_⟩
  · obtain ⟨t, ht, hfound⟩ := type_of_declare he hdeclare
    refine ⟨fun r hr => ?_, fun f hf r hr => ?_⟩
    · obtain ⟨c, hc, hrule⟩ := EntityRules.rule_of_declaration hr ht
      exact ⟨c, hc, by rw [Dictionary.ruleText?, hfound, Option.bind_some, hrule]⟩
    · obtain ⟨c, hc, hrule⟩ := EntityRules.fieldRule_of_declaration hf hr ht
      exact ⟨c, hc, by rw [Dictionary.fieldRuleText?, hfound]; exact hrule⟩
  · rw [hcheck]
    exact check_of_checkDictionary hb
  · obtain ⟨t, ht, hrule⟩ := Option.bind_eq_some_iff.mp hfound
    obtain ⟨e, he, hname, hdeclaration⟩ := latest_of_type h ht
    exact ⟨e, he, hname, EntityRules.latest_of_rule hdeclaration hrule⟩
  · obtain ⟨t, ht, hrule⟩ := Option.bind_eq_some_iff.mp hfound
    obtain ⟨e, he, hname, hdeclaration⟩ := latest_of_type h ht
    exact ⟨e, he, hname, EntityRules.latest_of_fieldRule hdeclaration hrule⟩
  · rw [hcheck] at hfound
    exact latest_of_check hfound

end PolicySettings

/-- A policy in which entries of every kind come to one key. -/
def Specimen.doubled : PolicySettings :=
  ⟨.ofList [("is  owner", .deny), ("is owner", .allow)],
    [⟨"book", .ofList [("update", "is owner")], .empty⟩,
      ⟨"book", .ofList [("READ", "is owner"), ("read", "NOT is owner")],
        .ofList [("title", .ofList [(" update", "is owner"), ("update", "NOT is owner")])]⟩]⟩

namespace PolicySettings

/-- What is found in the dictionary of the specimen, and where it comes from. -/
theorem latest_declared_doubled : ∃ d, Specimen.doubled.dictionary = .ok d ∧
    (∃ c, Category.parse? "read" = some c ∧ d.ruleText? "book" c = some "NOT is owner") ∧
    (∃ c, Category.parse? "update" = some c ∧
      d.fieldRuleText? "book" "title" c = some "NOT is owner") ∧
    (∃ id, d.check? "is owner" = some ⟨id, .allow⟩) ∧
    (∃ e, Latest EntityRules.name e Specimen.doubled.entities ∧ e.name = "book" ∧
      ∃ r, Latest EntityRules.keyOf r e.permissions.entries ∧
        Category.parse? r.1 = some .read ∧ r.2 = "NOT is owner") ∧
    (∃ e, Latest EntityRules.name e Specimen.doubled.entities ∧ e.name = "book" ∧
      ∃ f ∈ e.fields.entries, f.1 = "title" ∧
        ∃ r, Latest EntityRules.keyOf r f.2.entries ∧
          Category.parse? r.1 = some .update ∧ r.2 = "NOT is owner") ∧
    ∃ b, Latest nameOf b Specimen.doubled.checks.entries ∧
      nameOf b = Text.collapse "is  owner" ∧ Procedure.allow = b.2.procedure := by
  obtain ⟨d, hd⟩ : ∃ d, Specimen.doubled.dictionary = .ok d := ⟨_, rfl⟩
  obtain ⟨⟨hentities, hchecks⟩, hfromRules, hfromFields, hfromChecks⟩ := latest_declared hd
  obtain ⟨hrules, hfields⟩ := hentities _ ⟨[_], [], rfl, List.forall_mem_nil _⟩
  have hrule := hrules ("read", "NOT is owner") ⟨[_], [], rfl, List.forall_mem_nil _⟩
  have hfield := hfields _ List.mem_cons_self ("update", "NOT is owner")
    ⟨[_], [], rfl, List.forall_mem_nil _⟩
  have hcheck := hchecks ("is owner", .allow) ⟨[_], [], rfl, List.forall_mem_nil _⟩
  refine ⟨d, hd, hrule, hfield, hcheck, ?_, ?_, ?_⟩
  · obtain ⟨c, hc, hfound⟩ := hrule
    cases hc
    exact hfromRules "book" .read _ hfound
  · obtain ⟨c, hc, hfound⟩ := hfield
    cases hc
    exact hfromFields "book" "title" .update _ hfound
  · obtain ⟨id, hfound⟩ := hcheck
    exact hfromChecks "is  owner" _ hfound

/-- **An entry that is not the latest may be lost**, be it a rule of an entity, of a field or a
check. -/
theorem earlier_lost : ∃ d, Specimen.doubled.dictionary = .ok d ∧
    (¬ ∀ e ∈ Specimen.doubled.entities, ∀ r ∈ e.permissions.entries,
      ∃ c, Category.parse? r.1 = some c ∧ d.ruleText? e.name c = some r.2) ∧
    (¬ ∀ e ∈ Specimen.doubled.entities, ∀ f ∈ e.fields.entries, ∀ r ∈ f.2.entries,
      ∃ c, Category.parse? r.1 = some c ∧ d.fieldRuleText? e.name f.1 c = some r.2) ∧
    ¬ ∀ b ∈ Specimen.doubled.checks.entries, ∃ id, d.check? b.1 = some ⟨id, b.2.procedure⟩ := by
  refine ⟨_, rfl, fun h => ?_, fun h => ?_, fun h => ?_⟩
  · -- the first entity is replaced as a whole
    obtain ⟨c, hc, hrule⟩ := h _ List.mem_cons_self _ List.mem_cons_self
    cases hc
    cases hrule
  · obtain ⟨c, hc, hrule⟩ :=
      h _ (List.mem_cons_of_mem _ List.mem_cons_self) _ List.mem_cons_self _ List.mem_cons_self
    cases hc
    exact absurd (Option.some.inj hrule) (by decide)
  · obtain ⟨id, hid⟩ := h _ List.mem_cons_self
    cases hid

end PolicySettings

end AccessRules
