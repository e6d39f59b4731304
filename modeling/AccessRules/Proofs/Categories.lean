/-
# Categories and their names

Rules are looked up by category, and a type without a rule for a category grants.  So two categories
that show one name had better be one.  They are, as long as every category of the user's own has a
name in upper case that is not the name of a built-in one.  A category that was read from a text is
always of that kind, in whatever case the text spells it.

Two ways around it are left.  JSON may name a category of the user's own in any case, and it is
taken as it is written; and both JSON and a program may give such a category the name of a built-in
one.

* `Category.Normal`: a category that no other one is mistaken for;
* `normal_of_parse?`: a category that was read from a text is normal;
* `identified_by_name`: what is normal is told apart by its name, and so are its rules;
* `share_in_small_letters`: a category from JSON that escapes the rule declared under its name.
-/
import AccessRules.Exchange.Subject
import AccessRules.Proofs.Declaring
import AccessRules.Proofs.LetterCase

namespace AccessRules

/-! ## 1. Normal categories -/

namespace Category

/-- The names of the built-in categories. -/
def builtinNames : List String := ["READ", "CREATE", "UPDATE", "DELETE"]

/-- A category that no other is mistaken for: if it is the user's own, its name is in upper case
and not that of a built-in one. -/
def Normal : Category → Prop
  | custom name => Text.upper name = name ∧ name ∉ builtinNames
  | _ => True

theorem name_mem_builtinNames {c : Category} (h : ∀ name, c ≠ .custom name) :
    c.name ∈ builtinNames := by
  cases c with
  | custom name => exact absurd rfl (h name)
  | _ => decide

/-- **Normal categories are told apart by their names.** -/
theorem Normal.eq_iff {a b : Category} (ha : a.Normal) (hb : b.Normal) :
    a = b ↔ a.name = b.name := by
  refine ⟨congrArg name, fun h => ?_⟩
  cases a with
  | custom n =>
    cases b with
    | custom m => exact congrArg custom h
    | _ =>
      have hmem : (custom n).name ∈ builtinNames := by
        rw [h]
        exact name_mem_builtinNames fun _ => Category.noConfusion
      exact absurd hmem ha.2
  | _ =>
    cases b with
    | custom m =>
      have hmem : (custom m).name ∈ builtinNames := by
        rw [← h]
        exact name_mem_builtinNames fun _ => Category.noConfusion
      exact absurd hmem hb.2
    | _ => first | rfl | exact absurd h (by decide)

/-- A built-in category is normal and shows its name in upper case. -/
theorem normal_of_builtin? {name : String} {c : Category} (h : builtin? name = some c) :
    c.Normal ∧ c.name = Text.upper name := by
  rw [builtin?] at h
  split_ifs at h <;> cases h <;> subst_vars <;> exact ⟨trivial, by decide +kernel⟩

/-- The name of a built-in category is telling, and in lower case it is recognised. -/
theorem telling_of_mem_builtinNames {name : String} (h : name ∈ builtinNames) :
    (∀ c ∈ name.toList, c ∈ Text.telling) ∧ (builtin? (Text.lowerAscii name)).isSome := by
  have hall : (builtinNames.all fun name => name.toList.all Text.telling.contains &&
      (builtin? (Text.lowerAscii name)).isSome) = true := by
    decide +kernel
  have hname := List.all_eq_true.mp hall name h
  simpa only [Bool.and_eq_true, List.all_eq_true, List.contains_iff_mem] using hname

/-- **A category that was read from a text is normal**, and its name is the text in upper case. -/
theorem normal_of_parse? {text : String} {c : Category} (h : parse? text = some c) :
    c.Normal ∧ c.name = Text.upper (Text.trim text) := by
  simp only [parse?] at h
  split at h
  · cases h
  · split at h
    · next c' hbuiltin =>
      cases h
      obtain ⟨hnormal, hname⟩ := normal_of_builtin? hbuiltin
      exact ⟨hnormal, hname.trans (Text.upper_lowerAscii _)⟩
    · next hnone =>
      cases h
      refine ⟨⟨Text.upper_upper _, fun hmem => ?_⟩, rfl⟩
      -- the letters of a built-in name tell how they were written
      obtain ⟨htelling, hsome⟩ := telling_of_mem_builtinNames hmem
      rw [← Text.lowerAscii_of_upper htelling, hnone] at hsome
      cases hsome

theorem normal_ofCustom {name : String} (h : Text.upper name ∉ builtinNames) :
    (ofCustom name).Normal :=
  ⟨Text.upper_upper name, h⟩

/-- A built-in category in JSON is normal, and its name there is its own but for the case. -/
theorem normal_of_ofWritten? {name : String} {c : Category} (h : ofWritten? name = some c) :
    c.Normal ∧ c.name = Text.upper name := by
  rw [ofWritten?] at h
  split_ifs at h <;> cases h <;> subst_vars <;> exact ⟨trivial, by decide +kernel⟩

/-! ## 2. Where categories come from -/

/-- How a category comes about: by its name, as one of the user's own; from a text; or from JSON. -/
inductive Origin where
  | named (name : String)
  | text (text : String)
  | json (v : Json)

namespace Origin

/-- The category that comes about. -/
def category? : Origin → Option Category
  | named name => some (ofCustom name)
  | text t => parse? t
  | json v => ofJson? v

/-- The name as it is written. -/
def written : Origin → String
  | named name => name
  | text t => Text.trim t
  | json (.string name) => name
  | json (.object [(_, .string name)]) => name
  | json (.object [(name, .null)]) => name
  | json _ => ""

/-- The two ways around normal names are not taken: a category of the user's own is not given the
name of a built-in one, and JSON writes it in upper case. -/
def Faithful : Origin → Prop
  | named name => Text.upper name ∉ builtinNames
  | text _ => True
  | json v => ∀ name, v = .object [("Custom", .string name)] →
      Text.upper name = name ∧ name ∉ builtinNames

/-- **What comes about faithfully is normal**, under the name that is written but in upper case. -/
theorem Faithful.normal {o : Origin} (ho : o.Faithful) {c : Category} (h : o.category? = some c) :
    c.Normal ∧ c.name = Text.upper o.written := by
  cases o with
  | named name =>
    cases h
    exact ⟨normal_ofCustom ho, rfl⟩
  | text t => exact normal_of_parse? h
  | json v =>
    rw [category?, ofJson?.eq_def] at h
    split at h
    · exact normal_of_ofWritten? h
    · next name =>
      cases h
      have hname := ho name rfl
      exact ⟨hname, hname.1.symm⟩
    · exact normal_of_ofWritten? h
    · cases h

end Origin

end Category

/-! ## 3. The rules of a category -/

namespace Dictionary

variable (d : Dictionary) (t : Declaration) (a b : Category) (text : String)

/-- Declaring a rule of a type is seen by its category alone. -/
theorem ruleText?_permission :
    (d.addType (t.permission a text)).ruleText? t.typeName b =
      if b = a then some text else (d.addType t).ruleText? t.typeName b := by
  rw [ruleText?_addType, ← Assoc.find?_insert]
  exact ruleText?_addType d (t.permission a text) b

/-- Declaring a rule of a field is seen by its category alone. -/
theorem fieldRuleText?_fieldPermission (field : String) :
    (d.addType (t.fieldPermission field a text)).fieldRuleText? t.typeName field b =
      if b = a then some text else (d.addType t).fieldRuleText? t.typeName field b := by
  have hfound := t.fieldText?_fieldPermission field field text a b
  simp only [true_and] at hfound
  rw [fieldRuleText?_addType, ← hfound]
  exact fieldRuleText?_addType d (t.fieldPermission field a text) field b

end Dictionary

namespace Category

open Origin in
/-- **What comes about faithfully is identified by its name.**  The name is the one that was
written, in upper case.  Whatever is declared for a category is what counts for the categories of
its name, and for no other. -/
theorem identified_by_name {o o' : Origin} (ho : o.Faithful) (ho' : o'.Faithful) {a b : Category}
    (ha : o.category? = some a) (hb : o'.category? = some b) :
    (a = b ↔ a.name = b.name) ∧
    (a.name = Text.upper o.written ∧ ∀ name, a = .custom name → Text.upper name = name) ∧
    ∀ (d : Dictionary) (t : Declaration) (text field : String),
      (d.addType (t.permission a text)).ruleText? t.typeName b =
          (if b.name = a.name then some text else (d.addType t).ruleText? t.typeName b) ∧
        (d.addType (t.fieldPermission field a text)).fieldRuleText? t.typeName field b =
          if b.name = a.name then some text
          else (d.addType t).fieldRuleText? t.typeName field b := by
  obtain ⟨hna, hname⟩ := ho.normal ha
  obtain ⟨hnb, -⟩ := ho'.normal hb
  refine ⟨hna.eq_iff hnb, ⟨hname, ?_⟩, fun d t text field => ?_⟩
  · rintro name rfl
    exact hna.1
  · simp only [← hnb.eq_iff hna]
    exact ⟨d.ruleText?_permission t a b text, d.fieldRuleText?_fieldPermission t a b text field⟩

/-- A rule that was declared for a text in small letters counts for JSON in capitals. -/
theorem identified_by_name_share :
    ∃ a, parse? " share" = some a ∧ ofJson? (.object [("Custom", .string "SHARE")]) = some a ∧
      ∀ d : Dictionary,
        (d.addType ((Declaration.bare "book").permission a "owner")).ruleText? "book"
          (.custom "SHARE") = some "owner" := by
  have hfaithful : Origin.Faithful (.json (.object [("Custom", .string "SHARE")])) := by
    intro name hname
    cases hname
    decide +kernel
  have ha : Origin.category? (.text " share") = some (.custom "SHARE") := by decide +kernel
  obtain ⟨-, -, hrules⟩ := identified_by_name (o := .text " share") trivial hfaithful ha rfl
  exact ⟨_, ha, rfl, fun d => (hrules d (.bare "book") "owner" "").1⟩

end Category

/-- A policy under which nobody may share a book. -/
def Specimen.unshared : PolicySettings :=
  ⟨.ofList [("nobody", .deny)], [⟨"book", .ofList [("share", "nobody")], .empty⟩]⟩

namespace Category

/-- **JSON and programs can get around the names.**  A category that JSON gives in small letters is
taken as it is: it shows another name than the category of the same text, and a request for it
escapes the rule that is declared for that text.  And a category of the user's own can bear the name
of a built-in one without being it. -/
theorem share_in_small_letters :
    (∃ a b, ofJson? (.object [("Custom", .string "share")]) = some a ∧ parse? "share" = some b ∧
      Text.upper a.name ≠ a.name ∧
      ∃ service, Service.ofSettings ⟨.standard, .standard, Specimen.unshared⟩ = .ok service ∧
        (service.authorize .anonymous (.whole Specimen.book b) .initial).1.map (·.allowed) =
          .ok false ∧
        (service.authorize .anonymous (.whole Specimen.book a) .initial).1.map (·.allowed) =
          .ok true) ∧
    (ofCustom "read").name = read.name ∧ ofCustom "read" ≠ read := by
  have hshare : parse? "share" = some (.custom "SHARE") := by decide +kernel
  have hname : Text.upper "share" ≠ "share" := by decide +kernel
  refine ⟨⟨.custom "share", .custom "SHARE", rfl, hshare, hname, _, rfl, ?_, ?_⟩, ?_, ?_⟩
  · rfl
  · rfl
  · decide +kernel
  · exact Category.noConfusion

end Category

end AccessRules
