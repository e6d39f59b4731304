/-
# The text of a tree is unambiguous

The text of a decision shows a condition and then a formula.  Names in it are arbitrary words, and
may well be the words of a label or of an operator in small letters, and operators, constants and
leaves stand side by side.  Still two trees that are planned for the same condition show one text
only if they look alike (`Tree.LooksLike`): they have one shape, the same names at the same places
and the same status at every check.

* `Rule.Canonical.labelled_inj`: the last word of a leaf tells its label, and so its name;
* `Whole.heading_eq`: the word with the bracket tells the kind of the decision;
* `Part.looksLike`, `Whole.looksLike`: the formula, which is read from the text, tells the rest.
-/
import AccessRules.Proofs.Places
import AccessRules.Proofs.Replay

namespace AccessRules

/-! ## 1. Leaves -/

/-- The last word of a label tells which it is. -/
theorem Status.append_words_inj {ws ws' : List String} {st st' : Status}
    (h : ws ++ st.words = ws' ++ st'.words) : ws = ws' ∧ st = st' := by
  have hlast := congrArg List.getLast? h
  rw [List.getLast?_append_of_ne_nil _ st.words_ne_nil,
    List.getLast?_append_of_ne_nil _ st'.words_ne_nil] at hlast
  have hst : st = st' := by
    cases st <;> cases st' <;> first | rfl | exact absurd hlast (by decide)
  subst hst
  exact ⟨List.append_cancel_right h, rfl⟩

namespace Rule

variable {name name' : String} {st st' : Status}

/-- **The text of a leaf tells its name and its label**, whatever words the name has. -/
theorem Canonical.labelled_inj (h : Canonical name) (h' : Canonical name')
    (heq : name ++ " " ++ st.label = name' ++ " " ++ st'.label) : name = name' ∧ st = st' := by
  obtain ⟨ws, hne, hws, rfl⟩ := h
  obtain ⟨ws', hne', hws', rfl⟩ := h'
  have hall := List.forall_mem_append.mpr ⟨hws, st.isWord_of_mem_words⟩
  have hall' := List.forall_mem_append.mpr ⟨hws', st'.isWord_of_mem_words⟩
  rw [st.label_eq, st'.label_eq, ← String.intercalate_append_of_ne_nil hne st.words_ne_nil,
    ← String.intercalate_append_of_ne_nil hne' st'.words_ne_nil] at heq
  have hwords := words_intercalate hall
  rw [heq, words_intercalate hall'] at hwords
  have hinj : Function.Injective (List.map String.toList) :=
    List.map_injective_iff.mpr fun _ _ => String.toList_injective
  obtain ⟨rfl, rfl⟩ := Status.append_words_inj (hinj hwords.symm)
  exact ⟨rfl, rfl⟩

/-- A leaf with a label is no constant: it has a blank. -/
theorem labelled_ne_constantText (name : String) (st : Status) (passed : Bool) :
    name ++ " " ++ st.label ≠ Tree.constantText passed none := by
  intro h
  have hblank : ' ' ∈ (name ++ " " ++ st.label).toList := by simp
  rw [h] at hblank
  cases passed <;> exact absurd hblank (by decide)

end Rule

namespace Tree

/-! ## 2. Trees that look alike -/

/-- Trees of one shape, with the same names at the same places and the same status at every
check. -/
inductive LooksLike : Tree → Tree → Prop where
  | check {leaf leaf' : Leaf} (hname : leaf.name = leaf'.name) (st : Status) :
      LooksLike (.check leaf st) (.check leaf' st)
  | constant (passed : Bool) (label : Option String) (st st' : Status) :
      LooksLike (.constant passed label st) (.constant passed label st')
  | deferred (name : String) (st st' : Status) :
      LooksLike (.deferred name st) (.deferred name st')
  | and {l l' r r' : Tree} (hl : LooksLike l l') (hr : LooksLike r r') (st st' : Status) :
      LooksLike (.and l r st) (.and l' r' st')
  | or {l l' r r' : Tree} (hl : LooksLike l l') (hr : LooksLike r r') (st st' : Status) :
      LooksLike (.or l r st) (.or l' r' st')
  | not {c c' : Tree} (hc : LooksLike c c') (st st' : Status) :
      LooksLike (.not c st) (.not c' st')
  | anyField (condition : Condition) {f f' e e' : Tree} (hf : LooksLike f f')
      (he : LooksLike e e') (st st' : Status) :
      LooksLike (.anyField condition f e st) (.anyField condition f' e' st')
  | fieldRule (condition : Condition) {r r' : Tree} (hr : LooksLike r r') (st st' : Status) :
      LooksLike (.fieldRule condition r st) (.fieldRule condition r' st')
  | entityRule (condition : Condition) {r r' : Tree} (hr : LooksLike r r') (st st' : Status) :
      LooksLike (.entityRule condition r st) (.entityRule condition r' st')
  | unrestricted (condition : Condition) (st st' : Status) :
      LooksLike (.unrestricted condition st) (.unrestricted condition st')

/-- Trees that look alike have one text. -/
theorem LooksLike.text_eq {t t' : Tree} (h : LooksLike t t') : t.text = t'.text := by
  induction h with
  | check hname st => rw [text, text, hname]
  | constant | deferred | unrestricted => rfl
  | and _ _ _ _ ihl ihr | or _ _ _ _ ihl ihr | anyField _ _ _ _ _ ihl ihr =>
    rw [text, text, ihl, ihr]
  | not _ _ _ ih | fieldRule _ _ _ _ ih | entityRule _ _ _ _ ih => rw [text, text, ih]

/-- No check is shown as deferred. -/
def Plain (t : Tree) : Prop := ∀ m ∈ t.marks, m.2 ≠ .deferred

theorem Plain.after {t : Tree} (h : t.Plain) (ss : List Session) : (t.after ss).Plain := by
  induction ss generalizing t with
  | nil => exact h
  | cons s ss ih =>
    obtain ⟨us, haccount⟩ := t.evaluate_account s
    refine ih fun m hm => ?_
    rcases haccount.marks m hm with hm | ⟨u, -, b, -, -, hb⟩
    · exact h m hm
    · rw [hb]
      cases b <;> decide

theorem Fresh.plain {p : Phase} {t : Tree} (h : Fresh p t) : t.Plain := by
  intro m hm
  rw [h.unevaluated m hm]
  decide

/-- **What a part of a decision shows tells what it looks like.** -/
theorem Part.looksLike {t t' : Tree} (h : Part t) (h' : Part t') (hplain : t.Plain)
    (hplain' : t'.Plain) (heq : t.trace = t'.trace) : LooksLike t t' := by
  induction h generalizing t' with
  | @check leaf st hname =>
    cases h' with
    | @check leaf' st' hname' =>
      obtain ⟨hnames, rfl⟩ := hname.labelled_inj hname' (Formula.leaf.inj heq)
      exact .check hnames st
    | constant _ => exact absurd (Formula.leaf.inj heq) (Rule.labelled_ne_constantText _ _ _)
    | @deferred name' st' hname' _ =>
      obtain ⟨-, hst⟩ := hname.labelled_inj hname' (Formula.leaf.inj heq)
      exact absurd hst (hplain _ List.mem_cons_self)
    | and | or | not => cases heq
  | @constant passed st _ =>
    cases h' with
    | check _ => exact absurd (Formula.leaf.inj heq).symm (Rule.labelled_ne_constantText _ _ _)
    | @constant passed' st' _ =>
      have htext : constantText passed none = constantText passed' none := Formula.leaf.inj heq
      have hpassed : passed = passed' := by
        cases passed <;> cases passed' <;> first | rfl | exact absurd htext (by decide)
      subst hpassed
      exact .constant passed none st st'
    | deferred _ _ => exact absurd (Formula.leaf.inj heq).symm (Rule.labelled_ne_constantText _ _ _)
    | and | or | not => cases heq
  | @deferred name st hname _ =>
    cases h' with
    | @check leaf' st' hname' =>
      obtain ⟨-, hst⟩ := hname.labelled_inj hname' (Formula.leaf.inj heq)
      exact absurd hst.symm (hplain' _ List.mem_cons_self)
    | constant _ => exact absurd (Formula.leaf.inj heq) (Rule.labelled_ne_constantText _ _ _)
    | @deferred name' st' hname' _ =>
      obtain ⟨rfl, -⟩ := hname.labelled_inj hname' (Formula.leaf.inj heq)
      exact .deferred name st st'
    | and | or | not => cases heq
  | @and l r st _ _ _ ihl ihr =>
    cases h' with
    | @and l' r' st' hl' hr' _ =>
      obtain ⟨hpl, hpr⟩ := List.forall_mem_append.mp hplain
      obtain ⟨hpl', hpr'⟩ := List.forall_mem_append.mp hplain'
      obtain ⟨hl, hr⟩ := Formula.and.inj heq
      exact .and (ihl hl' hpl hpl' hl) (ihr hr' hpr hpr' hr) st st'
    | _ => cases heq
  | @or l r st _ _ _ ihl ihr =>
    cases h' with
    | @or l' r' st' hl' hr' _ =>
      obtain ⟨hpl, hpr⟩ := List.forall_mem_append.mp hplain
      obtain ⟨hpl', hpr'⟩ := List.forall_mem_append.mp hplain'
      obtain ⟨hl, hr⟩ := Formula.or.inj heq
      exact .or (ihl hl' hpl hpl' hl) (ihr hr' hpr hpr' hr) st st'
    | _ => cases heq
  | @not c st _ _ ih =>
    cases h' with
    | @not c' st' hc' _ => exact .not (ih hc' hplain hplain' (Formula.not.inj heq)) st st'
    | _ => cases heq

/-! ## 3. Decisions -/

/-- The first word of the bracket. -/
def heading : Tree → String
  | anyField _ _ _ _ => "FIELDS"
  | fieldRule _ _ _ => "FIELD"
  | entityRule _ _ _ => "ENTITY"
  | _ => "SUCCESS]"

/-- Behind the condition stands the heading, up to the first parenthesis. -/
theorem Whole.exists_body {t : Tree} (h : Whole t) {condition : Condition}
    (hc : t.condition? = some condition) : ∃ rest, (∀ c ∈ rest.head?, c = '(') ∧
      t.text.toList = (condition.text ++ " FOR EXPRESSION [").toList ++
        (t.heading.toList ++ rest) := by
  cases h with
  | @anyField _ f e _ =>
    cases hc
    refine ⟨("(" ++ f.text ++ ") OR ENTITY(" ++ e.text ++ ")]").toList, ?_, ?_⟩
    · simp [String.toList_append]
    · simp [text, heading, String.toList_append]
  | @fieldRule _ r _ =>
    cases hc
    refine ⟨("(" ++ r.text ++ ")]").toList, ?_, ?_⟩
    · simp [String.toList_append]
    · simp [text, heading, String.toList_append]
  | @entityRule _ r _ =>
    cases hc
    refine ⟨("(" ++ r.text ++ ")]").toList, ?_, ?_⟩
    · simp [String.toList_append]
    · simp [text, heading, String.toList_append]
  | unrestricted =>
    cases hc
    refine ⟨[], ?_, ?_⟩
    · simp
    · simp [text, heading, String.toList_append]

/-- The heading ends at the first parenthesis. -/
theorem takeWhile_heading (t : Tree) {rest : List Char} (hrest : ∀ c ∈ rest.head?, c = '(') :
    (t.heading.toList ++ rest).takeWhile (· ≠ '(') = t.heading.toList := by
  have hnone : t.heading.toList.all (· ≠ '(') = true := by
    unfold heading
    split <;> rfl
  rw [List.takeWhile_append_of_pos (List.all_eq_true.mp hnone)]
  cases rest with
  | nil => exact List.append_nil _
  | cons c rest =>
    rw [hrest c rfl]
    exact List.append_nil _

/-- **One text, one kind of decision.** -/
theorem Whole.heading_eq {t t' : Tree} (h : Whole t) (h' : Whole t')
    (hc : t.condition? = t'.condition?) (htext : t.text = t'.text) : t.heading = t'.heading := by
  obtain ⟨condition, hcondition⟩ : ∃ condition, t.condition? = some condition := by
    cases h <;> exact ⟨_, rfl⟩
  obtain ⟨rest, hrest, heq⟩ := h.exists_body hcondition
  obtain ⟨rest', hrest', heq'⟩ := h'.exists_body (hc ▸ hcondition)
  rw [← htext, heq] at heq'
  have hbody := congrArg (List.takeWhile (· ≠ '(')) (List.append_cancel_left heq')
  rw [t.takeWhile_heading hrest, t'.takeWhile_heading hrest'] at hbody
  exact String.toList_injective hbody

/-- **The text of a decision tells what it looks like.** -/
theorem Whole.looksLike {t t' : Tree} (h : Whole t) (h' : Whole t')
    (hc : t.condition? = t'.condition?) (hplain : t.Plain) (hplain' : t'.Plain)
    (htext : t.text = t'.text) : LooksLike t t' := by
  have hheading := h.heading_eq h' hc htext
  have htrace : t.trace = t'.trace := by
    have hread := h.formula?_text
    rw [htext, h'.formula?_text] at hread
    exact (Option.some.inj hread).symm
  cases h with
  | @anyField condition f e st hf he _ =>
    cases h' with
    | @anyField condition' f' e' st' hf' he' _ =>
      obtain rfl := Option.some.inj hc
      obtain ⟨hpf, hpe⟩ := List.forall_mem_append.mp hplain
      obtain ⟨hpf', hpe'⟩ := List.forall_mem_append.mp hplain'
      obtain ⟨hfields, hentity⟩ := Formula.or.inj htrace
      exact .anyField condition (hf.looksLike hf' hpf hpf' hfields)
        (he.looksLike he' hpe hpe' hentity) st st'
    | _ => exact absurd hheading (by simp [heading])
  | @fieldRule condition r st hr _ =>
    cases h' with
    | @fieldRule condition' r' st' hr' _ =>
      obtain rfl := Option.some.inj hc
      exact .fieldRule condition (hr.looksLike hr' hplain hplain' htrace) st st'
    | _ => exact absurd hheading (by simp [heading])
  | @entityRule condition r st hr _ =>
    cases h' with
    | @entityRule condition' r' st' hr' _ =>
      obtain rfl := Option.some.inj hc
      exact .entityRule condition (hr.looksLike hr' hplain hplain' htrace) st st'
    | _ => exact absurd hheading (by simp [heading])
  | @unrestricted condition st _ =>
    cases h' with
    | @unrestricted condition' st' _ =>
      obtain rfl := Option.some.inj hc
      exact .unrestricted condition st st'
    | _ => exact absurd hheading (by simp [heading])

/-! ## 4. The trees of a plan -/

/-- An evaluation keeps the condition. -/
theorem condition?_evaluate (t : Tree) (s : Session) :
    (t.evaluate s).tree.condition? = t.condition? := by
  cases t using form_induction with
  | settled t ht => rw [evaluate_of_settled ht]
  | leaf l =>
    rw [evaluate_ofLeaf]
    cases ha : (s.ask l).1 with
    | error detail => rw [Evaluation.asked_of_error l ha]; rfl
    | ok b => rw [Evaluation.asked_of_ok l ha]; rfl
  | ground node a h =>
    rw [h.evaluate_node]
    cases h <;> rfl
  | relay k c _ =>
    rw [k.evaluate_node]
    obtain ⟨st, hst⟩ := Evaluation.exists_single_tree k.node k.derive (c.evaluate s)
    rw [hst]
    cases k <;> rfl
  | junction j l r _ _ =>
    rw [j.evaluate_node]
    obtain ⟨st, hst | hst⟩ :=
      @Evaluation.exists_pair_tree _ j.node j.stop j.join (l.evaluate s) r r.evaluate
    · rw [hst]
      cases j <;> rfl
    · rw [hst]
      cases j <;> rfl

theorem condition?_after (t : Tree) (ss : List Session) :
    (t.after ss).condition? = t.condition? := by
  induction ss generalizing t with
  | nil => rfl
  | cons s ss ih => rw [after, ih, condition?_evaluate]

end Tree

namespace RequestScope

variable {scope scope' : RequestScope} {resource : Resource} {category : Category}
  {field : Option String} {change : Option Change}

theorem condition?_tree (p : Phase) : (scope.tree resource category field change p).condition? =
    some ⟨category, resource, field, change⟩ := by
  cases field with
  | none => rfl
  | some field =>
    rw [tree, fieldTree]
    cases scope.dictionary.rule? resource.typeName category (some field) with
    | some rule => rfl
    | none => cases scope.dictionary.rule? resource.typeName category none <;> rfl

/-- The tree of either phase, after any evaluations. -/
theorem looksLike_of_text {p p' : Phase} {ss ss' : List Session}
    (h : ((scope.tree resource category field change p).after ss).text =
      ((scope'.tree resource category field change p').after ss').text) :
    ((scope.tree resource category field change p).after ss).LooksLike
      ((scope'.tree resource category field change p').after ss') := by
  refine (whole_tree.after ss).looksLike (whole_tree.after ss') ?_ (fresh_tree.plain.after ss)
    (fresh_tree.plain.after ss') h
  rw [Tree.condition?_after, Tree.condition?_after, condition?_tree, condition?_tree]

/-- **The text is unambiguous.**  Two trees that are planned for one condition, by whatever
dictionaries, for whatever users and for either phase, have one text after any evaluations exactly
if they look alike. -/
theorem text_eq_iff_looksLike {s s' : Session} {plan plan' : Plan}
    (h : (scope.plan resource category field change s).1 = .ok plan)
    (h' : (scope'.plan resource category field change s').1 = .ok plan') {t t' : Tree}
    (ht : t = plan.preview ∨ t = plan.commit) (ht' : t' = plan'.preview ∨ t' = plan'.commit)
    (ss ss' : List Session) :
    (t.after ss).text = (t'.after ss').text ↔ (t.after ss).LooksLike (t'.after ss') := by
  refine ⟨fun htext => ?_, Tree.LooksLike.text_eq⟩
  rw [plan_eq_ok h] at ht
  rw [plan_eq_ok h'] at ht'
  rcases ht with rfl | rfl <;> rcases ht' with rfl | rfl <;> exact looksLike_of_text htext

open Specimen in
/-- The preview shows an owner and somebody else one text, until it is evaluated. -/
theorem text_eq_iff_looksLike_retitling :
    let preview := fun owner => (Specimen.scope owner).tree book .update "title" retitling .preview
    (preview true).LooksLike (preview false) ∧
      ¬ ((preview true).after [opened]).LooksLike ((preview false).after [opened]) := by
  intro preview
  have hplan := fun owner => (Specimen.scope owner).plan_of_unobstructed book .update "title"
    retitling opened (by cases owner <;> decide)
  have hiff := text_eq_iff_looksLike (hplan true) (hplan false) (.inl rfl) (.inl rfl)
  exact ⟨(hiff [] []).mp rfl, fun h => absurd ((hiff [opened] [opened]).mpr h) (by decide +kernel)⟩

end RequestScope

end AccessRules
