/-
# Keys keep changes apart

Answers about a change are remembered under its key: the field and the compact text of the value
before and after.  As the text determines the value, two changes have one key exactly if they are to
one field and their values are structurally equal, down to the signs of zeros.  Structural equality
does not look at those, so the key of a change from `0.0` is another than that of a change from
`-0.0`; a check then runs once more than it had to, and no answer is mistaken.

* `Change.key_eq_iff`: which changes have one key;
* `Settles.earlier`: a remembered answer comes from an earlier run for the same question;
* `Workspace.keys_faithful`: so an operation check is never answered from a change to other values.
-/
import AccessRules.Proofs.CompactText
import AccessRules.Proofs.SingleRun

namespace AccessRules

/-! ## 1. Keys -/

/-- Two changes to one field between structurally equal values. -/
structure Change.SameValues (a b : Change) : Prop where
  field : a.field = b.field
  before : a.before.same b.before = true
  after : a.after.same b.after = true

/-- Two changes whose values have the same signs of zeros, from left to right. -/
structure Change.SameZeros (a b : Change) : Prop where
  before : a.before.zeroSigns = b.before.zeroSigns
  after : a.after.zeroSigns = b.after.zeroSigns

/-- **Two changes have one key** exactly if they are to one field and between equal values, and no
zero of one has the opposite sign in the other. -/
theorem Change.key_eq_iff {a b : Change} : a.key = b.key ↔ a.SameValues b ∧ a.SameZeros b := by
  rw [key, key, ChangeKey.mk.injEq, Json.text_eq_iff, Json.text_eq_iff]
  constructor
  · rintro ⟨hfield, ⟨hbefore, hbefore'⟩, hafter, hafter'⟩
    exact ⟨⟨hfield, hbefore, hafter⟩, hbefore', hafter'⟩
  · rintro ⟨h, h'⟩
    exact ⟨h.field, ⟨h.before, h'.before⟩, h.after, h'.after⟩

/-! ## 2. Remembered answers -/

/-- **A remembered answer comes from an earlier run** among the look-ups of its question. -/
theorem Settles.earlier {us : List LookUp} {known : Option Bool} (h : Settles us known)
    {u : LookUp} (hu : u ∈ us) (hran : u.ran = false) :
    ∃ e, [e, u].Sublist us ∧ e.ran = true ∧ e.answer = u.answer := by
  cases known with
  | none =>
    obtain ⟨hraised, -⟩ := h u hu
    rw [hran] at hraised
    cases hraised
  | some b =>
    obtain ⟨before, e, after, rfl, hbefore, ⟨heran, heanswer⟩, hafter⟩ := h
    -- what ran cannot be the look-up at hand, so that comes after the run that answered
    have hmem : u ∈ after := by
      rcases List.mem_append.mp hu with hu | hu
      · obtain ⟨hraised, -⟩ := hbefore u hu
        rw [hran] at hraised
        cases hraised
      · rcases List.mem_cons.mp hu with rfl | hu
        · rw [hran] at heran
          cases heran
        · exact hu
    refine ⟨e, ?_, heran, heanswer.trans (hafter u hmem).2.symm⟩
    exact ((List.singleton_sublist.mpr hmem).cons_cons e).trans (List.sublist_append_right before _)

/-- Leaves with one question show their checks the same change, if any. -/
theorem Leaf.sameValues_of_question_eq {l l' : Leaf} (h : l.question = l'.question) :
    Option.Rel Change.SameValues l.context.change l'.context.change := by
  have hkeys := congrArg Question.change h
  rw [question, question] at hkeys
  rw [context, context]
  dsimp only at hkeys ⊢
  generalize l.check.visibleChange l.situation.change = c at hkeys ⊢
  generalize l'.check.visibleChange l'.situation.change = c' at hkeys ⊢
  cases c with
  | none =>
    cases c' with
    | none => exact .none
    | some c' => cases hkeys
  | some c =>
    cases c' with
    | none => cases hkeys
    | some c' => exact .some (Change.key_eq_iff.mp (Option.some.inj hkeys)).1

/-! ## 3. Faithful keys -/

/-- **Keys keep changes apart.**  Two changes have one key exactly if they are to one field and
between structurally equal values, but for zeros of opposite signs.  So whatever is done within a
request, a check whose answer is remembered was run before, and was then shown a change to the same
field between the same values, or none if it is shown none now. -/
theorem Workspace.keys_faithful :
    (∀ a b : Change, a.key = b.key ↔ a.SameValues b ∧ a.SameZeros b) ∧
      ∀ (d : Dictionary) (user : User) (capacity : Nat) (s : Session) (w : Workspace),
        Relation.ReflTransGen (Step ⟨d, user, (s.openRequest capacity).1⟩)
            ⟨[], [], (s.openRequest capacity).2⟩ w →
          ∃ us, w.session.lookUps = us.reverse ++ s.lookUps ∧
            ∀ u ∈ us, u.ran = false → ∃ e, [e, u].Sublist us ∧ e.ran = true ∧
              e.answer = u.answer ∧ e.leaf.check = u.leaf.check ∧
              Option.Rel Change.SameValues e.leaf.context.change u.leaf.context.change := by
  refine ⟨fun a b => Change.key_eq_iff, fun d user capacity s w hrun => ?_⟩
  obtain ⟨us, h⟩ := (honest_start d user s capacity).run hrun
  rw [List.nil_append] at h
  refine ⟨us, h.chronicle.lookUps, fun u hu hran => ?_⟩
  obtain ⟨e, hsub, heran, hanswer⟩ := (h.chronicle.settles u.leaf.question).earlier
    (List.mem_filter.mpr ⟨hu, decide_eq_true rfl⟩) hran
  have he := hsub.subset List.mem_cons_self
  obtain ⟨heus, hequestion⟩ := List.mem_filter.mp he
  have hquestion : e.leaf.question = u.leaf.question := of_decide_eq_true hequestion
  have hcheck : e.leaf.check = u.leaf.check :=
    (((h.chronicle.posed e heus).question_eq_iff (h.chronicle.posed u hu)).mp hquestion).2.1
  exact ⟨e, hsub.trans List.filter_sublist, heran, hanswer, hcheck,
    Leaf.sameValues_of_question_eq hquestion⟩

/-- Another title than that of the specimen. -/
def Specimen.retitlingAnew : Change := { retitling with after := .string "Sanditon" }

/-- One change is looked at twice and another one once: the second look finds both answers, the
third asks again about the new title and finds that about the owner. -/
theorem Workspace.keys_faithful_retitling :
    let opened := Session.initial.openRequest Answers.defaultCapacity
    ∃ w, Relation.ReflTransGen (Step (Specimen.scope false)) ⟨[], [], opened.2⟩ w ∧
      w.session.lookUps.map (·.ran) = [false, true, false, false, true, true] ∧
      ∃ us, w.session.lookUps = us.reverse ++ Session.initial.lookUps ∧
        ∀ u ∈ us, u.ran = false → ∃ e, [e, u].Sublist us ∧ e.ran = true ∧
          Option.Rel Change.SameValues e.leaf.context.change u.leaf.context.change := by
  intro opened
  let scope := Specimen.scope false
  let tree (change : Change) := scope.tree Specimen.book .update "title" change
  let after (change : Change) (s : Session) :=
    (scope.plan Specimen.book .update "title" change s).2
  have hplan : ∀ change s, scope.plan Specimen.book .update "title" (some change) s =
      (.ok ⟨tree change .preview, tree change .commit⟩, after change s) := fun change s =>
    Prod.ext (scope.plan_of_unobstructed _ _ _ _ _ (by decide)) rfl
  -- a decision is planned anew, and its commit tree evaluated
  have look : ∀ (change : Change) (ts : List Tree) (s : Session),
      Relation.ReflTransGen (Step scope) ⟨ts, [], s⟩
        ⟨tree change .preview :: ((tree change .commit).evaluate (after change s)).tree :: ts, [],
          ((tree change .commit).evaluate (after change s)).state⟩ := fun change ts s =>
    .tail (.single (.plan _ _ _ _ (hplan change s))) (.evaluate 1 rfl)
  have hrun := ((look Specimen.retitling [] opened.2).trans (look Specimen.retitling _ _)).trans
    (look Specimen.retitlingAnew _ _)
  refine ⟨_, hrun, by decide, ?_⟩
  obtain ⟨us, hlookUps, hfound⟩ := keys_faithful.2 Specimen.dictionary scope.user
    Answers.defaultCapacity .initial _ hrun
  refine ⟨us, hlookUps, fun u hu hran => ?_⟩
  obtain ⟨e, hsub, heran, -, -, hsame⟩ := hfound u hu hran
  exact ⟨e, hsub, heran, hsame⟩

end AccessRules
