/-
# The preview decides as early as it can

A preview that comes to deferred leaves the decision to operation checks.  It never does so without
need: as long as no implementation stands twice among the checks that may still decide, there are
answers of the operation checks for which the commit passes, and others for which it fails.

That is a fact about values (`Tree.exists_forces`), and both evaluations skip what cannot matter.
They find their values all the same, for the commit reaches no user check that the preview skipped:
`Tree.Concludes` is what the proof carries through the connectives.

* `Tree.concludes_of_fresh`: after its preview a tree comes to its value;
* `commit_answering`: so does the commit of a plan, whatever its operation checks answer;
* `deferred_iff_open`, `deferred_iff_open_of_operations`: a preview is deferred exactly if the
  commit may go either way.
-/
import AccessRules.Proofs.Deciding

namespace AccessRules

/-! ## 1. The commit after a preview -/

namespace Session

/-- What a request remembers of a question, or no. -/
def recalled (s : Session) (request : Nat) (q : Question) : Bool := (s.known request q).getD false

/-- A request remembers nothing but what `v` says. -/
def Within (request : Nat) (v : Question → Bool) (s : Session) : Prop :=
  ∀ q b, s.known request q = some b → v q = b

variable {n : Nat} {v : Question → Bool} {l : Leaf} {s : Session}

/-- An answer as `v` says keeps a request within `v`. -/
theorem Within.ask (h : s.Within n v) (hanswer : (s.ask l).1 = .ok (v l.question)) :
    (s.ask l).2.Within n v := by
  intro q b hq
  rcases known_of_known_ask hq with hold | ⟨⟨-, rfl⟩, hnew⟩
  · exact h q b hold
  · rw [hanswer] at hnew
    exact Except.ok.inj hnew

end Session

/-- A leaf of a request whose operation check, if it has one, answers as `v` says. -/
structure Leaf.Bound (l : Leaf) (request : Nat) (v : Question → Bool) : Prop where
  request : l.situation.request = request
  answer : l.check.kind = .operation → ∀ runs,
    l.check.procedure.answer runs l.context = .ok (v l.question)

namespace Tree

/-- After its preview came to an end, in any session that remembers what the preview found out and
nothing against `v`, the tree comes to its value. -/
def Concludes (request : Nat) (v : Question → Bool) (t : Tree) : Prop :=
  ∀ s st, s.Opened request → (t.putOff.evaluate s).result = .ok st →
    ∀ s', Session.Remembers request (t.putOff.evaluate s).state s' → s'.Within request v →
      st = t.forecast v ∧
        (t.evaluate s').result = .ok (t.kleene fun l => v l.question) ∧
        (t.evaluate s').state.Within request v

variable {n : Nat} {v : Question → Bool}

/-- A check answers from memory if it is a user check, and by itself otherwise. -/
theorem concludes_ofLeaf {l : Leaf} (hl : l.Bound n v) : Concludes n v (.ofLeaf l) := by
  intro s st hopen hst s' hkeep hwithin
  have asked : ∀ b, v l.question = b → (s'.ask l).1 = .ok b →
      ((ofLeaf l).evaluate s').result = .ok ((ofLeaf l).kleene fun l => v l.question) ∧
        ((ofLeaf l).evaluate s').state.Within n v := by
    rintro b rfl ha
    rw [evaluate_ofLeaf, Evaluation.asked_of_ok l ha]
    exact ⟨rfl, hwithin.ask ha⟩
  cases hkind : l.check.kind with
  | user =>
    have hsame := (Leaf.withoutChange_of_user hkind).1
    have hput : (ofLeaf l).putOff = ofLeaf l.withoutChange := by simp only [ofLeaf, putOff, hkind]
    rw [hput, evaluate_ofLeaf] at hst hkeep
    rw [Evaluation.asked_state] at hkeep
    cases ha : (s.ask l.withoutChange).1 with
    | error detail =>
      rw [Evaluation.asked_of_error _ ha] at hst
      cases hst
    | ok b =>
      rw [Evaluation.asked_of_ok _ ha] at hst
      have hlearned : (s.ask l.withoutChange).2.known n l.question = some b := by
        have hself := Session.known_ask_self (l := l.withoutChange) (s := s)
          (show s.Opened l.situation.request from hl.request ▸ hopen)
        rw [ha, hsame] at hself
        exact hl.request ▸ hself
      have hknown := hkeep _ _ hlearned
      have hv := hwithin _ _ hknown
      refine ⟨?_, asked b hv ?_⟩
      · cases hst
        exact (forecast_of_user hkind _).trans (congrArg _ hv) |>.symm
      · rw [Session.ask_fst, hl.request, hknown]
  | operation =>
    have hput : (ofLeaf l).putOff = later l.name := by simp only [ofLeaf, putOff, hkind, later]
    rw [hput] at hst
    refine ⟨?_, asked _ rfl ?_⟩
    · cases hst
      exact (forecast_of_operation hkind _).symm
    · rw [Session.ask_fst, hl.request]
      cases hknown : s'.known n l.question with
      | none => exact hl.answer hkind s'.runs
      | some b => exact congrArg Except.ok (hwithin _ _ hknown).symm

theorem concludes_ground {node : Status → Tree} {a : Status} (h : Ground node a)
    (hput : (node .unevaluated).putOff = node .unevaluated)
    (hvalue : ∀ w, (node .unevaluated).kleene w = a) : Concludes n v (node .unevaluated) := by
  intro s st _ hst s' _ hwithin
  rw [hput, h.evaluate_node] at hst
  cases hst
  rw [forecast, hput, hvalue, h.evaluate_node]
  exact ⟨rfl, rfl, hwithin⟩

theorem Concludes.relay (k : Relay) {c : Tree} (h : Concludes n v c) :
    Concludes n v (k.node c .unevaluated) := by
  intro s st hopen hst s' hkeep hwithin
  have hput : (k.node c .unevaluated).putOff = k.node c.putOff .unevaluated := by cases k <;> rfl
  have hvalue : ∀ w c, (k.node c .unevaluated).kleene w = k.derive (c.kleene w) := by
    cases k <;> exact fun _ _ => rfl
  rw [hput, k.evaluate_node] at hst hkeep
  rw [Evaluation.single_state] at hkeep
  obtain ⟨a, ha, rfl⟩ := Evaluation.exists_of_single_ok hst
  obtain ⟨rfl, hc⟩ := h s a hopen ha s' hkeep hwithin
  rw [hvalue, k.evaluate_node]
  exact ⟨by rw [forecast, forecast, hput, hvalue], single_value hc⟩

/-- **A node over two operands concludes if they do.**  Where the preview stopped at the left one,
so does the commit; where it did not, the right one has had its preview too. -/
theorem Concludes.junction (j : Junction) {l r : Tree} (hl : Concludes n v l)
    (hr : Concludes n v r) : Concludes n v (j.node l r .unevaluated) := by
  intro s st hopen hst s' hkeep hwithin
  have hput : (j.node l r .unevaluated).putOff = j.node l.putOff r.putOff .unevaluated := by
    cases j <;> rfl
  have hstop : ∀ b, j.join j.stop b = j.stop := by cases j <;> exact fun _ => rfl
  have hne : j.stop ≠ .deferred := by
    cases j with
    | and | or => decide
    | anyField _ => exact nofun
  rw [hput, j.evaluate_node] at hst hkeep
  rw [j.forecast_node, j.kleene_node, j.evaluate_node]
  rcases Evaluation.cases_of_pair_ok j.node j.stop j.join r.putOff _ hst with
    ⟨ha, rfl, hstate⟩ | ⟨a, b, ha, -, hb, rfl, hstate⟩
  · rw [hstate] at hkeep
    obtain ⟨hforecast, hresult, hl'⟩ := hl s j.stop hopen ha s' hkeep hwithin
    have hvalue : (l.kleene fun l => v l.question) = j.stop := by
      refine (forecast_refines (v := v) fun _ _ _ => rfl).eq_of_ne ?_ |>.trans hforecast.symm
      rwa [← hforecast]
    rw [hvalue] at hresult
    rw [← hforecast, hvalue, hstop, hstop, Evaluation.pair_of_stop _ _ _ _ _ hresult]
    exact ⟨rfl, rfl, hl'⟩
  · rw [hstate] at hkeep
    obtain ⟨rfl, hleft⟩ :=
      hl s a hopen ha s' ((remembers_evaluate n r.putOff _).trans hkeep) hwithin
    have hopenr : (l.putOff.evaluate s).state.Opened n := opened_evaluate l.putOff hopen
    have hright : ∀ s'', Session.Remembers n s' s'' ∧ s''.Within n v →
        b = r.forecast v ∧ (r.evaluate s'').result = .ok (r.kleene fun l => v l.question) ∧
          (r.evaluate s'').state.Within n v :=
      fun s'' h => hr _ b hopenr hb s'' (hkeep.trans h.1) h.2
    refine ⟨?_, ?_⟩
    · rw [← (hright s' ⟨.refl n s', hwithin⟩).1]
    · have hpair := @pair_value _ (fun s'' => Session.Remembers n s' s'' ∧ s''.Within n v) j.node
        _ _ _ _ _ r _ (hstop (r.kleene fun l => v l.question))
        ⟨hleft.1, remembers_evaluate n l s', hleft.2⟩
        fun s'' h => ⟨(hright s'' h).2.1, h.1.trans (remembers_evaluate n r s''),
          (hright s'' h).2.2⟩
      exact ⟨hpair.1, hpair.2.2⟩

/-- **After its preview a fresh tree comes to its value.** -/
theorem concludes_of_fresh {p : Phase} {t : Tree} (ht : Fresh p t)
    (hl : ∀ l ∈ t.leaves, l.Bound n v) : Concludes n v t := by
  induction ht with
  | check leaf => exact concludes_ofLeaf (hl leaf List.mem_cons_self)
  | constant passed label => exact concludes_ground (.constant passed label) rfl fun _ => rfl
  | deferred name => exact concludes_ground (.deferred name) rfl fun _ => rfl
  | unrestricted condition => exact concludes_ground (.unrestricted condition) rfl fun _ => rfl
  | and _ _ ihl ihr =>
    obtain ⟨hl, hr⟩ := binary_and.forall_leaves.mp hl
    exact .junction .and (ihl hl) (ihr hr)
  | or _ _ ihl ihr =>
    obtain ⟨hl, hr⟩ := binary_or.forall_leaves.mp hl
    exact .junction .or (ihl hl) (ihr hr)
  | anyField condition _ _ ihl ihr =>
    obtain ⟨hl, hr⟩ := (binary_anyField condition).forall_leaves.mp hl
    exact .junction (.anyField condition) (ihl hl) (ihr hr)
  | not _ ih => exact .relay .not (ih hl)
  | fieldRule condition _ ih => exact .relay (.fieldRule condition) (ih hl)
  | entityRule condition _ ih => exact .relay (.entityRule condition) (ih hl)

end Tree

/-! ## 2. Answers to all questions of a commit -/

namespace Tree

/-- The answers to all questions: as `f` says to those of the operation checks of the tree, and as
`v` says to all others. -/
def replies (t : Tree) (v : Question → Bool) (f : CheckId → Bool) (q : Question) : Bool :=
  if q ∈ t.operations.map Leaf.question then f q.check else v q

variable {t : Tree} {f : CheckId → Bool}

theorem replies_of_operation (v : Question → Bool) {l : Leaf} (h : l ∈ t.operations) :
    t.replies v f l.question = f l.check.id :=
  if_pos (List.mem_map_of_mem h)

theorem mem_operations {l : Leaf} (hl : l ∈ t.leaves) (hkind : l.check.kind = .operation) :
    l ∈ t.operations :=
  List.mem_filter.mpr ⟨hl, decide_eq_true hkind⟩

/-- A request that remembers no operation check of a tree remembers nothing against the replies. -/
theorem within_replies {n : Nat} {s : Session}
    (h : ∀ l ∈ t.operations, s.known n l.question = none) :
    s.Within n (t.replies (s.recalled n) f) := by
  intro q b hq
  have hfree : q ∉ t.operations.map Leaf.question := by
    intro hmem
    obtain ⟨l, hl, rfl⟩ := List.mem_map.mp hmem
    rw [h l hl] at hq
    cases hq
  rw [replies, if_neg hfree, Session.recalled, hq]
  rfl

end Tree

/-- A leaf of a request, with the answer that is the reply to it. -/
theorem Leaf.bound_answering {l : Leaf} {n : Nat} {v : Question → Bool} {f : CheckId → Bool}
    (hrequest : l.situation.request = n)
    (hreply : l.check.kind = .operation → v l.question = f l.check.id) :
    (l.answering f).Bound n v := by
  cases hkind : l.check.kind with
  | user =>
    rw [answering_of_user f hkind]
    refine ⟨hrequest, fun h => ?_⟩
    rw [hkind] at h
    cases h
  | operation =>
    refine ⟨?_, fun _ _ => ?_⟩
    · rw [answering_of_operation f hkind]
      exact hrequest
    · rw [question_answering, hreply hkind, answering_of_operation f hkind]
      rfl

/-- One question is put to checks of one kind. -/
theorem Leaf.Fits.kind_eq {scope : RequestScope} {condition : Condition} {l l' : Leaf}
    {p p' : Phase} (h : l.Fits scope condition p) (h' : l'.Fits scope condition p')
    (hquestion : l.question = l'.question) : l.check.kind = l'.check.kind := by
  rw [Dictionary.procedure_eq_of_id_eq h.bound h'.bound (congrArg Question.check hquestion)]

/-! ## 3. The two trees of a plan -/

namespace RequestScope

variable {scope : RequestScope} {resource : Resource} {category : Category}
  {field : Option String} {change : Option Change} {s s₁ s₂ : Session} {plan : Plan}

/-- The user checks of either tree are no operation checks of the commit, so the replies to them are
the given ones. -/
theorem replies_of_user {v : Question → Bool} {f : CheckId → Bool} {p : Phase} {l : Leaf}
    (hl : l.Fits scope ⟨category, resource, field, change⟩ p) (hkind : l.check.kind = .user) :
    (scope.tree resource category field change .commit).replies v f l.question = v l.question := by
  refine if_neg fun hmem => ?_
  obtain ⟨l', hl', hquestion⟩ := List.mem_map.mp hmem
  obtain ⟨hl', hkind'⟩ := List.mem_filter.mp hl'
  rw [← (fits_of_mem_tree l' hl').kind_eq hl hquestion, of_decide_eq_true hkind'] at hkind
  cases hkind

/-- Whatever its operation checks answer, the commit comes to the value of its tree, and the preview
came to what is forecast from the answers to user checks. -/
theorem commit_answering
    (hplan : (scope.plan resource category field change s).1 = .ok plan)
    (hopen : s₁.Opened scope.request) {st : Status}
    (hpreview : (plan.preview.evaluate s₁).result = .ok st)
    (hkeep : Session.Remembers scope.request (plan.preview.evaluate s₁).state s₂)
    (hnew : ∀ l ∈ plan.commit.operations, s₂.known scope.request l.question = none)
    (f : CheckId → Bool) :
    st = plan.commit.forecast (s₂.recalled scope.request) ∧
      ((plan.commit.answering f).evaluate s₂).result =
        .ok (plan.commit.kleene (Tree.answered (s₂.recalled scope.request) f)) := by
  obtain rfl := plan_eq_ok hplan
  dsimp only at hpreview hkeep hnew ⊢
  have hbound : ∀ l ∈ ((scope.tree resource category field change .commit).answering f).leaves,
      l.Bound scope.request ((scope.tree resource category field change .commit).replies
        (s₂.recalled scope.request) f) := by
    intro l hl
    rw [Tree.leaves_answering] at hl
    obtain ⟨l, hmem, rfl⟩ := List.mem_map.mp hl
    refine Leaf.bound_answering ?_ fun hkind =>
      Tree.replies_of_operation _ (Tree.mem_operations hmem hkind)
    rw [(fits_of_mem_tree l hmem).situation]
    rfl
  rw [preview_eq_putOff, ← Tree.putOff_answering f] at hpreview hkeep
  obtain ⟨hst, hresult, -⟩ := Tree.concludes_of_fresh (fresh_tree.answering f) hbound s₁ st hopen
    hpreview s₂ hkeep (Tree.within_replies hnew)
  refine ⟨hst.trans ?_, hresult.trans (congrArg _ ?_)⟩
  · rw [Tree.forecast, Tree.forecast, Tree.putOff_answering, ← preview_eq_putOff]
    refine Tree.kleene_congr fun l hl => ?_
    have hfits := fits_of_mem_tree l hl
    exact replies_of_user hfits (hfits.user rfl)
  · rw [Tree.kleene_answering]
    refine Tree.kleene_congr fun l hl => ?_
    rw [Leaf.question_answering, Tree.answered]
    cases hkind : l.check.kind with
    | user => exact replies_of_user (fits_of_mem_tree l hl) hkind
    | operation => exact Tree.replies_of_operation _ (Tree.mem_operations hl hkind)

/-- After a deferred preview the commit may go either way, if none of the implementations that may
still decide stands twice among them. -/
theorem open_of_deferred
    (hplan : (scope.plan resource category field change s).1 = .ok plan)
    (hopen : s₁.Opened scope.request)
    (hkeep : Session.Remembers scope.request (plan.preview.evaluate s₁).state s₂)
    (hnew : ∀ l ∈ plan.commit.operations, s₂.known scope.request l.question = none)
    (honce : ((plan.commit.deciding (s₂.recalled scope.request)).map fun l => l.check.id).Nodup)
    (hdeferred : (plan.preview.evaluate s₁).result = .ok .deferred) :
    ∃ yes no : CheckId → Bool,
      ((plan.commit.answering yes).evaluate s₂).result = .ok .passed ∧
        ((plan.commit.answering no).evaluate s₂).result = .ok .failed := by
  have hfresh : Tree.Fresh .commit plan.commit := by
    rw [plan_eq_ok hplan]
    exact fresh_tree
  have hcommit := commit_answering hplan hopen hdeferred hkeep hnew
  have hforecast := (hcommit fun _ => false).1.symm
  obtain ⟨yes, hyes⟩ := Tree.exists_forces hfresh hforecast honce true
  obtain ⟨no, hno⟩ := Tree.exists_forces hfresh hforecast honce false
  refine ⟨yes, no, ?_, ?_⟩
  · rw [(hcommit yes).2, hyes yes fun _ _ => rfl]
    rfl
  · rw [(hcommit no).2, hno no fun _ _ => rfl]
    rfl

/-- If the commit may go either way, the preview did not say. -/
theorem deferred_of_open
    (hplan : (scope.plan resource category field change s).1 = .ok plan)
    (hcalm : ∀ l ∈ plan.preview.leaves, l.check.procedure.Calm)
    (hopen : s₁.Opened scope.request)
    (hkeep : Session.Remembers scope.request (plan.preview.evaluate s₁).state s₂)
    (hnew : ∀ l ∈ plan.commit.operations, s₂.known scope.request l.question = none)
    {yes no : CheckId → Bool}
    (hyes : ((plan.commit.answering yes).evaluate s₂).result = .ok .passed)
    (hno : ((plan.commit.answering no).evaluate s₂).result = .ok .failed) :
    (plan.preview.evaluate s₁).result = .ok .deferred := by
  obtain ⟨st, hst⟩ : ∃ st, (plan.preview.evaluate s₁).result = .ok st :=
    Tree.evaluateWith_total plan.preview (fun l hl => Session.exists_answer_of_calm (hcalm l hl)) s₁
  have hcommit := commit_answering hplan hopen hst hkeep hnew
  have hstays : ∀ f, st.Refines (plan.commit.kleene
      (Tree.answered (s₂.recalled scope.request) f)) := by
    intro f
    rw [(hcommit f).1]
    exact Tree.forecast_refines fun l _ => Tree.answered_of_user f
  rw [(hcommit yes).2] at hyes
  rw [(hcommit no).2] at hno
  have hpassed := hstays yes
  have hfailed := hstays no
  rw [Except.ok.inj hyes] at hpassed
  rw [Except.ok.inj hno] at hfailed
  rw [hst]
  rcases hpassed with rfl | rfl
  · rfl
  · rcases hfailed with h | h <;> cases h

/-- **The preview decides as early as it can.**  Where no check raises an error, and no
implementation stands twice among the operation checks that may still decide, the preview is
deferred exactly if the commit may go either way: for some answers of the operation checks it
passes, and for others it fails, the answers to user checks being those that the preview got. -/
theorem deferred_iff_open
    (hplan : (scope.plan resource category field change s).1 = .ok plan)
    (hcalm : ∀ l ∈ plan.preview.leaves, l.check.procedure.Calm)
    (hopen : s₁.Opened scope.request)
    (hkeep : Session.Remembers scope.request (plan.preview.evaluate s₁).state s₂)
    (hnew : ∀ l ∈ plan.commit.operations, s₂.known scope.request l.question = none)
    (honce : ((plan.commit.deciding (s₂.recalled scope.request)).map fun l => l.check.id).Nodup) :
    (plan.preview.evaluate s₁).result = .ok .deferred ↔
      ∃ yes no : CheckId → Bool,
        ((plan.commit.answering yes).evaluate s₂).result = .ok .passed ∧
          ((plan.commit.answering no).evaluate s₂).result = .ok .failed := by
  constructor
  · exact open_of_deferred hplan hopen hkeep hnew honce
  · rintro ⟨yes, no, hyes, hno⟩
    exact deferred_of_open hplan hcalm hopen hkeep hnew hyes hno

/-- **So it does where no implementation stands twice among all operation checks of the commit**,
which can be told before any check has answered. -/
theorem deferred_iff_open_of_operations
    (hplan : (scope.plan resource category field change s).1 = .ok plan)
    (hcalm : ∀ l ∈ plan.preview.leaves, l.check.procedure.Calm)
    (hopen : s₁.Opened scope.request)
    (hkeep : Session.Remembers scope.request (plan.preview.evaluate s₁).state s₂)
    (hnew : ∀ l ∈ plan.commit.operations, s₂.known scope.request l.question = none)
    (honce : (plan.commit.operations.map fun l => l.check.id).Nodup) :
    (plan.preview.evaluate s₁).result = .ok .deferred ↔
      ∃ yes no : CheckId → Bool,
        ((plan.commit.answering yes).evaluate s₂).result = .ok .passed ∧
          ((plan.commit.answering no).evaluate s₂).result = .ok .failed := by
  have hdeciding : ((plan.commit.deciding (s₂.recalled scope.request)).map
      fun l => l.check.id).Nodup :=
    ((Tree.deciding_sublist _ plan.commit).map _).nodup honce
  constructor
  · exact open_of_deferred hplan hopen hkeep hnew hdeciding
  · rintro ⟨yes, no, hyes, hno⟩
    exact deferred_of_open hplan hcalm hopen hkeep hnew hyes hno

end RequestScope

namespace Specimen

/-- An owner may change the title for another one alone, and everybody else for the same one. -/
def retitlable : Dictionary := dictionary.addType ((Declaration.bare "book").fieldPermission "title"
  .update "(retitles AND owner) OR NOT (retitles OR owner)")

end Specimen

namespace RequestScope

open Specimen

/-- The check of the change stands twice in the rule, but it may decide at one place alone. -/
theorem deferred_iff_open_retitlable :
    let scope : RequestScope := ⟨retitlable, .anonymous, 0⟩
    let plan : Plan := ⟨scope.tree book .update "title" retitling .preview,
      scope.tree book .update "title" retitling .commit⟩
    let s := (plan.preview.evaluate opened).state
    (plan.commit.operations.map fun l => l.check.id) = [1, 1] ∧
      (plan.preview.evaluate opened).result = .ok .deferred ∧
      ∃ yes no : CheckId → Bool, ((plan.commit.answering yes).evaluate s).result = .ok .passed ∧
        ((plan.commit.answering no).evaluate s).result = .ok .failed := by
  intro scope plan s
  have hplan : (scope.plan book .update "title" retitling opened).1 = .ok plan :=
    scope.plan_of_unobstructed book .update "title" retitling opened (by decide)
  have hcalm : ∀ l ∈ plan.preview.leaves, l.check.procedure.Calm := by
    intro l hl
    have hfits : l.Fits scope ⟨.update, book, "title", retitling⟩ .preview := fits_of_mem_tree l hl
    have hmem : l.check.procedure ∈ [_, _] := Dictionary.mem_shelf_of_check? hfits.bound
    rcases List.mem_pair.mp hmem with h | h
    · rw [h]
      exact fun _ _ => ⟨_, rfl⟩
    · rw [h]
      exact fun _ _ => ⟨_, rfl⟩
  have hopen : opened.Opened scope.request := Nat.zero_lt_one
  have hdeferred : (plan.preview.evaluate opened).result = .ok .deferred := by decide
  exact ⟨by decide, hdeferred, (deferred_iff_open hplan hcalm hopen (Session.Remembers.refl _ _)
    (by decide) (by decide)).mp hdeferred⟩

end RequestScope

end AccessRules
