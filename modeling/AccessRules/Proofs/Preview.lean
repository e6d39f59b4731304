/-
# The preview forecasts the commit

The preview of a plan is evaluated before anything changes, with a deferred node for every
operation check.  The commit evaluates a second tree, later, in a session that has moved on.  As
long as the request forgets no answer, the second evaluation refines the first:

* where the preview came to a yes or a no, the commit comes to the same;
* the commit runs no user check, for it reaches none that the preview did not ask.

The two trees stop early at different places, so neither statement can be read off a comparison of
visited nodes.  `Tree.Follows` is what the proof carries through the connectives: the commit asks
a node only if the preview asked it too, or could not decide without it.
-/
import AccessRules.Proofs.Planning

namespace AccessRules

/-! ## 1. One tree follows another -/

/-- Whether a look-up left the user checks alone: the answer of one was remembered. -/
def LookUp.SparesUser (u : LookUp) : Prop := u.leaf.check.kind = .user → u.ran = false

/-- The tree `c` follows `t` within a request: evaluated in any session that remembers what the
evaluation of `t` found out, it runs no user check and refines the outcome of `t`. -/
def Tree.Follows (request : Nat) (t c : Tree) : Prop :=
  ∀ s st, s.Opened request → (t.evaluate s).result = .ok st →
    ∀ s', Session.Remembers request (t.evaluate s).state s' →
      Session.Adds LookUp.SparesUser s' (c.evaluate s').state ∧
        ∀ st', (c.evaluate s').result = .ok st' → st.Refines st'

/-- The change at hand is no part of the question to a user check. -/
theorem Leaf.question_of_user {name name' : String} {check : Check} (h : check.kind = .user)
    (situation : Situation) (change : Option Change) :
    (Leaf.mk name check { situation with change }).question =
      (Leaf.mk name' check situation).question := by
  simp only [question, Check.visibleChange, h]

namespace Tree

/-! ## 2. Leaves -/

section Leaves

variable {l l' : Leaf}

/-- The preview of a user check settles the commit of it. -/
theorem follows_asked {n : Nat} (hl : l.situation.request = n) (hl' : l'.situation.request = n)
    (hquestion : l'.question = l.question) : Follows n (.ofLeaf l) (.ofLeaf l') := by
  subst hl
  intro s st hopen hst s' hkeep
  change (Evaluation.asked l (s.ask l)).result = _ at hst
  change Session.Remembers _ (Evaluation.asked l (s.ask l)).state s' at hkeep
  rw [Evaluation.asked_state] at hkeep
  cases ha : (s.ask l).1 with
  | error detail =>
    rw [Evaluation.asked_of_error l ha] at hst
    cases hst
  | ok b =>
    rw [Evaluation.asked_of_ok l ha] at hst
    cases hst
    have hknown : s'.known l.situation.request l.question = some b := by
      refine hkeep _ _ ?_
      rw [Session.known_ask_self hopen, ha]
      rfl
    rw [← hl', ← hquestion] at hknown
    have hanswer : (s'.ask l').1 = .ok b := by rw [Session.ask_of_known hknown]
    change Session.Adds _ _ (Evaluation.asked l' (s'.ask l')).state ∧
      ∀ st', (Evaluation.asked l' (s'.ask l')).result = _ → _
    rw [Evaluation.asked_of_ok l' hanswer]
    constructor
    · refine Session.adds_ask fun _ => ?_
      rw [hknown]
      rfl
    · intro st' hst'
      cases hst'
      exact .refl _

/-- A deferred node says nothing yet, and what is asked in its place is no user check. -/
theorem follows_later {n : Nat} (name : String) (h : l'.check.kind = .operation) :
    Follows n (.later name) (.ofLeaf l') := by
  intro s st _ hst s' _
  cases hst
  change Session.Adds _ _ (Evaluation.asked l' (s'.ask l')).state ∧ _
  rw [Evaluation.asked_state]
  refine ⟨Session.adds_ask fun huser => ?_, fun _ _ => Status.refines_deferred _⟩
  rw [show l'.check.kind = .user from huser] at h
  cases h

end Leaves

/-! ## 3. Connectives -/

section Connectives

variable {n : Nat}

/-- A node whose outcome hangs on no leaf. -/
theorem follows_constant {t : Tree} {st : Status} {t' : Tree}
    (h : ∀ s, t.evaluate s = ⟨.ok st, t', s⟩) : Follows n t t := by
  intro s st₁ _ hst s' _
  rw [h] at hst ⊢
  refine ⟨Session.Adds.refl _ _, fun st₂ hst₂ => ?_⟩
  cases hst
  cases hst₂
  exact .refl _

theorem Follows.single {node : Tree → Status → Tree} {f : Status → Status} {c c' : Tree}
    (heval : ∀ t s, (node t .unevaluated).evaluate s = .single node f (t.evaluate s))
    (hmono : ∀ {a a' : Status}, a.Refines a' → (f a).Refines (f a')) (h : Follows n c c') :
    Follows n (node c .unevaluated) (node c' .unevaluated) := by
  intro s st hopen hst s' hkeep
  rw [heval] at hst hkeep ⊢
  rw [Evaluation.single_state] at hkeep ⊢
  obtain ⟨a, ha, rfl⟩ := Evaluation.exists_of_single_ok hst
  obtain ⟨hadds, hrefines⟩ := h s a hopen ha s' hkeep
  refine ⟨hadds, fun st' hst' => ?_⟩
  obtain ⟨a', ha', rfl⟩ := Evaluation.exists_of_single_ok hst'
  exact hmono (hrefines a' ha')

/-- **Stopping early at different places does no harm.**  If the preview stopped at the left child,
so does the commit; if the commit stops there alone, the preview could not decide without it. -/
theorem Follows.pair {node : Tree → Tree → Status → Tree} {stop : Status}
    {join : Status → Status → Status} {l l' r r' : Tree}
    (heval : ∀ l r s, (node l r .unevaluated).evaluate s =
      .pair node stop join (l.evaluate s) r r.evaluate)
    (hmono : ∀ {a a' b b' : Status}, a.Refines a' → b.Refines b' → (join a b).Refines (join a' b'))
    (hstop : ∀ b, join stop b = stop) (hne : stop ≠ .deferred)
    (hl : Follows n l l') (hr : Follows n r r') :
    Follows n (node l r .unevaluated) (node l' r' .unevaluated) := by
  intro s st hopen hst s' hkeep
  rw [heval] at hst hkeep ⊢
  rcases Evaluation.cases_of_pair_ok node stop join r r.evaluate hst with
    ⟨ha, rfl, hstate⟩ | ⟨a, b, ha, hastop, hb, rfl, hstate⟩
  · rw [hstate] at hkeep
    obtain ⟨hadds, hrefines⟩ := hl s stop hopen ha s' hkeep
    have hsame : ∀ a', (l'.evaluate s').result = .ok a' → a' = stop := fun a' ha' =>
      (hrefines a' ha').eq_of_ne hne
    refine ⟨?_, fun st' hst' => ?_⟩
    · exact Evaluation.pair_related node stop join r' r'.evaluate Session.Adds.trans hadds
        fun a' ha' hne' => absurd (hsame a' ha') hne'
    · rcases Evaluation.cases_of_pair_ok node stop join r' r'.evaluate hst' with
        ⟨-, rfl, -⟩ | ⟨a', b', ha', hne', -, -, -⟩
      · exact .refl _
      · exact absurd (hsame a' ha') hne'
  · rw [hstate] at hkeep
    have hkeepl : Session.Remembers n (l.evaluate s).state s' :=
      (remembers_evaluate n r _).trans hkeep
    obtain ⟨haddsl, hrefinesl⟩ := hl s a hopen ha s' hkeepl
    have hright := hr (l.evaluate s).state b (opened_evaluate l hopen) hb
    -- the commit of the left child forgets nothing either
    have hkeepr : Session.Remembers n (r.evaluate (l.evaluate s).state).state
        (l'.evaluate s').state := hkeep.trans (remembers_evaluate n l' s')
    obtain ⟨haddsr, hrefinesr⟩ := hright _ hkeepr
    refine ⟨?_, fun st' hst' => ?_⟩
    · exact Evaluation.pair_related node stop join r' r'.evaluate Session.Adds.trans haddsl
        fun _ _ _ => haddsr
    · rcases Evaluation.cases_of_pair_ok node stop join r' r'.evaluate hst' with
        ⟨ha', rfl, -⟩ | ⟨a', b', ha', -, hb', rfl, -⟩
      · have hjoin : (join a b).Refines (join stop b) := hmono (hrefinesl stop ha') (.refl b)
        rw [hstop] at hjoin
        exact hjoin
      · exact hmono (hrefinesl a' ha') (hrefinesr b' hb')

theorem congruent_follows (n : Nat) : Congruent (Follows n) where
  constant _ _ := follows_constant fun _ => rfl
  and := Follows.pair (fun _ _ _ => rfl) Status.Refines.and (fun _ => rfl) (by decide)
  or := Follows.pair (fun _ _ _ => rfl) Status.Refines.or (fun _ => rfl) (by decide)
  not := Follows.single (fun _ _ => rfl) Status.Refines.negate
  anyField _ _ _ _ _ :=
    Follows.pair (fun _ _ _ => rfl) Status.Refines.or (fun _ => rfl) (by decide)
  fieldRule _ _ _ := Follows.single (f := id) (fun _ _ => rfl) id
  entityRule _ _ _ := Follows.single (f := id) (fun _ _ => rfl) id
  unrestricted _ := follows_constant fun _ => rfl

end Connectives

end Tree

/-! ## 4. The two trees of a plan -/

namespace RequestScope

variable {scope : RequestScope} {resource : Resource} {category : Category}
  {field : Option String} {change : Option Change}

/-- The commit of a plan follows its preview. -/
theorem follows_tree : Tree.Follows scope.request
    (scope.tree resource category field change .preview)
    (scope.tree resource category field change .commit) := by
  refine tree_related (Tree.congruent_follows scope.request) fun c _ => ?_
  cases hkind : c.check.kind with
  | user =>
    rw [Phase.leaf_of_user _ _ hkind, Phase.leaf_of_user _ _ hkind]
    exact Tree.follows_asked rfl rfl (Leaf.question_of_user hkind
      (scope.situation ⟨category, resource, field, change⟩ .preview) change)
  | operation =>
    rw [Phase.leaf_of_operation _ hkind]
    exact Tree.follows_later c.name hkind

/-- **The preview forecasts the commit.**  Once the preview of a plan has come to an end, the
commit finds every user check answered, and nothing but an operation check can raise an error.
Without one it comes to a yes or a no, and to the very one that the preview came to, unless that
was deferred. -/
theorem commit_of_preview {s s₁ s₂ : Session} {plan : Plan} {st : Status}
    (hplan : (scope.plan resource category field change s).1 = .ok plan)
    (hopen : s₁.Opened scope.request) (hpreview : (plan.preview.evaluate s₁).result = .ok st)
    (hkeep : Session.Remembers scope.request (plan.preview.evaluate s₁).state s₂) :
    ∃ us, Account plan.commit s₂ (plan.commit.evaluate s₂) us ∧
      (∀ u ∈ us, u.leaf.check.kind = .user → u.ran = false ∧ ∃ b, u.answer = .ok b) ∧
      match (plan.commit.evaluate s₂).result with
      | .ok st' => st'.Definite ∧ (st ≠ .deferred → st' = st)
      | .error f => ∃ u ∈ us, u.leaf.check.kind = .operation ∧ u.leaf.name = f.check ∧
          u.answer = .error f.detail := by
  obtain rfl := plan_eq_ok hplan
  obtain ⟨hadds, hrefines⟩ := follows_tree s₁ st hopen hpreview s₂ hkeep
  obtain ⟨us, haccount⟩ := Tree.evaluate_account
    (scope.tree resource category field change .commit) s₂
  have hspared : ∀ u ∈ us, u.leaf.check.kind = .user → u.ran = false := by
    obtain ⟨vs, hvs, hspare⟩ := hadds
    intro u hu
    rw [haccount.lookUps] at hvs
    exact hspare u (List.append_cancel_right hvs ▸ List.mem_reverse.mpr hu)
  refine ⟨us, haccount, fun u hu huser => ?_, ?_⟩
  · exact ⟨hspared u hu huser, haccount.found u hu (hspared u hu huser)⟩
  · have hout := haccount.outcome
    cases hres : ((scope.tree resource category field change .commit).evaluate s₂).result with
    | ok st' =>
      exact ⟨Tree.evaluateWith_definite fresh_tree s₂ st' hres, (hrefines st' hres).eq_of_ne⟩
    | error f =>
      rw [hres] at hout
      obtain ⟨before, u, rfl, -, hname, hdetail⟩ := hout
      have hu : u ∈ before ++ [u] := List.mem_append_right _ (List.mem_singleton_self u)
      refine ⟨u, hu, ?_, hname, hdetail⟩
      cases hkind : u.leaf.check.kind with
      | operation => rfl
      | user =>
        obtain ⟨b, hb⟩ := haccount.found u hu (hspared u hu hkind)
        rw [hb] at hdetail
        cases hdetail

/-- For an owner the preview fails at its second operand, while the commit asks the first one. -/
theorem commit_of_failed_preview :
    let scope := Specimen.scope true
    let plan : Plan := ⟨scope.tree Specimen.book .update "title" Specimen.retitling .preview,
      scope.tree Specimen.book .update "title" Specimen.retitling .commit⟩
    let s := (plan.preview.evaluate Specimen.opened).state
    (plan.preview.evaluate Specimen.opened).result = .ok .failed ∧
      ∃ us, Account plan.commit s (plan.commit.evaluate s) us ∧
        (∀ u ∈ us, u.leaf.check.kind = .user → u.ran = false ∧ ∃ b, u.answer = .ok b) ∧
        match (plan.commit.evaluate s).result with
        | .ok st' => st'.Definite ∧ (Status.failed ≠ .deferred → st' = .failed)
        | .error f => ∃ u ∈ us, u.leaf.check.kind = .operation ∧ u.leaf.name = f.check ∧
            u.answer = .error f.detail := by
  intro scope plan s
  have hplan : (scope.plan Specimen.book .update "title" Specimen.retitling Specimen.opened).1 =
      .ok plan := plan_of_unobstructed _ _ _ _ _ _ (by decide)
  have hopen : Specimen.opened.Opened scope.request := Nat.zero_lt_one
  have hpreview : (plan.preview.evaluate Specimen.opened).result = .ok .failed := by decide
  exact ⟨hpreview, commit_of_preview hplan hopen hpreview (Session.Remembers.refl _ _)⟩

end RequestScope

end AccessRules
