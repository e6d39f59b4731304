/-
# A preview is blind to the change

A decision about a change is previewed before the change is staged, and the preview must not depend
on it.  The change reaches a plan in two places, the condition at the root and the situation of the
commit, and of the two the preview has the first alone.  So the previews of two changes are one tree
up to the conditions that they carry (`tree_preview_eq`), and an evaluation does not look at those.

* `Session.Agrees`: two sessions that a request cannot tell apart;
* `Agrees.plan`, `Agrees.ask`: planning and asking keep two sessions so;
* `Run.Proper`: what a run was shown, by the kind of its check and the phase.
-/
import AccessRules.Proofs.TwoRuns
import AccessRules.Proofs.Planning

namespace AccessRules

/-! ## 1. The previews of two changes -/

/-- The same question about another change. -/
def Condition.withChange (c : Condition) (change : Option Change) : Condition :=
  { c with change := change }

section MapConditions

variable {g : Condition → Condition}

/-- The tree of a rule carries no condition of its own. -/
theorem Formula.mapConditions_tree {α : Type} {leaf : α → Tree} {φ : Formula α}
    (h : ∀ a ∈ φ.leaves, (leaf a).mapConditions g = leaf a) :
    (φ.tree leaf).mapConditions g = φ.tree leaf := by
  induction φ with
  | leaf a => exact h a (List.mem_singleton_self a)
  | and l r ihl ihr | or l r ihl ihr =>
    obtain ⟨hl, hr⟩ := List.forall_mem_append.mp h
    rw [tree, Tree.mapConditions, ihl hl, ihr hr]
  | not c ih => rw [tree, Tree.mapConditions, ih h]

theorem Tree.mapConditions_anyOf {ts : List Tree} (h : ∀ t ∈ ts, t.mapConditions g = t) :
    (anyOf ts).mapConditions g = anyOf ts := by
  have hmap : ts.map (·.mapConditions g) = ts := (List.map_congr_left h).trans (List.map_id ts)
  exact (map_anyOf (·.mapConditions g) (fun _ _ => rfl) rfl ts).trans (congrArg anyOf hmap)

theorem BoundRule.mapConditions_tree (p : Phase) (situation : Situation) (rule : BoundRule) :
    (rule.tree p situation).mapConditions g = rule.tree p situation := by
  refine Formula.mapConditions_tree fun c _ => ?_
  exact Phase.leaf_related (M := fun t t' => t.mapConditions g = t') rfl rfl

end MapConditions

namespace RequestScope

variable (scope : RequestScope) (resource : Resource) (category : Category)
  (field : Option String)

/-- **The previews of two changes are one tree**, up to the condition at the root. -/
theorem tree_preview_eq (c₁ c₂ : Option Change) :
    scope.tree resource category field c₂ .preview =
      (scope.tree resource category field c₁ .preview).mapConditions (·.withChange c₂) := by
  cases field with
  | none =>
    simp only [tree, wholeTree, Tree.forResource, Tree.mapConditions]
    rw [Tree.mapConditions_anyOf]
    · cases scope.dictionary.rule? resource.typeName category none with
      | none => rfl
      | some rule =>
        simp only [Option.map_some, Option.getD_some, BoundRule.mapConditions_tree]
        rfl
    · intro t ht
      obtain ⟨rule, -, rfl⟩ := List.mem_map.mp ht
      exact rule.mapConditions_tree _ _
  | some field =>
    simp only [tree, fieldTree]
    cases scope.dictionary.rule? resource.typeName category (some field) with
    | some rule =>
      simp only [Option.map_some, Tree.forField, Tree.mapConditions, BoundRule.mapConditions_tree]
      rfl
    | none =>
      cases scope.dictionary.rule? resource.typeName category none with
      | some rule =>
        simp only [Option.map_some, Option.map_none, Tree.forField, Tree.mapConditions,
          BoundRule.mapConditions_tree]
        rfl
      | none => rfl

end RequestScope

/-! ## 2. Sessions that a request cannot tell apart -/

namespace Session

/-- Two sessions in which a request keeps the same answers and the same checks ran, in one order. -/
structure Agrees (n : Nat) (s s' : Session) : Prop where
  requests : s'.requests[n]? = s.requests[n]?
  runs : s'.runs = s.runs

variable {n : Nat} {s s' t t' : Session}

theorem Agrees.answers (h : Agrees n s s') : s'.answers n = s.answers n := by
  rw [Session.answers, h.requests, Session.answers]

theorem Agrees.known (h : Agrees n s s') (q : Question) : s'.known n q = s.known n q := by
  rw [Session.known, h.answers, Session.known]

theorem Agrees.of_quiet (h : Agrees n s s') (hs : s.Quiet t) (hs' : s'.Quiet t') :
    Agrees n t t' where
  requests := by rw [hs'.requests, hs.requests, h.requests]
  runs := by rw [Session.runs, hs'.lookUps, ← Session.runs, h.runs, Session.runs, ← hs.lookUps,
    ← Session.runs]

theorem Agrees.plan (h : Agrees n s s') (scope : RequestScope) (resource : Resource)
    (category : Category) (field : Option String) (c₁ c₂ : Option Change) :
    Agrees n (scope.plan resource category field c₁ s).2
      (scope.plan resource category field c₂ s').2 :=
  h.of_quiet (scope.plan_quiet resource category field c₁ s)
    (scope.plan_quiet resource category field c₂ s')

/-- **Asking a leaf keeps two sessions in agreement**, and it gets one answer in both. -/
theorem Agrees.ask {l : Leaf} (h : Agrees l.situation.request s s') :
    (s'.ask l).1 = (s.ask l).1 ∧ Agrees l.situation.request (s.ask l).2 (s'.ask l).2 := by
  have hanswer : (s'.ask l).1 = (s.ask l).1 := by
    rw [ask_fst, ask_fst, h.known, h.runs]
  refine ⟨hanswer, ?_, ?_⟩
  · rw [requests_ask, requests_ask, h.known, h.answers, h.runs, List.getElem?_set_self',
      List.getElem?_set_self', h.requests]
  · rw [runs_ask, runs_ask, h.known, h.runs, hanswer]

end Session

/-! ## 3. What runs are shown -/

/-- A run in one phase of a decision about a change: a user check is shown no change; an operation
check runs in the commit alone and is shown the change itself. -/
def Run.Proper (d : Dictionary) (p : Phase) (change : Option Change) (x : Run) : Prop :=
  ∃ c, d.implementation? x.check = some c ∧
    match c.kind with
    | .user => x.context.change = none
    | .operation => p = .commit ∧ x.context.change = change

/-- The check of a leaf that fits is shown what it should be. -/
theorem Leaf.Fits.proper {l : Leaf} {scope : RequestScope} {condition : Condition} {p : Phase}
    (h : l.Fits scope condition p) (answer : Answer) :
    Run.Proper scope.dictionary p condition.change ⟨l.check.id, l.context, answer⟩ := by
  refine ⟨l.check, Dictionary.implementation?_of_check? h.bound, ?_⟩
  cases hkind : l.check.kind with
  | user => simp only [Leaf.context, Check.visibleChange, hkind]
  | operation =>
    cases p with
    | preview => exact absurd ((h.user rfl).symm.trans hkind) (by decide)
    | commit =>
      refine ⟨rfl, ?_⟩
      simp only [Leaf.context, Check.visibleChange, hkind, h.situation, RequestScope.situation]

namespace Tree

/-- Evaluates a tree once and then `k` times more. -/
def evaluateAgain : Nat → Tree → Session → Evaluation Session
  | 0, t, s => t.evaluate s
  | k + 1, t, s => evaluateAgain k (t.evaluate s).tree (t.evaluate s).state

/-- However often a tree is evaluated, nothing but its leaves is asked. -/
theorem adds_evaluateAgain {P : Leaf → Prop} (k : Nat) {t : Tree} (h : ∀ l ∈ t.leaves, P l)
    (s : Session) : Session.Adds (fun u => P u.leaf) s (t.evaluateAgain k s).state := by
  have hfirst : Session.Adds (fun u => P u.leaf) s (t.evaluate s).state :=
    evaluateWith_related (Session.Adds.refl _) Session.Adds.trans t
      (fun l hl _ => Session.adds_ask (h l hl)) s
  induction k generalizing t s with
  | zero => exact hfirst
  | succ k ih =>
    have hleaves : ∀ l ∈ (t.evaluate s).tree.leaves, P l := by
      rw [evaluate, leaves_evaluateWith]
      exact h
    refine hfirst.trans (ih hleaves _ ?_)
    exact evaluateWith_related (Session.Adds.refl _) Session.Adds.trans _
      (fun l hl _ => Session.adds_ask (hleaves l hl)) _

/-- However often two trees are evaluated that differ in their conditions alone, in sessions that
agree, they stay in step. -/
theorem evaluateAgain_inStep {n : Nat} (g : Condition → Condition) (k : Nat) {t : Tree}
    (h : ∀ l ∈ t.leaves, l.situation.request = n) {s s' : Session} (hs : Session.Agrees n s s') :
    (t.evaluateAgain k s).InStep g (Session.Agrees n) ((t.mapConditions g).evaluateAgain k s') := by
  have hfirst : ∀ {t : Tree}, (∀ l ∈ t.leaves, l.situation.request = n) → ∀ {s s' : Session},
      Session.Agrees n s s' →
        (t.evaluate s).InStep g (Session.Agrees n) ((t.mapConditions g).evaluate s') := by
    intro t h s s' hs
    refine evaluateWith_inStep t (fun l hl s s' hs => ?_) s s' hs
    rw [← h l hl] at hs ⊢
    exact hs.ask
  induction k generalizing t s s' with
  | zero => exact hfirst h hs
  | succ k ih =>
    have hstep := hfirst h hs
    have hleaves : ∀ l ∈ (t.evaluate s).tree.leaves, l.situation.request = n := by
      rw [evaluate, leaves_evaluateWith]
      exact h
    rw [evaluateAgain, evaluateAgain, hstep.tree]
    exact ih hleaves hstep.state

end Tree

/-! ## 4. Two changes -/

namespace RequestScope

variable (scope : RequestScope) (resource : Resource) (category : Category)
  (field : Option String)

/-- Whatever the tree of a phase runs, it shows it what it should. -/
theorem runs_proper (change : Option Change) (p : Phase) (k : Nat) (s : Session) :
    ∃ rs, ((scope.tree resource category field change p).evaluateAgain k s).state.runs =
        rs ++ s.runs ∧ ∀ x ∈ rs, Run.Proper scope.dictionary p change x := by
  obtain ⟨rs, hruns, hrs⟩ := (Tree.adds_evaluateAgain k fits_of_mem_tree s).runs
  refine ⟨rs, hruns, fun x hx => ?_⟩
  obtain ⟨u, hu, rfl⟩ := hrs x hx
  exact hu.proper u.answer

/-- **Nothing before the commit depends on the change.**  From sessions that agree, the plans of two
changes fail alike or have previews that cannot be told apart, however often they are evaluated: one
outcome, one status at every node, the same runs, the same answers and counters.  In either phase
user checks are shown no change, and the operation checks of the commit are shown the given one. -/
theorem preview_blind (c₁ c₂ : Option Change) {s s' : Session}
    (h : Session.Agrees scope.request s s') :
    let planned₁ := scope.plan resource category field c₁ s
    let planned₂ := scope.plan resource category field c₂ s'
    (∀ f, planned₁.1 = .error f ↔ planned₂.1 = .error f) ∧
    ∀ plan₁ plan₂, planned₁.1 = .ok plan₁ → planned₂.1 = .ok plan₂ →
      (∀ k, (plan₁.preview.evaluateAgain k planned₁.2).InStep (·.withChange c₂)
        (Session.Agrees scope.request) (plan₂.preview.evaluateAgain k planned₂.2)) ∧
      ∀ k t,
        (∃ rs, (plan₁.preview.evaluateAgain k t).state.runs = rs ++ t.runs ∧
          ∀ x ∈ rs, Run.Proper scope.dictionary .preview c₁ x) ∧
        ∃ rs, (plan₁.commit.evaluateAgain k t).state.runs = rs ++ t.runs ∧
          ∀ x ∈ rs, Run.Proper scope.dictionary .commit c₁ x := by
  intro planned₁ planned₂
  refine ⟨fun f => ?_, fun plan₁ plan₂ hplan₁ hplan₂ => ?_⟩
  · simp only [planned₁, planned₂, plan_fst]
    cases scope.dictionary.obstacle? resource.typeName category field with
    | none => exact ⟨nofun, nofun⟩
    | some f' => exact Iff.rfl
  · obtain rfl := plan_eq_ok hplan₁
    obtain rfl := plan_eq_ok hplan₂
    refine ⟨fun k => ?_, fun k t => ⟨scope.runs_proper .., scope.runs_proper ..⟩⟩
    dsimp only
    rw [scope.tree_preview_eq resource category field c₁ c₂]
    refine Tree.evaluateAgain_inStep _ k (fun l hl => ?_) (h.plan ..)
    rw [(fits_of_mem_tree l hl).situation]
    rfl

open Specimen in
/-- An owner is refused another title, whatever it is, before anybody looks at it. -/
theorem preview_blind_retitling :
    let scope := Specimen.scope true
    let planned₁ := scope.plan book .update "title" retitling opened
    let planned₂ := scope.plan book .update "title" none (opened.report (.committing 0))
    ∃ plan₁ plan₂, planned₁.1 = .ok plan₁ ∧ planned₂.1 = .ok plan₂ ∧
      (plan₁.preview.evaluate planned₁.2).result = .ok .failed ∧
      (plan₂.preview.evaluate planned₂.2).result = .ok .failed ∧
      (plan₂.preview.evaluate planned₂.2).state.runs =
        (plan₁.preview.evaluate planned₁.2).state.runs := by
  intro scope planned₁ planned₂
  have hplan₁ := scope.plan_of_unobstructed book .update "title" retitling opened (by decide)
  have hplan₂ := scope.plan_of_unobstructed book .update "title" none
    (opened.report (.committing 0)) (by decide)
  have hagrees : Session.Agrees scope.request opened (opened.report (.committing 0)) := ⟨rfl, rfl⟩
  obtain ⟨hblind, -⟩ :=
    (scope.preview_blind book .update "title" retitling none hagrees).2 _ _ hplan₁ hplan₂
  have hstep := hblind 0
  have hfailed : (Tree.evaluate (scope.tree book .update "title" retitling .preview)
      planned₁.2).result = .ok .failed := by decide
  exact ⟨_, _, hplan₁, hplan₂, hfailed, hstep.result.trans hfailed, hstep.state.runs⟩

end RequestScope

end AccessRules
