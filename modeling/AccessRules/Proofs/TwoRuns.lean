/-
# Two runs of one tree

A tree may be evaluated twice: in two sessions, with answers remembered in one of them alone, or
for two decisions about different things.  An evaluation sees nothing of a session but the answers
to its leaves, and nothing at all of the conditions that the roots carry.  So as long as the leaves
get the same answers, the two runs stop at the same places, end in the same way and leave the same
statuses behind.

* `Tree.mapConditions`: a tree that is about something else;
* `Evaluation.InStep`: two runs with one outcome, whose states are related;
* `evaluateWith_inStep`: leaves that get the same answers keep two runs in step.
-/
import AccessRules.Proofs.Evaluation

namespace AccessRules

/-! ## 1. Trees about something else -/

namespace Tree

/-- Puts other conditions in the place of those that a tree carries. -/
def mapConditions (g : Condition → Condition) : Tree → Tree
  | check leaf st => check leaf st
  | constant passed label st => constant passed label st
  | deferred name st => deferred name st
  | and l r st => and (l.mapConditions g) (r.mapConditions g) st
  | or l r st => or (l.mapConditions g) (r.mapConditions g) st
  | not c st => not (c.mapConditions g) st
  | anyField c f e st => anyField (g c) (f.mapConditions g) (e.mapConditions g) st
  | fieldRule c r st => fieldRule (g c) (r.mapConditions g) st
  | entityRule c r st => entityRule (g c) (r.mapConditions g) st
  | unrestricted c st => unrestricted (g c) st

variable (g : Condition → Condition)

@[simp] theorem status_mapConditions (t : Tree) : (t.mapConditions g).status = t.status := by
  cases t <;> rfl

@[simp] theorem mapConditions_id (t : Tree) : t.mapConditions id = t := by
  induction t with
  | check | constant | deferred | unrestricted => rfl
  | and l r st ihl ihr | or l r st ihl ihr => rw [mapConditions, ihl, ihr]
  | not c st ih => rw [mapConditions, ih]
  | anyField c f e st ihf ihe => rw [mapConditions, ihf, ihe, id]
  | fieldRule c r st ih | entityRule c r st ih => rw [mapConditions, ih, id]

end Tree

/-! ## 2. Runs in step -/

/-- Two runs that end in the same way and leave the same statuses behind, in related states.  The
trees differ in their conditions alone. -/
structure Evaluation.InStep {σ τ : Type} (g : Condition → Condition) (R : σ → τ → Prop)
    (e : Evaluation σ) (e' : Evaluation τ) : Prop where
  result : e'.result = e.result
  tree : e'.tree = e.tree.mapConditions g
  state : R e.state e'.state

section InStep

variable {σ τ : Type} {g : Condition → Condition} {R : σ → τ → Prop}

namespace Evaluation

theorem InStep.asked (leaf : Leaf) {out : Answer × σ} {out' : Answer × τ}
    (hanswer : out'.1 = out.1) (hstate : R out.2 out'.2) :
    (asked leaf out).InStep g R (asked leaf out') := by
  cases h : out.1 with
  | error detail =>
    rw [asked_of_error leaf h, asked_of_error leaf (hanswer.trans h)]
    exact ⟨rfl, rfl, hstate⟩
  | ok b =>
    rw [asked_of_ok leaf h, asked_of_ok leaf (hanswer.trans h)]
    exact ⟨rfl, rfl, hstate⟩

theorem InStep.single {node node' : Tree → Status → Tree} (f : Status → Status)
    (hnode : ∀ c st, (node c st).mapConditions g = node' (c.mapConditions g) st)
    {c : Evaluation σ} {c' : Evaluation τ} (h : c.InStep g R c') :
    (single node f c).InStep g R (single node' f c') := by
  cases hc : c.result with
  | error e =>
    rw [single_of_error node f hc, single_of_error node' f (h.result.trans hc)]
    exact ⟨rfl, by rw [stopped, stopped, hnode, h.tree], h.state⟩
  | ok a =>
    rw [single_of_ok node f hc, single_of_ok node' f (h.result.trans hc)]
    exact ⟨rfl, by rw [settled, settled, hnode, h.tree], h.state⟩

theorem InStep.pair {node node' : Tree → Tree → Status → Tree} (stop : Status)
    (join : Status → Status → Status)
    (hnode : ∀ l r st, (node l r st).mapConditions g =
      node' (l.mapConditions g) (r.mapConditions g) st)
    {left : Evaluation σ} {left' : Evaluation τ} (hl : left.InStep g R left') (r : Tree)
    {resume : σ → Evaluation σ} {resume' : τ → Evaluation τ}
    (hr : ∀ s s', R s s' → (resume s).InStep g R (resume' s')) :
    (pair node stop join left r resume).InStep g R
      (pair node' stop join left' (r.mapConditions g) resume') := by
  cases ha : left.result with
  | error e =>
    rw [pair_of_error node stop join r resume ha,
      pair_of_error node' stop join _ resume' (hl.result.trans ha)]
    exact ⟨rfl, by rw [stopped, stopped, hnode, hl.tree], hl.state⟩
  | ok a =>
    rcases eq_or_ne a stop with rfl | hne
    · rw [pair_of_stop node a join r resume ha,
        pair_of_stop node' a join _ resume' (hl.result.trans ha)]
      exact ⟨rfl, by rw [settled, settled, hnode, hl.tree], hl.state⟩
    · rw [pair_of_ok node stop join r resume ha hne,
        pair_of_ok node' stop join _ resume' (hl.result.trans ha) hne]
      refine .single (join a) (fun c st => ?_) (hr _ _ hl.state)
      rw [hnode, hl.tree]

end Evaluation

namespace Tree

variable {ask : Leaf → σ → Answer × σ} {ask' : Leaf → τ → Answer × τ}

/-- **Leaves that get the same answers keep two runs in step**, wherever the runs stop and whatever
has been evaluated before. -/
theorem evaluateWith_inStep (t : Tree)
    (hask : ∀ l ∈ t.leaves, ∀ s s', R s s' →
      (ask' l s').1 = (ask l s).1 ∧ R (ask l s).2 (ask' l s').2) :
    ∀ s s', R s s' →
      (t.evaluateWith ask s).InStep g R ((t.mapConditions g).evaluateWith ask' s') := by
  -- a settled node is left alone in both runs
  have settled : ∀ t : Tree, t.status ≠ .unevaluated → ∀ s s', R s s' →
      (t.evaluateWith ask s).InStep g R ((t.mapConditions g).evaluateWith ask' s') := by
    intro t ht s s' hs
    have ht' : (t.mapConditions g).status ≠ .unevaluated := by rwa [status_mapConditions]
    rw [evaluateWith_of_settled ht, evaluateWith_of_settled ht']
    exact ⟨by rw [status_mapConditions], rfl, hs⟩
  induction t with
  | check leaf st =>
    rcases eq_or_ne st .unevaluated with rfl | h
    · intro s s' hs
      obtain ⟨hanswer, hstate⟩ := hask leaf List.mem_cons_self s s' hs
      exact .asked leaf hanswer hstate
    · exact settled _ h
  | constant passed label st | deferred name st | unrestricted condition st =>
    rcases eq_or_ne st .unevaluated with rfl | h
    · exact fun _ _ hs => ⟨rfl, rfl, hs⟩
    · exact settled _ h
  | and l r st ihl ihr =>
    rcases eq_or_ne st .unevaluated with rfl | h
    · obtain ⟨hl, hr⟩ := binary_and.forall_leaves.mp hask
      exact fun s s' hs => .pair .failed Status.and (fun _ _ _ => rfl) (ihl hl s s' hs) r (ihr hr)
    · exact settled _ h
  | or l r st ihl ihr =>
    rcases eq_or_ne st .unevaluated with rfl | h
    · obtain ⟨hl, hr⟩ := binary_or.forall_leaves.mp hask
      exact fun s s' hs => .pair .passed Status.or (fun _ _ _ => rfl) (ihl hl s s' hs) r (ihr hr)
    · exact settled _ h
  | not c st ih =>
    rcases eq_or_ne st .unevaluated with rfl | h
    · exact fun s s' hs => .single Status.negate (fun _ _ => rfl) (ih hask s s' hs)
    · exact settled _ h
  | anyField condition f e st ihf ihe =>
    rcases eq_or_ne st .unevaluated with rfl | h
    · obtain ⟨hf, he⟩ := (binary_anyField condition).forall_leaves.mp hask
      exact fun s s' hs => .pair .passed Status.or (fun _ _ _ => rfl) (ihf hf s s' hs) e (ihe he)
    · exact settled _ h
  | fieldRule condition r st ih | entityRule condition r st ih =>
    rcases eq_or_ne st .unevaluated with rfl | h
    · exact fun s s' hs => .single id (fun _ _ => rfl) (ih hask s s' hs)
    · exact settled _ h

end Tree

end InStep

end AccessRules
