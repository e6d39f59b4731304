/-
# What the label of a check says

A rendered check shows its status, and a tree is evaluated as often as one likes, in part or as a
whole, up to errors.  This module says what such a label stands for.  `Tree.visits` lists, leaf by
leaf, what one evaluation gets: the answer of the leaf, or nothing where the leaf is not reached.
That is the account of the session read by places (`visited_evaluate`): the leaves that were looked
up, in order, are those that were visited, with the same answers.

A visit that ends with a yes or a no writes it at its leaf, and nothing else writes there.  So over
any number of evaluations a leaf that was fresh is labelled by the one answer that it got, or says
that it was not evaluated (`label_after`).
-/
import AccessRules.Proofs.Ledger

namespace AccessRules

/-! ## 1. Visits -/

/-- Whether an evaluation goes on to the right child of a node that `stop` settles. -/
def Evaluation.goesOn {σ : Type} (stop : Status) (left : Evaluation σ) : Bool :=
  match left.result with
  | .ok a => a ≠ stop
  | .error _ => false

namespace Tree

/-- No visit to any leaf. -/
def unvisited (t : Tree) : List (Option Answer) := t.marks.map fun _ => none

/-- The visits to the leaves of two children, the right one of which is evaluated if the left one
does not settle the node. -/
def visitsBoth (stop : Status) (left : Evaluation Session) (vs : List (Option Answer)) (r : Tree)
    (resume : Session → List (Option Answer)) : List (Option Answer) :=
  vs ++ if left.goesOn stop then resume left.state else r.unvisited

/-- What an evaluation gets at every leaf, from left to right: an answer, or nothing at a leaf that
it does not reach. -/
def visits : Tree → Session → List (Option Answer)
  | check leaf .unevaluated, s => [some (s.ask leaf).1]
  | and l r .unevaluated, s => visitsBoth .failed (l.evaluate s) (l.visits s) r r.visits
  | or l r .unevaluated, s => visitsBoth .passed (l.evaluate s) (l.visits s) r r.visits
  | not c .unevaluated, s => c.visits s
  | anyField _ f e .unevaluated, s => visitsBoth .passed (f.evaluate s) (f.visits s) e e.visits
  | fieldRule _ r .unevaluated, s => r.visits s
  | entityRule _ r .unevaluated, s => r.visits s
  | t, _ => t.unvisited

/-- A settled node is not entered. -/
theorem visits_of_settled {t : Tree} (h : t.status ≠ .unevaluated) (s : Session) :
    t.visits s = t.unvisited := by
  cases t with
  | _ => rename_i st; cases st <;> first | rfl | exact absurd rfl h

theorem visits_ground {node : Status → Tree} {a : Status} (h : Ground node a) (s : Session) :
    (node .unevaluated).visits s = (node .unevaluated).unvisited := by
  cases h <;> rfl

theorem visits_relay (k : Relay) (c : Tree) (s : Session) :
    (k.node c .unevaluated).visits s = c.visits s := by
  cases k <;> rfl

theorem visits_junction (j : Junction) (l r : Tree) (s : Session) :
    (j.node l r .unevaluated).visits s =
      visitsBoth j.stop (l.evaluate s) (l.visits s) r r.visits := by
  cases j <;> rfl

/-- The leaves that were visited, in order, each with its answer. -/
def reached (leaves : List Leaf) (vs : List (Option Answer)) : List (Leaf × Answer) :=
  (leaves.zip vs).filterMap fun x => x.2.map (x.1, ·)

/-- The mark of a leaf after a visit: a yes or a no is written there. -/
def remark (m : Leaf × Status) : Option Answer → Leaf × Status
  | some (.ok b) => (m.1, .ofBool b)
  | _ => m

theorem reached_append {ls ls' : List Leaf} {vs vs' : List (Option Answer)}
    (h : ls.length = vs.length) :
    reached (ls ++ ls') (vs ++ vs') = reached ls vs ++ reached ls' vs' := by
  rw [reached, List.zip_append h, List.filterMap_append, reached, reached]

theorem length_leaves (t : Tree) : t.leaves.length = t.marks.length := List.length_map _

theorem length_unvisited (t : Tree) : t.unvisited.length = t.marks.length := List.length_map _

theorem reached_unvisited (t : Tree) : reached t.leaves t.unvisited = [] := by
  rw [reached, leaves, unvisited, List.zip_map', List.filterMap_map]
  exact List.filterMap_eq_nil_iff.mpr fun _ _ => rfl

theorem zipWith_remark_unvisited (t : Tree) : t.marks.zipWith remark t.unvisited = t.marks := by
  rw [unvisited, List.zipWith_map_right, List.zipWith_self]
  exact List.map_id _

/-- The visits `vs` of the evaluation `e` of a tree from a session. -/
structure Visited (t : Tree) (s : Session) (e : Evaluation Session)
    (vs : List (Option Answer)) : Prop where
  length : vs.length = t.marks.length
  /-- What was looked up is what was visited. -/
  lookUps : ∃ us : List LookUp, e.state.lookUps = us.reverse ++ s.lookUps ∧
    us.map (fun u => (u.leaf, u.answer)) = reached t.leaves vs
  /-- A visit that gets an answer writes it, and nothing else is written. -/
  marks : e.tree.marks = t.marks.zipWith remark vs
  /-- No leaf is visited that has its status. -/
  fresh : ∀ (i : Nat) (m : Leaf × Status) (a : Answer),
    t.marks[i]? = some m → vs[i]? = some (some a) → m.2 = .unevaluated

namespace Visited

variable {t : Tree} {s : Session} {e : Evaluation Session} {vs : List (Option Answer)}

/-- Nothing is visited. -/
theorem none (hstate : e.state = s) (hmarks : e.tree.marks = t.marks) :
    Visited t s e t.unvisited where
  length := t.length_unvisited
  lookUps := ⟨[], by rw [hstate]; rfl, t.reached_unvisited.symm⟩
  marks := by rw [hmarks, zipWith_remark_unvisited]
  fresh i m a _ hv := by
    rw [unvisited, List.getElem?_map, Option.map_eq_some_iff] at hv
    obtain ⟨_, -, hv⟩ := hv
    cases hv

/-- A leaf is asked. -/
theorem asked (leaf : Leaf) (s : Session) :
    Visited (.ofLeaf leaf) s (.asked leaf (s.ask leaf)) [some (s.ask leaf).1] where
  length := rfl
  lookUps := by
    have hentered := Session.lookUps_ask leaf s
    rw [← Evaluation.asked_state leaf] at hentered
    exact ⟨[_], hentered, rfl⟩
  marks := by
    cases ha : (s.ask leaf).1 with
    | error detail => rw [Evaluation.asked_of_error leaf ha]; rfl
    | ok b => rw [Evaluation.asked_of_ok leaf ha]; rfl
  fresh i m a hm _ := by
    have hmem := List.mem_of_getElem? hm
    rw [List.mem_singleton.mp hmem]

/-- A node over one child visits what the child does. -/
theorem single {node : Tree → Status → Tree} (f : Status → Status) (hnode : Unary node)
    (h : Visited t s e vs) : Visited (node t .unevaluated) s (.single node f e) vs where
  length := by rw [hnode.marks, h.length]
  lookUps := by
    rw [Evaluation.single_state, hnode.leaves]
    exact h.lookUps
  marks := by
    obtain ⟨st, hst⟩ := Evaluation.exists_single_tree node f e
    rw [hst, hnode.marks, hnode.marks, h.marks]
  fresh i m a hm hv := h.fresh i m a (hnode.marks t _ ▸ hm) hv

/-- The places of a pair are those of its left and of its right child. -/
theorem fresh_append {ms ms' : List (Leaf × Status)} {vs vs' : List (Option Answer)}
    (hlength : vs.length = ms.length)
    (h : ∀ (i : Nat) (m : Leaf × Status) (a : Answer),
      ms[i]? = some m → vs[i]? = some (some a) → m.2 = .unevaluated)
    (h' : ∀ (i : Nat) (m : Leaf × Status) (a : Answer),
      ms'[i]? = some m → vs'[i]? = some (some a) → m.2 = .unevaluated) :
    ∀ (i : Nat) (m : Leaf × Status) (a : Answer),
      (ms ++ ms')[i]? = some m → (vs ++ vs')[i]? = some (some a) → m.2 = .unevaluated := by
  intro i m a hm hv
  rcases Nat.lt_or_ge i ms.length with hi | hi
  · rw [List.getElem?_append_left hi] at hm
    rw [List.getElem?_append_left (hlength ▸ hi)] at hv
    exact h i m a hm hv
  · rw [List.getElem?_append_right hi] at hm
    rw [List.getElem?_append_right (hlength ▸ hi), hlength] at hv
    exact h' _ m a hm hv

/-- A node over two children visits what the left one does, and then what the right one does unless
the left one settles the node. -/
theorem pair {node : Tree → Tree → Status → Tree} {stop : Status}
    (join : Status → Status → Status) {l r : Tree} {left : Evaluation Session}
    {resume : Session → Evaluation Session} {visits : Session → List (Option Answer)}
    (hnode : Binary node) (hl : Visited l s left vs)
    (hr : ∀ s', Visited r s' (resume s') (visits s')) :
    Visited (node l r .unevaluated) s (.pair node stop join left r resume)
      (visitsBoth stop left vs r visits) := by
  have hleaves : l.leaves.length = vs.length := l.length_leaves.trans hl.length.symm
  -- both children, the right one after an evaluation that may be none
  have both : ∀ {e : Evaluation Session} {right : Evaluation Session} {us : List (Option Answer)},
      Visited r left.state right us → e.state = right.state →
      e.tree.marks = left.tree.marks ++ right.tree.marks →
      Visited (node l r .unevaluated) s e (vs ++ us) := by
    intro e right us hr hstate hmarks
    obtain ⟨ul, hul, hreachedl⟩ := hl.lookUps
    obtain ⟨ur, hur, hreachedr⟩ := hr.lookUps
    refine ⟨?_, ⟨ul ++ ur, ?_, ?_⟩, ?_, ?_⟩
    · rw [hnode.marks, List.length_append, List.length_append, hl.length, hr.length]
    · rw [hstate, hur, hul, List.reverse_append, List.append_assoc]
    · rw [hnode.leaves, reached_append hleaves, List.map_append, hreachedl, hreachedr]
    · rw [hmarks, hnode.marks, hl.marks, hr.marks, List.zipWith_append hl.length.symm]
    · rw [hnode.marks]
      exact fresh_append hl.length hl.fresh hr.fresh
  -- the left child alone
  have leftOnly : ∀ {e : Evaluation Session}, e.state = left.state →
      e.tree.marks = left.tree.marks ++ r.marks →
      Visited (node l r .unevaluated) s e (vs ++ r.unvisited) := by
    intro e hstate hmarks
    have hnone : Visited r left.state ⟨e.result, r, left.state⟩ r.unvisited := none rfl rfl
    exact both hnone hstate hmarks
  rw [visitsBoth, Evaluation.goesOn]
  cases ha : left.result with
  | error f =>
    rw [Evaluation.pair_of_error node stop join r resume ha]
    exact leftOnly rfl (hnode.marks _ _ _)
  | ok a =>
    rcases eq_or_ne a stop with rfl | hne
    · rw [Evaluation.pair_of_stop node a join r resume ha, if_neg (by simp)]
      exact leftOnly rfl (hnode.marks _ _ _)
    · rw [Evaluation.pair_of_ok node stop join r resume ha hne, if_pos (by simpa using hne)]
      obtain ⟨st, hst⟩ :=
        Evaluation.exists_single_tree (node left.tree) (join a) (resume left.state)
      refine both (hr left.state) (Evaluation.single_state _ _ _) ?_
      rw [hst, hnode.marks]

end Visited

/-- **The visits of an evaluation are its account**, read by places. -/
theorem visited_evaluate (t : Tree) : ∀ s, Visited t s (t.evaluate s) (t.visits s) := by
  induction t using form_induction with
  | settled t ht =>
    intro s
    rw [evaluate_of_settled ht, visits_of_settled ht]
    exact .none rfl rfl
  | leaf l => exact fun s => .asked l s
  | ground node a h =>
    intro s
    rw [h.evaluate_node, visits_ground h]
    exact .none rfl (by rw [Evaluation.settled, h.marks, h.marks])
  | relay k c ih =>
    intro s
    rw [k.evaluate_node, visits_relay]
    exact (ih s).single k.derive k.unary
  | junction j l r ihl ihr =>
    intro s
    rw [j.evaluate_node, visits_junction]
    exact .pair j.join j.binary (ihl s) ihr

/-! ## 2. One leaf over many evaluations -/

/-- A tree after some evaluations, each from a session of its own. -/
def after (t : Tree) : List Session → Tree
  | [] => t
  | s :: ss => (t.evaluate s).tree.after ss

/-- Whether one of these evaluations reaches the leaf at a place and its check answers `b`. -/
def AnsweredAt (t : Tree) (i : Nat) (b : Bool) : List Session → Prop
  | [] => False
  | s :: ss => (t.visits s)[i]? = some (some (.ok b)) ∨ (t.evaluate s).tree.AnsweredAt i b ss

variable {t : Tree} {i : Nat} {l : Leaf} {st : Status}

/-- **One evaluation writes an answer at a leaf, or leaves it as it is.** -/
theorem mark_evaluate (h : t.marks[i]? = some (l, st)) (s : Session) :
    ((t.evaluate s).tree.marks[i]? = some (l, st) ∧
      ∀ b, (t.visits s)[i]? ≠ some (some (.ok b))) ∨
    (st = .unevaluated ∧ ∃ b, (t.visits s)[i]? = some (some (.ok b)) ∧
      (t.evaluate s).tree.marks[i]? = some (l, .ofBool b)) := by
  have hvisited := visited_evaluate t s
  obtain ⟨hi, -⟩ := List.getElem?_eq_some_iff.mp h
  obtain ⟨v, hv⟩ : ∃ v, (t.visits s)[i]? = some v :=
    ⟨_, List.getElem?_eq_getElem (hvisited.length ▸ hi)⟩
  have hmark : (t.evaluate s).tree.marks[i]? = some (remark (l, st) v) := by
    rw [hvisited.marks, List.getElem?_zipWith, h, hv]
  rw [hmark, hv]
  cases v with
  | none => exact .inl ⟨rfl, fun b hb => nomatch hb⟩
  | some answer =>
    cases answer with
    | error detail => exact .inl ⟨rfl, fun b hb => nomatch hb⟩
    | ok b => exact .inr ⟨hvisited.fresh i _ _ h hv, b, rfl, rfl⟩

/-- **A leaf is labelled by the one answer that it got**, or keeps the label that it had. -/
theorem label_after (h : t.marks[i]? = some (l, st)) (ss : List Session) :
    ∃ st', (t.after ss).marks[i]? = some (l, st') ∧
      ((st' = st ∧ ∀ b, ¬ t.AnsweredAt i b ss) ∨
        (st = .unevaluated ∧ ∃ b, st' = .ofBool b ∧ ∀ b', t.AnsweredAt i b' ss ↔ b' = b)) := by
  induction ss generalizing t st with
  | nil => exact ⟨st, h, .inl ⟨rfl, fun _ => id⟩⟩
  | cons s ss ih =>
    rcases mark_evaluate h s with ⟨hsame, hnone⟩ | ⟨hst, b, hb, hmark⟩
    · obtain ⟨st', hst', hlabel⟩ := ih hsame
      have hlater : ∀ b, t.AnsweredAt i b (s :: ss) ↔ (t.evaluate s).tree.AnsweredAt i b ss :=
        fun b => or_iff_right (hnone b)
      simp only [hlater]
      exact ⟨st', hst', hlabel⟩
    · obtain ⟨st', hst', ⟨rfl, hlater⟩ | ⟨hfresh, -⟩⟩ := ih hmark
      · refine ⟨_, hst', .inr ⟨hst, b, rfl, fun b' => ?_⟩⟩
        rw [AnsweredAt, or_iff_left (hlater b'), hb]
        exact ⟨fun h => by cases h; rfl, fun h => by rw [h]⟩
      · exact absurd hfresh (Status.ofBool_ne_unevaluated b)

/-- **In a tree that was made fresh a label is the answer of the check that was reached**, and a
leaf of which no check answered is shown as unevaluated. -/
theorem Fresh.label {p : Phase} (ht : Fresh p t) (hl : t.leaves[i]? = some l)
    (ss : List Session) : ∃ st, (t.after ss).marks[i]? = some (l, st) ∧
      (∀ b, st = .ofBool b ↔ t.AnsweredAt i b ss) ∧
      (st = .unevaluated ↔ ∀ b, ¬ t.AnsweredAt i b ss) := by
  rw [leaves, List.getElem?_map, Option.map_eq_some_iff] at hl
  obtain ⟨m, hm, rfl⟩ := hl
  have hmark : t.marks[i]? = some (m.1, .unevaluated) := by
    rw [hm, ← ht.unevaluated m (List.mem_of_getElem? hm)]
  obtain ⟨st, hst, ⟨rfl, hnone⟩ | ⟨-, b, rfl, hb⟩⟩ := label_after hmark ss
  · refine ⟨_, hst, fun b => ⟨fun h => ?_, fun h => absurd h (hnone b)⟩, fun _ => hnone,
      fun _ => rfl⟩
    exact absurd h.symm (Status.ofBool_ne_unevaluated b)
  · refine ⟨_, hst, fun b' => ?_, fun h => absurd h (Status.ofBool_ne_unevaluated b),
      fun h => absurd ((hb b).mpr rfl) (h b)⟩
    rw [hb b', Status.ofBool_inj, eq_comm]

end Tree

end AccessRules
