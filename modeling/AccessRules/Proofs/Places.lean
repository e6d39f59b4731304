/-
# Places in a tree

A node is found from the root by the turns that lead to it.  An evaluation of the tree is made of
evaluations of its nodes, each called at most once and from a session of its own
(`Tree.entered?`).  What becomes of a node follows from its own evaluation alone:

* `node?_evaluate`: a node that was called is left as its evaluation leaves it, any other as it was;
* `node?_after_of_settled`: a node that has its status stays, whatever is evaluated;
* `exists_failsAt`: an error comes from one leaf; the nodes on the way to it are those whose
  evaluation ended with the error.
-/
import AccessRules.Proofs.Labels
import AccessRules.Proofs.ShortCircuit

namespace AccessRules

namespace Tree

/-! ## 1. The root -/

/-- The root keeps the status that its evaluation returns. -/
theorem status_of_evaluate_ok {t : Tree} {s : Session} {st : Status}
    (h : (t.evaluate s).result = .ok st) : (t.evaluate s).tree.status = st := by
  rw [evaluate] at h ⊢
  exact (evaluateWith_settles t s st h).1

/-- An error leaves the root unevaluated. -/
theorem status_of_evaluate_error {t : Tree} {s : Session} {f : CheckFailure}
    (h : (t.evaluate s).result = .error f) : (t.evaluate s).tree.status = .unevaluated := by
  cases t using form_induction with
  | settled t ht =>
    rw [evaluate_of_settled ht] at h
    cases h
  | leaf l =>
    rw [evaluate_ofLeaf] at h ⊢
    cases ha : (s.ask l).1 with
    | ok b =>
      rw [Evaluation.asked_of_ok l ha] at h
      cases h
    | error detail => rw [Evaluation.asked_of_error l ha]; rfl
  | ground node a hg =>
    rw [hg.evaluate_node] at h
    cases h
  | relay k c _ =>
    rw [k.evaluate_node] at h ⊢
    rw [(Evaluation.cases_of_single_error h).2]
    exact k.unary.status _ _
  | junction j l r _ _ =>
    rw [j.evaluate_node] at h ⊢
    rcases Evaluation.cases_of_pair_error _ _ _ _ _ h with ⟨-, heq⟩ | ⟨_, -, -, -, heq⟩
    · rw [heq]
      exact j.binary.status _ _ _
    · rw [heq]
      exact j.binary.status _ _ _

/-! ## 2. Children -/

/-- Which child: the first or only one, or the second one. -/
inductive Turn where
  | first
  | second
  deriving DecidableEq

/-- A child of a node. -/
def child? : Tree → Turn → Option Tree
  | and l _ _, .first | or l _ _, .first | anyField _ l _ _, .first => some l
  | and _ r _, .second | or _ r _, .second | anyField _ _ r _, .second => some r
  | not c _, .first | fieldRule _ c _, .first | entityRule _ c _, .first => some c
  | _, _ => none

/-- The session in which an evaluation that starts in `s` calls that of a child, if it does. -/
def enter? (s : Session) : Tree → Turn → Option Session
  | and _ _ .unevaluated, .first | or _ _ .unevaluated, .first
  | anyField _ _ _ .unevaluated, .first | not _ .unevaluated, .first
  | fieldRule _ _ .unevaluated, .first | entityRule _ _ .unevaluated, .first => some s
  | and l _ .unevaluated, .second =>
    if (l.evaluate s).goesOn .failed then some (l.evaluate s).state else none
  | or l _ .unevaluated, .second | anyField _ l _ .unevaluated, .second =>
    if (l.evaluate s).goesOn .passed then some (l.evaluate s).state else none
  | _, _ => none

/-- A settled node calls no child. -/
theorem enter?_of_settled {t : Tree} (h : t.status ≠ .unevaluated) (s : Session) (d : Turn) :
    t.enter? s d = none := by
  cases t with
  | _ => rename_i st; cases st <;> cases d <;> first | rfl | exact absurd rfl h

end Tree

namespace Relay

@[simp] theorem child?_first (k : Relay) (c : Tree) (st : Status) :
    (k.node c st).child? .first = some c := by cases k <;> rfl

@[simp] theorem child?_second (k : Relay) (c : Tree) (st : Status) :
    (k.node c st).child? .second = none := by cases k <;> rfl

@[simp] theorem enter?_first (k : Relay) (c : Tree) (s : Session) :
    (k.node c .unevaluated).enter? s .first = some s := by cases k <;> rfl

end Relay

namespace Junction

@[simp] theorem child?_first (j : Junction) (l r : Tree) (st : Status) :
    (j.node l r st).child? .first = some l := by cases j <;> rfl

@[simp] theorem child?_second (j : Junction) (l r : Tree) (st : Status) :
    (j.node l r st).child? .second = some r := by cases j <;> rfl

@[simp] theorem enter?_first (j : Junction) (l r : Tree) (s : Session) :
    (j.node l r .unevaluated).enter? s .first = some s := by cases j <;> rfl

theorem enter?_second (j : Junction) (l r : Tree) (s : Session) :
    (j.node l r .unevaluated).enter? s .second =
      if (l.evaluate s).goesOn j.stop then some (l.evaluate s).state else none := by
  cases j <;> rfl

end Junction

theorem Ground.child? {node : Status → Tree} {a : Status} (h : Ground node a) (d : Tree.Turn) :
    (node .unevaluated).child? d = none := by
  cases h <;> cases d <;> rfl

theorem Tree.child?_ofLeaf (l : Leaf) (d : Turn) : (ofLeaf l).child? d = none := by
  cases d <;> rfl

namespace Tree

variable {t c : Tree} {s s' : Session} {d : Turn}

/-- **One child after an evaluation**: as its own evaluation leaves it if that was called, and
otherwise as it was. -/
theorem child?_evaluate (h : t.child? d = some c) (s : Session) :
    (t.evaluate s).tree.child? d = some
      (match t.enter? s d with
        | some s' => (c.evaluate s').tree
        | none => c) := by
  cases t using form_induction with
  | settled t ht => rw [evaluate_of_settled ht, enter?_of_settled ht, h]
  | leaf l =>
    rw [child?_ofLeaf] at h
    cases h
  | ground node a hg =>
    rw [hg.child?] at h
    cases h
  | relay k c' _ =>
    obtain ⟨st, hst⟩ := Evaluation.exists_single_tree k.node k.derive (c'.evaluate s)
    cases d with
    | first =>
      rw [k.child?_first] at h
      obtain rfl := Option.some.inj h
      rw [k.evaluate_node, hst, k.child?_first, k.enter?_first]
    | second =>
      rw [k.child?_second] at h
      cases h
  | junction j l r _ _ =>
    rw [j.evaluate_node]
    cases d with
    | first =>
      rw [j.child?_first] at h
      obtain rfl := Option.some.inj h
      obtain ⟨st, hst | hst⟩ :=
        @Evaluation.exists_pair_tree _ j.node j.stop j.join (l.evaluate s) r r.evaluate
      · rw [hst, j.child?_first, j.enter?_first]
      · rw [hst, j.child?_first, j.enter?_first]
    | second =>
      rw [j.child?_second] at h
      obtain rfl := Option.some.inj h
      rw [j.enter?_second, Evaluation.goesOn]
      cases hl : (l.evaluate s).result with
      | error f =>
        rw [Evaluation.pair_of_error _ _ _ _ _ hl]
        exact j.child?_second _ _ _
      | ok a =>
        rcases eq_or_ne a j.stop with rfl | ha
        · rw [Evaluation.pair_of_stop _ _ _ _ _ hl]
          simp only [ne_eq, not_true_eq_false, decide_false, Bool.false_eq_true, if_false]
          exact j.child?_second _ _ _
        · rw [Evaluation.pair_of_ok _ _ _ _ _ hl ha]
          obtain ⟨st, hst⟩ := Evaluation.exists_single_tree (j.node (l.evaluate s).tree) (j.join a)
            (r.evaluate (l.evaluate s).state)
          rw [hst, j.child?_second, if_pos (by simpa using ha)]

/-- A node returns a status only if every child that it calls does. -/
theorem exists_ok_of_enter? (hok : ∃ st, (t.evaluate s).result = .ok st) (h : t.child? d = some c)
    (hs : t.enter? s d = some s') : ∃ st, (c.evaluate s').result = .ok st := by
  obtain ⟨st, hok⟩ := hok
  cases t using form_induction with
  | settled t ht =>
    rw [enter?_of_settled ht] at hs
    cases hs
  | leaf l =>
    rw [child?_ofLeaf] at h
    cases h
  | ground node a hg =>
    rw [hg.child?] at h
    cases h
  | relay k c' _ =>
    cases d with
    | first =>
      rw [k.child?_first] at h
      rw [k.enter?_first] at hs
      obtain rfl := Option.some.inj h
      obtain rfl := Option.some.inj hs
      rw [k.evaluate_node] at hok
      obtain ⟨a, ha, -⟩ := Evaluation.exists_of_single_ok hok
      exact ⟨a, ha⟩
    | second =>
      rw [k.child?_second] at h
      cases h
  | junction j l r _ _ =>
    rw [j.evaluate_node] at hok
    have hcases := Evaluation.cases_of_pair_ok _ _ _ _ _ hok
    cases d with
    | first =>
      rw [j.child?_first] at h
      rw [j.enter?_first] at hs
      obtain rfl := Option.some.inj h
      obtain rfl := Option.some.inj hs
      rcases hcases with ⟨hl, -, -⟩ | ⟨a, b, hl, -, -, -, -⟩
      · exact ⟨_, hl⟩
      · exact ⟨_, hl⟩
    | second =>
      rw [j.child?_second] at h
      obtain rfl := Option.some.inj h
      rw [j.enter?_second] at hs
      rcases hcases with ⟨hl, -, -⟩ | ⟨a, b, hl, -, hr, -, -⟩
      · rw [Evaluation.goesOn, hl] at hs
        simp at hs
      · split at hs
        · obtain rfl := Option.some.inj hs
          exact ⟨_, hr⟩
        · cases hs

/-! ## 3. Places -/

/-- The node at a place. -/
def node? : Tree → List Turn → Option Tree
  | t, [] => some t
  | t, d :: p => (t.child? d).bind fun c => c.node? p

/-- The session in which an evaluation that starts in `s` calls that of the node at a place, if it
does. -/
def entered? : Tree → Session → List Turn → Option Session
  | _, s, [] => some s
  | t, s, d :: p => (t.child? d).bind fun c => (t.enter? s d).bind fun s' => c.entered? s' p

theorem node?_cons {n : Tree} {p : List Turn} :
    t.node? (d :: p) = some n ↔ ∃ c, t.child? d = some c ∧ c.node? p = some n :=
  Option.bind_eq_some_iff

theorem entered?_cons {p : List Turn} (h : t.child? d = some c) :
    t.entered? s (d :: p) = (t.enter? s d).bind fun s' => c.entered? s' p := by
  rw [entered?, h, Option.bind_some]

/-- **The node at a place after an evaluation**: as its own evaluation leaves it if that was called,
and otherwise as it was. -/
theorem node?_evaluate {p : List Turn} {n : Tree} (h : t.node? p = some n) (s : Session) :
    (t.evaluate s).tree.node? p = some
      (match t.entered? s p with
        | some s' => (n.evaluate s').tree
        | none => n) := by
  induction p generalizing t s with
  | nil =>
    cases h
    rfl
  | cons d p ih =>
    obtain ⟨c, hc, hn⟩ := node?_cons.mp h
    have hchild := child?_evaluate hc s
    rw [entered?_cons hc]
    cases hs : t.enter? s d with
    | none =>
      rw [hs] at hchild
      exact node?_cons.mpr ⟨c, hchild, hn⟩
    | some s' =>
      rw [hs] at hchild
      exact node?_cons.mpr ⟨_, hchild, ih hn s'⟩

/-- A node that has its status stays in an evaluation. -/
theorem node?_evaluate_of_settled {p : List Turn} {n : Tree} (h : t.node? p = some n)
    (hn : n.status ≠ .unevaluated) (s : Session) : (t.evaluate s).tree.node? p = some n := by
  rw [node?_evaluate h]
  cases t.entered? s p with
  | none => rfl
  | some s' =>
    change some (n.evaluate s').tree = some n
    rw [evaluate_of_settled hn]

/-- **A node that has its status stays**, whatever is evaluated later. -/
theorem node?_after_of_settled {p : List Turn} {n : Tree} (h : t.node? p = some n)
    (hn : n.status ≠ .unevaluated) (ss : List Session) : (t.after ss).node? p = some n := by
  induction ss generalizing t with
  | nil => exact h
  | cons s ss ih => exact ih (node?_evaluate_of_settled h hn s)

/-- Below a node that returned a status, every node that was called did. -/
theorem exists_ok_of_entered? {p : List Turn} {n : Tree}
    (hok : ∃ st, (t.evaluate s).result = .ok st) (h : t.node? p = some n)
    (hs : t.entered? s p = some s') : ∃ st, (n.evaluate s').result = .ok st := by
  induction p generalizing t s with
  | nil =>
    cases h
    cases hs
    exact hok
  | cons d p ih =>
    obtain ⟨c, hc, hn⟩ := node?_cons.mp h
    rw [entered?_cons hc, Option.bind_eq_some_iff] at hs
    obtain ⟨s₁, hs₁, hs⟩ := hs
    exact ih (exists_ok_of_enter? hok hc hs₁) hn hs

/-! ## 4. The way to an error -/

/-- The evaluation of a tree ended with the error of the leaf `l` at the place `p`. -/
structure FailsAt (t : Tree) (s : Session) (f : CheckFailure) (p : List Turn) (l : Leaf) :
    Prop where
  leaf : t.node? p = some (.ofLeaf l)
  name : l.name = f.check
  /-- Asking the leaf was the last thing that happened. -/
  asked : ∃ s', t.entered? s p = some s' ∧ s'.ask l = (.error f.detail, (t.evaluate s).state)
  /-- The nodes on the way to the leaf were called and ended with its error. -/
  onPath : ∀ q, q <+: p → ∃ n s', t.node? q = some n ∧ t.entered? s q = some s' ∧
    (n.evaluate s').result = .error f
  /-- Every other node that was called returned a status. -/
  offPath : ∀ q n s', t.node? q = some n → t.entered? s q = some s' → ¬ q <+: p →
    ∃ st, (n.evaluate s').result = .ok st

namespace FailsAt

variable {f : CheckFailure} {p : List Turn} {l : Leaf}

/-- A leaf that raises an error. -/
theorem ofLeaf (ha : (s.ask l).1 = .error f.detail) (hname : l.name = f.check) :
    FailsAt (.ofLeaf l) s f [] l where
  leaf := rfl
  name := hname
  asked := by
    refine ⟨s, rfl, ?_⟩
    rw [evaluate_ofLeaf, Evaluation.asked_state, ← ha]
  onPath q hq := by
    rw [List.prefix_nil.mp hq]
    refine ⟨_, s, rfl, rfl, ?_⟩
    rw [evaluate_ofLeaf, Evaluation.asked_of_error l ha, hname, Evaluation.stopped]
  offPath q n s' hn _ hq := by
    cases q with
    | nil => exact absurd (List.prefix_refl []) hq
    | cons d q =>
      obtain ⟨c, hc, -⟩ := node?_cons.mp hn
      rw [child?_ofLeaf] at hc
      cases hc

/-- The error of a child that was called last. -/
theorem child (h : FailsAt c s' f p l) (hc : t.child? d = some c) (hs : t.enter? s d = some s')
    (hresult : (t.evaluate s).result = .error f)
    (hstate : (t.evaluate s).state = (c.evaluate s').state)
    (hothers : ∀ d' c' s'', d' ≠ d → t.child? d' = some c' → t.enter? s d' = some s'' →
      ∃ st, (c'.evaluate s'').result = .ok st) : FailsAt t s f (d :: p) l where
  leaf := node?_cons.mpr ⟨c, hc, h.leaf⟩
  name := h.name
  asked := by
    rw [entered?_cons hc, hs, hstate]
    exact h.asked
  onPath q hq := by
    cases q with
    | nil => exact ⟨t, s, rfl, rfl, hresult⟩
    | cons d' q =>
      obtain ⟨rfl, hrest⟩ := List.cons_prefix_cons.mp hq
      obtain ⟨n, s'', hn, hs'', hf⟩ := h.onPath q hrest
      refine ⟨n, s'', node?_cons.mpr ⟨c, hc, hn⟩, ?_, hf⟩
      rw [entered?_cons hc, hs]
      exact hs''
  offPath q n s'' hn hs'' hq := by
    cases q with
    | nil => exact absurd List.nil_prefix hq
    | cons d' q =>
      obtain ⟨c', hc', hn⟩ := node?_cons.mp hn
      rw [entered?_cons hc', Option.bind_eq_some_iff] at hs''
      obtain ⟨s₁, hs₁, hs''⟩ := hs''
      by_cases hd : d' = d
      · subst hd
        rw [hc] at hc'
        rw [hs] at hs₁
        cases hc'
        cases hs₁
        exact h.offPath q n s'' hn hs'' fun hq' => hq (List.cons_prefix_cons.mpr ⟨rfl, hq'⟩)
      · exact exists_ok_of_entered? (hothers d' c' s₁ hd hc' hs₁) hn hs''

end FailsAt

/-- **An error comes from one leaf**, and the nodes that end with it are those on the way there. -/
theorem exists_failsAt {f : CheckFailure} (h : (t.evaluate s).result = .error f) :
    ∃ p l, FailsAt t s f p l := by
  induction t using form_induction generalizing s with
  | settled t ht =>
    rw [evaluate_of_settled ht] at h
    cases h
  | leaf l =>
    rw [evaluate_ofLeaf] at h
    cases ha : (s.ask l).1 with
    | ok b =>
      rw [Evaluation.asked_of_ok l ha] at h
      cases h
    | error detail =>
      rw [Evaluation.asked_of_error l ha] at h
      cases h
      exact ⟨[], l, .ofLeaf ha rfl⟩
  | ground node a hg =>
    rw [hg.evaluate_node] at h
    cases h
  | relay k c ih =>
    have hsingle := h
    rw [k.evaluate_node] at hsingle
    obtain ⟨hc, heq⟩ := Evaluation.cases_of_single_error hsingle
    have hstate : ((k.node c .unevaluated).evaluate s).state = (c.evaluate s).state := by
      rw [k.evaluate_node, heq, Evaluation.stopped]
    obtain ⟨p, l, hp⟩ := ih hc
    refine ⟨.first :: p, l, hp.child (k.child?_first _ _) (k.enter?_first _ _) h hstate ?_⟩
    intro d' c' s'' hd hc' _
    cases d' with
    | first => exact absurd rfl hd
    | second =>
      rw [k.child?_second] at hc'
      cases hc'
  | junction j l r ihl ihr =>
    have hpair := h
    rw [j.evaluate_node] at hpair
    rcases Evaluation.cases_of_pair_error _ _ _ _ _ hpair with ⟨hl, heq⟩ | ⟨a, hl, ha, hr, heq⟩
    · have hstate : ((j.node l r .unevaluated).evaluate s).state = (l.evaluate s).state := by
        rw [j.evaluate_node, heq, Evaluation.stopped]
      obtain ⟨p, leaf, hp⟩ := ihl hl
      refine ⟨.first :: p, leaf, hp.child (j.child?_first _ _ _) (j.enter?_first _ _ _) h hstate ?_⟩
      -- the right child was not called
      intro d' c' s'' hd _ hs''
      cases d' with
      | first => exact absurd rfl hd
      | second =>
        rw [j.enter?_second, Evaluation.goesOn, hl] at hs''
        cases hs''
    · have hgoes : (j.node l r .unevaluated).enter? s .second = some (l.evaluate s).state := by
        rw [j.enter?_second, Evaluation.goesOn, hl, if_pos (by simpa using ha)]
      have hstate : ((j.node l r .unevaluated).evaluate s).state =
          (r.evaluate (l.evaluate s).state).state := by
        rw [j.evaluate_node, heq, Evaluation.stopped]
      obtain ⟨p, leaf, hp⟩ := ihr hr
      refine ⟨.second :: p, leaf, hp.child (j.child?_second _ _ _) hgoes h hstate ?_⟩
      -- the left child returned a status
      intro d' c' s'' hd hc' hs''
      cases d' with
      | second => exact absurd rfl hd
      | first =>
        rw [j.child?_first] at hc'
        rw [j.enter?_first] at hs''
        obtain rfl := Option.some.inj hc'
        obtain rfl := Option.some.inj hs''
        exact ⟨a, hl⟩

end Tree

end AccessRules
