/-
# What every evaluation does

Whatever the connectives of a tree, an evaluation only ever does four things: it leaves a settled
node alone, it asks a leaf, it derives a status from one child, or it takes two children from left
to right.  `evaluateWith_induction` says so once, and what holds of all evaluations is proved by
these four cases:

* `evaluateWith_related`: the state after an evaluation is reached by asking leaves of the tree;
* `evaluateWith_settles`: an outcome is never unevaluated, and the root keeps it.

What a tree comes to is another matter, and depends on its connectives.  `Tree.kleene` is the
three-valued value of a tree under a yes or no for every leaf; if the leaves are bound to answer
so, evaluation finds that value (`evaluateWith_kleene`), although it skips what cannot matter.
However its leaves answer, a tree without deferred nodes comes to a yes or a no
(`evaluateWith_definite`).
-/
import AccessRules.Proofs.Forms

namespace AccessRules

/-! ## 1. The steps of an evaluation -/

namespace Evaluation

variable {σ : Type}

theorem asked_of_ok (leaf : Leaf) {out : Answer × σ} {b : Bool} (h : out.1 = .ok b) :
    asked leaf out = settled (.check leaf) (.ofBool b) out.2 := by
  obtain ⟨answer, s⟩ := out
  subst h
  rfl

theorem asked_of_error (leaf : Leaf) {out : Answer × σ} {detail : String}
    (h : out.1 = .error detail) :
    asked leaf out = stopped (.check leaf) ⟨leaf.name, detail⟩ out.2 := by
  obtain ⟨answer, s⟩ := out
  subst h
  rfl

@[simp] theorem asked_state (leaf : Leaf) (out : Answer × σ) : (asked leaf out).state = out.2 := by
  rcases out with ⟨e | b, s⟩ <;> rfl

theorem single_of_ok (node : Tree → Status → Tree) (f : Status → Status) {child : Evaluation σ}
    {a : Status} (h : child.result = .ok a) :
    single node f child = settled (node child.tree) (f a) child.state := by
  rw [single, h]

theorem single_of_error (node : Tree → Status → Tree) (f : Status → Status)
    {child : Evaluation σ} {e : CheckFailure} (h : child.result = .error e) :
    single node f child = stopped (node child.tree) e child.state := by
  rw [single, h]

/-- What a node over one child returns comes from what the child returned. -/
theorem exists_of_single_ok {node : Tree → Status → Tree} {f : Status → Status}
    {child : Evaluation σ} {st : Status} (h : (single node f child).result = .ok st) :
    ∃ a, child.result = .ok a ∧ f a = st := by
  cases hc : child.result with
  | error e =>
    rw [single_of_error node f hc] at h
    cases h
  | ok a =>
    rw [single_of_ok node f hc] at h
    cases h
    exact ⟨a, rfl, rfl⟩

/-- A node over one child ends with an error only if the child does. -/
theorem cases_of_single_error {node : Tree → Status → Tree} {f : Status → Status}
    {child : Evaluation σ} {e : CheckFailure} (h : (single node f child).result = .error e) :
    child.result = .error e ∧ single node f child = stopped (node child.tree) e child.state := by
  cases hc : child.result with
  | ok a =>
    rw [single_of_ok node f hc] at h
    cases h
  | error e' =>
    rw [single_of_error node f hc] at h ⊢
    cases h
    exact ⟨rfl, rfl⟩

@[simp] theorem single_state (node : Tree → Status → Tree) (f : Status → Status)
    (child : Evaluation σ) : (single node f child).state = child.state := by
  cases h : child.result with
  | error e => rw [single_of_error node f h]; rfl
  | ok a => rw [single_of_ok node f h]; rfl

/-- A node over one child keeps the child that its evaluation left. -/
theorem exists_single_tree (node : Tree → Status → Tree) (f : Status → Status)
    (child : Evaluation σ) : ∃ st, (single node f child).tree = node child.tree st := by
  cases h : child.result with
  | error e => exact ⟨_, by rw [single_of_error node f h, stopped]⟩
  | ok a => exact ⟨_, by rw [single_of_ok node f h, settled]⟩

section Pair

variable (node : Tree → Tree → Status → Tree) (stop : Status) (join : Status → Status → Status)
  {left : Evaluation σ} (right : Tree) (resume : σ → Evaluation σ)

theorem pair_of_error {e : CheckFailure} (h : left.result = .error e) :
    pair node stop join left right resume = stopped (node left.tree right) e left.state := by
  rw [pair, h]

/-- The left child settles the node: the right one is not touched. -/
theorem pair_of_stop (h : left.result = .ok stop) :
    pair node stop join left right resume = settled (node left.tree right) stop left.state := by
  rw [pair, h]
  exact if_pos rfl

theorem pair_of_ok {a : Status} (h : left.result = .ok a) (ha : a ≠ stop) :
    pair node stop join left right resume =
      single (node left.tree) (join a) (resume left.state) := by
  rw [pair, h]
  exact if_neg ha

/-- What a node over two children returns: the left child settled it, or both returned. -/
theorem cases_of_pair_ok {st : Status}
    (h : (pair node stop join left right resume).result = .ok st) :
    (left.result = .ok stop ∧ stop = st ∧
      (pair node stop join left right resume).state = left.state) ∨
    ∃ a b, left.result = .ok a ∧ a ≠ stop ∧ (resume left.state).result = .ok b ∧ join a b = st ∧
      (pair node stop join left right resume).state = (resume left.state).state := by
  cases hl : left.result with
  | error e =>
    rw [pair_of_error node stop join right resume hl] at h
    cases h
  | ok a =>
    rcases eq_or_ne a stop with rfl | hne
    · rw [pair_of_stop node a join right resume hl] at h ⊢
      cases h
      exact .inl ⟨rfl, rfl, rfl⟩
    · rw [pair_of_ok node stop join right resume hl hne] at h ⊢
      obtain ⟨b, hb, rfl⟩ := exists_of_single_ok h
      exact .inr ⟨a, b, rfl, hne, hb, rfl, single_state _ _ _⟩

/-- What stops a node over two children: an error on the left, or one on the right. -/
theorem cases_of_pair_error {e : CheckFailure}
    (h : (pair node stop join left right resume).result = .error e) :
    (left.result = .error e ∧
      pair node stop join left right resume = stopped (node left.tree right) e left.state) ∨
    ∃ a, left.result = .ok a ∧ a ≠ stop ∧ (resume left.state).result = .error e ∧
      pair node stop join left right resume =
        stopped (node left.tree (resume left.state).tree) e (resume left.state).state := by
  cases hl : left.result with
  | error e' =>
    rw [pair_of_error node stop join right resume hl] at h ⊢
    cases h
    exact .inl ⟨rfl, rfl⟩
  | ok a =>
    rcases eq_or_ne a stop with rfl | hne
    · rw [pair_of_stop node a join right resume hl] at h
      cases h
    · rw [pair_of_ok node stop join right resume hl hne] at h ⊢
      obtain ⟨hr, heq⟩ := cases_of_single_error h
      exact .inr ⟨a, rfl, hne, hr, heq⟩

/-- A node over two children keeps what their evaluations left; the right one may not have been
touched. -/
theorem exists_pair_tree : ∃ st,
    (pair node stop join left right resume).tree = node left.tree right st ∨
      (pair node stop join left right resume).tree =
        node left.tree (resume left.state).tree st := by
  cases h : left.result with
  | error e => exact ⟨_, .inl (by rw [pair_of_error node stop join right resume h, stopped])⟩
  | ok a =>
    rcases eq_or_ne a stop with rfl | hne
    · exact ⟨_, .inl (by rw [pair_of_stop node a join right resume h, settled])⟩
    · obtain ⟨st, hst⟩ := exists_single_tree (node left.tree) (join a) (resume left.state)
      exact ⟨st, .inr (by rw [pair_of_ok node stop join right resume h hne, hst])⟩

/-- A relation that both parts of a run respect relates its two ends. -/
theorem pair_related {R : σ → σ → Prop} {s : σ} (htrans : ∀ {a b c}, R a b → R b c → R a c)
    (hl : R s left.state)
    (hr : ∀ a, left.result = .ok a → a ≠ stop → R left.state (resume left.state).state) :
    R s (pair node stop join left right resume).state := by
  cases ha : left.result with
  | error e =>
    rw [pair_of_error node stop join right resume ha]
    exact hl
  | ok a =>
    rcases eq_or_ne a stop with rfl | hne
    · rw [pair_of_stop node a join right resume ha]
      exact hl
    · rw [pair_of_ok node stop join right resume ha hne, single_state]
      exact htrans hl (hr a ha hne)

end Pair

end Evaluation

namespace Tree

/-! ## 2. The four things an evaluation does -/

section Induction

variable {σ : Type} {ask : Leaf → σ → Answer × σ}

/-- **Induction over evaluations.**  A settled node or a constant answers at once; a leaf is
asked; a node over one child derives its status; a node over two children stops at `stop` or
joins. -/
theorem evaluateWith_induction (ask : Leaf → σ → Answer × σ)
    {motive : Tree → σ → Evaluation σ → Prop}
    (still : ∀ (t t' : Tree) (st : Status) (s : σ), (t' = t ∨ t.marks = [] ∧ t'.marks = []) →
      t'.status = st → st ≠ .unevaluated → motive t s ⟨.ok st, t', s⟩)
    (asked : ∀ leaf s, motive (.ofLeaf leaf) s (.asked leaf (ask leaf s)))
    (single : ∀ (node : Tree → Status → Tree) (f : Status → Status) (c : Tree) (s : σ)
      (child : Evaluation σ), Unary node → (∀ st, st ≠ .unevaluated → f st ≠ .unevaluated) →
      motive c s child → motive (node c .unevaluated) s (.single node f child))
    (pair : ∀ (node : Tree → Tree → Status → Tree) (stop : Status)
      (join : Status → Status → Status) (l r : Tree) (s : σ) (left : Evaluation σ)
      (resume : σ → Evaluation σ), Binary node → stop ≠ .unevaluated →
      (∀ a b, join a b ≠ .unevaluated) → motive l s left → (∀ s', motive r s' (resume s')) →
      motive (node l r .unevaluated) s (.pair node stop join left r resume))
    (t : Tree) : ∀ s, motive t s (evaluateWith ask t s) := by
  induction t using form_induction with
  | settled t ht =>
    intro s
    rw [evaluateWith_of_settled ht]
    exact still t t t.status s (.inl rfl) rfl ht
  | leaf l => exact fun s => asked l s
  | ground node a h =>
    intro s
    rw [h.evaluateWith_node]
    exact still _ (node a) a s (.inr ⟨h.marks _, h.marks _⟩) (h.status a) h.ne_unevaluated
  | relay k c ih =>
    intro s
    rw [k.evaluateWith_node]
    exact single k.node k.derive c s _ k.unary (fun _ => k.derive_ne_unevaluated) (ih s)
  | junction j l r ihl ihr =>
    intro s
    rw [j.evaluateWith_node]
    exact pair j.node j.stop j.join l r s _ _ j.binary j.stop_ne_unevaluated j.join_ne_unevaluated
      (ihl s) ihr

/-! ## 3. The state and the root after an evaluation -/

/-- **Only asking changes the state.**  A preorder on states that every question to a leaf of the
tree respects relates the states before and after the evaluation of the tree. -/
theorem evaluateWith_related {R : σ → σ → Prop} (hrefl : ∀ s, R s s)
    (htrans : ∀ {a b c}, R a b → R b c → R a c) (t : Tree)
    (hask : ∀ l ∈ t.leaves, ∀ s, R s (ask l s).2) (s : σ) :
    R s (evaluateWith ask t s).state := by
  revert hask s
  suffices h : ∀ s, (∀ l ∈ t.leaves, ∀ s, R s (ask l s).2) → R s (evaluateWith ask t s).state from
    fun hask s => h s hask
  refine evaluateWith_induction ask
    (motive := fun t s e => (∀ l ∈ t.leaves, ∀ s, R s (ask l s).2) → R s e.state)
    ?still ?asked ?single ?pair t
  case still =>
    intro t t' st s _ _ _ _
    exact hrefl s
  case asked =>
    intro leaf s hask
    rw [Evaluation.asked_state]
    exact hask leaf List.mem_cons_self s
  case single =>
    intro node f c s child hnode _ ih hask
    rw [Evaluation.single_state]
    exact ih (hnode.forall_leaves.mp hask)
  case pair =>
    intro node stop join l r s left resume hnode _ _ ihl ihr hask
    obtain ⟨haskl, haskr⟩ := hnode.forall_leaves.mp hask
    exact Evaluation.pair_related node stop join r resume htrans (ihl haskl)
      fun _ _ _ => ihr left.state haskr

/-- The status that an evaluation returns is the one that the root now has, and it is none that
says nothing. -/
theorem evaluateWith_settles (t : Tree) (s : σ) : ∀ st, (evaluateWith ask t s).result = .ok st →
    (evaluateWith ask t s).tree.status = st ∧ st ≠ .unevaluated := by
  refine evaluateWith_induction ask
    (motive := fun _ _ e => ∀ st, e.result = .ok st → e.tree.status = st ∧ st ≠ .unevaluated)
    ?still ?asked ?single ?pair t s
  case still =>
    intro t t' st s _ hst hne st' h
    cases h
    exact ⟨hst, hne⟩
  case asked =>
    intro leaf s st h
    cases ha : (ask leaf s).1 with
    | error detail =>
      rw [Evaluation.asked_of_error leaf ha] at h
      cases h
    | ok b =>
      rw [Evaluation.asked_of_ok leaf ha] at h ⊢
      cases h
      exact ⟨rfl, Status.ofBool_ne_unevaluated b⟩
  case single =>
    intro node f c s child hnode hf ih st h
    cases hr : child.result with
    | error e =>
      rw [Evaluation.single_of_error node f hr] at h
      cases h
    | ok a =>
      rw [Evaluation.single_of_ok node f hr] at h ⊢
      cases h
      exact ⟨hnode.status _ _, hf a (ih a hr).2⟩
  case pair =>
    intro node stop join l r s left resume hnode hstop hjoin _ _ st h
    cases hl : left.result with
    | error e =>
      rw [Evaluation.pair_of_error node stop join r resume hl] at h
      cases h
    | ok a =>
      rcases eq_or_ne a stop with rfl | hne
      · rw [Evaluation.pair_of_stop node a join r resume hl] at h ⊢
        cases h
        exact ⟨hnode.status _ _ _, hstop⟩
      · rw [Evaluation.pair_of_ok node stop join r resume hl hne] at h ⊢
        cases hr : (resume left.state).result with
        | error e =>
          rw [Evaluation.single_of_error _ _ hr] at h
          cases h
        | ok b =>
          rw [Evaluation.single_of_ok _ _ hr] at h ⊢
          cases h
          exact ⟨hnode.status _ _ _, hjoin a b⟩

/-- Evaluating a tree changes statuses alone: its leaves stay where they are. -/
theorem leaves_evaluateWith (t : Tree) (s : σ) : (evaluateWith ask t s).tree.leaves = t.leaves := by
  refine evaluateWith_induction ask (motive := fun t _ e => e.tree.leaves = t.leaves)
    ?still ?asked ?single ?pair t s
  case still =>
    rintro t t' st s (rfl | ⟨hmarks, hmarks'⟩) _ _
    · rfl
    · rw [leaves, leaves, hmarks, hmarks']
  case asked =>
    intro leaf s
    cases ha : (ask leaf s).1 with
    | error detail => rw [Evaluation.asked_of_error leaf ha]; rfl
    | ok b => rw [Evaluation.asked_of_ok leaf ha]; rfl
  case single =>
    intro node f c s child hnode _ ih
    obtain ⟨st, hst⟩ := Evaluation.exists_single_tree node f child
    rw [hst, hnode.leaves, hnode.leaves, ih]
  case pair =>
    intro node stop join l r s left resume hnode _ _ ihl ihr
    obtain ⟨st, hst | hst⟩ := @Evaluation.exists_pair_tree σ node stop join left r resume
    · rw [hst, hnode.leaves, hnode.leaves, ihl]
    · rw [hst, hnode.leaves, hnode.leaves, ihl, ihr]

/-- Where no leaf ever raises an error, the evaluation returns a status. -/
theorem evaluateWith_total (t : Tree) (hask : ∀ l ∈ t.leaves, ∀ s, ∃ b, (ask l s).1 = .ok b)
    (s : σ) : ∃ st, (evaluateWith ask t s).result = .ok st := by
  revert hask
  refine evaluateWith_induction ask
    (motive := fun t _ e => (∀ l ∈ t.leaves, ∀ s, ∃ b, (ask l s).1 = .ok b) →
      ∃ st, e.result = .ok st) ?still ?asked ?single ?pair t s
  case still =>
    intro t t' st s _ _ _ _
    exact ⟨st, rfl⟩
  case asked =>
    intro leaf s hask
    obtain ⟨b, hb⟩ := hask leaf List.mem_cons_self s
    rw [Evaluation.asked_of_ok leaf hb]
    exact ⟨_, rfl⟩
  case single =>
    intro node f c s child hnode _ ih hask
    obtain ⟨a, ha⟩ := ih (hnode.forall_leaves.mp hask)
    rw [Evaluation.single_of_ok node f ha]
    exact ⟨_, rfl⟩
  case pair =>
    intro node stop join l r s left resume hnode _ _ ihl ihr hask
    obtain ⟨haskl, haskr⟩ := hnode.forall_leaves.mp hask
    obtain ⟨a, ha⟩ := ihl haskl
    rcases eq_or_ne a stop with rfl | hne
    · rw [Evaluation.pair_of_stop node a join r resume ha]
      exact ⟨_, rfl⟩
    · obtain ⟨b, hb⟩ := ihr left.state haskr
      rw [Evaluation.pair_of_ok node stop join r resume ha hne, Evaluation.single_of_ok _ _ hb]
      exact ⟨_, rfl⟩

end Induction

/-! ## 4. The value of a fresh tree -/

/-- What a tree comes to if every leaf answers as `v` says. -/
def kleene (v : Leaf → Bool) : Tree → Status
  | check leaf _ => .ofBool (v leaf)
  | constant passed _ _ => .ofBool passed
  | deferred _ _ => .deferred
  | and l r _ => (l.kleene v).and (r.kleene v)
  | or l r _ => (l.kleene v).or (r.kleene v)
  | not c _ => (c.kleene v).negate
  | anyField _ f e _ => (f.kleene v).or (e.kleene v)
  | fieldRule _ r _ => r.kleene v
  | entityRule _ r _ => r.kleene v
  | unrestricted _ _ => .passed

section Value

variable {σ : Type} {ask : Leaf → σ → Answer × σ} {p : Phase} {v : Leaf → Bool}

/-- Skipping the right child does no harm: the left one alone gives the value of the pair. -/
theorem pair_value {I : σ → Prop} {node : Tree → Tree → Status → Tree} {stop a b : Status}
    {join : Status → Status → Status} {left : Evaluation σ} {r : Tree} {resume : σ → Evaluation σ}
    (hstop : join stop b = stop) (hl : left.result = .ok a ∧ I left.state)
    (hr : ∀ s, I s → (resume s).result = .ok b ∧ I (resume s).state) :
    (Evaluation.pair node stop join left r resume).result = .ok (join a b) ∧
      I (Evaluation.pair node stop join left r resume).state := by
  obtain ⟨hla, hli⟩ := hl
  rcases eq_or_ne a stop with rfl | hne
  · rw [Evaluation.pair_of_stop node a join r resume hla, hstop]
    exact ⟨rfl, hli⟩
  · obtain ⟨hrb, hri⟩ := hr left.state hli
    rw [Evaluation.pair_of_ok node stop join r resume hla hne, Evaluation.single_of_ok _ _ hrb]
    exact ⟨rfl, hri⟩

theorem single_value {I : σ → Prop} {node : Tree → Status → Tree} {f : Status → Status}
    {a : Status} {child : Evaluation σ} (h : child.result = .ok a ∧ I child.state) :
    (Evaluation.single node f child).result = .ok (f a) ∧
      I (Evaluation.single node f child).state := by
  rw [Evaluation.single_of_ok node f h.1]
  exact ⟨rfl, h.2⟩

/-- **Evaluation finds the three-valued value.**  If, as long as `I` holds, every leaf of a fresh
tree answers as `v` says and keeps `I`, then the tree comes to its value under `v`. -/
theorem evaluateWith_kleene {I : σ → Prop} {t : Tree} (ht : Fresh p t)
    (hask : ∀ l ∈ t.leaves, ∀ s, I s → (ask l s).1 = .ok (v l) ∧ I (ask l s).2) :
    ∀ s, I s → (evaluateWith ask t s).result = .ok (t.kleene v) ∧
      I (evaluateWith ask t s).state := by
  induction ht with
  | check leaf =>
    intro s hs
    obtain ⟨hv, hI⟩ := hask leaf List.mem_cons_self s hs
    change (Evaluation.asked leaf (ask leaf s)).result = _ ∧ I (Evaluation.asked leaf _).state
    rw [Evaluation.asked_of_ok leaf hv]
    exact ⟨rfl, hI⟩
  | constant passed label => exact fun s hs => ⟨rfl, hs⟩
  | deferred name => exact fun s hs => ⟨rfl, hs⟩
  | and _ _ ihl ihr =>
    intro s hs
    obtain ⟨hl, hr⟩ := binary_and.forall_leaves.mp hask
    exact pair_value rfl (ihl hl s hs) (ihr hr)
  | or _ _ ihl ihr =>
    intro s hs
    obtain ⟨hl, hr⟩ := binary_or.forall_leaves.mp hask
    exact pair_value rfl (ihl hl s hs) (ihr hr)
  | not _ ih => exact fun s hs => single_value (ih hask s hs)
  | anyField condition _ _ ihf ihe =>
    intro s hs
    obtain ⟨hf, he⟩ := (binary_anyField condition).forall_leaves.mp hask
    exact pair_value rfl (ihf hf s hs) (ihe he)
  | fieldRule condition _ ih => exact fun s hs => single_value (ih hask s hs)
  | entityRule condition _ ih => exact fun s hs => single_value (ih hask s hs)
  | unrestricted condition => exact fun s hs => ⟨rfl, hs⟩

end Value

/-! ## 5. A commit defers nothing -/

section Commit

variable {σ : Type} {ask : Leaf → σ → Answer × σ}

theorem pair_definite {node : Tree → Tree → Status → Tree} {stop : Status}
    {join : Status → Status → Status} {left : Evaluation σ} {r : Tree} {resume : σ → Evaluation σ}
    (hstop : stop.Definite) (hjoin : ∀ {a b}, a.Definite → b.Definite → (join a b).Definite)
    (hl : ∀ a, left.result = .ok a → a.Definite)
    (hr : ∀ s b, (resume s).result = .ok b → b.Definite) {st : Status}
    (h : (Evaluation.pair node stop join left r resume).result = .ok st) : st.Definite := by
  rcases Evaluation.cases_of_pair_ok node stop join r resume h with
    ⟨-, rfl, -⟩ | ⟨a, b, ha, -, hb, rfl, -⟩
  · exact hstop
  · exact hjoin (hl a ha) (hr left.state b hb)

/-- **A tree made for the commit comes to a yes or a no**, unless a check raises an error. -/
theorem evaluateWith_definite {t : Tree} (ht : Fresh .commit t) :
    ∀ s st, (evaluateWith ask t s).result = .ok st → st.Definite := by
  generalize hp : Phase.commit = p at ht
  induction ht with
  | check leaf =>
    intro s st h
    change (Evaluation.asked leaf (ask leaf s)).result = _ at h
    cases ha : (ask leaf s).1 with
    | error detail =>
      rw [Evaluation.asked_of_error leaf ha] at h
      cases h
    | ok b =>
      rw [Evaluation.asked_of_ok leaf ha] at h
      cases h
      exact Status.definite_ofBool b
  | constant passed label =>
    intro s st h
    cases h
    exact Status.definite_ofBool passed
  | deferred name => cases hp
  | and _ _ ihl ihr =>
    exact fun s st => pair_definite (.inr rfl) Status.Definite.and (ihl hp s) (ihr hp)
  | or _ _ ihl ihr =>
    exact fun s st => pair_definite (.inl rfl) Status.Definite.or (ihl hp s) (ihr hp)
  | not _ ih =>
    intro s st h
    obtain ⟨a, ha, rfl⟩ := Evaluation.exists_of_single_ok h
    exact (ih hp s a ha).negate
  | anyField condition _ _ ihf ihe =>
    exact fun s st => pair_definite (.inl rfl) Status.Definite.or (ihf hp s) (ihe hp)
  | fieldRule condition _ ih | entityRule condition _ ih =>
    intro s st h
    obtain ⟨a, ha, rfl⟩ := Evaluation.exists_of_single_ok h
    exact ih hp s a ha
  | unrestricted condition =>
    intro s st h
    cases h
    exact .inl rfl

end Commit

end Tree

end AccessRules
