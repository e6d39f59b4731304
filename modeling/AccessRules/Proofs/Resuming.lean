/-
# Taking up an evaluation again

An error stops an evaluation half-way.  What was finished before keeps its status, the way to the
error has none, and a later evaluation goes on from there.  This module says what that amounts to,
over any number of attempts at a new tree, each from a session of its own.

* No answer is asked for twice: not by a leaf that has its status, and not within a request that
  still remembers it (`pairwise_heard`).
* The statuses do not show how many attempts it took.  `Comes` is a tree that came to its status
  with the answers that are recorded in it, and `Halfway` one that attempts have left open; an
  evaluation makes one of the other (`evaluate_halfway`), and one evaluation in which the leaves
  give the recorded answers finds the same (`Comes.evaluateWith_eq`).

`evaluation_resumes` puts these together with what the places of a tree say about one evaluation.
-/
import AccessRules.Proofs.Places

namespace AccessRules

/-! ## 1. What one evaluation asks -/

/-- Of two look-ups of one question within a request the later one finds what the earlier one got,
unless that was an error. -/
def LookUp.Finds (n : Nat) (u v : LookUp) : Prop :=
  u.leaf.situation.request = n → v.leaf.situation.request = n →
    v.leaf.question = u.leaf.question → ∀ b, u.answer = .ok b → v.ran = false ∧ v.answer = .ok b

/-- From one session to another, by the look-ups `us`, nothing is asked twice within a request. -/
structure Session.Heard (n : Nat) (s s' : Session) (us : List LookUp) : Prop where
  lookUps : s'.lookUps = us.reverse ++ s.lookUps
  opened : s.Opened n → s'.Opened n
  remembers : Remembers n s s'
  /-- An answer is remembered in the end. -/
  known : s.Opened n → ∀ u ∈ us, u.leaf.situation.request = n → ∀ b, u.answer = .ok b →
    s'.known n u.leaf.question = some b
  /-- An answer that was remembered at first is found. -/
  found : ∀ u ∈ us, u.leaf.situation.request = n → ∀ b, s.known n u.leaf.question = some b →
    u.ran = false ∧ u.answer = .ok b
  once : s.Opened n → us.Pairwise (LookUp.Finds n)

namespace Session.Heard

variable {n : Nat} {s s' s'' : Session} {us vs : List LookUp}

theorem refl (n : Nat) (s : Session) : Heard n s s [] :=
  ⟨rfl, id, .refl n s, fun _ => List.forall_mem_nil _, List.forall_mem_nil _, fun _ => .nil⟩

theorem trans (h : Heard n s s' us) (h' : Heard n s' s'' vs) : Heard n s s'' (us ++ vs) where
  lookUps := by rw [h'.lookUps, h.lookUps, List.reverse_append, List.append_assoc]
  opened hopen := h'.opened (h.opened hopen)
  remembers := h.remembers.trans h'.remembers
  known hopen := List.forall_mem_append.mpr
    ⟨fun u hu hn b hb => h'.remembers _ _ (h.known hopen u hu hn b hb), h'.known (h.opened hopen)⟩
  found := List.forall_mem_append.mpr
    ⟨h.found, fun u hu hn b hb => h'.found u hu hn b (h.remembers _ _ hb)⟩
  once hopen := List.pairwise_append.mpr ⟨h.once hopen, h'.once (h.opened hopen),
    fun u hu v hv hun hvn hq b hb => h'.found v hv hvn b (hq ▸ h.known hopen u hu hun b hb)⟩

/-- Asking a leaf is one look-up. -/
theorem ask (n : Nat) (l : Leaf) (s : Session) : Heard n s (s.ask l).2
    [⟨l, (s.ask l).1, (s.known l.situation.request l.question).isNone⟩] where
  lookUps := Session.lookUps_ask l s
  opened := (Session.opened_ask l s).mpr
  remembers := Session.remembers_ask n l s
  known hopen := List.forall_mem_singleton.mpr fun hn b hb => by
    subst hn
    exact (Session.known_ask_self hopen).trans (congrArg Except.toOption hb)
  found := List.forall_mem_singleton.mpr fun hn b hb => by
    subst hn
    exact ⟨by rw [hb]; rfl, by rw [Session.ask_fst, hb]⟩
  once _ := List.pairwise_singleton _ _

end Session.Heard

namespace Tree

/-- **An evaluation asks nothing twice.** -/
theorem exists_heard (n : Nat) (t : Tree) (s : Session) :
    ∃ us, Session.Heard n s (t.evaluate s).state us :=
  evaluateWith_related (R := fun s s' => ∃ us, Session.Heard n s s' us)
    (fun s => ⟨[], .refl n s⟩) (fun ⟨_, hus⟩ ⟨_, hvs⟩ => ⟨_, hus.trans hvs⟩) t
    (fun l _ s => ⟨_, .ask n l s⟩) s

/-- The look-ups that an evaluation enters, in their order. -/
def entries (t : Tree) (s : Session) : List LookUp :=
  let entered := (t.evaluate s).state.lookUps
  (entered.take (entered.length - s.lookUps.length)).reverse

theorem entries_eq {t : Tree} {s : Session} {us : List LookUp}
    (h : (t.evaluate s).state.lookUps = us.reverse ++ s.lookUps) : t.entries s = us := by
  have hlength : (us.reverse ++ s.lookUps).length - s.lookUps.length = us.reverse.length := by
    rw [List.length_append, Nat.add_sub_cancel]
  simp only [entries]
  rw [h, hlength, List.take_left, List.reverse_reverse]

theorem heard_entries (n : Nat) (t : Tree) (s : Session) :
    Session.Heard n s (t.evaluate s).state (t.entries s) := by
  obtain ⟨us, hus⟩ := t.exists_heard n s
  rwa [entries_eq hus.lookUps]

/-! ## 2. Many attempts -/

/-- The look-ups of some evaluations of a tree, in their order. -/
def heard : Tree → List Session → List LookUp
  | _, [] => []
  | t, s :: ss => t.entries s ++ (t.evaluate s).tree.heard ss

/-- A request whose answers are not forgotten between some evaluations of a tree: each of them
starts from a session that remembers what the one before it left. -/
def Kept (n : Nat) : Tree → List Session → Prop
  | _, [] => True
  | t, s :: ss => s.Opened n ∧
      (∀ s' ∈ ss.head?, Session.Remembers n (t.evaluate s).state s') ∧
      (t.evaluate s).tree.Kept n ss

/-- What the first evaluation starts from is found by all. -/
theorem Kept.found {n : Nat} {t : Tree} {ss : List Session} (h : t.Kept n ss) {s : Session}
    (hs : s ∈ ss.head?) : ∀ u ∈ t.heard ss, u.leaf.situation.request = n →
      ∀ b, s.known n u.leaf.question = some b → u.ran = false ∧ u.answer = .ok b := by
  induction ss generalizing t s with
  | nil => cases hs
  | cons s₁ ss ih =>
    obtain rfl := Option.some.inj hs
    have hheard := t.heard_entries n s₁
    refine List.forall_mem_append.mpr ⟨hheard.found, fun u hu hn b hb => ?_⟩
    cases ss with
    | nil => cases hu
    | cons s' ss =>
      exact ih h.2.2 rfl u hu hn b (h.2.1 s' rfl _ _ (hheard.remembers _ _ hb))

/-- **No question that was answered is asked again** within a request whose answers are kept: not in
the same attempt, nor in a later one. -/
theorem pairwise_heard {n : Nat} {t : Tree} {ss : List Session} (h : t.Kept n ss) :
    (t.heard ss).Pairwise (LookUp.Finds n) := by
  induction ss generalizing t with
  | nil => exact .nil
  | cons s ss ih =>
    have hheard := t.heard_entries n s
    refine List.pairwise_append.mpr ⟨hheard.once h.1, ih h.2.2, fun u hu v hv hun hvn hq b hb => ?_⟩
    cases ss with
    | nil => cases hv
    | cons s' ss =>
      have hknown := h.2.1 s' rfl _ _ (hheard.known h.1 u hu hun b hb)
      exact h.2.2.found rfl v hv hvn b (hq ▸ hknown)

/-- Whether one of some evaluations calls that of the node at a place. -/
def EnteredIn (t : Tree) (p : List Turn) : List Session → Prop
  | [] => False
  | s :: ss => (t.entered? s p).isSome ∨ (t.evaluate s).tree.EnteredIn p ss

/-- A node that no evaluation called is as it was. -/
theorem node?_after {t n : Tree} {p : List Turn} (h : t.node? p = some n) {ss : List Session}
    (hss : ¬ t.EnteredIn p ss) : (t.after ss).node? p = some n := by
  induction ss generalizing t with
  | nil => exact h
  | cons s ss ih =>
    obtain ⟨hs, hss⟩ := not_or.mp hss
    have hnode := node?_evaluate h s
    rw [Option.not_isSome_iff_eq_none.mp hs] at hnode
    exact ih hnode hss

/-- Every node of a new tree is new. -/
theorem Fresh.node? {p : Phase} {t n : Tree} (ht : Fresh p t) {q : List Turn}
    (h : t.node? q = some n) : Fresh p n := by
  induction q generalizing t with
  | nil =>
    cases h
    exact ht
  | cons d q ih =>
    obtain ⟨c, hc, hn⟩ := node?_cons.mp h
    refine ih ?_ hn
    cases ht with
    | check | constant | deferred | unrestricted => cases d <;> cases hc
    | and hl hr | or hl hr | anyField _ hl hr =>
      cases d with
      | first => cases hc; exact hl
      | second => cases hc; exact hr
    | not hr | fieldRule _ hr | entityRule _ hr =>
      cases d with
      | first => cases hc; exact hr
      | second => cases hc

theorem Fresh.status {p : Phase} {t : Tree} (h : Fresh p t) : t.status = .unevaluated := by
  cases h <;> rfl

/-! ## 3. Recorded answers -/

/-- The answers that are recorded at the leaves of a tree, from left to right. -/
def recorded (t : Tree) : List (Leaf × Bool) :=
  t.marks.filterMap fun m => m.2.truth.map (m.1, ·)

theorem Fresh.recorded {p : Phase} {t : Tree} (h : Fresh p t) : t.recorded = [] := by
  refine List.filterMap_eq_nil_iff.mpr fun m hm => ?_
  rw [h.unevaluated m hm]
  rfl

theorem recorded_ofLeaf (l : Leaf) (b : Bool) : (check l (.ofBool b)).recorded = [(l, b)] := by
  cases b <;> rfl

theorem recorded_relay (k : Relay) (c : Tree) (st : Status) :
    (k.node c st).recorded = c.recorded := by
  rw [recorded, k.unary.marks, recorded]

theorem recorded_junction (j : Junction) (l r : Tree) (st : Status) :
    (j.node l r st).recorded = l.recorded ++ r.recorded := by
  rw [recorded, j.binary.marks, List.filterMap_append, recorded, recorded]

/-- `T` is what the new tree `t` comes to if the leaves that it reaches give the answers `us`. -/
inductive Comes : Tree → List (Leaf × Bool) → Tree → Prop where
  | leaf (l : Leaf) (b : Bool) : Comes (.ofLeaf l) [(l, b)] (.check l (.ofBool b))
  | ground {node : Status → Tree} {a : Status} (h : Ground node a) :
      Comes (node .unevaluated) [] (node a)
  | relay (k : Relay) {c c' : Tree} {us : List (Leaf × Bool)} (hc : Comes c us c') :
      Comes (k.node c .unevaluated) us (k.node c' (k.derive c'.status))
  | stop (j : Junction) {l l' r : Tree} {us : List (Leaf × Bool)} (hl : Comes l us l')
      (hstop : l'.status = j.stop) (hr : r.recorded = []) :
      Comes (j.node l r .unevaluated) us (j.node l' r j.stop)
  | both (j : Junction) {l l' r r' : Tree} {us vs : List (Leaf × Bool)} (hl : Comes l us l')
      (hstop : l'.status ≠ j.stop) (hr : Comes r vs r') :
      Comes (j.node l r .unevaluated) (us ++ vs) (j.node l' r' (j.join l'.status r'.status))

/-- `T` is what attempts that ended with an error have made of the new tree `t`. -/
inductive Halfway : Tree → Tree → Prop where
  | leaf (l : Leaf) : Halfway (.ofLeaf l) (.ofLeaf l)
  | ground {node : Status → Tree} {a : Status} (h : Ground node a) :
      Halfway (node .unevaluated) (node .unevaluated)
  | relay (k : Relay) {c c' : Tree} (hc : Halfway c c') :
      Halfway (k.node c .unevaluated) (k.node c' .unevaluated)
  /-- The right child was not reached. -/
  | left (j : Junction) {l l' r : Tree} (hl : Halfway l l') (hr : Halfway r r)
      (hnew : r.recorded = []) : Halfway (j.node l r .unevaluated) (j.node l' r .unevaluated)
  | right (j : Junction) {l l' r r' : Tree} {us : List (Leaf × Bool)} (hl : Comes l us l')
      (hstop : l'.status ≠ j.stop) (hr : Halfway r r') :
      Halfway (j.node l r .unevaluated) (j.node l' r' .unevaluated)

/-- Before the first attempt. -/
theorem Fresh.halfway {p : Phase} {t : Tree} (h : Fresh p t) : Halfway t t := by
  induction h with
  | check l => exact .leaf l
  | constant passed label => exact .ground (.constant passed label)
  | deferred name => exact .ground (.deferred name)
  | unrestricted condition => exact .ground (.unrestricted condition)
  | and _ hr ihl ihr => exact .left .and ihl ihr hr.recorded
  | or _ hr ihl ihr => exact .left .or ihl ihr hr.recorded
  | anyField condition _ hr ihl ihr => exact .left (.anyField condition) ihl ihr hr.recorded
  | not _ ih => exact .relay .not ih
  | fieldRule condition _ ih => exact .relay (.fieldRule condition) ih
  | entityRule condition _ ih => exact .relay (.entityRule condition) ih

namespace Comes

variable {t T : Tree} {us : List (Leaf × Bool)}

theorem ne_unevaluated (h : Comes t us T) : T.status ≠ .unevaluated := by
  induction h with
  | leaf l b => exact Status.ofBool_ne_unevaluated b
  | ground h =>
    rw [h.status]
    exact h.ne_unevaluated
  | relay k _ ih =>
    rw [k.unary.status]
    exact k.derive_ne_unevaluated ih
  | stop j _ _ _ _ =>
    rw [j.binary.status]
    exact j.stop_ne_unevaluated
  | both j _ _ _ _ _ =>
    rw [j.binary.status]
    exact j.join_ne_unevaluated _ _

/-- The answers are those that are recorded. -/
theorem recorded_eq (h : Comes t us T) : T.recorded = us := by
  induction h with
  | leaf l b => exact recorded_ofLeaf l b
  | ground h =>
    rw [recorded, h.marks]
    rfl
  | relay k _ ih => rw [recorded_relay, ih]
  | stop j _ _ hr ih => rw [recorded_junction, ih, hr, List.append_nil]
  | both j _ _ _ ihl ihr => rw [recorded_junction, ihl, ihr]

end Comes

/-! ## 4. One more attempt -/

/-- What an evaluation makes of what attempts at `t` have left: a tree that came to its status, or
one that is still open. -/
def Advances (t : Tree) (e : Evaluation Session) : Prop :=
  match e.result with
  | .ok st => (∃ us, Comes t us e.tree) ∧ e.tree.status = st
  | .error _ => Halfway t e.tree

theorem Advances.of_ok {t : Tree} {e : Evaluation Session} {st : Status} (h : e.result = .ok st)
    (ht : (∃ us, Comes t us e.tree) ∧ e.tree.status = st) : Advances t e := by
  rwa [Advances, h]

theorem Advances.of_error {t : Tree} {e : Evaluation Session} {f : CheckFailure}
    (h : e.result = .error f) (ht : Halfway t e.tree) : Advances t e := by
  rwa [Advances, h]

theorem Advances.comes {t : Tree} {e : Evaluation Session} (h : Advances t e) {st : Status}
    (hok : e.result = .ok st) : (∃ us, Comes t us e.tree) ∧ e.tree.status = st := by
  rwa [Advances, hok] at h

theorem Advances.halfway {t : Tree} {e : Evaluation Session} (h : Advances t e) {f : CheckFailure}
    (herror : e.result = .error f) : Halfway t e.tree := by
  rwa [Advances, herror] at h

/-- The right child is evaluated after the left one came to a status that settles nothing. -/
theorem Advances.right (j : Junction) {l l' r : Tree} {us : List (Leaf × Bool)}
    {e : Evaluation Session} (hl : Comes l us l') (hstop : l'.status ≠ j.stop)
    (hr : Advances r e) :
    Advances (j.node l r .unevaluated) (.single (j.node l') (j.join l'.status) e) := by
  cases he : e.result with
  | error f =>
    rw [Evaluation.single_of_error _ _ he]
    exact .of_error rfl (.right j hl hstop (hr.halfway he))
  | ok b =>
    obtain ⟨⟨vs, hvs⟩, rfl⟩ := hr.comes he
    rw [Evaluation.single_of_ok _ _ he]
    exact .of_ok rfl ⟨⟨_, .both j hl hstop hvs⟩, j.binary.status _ _ _⟩

/-- **An attempt goes on from where the last one stopped**, and comes to a status or is stopped
again. -/
theorem evaluate_halfway {t T : Tree} (h : Halfway t T) (s : Session) :
    Advances t (T.evaluate s) := by
  induction h generalizing s with
  | leaf l =>
    rw [evaluate_ofLeaf]
    cases ha : (s.ask l).1 with
    | error detail =>
      rw [Evaluation.asked_of_error l ha]
      exact .of_error rfl (.leaf l)
    | ok b =>
      rw [Evaluation.asked_of_ok l ha]
      exact .of_ok rfl ⟨⟨_, .leaf l b⟩, rfl⟩
  | ground hg =>
    rw [hg.evaluate_node]
    exact .of_ok rfl ⟨⟨_, .ground hg⟩, hg.status _⟩
  | @relay k c c' _ ih =>
    rw [k.evaluate_node]
    cases hc : (c'.evaluate s).result with
    | error f =>
      rw [Evaluation.single_of_error _ _ hc]
      exact .of_error rfl (.relay k ((ih s).halfway hc))
    | ok a =>
      obtain ⟨⟨us, hus⟩, rfl⟩ := (ih s).comes hc
      rw [Evaluation.single_of_ok _ _ hc]
      exact .of_ok rfl ⟨⟨_, .relay k hus⟩, k.unary.status _ _⟩
  | @left j l l' r _ hr hnew ihl ihr =>
    rw [j.evaluate_node]
    cases hl : (l'.evaluate s).result with
    | error f =>
      rw [Evaluation.pair_of_error _ _ _ _ _ hl]
      exact .of_error rfl (.left j ((ihl s).halfway hl) hr hnew)
    | ok a =>
      obtain ⟨⟨us, hus⟩, rfl⟩ := (ihl s).comes hl
      by_cases hstop : (l'.evaluate s).tree.status = j.stop
      · rw [hstop] at hl
        rw [Evaluation.pair_of_stop _ _ _ _ _ hl]
        exact .of_ok rfl ⟨⟨_, .stop j hus hstop hnew⟩, j.binary.status _ _ _⟩
      · rw [Evaluation.pair_of_ok _ _ _ _ _ hl hstop]
        exact .right j hus hstop (ihr _)
  | @right j l l' r r' us hl hstop _ ih =>
    -- the left child has its status and is not evaluated again
    have hleft := evaluate_of_settled hl.ne_unevaluated s
    rw [j.evaluate_node, hleft, Evaluation.pair_of_ok _ _ _ _ _ rfl hstop]
    exact .right j hl hstop (ih s)

/-- After any attempts a new tree is still open, or it came to its status. -/
theorem after_halfway {t T : Tree} (h : (∃ us, Comes t us T) ∨ Halfway t T) (ss : List Session) :
    (∃ us, Comes t us (T.after ss)) ∨ Halfway t (T.after ss) := by
  induction ss generalizing T with
  | nil => exact h
  | cons s ss ih =>
    refine ih ?_
    rcases h with ⟨us, hus⟩ | h
    · rw [evaluate_of_settled hus.ne_unevaluated]
      exact .inl ⟨us, hus⟩
    · cases hr : (T.evaluate s).result with
      | ok st => exact .inl ((evaluate_halfway h s).comes hr).1
      | error f => exact .inr ((evaluate_halfway h s).halfway hr)

/-! ## 5. One attempt instead of many -/

/-- Leaves that are asked one after the other give these answers, from one state to another. -/
def Gives {σ : Type} (ask : Leaf → σ → Answer × σ) : List (Leaf × Bool) → σ → σ → Prop
  | [], s, s' => s' = s
  | u :: us, s, s' => (ask u.1 s).1 = .ok u.2 ∧ Gives ask us (ask u.1 s).2 s'

theorem gives_append {σ : Type} {ask : Leaf → σ → Answer × σ} {us vs : List (Leaf × Bool)}
    {s s' : σ} : Gives ask (us ++ vs) s s' ↔ ∃ s₁, Gives ask us s s₁ ∧ Gives ask vs s₁ s' := by
  induction us generalizing s with
  | nil => exact ⟨fun h => ⟨s, rfl, h⟩, fun ⟨_, rfl, h⟩ => h⟩
  | cons u us ih =>
    rw [List.cons_append, Gives, ih]
    exact ⟨fun ⟨ha, s₁, h, h'⟩ => ⟨s₁, ⟨ha, h⟩, h'⟩, fun ⟨s₁, ⟨ha, h⟩, h'⟩ => ⟨ha, s₁, h, h'⟩⟩

/-- Answers that are read from a list. -/
def dictated (_ : Leaf) : List Bool → Answer × List Bool
  | [] => (.error "", [])
  | b :: bs => (.ok b, bs)

/-- Any answers can be given. -/
theorem gives_dictated (us : List (Leaf × Bool)) : Gives dictated us (us.map (·.2)) [] := by
  induction us with
  | nil => rfl
  | cons u us ih => exact ⟨rfl, ih⟩

/-- **One evaluation in which the leaves give the answers finds the same tree**, and asks these
leaves alone. -/
theorem Comes.evaluateWith_eq {σ : Type} {ask : Leaf → σ → Answer × σ} {t T : Tree}
    {us : List (Leaf × Bool)} (h : Comes t us T) {s s' : σ} (hus : Gives ask us s s') :
    t.evaluateWith ask s = ⟨.ok T.status, T, s'⟩ := by
  induction h generalizing s s' with
  | leaf l b =>
    obtain ⟨ha, rfl⟩ := hus
    change Evaluation.asked l (ask l s) = _
    rw [Evaluation.asked_of_ok l ha]
    rfl
  | ground hg =>
    cases hus
    rw [hg.evaluateWith_node, hg.status]
    rfl
  | relay k _ ih =>
    rw [k.evaluateWith_node, ih hus, Evaluation.single_of_ok _ _ rfl, k.unary.status]
    rfl
  | stop j _ hstop _ ih =>
    rw [j.evaluateWith_node, ih hus, hstop, Evaluation.pair_of_stop _ _ _ _ _ rfl, j.binary.status]
    rfl
  | both j _ hstop _ ihl ihr =>
    obtain ⟨s₁, hl, hr⟩ := gives_append.mp hus
    rw [j.evaluateWith_node, ihl hl, Evaluation.pair_of_ok _ _ _ _ _ rfl hstop, ihr hr,
      Evaluation.single_of_ok _ _ rfl, j.binary.status]
    rfl

/-! ## 6. What holds of every attempt -/

/-- An evaluation that ended with the error of the leaf `l` at the place `p`, and what it left. -/
structure Interrupted (t : Tree) (s : Session) (f : CheckFailure) (p : List Turn) (l : Leaf) :
    Prop extends FailsAt t s f p l where
  /-- The nodes on the way to the leaf, both ends included, have no status. -/
  path : ∀ q, q <+: p → ∃ n, (t.evaluate s).tree.node? q = some n ∧ n.status = .unevaluated
  /-- A node that was not called is as it was. -/
  unreached : ∀ q n, t.node? q = some n → t.entered? s q = none →
    (t.evaluate s).tree.node? q = some n
  /-- Every other node that was called has the status that its evaluation returned. -/
  finished : ∀ q n s', t.node? q = some n → t.entered? s q = some s' → ¬ q <+: p →
    ∃ st, (n.evaluate s').result = .ok st ∧ (n.evaluate s').tree.status = st ∧
      (t.evaluate s).tree.node? q = some (n.evaluate s').tree
  /-- A node that had its status before is as it was. -/
  kept : ∀ q n, t.node? q = some n → n.status ≠ .unevaluated →
    (t.evaluate s).tree.node? q = some n

theorem FailsAt.interrupted {t : Tree} {s : Session} {f : CheckFailure} {p : List Turn} {l : Leaf}
    (h : FailsAt t s f p l) : Interrupted t s f p l where
  toFailsAt := h
  path q hq := by
    obtain ⟨n, s', hn, hs', hf⟩ := h.onPath q hq
    have hnode := node?_evaluate hn s
    rw [hs'] at hnode
    exact ⟨_, hnode, status_of_evaluate_error hf⟩
  unreached q n hn hs := by
    rw [node?_evaluate hn, hs]
  finished q n s' hn hs' hq := by
    obtain ⟨st, hst⟩ := h.offPath q n s' hn hs' hq
    have hnode := node?_evaluate hn s
    rw [hs'] at hnode
    exact ⟨st, hst, status_of_evaluate_ok hst, hnode⟩
  kept q n hn hst := node?_evaluate_of_settled hn hst s

/-- What holds of a new tree `t` after the attempts `ss`, however they ended. -/
structure Resumes (t : Tree) (ss : List Session) : Prop where
  /-- A node whose evaluation returned a status stays as it is, whatever is evaluated later, and
  returns that status from then on, from any session and without changing it. -/
  memoised : ∀ s q n s' st, (t.after ss).node? q = some n → (t.after ss).entered? s q = some s' →
    (n.evaluate s').result = .ok st → ∃ n', n'.status = st ∧
      (∀ ss', (((t.after ss).evaluate s).tree.after ss').node? q = some n') ∧
      ∀ s'', n'.evaluate s'' = ⟨.ok st, n', s''⟩
  /-- An error comes from one leaf and leaves the way to it open, and nothing else. -/
  interrupted : ∀ s f, ((t.after ss).evaluate s).result = .error f →
    ∃ p l, Interrupted (t.after ss) s f p l
  /-- A node that was never called is as new. -/
  unreached : ∀ q n, t.node? q = some n → ¬ t.EnteredIn q ss →
    (t.after ss).node? q = some n ∧ n.status = .unevaluated
  /-- The next attempt looks up the leaves that it visits, and visits none that has its status. -/
  visited : ∀ s, ((t.after ss).entries s).map (fun u => (u.leaf, u.answer)) =
    reached (t.after ss).leaves ((t.after ss).visits s)
  skipped : ∀ s (i : Nat) l st, (t.after ss).marks[i]? = some (l, st) → st ≠ .unevaluated →
    ((t.after ss).visits s)[i]? = some none
  /-- Where answers are kept, no question that was answered is asked again. -/
  once : ∀ n, t.Kept n ss → (t.heard ss).Pairwise (LookUp.Finds n)
  /-- When an attempt returns a status, a single one in which the leaves give the answers that are
  recorded returns the same status and leaves the same statuses. -/
  single : ∀ s st, ((t.after ss).evaluate s).result = .ok st →
    ∀ {σ : Type} (ask : Leaf → σ → Answer × σ) (s₀ s₁ : σ),
      Gives ask ((t.after ss).evaluate s).tree.recorded s₀ s₁ →
      t.evaluateWith ask s₀ = ⟨.ok st, ((t.after ss).evaluate s).tree, s₁⟩

/-- **Evaluation is memoised, and resumes after errors.** -/
theorem evaluation_resumes {p : Phase} {t : Tree} (ht : Fresh p t) (ss : List Session) :
    Resumes t ss where
  memoised s q n s' st hn hs' hst := by
    have hstatus := status_of_evaluate_ok hst
    have hne : (n.evaluate s').tree.status ≠ .unevaluated := by
      rw [hstatus]
      exact ne_unevaluated_of_evaluate hst
    have hnode := node?_evaluate hn s
    rw [hs'] at hnode
    refine ⟨_, hstatus, node?_after_of_settled hnode hne, fun s'' => ?_⟩
    rw [evaluate_of_settled hne, hstatus]
  interrupted s f hf := by
    obtain ⟨q, l, h⟩ := exists_failsAt hf
    exact ⟨q, l, h.interrupted⟩
  unreached q n hn hq := ⟨node?_after hn hq, (ht.node? hn).status⟩
  visited s := by
    obtain ⟨us, hus, hreached⟩ := (visited_evaluate (t.after ss) s).lookUps
    rw [entries_eq hus, hreached]
  skipped s i l st hm hst := by
    have hvisited := visited_evaluate (t.after ss) s
    obtain ⟨hi, -⟩ := List.getElem?_eq_some_iff.mp hm
    obtain ⟨v, hv⟩ : ∃ v, ((t.after ss).visits s)[i]? = some v :=
      ⟨_, List.getElem?_eq_getElem (hvisited.length ▸ hi)⟩
    cases v with
    | none => exact hv
    | some a => exact absurd (hvisited.fresh i _ a hm hv) hst
  once n hn := pairwise_heard hn
  single s st hst σ ask s₀ s₁ hgives := by
    rcases after_halfway (.inr ht.halfway) ss with ⟨us, hus⟩ | h
    · rw [evaluate_of_settled hus.ne_unevaluated] at hst hgives ⊢
      cases hst
      rw [hus.recorded_eq] at hgives
      exact hus.evaluateWith_eq hgives
    · obtain ⟨⟨us, hus⟩, hstatus⟩ := (evaluate_halfway h s).comes hst
      rw [hus.recorded_eq] at hgives
      rw [hus.evaluateWith_eq hgives, hstatus]

end Tree

/-! A check that is offline at first. -/

namespace Specimen

/-- Raises an error in the first attempt. -/
def online : Leaf :=
  ⟨"online", ⟨1, .custom .user fun runs _ =>
    if runs.length < 2 then .error "offline" else .ok true⟩, situation false⟩

def guarded : Tree :=
  .and (.not (.ofLeaf (ownerLeaf false)) .unevaluated) (.ofLeaf online) .unevaluated

/-- What the first attempt leaves. -/
def interrupted : Tree := (guarded.evaluate opened).tree

def between : Session := (guarded.evaluate opened).state

end Specimen

open Specimen in
/-- The second attempt leaves the first check alone, and the end is that of a single attempt. -/
theorem Tree.evaluation_resumes_offline :
    Tree.Fresh .preview guarded ∧ Tree.Resumes guarded [opened] ∧
      (guarded.evaluate opened).result = .error ⟨"online", "offline"⟩ ∧
      (interrupted.evaluate between).result = .ok .passed ∧
      interrupted.entries between = [⟨online, .ok true, true⟩] ∧
      guarded.evaluateWith Tree.dictated [false, true] =
        ⟨.ok .passed, (interrupted.evaluate between).tree, []⟩ := by
  have ht : Tree.Fresh .preview guarded := .and (.not (.check _)) (.check online)
  have h : Tree.Resumes guarded [opened] := Tree.evaluation_resumes ht [opened]
  have hok : (interrupted.evaluate between).result = .ok .passed := rfl
  have hentered : (interrupted.evaluate between).state.lookUps =
      [⟨online, .ok true, true⟩].reverse ++ between.lookUps := rfl
  have htree : (interrupted.evaluate between).tree =
      .and (.not (.check (ownerLeaf false) .failed) .passed) (.check online .passed) .passed := rfl
  have hgives : Tree.Gives Tree.dictated (interrupted.evaluate between).tree.recorded
      [false, true] [] := by
    rw [htree]
    exact Tree.gives_dictated [(ownerLeaf false, false), (online, true)]
  exact ⟨ht, h, rfl, hok, Tree.entries_eq hentered,
    h.single between .passed hok Tree.dictated _ _ hgives⟩

end AccessRules
