/-
# The rule of evaluation

Evaluation goes from left to right, stops where the left operand settles a connective, and otherwise
takes the strong connective of both.  `ShortCircuit` says so as a relation, with one clause for each
way in which a new node comes to its outcome, the statuses that this leaves and the look-ups that it
takes.

The strong connectives are those of truth values that are not known yet: a deferred operand may come
to a yes or to a no, and a connective says what all of these have in common (`Status.Strong`).

* `evaluate_of_shortCircuit`: what the rule says, the evaluation does;
* `exists_shortCircuit`: the rule says something about every tree that can be made;
* `evaluate_byRule`: so the rule and the evaluation are the same, look-up for look-up.
-/
import AccessRules.Proofs.Planning

namespace AccessRules

namespace Status

/-! ## 1. The strong connectives -/

/-- Whether a status leaves it open that the truth is `v`. -/
def Allows (s : Status) (v : Bool) : Prop := s.Refines (ofBool v)

instance (s : Status) (v : Bool) : Decidable (s.Allows v) :=
  inferInstanceAs (Decidable (s = deferred ∨ s = ofBool v))

/-- `c` allows what `op` makes of all that `a` and `b` allow, and nothing else. -/
def Strong (op : Bool → Bool → Bool) (a b c : Status) : Prop :=
  ∀ v, c.Allows v ↔ ∃ x y, a.Allows x ∧ b.Allows y ∧ op x y = v

/-- `c` allows what `a` does, the other way round. -/
def Opposite (a c : Status) : Prop := ∀ v, c.Allows v ↔ a.Allows (!v)

instance (op : Bool → Bool → Bool) (a b c : Status) : Decidable (Strong op a b c) :=
  inferInstanceAs (Decidable (∀ v, c.Allows v ↔ ∃ x y, a.Allows x ∧ b.Allows y ∧ op x y = v))

instance (a c : Status) : Decidable (Opposite a c) :=
  inferInstanceAs (Decidable (∀ v, c.Allows v ↔ a.Allows (!v)))

variable {a b c : Status}

/-- The conjunction of statuses is the strong one, and there is no other. -/
theorem strong_and (ha : a ≠ unevaluated) (hb : b ≠ unevaluated) :
    Strong (· && ·) a b c ↔ c = a.and b := by
  cases a with
  | unevaluated => exact absurd rfl ha
  | _ =>
    cases b with
    | unevaluated => exact absurd rfl hb
    | _ => cases c <;> decide

theorem strong_or (ha : a ≠ unevaluated) (hb : b ≠ unevaluated) :
    Strong (· || ·) a b c ↔ c = a.or b := by
  cases a with
  | unevaluated => exact absurd rfl ha
  | _ =>
    cases b with
    | unevaluated => exact absurd rfl hb
    | _ => cases c <;> decide

theorem opposite_iff (ha : a ≠ unevaluated) : Opposite a c ↔ c = a.negate := by
  cases a with
  | unevaluated => exact absurd rfl ha
  | _ => cases c <;> decide

end Status

/-! ## 2. The rule -/

/-- What a connective does to truth values. -/
def Junction.op : Junction → Bool → Bool → Bool
  | and => (· && ·)
  | or | anyField _ => (· || ·)

/-- The trees that can be made, by any nesting of what makes a tree. -/
inductive Made : Tree → Prop where
  | ofLeaf (leaf : Leaf) : Made (.ofLeaf leaf)
  | success : Made .success
  | failure : Made .failure
  | labelled (passed : Bool) (label : String) : Made (.labelled passed label)
  | later (name : String) : Made (.later name)
  | junction (j : Junction) {l r : Tree} (hl : Made l) (hr : Made r) :
      Made (j.node l r .unevaluated)
  | not {c : Tree} (hc : Made c) : Made (.not c .unevaluated)
  | forField (condition : Condition) {field entity : Option Tree}
      (hf : ∀ r, field = some r → Made r) (he : ∀ r, entity = some r → Made r) :
      Made (.forField condition field entity)

/-- The status that an outcome leaves at a node: none where it is an error. -/
def Status.ofOutcome : Except CheckFailure Status → Status
  | .ok a => a
  | .error _ => .unevaluated

/-- **The rule of evaluation.**  From a session, a new tree comes to the given end by the given
look-ups, in their order. -/
inductive ShortCircuit : Tree → Session → List LookUp → Evaluation Session → Prop where
  | remembered {l : Leaf} {s : Session} {b : Bool}
      (hknown : s.known l.situation.request l.question = some b) :
      ShortCircuit (.ofLeaf l) s [⟨l, .ok b, false⟩]
        ⟨.ok (.ofBool b), .check l (.ofBool b), (s.ask l).2⟩
  | answered {l : Leaf} {s : Session} {b : Bool}
      (hknown : s.known l.situation.request l.question = none)
      (hrun : l.check.procedure.answer s.runs l.context = .ok b) :
      ShortCircuit (.ofLeaf l) s [⟨l, .ok b, true⟩]
        ⟨.ok (.ofBool b), .check l (.ofBool b), (s.ask l).2⟩
  | raised {l : Leaf} {s : Session} {detail : String}
      (hknown : s.known l.situation.request l.question = none)
      (hrun : l.check.procedure.answer s.runs l.context = .error detail) :
      ShortCircuit (.ofLeaf l) s [⟨l, .error detail, true⟩]
        ⟨.error ⟨l.name, detail⟩, .ofLeaf l, (s.ask l).2⟩
  | success (s : Session) :
      ShortCircuit .success s [] ⟨.ok .passed, .constant true none .passed, s⟩
  | failure (s : Session) :
      ShortCircuit .failure s [] ⟨.ok .failed, .constant false none .failed, s⟩
  | labelled (passed : Bool) (label : String) (s : Session) :
      ShortCircuit (.labelled passed label) s []
        ⟨.ok (.ofBool passed), .constant passed label (.ofBool passed), s⟩
  | later (name : String) (s : Session) :
      ShortCircuit (.later name) s [] ⟨.ok .deferred, .deferred name .deferred, s⟩
  /-- An error on the left: the right operand is not touched. -/
  | leftError (j : Junction) {l l' r : Tree} {s s' : Session} {us : List LookUp} {f : CheckFailure}
      (hl : ShortCircuit l s us ⟨.error f, l', s'⟩) :
      ShortCircuit (j.node l r .unevaluated) s us ⟨.error f, j.node l' r .unevaluated, s'⟩
  /-- The left operand settles the node: the right one is not touched. -/
  | stop (j : Junction) {l l' r : Tree} {s s' : Session} {us : List LookUp}
      (hl : ShortCircuit l s us ⟨.ok j.stop, l', s'⟩) :
      ShortCircuit (j.node l r .unevaluated) s us ⟨.ok j.stop, j.node l' r j.stop, s'⟩
  | rightError (j : Junction) {l l' r r' : Tree} {s s₁ s₂ : Session} {us vs : List LookUp}
      {a : Status} {f : CheckFailure} (hl : ShortCircuit l s us ⟨.ok a, l', s₁⟩) (ha : a ≠ j.stop)
      (hr : ShortCircuit r s₁ vs ⟨.error f, r', s₂⟩) :
      ShortCircuit (j.node l r .unevaluated) s (us ++ vs)
        ⟨.error f, j.node l' r' .unevaluated, s₂⟩
  | both (j : Junction) {l l' r r' : Tree} {s s₁ s₂ : Session} {us vs : List LookUp}
      {a b c : Status} (hl : ShortCircuit l s us ⟨.ok a, l', s₁⟩) (ha : a ≠ j.stop)
      (hr : ShortCircuit r s₁ vs ⟨.ok b, r', s₂⟩) (hc : Status.Strong j.op a b c) :
      ShortCircuit (j.node l r .unevaluated) s (us ++ vs) ⟨.ok c, j.node l' r' c, s₂⟩
  | notError {t t' : Tree} {s s' : Session} {us : List LookUp} {f : CheckFailure}
      (h : ShortCircuit t s us ⟨.error f, t', s'⟩) :
      ShortCircuit (.not t .unevaluated) s us ⟨.error f, .not t' .unevaluated, s'⟩
  | not {t t' : Tree} {s s' : Session} {us : List LookUp} {a c : Status}
      (h : ShortCircuit t s us ⟨.ok a, t', s'⟩) (hc : a.Opposite c) :
      ShortCircuit (.not t .unevaluated) s us ⟨.ok c, .not t' c, s'⟩
  /-- A field with a rule of its own goes by it alone. -/
  | field (condition : Condition) {t t' : Tree} {entity : Option Tree} {s s' : Session}
      {us : List LookUp} {r : Except CheckFailure Status} (h : ShortCircuit t s us ⟨r, t', s'⟩) :
      ShortCircuit (.forField condition (some t) entity) s us
        ⟨r, .fieldRule condition t' (.ofOutcome r), s'⟩
  | entity (condition : Condition) {t t' : Tree} {s s' : Session} {us : List LookUp}
      {r : Except CheckFailure Status} (h : ShortCircuit t s us ⟨r, t', s'⟩) :
      ShortCircuit (.forField condition none (some t)) s us
        ⟨r, .entityRule condition t' (.ofOutcome r), s'⟩
  | unrestricted (condition : Condition) (s : Session) :
      ShortCircuit (.forField condition none none) s []
        ⟨.ok .passed, .unrestricted condition .passed, s⟩

/-! ## 3. One node -/

theorem Junction.strong_iff (j : Junction) {a b c : Status} (ha : a ≠ .unevaluated)
    (hb : b ≠ .unevaluated) : Status.Strong j.op a b c ↔ c = j.join a b := by
  cases j with
  | and => exact Status.strong_and ha hb
  | or | anyField _ => exact Status.strong_or ha hb

/-- A node that takes over the status of its child ends as the child does. -/
theorem Evaluation.single_id {σ : Type} (node : Tree → Status → Tree) (child : Evaluation σ) :
    single node id child =
      ⟨child.result, node child.tree (.ofOutcome child.result), child.state⟩ := by
  cases h : child.result with
  | error f => rw [single_of_error node id h, stopped, Status.ofOutcome]
  | ok a => rw [single_of_ok node id h, settled, Status.ofOutcome, id]

namespace Tree

variable (s : Session)

theorem evaluate_not (t : Tree) :
    (Tree.not t .unevaluated).evaluate s = Evaluation.single .not Status.negate (t.evaluate s) :=
  rfl

theorem evaluate_field (condition : Condition) (t : Tree) (entity : Option Tree) :
    (forField condition (some t) entity).evaluate s =
      Evaluation.single (.fieldRule condition) id (t.evaluate s) := rfl

theorem evaluate_entity (condition : Condition) (t : Tree) :
    (forField condition none (some t)).evaluate s =
      Evaluation.single (.entityRule condition) id (t.evaluate s) := rfl

/-- What an evaluation returns is a status that says something. -/
theorem ne_unevaluated_of_evaluate {t : Tree} {s : Session} {a : Status}
    (h : (t.evaluate s).result = .ok a) : a ≠ .unevaluated := by
  rw [evaluate] at h
  exact (evaluateWith_settles t s a h).2

end Tree

/-! ## 4. The evaluation does what the rule says -/

section Rule

variable {t : Tree} {s : Session} {us : List LookUp} {e : Evaluation Session}

/-- **What the rule says, the evaluation does**, and it enters the look-ups of the rule. -/
theorem evaluate_of_shortCircuit (h : ShortCircuit t s us e) :
    t.evaluate s = e ∧ e.state.lookUps = us.reverse ++ s.lookUps := by
  induction h with
  | @remembered l s b hknown =>
    have ha : (s.ask l).1 = .ok b := by rw [Session.ask_fst, hknown]
    rw [Tree.evaluate_ofLeaf, Evaluation.asked_of_ok l ha, Session.lookUps_ask, ha, hknown]
    exact ⟨rfl, rfl⟩
  | @answered l s b hknown hrun =>
    have ha : (s.ask l).1 = .ok b := by rw [Session.ask_fst, hknown, hrun]
    rw [Tree.evaluate_ofLeaf, Evaluation.asked_of_ok l ha, Session.lookUps_ask, ha, hknown]
    exact ⟨rfl, rfl⟩
  | @raised l s detail hknown hrun =>
    have ha : (s.ask l).1 = .error detail := by rw [Session.ask_fst, hknown, hrun]
    rw [Tree.evaluate_ofLeaf, Evaluation.asked_of_error l ha, Session.lookUps_ask, ha, hknown]
    exact ⟨rfl, rfl⟩
  | success | failure | labelled | later | unrestricted => exact ⟨rfl, rfl⟩
  | @leftError j l l' r s s' us f _ ih =>
    obtain ⟨hl, hentered⟩ := ih
    rw [j.evaluate_node, hl, Evaluation.pair_of_error _ _ _ _ _ rfl]
    exact ⟨rfl, hentered⟩
  | @stop j l l' r s s' us _ ih =>
    obtain ⟨hl, hentered⟩ := ih
    rw [j.evaluate_node, hl, Evaluation.pair_of_stop _ _ _ _ _ rfl]
    exact ⟨rfl, hentered⟩
  | @rightError j l l' r r' s s₁ s₂ us vs a f _ ha _ ihl ihr =>
    obtain ⟨hl, hus⟩ := ihl
    obtain ⟨hr, hvs⟩ := ihr
    rw [j.evaluate_node, hl, Evaluation.pair_of_ok _ _ _ _ _ rfl ha, hr,
      Evaluation.single_of_error _ _ rfl]
    exact ⟨rfl, by rw [hvs, hus, List.reverse_append, List.append_assoc]⟩
  | @both j l l' r r' s s₁ s₂ us vs a b c _ ha _ hc ihl ihr =>
    obtain ⟨hl, hus⟩ := ihl
    obtain ⟨hr, hvs⟩ := ihr
    have hjoin : c = j.join a b :=
      (j.strong_iff (Tree.ne_unevaluated_of_evaluate (congrArg (·.result) hl))
        (Tree.ne_unevaluated_of_evaluate (congrArg (·.result) hr))).mp hc
    rw [j.evaluate_node, hl, Evaluation.pair_of_ok _ _ _ _ _ rfl ha, hr,
      Evaluation.single_of_ok _ _ rfl, hjoin]
    exact ⟨rfl, by rw [hvs, hus, List.reverse_append, List.append_assoc]⟩
  | @notError t t' s s' us f _ ih =>
    obtain ⟨hchild, hentered⟩ := ih
    rw [Tree.evaluate_not, hchild, Evaluation.single_of_error _ _ rfl]
    exact ⟨rfl, hentered⟩
  | @not t t' s s' us a c _ hc ih =>
    obtain ⟨hchild, hentered⟩ := ih
    have hnegate : c = a.negate :=
      (Status.opposite_iff (Tree.ne_unevaluated_of_evaluate (congrArg (·.result) hchild))).mp hc
    rw [Tree.evaluate_not, hchild, Evaluation.single_of_ok _ _ rfl, hnegate]
    exact ⟨rfl, hentered⟩
  | field condition _ ih =>
    rw [Tree.evaluate_field, ih.1, Evaluation.single_id]
    exact ⟨rfl, ih.2⟩
  | entity condition _ ih =>
    rw [Tree.evaluate_entity, ih.1, Evaluation.single_id]
    exact ⟨rfl, ih.2⟩

/-- The rule reaches the leaves from left to right. -/
theorem ShortCircuit.inOrder (h : ShortCircuit t s us e) :
    (us.map (·.leaf)).Sublist t.leaves := by
  induction h with
  | remembered | answered | raised => exact .refl _
  | success | failure | labelled | later | unrestricted => exact .slnil
  | leftError j _ ih | stop j _ ih =>
    rw [j.binary.leaves]
    exact ih.trans (List.sublist_append_left _ _)
  | rightError j _ _ _ ihl ihr | both j _ _ _ _ ihl ihr =>
    rw [j.binary.leaves, List.map_append]
    exact ihl.append ihr
  | notError _ ih | not _ _ ih | field _ _ ih | entity _ _ ih => exact ih

/-- The first error that the rule meets is its outcome. -/
theorem ShortCircuit.explain (h : ShortCircuit t s us e) : Explain us e.result := by
  induction h with
  | remembered | answered => exact List.forall_mem_singleton.mpr ⟨_, rfl⟩
  | raised => exact ⟨[], _, rfl, List.forall_mem_nil _, rfl, rfl⟩
  | success | failure | labelled | later | unrestricted => exact List.forall_mem_nil _
  | leftError _ _ ih | stop _ _ ih => exact ih
  | rightError _ _ _ _ ihl ihr | both _ _ _ _ _ ihl ihr => exact Explain.append ihl ihr
  | notError _ ih | not _ _ ih | field _ _ ih | entity _ _ ih => exact ih

/-! ## 5. The rule covers every tree -/

theorem exists_shortCircuit_ofLeaf (l : Leaf) (s : Session) :
    ∃ us e, ShortCircuit (.ofLeaf l) s us e := by
  cases hknown : s.known l.situation.request l.question with
  | some b => exact ⟨_, _, .remembered hknown⟩
  | none =>
    cases hrun : l.check.procedure.answer s.runs l.context with
    | ok b => exact ⟨_, _, .answered hknown hrun⟩
    | error detail => exact ⟨_, _, .raised hknown hrun⟩

/-- **The rule says something about every tree that can be made**, from every session. -/
theorem exists_shortCircuit (ht : Made t) (s : Session) : ∃ us e, ShortCircuit t s us e := by
  have decided : ∀ {t : Tree} {s s' : Session} {us : List LookUp} {a : Status} {t' : Tree},
      ShortCircuit t s us ⟨.ok a, t', s'⟩ → a ≠ .unevaluated := fun h =>
    Tree.ne_unevaluated_of_evaluate (congrArg (·.result) (evaluate_of_shortCircuit h).1)
  induction ht generalizing s with
  | ofLeaf l => exact exists_shortCircuit_ofLeaf l s
  | success => exact ⟨_, _, .success s⟩
  | failure => exact ⟨_, _, .failure s⟩
  | labelled passed label => exact ⟨_, _, .labelled passed label s⟩
  | later name => exact ⟨_, _, .later name s⟩
  | junction j _ _ ihl ihr =>
    obtain ⟨us, ⟨left, l', s₁⟩, hl⟩ := ihl s
    cases left with
    | error f => exact ⟨_, _, .leftError j hl⟩
    | ok a =>
      rcases eq_or_ne a j.stop with rfl | ha
      · exact ⟨_, _, .stop j hl⟩
      · obtain ⟨vs, ⟨right, r', s₂⟩, hr⟩ := ihr s₁
        cases right with
        | error f => exact ⟨_, _, .rightError j hl ha hr⟩
        | ok b => exact ⟨_, _, .both j hl ha hr ((j.strong_iff (decided hl) (decided hr)).mpr rfl)⟩
  | not _ ih =>
    obtain ⟨us, ⟨r, t', s'⟩, h⟩ := ih s
    cases r with
    | error f => exact ⟨_, _, .notError h⟩
    | ok a => exact ⟨_, _, .not h ((Status.opposite_iff (decided h)).mpr rfl)⟩
  | @forField condition field entity _ _ ihf ihe =>
    cases field with
    | some rule =>
      obtain ⟨us, e, h⟩ := ihf rule rfl s
      exact ⟨_, _, .field condition h⟩
    | none =>
      cases entity with
      | some rule =>
        obtain ⟨us, e, h⟩ := ihe rule rfl s
        exact ⟨_, _, .entity condition h⟩
      | none => exact ⟨_, _, .unrestricted condition s⟩

end Rule

/-! ## 6. The rule and the evaluation are the same -/

/-- The evaluation of a tree from a session goes by the rule, with the look-ups `us`. -/
structure ByRule (t : Tree) (s : Session) (us : List LookUp) : Prop where
  /-- The rule says what the evaluation does and nothing else. -/
  rule : ∀ vs e, ShortCircuit t s vs e ↔ vs = us ∧ e = t.evaluate s
  entered : (t.evaluate s).state.lookUps = us.reverse ++ s.lookUps
  /-- The leaves that are looked up are met from left to right. -/
  inOrder : (us.map (·.leaf)).Sublist t.leaves
  /-- The first error that is reached is the outcome, and without one it is a status. -/
  firstError : Explain us (t.evaluate s).result
  decided : (t.evaluate s).result ≠ .ok .unevaluated

/-- **Evaluation is the rule.**  From every session, whatever it remembers and however the checks
behave, a tree that was made by any nesting comes to the end that the rule gives it, by the look-ups
of the rule, and never ends unevaluated. -/
theorem evaluate_byRule {t : Tree} (ht : Made t) (s : Session) : ∃ us, ByRule t s us := by
  obtain ⟨us, e, h⟩ := exists_shortCircuit ht s
  obtain ⟨rfl, hentered⟩ := evaluate_of_shortCircuit h
  refine ⟨us, ⟨fun vs e' => ⟨fun h' => ?_, ?_⟩, hentered, h.inOrder, h.explain,
    fun hnone => Tree.ne_unevaluated_of_evaluate hnone rfl⟩⟩
  · obtain ⟨rfl, hentered'⟩ := evaluate_of_shortCircuit h'
    rw [hentered, List.append_left_inj, List.reverse_inj] at hentered'
    exact ⟨hentered'.symm, rfl⟩
  · rintro ⟨rfl, rfl⟩
    exact h

namespace Specimen

def situation (owner : Bool) : Situation := ⟨book, .update, none, (scope owner).user, 0⟩

def ownerLeaf (owner : Bool) : Leaf := ⟨"owner", ⟨0, .role "owner"⟩, situation owner⟩

/-- Whoever retitles or is an owner. -/
def involved : Tree := .or (.later "retitles") (.ofLeaf (ownerLeaf true)) .unevaluated

/-- Whoever is involved and yet no owner. -/
def outsider : Tree := .and involved (.not (.ofLeaf (ownerLeaf true)) .unevaluated) .unevaluated

end Specimen

open Specimen in
/-- A deferred left operand settles nothing; the second look-up of the owner is remembered. -/
theorem evaluate_byRule_outsider :
    Made outsider ∧
      ByRule outsider opened
        [⟨ownerLeaf true, .ok true, true⟩, ⟨ownerLeaf true, .ok true, false⟩] ∧
      (outsider.evaluate opened).result = .ok .failed := by
  have ht : Made outsider :=
    .junction .and (.junction .or (.later _) (.ofLeaf _)) (.not (.ofLeaf _))
  obtain ⟨us, h⟩ := evaluate_byRule ht opened
  have hleft : ShortCircuit involved opened ([] ++ [⟨ownerLeaf true, .ok true, true⟩])
      ⟨.ok .passed, _, (opened.ask (ownerLeaf true)).2⟩ :=
    .both .or (.later _ _) (by decide) (.answered rfl rfl) (by decide)
  have hright : ShortCircuit (.not (.ofLeaf (ownerLeaf true)) .unevaluated)
      (opened.ask (ownerLeaf true)).2 [⟨ownerLeaf true, .ok true, false⟩] ⟨.ok .failed, _, _⟩ :=
    .not (a := .passed) (.remembered rfl) (by decide)
  have hrule : ShortCircuit outsider opened _ ⟨.ok .failed, _, _⟩ :=
    .both .and hleft (by decide) hright (by decide)
  obtain ⟨rfl, hend⟩ := (h.rule _ _).mp hrule
  exact ⟨ht, h, congrArg (·.result) hend.symm⟩

end AccessRules
