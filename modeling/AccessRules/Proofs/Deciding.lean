/-
# On which checks a deferred node hangs

With its operation checks put off, a tree comes to a forecast: yes, no, or deferred.  A deferred
node hangs on operation checks that have nothing but deferred nodes above them (`Tree.deciding`),
and if none of their implementations stands twice among them, they can bring the node to either
value.  For the two children of a node then hang on different checks, so answers that bring each of
them to a value of our choice can be spliced.

That is the converse of `Tree.forecast_refines`, by which a forecast that is not deferred stands.

* `Tree.forecast`: what a tree comes to without its operation checks;
* `Tree.Forces`: answers that bring a tree to a value;
* `Tree.exists_forces`: a deferred node can be brought to either value.
-/
import AccessRules.Proofs.Building

namespace AccessRules

/-! ## 1. Operation checks with given answers -/

/-- The leaf with the answer `f` says, if its check is an operation check. -/
def Leaf.answering (f : CheckId → Bool) (l : Leaf) : Leaf :=
  match l.check.kind with
  | .operation =>
    { l with check := ⟨l.check.id, .custom .operation fun _ _ => .ok (f l.check.id)⟩ }
  | .user => l

/-- The tree whose operation checks answer as `f` says. -/
def Tree.answering (f : CheckId → Bool) : Tree → Tree
  | check leaf s => .check (leaf.answering f) s
  | constant passed label s => .constant passed label s
  | deferred name s => .deferred name s
  | and l r s => .and (l.answering f) (r.answering f) s
  | or l r s => .or (l.answering f) (r.answering f) s
  | not c s => .not (c.answering f) s
  | anyField condition l r s => .anyField condition (l.answering f) (r.answering f) s
  | fieldRule condition r s => .fieldRule condition (r.answering f) s
  | entityRule condition r s => .entityRule condition (r.answering f) s
  | unrestricted condition s => .unrestricted condition s

namespace Leaf

variable (f : CheckId → Bool) {l : Leaf}

theorem answering_of_user (h : l.check.kind = .user) : l.answering f = l := by
  rw [answering, h]

theorem answering_of_operation (h : l.check.kind = .operation) : l.answering f =
    { l with check := ⟨l.check.id, .custom .operation fun _ _ => .ok (f l.check.id)⟩ } := by
  rw [answering, h]

/-- The answer is no part of the question. -/
theorem question_answering (l : Leaf) : (l.answering f).question = l.question := by
  cases h : l.check.kind with
  | user => rw [answering_of_user f h]
  | operation =>
    rw [answering_of_operation f h]
    simp only [question, Check.visibleChange, h]
    rfl

end Leaf

namespace Tree

theorem leaves_answering (f : CheckId → Bool) (t : Tree) :
    (t.answering f).leaves = t.leaves.map (Leaf.answering f) := by
  induction t with
  | check | constant | deferred | unrestricted => rfl
  | and l r _ ihl ihr | or l r _ ihl ihr | anyField _ l r _ ihl ihr =>
    simp only [answering, leaves, marks, List.map_append] at ihl ihr ⊢
    rw [ihl, ihr]
  | not c _ ih | fieldRule _ c _ ih | entityRule _ c _ ih => exact ih

/-- Put off, an operation check does not show its answer. -/
theorem putOff_answering (f : CheckId → Bool) (t : Tree) : (t.answering f).putOff = t.putOff := by
  induction t with
  | check leaf s =>
    cases h : leaf.check.kind with
    | user => rw [answering, Leaf.answering_of_user f h]
    | operation =>
      rw [answering, Leaf.answering_of_operation f h]
      simp only [putOff, h]
      rfl
  | constant | deferred | unrestricted => rfl
  | and l r _ ihl ihr | or l r _ ihl ihr | anyField _ l r _ ihl ihr =>
    simp only [answering, putOff, ihl, ihr]
  | not c _ ih | fieldRule _ c _ ih | entityRule _ c _ ih => simp only [answering, putOff, ih]

theorem Fresh.answering {p : Phase} {t : Tree} (h : Fresh p t) (f : CheckId → Bool) :
    Fresh p (t.answering f) := by
  induction h with
  | check leaf => exact .check _
  | constant passed label => exact .constant passed label
  | deferred name => exact .deferred name
  | and _ _ ihl ihr => exact .and ihl ihr
  | or _ _ ihl ihr => exact .or ihl ihr
  | not _ ih => exact .not ih
  | anyField condition _ _ ihf ihe => exact .anyField condition ihf ihe
  | fieldRule condition _ ih => exact .fieldRule condition ih
  | entityRule condition _ ih => exact .entityRule condition ih
  | unrestricted condition => exact .unrestricted condition

theorem kleene_answering (f : CheckId → Bool) (v : Leaf → Bool) (t : Tree) :
    (t.answering f).kleene v = t.kleene fun l => v (l.answering f) := by
  induction t with
  | check | constant | deferred | unrestricted => rfl
  | and _ _ _ ihl ihr | or _ _ _ ihl ihr | anyField _ _ _ _ ihl ihr =>
    rw [answering, kleene, kleene, ihl, ihr]
  | not _ _ ih => rw [answering, kleene, kleene, ih]
  | fieldRule _ _ _ ih | entityRule _ _ _ ih => exact ih

/-! ## 2. What a tree comes to with its operation checks put off -/

theorem kleene_congr {v w : Leaf → Bool} {t : Tree} (h : ∀ l ∈ t.leaves, v l = w l) :
    t.kleene v = t.kleene w := by
  induction t with
  | check leaf s => rw [kleene, kleene, h leaf List.mem_cons_self]
  | constant | deferred | unrestricted => rfl
  | and l r _ ihl ihr =>
    obtain ⟨hl, hr⟩ := binary_and.forall_leaves.mp h
    rw [kleene, kleene, ihl hl, ihr hr]
  | or l r _ ihl ihr =>
    obtain ⟨hl, hr⟩ := binary_or.forall_leaves.mp h
    rw [kleene, kleene, ihl hl, ihr hr]
  | anyField condition l r _ ihl ihr =>
    obtain ⟨hl, hr⟩ := (binary_anyField condition).forall_leaves.mp h
    rw [kleene, kleene, ihl hl, ihr hr]
  | not c _ ih => rw [kleene, kleene, ih h]
  | fieldRule _ c _ ih | entityRule _ c _ ih => exact ih h

theorem kleene_ne_unevaluated (v : Leaf → Bool) (t : Tree) : t.kleene v ≠ .unevaluated := by
  induction t with
  | check | constant => exact Status.ofBool_ne_unevaluated _
  | deferred | unrestricted => exact nofun
  | and => exact Status.and_ne_unevaluated _ _
  | or | anyField => exact Status.or_ne_unevaluated _ _
  | not _ _ ih => exact Status.negate_ne_unevaluated ih
  | fieldRule _ _ _ ih | entityRule _ _ _ ih => exact ih

/-- What a tree comes to without its operation checks, if its user checks answer their questions as
`v` says. -/
def forecast (v : Question → Bool) (t : Tree) : Status := t.putOff.kleene fun l => v l.question

theorem forecast_of_user {v : Question → Bool} {l : Leaf} (h : l.check.kind = .user) (s : Status) :
    (check l s).forecast v = .ofBool (v l.question) := by
  simp only [forecast, putOff, h, kleene, (Leaf.withoutChange_of_user h).1]

theorem forecast_of_operation {v : Question → Bool} {l : Leaf} (h : l.check.kind = .operation)
    (s : Status) : (check l s).forecast v = .deferred := by
  simp only [forecast, putOff, h, kleene]

/-- What is forecast stands, whatever the operation checks answer. -/
theorem forecast_refines {v : Question → Bool} {w : Leaf → Bool} {t : Tree}
    (h : ∀ l ∈ t.leaves, l.check.kind = .user → w l = v l.question) :
    (t.forecast v).Refines (t.kleene w) := by
  induction t with
  | check leaf s =>
    cases hkind : leaf.check.kind with
    | user =>
      rw [forecast_of_user hkind, kleene, h leaf List.mem_cons_self hkind]
      exact .refl _
    | operation =>
      rw [forecast_of_operation hkind]
      exact Status.refines_deferred _
  | constant | deferred | unrestricted => exact .refl _
  | and l r _ ihl ihr =>
    obtain ⟨hl, hr⟩ := binary_and.forall_leaves.mp h
    exact (ihl hl).and (ihr hr)
  | or l r _ ihl ihr =>
    obtain ⟨hl, hr⟩ := binary_or.forall_leaves.mp h
    exact (ihl hl).or (ihr hr)
  | anyField condition l r _ ihl ihr =>
    obtain ⟨hl, hr⟩ := (binary_anyField condition).forall_leaves.mp h
    exact (ihl hl).or (ihr hr)
  | not c _ ih => exact (ih h).negate
  | fieldRule _ c _ ih | entityRule _ c _ ih => exact ih h

/-! ## 3. Checks that may still decide -/

/-- The operation checks on which a tree hangs: those with nothing but deferred nodes above them. -/
def deciding (v : Question → Bool) : Tree → List Leaf
  | check leaf _ =>
    match leaf.check.kind with
    | .operation => [leaf]
    | .user => []
  | constant _ _ _ => []
  | deferred _ _ => []
  | and l r s => if (and l r s).forecast v = .deferred then l.deciding v ++ r.deciding v else []
  | or l r s => if (or l r s).forecast v = .deferred then l.deciding v ++ r.deciding v else []
  | not c _ => c.deciding v
  | anyField condition f e s =>
    if (anyField condition f e s).forecast v = .deferred then f.deciding v ++ e.deciding v else []
  | fieldRule _ r _ => r.deciding v
  | entityRule _ r _ => r.deciding v
  | unrestricted _ _ => []

/-- The operation checks of a tree, from left to right. -/
def operations (t : Tree) : List Leaf := t.leaves.filter fun l => l.check.kind = .operation

/-- The checks that may still decide stand in the tree, in this order: where no implementation
stands twice in the tree, none stands twice among them. -/
theorem deciding_sublist (v : Question → Bool) (t : Tree) :
    (t.deciding v).Sublist t.operations := by
  have join : ∀ {l r : Tree} {node : Tree → Tree → Status → Tree} (st : Status), Binary node →
      (l.deciding v).Sublist l.operations → (r.deciding v).Sublist r.operations →
      (if (node l r st).forecast v = .deferred then l.deciding v ++ r.deciding v else []).Sublist
        (node l r st).operations := by
    intro l r node st hnode hl hr
    rw [operations, hnode.leaves, List.filter_append]
    split
    · exact hl.append hr
    · exact List.nil_sublist _
  induction t with
  | check leaf s =>
    cases hkind : leaf.check.kind with
    | user => simp only [deciding, hkind, List.nil_sublist]
    | operation => simp [deciding, operations, leaves, marks, hkind]
  | constant | deferred | unrestricted => exact List.nil_sublist _
  | and l r st ihl ihr => exact join st binary_and ihl ihr
  | or l r st ihl ihr => exact join st binary_or ihl ihr
  | anyField condition l r st ihl ihr => exact join st (binary_anyField condition) ihl ihr
  | not _ _ ih | fieldRule _ _ _ ih | entityRule _ _ _ ih => exact ih

/-- Answers for every leaf: to operation checks by implementation, to user checks by question. -/
def answered (v : Question → Bool) (f : CheckId → Bool) (l : Leaf) : Bool :=
  match l.check.kind with
  | .operation => f l.check.id
  | .user => v l.question

theorem answered_of_user {v : Question → Bool} (f : CheckId → Bool) {l : Leaf}
    (h : l.check.kind = .user) : answered v f l = v l.question := by
  rw [answered, h]

/-- The answers `f` of the checks that may still decide bring a tree to `b`, whatever the other
operation checks answer. -/
def Forces (v : Question → Bool) (f : CheckId → Bool) (t : Tree) (b : Bool) : Prop :=
  ∀ g : CheckId → Bool, (∀ l ∈ t.deciding v, g l.check.id = f l.check.id) →
    t.kleene (answered v g) = .ofBool b

variable {v : Question → Bool}

/-- What is forecast needs no answers. -/
theorem forces_of_forecast {t : Tree} {b : Bool} (h : t.forecast v = .ofBool b)
    (f : CheckId → Bool) : Forces v f t b := by
  intro g _
  have hrefines : (t.forecast v).Refines (t.kleene (answered v g)) :=
    forecast_refines fun l _ => answered_of_user g
  rw [h] at hrefines
  exact hrefines.eq_of_ne (by cases b <;> decide)

/-- Two trees that hang on different implementations can be brought to their values at once. -/
theorem Forces.splice {l r : Tree} {f f' : CheckId → Bool} {b b' : Bool} (hl : Forces v f l b)
    (hr : Forces v f' r b')
    (honce : ((l.deciding v ++ r.deciding v).map fun x => x.check.id).Nodup) :
    ∃ f'' : CheckId → Bool, ∀ g : CheckId → Bool,
      (∀ x ∈ l.deciding v ++ r.deciding v, g x.check.id = f'' x.check.id) →
      l.kleene (answered v g) = .ofBool b ∧ r.kleene (answered v g) = .ofBool b' := by
  rw [List.map_append, List.nodup_append] at honce
  obtain ⟨-, -, hapart⟩ := honce
  let left := (l.deciding v).map fun x => x.check.id
  refine ⟨fun id => if id ∈ left then f id else f' id, fun g hg => ⟨hl g fun x hx => ?_,
    hr g fun x hx => ?_⟩⟩
  · rw [hg x (List.mem_append_left _ hx)]
    exact if_pos (List.mem_map_of_mem hx)
  · rw [hg x (List.mem_append_right _ hx)]
    refine if_neg fun hmem => ?_
    exact hapart _ hmem _ (List.mem_map_of_mem hx) rfl

end Tree

/-! ## 4. A deferred node can be brought to either value -/

namespace Junction

/-- The operand that leaves the other one the say. -/
def neutral : Junction → Bool
  | and => true
  | or | anyField _ => false

theorem join_neutral_left (j : Junction) (b : Bool) :
    j.join (.ofBool j.neutral) (.ofBool b) = .ofBool b := by
  cases j <;> cases b <;> rfl

theorem join_neutral_right (j : Junction) (b : Bool) :
    j.join (.ofBool b) (.ofBool j.neutral) = .ofBool b := by
  cases j <;> cases b <;> rfl

theorem join_self (j : Junction) (b : Bool) : j.join (.ofBool b) (.ofBool b) = .ofBool b := by
  cases j <;> cases b <;> rfl

/-- A connective defers if both operands do, or one does and the other leaves it the say. -/
theorem cases_of_join_deferred (j : Junction) {a b : Status} (ha : a ≠ .unevaluated)
    (hb : b ≠ .unevaluated) (h : j.join a b = .deferred) :
    a = .deferred ∧ b = .deferred ∨ a = .deferred ∧ b = .ofBool j.neutral ∨
      a = .ofBool j.neutral ∧ b = .deferred := by
  cases a <;> cases b <;> cases j <;> simp_all [join, neutral, Status.and, Status.or, Status.ofBool]

theorem forecast_node (j : Junction) (v : Question → Bool) (l r : Tree) (st : Status) :
    (j.node l r st).forecast v = j.join (l.forecast v) (r.forecast v) := by
  cases j <;> rfl

theorem kleene_node (j : Junction) (v : Leaf → Bool) (l r : Tree) (st : Status) :
    (j.node l r st).kleene v = j.join (l.kleene v) (r.kleene v) := by
  cases j <;> rfl

theorem deciding_node (j : Junction) {v : Question → Bool} {l r : Tree} {st : Status}
    (h : (j.node l r st).forecast v = .deferred) :
    (j.node l r st).deciding v = l.deciding v ++ r.deciding v := by
  cases j <;> exact if_pos h

/-- Answers that bring the operands to a value bring the node there. -/
theorem exists_forces_node (j : Junction) {v : Question → Bool} {l r : Tree} {st : Status}
    {f f' : CheckId → Bool} {b b' c : Bool} (hl : Tree.Forces v f l b) (hr : Tree.Forces v f' r b')
    (hjoin : j.join (.ofBool b) (.ofBool b') = .ofBool c)
    (h : (j.node l r st).forecast v = .deferred)
    (honce : (((j.node l r st).deciding v).map fun x => x.check.id).Nodup) :
    ∃ f'', Tree.Forces v f'' (j.node l r st) c := by
  rw [j.deciding_node h] at honce
  obtain ⟨f'', hf⟩ := hl.splice hr honce
  refine ⟨f'', fun g hg => ?_⟩
  rw [j.deciding_node h] at hg
  rw [j.kleene_node, (hf g hg).1, (hf g hg).2, hjoin]

end Junction

namespace Tree

variable {v : Question → Bool}

/-- What a node over two operands needs of them to be brought to either value. -/
theorem exists_forces_junction (j : Junction) {l r : Tree}
    (ihl : l.forecast v = .deferred → ((l.deciding v).map fun x => x.check.id).Nodup →
      ∀ b, ∃ f, Forces v f l b)
    (ihr : r.forecast v = .deferred → ((r.deciding v).map fun x => x.check.id).Nodup →
      ∀ b, ∃ f, Forces v f r b)
    (h : (j.node l r .unevaluated).forecast v = .deferred)
    (honce : (((j.node l r .unevaluated).deciding v).map fun x => x.check.id).Nodup) (b : Bool) :
    ∃ f, Forces v f (j.node l r .unevaluated) b := by
  have hparts := honce
  rw [j.deciding_node h, List.map_append, List.nodup_append] at hparts
  obtain ⟨hl, hr, -⟩ := hparts
  have hjoin := h
  rw [j.forecast_node] at hjoin
  rcases j.cases_of_join_deferred (kleene_ne_unevaluated _ _) (kleene_ne_unevaluated _ _) hjoin with
    ⟨hdl, hdr⟩ | ⟨hdl, hdr⟩ | ⟨hdl, hdr⟩
  · obtain ⟨f, hf⟩ := ihl hdl hl b
    obtain ⟨f', hf'⟩ := ihr hdr hr b
    exact j.exists_forces_node hf hf' (j.join_self b) h honce
  · obtain ⟨f, hf⟩ := ihl hdl hl b
    exact j.exists_forces_node hf (forces_of_forecast hdr f) (j.join_neutral_right b) h honce
  · obtain ⟨f', hf'⟩ := ihr hdr hr b
    exact j.exists_forces_node (forces_of_forecast hdl f') hf' (j.join_neutral_left b) h honce

/-- **A deferred node can be brought to either value**, if no implementation stands twice among the
checks that may still decide. -/
theorem exists_forces {t : Tree} (ht : Fresh .commit t) (h : t.forecast v = .deferred)
    (honce : ((t.deciding v).map fun x => x.check.id).Nodup) (b : Bool) :
    ∃ f, Forces v f t b := by
  generalize hp : Phase.commit = p at ht
  induction ht generalizing b with
  | check leaf =>
    cases hkind : leaf.check.kind with
    | user =>
      rw [forecast_of_user hkind] at h
      cases hb : v leaf.question <;> rw [hb] at h <;> cases h
    | operation =>
      refine ⟨fun _ => b, fun g hg => ?_⟩
      simp only [deciding, hkind, List.forall_mem_singleton] at hg
      simp only [kleene, answered, hkind, hg]
  | constant passed label => cases passed <;> cases h
  | deferred name => cases hp
  | unrestricted condition => cases h
  | and _ _ ihl ihr =>
    exact exists_forces_junction .and (fun h ho b => ihl h ho b hp) (fun h ho b => ihr h ho b hp)
      h honce b
  | or _ _ ihl ihr =>
    exact exists_forces_junction .or (fun h ho b => ihl h ho b hp) (fun h ho b => ihr h ho b hp)
      h honce b
  | anyField condition _ _ ihl ihr =>
    exact exists_forces_junction (.anyField condition) (fun h ho b => ihl h ho b hp)
      (fun h ho b => ihr h ho b hp) h honce b
  | @not p c _ ih =>
    have hc : c.forecast v = .deferred := by
      change (c.forecast v).negate = .deferred at h
      cases hc : c.forecast v <;> rw [hc] at h <;> first | rfl | cases h
    obtain ⟨f, hf⟩ := ih hc honce (!b) hp
    refine ⟨f, fun g hg => ?_⟩
    rw [kleene, hf g hg, Status.ofBool_not, Bool.not_not]
  | fieldRule _ _ ih | entityRule _ _ ih => exact ih h honce b hp

end Tree

end AccessRules
