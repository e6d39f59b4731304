/-
# The forms of nodes

A tree has ten kinds of nodes, but there is less to tell apart.  A node over one child takes its
status from that of the child; a node over two children stops at a status of the left one, or joins
both; some nodes have their status at once.  `Relay`, `Junction` and `Ground` name these forms and
say what an evaluation does at each, and `form_induction` is the induction over a tree as an
evaluation meets it: a node that has its status is never opened.

* `marks`, `leaves`: the checks of a tree, in order;
* `Fresh`: a tree as it is made;
* `Unary`, `Binary`: nodes over one child and over two, as far as their checks go.
-/
import AccessRules.Decision.Plan
import AccessRules.Proofs.Kleene
import Mathlib.Logic.Basic

namespace AccessRules

namespace Tree

/-! ## 1. Leaves, marks and fresh trees -/

/-- The leaves that ask a check, from left to right, each with its status. -/
def marks : Tree → List (Leaf × Status)
  | check leaf s => [(leaf, s)]
  | constant _ _ _ => []
  | deferred _ _ => []
  | and l r _ => l.marks ++ r.marks
  | or l r _ => l.marks ++ r.marks
  | not c _ => c.marks
  | anyField _ f e _ => f.marks ++ e.marks
  | fieldRule _ r _ => r.marks
  | entityRule _ r _ => r.marks
  | unrestricted _ _ => []

/-- The leaves that ask a check, from left to right. -/
def leaves (t : Tree) : List Leaf := t.marks.map (·.1)

/-- A tree as it is made for a phase: no node is evaluated, and only a preview defers. -/
inductive Fresh : Phase → Tree → Prop where
  | check {p : Phase} (leaf : Leaf) : Fresh p (.check leaf .unevaluated)
  | constant {p : Phase} (passed : Bool) (label : Option String) :
      Fresh p (.constant passed label .unevaluated)
  | deferred (name : String) : Fresh .preview (.deferred name .unevaluated)
  | and {p : Phase} {l r : Tree} (hl : Fresh p l) (hr : Fresh p r) :
      Fresh p (.and l r .unevaluated)
  | or {p : Phase} {l r : Tree} (hl : Fresh p l) (hr : Fresh p r) : Fresh p (.or l r .unevaluated)
  | not {p : Phase} {c : Tree} (hc : Fresh p c) : Fresh p (.not c .unevaluated)
  | anyField {p : Phase} {f e : Tree} (condition : Condition) (hf : Fresh p f) (he : Fresh p e) :
      Fresh p (.anyField condition f e .unevaluated)
  | fieldRule {p : Phase} {r : Tree} (condition : Condition) (hr : Fresh p r) :
      Fresh p (.fieldRule condition r .unevaluated)
  | entityRule {p : Phase} {r : Tree} (condition : Condition) (hr : Fresh p r) :
      Fresh p (.entityRule condition r .unevaluated)
  | unrestricted {p : Phase} (condition : Condition) :
      Fresh p (.unrestricted condition .unevaluated)

/-- No leaf of a fresh tree has its status. -/
theorem Fresh.unevaluated {p : Phase} {t : Tree} (h : Fresh p t) :
    ∀ m ∈ t.marks, m.2 = .unevaluated := by
  induction h with
  | check leaf => exact List.forall_mem_singleton.mpr rfl
  | constant | deferred | unrestricted => exact List.forall_mem_nil _
  | and _ _ ihl ihr => exact List.forall_mem_append.mpr ⟨ihl, ihr⟩
  | or _ _ ihl ihr => exact List.forall_mem_append.mpr ⟨ihl, ihr⟩
  | not _ ih => exact ih
  | anyField _ _ _ ihf ihe => exact List.forall_mem_append.mpr ⟨ihf, ihe⟩
  | fieldRule _ _ ih => exact ih
  | entityRule _ _ ih => exact ih

/-! ## 2. Nodes over children -/

/-- A node over one child, whatever it derives from it. -/
structure Unary (node : Tree → Status → Tree) : Prop where
  marks : ∀ c st, (node c st).marks = c.marks
  status : ∀ c st, (node c st).status = st

/-- A node over two children, whatever it derives from them. -/
structure Binary (node : Tree → Tree → Status → Tree) : Prop where
  marks : ∀ l r st, (node l r st).marks = l.marks ++ r.marks
  status : ∀ l r st, (node l r st).status = st

theorem Unary.leaves {node : Tree → Status → Tree} (h : Unary node) (c : Tree) (st : Status) :
    (node c st).leaves = c.leaves := by
  rw [Tree.leaves, h.marks, Tree.leaves]

theorem Binary.leaves {node : Tree → Tree → Status → Tree} (h : Binary node) (l r : Tree)
    (st : Status) : (node l r st).leaves = l.leaves ++ r.leaves := by
  rw [Tree.leaves, h.marks, List.map_append, Tree.leaves, Tree.leaves]

theorem Unary.forall_leaves {node : Tree → Status → Tree} (h : Unary node) {P : Leaf → Prop}
    {c : Tree} {st : Status} :
    (∀ leaf ∈ (node c st).leaves, P leaf) ↔ ∀ leaf ∈ c.leaves, P leaf := by
  rw [h.leaves]

theorem Binary.forall_leaves {node : Tree → Tree → Status → Tree} (h : Binary node)
    {P : Leaf → Prop} {l r : Tree} {st : Status} :
    (∀ leaf ∈ (node l r st).leaves, P leaf) ↔
      (∀ leaf ∈ l.leaves, P leaf) ∧ ∀ leaf ∈ r.leaves, P leaf := by
  rw [h.leaves, List.forall_mem_append]

theorem unary_not : Unary .not := ⟨fun _ _ => rfl, fun _ _ => rfl⟩

theorem unary_fieldRule (c : Condition) : Unary (.fieldRule c) :=
  ⟨fun _ _ => rfl, fun _ _ => rfl⟩

theorem unary_entityRule (c : Condition) : Unary (.entityRule c) :=
  ⟨fun _ _ => rfl, fun _ _ => rfl⟩

theorem binary_and : Binary .and := ⟨fun _ _ _ => rfl, fun _ _ _ => rfl⟩

theorem binary_or : Binary .or := ⟨fun _ _ _ => rfl, fun _ _ _ => rfl⟩

theorem binary_anyField (c : Condition) : Binary (.anyField c) :=
  ⟨fun _ _ _ => rfl, fun _ _ _ => rfl⟩

end Tree

/-! ## 3. The forms of a new node -/

/-- The nodes over one child. -/
inductive Relay where
  | not
  | fieldRule (condition : Condition)
  | entityRule (condition : Condition)

namespace Relay

/-- The node over a child. -/
def node : Relay → Tree → Status → Tree
  | not => .not
  | fieldRule condition => .fieldRule condition
  | entityRule condition => .entityRule condition

/-- The status of the node, from that of its child. -/
def derive : Relay → Status → Status
  | not => Status.negate
  | fieldRule _ | entityRule _ => id

theorem evaluateWith_node (k : Relay) {σ : Type} (ask : Leaf → σ → Answer × σ) (c : Tree) (s : σ) :
    (k.node c .unevaluated).evaluateWith ask s =
      Evaluation.single k.node k.derive (c.evaluateWith ask s) := by
  cases k <;> rfl

theorem evaluate_node (k : Relay) (c : Tree) (s : Session) :
    (k.node c .unevaluated).evaluate s = Evaluation.single k.node k.derive (c.evaluate s) :=
  k.evaluateWith_node _ c s

theorem unary (k : Relay) : Tree.Unary k.node := by
  cases k with
  | not => exact Tree.unary_not
  | fieldRule condition => exact Tree.unary_fieldRule condition
  | entityRule condition => exact Tree.unary_entityRule condition

theorem derive_ne_unevaluated (k : Relay) {a : Status} (h : a ≠ .unevaluated) :
    k.derive a ≠ .unevaluated := by
  cases k with
  | not => exact Status.negate_ne_unevaluated h
  | fieldRule _ | entityRule _ => exact h

end Relay

/-- The connectives of two operands. -/
inductive Junction where
  | and
  | or
  /-- The rules of the fields, or else the rule of the type. -/
  | anyField (condition : Condition)

namespace Junction

/-- The node over two operands. -/
def node : Junction → Tree → Tree → Status → Tree
  | and => .and
  | or => .or
  | anyField condition => .anyField condition

/-- The status of the left operand that settles the node. -/
def stop : Junction → Status
  | and => .failed
  | or | anyField _ => .passed

/-- The connective of statuses. -/
def join : Junction → Status → Status → Status
  | and => Status.and
  | or | anyField _ => Status.or

theorem binary (j : Junction) : Tree.Binary j.node := by
  cases j with
  | and => exact Tree.binary_and
  | or => exact Tree.binary_or
  | anyField condition => exact Tree.binary_anyField condition

theorem evaluateWith_node (j : Junction) {σ : Type} (ask : Leaf → σ → Answer × σ) (l r : Tree)
    (s : σ) : (j.node l r .unevaluated).evaluateWith ask s =
      Evaluation.pair j.node j.stop j.join (l.evaluateWith ask s) r (r.evaluateWith ask) := by
  cases j <;> rfl

theorem evaluate_node (j : Junction) (l r : Tree) (s : Session) :
    (j.node l r .unevaluated).evaluate s =
      Evaluation.pair j.node j.stop j.join (l.evaluate s) r r.evaluate :=
  j.evaluateWith_node _ l r s

theorem join_ne_unevaluated (j : Junction) (a b : Status) : j.join a b ≠ .unevaluated := by
  cases j with
  | and => exact Status.and_ne_unevaluated a b
  | or | anyField _ => exact Status.or_ne_unevaluated a b

theorem stop_ne_unevaluated (j : Junction) : j.stop ≠ .unevaluated := by
  cases j with
  | and | or => decide
  | anyField _ => exact nofun

end Junction

/-- The nodes that come to a status by themselves, without a question. -/
inductive Ground : (Status → Tree) → Status → Prop where
  | constant (passed : Bool) (label : Option String) :
      Ground (.constant passed label) (.ofBool passed)
  | deferred (name : String) : Ground (.deferred name) .deferred
  | unrestricted (condition : Condition) : Ground (.unrestricted condition) .passed

namespace Ground

variable {node : Status → Tree} {a : Status}

theorem evaluateWith_node (h : Ground node a) {σ : Type} (ask : Leaf → σ → Answer × σ) (s : σ) :
    (node .unevaluated).evaluateWith ask s = Evaluation.settled node a s := by
  cases h <;> rfl

theorem evaluate_node (h : Ground node a) (s : Session) :
    (node .unevaluated).evaluate s = Evaluation.settled node a s :=
  h.evaluateWith_node _ s

theorem status (h : Ground node a) (st : Status) : (node st).status = st := by
  cases h <;> rfl

theorem marks (h : Ground node a) (st : Status) : (node st).marks = [] := by
  cases h <;> rfl

theorem ne_unevaluated (h : Ground node a) : a ≠ .unevaluated := by
  cases h with
  | constant passed label => exact Status.ofBool_ne_unevaluated passed
  | deferred _ | unrestricted _ => decide

end Ground

namespace Tree

/-- A node that has its status keeps it, and nothing is asked. -/
theorem evaluateWith_of_settled {σ : Type} {ask : Leaf → σ → Answer × σ} {t : Tree}
    (h : t.status ≠ .unevaluated) (s : σ) : evaluateWith ask t s = ⟨.ok t.status, t, s⟩ := by
  cases t with
  | _ => rename_i st; cases st <;> first | rfl | exact absurd rfl h

theorem evaluate_of_settled {t : Tree} (h : t.status ≠ .unevaluated) (s : Session) :
    t.evaluate s = ⟨.ok t.status, t, s⟩ :=
  evaluateWith_of_settled h s

theorem evaluate_ofLeaf (l : Leaf) (s : Session) :
    (ofLeaf l).evaluate s = Evaluation.asked l (s.ask l) := rfl

/-- **Induction over what an evaluation meets**: a settled node, whatever it holds, or a new node in
one of its forms. -/
theorem form_induction {P : Tree → Prop} (settled : ∀ t, t.status ≠ .unevaluated → P t)
    (leaf : ∀ l, P (.ofLeaf l)) (ground : ∀ node a, Ground node a → P (node .unevaluated))
    (relay : ∀ (k : Relay) c, P c → P (k.node c .unevaluated))
    (junction : ∀ (j : Junction) l r, P l → P r → P (j.node l r .unevaluated)) (t : Tree) :
    P t := by
  induction t with
  | check l st =>
    rcases eq_or_ne st .unevaluated with rfl | h
    · exact leaf l
    · exact settled _ h
  | constant passed label st =>
    rcases eq_or_ne st .unevaluated with rfl | h
    · exact ground _ _ (.constant passed label)
    · exact settled _ h
  | deferred name st =>
    rcases eq_or_ne st .unevaluated with rfl | h
    · exact ground _ _ (.deferred name)
    · exact settled _ h
  | and l r st ihl ihr =>
    rcases eq_or_ne st .unevaluated with rfl | h
    · exact junction .and l r ihl ihr
    · exact settled _ h
  | or l r st ihl ihr =>
    rcases eq_or_ne st .unevaluated with rfl | h
    · exact junction .or l r ihl ihr
    · exact settled _ h
  | not c st ih =>
    rcases eq_or_ne st .unevaluated with rfl | h
    · exact relay .not c ih
    · exact settled _ h
  | anyField condition f e st ihf ihe =>
    rcases eq_or_ne st .unevaluated with rfl | h
    · exact junction (.anyField condition) f e ihf ihe
    · exact settled _ h
  | fieldRule condition r st ih =>
    rcases eq_or_ne st .unevaluated with rfl | h
    · exact relay (.fieldRule condition) r ih
    · exact settled _ h
  | entityRule condition r st ih =>
    rcases eq_or_ne st .unevaluated with rfl | h
    · exact relay (.entityRule condition) r ih
    · exact settled _ h
  | unrestricted condition st =>
    rcases eq_or_ne st .unevaluated with rfl | h
    · exact ground _ _ (.unrestricted condition)
    · exact settled _ h

end Tree

end AccessRules
