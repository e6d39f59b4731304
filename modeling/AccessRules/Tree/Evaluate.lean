/-
# Evaluating a decision tree

Evaluation goes from left to right and stops early: a failed left operand settles a conjunction, a
passed one a disjunction, and the right operand is then not touched.  A node that has a status
keeps it and nothing below it is asked again.  An error of a check stops the evaluation; every
node on the way to that check stays unevaluated, so that a later evaluation takes up where this
one stopped.

How a check is asked is a parameter.  `evaluateWith ask` threads a state of any type through the
questions, in the order in which they are put.

* `Tree.evaluateWith`: the evaluation;
* `Evaluation`: what it leaves behind.
-/
import AccessRules.Tree.Basic

namespace AccessRules

/-- A check that raised an error while a tree was evaluated. -/
structure CheckFailure where
  check : String
  detail : String
  deriving DecidableEq

/-- The outcome of an evaluation: the status of the root or an error, the tree as it now stands,
and the state after the last question. -/
structure Evaluation (σ : Type) where
  result : Except CheckFailure Status
  tree : Tree
  state : σ

namespace Evaluation

variable {σ : Type}

/-- A node that has its status. -/
def settled (node : Status → Tree) (status : Status) (state : σ) : Evaluation σ :=
  ⟨.ok status, node status, state⟩

/-- A node that an error leaves open. -/
def stopped (node : Status → Tree) (error : CheckFailure) (state : σ) : Evaluation σ :=
  ⟨.error error, node .unevaluated, state⟩

/-- A node whose status follows from that of its only child. -/
def single (node : Tree → Status → Tree) (f : Status → Status) (child : Evaluation σ) :
    Evaluation σ :=
  match child.result with
  | .error e => stopped (node child.tree) e child.state
  | .ok a => settled (node child.tree) (f a) child.state

/-- A node of two children.  The status `stop` on the left settles it; otherwise the right child
is evaluated and `join` combines the two. -/
def pair (node : Tree → Tree → Status → Tree) (stop : Status)
    (join : Status → Status → Status) (left : Evaluation σ) (right : Tree)
    (resume : σ → Evaluation σ) : Evaluation σ :=
  match left.result with
  | .error e => stopped (node left.tree right) e left.state
  | .ok a =>
    if a = stop then settled (node left.tree right) stop left.state
    else single (node left.tree) (join a) (resume left.state)

/-- A check that was asked. -/
def asked (leaf : Leaf) : Answer × σ → Evaluation σ
  | (.ok b, state) => settled (.check leaf) (.ofBool b) state
  | (.error detail, state) => stopped (.check leaf) ⟨leaf.name, detail⟩ state

end Evaluation

namespace Tree

variable {σ : Type}

open Evaluation in
/-- Evaluates a tree, asking its checks by `ask`. -/
def evaluateWith (ask : Leaf → σ → Answer × σ) : Tree → σ → Evaluation σ
  | check leaf .unevaluated, s => asked leaf (ask leaf s)
  | constant passed label .unevaluated, s => settled (constant passed label) (.ofBool passed) s
  | deferred name .unevaluated, s => settled (deferred name) .deferred s
  | and l r .unevaluated, s =>
    pair and .failed Status.and (evaluateWith ask l s) r (evaluateWith ask r)
  | or l r .unevaluated, s =>
    pair or .passed Status.or (evaluateWith ask l s) r (evaluateWith ask r)
  | not c .unevaluated, s => single not Status.negate (evaluateWith ask c s)
  | anyField cond f e .unevaluated, s =>
    pair (anyField cond) .passed Status.or (evaluateWith ask f s) e (evaluateWith ask e)
  | fieldRule cond r .unevaluated, s => single (fieldRule cond) id (evaluateWith ask r s)
  | entityRule cond r .unevaluated, s => single (entityRule cond) id (evaluateWith ask r s)
  | unrestricted cond .unevaluated, s => settled (unrestricted cond) .passed s
  | t, s => ⟨.ok t.status, t, s⟩

end Tree

end AccessRules
