/-
# The two phases of a request

The preview of a decision is evaluated at once.  If it does not deny, the commit tree joins a
queue; a preview that is deferred does not deny.  Committing empties the queue and evaluates the
trees in the order in which they came, up to the first that does not pass.
-/
import AccessRules.Decision.Plan

namespace AccessRules

/-! ## 1. Denial -/

/-- Whether the decision at the root is not denied, or the error that stopped the evaluation. -/
def Tree.allows (t : Tree) (s : Session) : Except Failure Bool × Tree × Session :=
  let e := t.evaluate s
  match e.result with
  | .ok status => (.ok !status.denies, e.tree, e.state)
  | .error f => (.error (.ofCheck f), e.tree, e.state)

/-- The failure of a tree that says no.  A tree without a condition does not know what it denies. -/
def Tree.denial (t : Tree) : Failure :=
  match t.condition? with
  | some c => .forbidden c.category.name c.resource.text t.text
  | none => .forbidden "UNKNOWN" "unknown resource" t.text

/-- Evaluates a tree and turns a no into a failure. -/
def Tree.require (t : Tree) (s : Session) : Except Failure Unit × Tree × Session :=
  match t.allows s with
  | (.error f, t, s) => (.error f, t, s)
  | (.ok true, t, s) => (.ok (), t, s)
  | (.ok false, t, s) => (.error t.denial, t, s.report (.denied t.text))

/-- Evaluates trees one after the other, up to the first that does not pass. -/
def Tree.requireAll : List Tree → Session → Except Failure (List Tree) × Session
  | [], s => (.ok [], s)
  | t :: ts, s =>
    match t.require s with
    | (.error f, _, s) => (.error f, s)
    | (.ok (), t, s) =>
      match requireAll ts s with
      | (.error f, s) => (.error f, s)
      | (.ok ts, s) => (.ok (t :: ts), s)

/-! ## 2. The queue -/

/-- The decisions of one request, with the trees that wait for the commit, in order. -/
structure TwoPhase where
  scope : RequestScope
  queue : List Tree

namespace TwoPhase

/-- No decision yet. -/
def begin (scope : RequestScope) : TwoPhase := ⟨scope, []⟩

/-- How many trees wait. -/
def pending (p : TwoPhase) : Nat := p.queue.length

/-- Evaluates the preview of a plan and queues its commit tree if the preview does not deny. -/
def preview (p : TwoPhase) (planned : Except Failure Plan × Session) :
    Except Failure Unit × TwoPhase × Session :=
  match planned with
  | (.error f, s) => (.error f, p, s)
  | (.ok plan, s) =>
    match plan.preview.require s with
    | (.error f, _, s) => (.error f, p, s)
    | (.ok (), _, s) => (.ok (), { p with queue := p.queue ++ [plan.commit] }, s)

/-- Previews a decision about a resource as a whole. -/
def checkWhole (p : TwoPhase) (resource : Resource) (category : Category) (s : Session) :
    Except Failure Unit × TwoPhase × Session :=
  p.preview (p.scope.planWhole resource category none s)

/-- Previews a decision about one field. -/
def checkField (p : TwoPhase) (resource : Resource) (category : Category) (field : String)
    (change : Option Change) (s : Session) : Except Failure Unit × TwoPhase × Session :=
  p.preview (p.scope.planField resource category field change s)

/-- Evaluates the preview of a decision about a resource as a whole and queues nothing. -/
def checkUser (p : TwoPhase) (resource : Resource) (category : Category) (s : Session) :
    Except Failure Unit × Session :=
  match p.scope.planWhole resource category none s with
  | (.error f, s) => (.error f, s)
  | (.ok plan, s) =>
    match plan.preview.require s with
    | (r, _, s) => (r, s)

/-- Evaluates all trees that wait.  The queue is empty afterwards in any case. -/
def commit (p : TwoPhase) (s : Session) : Except Failure (List Tree) × TwoPhase × Session :=
  match Tree.requireAll p.queue (s.report (.committing p.pending)) with
  | (.error f, s) => (.error f, { p with queue := [] }, s.report (.commitFailed f))
  | (.ok trees, s) => (.ok trees, { p with queue := [] }, s)

/-- The outline of the decisions of a request. -/
def outline (p : TwoPhase) (s : Session) : String :=
  Text.outline "PermissionExecutor" [("builder", p.scope.outline s),
    ("commit_checks", Text.outlineList (p.queue.map Tree.outline))]

end TwoPhase

end AccessRules
