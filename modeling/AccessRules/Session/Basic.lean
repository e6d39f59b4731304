/-
# The state of the engine

A session holds the book of rules, the answers of every request that was opened, the look-ups of
leaves and the events that were reported, the latest of each first.  A request is known by its
place in the order of opening, and no request sees the answers of another.

A look-up finds its answer among those of its request, or else the check of its leaf runs.  So the
runs of checks are part of the account of look-ups.  An error is not remembered, and the next one to
ask runs the check again.  Either way the outcome is reported.

A user check is never shown a change, and its question does not mention one.
-/
import AccessRules.Answers.Basic
import AccessRules.Log.Lines
import AccessRules.Rule.Book

namespace AccessRules

/-! ## 1. Sessions -/

/-- One look-up: the leaf that was asked, the answer it got, and whether its check ran for it. -/
structure LookUp where
  leaf : Leaf
  answer : Answer
  ran : Bool

/-- The run behind a look-up, unless the answer was remembered. -/
def LookUp.run? (u : LookUp) : Option Run :=
  if u.ran then some ⟨u.leaf.check.id, u.leaf.context, u.answer⟩ else none

/-- The state that decisions change. -/
structure Session where
  book : RuleBook
  requests : List Answers
  /-- The look-ups, the latest first. -/
  lookUps : List LookUp
  /-- The events, the latest first. -/
  events : List Event

namespace Session

/-- The state before the first request. -/
def initial : Session := ⟨.empty, [], [], []⟩

/-- The answers of a request. -/
def answers (s : Session) (request : Nat) : Answers := s.requests[request]?.getD default

/-- Puts the answers of a request in place. -/
def setAnswers (s : Session) (request : Nat) (a : Answers) : Session :=
  { s with requests := s.requests.set request a }

/-- Opens a request, and says by which number it is known. -/
def openRequest (s : Session) (initialCapacity : Nat) : Nat × Session :=
  (s.requests.length, { s with requests := s.requests ++ [.empty initialCapacity] })

/-- Reports an event. -/
def report (s : Session) (e : Event) : Session := { s with events := e :: s.events }

/-- The runs of checks, the latest first. -/
def runs (s : Session) : List Run := s.lookUps.filterMap LookUp.run?

/-- How often an implementation ran. -/
def runCount (s : Session) (check : CheckId) : Nat := s.runs.countP fun r => r.check == check

end Session

/-! ## 2. Asking the checks of a tree -/

/-- The question that a leaf puts. -/
def Leaf.question (l : Leaf) : Question :=
  ⟨l.situation.resource.identity, l.check.id, l.situation.category,
    (l.check.visibleChange l.situation.change).map Change.key⟩

/-- The event that reports the outcome of a leaf. -/
def Leaf.event (l : Leaf) : Answer → Event
  | .ok b => .checkEvaluated l.name l.situation.category l.situation.resource.text b
  | .error detail => .checkRaised l.name l.situation.category l.situation.resource.text detail

namespace Session

/-- The answer to a leaf, remembered or new, and the account of the look-up. -/
def lookUp (l : Leaf) (s : Session) : Answer × Session :=
  let (outcome, a, ran) := (s.answers l.situation.request).ask l.question
    (fun _ => (l.check.procedure.answer s.runs l.context, true)) false
  (outcome,
    { s.setAnswers l.situation.request a with lookUps := ⟨l, outcome, ran⟩ :: s.lookUps })

/-- Asks a leaf and reports the outcome. -/
def ask (l : Leaf) (s : Session) : Answer × Session :=
  let (outcome, s) := s.lookUp l
  (outcome, s.report (l.event outcome))

end Session

namespace Tree

/-- Evaluates a tree within a session. -/
def evaluate (t : Tree) (s : Session) : Evaluation Session :=
  t.evaluateWith (fun l s => s.ask l) s

end Tree

end AccessRules
