/-
# Answers that several askers share

The checks of one request may run at the same time, and then several askers put questions to one
store of answers.  `Shared` is what there is between any two of their steps.  A step is a new call,
or a move of an asker who has called: he is let in, his procedure starts, is counted and returns,
the store takes its outcome or hands him that of another, he counts his look-up.

What the store does is not fixed by `step`: each of its replies is part of the move.  `Permits` says
which replies its contract allows: at most one procedure runs for a question at a time, who comes
meanwhile waits and gets its outcome, a yes or no is stored and an error is not.
-/
import AccessRules.Answers.Basic

namespace AccessRules

/-- Outcomes can be compared. -/
instance decideOutcome {ε α : Type} [DecidableEq ε] [DecidableEq α] : DecidableEq (Except ε α)
  | .ok a, .ok b => decidable_of_iff (a = b) ⟨congrArg _, Except.ok.inj⟩
  | .error e, .error f => decidable_of_iff (e = f) ⟨congrArg _, Except.error.inj⟩
  | .ok _, .error _ => isFalse nofun
  | .error _, .ok _ => isFalse nofun

/-- How the store lets an asker in. -/
inductive Admission where
  /-- There is an answer. -/
  | found (answer : Bool)
  /-- The procedure of another asker is on its way, and he waits for it. -/
  | waits (leader : Nat)
  /-- His own procedure is to run. -/
  | leads
  deriving DecidableEq

/-- How far an asker has come. -/
inductive Stage (ε : Type) where
  | called
  | leading
  /-- His procedure has started. -/
  | running
  /-- The run is counted. -/
  | tallied
  /-- His procedure has returned; the store has not taken its outcome yet. -/
  | finished (outcome : Except ε Bool)
  | waiting (leader : Nat)
  /-- The store has returned; the look-up is not counted yet. -/
  | received (outcome : Except ε Bool)
  /-- The call has returned. -/
  | done (outcome : Except ε Bool)

namespace Stage

variable {ε : Type}

/-- His procedure is on its way: it is to run, or runs, or its outcome is not taken yet. -/
@[simp] def inFlight : Stage ε → Bool
  | leading | running | tallied | finished _ => true
  | called | waiting _ | received _ | done _ => false

/-- The outcome, once there is one. -/
@[simp] def outcome? : Stage ε → Option (Except ε Bool)
  | finished o | received o | done o => some o
  | called | leading | running | tallied | waiting _ => none

/-- The call has returned. -/
@[simp] def returned : Stage ε → Bool
  | done _ => true
  | _ => false

end Stage

/-- The stage to which being let in brings an asker. -/
@[simp] def Admission.stage {ε : Type} : Admission → Stage ε
  | found b => .received (.ok b)
  | waits leader => .waiting leader
  | leads => .leading

/-- A call for the answer to a question, with the mark that its own procedure has run. -/
structure Asker (ε : Type) where
  question : Question
  evaluated : Bool
  stage : Stage ε

/-- One who has just called. -/
def Asker.newcomer {ε : Type} (q : Question) : Asker ε := ⟨q, false, .called⟩

/-- Answers and those who ask for them, in the order of their calls. -/
structure Shared (ε : Type) where
  answers : Answers
  askers : List (Asker ε)

/-- What an asker who has called may do next. -/
inductive Move (ε : Type) where
  | enter (admission : Admission)
  | start
  | tally
  | finish (outcome : Except ε Bool)
  /-- The store takes the outcome of his procedure, and stores an answer or none. -/
  | land (stored : Option Bool)
  /-- The store hands him the outcome of the procedure for which he waits. -/
  | receive (outcome : Except ε Bool)
  | count

/-- A step of the whole: a new call, or a move of the asker with the given number. -/
inductive Act (ε : Type) where
  | call (question : Question)
  | move (asker : Nat) (move : Move ε)

namespace Shared

variable {ε : Type}

/-- Nobody has called yet. -/
def start (initialCapacity : Nat) : Shared ε := ⟨.empty initialCapacity, []⟩

/-- What a move makes of the answers and of the asker, where it is his turn to make it. -/
def advance (answers : Answers) (a : Asker ε) (m : Move ε) : Option (Answers × Asker ε) :=
  match m, a.stage with
  | .enter admission, .called => some (answers, { a with stage := admission.stage })
  | .start, .leading => some (answers, { a with evaluated := true, stage := .running })
  | .tally, .running =>
    some ({ answers with evaluations := answers.evaluations + 1 }, { a with stage := .tallied })
  | .finish outcome, .tallied => some (answers, { a with stage := .finished outcome })
  | .land stored, .finished outcome =>
    some (stored.elim answers (answers.insert a.question), { a with stage := .received outcome })
  | .receive outcome, .waiting _ => some (answers, { a with stage := .received outcome })
  | .count, .received outcome =>
    some (answers.count !a.evaluated, { a with stage := .done outcome })
  | _, _ => none

/-- One step. -/
def step (s : Shared ε) : Act ε → Option (Shared ε)
  | .call q => some { s with askers := s.askers ++ [.newcomer q] }
  | .move i m =>
    match s.askers[i]? with
    | none => none
    | some a => (advance s.answers a m).map fun (answers, a') => ⟨answers, s.askers.set i a'⟩

/-- Steps one after the other. -/
def run (s : Shared ε) : List (Act ε) → Option (Shared ε)
  | [] => some s
  | act :: acts => (s.step act).bind fun s' => s'.run acts

/-- The outcome that an asker has come to. -/
def outcome? (s : Shared ε) (i : Nat) : Option (Except ε Bool) :=
  s.askers[i]?.bind fun a => a.stage.outcome?

/-- Which replies the contract of the store allows to an asker. -/
def Allows (s : Shared ε) (a : Asker ε) (m : Move ε) : Prop :=
  match m, a.stage with
  | .enter (.found b), _ => Assoc.find? a.question s.answers.known = some b
  | .enter (.waits j), _ =>
    ∃ leader ∈ s.askers[j]?, leader.question = a.question ∧ leader.stage.inFlight = true
  | .enter .leads, _ =>
    Assoc.find? a.question s.answers.known = none ∧
      ∀ other ∈ s.askers, other.question = a.question → other.stage.inFlight = false
  | .land stored, .finished o => stored = o.toOption
  | .receive o, .waiting j => s.outcome? j = some o
  | _, _ => True

/-- Which steps the contract of the store allows. -/
def Permits (s : Shared ε) : Act ε → Prop
  | .call _ => True
  | .move i m => ∀ a ∈ s.askers[i]?, s.Allows a m

/-- The store keeps its contract at every step. -/
def Honours (s : Shared ε) : List (Act ε) → Prop
  | [] => True
  | act :: acts => s.Permits act ∧ ∀ s' ∈ s.step act, s'.Honours acts

variable [DecidableEq ε]

instance (s : Shared ε) (a : Asker ε) (m : Move ε) : Decidable (s.Allows a m) := by
  unfold Allows
  split <;> infer_instance

instance (s : Shared ε) (act : Act ε) : Decidable (s.Permits act) :=
  match act with
  | .call _ => inferInstanceAs (Decidable True)
  | .move i m => inferInstanceAs (Decidable (∀ a ∈ s.askers[i]?, s.Allows a m))

/-- Whether the store keeps its contract can be decided step by step. -/
def decideHonours (s : Shared ε) (acts : List (Act ε)) : Decidable (s.Honours acts) :=
  match acts with
  | [] => inferInstanceAs (Decidable True)
  | act :: acts =>
    have (s' : Shared ε) : Decidable (s'.Honours acts) := decideHonours s' acts
    inferInstanceAs (Decidable (s.Permits act ∧ ∀ s' ∈ s.step act, s'.Honours acts))

instance (s : Shared ε) (acts : List (Act ε)) : Decidable (s.Honours acts) := s.decideHonours acts

end Shared

end AccessRules
