/-
# What becomes of the trees that wait

A check that grants appends its own commit tree to the queue, and nothing else ever does.  A commit
takes the whole queue, whether or not all of it passes.  So over any history of calls the trees that
were queued are, in order, those that the commits took followed by those that still wait: none is
lost and none is taken twice.

* `Tree.PassInTurn`, `Tree.Drained`: what a commit does with the trees that it takes;
* `TwoPhase.Step.Lawful`: what one call owes;
* `TwoPhase.Accounted`: what a history owes, kept by every lawful step;
* `queue_accounts`: both hold of every history.
-/
import AccessRules.Proofs.Decision
import Mathlib.Data.List.DropRight

namespace AccessRules

/-! ## 1. One tree -/

namespace Evaluation

/-- What requiring a tree makes of its evaluation: an error passes through, and only a failed root
denies. -/
def outcome (e : Evaluation Session) : Except Failure Unit :=
  match e.result with
  | .error f => .error (.ofCheck f)
  | .ok .failed => .error e.tree.denial
  | .ok _ => .ok ()

theorem exists_of_outcome_ok {e : Evaluation Session} (h : e.outcome = .ok ()) :
    ∃ st, e.result = .ok st ∧ st ≠ .failed := by
  rw [outcome] at h
  split at h
  · cases h
  · cases h
  · next st hne hst => exact ⟨st, hst, hne⟩

end Evaluation

namespace Tree

/-- A tree that passes is evaluated, and nothing else happens. -/
theorem require_of_outcome_ok {t : Tree} {s : Session} (h : (t.evaluate s).outcome = .ok ()) :
    t.require s = (.ok (), (t.evaluate s).tree, (t.evaluate s).state) := by
  obtain ⟨st, hst, hne⟩ := Evaluation.exists_of_outcome_ok h
  exact require_of_ne_failed hst hne

/-- **Requiring a tree evaluates it** and asks nothing more. -/
theorem require_eq (t : Tree) (s : Session) : ∃ s', (t.evaluate s).state.Quiet s' ∧
    t.require s = ((t.evaluate s).outcome, (t.evaluate s).tree, s') := by
  cases hresult : (t.evaluate s).result with
  | error f =>
    refine ⟨_, ⟨rfl, rfl⟩, ?_⟩
    rw [require_of_error hresult, Evaluation.outcome, hresult]
  | ok st =>
    rcases eq_or_ne st .failed with rfl | hne
    · refine ⟨_, Session.quiet_report _ (.denied (t.evaluate s).tree.text), ?_⟩
      rw [Evaluation.outcome, hresult]
      simp only [require, allows, hresult]
      rfl
    · have hok : (t.evaluate s).outcome = .ok () := by
        rw [Evaluation.outcome, hresult]
        cases st with
        | failed => exact absurd rfl hne
        | _ => rfl
      exact ⟨_, ⟨rfl, rfl⟩, by rw [require_of_outcome_ok hok, hok]⟩

/-- A commit tree that passes has passed for good. -/
theorem status_of_outcome_ok {t : Tree} (ht : Fresh .commit t) {s : Session}
    (h : (t.evaluate s).outcome = .ok ()) : (t.evaluate s).tree.status = .passed := by
  obtain ⟨st, hst, hne⟩ := Evaluation.exists_of_outcome_ok h
  refine (evaluateWith_settles t s st hst).1.trans ?_
  rcases evaluateWith_definite ht s st hst with hpassed | hfailed
  · exact hpassed
  · exact absurd hfailed hne

/-! ## 2. Trees in turn -/

/-- `PassInTurn ts s ts' s'`: the trees `ts` all pass, the first of them evaluated in `s` and each
other one in the session that the one before it left; they become `ts'`, and the session `s'`. -/
inductive PassInTurn : List Tree → Session → List Tree → Session → Prop where
  | nil (s : Session) : PassInTurn [] s [] s
  | cons {t : Tree} {ts ts' : List Tree} {s s' : Session} (head : (t.evaluate s).outcome = .ok ())
      (tail : PassInTurn ts (t.evaluate s).state ts' s') :
      PassInTurn (t :: ts) s ((t.evaluate s).tree :: ts') s'

/-- `Drained queue s r s'`: the trees of a queue are evaluated in turn, up to the first that does
not pass, with the outcome `r`.  After that tree nothing is asked, so none behind it is touched. -/
inductive Drained (queue : List Tree) (s : Session) : Except Failure (List Tree) → Session → Prop
    where
  | all {trees : List Tree} {s' : Session} (pass : PassInTurn queue s trees s')
      (passed : ∀ t ∈ trees, t.status = .passed) : Drained queue s (.ok trees) s'
  | first {earlier later trees : List Tree} {t : Tree} {s₁ s' : Session} {f : Failure}
      (split : queue = earlier ++ t :: later) (pass : PassInTurn earlier s trees s₁)
      (refused : (t.evaluate s₁).outcome = .error f) (quiet : (t.evaluate s₁).state.Quiet s') :
      Drained queue s (.error f) s'

/-- One more tree in front, which passes. -/
theorem Drained.cons {t : Tree} {ts : List Tree} {s s' : Session}
    {r : Except Failure (List Tree)} (ht : Fresh .commit t) (hok : (t.evaluate s).outcome = .ok ())
    (h : Drained ts (t.evaluate s).state r s') :
    Drained (t :: ts) s (r.map ((t.evaluate s).tree :: ·)) s' := by
  cases h with
  | all pass passed =>
    exact .all (.cons hok pass) (List.forall_mem_cons.mpr ⟨status_of_outcome_ok ht hok, passed⟩)
  | first split pass refused quiet =>
    exact .first (congrArg (t :: ·) split) (.cons hok pass) refused quiet

/-- **Requiring trees drains them** in their order. -/
theorem requireAll_drained {ts : List Tree} (hts : ∀ t ∈ ts, Fresh .commit t) (s : Session) :
    Drained ts s (requireAll ts s).1 (requireAll ts s).2 := by
  induction ts generalizing s with
  | nil => exact .all (.nil s) (List.forall_mem_nil _)
  | cons t ts ih =>
    obtain ⟨ht, hts⟩ := List.forall_mem_cons.mp hts
    cases hout : (t.evaluate s).outcome with
    | error f =>
      obtain ⟨s', hquiet, hrequire⟩ := t.require_eq s
      simp only [requireAll, hrequire, hout]
      exact .first (List.nil_append _).symm (.nil s) hout hquiet
    | ok _ =>
      have htail := (ih hts (t.evaluate s).state).cons ht hout
      simp only [requireAll, require_of_outcome_ok hout]
      generalize requireAll ts (t.evaluate s).state = rest at htail ⊢
      rcases rest with ⟨f | ts', s'⟩
      · exact htail
      · exact htail

end Tree

/-! ## 3. The outcome of a check -/

namespace RequestScope

variable (scope : RequestScope) (resource : Resource) (category : Category)
  (field : Option String) (change : Option Change) (s : Session)

/-- What a check comes to: its obstacle, or else the outcome of the preview right after planning. -/
def previewOutcome : Except Failure Unit :=
  match scope.dictionary.obstacle? resource.typeName category field with
  | some f => .error f
  | none => ((scope.tree resource category field change .preview).evaluate
      (scope.plan resource category field change s).2).outcome

/-- The commit tree of a decision. -/
def commitTree : Tree := scope.tree resource category field change .commit

/-- The preview of a plan extends the queue by the commit tree of the same plan if it grants, and
leaves it alone otherwise. -/
theorem preview_plan (p : TwoPhase) :
    ∃ s', p.preview (scope.plan resource category field change s) =
      (scope.previewOutcome resource category field change s,
        match scope.previewOutcome resource category field change s with
        | .ok () => { p with queue := p.queue ++ [scope.commitTree resource category field change] }
        | .error _ => p, s') := by
  have hplan := scope.plan_fst resource category field change s
  rw [← Prod.eta (scope.plan resource category field change s), hplan, previewOutcome]
  generalize (scope.plan resource category field change s).2 = s₁
  cases scope.dictionary.obstacle? resource.typeName category field with
  | some f => exact ⟨s₁, rfl⟩
  | none =>
    obtain ⟨s', -, hrequire⟩ :=
      (scope.tree resource category field change .preview).require_eq s₁
    refine ⟨s', ?_⟩
    simp only [TwoPhase.preview, hrequire]
    cases ((scope.tree resource category field change .preview).evaluate s₁).outcome with
    | error f => rfl
    | ok _ => rfl

end RequestScope

namespace TwoPhase

theorem scope_preview (p : TwoPhase) (planned : Except Failure Plan × Session) :
    (p.preview planned).2.1.scope = p.scope := by
  obtain ⟨f | plan, s⟩ := planned
  · rfl
  · rw [preview]
    rcases plan.preview.require s with ⟨f | _, t, s⟩
    · rfl
    · rfl

/-- A check of the user is a check of the resource as a whole of which the queue is dropped. -/
theorem checkUser_eq (p : TwoPhase) (resource : Resource) (category : Category) (s : Session) :
    p.checkUser resource category s =
      ((p.checkWhole resource category s).1, (p.checkWhole resource category s).2.2) := by
  rw [checkUser, checkWhole]
  rcases p.scope.planWhole resource category none s with ⟨f | plan, s⟩
  · rfl
  · simp only [preview]
    rcases plan.preview.require s with ⟨f | _, t, s⟩
    · rfl
    · rfl

/-- A commit requires all trees that wait and forgets them, whether or not they pass. -/
theorem commit_eq (p : TwoPhase) (s : Session) :
    ∃ s', (Tree.requireAll p.queue (s.report (.committing p.pending))).2.Quiet s' ∧
      p.commit s = ((Tree.requireAll p.queue (s.report (.committing p.pending))).1,
        { p with queue := [] }, s') := by
  rw [commit]
  rcases Tree.requireAll p.queue (s.report (.committing p.pending)) with ⟨f | trees, s'⟩
  · exact ⟨_, Session.quiet_report s' (.commitFailed f), rfl⟩
  · exact ⟨s', ⟨rfl, rfl⟩, rfl⟩

/-! ## 4. Calls and histories -/

/-- What can be asked of the decisions of a request. -/
inductive Call where
  | whole (resource : Resource) (category : Category)
  | field (resource : Resource) (category : Category) (field : String) (change : Option Change)
  | user (resource : Resource) (category : Category)
  | commit

/-- The answer to a call. -/
inductive Reply where
  | checked (outcome : Except Failure Unit)
  | committed (outcome : Except Failure (List Tree))

/-- Answers a call. -/
def answer (p : TwoPhase) (s : Session) : Call → Reply × TwoPhase × Session
  | .whole resource category =>
    match p.checkWhole resource category s with
    | (outcome, p, s) => (.checked outcome, p, s)
  | .field resource category field change =>
    match p.checkField resource category field change s with
    | (outcome, p, s) => (.checked outcome, p, s)
  | .user resource category =>
    match p.checkUser resource category s with
    | (outcome, s) => (.checked outcome, p, s)
  | .commit =>
    match p.commit s with
    | (outcome, p, s) => (.committed outcome, p, s)

/-- One call of a history, with what it found. -/
structure Step where
  call : Call
  found : TwoPhase
  before : Session

namespace Step

variable (st : Step)

def reply : Reply := (st.found.answer st.before st.call).1

/-- The decisions after the call. -/
def left : TwoPhase := (st.found.answer st.before st.call).2.1

def after : Session := (st.found.answer st.before st.call).2.2

end Step

/-- The steps of a sequence of calls, each made of what the one before it left. -/
def history (p : TwoPhase) (s : Session) : List Call → List Step
  | [] => []
  | call :: calls =>
    let step : Step := ⟨call, p, s⟩
    step :: history step.left step.after calls

/-- The decisions after a sequence of calls. -/
def ended (p : TwoPhase) (s : Session) : List Call → TwoPhase
  | [] => p
  | call :: calls =>
    let step : Step := ⟨call, p, s⟩
    ended step.left step.after calls

/-! ## 5. What one call owes -/

/-- Whether a call empties the queue. -/
def Call.commits : Call → Bool
  | commit => true
  | _ => false

/-- The commit tree of the decision that a call is about, if the call may queue one. -/
def Call.own? (scope : RequestScope) : Call → Option Tree
  | .whole resource category => some (scope.commitTree resource category none none)
  | .field resource category name change =>
    some (scope.commitTree resource category (some name) change)
  | .user _ _ => none
  | .commit => none

/-- Whether the answer is the yes of a check. -/
def Reply.grants : Reply → Bool
  | checked (.ok ()) => true
  | _ => false

/-- What a check owes: its answer, and a queue that grows by its own tree with a yes alone. -/
structure Step.Checks (st : Step) (outcome : Except Failure Unit) (own : Option Tree) : Prop where
  reply : st.reply = .checked outcome
  refused : ∀ f, outcome = .error f → st.left.queue = st.found.queue
  granted : outcome = .ok () → st.left.queue = st.found.queue ++ own.toList

/-- What a commit owes: it leaves an empty queue behind, and drains what it took. -/
structure Step.Commits (st : Step) (outcome : Except Failure (List Tree)) : Prop where
  reply : st.reply = .committed outcome
  emptied : st.left.queue = []
  drained : ∃ s', s'.Quiet st.after ∧
    Tree.Drained st.found.queue (st.before.report (.committing st.found.pending)) outcome s'

/-- What a call owes in the decisions of a request. -/
def Step.Lawful (scope : RequestScope) (st : Step) : Prop :=
  match st.call with
  | .whole resource category =>
    st.Checks (scope.previewOutcome resource category none none st.before)
      (some (scope.commitTree resource category none none))
  | .field resource category field change =>
    st.Checks (scope.previewOutcome resource category (some field) change st.before)
      (some (scope.commitTree resource category (some field) change))
  | .user resource category =>
    st.Checks (scope.previewOutcome resource category none none st.before) none
  | .commit => ∃ outcome, st.Commits outcome

namespace Step

section

variable (scope : RequestScope) (st : Step)

/-- The tree that a step adds to the queue: a check that grants adds its own. -/
def added : List Tree := if st.reply.grants then (st.call.own? scope).toList else []

/-- The trees that a step takes from the queue: a commit takes them all. -/
def taken : List Tree := if st.call.commits then st.found.queue else []

/-- Whether this is a successful check that queues its tree. -/
def queues : Bool := st.reply.grants && (st.call.own? scope).isSome

end

variable {scope : RequestScope} {st : Step}

/-- A call whose answer is that of a preview. -/
theorem checks_of_preview {resource : Resource} {category : Category} {field : Option String}
    {change : Option Change}
    (h : st.found.answer st.before st.call =
      let (outcome, p, s) :=
        st.found.preview (scope.plan resource category field change st.before)
      (.checked outcome, p, s)) :
    st.Checks (scope.previewOutcome resource category field change st.before)
      (some (scope.commitTree resource category field change)) := by
  obtain ⟨s', hpreview⟩ := scope.preview_plan resource category field change st.before st.found
  rw [hpreview] at h
  refine ⟨congrArg Prod.fst h, ?_, ?_⟩
  · intro f hf
    rw [left, h, hf]
  · intro hok
    rw [left, h, hok]
    rfl

/-- **Every call is lawful** where the trees that wait are commit trees. -/
theorem lawful (hscope : st.found.scope = scope)
    (hfresh : ∀ t ∈ st.found.queue, Tree.Fresh .commit t) : st.Lawful scope := by
  subst hscope
  obtain ⟨call, found, before⟩ := st
  cases call with
  | whole resource category => exact checks_of_preview rfl
  | field resource category field change => exact checks_of_preview rfl
  | user resource category =>
    -- the same answer as that of a check as a whole, but what is left is what was found
    have hwhole : Checks ⟨.whole resource category, found, before⟩
        (found.scope.previewOutcome resource category none none before)
        (some (found.scope.commitTree resource category none none)) := checks_of_preview rfl
    have hreply : reply ⟨.user resource category, found, before⟩ =
        reply ⟨.whole resource category, found, before⟩ := by
      simp only [reply, answer, checkUser_eq]
    exact ⟨hreply.trans hwhole.reply, fun _ _ => rfl, fun _ => (List.append_nil _).symm⟩
  | commit =>
    obtain ⟨s', hquiet, hcommit⟩ := found.commit_eq before
    refine ⟨(Tree.requireAll found.queue (before.report (.committing found.pending))).1, ?_, ?_, ?_⟩
    · simp only [reply, answer, hcommit]
    · simp only [left, answer, hcommit]
    · refine ⟨_, ?_, Tree.requireAll_drained hfresh _⟩
      simpa only [after, answer, hcommit] using hquiet

theorem Checks.queue_left {outcome : Except Failure Unit} {own : Option Tree}
    (h : st.Checks outcome own) :
    st.left.queue = st.found.queue ++ if st.reply.grants then own.toList else [] := by
  rw [h.reply]
  cases outcome with
  | error f => exact (h.refused f rfl).trans (List.append_nil _).symm
  | ok _ => exact h.granted rfl

/-- **Nothing is lost at a call**: what it found and what it adds is what it takes and what it
leaves. -/
theorem Lawful.balance (h : st.Lawful scope) :
    st.found.queue ++ st.added scope = st.taken ++ st.left.queue := by
  obtain ⟨call, found, before⟩ := st
  cases call with
  | whole resource category => exact (Checks.queue_left h).symm
  | field resource category field change => exact (Checks.queue_left h).symm
  | user resource category => exact (Checks.queue_left h).symm
  | commit =>
    obtain ⟨outcome, hcommits⟩ := h
    rw [added, hcommits.reply, hcommits.emptied]
    rfl

/-- Only a commit shortens the queue. -/
theorem Lawful.queue_left (h : st.Lawful scope) :
    st.left.queue = if st.call.commits then [] else st.found.queue ++ st.added scope := by
  have hbalance := h.balance
  obtain ⟨call, found, before⟩ := st
  cases call with
  | commit =>
    obtain ⟨outcome, hcommits⟩ := h
    exact hcommits.emptied
  | _ => exact hbalance.symm

/-- No call changes what the decisions share. -/
theorem scope_left (st : Step) : st.left.scope = st.found.scope := by
  obtain ⟨call, found, before⟩ := st
  cases call with
  | whole resource category => exact found.scope_preview _
  | field resource category field change => exact found.scope_preview _
  | user resource category => rfl
  | commit =>
    obtain ⟨s', -, hcommit⟩ := found.commit_eq before
    simp only [left, answer, hcommit]

/-- Whatever is added has not been evaluated. -/
theorem fresh_of_mem_added : ∀ t ∈ st.added scope, Tree.Fresh .commit t := by
  intro t ht
  rw [added] at ht
  split at ht
  · cases hcall : st.call with
    | whole | field =>
      rw [hcall] at ht
      rw [List.mem_singleton.mp ht]
      exact RequestScope.fresh_tree
    | user | commit =>
      rw [hcall] at ht
      cases ht
  · cases ht

theorem length_added : (st.added scope).length = if st.queues scope then 1 else 0 := by
  rw [added, queues]
  cases st.reply.grants <;> cases st.call.own? scope <;> rfl

end Step

/-! ## 6. What a history owes -/

/-- The steps since the last commit. -/
def sinceCommit (steps : List Step) : List Step := steps.rtakeWhile fun st => !st.call.commits

/-- The account of the decisions of a request after a history of calls. -/
structure Accounted (scope : RequestScope) (p : TwoPhase) (steps : List Step) : Prop where
  scope_eq : p.scope = scope
  /-- No tree that waits has been evaluated. -/
  fresh : ∀ t ∈ p.queue, Tree.Fresh .commit t
  /-- The own trees of the checks that were granted since the last commit wait, in their order. -/
  waiting : p.queue = (sinceCommit steps).flatMap (Step.added scope)
  pending : p.pending = (sinceCommit steps).countP (Step.queues scope)
  /-- What was ever queued is what the commits took, one commit after the other, and what waits. -/
  balance : steps.flatMap (Step.added scope) = steps.flatMap Step.taken ++ p.queue

variable {scope : RequestScope}

theorem length_flatMap_added (steps : List Step) :
    (steps.flatMap (Step.added scope)).length = steps.countP (Step.queues scope) := by
  induction steps with
  | nil => rfl
  | cons st steps ih =>
    rw [List.flatMap_cons, List.length_append, ih, Step.length_added, List.countP_cons,
      Nat.add_comm]

theorem accounted_begin : Accounted scope (begin scope) [] :=
  ⟨rfl, List.forall_mem_nil _, rfl, rfl, rfl⟩

/-- **A lawful call keeps the account.** -/
theorem Accounted.step {p : TwoPhase} {steps : List Step} (h : Accounted scope p steps)
    {st : Step} (hfound : st.found = p) (hst : st.Lawful scope) :
    Accounted scope st.left (steps ++ [st]) := by
  subst hfound
  have hqueue := hst.queue_left
  have hwaiting : st.left.queue = (sinceCommit (steps ++ [st])).flatMap (Step.added scope) := by
    rw [hqueue, sinceCommit, List.rtakeWhile_concat]
    cases st.call.commits with
    | true => rfl
    | false =>
      rw [if_neg Bool.false_ne_true, h.waiting]
      exact (List.flatMap_append.trans (congrArg _ (List.flatMap_singleton _ _))).symm
  refine ⟨st.scope_left.trans h.scope_eq, ?_, hwaiting, ?_, ?_⟩
  · intro t ht
    rw [hqueue] at ht
    split at ht
    · cases ht
    · rcases List.mem_append.mp ht with ht | ht
      · exact h.fresh t ht
      · exact Step.fresh_of_mem_added t ht
  · rw [TwoPhase.pending, hwaiting, length_flatMap_added]
  · simp only [List.flatMap_append, List.flatMap_singleton]
    rw [h.balance, List.append_assoc, hst.balance, List.append_assoc]

/-- A lawful history keeps the account. -/
theorem Accounted.history {calls : List Call} {p : TwoPhase} {steps : List Step}
    (h : Accounted scope p steps) (s : Session) :
    (∀ st ∈ p.history s calls, st.Lawful scope) ∧
      Accounted scope (p.ended s calls) (steps ++ p.history s calls) := by
  induction calls generalizing p steps s with
  | nil =>
    rw [TwoPhase.history, List.append_nil]
    exact ⟨List.forall_mem_nil _, h⟩
  | cons call calls ih =>
    have hst : Step.Lawful scope ⟨call, p, s⟩ := Step.lawful h.scope_eq h.fresh
    obtain ⟨hrest, hended⟩ := ih (h.step rfl hst) (Step.after ⟨call, p, s⟩)
    rw [List.append_assoc] at hended
    exact ⟨List.forall_mem_cons.mpr ⟨hst, hrest⟩, hended⟩

/-- **No tree is lost and none is taken twice.**  Whatever the checks do, in every history of calls
every call is lawful, and afterwards the account is balanced. -/
theorem queue_accounts (scope : RequestScope) (s : Session) (calls : List Call) :
    (∀ st ∈ (begin scope).history s calls, st.Lawful scope) ∧
      Accounted scope ((begin scope).ended s calls) ((begin scope).history s calls) :=
  accounted_begin.history s

end TwoPhase

end AccessRules
