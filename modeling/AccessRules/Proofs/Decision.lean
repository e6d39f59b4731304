/-
# How a decision is taken

The service runs a request through a queue of decisions, which for one request holds one tree at
most.  Without the queue a decision is its plan and two evaluations: the preview right after
planning, and the commit right after the preview, if that denies nothing (`evaluate_eq_take`).

* `Request.previewed`, `Request.committed`: the two evaluations;
* `Plan.take_of_preview_error` and its like: how each outcome of the two shows in the result;
* `decide_of_failure`, `decide_of_forbidden`, `decide_of_ok`: what the service makes of that.
-/
import AccessRules.Proofs.Planning
import AccessRules.Service.Authorize

namespace AccessRules

/-! ## 1. Requiring a tree -/

namespace Session

@[simp] theorem lookUps_report (s : Session) (e : Event) : (s.report e).lookUps = s.lookUps := rfl

theorem quiet_report (s : Session) (e : Event) : s.Quiet (s.report e) := ⟨rfl, rfl⟩

theorem Quiet.report {s s' : Session} (h : s.Quiet s') (e : Event) : s.Quiet (s'.report e) :=
  ⟨h.lookUps, h.requests⟩

end Session

namespace Tree

variable {t : Tree} {s : Session}

/-- An error passes through. -/
theorem require_of_error {f : CheckFailure} (h : (t.evaluate s).result = .error f) :
    t.require s = (.error (.ofCheck f), (t.evaluate s).tree, (t.evaluate s).state) := by
  simp only [require, allows, h]

/-- Only a failed root denies. -/
theorem require_of_ne_failed {st : Status} (h : (t.evaluate s).result = .ok st)
    (hst : st ≠ .failed) : t.require s = (.ok (), (t.evaluate s).tree, (t.evaluate s).state) := by
  have hdenies : st.denies = false := decide_eq_false hst
  simp only [require, allows, h, hdenies, Bool.not_false]

/-- A denial is no error of a check, and shows the tree that denies. -/
theorem require_of_failed (h : (t.evaluate s).result = .ok .failed) :
    ∃ category resource s', (t.evaluate s).state.Quiet s' ∧
      t.require s = (.error (.forbidden category resource (t.evaluate s).tree.text),
        (t.evaluate s).tree, s') := by
  have hdenies : Status.failed.denies = true := rfl
  simp only [require, allows, h, hdenies, Bool.not_true, denial]
  cases (t.evaluate s).tree.condition? with
  | none => exact ⟨_, _, _, Session.quiet_report _ _, rfl⟩
  | some c => exact ⟨_, _, _, Session.quiet_report _ _, rfl⟩

end Tree

/-! ## 2. Both phases of a plan -/

/-- Takes both phases of a plan, one right after the other. -/
def Plan.take (plan : Plan) (s : Session) : Except Failure (Option String) × Session :=
  match plan.preview.require s with
  | (.error f, _, s) => (.error f, s)
  | (.ok (), _, s) =>
    match plan.commit.require (s.report (.committing 1)) with
    | (.error f, _, s) => (.error f, s.report (.commitFailed f))
    | (.ok (), t, s) => (.ok (some t.text), s)

namespace Plan

variable {plan : Plan} {s : Session} {e : Evaluation Session}

section Preview

variable (he : plan.preview.evaluate s = e)

include he

theorem take_of_preview_error {f : CheckFailure} (h : e.result = .error f) :
    plan.take s = (.error (.ofCheck f), e.state) := by
  subst he
  rw [take, Tree.require_of_error h]

theorem take_of_preview_failed (h : e.result = .ok .failed) :
    ∃ category resource s', e.state.Quiet s' ∧
      plan.take s = (.error (.forbidden category resource e.tree.text), s') := by
  subst he
  obtain ⟨category, resource, s', hs', hrequire⟩ := Tree.require_of_failed h
  exact ⟨category, resource, s', hs', by rw [take, hrequire]⟩

end Preview

section Commit

variable {e' : Evaluation Session} {st : Status} (he : plan.preview.evaluate s = e)
  (he' : plan.commit.evaluate (e.state.report (.committing 1)) = e') (h : e.result = .ok st)
  (hst : st ≠ .failed)

include he he' h hst

theorem take_of_commit_error {f : CheckFailure} (h' : e'.result = .error f) :
    ∃ s', e'.state.Quiet s' ∧ plan.take s = (.error (.ofCheck f), s') := by
  subst he he'
  refine ⟨_, Session.quiet_report _ (.commitFailed (.ofCheck f)), ?_⟩
  rw [take, Tree.require_of_ne_failed h hst]
  simp only [Tree.require_of_error h']

theorem take_of_commit_failed (h' : e'.result = .ok .failed) :
    ∃ category resource s', e'.state.Quiet s' ∧
      plan.take s = (.error (.forbidden category resource e'.tree.text), s') := by
  subst he
  rw [← he'] at h'
  obtain ⟨category, resource, s', hs', hrequire⟩ := Tree.require_of_failed h'
  rw [he'] at hs' hrequire
  refine ⟨category, resource,
    s'.report (.commitFailed (.forbidden category resource e'.tree.text)), hs'.report _, ?_⟩
  rw [take, Tree.require_of_ne_failed h hst]
  simp only [hrequire]

theorem take_of_commit_passed (h' : e'.result = .ok .passed) :
    plan.take s = (.ok (some e'.tree.text), e'.state) := by
  subst he he'
  rw [take, Tree.require_of_ne_failed h hst]
  simp only [Tree.require_of_ne_failed h' (by decide)]

end Commit

end Plan

/-! ## 3. The plan of a request -/

namespace Request

/-- An admitted request with a change asks about the field that the change is to. -/
theorem field_of_validate {r : Request} {index : Nat} (h : r.validate index = .ok ())
    {c : Change} (hc : r.change = some c) : r.field = some c.field := by
  rw [validate] at h
  split at h
  · cases h
  · next hfault =>
    rw [fault?, hc] at hfault
    split at hfault
    · cases hfault
    · split at hfault
      · cases hfault
      · by_cases hfield : r.field = some c.field
        · exact hfield
        · simp only [hfield, if_false] at hfault
          cases hfault

/-- A decision about a resource as a whole is shown no change, but then an admitted request has
none. -/
theorem shownChange_of_validate {r : Request} {index : Nat} (h : r.validate index = .ok ()) :
    (r.field.bind fun _ => r.change) = r.change := by
  cases hc : r.change with
  | none =>
    cases r.field <;> rfl
  | some c =>
    rw [field_of_validate h hc]
    rfl

/-- Whether a request is admitted does not depend on its place in a batch. -/
theorem validate_of_validate {r : Request} {index : Nat} (h : r.validate index = .ok ())
    (index' : Nat) : r.validate index' = .ok () := by
  rw [validate] at h ⊢
  cases hfault : r.fault? with
  | some fault =>
    rw [hfault] at h
    cases h
  | none => rfl

theorem validate_of_validateFrom {rs : List Request} {n : Nat}
    (h : validateFrom n rs = .ok ()) : ∀ r ∈ rs, ∃ index, r.validate index = .ok () := by
  induction rs generalizing n with
  | nil => exact List.forall_mem_nil _
  | cons r rs ih =>
    rw [validateFrom] at h
    split at h
    · cases h
    · next hr =>
      exact List.forall_mem_cons.mpr ⟨⟨n, hr⟩, ih h⟩

/-- A batch is admitted only if every request in it is. -/
theorem validate_of_validateBatch {rs : List Request} (h : validateBatch rs = .ok ()) :
    ∀ r ∈ rs, ∃ index, r.validate index = .ok () := by
  rw [validateBatch] at h
  split at h
  · cases h
  · split at h
    · cases h
    · exact validate_of_validateFrom h

variable (r : Request) (scope : RequestScope) (s : Session)

/-- What keeps a request from being decided, if anything does. -/
def obstacle? : Option Failure :=
  scope.dictionary.obstacle? r.resource.typeName r.category r.field

/-- The tree of a request in one phase. -/
def tree (p : Phase) : Tree := scope.tree r.resource r.category r.field r.change p

/-- The trees of a request. -/
def plan : Plan := ⟨r.tree scope .preview, r.tree scope .commit⟩

/-- The session after planning. -/
def planned : Session := (scope.plan r.resource r.category r.field r.change s).2

/-- The evaluation of the preview, right after planning. -/
def previewed : Evaluation Session := (r.tree scope .preview).evaluate (r.planned scope s)

/-- The evaluation of the commit, right after the preview. -/
def committed : Evaluation Session :=
  (r.tree scope .commit).evaluate ((r.previewed scope s).state.report (.committing 1))

theorem evaluate_preview :
    (r.plan scope).preview.evaluate (r.planned scope s) = r.previewed scope s := rfl

theorem evaluate_commit : (r.plan scope).commit.evaluate
    ((r.previewed scope s).state.report (.committing 1)) = r.committed scope s := rfl

/-- The session after the last evaluation that a decision needs: a preview that fails or denies
spares the commit. -/
def ended : Session :=
  match (r.previewed scope s).result with
  | .error _ | .ok .failed => (r.previewed scope s).state
  | .ok _ => (r.committed scope s).state

theorem ended_of_error {f : CheckFailure} (h : (r.previewed scope s).result = .error f) :
    r.ended scope s = (r.previewed scope s).state := by
  rw [ended, h]

theorem ended_of_failed (h : (r.previewed scope s).result = .ok .failed) :
    r.ended scope s = (r.previewed scope s).state := by
  rw [ended, h]

theorem ended_of_ne_failed {st : Status} (h : (r.previewed scope s).result = .ok st)
    (hst : st ≠ .failed) : r.ended scope s = (r.committed scope s).state := by
  rw [ended, h]
  cases st with
  | failed => exact absurd rfl hst
  | _ => rfl

end Request

/-- The request for the change of the specimen. -/
def Specimen.request : Request := (Request.whole book .update).withChange retitling

/-! ## 4. Without the queue -/

/-- Commits what waits after a preview, and returns the text of the last tree. -/
def TwoPhase.finish : Except Failure Unit × TwoPhase × Session →
    Except Failure (Option String) × Session
  | (.error f, _, s) => (.error f, s)
  | (.ok (), phases, s) =>
    match phases.commit s with
    | (.error f, _, s) => (.error f, s)
    | (.ok trees, _, s) => (.ok (trees.getLast?.map Tree.text), s)

/-- Committing a single tree requires it. -/
theorem TwoPhase.commit_singleton (scope : RequestScope) (t : Tree) (s : Session) :
    TwoPhase.commit ⟨scope, [t]⟩ s =
      match t.require (s.report (.committing 1)) with
      | (.error f, _, s) => (.error f, ⟨scope, []⟩, s.report (.commitFailed f))
      | (.ok (), t, s) => (.ok [t], ⟨scope, []⟩, s) := by
  simp only [commit, pending, Tree.requireAll, List.length_singleton]
  rcases t.require (s.report (.committing 1)) with ⟨f | _, t', s'⟩
  · rfl
  · rfl

namespace Service

variable {scope : RequestScope} {r : Request} {s : Session} {index : Nat}

/-- A decision previews one plan and commits what then waits. -/
theorem evaluate_eq_finish : evaluate scope r s =
    TwoPhase.finish ((TwoPhase.begin scope).preview
      (scope.plan r.resource r.category r.field (r.field.bind fun _ => r.change) s)) := by
  rw [evaluate]
  cases r.field with
  | none =>
    change _ = TwoPhase.finish ((TwoPhase.begin scope).checkWhole r.resource r.category s)
    rcases (TwoPhase.begin scope).checkWhole r.resource r.category s with ⟨f | _, phases, s⟩
    · rfl
    · rfl
  | some field =>
    dsimp only
    change _ = TwoPhase.finish
      ((TwoPhase.begin scope).checkField r.resource r.category field r.change s)
    rcases (TwoPhase.begin scope).checkField r.resource r.category field r.change s with
      ⟨f | _, phases, s⟩
    · rfl
    · rfl

/-- The queue of a decision holds its own commit tree and nothing else. -/
theorem finish_preview (planned : Except Failure Plan × Session) :
    TwoPhase.finish ((TwoPhase.begin scope).preview planned) =
      match planned with
      | (.error f, s) => (.error f, s)
      | (.ok plan, s) => plan.take s := by
  obtain ⟨f | plan, s⟩ := planned
  · rfl
  · simp only [TwoPhase.preview, TwoPhase.begin, List.nil_append, Plan.take]
    rcases plan.preview.require s with ⟨f | _, t, s⟩
    · rfl
    · simp only [TwoPhase.finish, TwoPhase.commit_singleton]
      rcases plan.commit.require (s.report (.committing 1)) with ⟨f | _, t, s⟩
      · rfl
      · rfl

/-- A decision takes both phases of its plan. -/
theorem evaluate_eq (h : r.validate index = .ok ()) : evaluate scope r s =
    match scope.plan r.resource r.category r.field r.change s with
    | (.error f, s) => (.error f, s)
    | (.ok plan, s) => plan.take s := by
  rw [evaluate_eq_finish, finish_preview, Request.shownChange_of_validate h]

/-- Nothing but an obstacle keeps both phases from being taken. -/
theorem evaluate_eq_take (h : r.validate index = .ok ())
    (hnone : r.obstacle? scope = none) :
    evaluate scope r s = (r.plan scope).take (r.planned scope s) := by
  have hplan := RequestScope.plan_of_unobstructed scope r.resource r.category r.field r.change s
    hnone
  rw [evaluate_eq h, ← Prod.eta (scope.plan _ _ _ _ _), hplan]
  rfl

end Service

/-! ## 5. What the service makes of it -/

/-- The decision that stands for a failure. -/
def Decision.closed (f : Failure) : Decision := ⟨false, none, some f.message⟩

namespace Service

variable (service : Service) {scope : RequestScope} {r : Request} {s s' : Session}

theorem decide_of_failure {f : Failure} (h : evaluate scope r s = (.error f, s'))
    (hf : ∀ name resource diagnostic, f ≠ .forbidden name resource diagnostic) :
    service.decide scope r s =
      (.closed f, s'.report (.failedClosed r.resource.text r.category f)) := by
  rw [decide, h]
  cases f with
  | forbidden name resource diagnostic => exact absurd rfl (hf name resource diagnostic)
  | _ => rfl

/-- The diagnostic that a decision shows. -/
def shown (diagnostic : Option String) : Option String :=
  if service.showsDiagnostics then diagnostic else none

theorem decide_of_forbidden {name resource text : String}
    (h : evaluate scope r s = (.error (.forbidden name resource text), s')) :
    service.decide scope r s = (⟨false, service.shown (some text), none⟩,
      s'.report (.decided r.resource.text r.category r.field false)) := by
  rw [decide, h]
  rfl

theorem decide_of_ok {text : Option String} (h : evaluate scope r s = (.ok text, s')) :
    service.decide scope r s = (⟨true, service.shown text, none⟩,
      s'.report (.decided r.resource.text r.category r.field true)) := by
  rw [decide, h]
  rfl

end Service

/-! ## 6. A decision is two outcomes -/

namespace Service

variable (service : Service) {scope : RequestScope} {r : Request} {s : Session} {index : Nat}

/-- The decision that the evaluations of the two trees amount to. -/
def judge {σ : Type} (preview commit : Evaluation σ) : Decision :=
  match preview.result, commit.result with
  | .error f, _ => .closed (.ofCheck f)
  | .ok .failed, _ => ⟨false, service.shown (some preview.tree.text), none⟩
  | .ok _, .error f => .closed (.ofCheck f)
  | .ok _, .ok .failed => ⟨false, service.shown (some commit.tree.text), none⟩
  | .ok _, .ok _ => ⟨true, service.shown (some commit.tree.text), none⟩

theorem judge_of_committed {preview commit : Evaluation Session} {st : Status}
    (h : preview.result = .ok st) (hst : st ≠ .failed) :
    service.judge preview commit =
      match commit.result with
      | .error f => .closed (.ofCheck f)
      | .ok .failed => ⟨false, service.shown (some commit.tree.text), none⟩
      | .ok _ => ⟨true, service.shown (some commit.tree.text), none⟩ := by
  rw [judge, h]
  cases st with
  | failed => exact absurd rfl hst
  | _ => cases commit.result with
    | error f => rfl
    | ok st' => cases st' <;> rfl

/-- With an obstacle a decision is closed, and nothing is asked. -/
theorem decide_of_obstacle (h : r.validate index = .ok ()) {f : Failure}
    (hf : r.obstacle? scope = some f) :
    service.decide scope r s =
      (.closed f, (r.planned scope s).report (.failedClosed r.resource.text r.category f)) := by
  refine service.decide_of_failure ?_ (Dictionary.obstacle?_ne_forbidden hf)
  have hplan := scope.plan_fst r.resource r.category r.field r.change s
  rw [show scope.dictionary.obstacle? _ _ _ = _ from hf] at hplan
  rw [evaluate_eq h, ← Prod.eta (scope.plan _ _ _ _ _), hplan]
  rfl

/-- **A decision is what its two evaluations amount to**, and after the last of them nothing is
asked. -/
theorem decide_ended (h : r.validate index = .ok ()) (hnone : r.obstacle? scope = none) :
    (service.decide scope r s).1 = service.judge (r.previewed scope s) (r.committed scope s) ∧
      (r.ended scope s).Quiet (service.decide scope r s).2 := by
  have heval := evaluate_eq_take (s := s) h hnone
  have hp := r.evaluate_preview scope s
  have hc := r.evaluate_commit scope s
  cases hres : (r.previewed scope s).result with
  | error f =>
    have htake := Plan.take_of_preview_error hp hres
    rw [service.decide_of_failure (heval.trans htake) (fun _ _ _ => Failure.noConfusion),
      r.ended_of_error scope s hres]
    exact ⟨by rw [judge, hres], Session.quiet_report _ _⟩
  | ok st =>
    rcases eq_or_ne st .failed with rfl | hst
    · obtain ⟨_, _, t, ht, htake⟩ := Plan.take_of_preview_failed hp hres
      rw [service.decide_of_forbidden (heval.trans htake), r.ended_of_failed scope s hres]
      exact ⟨by rw [judge, hres], ht.report _⟩
    · rw [service.judge_of_committed hres hst, r.ended_of_ne_failed scope s hres hst]
      cases hres' : (r.committed scope s).result with
      | error f =>
        obtain ⟨t, ht, htake⟩ := Plan.take_of_commit_error hp hc hres hst hres'
        rw [service.decide_of_failure (heval.trans htake) (fun _ _ _ => Failure.noConfusion)]
        exact ⟨rfl, ht.report _⟩
      | ok st' =>
        rcases Tree.evaluateWith_definite RequestScope.fresh_tree _ st' hres' with rfl | rfl
        · have htake := Plan.take_of_commit_passed hp hc hres hst hres'
          rw [service.decide_of_ok (heval.trans htake)]
          exact ⟨rfl, Session.quiet_report _ _⟩
        · obtain ⟨_, _, t, ht, htake⟩ := Plan.take_of_commit_failed hp hc hres hst hres'
          rw [service.decide_of_forbidden (heval.trans htake)]
          exact ⟨rfl, ht.report _⟩

/-- Whichever evaluation is the last one, nothing is asked after it. -/
theorem decide_judged (h : r.validate index = .ok ()) (hnone : r.obstacle? scope = none) :
    (service.decide scope r s).1 = service.judge (r.previewed scope s) (r.committed scope s) ∧
      ((r.previewed scope s).state.Quiet (service.decide scope r s).2 ∨
        (r.committed scope s).state.Quiet (service.decide scope r s).2) := by
  obtain ⟨hdecision, hquiet⟩ := service.decide_ended (s := s) h hnone
  refine ⟨hdecision, ?_⟩
  rw [Request.ended] at hquiet
  split at hquiet
  · exact .inl hquiet
  · exact .inl hquiet
  · exact .inr hquiet

/-- Where no check raises an error there is none in the decision. -/
theorem error_judge {preview commit : Evaluation Session} {st st' : Status}
    (h : preview.result = .ok st) (h' : commit.result = .ok st') :
    (service.judge preview commit).error = none := by
  rw [judge, h, h']
  cases st <;> cases st' <;> rfl

/-- What every decision of a call keeps holds of the session of each of them. -/
theorem decideAll_forall {I : Session → Prop} {P : Request → Decision → Prop} {rs : List Request}
    (h : ∀ r ∈ rs, ∀ s, I s → P r (service.decide scope r s).1 ∧ I (service.decide scope r s).2)
    {s : Session} (hs : I s) : List.Forall₂ P rs (service.decideAll scope rs s).1 := by
  induction rs generalizing s with
  | nil => exact .nil
  | cons r rs ih =>
    obtain ⟨hr, hrs⟩ := List.forall_mem_cons.mp h
    obtain ⟨hdecision, hkept⟩ := hr s hs
    exact .cons hdecision (ih hrs hkept)

/-! ## 7. Calls -/

variable (user : User)

/-- A call for one admitted request takes one decision. -/
theorem authorize_of_validate (h : r.validate 0 = .ok ()) (s : Session) :
    ∃ s', service.authorize user r s =
      (.ok (service.decide (service.openScope user s).1 r (service.openScope user s).2).1, s') := by
  rw [authorize, h]
  exact ⟨_, rfl⟩

/-- A call for an admitted batch takes its decisions one after the other. -/
theorem authorizeBatch_of_validate {rs : List Request} (h : Request.validateBatch rs = .ok ())
    (s : Session) : ∃ s', service.authorizeBatch user rs s =
      (.ok (service.decideAll (service.openScope user s).1 rs (service.openScope user s).2).1,
        s') := by
  simp only [authorizeBatch, h]
  exact ⟨_, rfl⟩

end Service

end AccessRules
