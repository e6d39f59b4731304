/-
# Decisions fail closed

A decision can go wrong in three ways: its type is not declared, a rule that it consults is no
rule, or a check that it reaches raises an error.  In each of them the answer is a no that carries
the text of the failure, however the check stands among `AND`, `OR` and `NOT`.  In all other cases
there is no error, and the answer is a yes exactly if the preview does not fail and the commit
passes.

* `FailsClosed` says so about one decision and the look-ups it made;
* `decide_failsClosed` proves it of every decision, from the account of its two evaluations.
-/
import AccessRules.Proofs.Decision

namespace AccessRules

/-! ## 1. Failing closed -/

/-- What a decision owes: the decision `d` about `r` that took a session from `s` to `s'`. -/
structure Request.FailsClosed (r : Request) (scope : RequestScope) (s : Session) (d : Decision)
    (s' : Session) (us : List LookUp) : Prop where
  /-- The look-ups of the decision, in order. -/
  lookUps : s'.lookUps = us.reverse ++ s.lookUps
  reached : ∀ u ∈ us, ∃ p, u.leaf ∈ (r.tree scope p).leaves
  /-- A type that is not declared, or a consulted rule that cannot be used, is an obstacle. -/
  obstacle : (r.obstacle? scope).isSome ↔
    scope.dictionary.declares r.resource.typeName = false ∨
    ∃ place ∈ scope.dictionary.places r.resource.typeName r.category r.field, ∃ text e,
      scope.dictionary.declared? r.resource.typeName r.category place = some text ∧
        scope.dictionary.compile text = .error e
  /-- With an obstacle nothing is asked, and the answer is a no with the text of the failure. -/
  barred : ∀ f, r.obstacle? scope = some f → d = .closed f ∧ us = []
  /-- An error of any leaf that was reached is the error of the decision. -/
  raised : ∀ u ∈ us, ∀ detail, u.answer = .error detail →
    d = .closed (.checkFailed u.leaf.name detail)
  /-- Otherwise there is no error, and the roots of the two trees decide. -/
  decided : r.obstacle? scope = none → (∀ u ∈ us, ∃ b, u.answer = .ok b) →
    d.error = none ∧ (d.allowed = true ↔
      (∃ st, (r.previewed scope s).result = .ok st ∧ st ≠ .failed) ∧
        (r.committed scope s).result = .ok .passed)
  /-- No yes comes with an error. -/
  sober : d.allowed = true → d.error = none

namespace Request.FailsClosed

variable {scope : RequestScope} {r : Request} {s s' : Session} {d : Decision} {us : List LookUp}

theorem of_obstacle {f : Failure} (hf : r.obstacle? scope = some f)
    (hs' : s'.lookUps = s.lookUps) : r.FailsClosed scope s (.closed f) s' [] where
  lookUps := hs'
  reached := List.forall_mem_nil _
  obstacle := Dictionary.isSome_obstacle?_iff
  barred f' hf' := by
    rw [hf] at hf'
    cases hf'
    exact ⟨rfl, rfl⟩
  raised := List.forall_mem_nil _
  decided hnone := by
    rw [hf] at hnone
    cases hnone
  sober h := absurd h Bool.false_ne_true

section Unobstructed

variable (hnone : r.obstacle? scope = none) (hs' : s'.lookUps = us.reverse ++ s.lookUps)
  (hreached : ∀ u ∈ us, ∃ p, u.leaf ∈ (r.tree scope p).leaves)

include hnone hs' hreached

theorem of_raised {f : CheckFailure} (hus : Explain us (.error f)) :
    r.FailsClosed scope s (.closed (.ofCheck f)) s' us where
  lookUps := hs'
  reached := hreached
  obstacle := Dictionary.isSome_obstacle?_iff
  barred f' hf' := by
    rw [hnone] at hf'
    cases hf'
  raised u hu detail hdetail := by
    rw [Except.error.inj (hus.eq_error hu hdetail)]
    rfl
  decided _ hok := by
    -- the last look-up raised the error
    obtain ⟨before, u, rfl, -, -, hdetail⟩ := hus
    obtain ⟨b, hb⟩ := hok u (List.mem_append_right _ (List.mem_singleton_self u))
    rw [hb] at hdetail
    cases hdetail
  sober h := absurd h Bool.false_ne_true

theorem of_decided (hok : ∀ u ∈ us, ∃ b, u.answer = .ok b) (herror : d.error = none)
    (hallowed : d.allowed = true ↔
      (∃ st, (r.previewed scope s).result = .ok st ∧ st ≠ .failed) ∧
        (r.committed scope s).result = .ok .passed) :
    r.FailsClosed scope s d s' us where
  lookUps := hs'
  reached := hreached
  obstacle := Dictionary.isSome_obstacle?_iff
  barred f hf := by
    rw [hnone] at hf
    cases hf
  raised u hu detail hdetail := by
    obtain ⟨b, hb⟩ := hok u hu
    rw [hb] at hdetail
    cases hdetail
  decided _ _ := ⟨herror, hallowed⟩
  sober _ := herror

end Unobstructed

end Request.FailsClosed

/-! ## 2. Every decision -/

namespace Service

variable (service : Service) {scope : RequestScope} {r : Request} {s s' : Session}

/-- A decision of which the preview denies nothing fails closed. -/
theorem decide_failsClosed_of_preview {index : Nat} (h : r.validate index = .ok ())
    (hnone : r.obstacle? scope = none) {st : Status} (hres : (r.previewed scope s).result = .ok st)
    (hst : st ≠ .failed) {us : List LookUp}
    (hus : (r.previewed scope s).state.lookUps = us.reverse ++ s.lookUps)
    (hreached : ∀ u ∈ us, ∃ p, u.leaf ∈ (r.tree scope p).leaves)
    (hok : ∀ u ∈ us, ∃ b, u.answer = .ok b) :
    ∃ us, r.FailsClosed scope s (service.decide scope r s).1 (service.decide scope r s).2 us := by
  have heval := evaluate_eq_take (s := s) h hnone
  obtain ⟨vs, hvs⟩ := Tree.evaluate_account (r.tree scope .commit)
    ((r.previewed scope s).state.report (.committing 1))
  change Account _ _ (r.committed scope s) vs at hvs
  have hlook : (r.committed scope s).state.lookUps = (us ++ vs).reverse ++ s.lookUps := by
    rw [hvs.lookUps, Session.lookUps_report, hus, List.reverse_append, List.append_assoc]
  have hboth : ∀ u ∈ us ++ vs, ∃ p, u.leaf ∈ (r.tree scope p).leaves := by
    intro u hu
    rcases List.mem_append.mp hu with hu | hu
    · exact hreached u hu
    · exact ⟨.commit, hvs.leaves u hu⟩
  have hout : Explain (us ++ vs) (r.committed scope s).result := .append hok hvs.outcome
  have hp := r.evaluate_preview scope s
  have hc := r.evaluate_commit scope s
  cases hres' : (r.committed scope s).result with
  | error f =>
    rw [hres'] at hout
    obtain ⟨t, ht, htake⟩ := Plan.take_of_commit_error hp hc hres hst hres'
    rw [service.decide_of_failure (heval.trans htake) (fun _ _ _ => Failure.noConfusion)]
    refine ⟨us ++ vs, .of_raised hnone ?_ hboth hout⟩
    exact ht.lookUps.trans hlook
  | ok st' =>
    rw [hres'] at hout
    rcases Tree.evaluateWith_definite RequestScope.fresh_tree _ st' hres' with rfl | rfl
    · have htake := Plan.take_of_commit_passed hp hc hres hst hres'
      rw [service.decide_of_ok (heval.trans htake)]
      exact ⟨us ++ vs, .of_decided hnone hlook hboth hout rfl
        ⟨fun _ => ⟨⟨st, hres, hst⟩, hres'⟩, fun _ => rfl⟩⟩
    · obtain ⟨_, _, t, ht, htake⟩ := Plan.take_of_commit_failed hp hc hres hst hres'
      rw [service.decide_of_forbidden (heval.trans htake)]
      refine ⟨us ++ vs, .of_decided hnone (ht.lookUps.trans hlook) hboth hout rfl
        ⟨fun h => absurd h Bool.false_ne_true, ?_⟩⟩
      rintro ⟨-, hpassed⟩
      rw [hres'] at hpassed
      cases hpassed

/-- **A decision fails closed**, from whatever session it is taken and whatever checks do. -/
theorem decide_failsClosed (scope : RequestScope) (s : Session) {r : Request} {index : Nat}
    (h : r.validate index = .ok ()) : ∃ us,
    r.FailsClosed scope s (service.decide scope r s).1 (service.decide scope r s).2 us := by
  have hquiet : (r.planned scope s).lookUps = s.lookUps :=
    (scope.plan_quiet r.resource r.category r.field r.change s).1
  cases ho : r.obstacle? scope with
  | some f =>
    rw [service.decide_of_obstacle h ho]
    exact ⟨[], .of_obstacle ho hquiet⟩
  | none =>
    obtain ⟨us, hus⟩ := Tree.evaluate_account (r.tree scope .preview) (r.planned scope s)
    change Account _ _ (r.previewed scope s) us at hus
    have hlook : (r.previewed scope s).state.lookUps = us.reverse ++ s.lookUps := by
      rw [hus.lookUps, hquiet]
    have hreached : ∀ u ∈ us, ∃ p, u.leaf ∈ (r.tree scope p).leaves :=
      fun u hu => ⟨.preview, hus.leaves u hu⟩
    have heval := evaluate_eq_take (s := s) h ho
    have hout := hus.outcome
    cases hres : (r.previewed scope s).result with
    | error f =>
      rw [hres] at hout
      have htake := Plan.take_of_preview_error (r.evaluate_preview scope s) hres
      rw [service.decide_of_failure (heval.trans htake) (fun _ _ _ => Failure.noConfusion)]
      refine ⟨us, .of_raised ho ?_ hreached hout⟩
      exact hlook
    | ok st =>
      rw [hres] at hout
      rcases eq_or_ne st .failed with rfl | hst
      · obtain ⟨_, _, t, ht, htake⟩ :=
          Plan.take_of_preview_failed (r.evaluate_preview scope s) hres
        rw [service.decide_of_forbidden (heval.trans htake)]
        refine ⟨us, .of_decided ho (ht.lookUps.trans hlook) hreached hout rfl
          ⟨fun h => absurd h Bool.false_ne_true, ?_⟩⟩
        rintro ⟨⟨st, hst, hne⟩, -⟩
        rw [hres] at hst
        exact absurd (Except.ok.inj hst).symm hne
      · exact service.decide_failsClosed_of_preview h ho hres hst hlook hreached hout

/-! ## 3. Calls -/

theorem decideAll_failClosed {rs : List Request} (h : ∀ r ∈ rs, ∃ index, r.validate index = .ok ())
    (s : Session) : List.Forall₂ (fun r d => ∃ t t' us, service.decide scope r t = (d, t') ∧
      r.FailsClosed scope t d t' us) rs (service.decideAll scope rs s).1 := by
  refine service.decideAll_forall (I := fun _ => True) (fun r hr t _ => ⟨?_, trivial⟩) trivial
  obtain ⟨index, hindex⟩ := h r hr
  obtain ⟨us, hus⟩ := service.decide_failsClosed scope t hindex
  exact ⟨t, _, us, rfl, hus⟩

variable (user : User)

/-- **No call turns a failure into a yes.**  Every admitted request, alone or in a batch, gets a
decision that fails closed. -/
theorem calls_failClosed (s : Session) :
    (∀ r : Request, r.validate 0 = .ok () → ∃ d s' us, service.authorize user r s = (.ok d, s') ∧
      r.FailsClosed (service.openScope user s).1 (service.openScope user s).2 d s' us) ∧
    ∀ rs, Request.validateBatch rs = .ok () → ∃ ds s',
      service.authorizeBatch user rs s = (.ok ds, s') ∧
      List.Forall₂ (fun r d => ∃ t t' us,
        service.decide (service.openScope user s).1 r t = (d, t') ∧
          r.FailsClosed (service.openScope user s).1 t d t' us) rs ds := by
  constructor
  · intro r hr
    obtain ⟨us, hus⟩ := service.decide_failsClosed (service.openScope user s).1
      (service.openScope user s).2 hr
    refine ⟨_, _, us, ?_, hus⟩
    rw [authorize, hr]
  · intro rs hrs
    refine ⟨_, (service.authorizeBatch user rs s).2, ?_,
      service.decideAll_failClosed (Request.validate_of_validateBatch hrs)
        (service.openScope user s).2⟩
    simp only [authorizeBatch, hrs]

/-- A check under `AND` that raises an error: the call carries it. -/
theorem calls_failClosed_offline :
    let service := Service.ofDictionary (Specimen.dictionary.addCheck "retitles"
      (.custom .operation fun _ _ => .error "offline"))
    let user := User.anonymous
    (service.authorize user Specimen.request .initial).1 =
      .ok (.closed (.checkFailed "retitles" "offline")) ∧
    Specimen.request.validate 0 = .ok () ∧
    ∃ d s' us, service.authorize user Specimen.request .initial = (.ok d, s') ∧
      Specimen.request.FailsClosed (service.openScope user .initial).1
        (service.openScope user .initial).2 d s' us := by
  intro service user
  have hvalid : Specimen.request.validate 0 = .ok () := by rfl
  exact ⟨by rfl, hvalid, (service.calls_failClosed user .initial).1 Specimen.request hvalid⟩

end Service

end AccessRules
