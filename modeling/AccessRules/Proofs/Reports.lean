/-
# What is reported is what happened

Three things keep an account of a call: the look-ups of leaves, the counters of its request and the
events.  They are written at different places, in the evaluation of trees, in the phases of a
decision and in the service, and they tell the same story.

* `Session.Chapter`: what one session tells beyond another, look-ups and events, with the counters
  that go with them; every step of a call adds a chapter;
* `Told`: the events of one decision, with one verdict and a denial exactly where it says no;
* `authorizeBatch_reports`: the events of a batch that was admitted.
-/
import AccessRules.Log.Filter
import AccessRules.Proofs.Batch

namespace AccessRules

/-! ## 1. Kinds of events -/

namespace Event

/-- Whether this is the message of an event. -/
def hasMessage (e : Event) (message : String) : Bool := e.message == message

/-- Whether an event reports the outcome of a leaf. -/
def ofLeaf (e : Event) : Bool :=
  e.hasMessage "check evaluated" || e.hasMessage "check raised an error"

/-- Whether an event reports what became of a request. -/
def isVerdict (e : Event) : Bool :=
  e.hasMessage "authorization decided" || e.hasMessage "authorization failed closed"

/-- Whether an event reports that the rules say no. -/
def isDenial (e : Event) : Bool := e.hasMessage "permission denied"

/-- An event that counts for none of these. -/
structure Neutral (e : Event) : Prop where
  leaf : e.ofLeaf = false
  verdict : e.isVerdict = false
  denial : e.isDenial = false

theorem neutral_plannedWhole (resource : String) (category : Category) (n : Nat) (tree : String) :
    (plannedWhole resource category n tree).Neutral := ⟨rfl, rfl, rfl⟩

theorem neutral_plannedField (resource : String) (category : Category) (field tree : String) :
    (plannedField resource category field tree).Neutral := ⟨rfl, rfl, rfl⟩

theorem neutral_committing (n : Nat) : (committing n).Neutral := ⟨rfl, rfl, rfl⟩

theorem neutral_commitFailed (f : Failure) : (commitFailed f).Neutral := ⟨rfl, rfl, rfl⟩

/-- The outcomes of leaves have one of two messages, and never both. -/
theorem countP_ofLeaf (es : List Event) : es.countP ofLeaf =
    es.countP (·.hasMessage "check evaluated") +
      es.countP (·.hasMessage "check raised an error") := by
  induction es with
  | nil => rfl
  | cons e es ih =>
    simp only [List.countP_cons, ih]
    cases e <;> simp [ofLeaf, hasMessage, message] <;> omega

end Event

/-- The event that reports a look-up. -/
def LookUp.event (u : LookUp) : Event := u.leaf.event u.answer

theorem LookUp.ofLeaf_event (u : LookUp) : u.event.ofLeaf = true := by
  unfold event Leaf.event
  cases u.answer <;> rfl

theorem LookUp.isVerdict_event (u : LookUp) : u.event.isVerdict = false := by
  unfold event Leaf.event
  cases u.answer <;> rfl

theorem LookUp.isDenial_event (u : LookUp) : u.event.isDenial = false := by
  unfold event Leaf.event
  cases u.answer <;> rfl

/-! ## 2. Chapters -/

namespace Session

/-- What a session tells of a request beyond an earlier one: the look-ups and the events that came
since, the earliest first, and by how much the counters of the request went up. -/
structure Chapter (n : Nat) (s s' : Session) (us : List LookUp) (es : List Event) : Prop where
  opened : s'.Opened n
  lookUps : s'.lookUps = us.reverse ++ s.lookUps
  events : s'.events = es.reverse ++ s.events
  /-- Every look-up is reported, and no other outcome of a leaf is. -/
  reported : es.filter Event.ofLeaf = us.map LookUp.event
  hits : (s'.answers n).hits = (s.answers n).hits + us.countP fun u => !u.ran
  misses : (s'.answers n).misses = (s.answers n).misses + us.countP LookUp.ran
  evaluations : (s'.answers n).evaluations = (s.answers n).evaluations + us.countP LookUp.ran

namespace Chapter

variable {n : Nat} {a b c s s' : Session} {us vs : List LookUp} {es fs : List Event}

theorem refl (h : s.Opened n) : Chapter n s s [] [] := by
  constructor
  · exact h
  all_goals simp

theorem trans (h : Chapter n a b us es) (h' : Chapter n b c vs fs) :
    Chapter n a c (us ++ vs) (es ++ fs) := by
  constructor
  · exact h'.opened
  · simp [h'.lookUps, h.lookUps]
  · simp [h'.events, h.events]
  · simp [h.reported, h'.reported]
  · rw [h'.hits, h.hits, List.countP_append, Nat.add_assoc]
  · rw [h'.misses, h.misses, List.countP_append, Nat.add_assoc]
  · rw [h'.evaluations, h.evaluations, List.countP_append, Nat.add_assoc]

/-- Every look-up either found an answer or ran its check. -/
theorem countP_ran (us : List LookUp) :
    (us.countP fun u => !u.ran) + us.countP LookUp.ran = us.length := by
  rw [List.length_eq_countP_add_countP LookUp.ran (l := us), Nat.add_comm]
  simp

/-- The runs of checks are those of the look-ups that ran one. -/
theorem length_runs (h : Chapter n s s' us es) :
    s'.runs.length = s.runs.length + us.countP LookUp.ran := by
  have hran : ∀ l : List LookUp, (l.filterMap LookUp.run?).length = l.countP LookUp.ran := by
    intro l
    induction l with
    | nil => rfl
    | cons u l ih =>
      cases hu : u.ran <;> simp [LookUp.run?, hu, ih]
  rw [runs, h.lookUps, List.filterMap_append, List.length_append, hran, List.countP_reverse, runs,
    Nat.add_comm]

end Chapter

variable {n : Nat} {s s' : Session}

/-- Where nothing is asked, nothing is told but the events. -/
theorem Quiet.chapter (hquiet : s.Quiet s') (h : s.Opened n) {es : List Event}
    (hevents : s'.events = es.reverse ++ s.events) (hes : ∀ e ∈ es, e.ofLeaf = false) :
    Chapter n s s' [] es := by
  have hanswers : s'.answers n = s.answers n := by simp [answers, hquiet.requests]
  constructor
  · simpa [Opened, hquiet.requests] using h
  · simpa using hquiet.lookUps
  · exact hevents
  · simpa using hes
  all_goals simp [hanswers]

/-- One event is a chapter of its own. -/
theorem chapter_report (h : s.Opened n) (e : Event) (he : e.ofLeaf = false) :
    Chapter n s (s.report e) [] [e] :=
  (quiet_report s e).chapter h rfl (by simpa using he)

/-- What a request keeps of one of its leaves. -/
theorem answers_ask {l : Leaf} (h : s.Opened l.situation.request) :
    (s.ask l).2.answers l.situation.request =
      match s.known l.situation.request l.question with
      | some _ => (s.answers l.situation.request).count true
      | none => (s.answers l.situation.request).settle l.question
          (l.check.procedure.answer s.runs l.context) := by
  cases hknown : s.known l.situation.request l.question with
  | some b => simp [answers, requests_ask, hknown, List.getElem?_set_self h]
  | none => simp [answers, requests_ask, hknown, List.getElem?_set_self h]

theorem Chapter.report {us : List LookUp} {es : List Event} (h : Chapter n s s' us es) {e : Event}
    (he : e.ofLeaf = false) : Chapter n s (s'.report e) us (es ++ [e]) := by
  simpa using h.trans (chapter_report h.opened e he)

/-- **Asking a leaf** enters one look-up, reports it and counts it. -/
theorem chapter_ask {l : Leaf} (h : s.Opened n) (hl : l.situation.request = n) :
    ∃ u, Chapter n s (s.ask l).2 [u] [u.event] := by
  subst hl
  have hanswers := answers_ask h
  refine ⟨⟨l, (s.ask l).1, (s.known l.situation.request l.question).isNone⟩, ?_⟩
  constructor
  · exact (opened_ask l s).mpr h
  · exact lookUps_ask l s
  · exact events_ask l s
  · simp [LookUp.ofLeaf_event]
  all_goals
    rw [hanswers]
    cases s.known l.situation.request l.question with
    | some b => simp [Answers.count]
    | none => cases l.check.procedure.answer s.runs l.context <;> rfl

end Session

/-! ## 3. Trees -/

namespace Tree

variable {n : Nat} {t : Tree} {s : Session}

/-- An evaluation tells of the leaves that it reaches and of nothing else. -/
theorem chapter_evaluate (h : s.Opened n) (ht : ∀ l ∈ t.leaves, l.situation.request = n) :
    ∃ us, s.Chapter n (t.evaluate s).state us (us.map LookUp.event) := by
  let R : Session → Session → Prop := fun s s' =>
    s.Opened n → ∃ us, s.Chapter n s' us (us.map LookUp.event)
  have hrefl : ∀ s, R s s := fun s hs => ⟨[], .refl hs⟩
  have htrans : ∀ {a b c}, R a b → R b c → R a c := by
    intro a b c hab hbc ha
    obtain ⟨us, hus⟩ := hab ha
    obtain ⟨vs, hvs⟩ := hbc hus.opened
    refine ⟨us ++ vs, ?_⟩
    rw [List.map_append]
    exact hus.trans hvs
  have hask : ∀ l ∈ t.leaves, ∀ s : Session, R s (s.ask l).2 := by
    intro l hl s hs
    obtain ⟨u, hu⟩ := Session.chapter_ask hs (ht l hl)
    exact ⟨[u], hu⟩
  exact evaluateWith_related hrefl htrans t hask s h

end Tree

/-! ## 4. The phases of a decision -/

/-- How many denials a failure stands for: one if the rules say no. -/
def Failure.denials : Failure → Nat
  | forbidden _ _ _ => 1
  | _ => 0

theorem Failure.denials_eq_zero {f : Failure}
    (h : ∀ name resource diagnostic, f ≠ .forbidden name resource diagnostic) : f.denials = 0 := by
  cases f with
  | forbidden name resource diagnostic => exact absurd rfl (h name resource diagnostic)
  | _ => rfl

/-- How many denials a result stands for. -/
def denials {α : Type} : Except Failure α → Nat
  | .error f => f.denials
  | .ok _ => 0

namespace Session

/-- A part of a decision, which reports a denial exactly if it ends in one, and no verdict. -/
def Stage {α : Type} (n : Nat) (s s' : Session) (result : Except Failure α) : Prop :=
  ∃ us es, s.Chapter n s' us es ∧ es.filter Event.isVerdict = [] ∧
    es.countP Event.isDenial = denials result

namespace Stage

variable {α β : Type} {n : Nat} {a b c : Session} {r : Except Failure α} {r' : Except Failure β}

/-- After a part that does not deny, the next one decides. -/
theorem andThen (h : a.Stage n b r) (hr : denials r = 0) (h' : b.Stage n c r') :
    a.Stage n c r' := by
  obtain ⟨us, es, hchapter, hverdict, hdenials⟩ := h
  obtain ⟨vs, fs, hchapter', hverdict', hdenials'⟩ := h'
  refine ⟨us ++ vs, es ++ fs, hchapter.trans hchapter', ?_, ?_⟩
  · rw [List.filter_append, hverdict, hverdict', List.append_nil]
  · rw [List.countP_append, hdenials, hdenials', hr, Nat.zero_add]

theorem report (h : a.Stage n b r) {e : Event} (he : e.Neutral) : a.Stage n (b.report e) r := by
  obtain ⟨us, es, hchapter, hverdict, hdenials⟩ := h
  refine ⟨us, es ++ [e], hchapter.report he.leaf, ?_, ?_⟩
  · simp [hverdict, he.verdict]
  · simp [hdenials, he.denial]

theorem opened (h : a.Stage n b r) : b.Opened n := by
  obtain ⟨_, _, hchapter, -⟩ := h
  exact hchapter.opened

/-- Of a result only the failure counts. -/
theorem of_denials (h : a.Stage n b r) (hr : denials r' = denials r) : a.Stage n b r' := by
  unfold Stage
  rw [hr]
  exact h

end Stage

end Session

namespace Tree

variable {n : Nat} {t : Tree} {s : Session}

/-- What denies is denied with a report, and nothing else is. -/
theorem require_reports (t : Tree) (s : Session) : t.require s =
    match (t.evaluate s).result with
    | .error f => (.error (.ofCheck f), (t.evaluate s).tree, (t.evaluate s).state)
    | .ok .failed => (.error (t.evaluate s).tree.denial, (t.evaluate s).tree,
        (t.evaluate s).state.report (.denied (t.evaluate s).tree.text))
    | .ok _ => (.ok (), (t.evaluate s).tree, (t.evaluate s).state) := by
  cases h : (t.evaluate s).result with
  | error f => exact require_of_error h
  | ok st =>
    cases st with
    | failed => simp only [require, allows, h]; rfl
    | _ => exact require_of_ne_failed h (by decide)

theorem denials_denial {α : Type} (t : Tree) :
    denials (.error t.denial : Except Failure α) = 1 := by
  unfold denial
  cases t.condition? <;> rfl

theorem stage_evaluate (h : s.Opened n) (ht : ∀ l ∈ t.leaves, l.situation.request = n) :
    s.Stage n (t.evaluate s).state (.ok () : Except Failure Unit) := by
  obtain ⟨us, hus⟩ := chapter_evaluate h ht
  refine ⟨us, _, hus, ?_, ?_⟩
  · simp [List.filter_map, Function.comp_def, LookUp.isVerdict_event]
  · simp [List.countP_map, Function.comp_def, LookUp.isDenial_event, denials]

theorem stage_require (h : s.Opened n) (ht : ∀ l ∈ t.leaves, l.situation.request = n) :
    s.Stage n (t.require s).2.2 (t.require s).1 := by
  have hstage := stage_evaluate h ht
  rw [require_reports]
  split
  · exact hstage.of_denials rfl
  · have hdenied : (t.evaluate s).state.Stage n
        ((t.evaluate s).state.report (.denied (t.evaluate s).tree.text))
        (.error (t.evaluate s).tree.denial : Except Failure Unit) := by
      refine ⟨[], _, Session.chapter_report hstage.opened _ rfl, rfl, ?_⟩
      rw [denials_denial]
      rfl
    exact hstage.andThen rfl hdenied
  · exact hstage

end Tree

namespace Plan

/-- Both phases of a plan: a denial in the preview spares the commit, so there is one at most. -/
theorem stage_take {n : Nat} {plan : Plan} {s : Session} (h : s.Opened n)
    (hpreview : ∀ l ∈ plan.preview.leaves, l.situation.request = n)
    (hcommit : ∀ l ∈ plan.commit.leaves, l.situation.request = n) :
    s.Stage n (plan.take s).2 (plan.take s).1 := by
  have hfirst := Tree.stage_require h hpreview
  unfold take
  rcases hp : plan.preview.require s with ⟨f | _, t, s₁⟩
  · rw [hp] at hfirst
    exact hfirst.of_denials rfl
  · rw [hp] at hfirst
    have hbetween := hfirst.report (Event.neutral_committing 1)
    have hsecond := Tree.stage_require hbetween.opened hcommit
    rcases hc : plan.commit.require (s₁.report (.committing 1)) with ⟨f | _, t', s₂⟩
    · rw [hc] at hsecond
      simp only [hc]
      exact (hbetween.andThen rfl (hsecond.report (Event.neutral_commitFailed f))).of_denials rfl
    · rw [hc] at hsecond
      simp only [hc]
      exact (hbetween.andThen rfl hsecond).of_denials rfl

end Plan

namespace RequestScope

variable (scope : RequestScope) (resource : Resource) (category : Category)
  (field : Option String) (change : Option Change) {s : Session}

/-- Planning reports the trees that it makes, and nothing that counts. -/
theorem plan_events : ∃ es : List Event,
    (scope.plan resource category field change s).2.events = es.reverse ++ s.events ∧
      ∀ e ∈ es, e.Neutral := by
  cases field with
  | none =>
    simp only [plan, planWhole]
    split
    · split
      · exact ⟨[], rfl, by simp⟩
      · split
        · exact ⟨[], rfl, by simp⟩
        · exact ⟨[_], rfl, by simp [Event.neutral_plannedWhole]⟩
    · exact ⟨[], rfl, by simp⟩
  | some field =>
    simp only [plan, planField]
    split
    · split
      · exact ⟨[], rfl, by simp⟩
      · split
        · exact ⟨[], rfl, by simp⟩
        · exact ⟨[_], rfl, by simp [Event.neutral_plannedField]⟩
    · exact ⟨[], rfl, by simp⟩

/-- Whatever keeps a plan from being made, it is no denial. -/
theorem denials_plan : denials (scope.plan resource category field change s).1 = 0 := by
  rw [plan_fst]
  cases ho : scope.dictionary.obstacle? resource.typeName category field with
  | some f => exact Failure.denials_eq_zero (Dictionary.obstacle?_ne_forbidden ho)
  | none => rfl

theorem stage_plan {n : Nat} (h : s.Opened n) :
    s.Stage n (scope.plan resource category field change s).2
      (scope.plan resource category field change s).1 := by
  obtain ⟨es, hevents, hes⟩ := scope.plan_events resource category field change (s := s)
  have hquiet := scope.plan_quiet resource category field change s
  refine ⟨[], es, hquiet.chapter h hevents fun e he => (hes e he).leaf, ?_, ?_⟩
  · simpa using fun e he => (hes e he).verdict
  · rw [denials_plan, List.countP_eq_zero]
    intro e he
    simp [(hes e he).denial]

end RequestScope

/-! ## 5. Decisions -/

/-- The events of one decision: one verdict, which is a failure exactly if the decision carries an
error, and a denial exactly if it is a no without one. -/
structure Told (r : Request) (d : Decision) (es : List Event) : Prop where
  verdict :
    (es.filter Event.isVerdict = [.decided r.resource.text r.category r.field d.allowed] ∧
      d.error = none) ∨
    ∃ f : Failure, es.filter Event.isVerdict = [.failedClosed r.resource.text r.category f] ∧
      d.error = some f.message
  denials : es.countP Event.isDenial = if d.allowed = false ∧ d.error = none then 1 else 0

/-- The events of decisions, taken one after the other. -/
inductive ToldInOrder : List Request → List Decision → List Event → Prop
  | nil : ToldInOrder [] [] []
  | cons {r : Request} {d : Decision} {es fs : List Event} {rs : List Request} {ds : List Decision}
      (h : Told r d es) (hrest : ToldInOrder rs ds fs) : ToldInOrder (r :: rs) (d :: ds) (es ++ fs)

namespace Service

variable (service : Service) {scope : RequestScope} {r : Request} {s : Session} {index : Nat}

theorem stage_evaluate (h : r.validate index = .ok ()) (hopen : s.Opened scope.request) :
    s.Stage scope.request (evaluate scope r s).2 (evaluate scope r s).1 := by
  have hleaf : ∀ p, ∀ l ∈ (r.tree scope p).leaves, l.situation.request = scope.request :=
    fun p l hl => (RequestScope.fits_of_mem_tree l hl).request_eq (r := r)
  have hfirst := scope.stage_plan r.resource r.category r.field r.change hopen
  have hnone := scope.denials_plan r.resource r.category r.field r.change (s := s)
  rw [evaluate_eq h]
  rcases hp : scope.plan r.resource r.category r.field r.change s with ⟨f | plan, s₁⟩
  · rw [hp] at hfirst
    exact hfirst.of_denials rfl
  · rw [hp] at hfirst hnone
    obtain rfl : plan = r.plan scope := RequestScope.plan_eq_ok (congrArg Prod.fst hp)
    exact hfirst.andThen hnone (Plan.stage_take hfirst.opened (hleaf .preview) (hleaf .commit))

/-- **A decision** reports its look-ups, its verdict and, if that is a no of the rules, a denial. -/
theorem decide_told (h : r.validate index = .ok ()) (hopen : s.Opened scope.request) :
    ∃ us es, s.Chapter scope.request (service.decide scope r s).2 us es ∧
      Told r (service.decide scope r s).1 es := by
  obtain ⟨us, es, hchapter, hverdict, hdenials⟩ := stage_evaluate h hopen
  rcases heval : evaluate scope r s with ⟨f | text, s'⟩
  · rw [heval] at hchapter hdenials
    by_cases hf : ∃ name resource diagnostic, f = .forbidden name resource diagnostic
    · obtain ⟨name, resource, diagnostic, rfl⟩ := hf
      rw [service.decide_of_forbidden heval]
      refine ⟨us, _, hchapter.report rfl, .inl ⟨?_, rfl⟩, ?_⟩
      · rw [List.filter_append, hverdict]
        rfl
      · rw [List.countP_append, hdenials]
        rfl
    · have hother : ∀ name resource diagnostic, f ≠ .forbidden name resource diagnostic :=
        fun name resource diagnostic hname => hf ⟨name, resource, diagnostic, hname⟩
      rw [service.decide_of_failure heval hother]
      refine ⟨us, _, hchapter.report rfl, .inr ⟨f, ?_, rfl⟩, ?_⟩
      · rw [List.filter_append, hverdict]
        rfl
      · rw [List.countP_append, hdenials, denials, Failure.denials_eq_zero hother]
        rfl
  · rw [heval] at hchapter hdenials
    rw [service.decide_of_ok heval]
    refine ⟨us, _, hchapter.report rfl, .inl ⟨?_, rfl⟩, ?_⟩
    · rw [List.filter_append, hverdict]
      rfl
    · rw [List.countP_append, hdenials]
      rfl

/-- Decisions are told in their order. -/
theorem decideAll_told {rs : List Request} (h : ∀ r ∈ rs, ∃ index, r.validate index = .ok ())
    (hopen : s.Opened scope.request) :
    ∃ us es, s.Chapter scope.request (service.decideAll scope rs s).2 us es ∧
      ToldInOrder rs (service.decideAll scope rs s).1 es := by
  induction rs generalizing s with
  | nil => exact ⟨[], [], .refl hopen, .nil⟩
  | cons r rs ih =>
    obtain ⟨⟨index, hr⟩, hrs⟩ := List.forall_mem_cons.mp h
    obtain ⟨us, es, hchapter, htold⟩ := service.decide_told hr hopen
    obtain ⟨vs, fs, hchapter', htold'⟩ := ih hrs hchapter.opened
    exact ⟨us ++ vs, es ++ fs, hchapter.trans hchapter', .cons htold htold'⟩

end Service

/-! ## 6. Batches -/

/-- The events since an earlier session, the earliest first. -/
def Session.eventsSince (s' s : Session) : List Event := s'.events.reverse.drop s.events.length

theorem Session.Chapter.eventsSince {n : Nat} {s s' : Session} {us : List LookUp}
    {es : List Event} (h : Chapter n s s' us es) : s'.eventsSince s = es := by
  simp [Session.eventsSince, h.events]

/-- An empty text holds no directives. -/
theorem LogFilter.parse_empty (level : Level) : parse "" level = ⟨[], level⟩ := by
  have hend : String.Pos.Raw.atEnd "" 0 = true := rfl
  have hrest : String.Pos.Raw.extract "" 0 0 = "" := rfl
  have hsplit : "".splitOn "," = [""] := by
    unfold String.splitOn String.splitOnAux
    simp [hend, hrest]
  simp [parse, hsplit]

/-- A log of traces without directives lets every event through. -/
theorem LogConfig.select_trace (json : Bool) (es : List Event) :
    LogConfig.select ⟨json, .trace⟩ "" es = es := by
  refine List.filter_eq_self.mpr fun e _ => ?_
  rw [LogFilter.parse_empty]
  cases e <;> rfl

namespace Service

variable (service : Service) (user : User)

/-- **Events, counters and look-ups tell the same story**, whatever the checks answer.  The log of
a batch that was admitted ends with the counters of its request.  Before that it tells of every
look-up and of nothing else that would look like one: those that found an answer, as many as the
hits, and those for which a check ran, as many as the evaluations.  And it tells of the decisions
in their order: of each one verdict, and one denial exactly if it is a no without an error. -/
theorem authorizeBatch_reports (json : Bool) {rs : List Request}
    (h : Request.validateBatch rs = .ok ()) (s : Session) :
    let call := service.authorizeBatch user rs s
    let log := LogConfig.select ⟨json, .trace⟩ "" (call.2.eventsSince s)
    let counters := call.2.answers s.requests.length
    ∃ (ds : List Decision) (es : List Event) (us : List LookUp), call.1 = .ok ds ∧
      log = es ++ [.batchDecided rs.length counters.hits counters.evaluations] ∧
      ToldInOrder rs ds es ∧
      call.2.lookUps = us.reverse ++ s.lookUps ∧
      log.filter Event.ofLeaf = us.map LookUp.event ∧
      log.countP (·.hasMessage "check evaluated") +
        log.countP (·.hasMessage "check raised an error") = us.length ∧
      us.length = counters.hits + counters.evaluations ∧
      counters.misses = counters.evaluations ∧
      call.2.runs.length = s.runs.length + counters.evaluations := by
  have hopen : (service.openScope user s).2.Opened (service.openScope user s).1.request :=
    Session.opened_openRequest s service.initialCapacity
  obtain ⟨us, es, hchapter, htold⟩ :=
    service.decideAll_told (Request.validate_of_validateBatch h) hopen
  intro call log counters
  have hcall : call = (.ok (service.decideAll (service.openScope user s).1 rs
      (service.openScope user s).2).1, (service.decideAll (service.openScope user s).1 rs
      (service.openScope user s).2).2.report
        (.batchDecided rs.length counters.hits counters.evaluations)) := by
    simp only [call, counters, authorizeBatch, h]
    rfl
  have hwhole : Session.Chapter s.requests.length (service.openScope user s).2 call.2 us
      (es ++ [.batchDecided rs.length counters.hits counters.evaluations]) := by
    rw [hcall]
    exact hchapter.report rfl
  -- The request was opened for this call, so its counters start from zero.
  have hfresh : (service.openScope user s).2.answers s.requests.length =
      .empty service.initialCapacity := by
    simp [Session.answers, openScope, Session.openRequest]
  have hhits : counters.hits = us.countP fun u => !u.ran := by
    simpa [hfresh, Answers.empty] using hwhole.hits
  have hmisses : counters.misses = us.countP LookUp.ran := by
    simpa [hfresh, Answers.empty] using hwhole.misses
  have hevaluations : counters.evaluations = us.countP LookUp.ran := by
    simpa [hfresh, Answers.empty] using hwhole.evaluations
  have hlog : log = es ++ [.batchDecided rs.length counters.hits counters.evaluations] :=
    (LogConfig.select_trace json _).trans hwhole.eventsSince
  have hreported : log.filter Event.ofLeaf = us.map LookUp.event := by
    rw [hlog, hwhole.reported]
  refine ⟨_, es, us, congrArg Prod.fst hcall, hlog, htold, hwhole.lookUps, hreported, ?_, ?_, ?_,
    ?_⟩
  · rw [← Event.countP_ofLeaf, List.countP_eq_length_filter, hreported, List.length_map]
  · rw [hhits, hevaluations, Session.Chapter.countP_ran]
  · rw [hmisses, hevaluations]
  · rw [hevaluations]
    exact hwhole.length_runs

/-- Two requests for one book, and between them one for a type that nobody declared: the check runs
once, and the three later look-ups find its answer. -/
theorem authorizeBatch_reports_library :
    let rs := [Specimen.reading "published",
      .whole ⟨"ghost", some "1", Supply.nth 1, .empty⟩ .read, Specimen.reading "published"]
    let call := Specimen.library.authorizeBatch .anonymous rs .initial
    let log := LogConfig.select ⟨false, .trace⟩ "" (call.2.eventsSince .initial)
    Request.validateBatch rs = .ok () ∧
    ∃ (ds : List Decision) (es : List Event), call.1 = .ok ds ∧ ToldInOrder rs ds es ∧
      log = es ++ [.batchDecided 3 3 1] ∧
      log.countP (·.hasMessage "check evaluated") +
        log.countP (·.hasMessage "check raised an error") = 4 ∧
      call.2.runs.length = 1 := by
  intro rs call log
  have hvalid : Request.validateBatch rs = .ok () := by rfl
  have hhits : (call.2.answers 0).hits = 3 := by rfl
  have hevaluations : (call.2.answers 0).evaluations = 1 := by rfl
  obtain ⟨ds, es, us, hds, hlog, htold, -, -, hcount, hlength, -, hruns⟩ :=
    Specimen.library.authorizeBatch_reports .anonymous false hvalid .initial
  refine ⟨hvalid, ds, es, hds, htold, ?_, ?_, ?_⟩
  · rw [← hhits, ← hevaluations]
    exact hlog
  · exact (hcount.trans hlength).trans (congrArg₂ (· + ·) hhits hevaluations)
  · rw [← hevaluations]
    exact hruns.trans (Nat.zero_add _)

end Service

end AccessRules
