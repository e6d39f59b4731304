/-
# Calls do not see each other

From call to call a service keeps the book of rules and the account of what ran.  The book saves
work and decides nothing, and no check that is steady consults the account.  What a request
remembers is consulted, but every call opens a request of its own, which remembers nothing.  So a
call says what it would have said to a service that was never called before.

The argument runs two services side by side, from any two sessions.  `Session.Level` is the
invariant within a call: both requests remember the same answers, and the checks cannot tell the two
histories of runs apart.  How much of a history the checks can tell apart is a parameter
(`Dictionary.Blurs`): nothing of it if they are steady, and all of it in general.

* `Session.Level.ask`: leaves that put one question get one answer, and both sessions stay level;
* `decide_level`, `decideAll_level`, `perform_level`: so do decisions, batches and calls;
* `judge_eq_present`: what a service decides is what it shows of a decision with diagnostics.
-/
import AccessRules.Proofs.Batch

namespace AccessRules

/-! ## 1. Calls and replies -/

/-- One call to a service, by some user. -/
inductive Call where
  | authorize (user : User) (r : Request)
  | authorizeBatch (user : User) (rs : List Request)

/-- What a call returns. -/
inductive Reply where
  | decision (outcome : Except AdmissionError Decision)
  | decisions (outcome : Except AdmissionError (List Decision))

/-- A decision without its diagnostic. -/
def Decision.bare (d : Decision) : Decision := { d with diagnostic := none }

namespace Reply

/-- A reply with other decisions. -/
def map (f : Decision → Decision) : Reply → Reply
  | decision outcome => .decision (outcome.map f)
  | decisions outcome => .decisions (outcome.map (List.map f))

/-- A reply without diagnostics. -/
def bare : Reply → Reply := map Decision.bare

theorem map_map (f g : Decision → Decision) (reply : Reply) :
    (reply.map f).map g = reply.map (g ∘ f) := by
  rcases reply with (e | d) | (e | ds)
  · rfl
  · rfl
  · rfl
  · simp only [map, Except.map, List.map_map]

end Reply

namespace Service

/-- Makes one call. -/
def perform (service : Service) : Call → Session → Reply × Session
  | .authorize user r, s => (service.authorize user r s).map .decision id
  | .authorizeBatch user rs, s => (service.authorizeBatch user rs s).map .decisions id

/-- Makes calls one after the other. -/
def performAll (service : Service) : List Call → Session → List Reply × Session
  | [], s => ([], s)
  | call :: calls, s =>
    let (reply, s) := service.perform call s
    let (replies, s) := service.performAll calls s
    (reply :: replies, s)

/-! ## 2. What a service shows of a decision -/

/-- What the service shows of a decision. -/
def present (service : Service) (d : Decision) : Decision :=
  if service.showsDiagnostics then d else d.bare

theorem bare_present (service : Service) : Decision.bare ∘ service.present = Decision.bare := by
  funext d
  rw [Function.comp_apply, present]
  split <;> rfl

theorem present_of_hides {service : Service} (h : service.showsDiagnostics = false) :
    service.present = Decision.bare := by
  funext d
  rw [present, h]
  rfl

/-- A closed decision has nothing to hide. -/
theorem present_closed (service : Service) (f : Failure) :
    service.present (.closed f) = .closed f := by
  rw [present]
  split <;> rfl

/-- **A service decides what one with diagnostics decides**, and shows of it what it shows. -/
theorem judge_eq_present {σ : Type} (service : Service) (preview commit : Evaluation σ) :
    service.judge preview commit =
      service.present ((ofDictionary service.dictionary).judge preview commit) := by
  have hshown : ∀ (allowed : Bool) (text : String),
      (⟨allowed, service.shown (some text), none⟩ : Decision) =
        service.present ⟨allowed, some text, none⟩ := by
    intro allowed text
    rw [shown, present]
    split <;> rfl
  simp only [judge]
  split
  · exact (service.present_closed _).symm
  · exact hshown false _
  · exact (service.present_closed _).symm
  · exact hshown false _
  · exact hshown true _

end Service

/-! ## 3. Sessions that are level -/

/-- Histories of runs that no check of the dictionary can tell apart, now or after further runs. -/
structure Dictionary.Blurs (d : Dictionary) (H : List Run → List Run → Prop) : Prop where
  answer : ∀ name c, d.check? name = some c → ∀ runs runs', H runs runs' →
    ∀ ctx, c.procedure.answer runs ctx = c.procedure.answer runs' ctx
  run : ∀ x runs runs', H runs runs' → H (x :: runs) (x :: runs')

/-- No check tells a history from itself. -/
theorem Dictionary.blurs_eq (d : Dictionary) : d.Blurs Eq where
  answer _ _ _ _ _ h _ := by rw [h]
  run _ _ _ h := by rw [h]

/-- A steady check tells no histories apart. -/
theorem Dictionary.blurs_of_steady {d : Dictionary}
    (h : ∀ name c, d.check? name = some c → c.procedure.Steady) : d.Blurs fun _ _ => True where
  answer name c hc runs runs' _ := h name c hc runs runs'
  run _ _ _ _ := trivial

namespace Session

variable {H : List Run → List Run → Prop} {d : Dictionary} {m n : Nat} {s s' t t' : Session}

/-- Two sessions in which the requests `m` and `n` have got equally far. -/
structure Level (H : List Run → List Run → Prop) (m n : Nat) (s s' : Session) : Prop where
  opened : s.Opened m
  opened' : s'.Opened n
  known : ∀ q, s'.known n q = s.known m q
  runs : H s.runs s'.runs

theorem Level.of_quiet (h : Level H m n s s') (hs : s.Quiet t) (hs' : s'.Quiet t') :
    Level H m n t t' where
  opened := by
    rw [Opened, hs.requests]
    exact h.opened
  opened' := by
    rw [Opened, hs'.requests]
    exact h.opened'
  known q := by rw [known_of_requests_eq hs.requests, known_of_requests_eq hs'.requests, h.known]
  runs := by
    rw [Session.runs, Session.runs, hs.lookUps, hs'.lookUps]
    exact h.runs

theorem Level.report (h : Level H m n s s') (e e' : Event) :
    Level H m n (s.report e) (s'.report e') :=
  h.of_quiet (quiet_report s e) (quiet_report s' e')

/-- Requests that were just opened have got nowhere yet. -/
theorem level_openScope (service service' : Service) (user : User) (h : H s.runs s'.runs) :
    Level H (service.openScope user s).1.request (service'.openScope user s').1.request
      (service.openScope user s).2 (service'.openScope user s').2 where
  opened := opened_openRequest s service.initialCapacity
  opened' := opened_openRequest s' service'.initialCapacity
  known q := (known_openRequest s' service'.initialCapacity q).trans
    (known_openRequest s service.initialCapacity q).symm
  runs := h

/-- **Level sessions give the same answers and stay level.** -/
theorem Level.ask (hd : d.Blurs H) {name : String} {c : Check} (hc : d.check? name = some c)
    {situation situation' : Situation} (h : Level H situation.request situation'.request s s')
    (hquestion : (Leaf.mk name c situation).question = (Leaf.mk name c situation').question)
    (hcontext : (Leaf.mk name c situation).context = (Leaf.mk name c situation').context) :
    (s.ask ⟨name, c, situation⟩).1 = (s'.ask ⟨name, c, situation'⟩).1 ∧
      Level H situation.request situation'.request
        (s.ask ⟨name, c, situation⟩).2 (s'.ask ⟨name, c, situation'⟩).2 := by
  have hknown := h.known (Leaf.mk name c situation).question
  have hanswer : (s.ask ⟨name, c, situation⟩).1 = (s'.ask ⟨name, c, situation'⟩).1 := by
    rw [ask_fst, ask_fst, ← hquestion, hknown, ← hcontext]
    cases s.known situation.request (Leaf.mk name c situation).question with
    | some b => rfl
    | none => exact hd.answer name c hc _ _ h.runs _
  refine ⟨hanswer, (opened_ask _ s).mpr h.opened, (opened_ask _ s').mpr h.opened', fun q => ?_, ?_⟩
  · by_cases hq : q = (Leaf.mk name c situation).question
    · -- the one question that was put
      have hself := known_ask_self (l := ⟨name, c, situation⟩) h.opened
      have hself' := known_ask_self (l := ⟨name, c, situation'⟩) h.opened'
      rw [← hquestion] at hself'
      rw [hq]
      exact hself'.trans ((congrArg Except.toOption hanswer.symm).trans hself.symm)
    · rw [known_ask_of_ne s' fun hne => hq (hne.2.trans hquestion.symm),
        known_ask_of_ne s fun hne => hq hne.2, h.known]
  · rw [runs_ask, runs_ask, ← hquestion, hknown, ← hcontext, ← hanswer]
    split
    · exact hd.run _ _ _ h.runs
    · exact h.runs

end Session

/-! ## 4. Decisions, batches and calls -/

section Level

variable {H : List Run → List Run → Prop} {scope scope' : RequestScope} {s s' : Session}

/-- One tree, asked for two requests of one user that have got equally far. -/
theorem Request.level_tree (hd : scope.dictionary.Blurs H)
    (hdictionary : scope'.dictionary = scope.dictionary) (huser : scope'.user = scope.user)
    (r : Request) (p : Phase) :
    Tree.Alike (fun l s => Session.ask l s) (fun l s => Session.ask l s)
      (Session.Level H scope.request scope'.request) (r.tree scope p) (r.tree scope' p) := by
  refine RequestScope.tree_related_across hdictionary Tree.congruent_alike fun c hc => ?_
  refine Phase.leaf_related ?_ (Tree.alike_later c.name)
  let condition : Condition := ⟨r.category, r.resource, r.field, r.change⟩
  let leaf (scope : RequestScope) : Leaf := ⟨c.name, c.check, scope.situation condition p⟩
  have hrequest : ∀ scope : RequestScope, (scope.situation condition p).request = scope.request :=
    fun _ => by cases p <;> rfl
  have hquestion : (leaf scope).question = (leaf scope').question := by cases p <;> rfl
  have hcontext : (leaf scope).context = (leaf scope').context := by
    simp only [leaf, Leaf.context]
    cases p <;> simp only [RequestScope.situation, huser]
  refine ⟨rfl, fun t t' ht => ?_⟩
  rw [← hrequest scope, ← hrequest scope'] at ht ⊢
  obtain ⟨hanswer, hlevel⟩ := ht.ask hd hc hquestion hcontext
  exact .asked rfl hanswer hlevel

namespace Service

variable {service service' : Service}

/-- **A decision is the same in level sessions**, up to what the services show of it. -/
theorem decide_level (hs : Session.Level H scope.request scope'.request s s')
    (hd : scope.dictionary.Blurs H) (hdictionary : scope'.dictionary = scope.dictionary)
    (huser : scope'.user = scope.user) (hsame : service'.dictionary = service.dictionary)
    {r : Request} {index : Nat} (hvalid : r.validate index = .ok ()) :
    (∃ d, (service.decide scope r s).1 = service.present d ∧
      (service'.decide scope' r s').1 = service'.present d) ∧
    Session.Level H scope.request scope'.request
      (service.decide scope r s).2 (service'.decide scope' r s').2 := by
  have hplanned : Session.Level H scope.request scope'.request
      (r.planned scope s) (r.planned scope' s') :=
    hs.of_quiet (scope.plan_quiet ..) (scope'.plan_quiet ..)
  have hobstacle : r.obstacle? scope' = r.obstacle? scope := by
    rw [Request.obstacle?, Request.obstacle?, hdictionary]
  cases ho : r.obstacle? scope with
  | some f =>
    rw [service.decide_of_obstacle hvalid ho,
      service'.decide_of_obstacle hvalid (hobstacle.trans ho)]
    exact ⟨⟨.closed f, (present_closed _ f).symm, (present_closed _ f).symm⟩, hplanned.report _ _⟩
  | none =>
    have hpreview := (r.level_tree hd hdictionary huser .preview).evaluate _ _ hplanned
    have hcommit := (r.level_tree hd hdictionary huser .commit).evaluate _ _
      (hpreview.state.report (.committing 1) (.committing 1))
    change (r.previewed scope s).Alike _ (r.previewed scope' s') at hpreview
    change (r.committed scope s).Alike _ (r.committed scope' s') at hcommit
    have hended : Session.Level H scope.request scope'.request
        (r.ended scope s) (r.ended scope' s') := by
      rw [Request.ended, Request.ended, ← hpreview.result]
      split
      · exact hpreview.state
      · exact hpreview.state
      · exact hcommit.state
    obtain ⟨hdecision, hquiet⟩ := service.decide_ended (s := s) hvalid ho
    obtain ⟨hdecision', hquiet'⟩ :=
      service'.decide_ended (s := s') hvalid (hobstacle.trans ho)
    refine ⟨⟨(ofDictionary service.dictionary).judge (r.previewed scope s) (r.committed scope s),
      hdecision.trans (service.judge_eq_present _ _), ?_⟩, hended.of_quiet hquiet hquiet'⟩
    rw [hdecision', judge_eq_present, hsame, judge_eq_of_alike _ hpreview hcommit]

/-- The decisions of a batch are the same in level sessions. -/
theorem decideAll_level (hs : Session.Level H scope.request scope'.request s s')
    (hd : scope.dictionary.Blurs H) (hdictionary : scope'.dictionary = scope.dictionary)
    (huser : scope'.user = scope.user) (hsame : service'.dictionary = service.dictionary)
    {rs : List Request} (hvalid : ∀ r ∈ rs, ∃ index, r.validate index = .ok ()) :
    (∃ ds : List Decision, (service.decideAll scope rs s).1 = ds.map service.present ∧
      (service'.decideAll scope' rs s').1 = ds.map service'.present) ∧
    Session.Level H scope.request scope'.request
      (service.decideAll scope rs s).2 (service'.decideAll scope' rs s').2 := by
  induction rs generalizing s s' with
  | nil => exact ⟨⟨[], rfl, rfl⟩, hs⟩
  | cons r rs ih =>
    obtain ⟨⟨index, hr⟩, hrs⟩ := List.forall_mem_cons.mp hvalid
    obtain ⟨⟨d, hd₁, hd₂⟩, hlevel⟩ := decide_level hs hd hdictionary huser hsame hr
    obtain ⟨⟨ds, hds₁, hds₂⟩, hlevel⟩ := ih hlevel hrs
    refine ⟨⟨d :: ds, ?_, ?_⟩, hlevel⟩
    · exact congrArg₂ List.cons hd₁ hds₁
    · exact congrArg₂ List.cons hd₂ hds₂

/-- **A call is the same to two services**, up to what they show of it, if no check can tell apart
what ran before. -/
theorem perform_level (hd : service.dictionary.Blurs H)
    (hsame : service'.dictionary = service.dictionary) (hs : H s.runs s'.runs) (call : Call) :
    (∃ full : Reply, (service.perform call s).1 = full.map service.present ∧
      (service'.perform call s').1 = full.map service'.present) ∧
    H (service.perform call s).2.runs (service'.perform call s').2.runs := by
  cases call with
  | authorize user r =>
    rw [perform, perform, authorize, authorize]
    cases hvalid : r.validate 0 with
    | error e => exact ⟨⟨.decision (.error e), rfl, rfl⟩, hs⟩
    | ok =>
      obtain ⟨⟨d, hd₁, hd₂⟩, hlevel⟩ := decide_level
        (Session.level_openScope service service' user hs) hd hsame rfl hsame hvalid
      exact ⟨⟨.decision (.ok d), congrArg (Reply.decision ∘ .ok) hd₁,
        congrArg (Reply.decision ∘ .ok) hd₂⟩, hlevel.runs⟩
  | authorizeBatch user rs =>
    rw [perform, perform, authorizeBatch, authorizeBatch]
    cases hvalid : Request.validateBatch rs with
    | error e => exact ⟨⟨.decisions (.error e), rfl, rfl⟩, hs⟩
    | ok =>
      obtain ⟨⟨ds, hds₁, hds₂⟩, hlevel⟩ := decideAll_level
        (Session.level_openScope service service' user hs) hd hsame rfl hsame
        (Request.validate_of_validateBatch hvalid)
      exact ⟨⟨.decisions (.ok ds), congrArg (Reply.decisions ∘ .ok) hds₁,
        congrArg (Reply.decisions ∘ .ok) hds₂⟩, hlevel.runs⟩

/-- Any number of calls are the same to two services. -/
theorem performAll_level (hd : service.dictionary.Blurs H)
    (hsame : service'.dictionary = service.dictionary) (hs : H s.runs s'.runs)
    (calls : List Call) :
    ∃ fulls : List Reply, (service.performAll calls s).1 = fulls.map (.map service.present) ∧
      (service'.performAll calls s').1 = fulls.map (.map service'.present) := by
  induction calls generalizing s s' with
  | nil => exact ⟨[], rfl, rfl⟩
  | cons call calls ih =>
    obtain ⟨⟨full, hfull, hfull'⟩, hs⟩ := perform_level hd hsame hs call
    obtain ⟨fulls, hfulls, hfulls'⟩ := ih hs
    exact ⟨full :: fulls, congrArg₂ List.cons hfull hfulls, congrArg₂ List.cons hfull' hfulls'⟩

end Service

end Level

/-! ## 5. Any sequence of calls -/

namespace Service

/-- **No call sees another.**  If the checks are steady, then in any sequence of calls, whatever ran
before it, every call returns what it returns to a service that was never called.  And two services
of one dictionary return the same to any sequence of calls but for the diagnostics, which one that
hides them leaves out. -/
theorem calls_isolated (service : Service) (calls : List Call) (s : Session) :
    ((∀ name c, service.dictionary.check? name = some c → c.procedure.Steady) →
      (service.performAll calls s).1 =
        calls.map fun call => (service.perform call .initial).1) ∧
    ∀ (service' : Service) (s' : Session), service'.dictionary = service.dictionary →
      s'.runs = s.runs →
      let replies := (service.performAll calls s).1
      let replies' := (service'.performAll calls s').1
      replies'.map Reply.bare = replies.map Reply.bare ∧
      (service'.showsDiagnostics = service.showsDiagnostics → replies' = replies) ∧
      (service'.showsDiagnostics = false → replies' = replies.map Reply.bare) := by
  refine ⟨fun hsteady => ?_, fun service' s' hsame hruns => ?_⟩
  · induction calls generalizing s with
    | nil => rfl
    | cons call calls ih =>
      have hblurs := Dictionary.blurs_of_steady hsteady
      have hlevel : ∀ s : Session, (fun _ _ => True) s.runs Session.initial.runs :=
        fun _ => trivial
      obtain ⟨⟨full, hfull, hfresh⟩, -⟩ := perform_level hblurs rfl (hlevel s) call
      exact congrArg₂ List.cons (hfull.trans hfresh.symm) (ih _)
  · obtain ⟨fulls, hfulls, hfulls'⟩ :=
      performAll_level (Dictionary.blurs_eq _) hsame hruns.symm calls
    have hbare : ∀ service : Service,
        (fulls.map (Reply.map service.present)).map Reply.bare = fulls.map Reply.bare := by
      intro service
      rw [List.map_map]
      refine List.map_congr_left fun full _ => ?_
      rw [Function.comp_apply, Reply.bare, Reply.map_map, bare_present]
    simp only [hfulls, hfulls', hbare, true_and]
    refine ⟨fun hshows => ?_, fun hhides => ?_⟩
    · have hpresent : service'.present = service.present := by
        funext d
        rw [present, present, hshows]
      rw [hpresent]
    · rw [present_of_hides hhides]
      rfl

open Specimen

/-- The yes to one user about a published book is not there for the next one, who asks for a draft
of it; and a service that hides what the other shows. -/
theorem calls_isolated_library :
    let ann : User := ⟨some "ann", .empty⟩
    let calls : List Call := [.authorize ann (reading "published"),
      .authorizeBatch .anonymous
        [reading "draft", .whole ⟨"ghost", some "1", Supply.nth 1, .empty⟩ .read],
      .authorize .anonymous (reading "draft")]
    let terse : Service := ⟨library.dictionary, 1, false⟩
    (library.performAll calls .initial).1.map Reply.bare =
      [.decision (.ok ⟨true, none, none⟩),
        .decisions (.ok [⟨false, none, none⟩, ⟨false, none, some "type not found: ghost"⟩]),
        .decision (.ok ⟨false, none, none⟩)] ∧
    (library.performAll calls .initial).1 =
      calls.map (fun call => (library.perform call .initial).1) ∧
    (terse.performAll calls .initial).1 =
      (library.performAll calls .initial).1.map Reply.bare := by
  intro ann calls terse
  obtain ⟨halone, hacross⟩ := library.calls_isolated calls .initial
  have hfresh : calls.map (fun call => (library.perform call .initial).1.bare) =
      [.decision (.ok ⟨true, none, none⟩),
        .decisions (.ok [⟨false, none, none⟩, ⟨false, none, some "type not found: ghost"⟩]),
        .decision (.ok ⟨false, none, none⟩)] := by rfl
  refine ⟨?_, halone steady_library, (hacross terse .initial rfl rfl).2.2 rfl⟩
  rw [halone steady_library, List.map_map]
  exact hfresh

end Service

end AccessRules
