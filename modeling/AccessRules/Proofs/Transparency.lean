/-
# Remembering makes no difference

A request remembers answers so that checks run less often.  It may give a leaf the answer that
another leaf got, since both put the same question.  Where a question tells a check all that its
answer depends on (`Procedure.Pure`), that is no loss: the same operations come to the same whether
the answers are remembered or every leaf runs its check.

The operations are written once for any way of asking leaves (`Engine.asking`).  With `Session.ask`
they are the operations themselves (`Engine.asking_ask`), and with `Session.askAnew` nothing is ever
remembered.  `Session.Covers` relates the two sessions: what the one remembers of a question is what
the checks say, and the other asked the same leaves, in the same order, for the same answers.

* `Covers.ask`: asking and asking anew give one answer and keep the relation;
* `Covers.require`, `Covers.preview`, `Covers.commit`: so do the steps of a decision;
* `Workspace.Covered.perform`: so does every operation, and with it any sequence of them.
-/
import AccessRules.Proofs.Batch
import AccessRules.Proofs.SingleRun
import AccessRules.Proofs.TwoRuns

namespace AccessRules

/-! ## 1. Questions that say enough -/

/-- Whether the answer depends on nothing but the identity of the resource, the user and the key of
the change. -/
def Procedure.Pure (p : Procedure) : Prop :=
  ∀ runs runs' ctx ctx', ctx.resource.identity = ctx'.resource.identity → ctx.user = ctx'.user →
    ctx.change.map Change.key = ctx'.change.map Change.key →
    p.answer runs ctx = p.answer runs' ctx'

/-- Whether all checks are pure. -/
def Dictionary.Pure (d : Dictionary) : Prop :=
  ∀ name c, d.check? name = some c → c.procedure.Pure

/-- A leaf of the request: it asks the check that its name is bound to, for the user. -/
structure Leaf.Own (l : Leaf) (scope : RequestScope) : Prop where
  bound : scope.dictionary.check? l.name = some l.check
  request : l.situation.request = scope.request
  user : l.situation.user = scope.user

theorem Leaf.Fits.own {l : Leaf} {scope : RequestScope} {condition : Condition} {p : Phase}
    (h : l.Fits scope condition p) : l.Own scope where
  bound := h.bound
  request := by rw [h.situation]; cases p <;> rfl
  user := by rw [h.situation]; cases p <;> rfl

/-- **One question, one answer.** -/
theorem Leaf.Own.reply_eq {scope : RequestScope} (hpure : scope.dictionary.Pure) {l l' : Leaf}
    (h : l.Own scope) (h' : l'.Own scope) (hquestion : l.question = l'.question) :
    l.reply = l'.reply := by
  simp only [question, Question.mk.injEq] at hquestion
  obtain ⟨hidentity, hid, -, hkey⟩ := hquestion
  have hcheck : l.check = l'.check := Dictionary.procedure_eq_of_id_eq h.bound h'.bound hid
  rw [reply, reply, ← hcheck]
  refine hpure l.name l.check h.bound _ _ _ _ hidentity (h.user.trans h'.user.symm) ?_
  simpa only [context, ← hcheck] using hkey

/-! ## 2. Two engines -/

/-- Runs the check of a leaf, whether or not an answer is remembered, and remembers nothing. -/
def Session.askAnew (l : Leaf) (s : Session) : Answer × Session :=
  let outcome := l.check.procedure.answer s.runs l.context
  (outcome, { s with lookUps := ⟨l, outcome, true⟩ :: s.lookUps }.report (l.event outcome))

/-- What can be done with trees and with decisions in two phases. -/
structure Engine where
  evaluate : Tree → Session → Evaluation Session
  require : Tree → Session → Except Failure Unit × Tree × Session
  checkWhole : TwoPhase → Resource → Category → Session → Except Failure Unit × TwoPhase × Session
  checkField : TwoPhase → Resource → Category → String → Option Change → Session →
    Except Failure Unit × TwoPhase × Session
  checkUser : TwoPhase → Resource → Category → Session → Except Failure Unit × Session
  commit : TwoPhase → Session → Except Failure (List Tree) × TwoPhase × Session

/-- The operations as they are. -/
def Engine.cached : Engine :=
  ⟨Tree.evaluate, Tree.require, TwoPhase.checkWhole, TwoPhase.checkField, TwoPhase.checkUser,
    TwoPhase.commit⟩

section Asking

variable (ask : Leaf → Session → Answer × Session)

/-- Evaluates a tree and turns a no into a failure. -/
def Tree.requireBy (t : Tree) (s : Session) : Except Failure Unit × Tree × Session :=
  let e := t.evaluateWith ask s
  match e.result with
  | .error f => (.error (.ofCheck f), e.tree, e.state)
  | .ok st =>
    if st.denies then (.error e.tree.denial, e.tree, e.state.report (.denied e.tree.text))
    else (.ok (), e.tree, e.state)

/-- Requires trees one after the other, up to the first that does not pass. -/
def Tree.requireAllBy : List Tree → Session → Except Failure (List Tree) × Session
  | [], s => (.ok [], s)
  | t :: ts, s =>
    match t.requireBy ask s with
    | (.error f, _, s) => (.error f, s)
    | (.ok (), t, s) =>
      match requireAllBy ts s with
      | (.error f, s) => (.error f, s)
      | (.ok ts, s) => (.ok (t :: ts), s)

/-- Evaluates the preview of a plan and queues its commit tree if the preview does not deny. -/
def TwoPhase.previewBy (p : TwoPhase) (planned : Except Failure Plan × Session) :
    Except Failure Unit × TwoPhase × Session :=
  match planned with
  | (.error f, s) => (.error f, p, s)
  | (.ok plan, s) =>
    match plan.preview.requireBy ask s with
    | (.error f, _, s) => (.error f, p, s)
    | (.ok (), _, s) => (.ok (), { p with queue := p.queue ++ [plan.commit] }, s)

/-- Evaluates all trees that wait. -/
def TwoPhase.commitBy (p : TwoPhase) (s : Session) :
    Except Failure (List Tree) × TwoPhase × Session :=
  match Tree.requireAllBy ask p.queue (s.report (.committing p.pending)) with
  | (.error f, s) => (.error f, { p with queue := [] }, s.report (.commitFailed f))
  | (.ok trees, s) => (.ok trees, { p with queue := [] }, s)

/-- The operations, with leaves asked by `ask`. -/
def Engine.asking : Engine where
  evaluate t s := t.evaluateWith ask s
  require := Tree.requireBy ask
  checkWhole p resource category s := p.previewBy ask (p.scope.planWhole resource category none s)
  checkField p resource category field change s :=
    p.previewBy ask (p.scope.planField resource category field change s)
  checkUser p resource category s :=
    let (result, _, s) := p.previewBy ask (p.scope.planWhole resource category none s)
    (result, s)
  commit := TwoPhase.commitBy ask

end Asking

/-- The operations where every leaf runs its check. -/
def Engine.direct : Engine := .asking fun l s => s.askAnew l

section Cached

theorem Tree.requireBy_ask : Tree.requireBy (fun l s => s.ask l) = Tree.require := by
  funext t s
  rw [requireBy, require, allows, evaluate]
  cases (t.evaluateWith (fun l s => s.ask l) s).result with
  | error f => rfl
  | ok st => cases st <;> rfl

theorem Tree.requireAllBy_ask : Tree.requireAllBy (fun l s => s.ask l) = Tree.requireAll := by
  funext ts
  induction ts with
  | nil => rfl
  | cons t ts ih =>
    funext s
    rcases h : t.require s with ⟨f | _, t, s⟩
    · simp only [requireAllBy, requireAll, requireBy_ask, h]
    · rcases hs : requireAll ts s with ⟨f | ts, s⟩ <;>
        simp only [requireAllBy, requireAll, requireBy_ask, ih, h, hs]

theorem TwoPhase.previewBy_ask : TwoPhase.previewBy (fun l s => s.ask l) = TwoPhase.preview := by
  funext p ⟨planned, s⟩
  cases planned with
  | error f => rfl
  | ok plan =>
    rcases h : plan.preview.require s with ⟨f | _, t, s⟩ <;>
      simp only [previewBy, preview, Tree.requireBy_ask, h]

/-- **Nothing but the asking tells the engines apart.** -/
theorem Engine.asking_ask : Engine.asking (fun l s => s.ask l) = .cached := by
  rw [asking, cached, Tree.requireBy_ask, TwoPhase.previewBy_ask]
  congr
  · funext p resource category s
    rw [TwoPhase.checkUser]
    rcases p.scope.planWhole resource category none s with ⟨f | plan, s⟩
    · rfl
    · rw [TwoPhase.preview]
      rcases h : plan.preview.require s with ⟨f | _, t, s⟩ <;> simp only [h]
  · funext p s
    rcases h : Tree.requireAll p.queue (s.report (.committing p.pending)) with ⟨f | ts, s⟩ <;>
      simp only [TwoPhase.commitBy, TwoPhase.commit, Tree.requireAllBy_ask, h]

end Cached

/-! ## 3. Operations -/

/-- One thing to do within a request.  Trees and decisions in two phases are named by their places
among those at hand. -/
inductive Operation where
  /-- Plans a decision and keeps its trees. -/
  | plan (resource : Resource) (category : Category) (field : Option String)
      (change : Option Change)
  /-- Evaluates a tree, for the first time or again. -/
  | evaluate (i : Nat)
  /-- Evaluates a tree and asks that it does not deny. -/
  | require (i : Nat)
  /-- Begins with decisions in two phases. -/
  | begin
  /-- Previews a decision about a resource as a whole. -/
  | checkWhole (i : Nat) (resource : Resource) (category : Category)
  /-- Previews a decision about one field. -/
  | checkField (i : Nat) (resource : Resource) (category : Category) (field : String)
      (change : Option Change)
  /-- Takes the preview of a decision alone. -/
  | checkUser (i : Nat) (resource : Resource) (category : Category)
  /-- Commits all decisions that wait, and keeps their trees. -/
  | commit (i : Nat)
  /-- Forgets every answer. -/
  | forget

/-- What an operation returns. -/
inductive Outcome where
  /-- Nothing: there is nothing to say, or nothing is at the place. -/
  | none
  | planned (result : Except Failure Plan)
  | evaluated (result : Except CheckFailure Status)
  | required (result : Except Failure Unit)
  | committed (result : Except Failure (List Tree))

/-- The trees that an operation returns. -/
def Outcome.trees : Outcome → List Tree
  | planned (.ok plan) => [plan.preview, plan.commit]
  | committed (.ok ts) => ts
  | _ => []

namespace Workspace

/-- Does something with the tree at a place. -/
def onTree (w : Workspace) (i : Nat) (f : Tree → Session → Outcome × Tree × Session) :
    Outcome × Workspace :=
  match w.trees[i]? with
  | none => (.none, w)
  | some t =>
    let (outcome, t, s) := f t w.session
    (outcome, { w with trees := w.trees.set i t, session := s })

/-- Does something with the decisions at a place, and keeps the trees that it returns. -/
def onPhase (w : Workspace) (i : Nat) (f : TwoPhase → Session → Outcome × TwoPhase × Session) :
    Outcome × Workspace :=
  match w.phases[i]? with
  | none => (.none, w)
  | some p =>
    let (outcome, p, s) := f p w.session
    (outcome, ⟨outcome.trees ++ w.trees, w.phases.set i p, s⟩)

/-- Does one thing. -/
def perform (engine : Engine) (scope : RequestScope) (w : Workspace) :
    Operation → Outcome × Workspace
  | .plan resource category field change =>
    let (result, s) := scope.plan resource category field change w.session
    (.planned result,
      { w with trees := (Outcome.planned result).trees ++ w.trees, session := s })
  | .evaluate i => w.onTree i fun t s =>
    let e := engine.evaluate t s
    (.evaluated e.result, e.tree, e.state)
  | .require i => w.onTree i fun t s => (engine.require t s).map .required id
  | .begin => (.none, { w with phases := .begin scope :: w.phases })
  | .checkWhole i resource category => w.onPhase i fun p s =>
    (engine.checkWhole p resource category s).map .required id
  | .checkField i resource category field change => w.onPhase i fun p s =>
    (engine.checkField p resource category field change s).map .required id
  | .checkUser i resource category => w.onPhase i fun p s =>
    let (result, s) := engine.checkUser p resource category s
    (.required result, p, s)
  | .commit i => w.onPhase i fun p s => (engine.commit p s).map .committed id
  | .forget =>
    let a := w.session.answers scope.request
    (.none, { w with session := w.session.setAnswers scope.request a.clear })

/-- Does one thing after the other. -/
def performAll (engine : Engine) (scope : RequestScope) (w : Workspace) :
    List Operation → List Outcome × Workspace
  | [] => ([], w)
  | op :: ops =>
    let (outcome, w) := w.perform engine scope op
    let (outcomes, w) := w.performAll engine scope ops
    (outcome :: outcomes, w)

end Workspace

/-! ## 4. What the two sessions have in common -/

namespace Session

/-- A session that remembers, and one that does not, after the same questions: since the look-ups
`base` they asked the same leaves, in the same order, for the same answers, which the second one
had from runs alone.  All that the first one remembers is what the checks say. -/
structure Covers (scope : RequestScope) (base : List LookUp) (s s' : Session) : Prop where
  opened : s.Opened scope.request
  known : ∀ q b, s.known scope.request q = some b →
    ∀ l : Leaf, l.Own scope → l.question = q → l.reply = .ok b
  book : s'.book = s.book
  events : s'.events = s.events
  lookUps : ∃ us, s.lookUps = us ++ base ∧
    s'.lookUps = (us.map fun u => { u with ran := true }) ++ base

variable {scope : RequestScope} {base : List LookUp} {s s' : Session}

/-- Before the first question the request remembers nothing. -/
theorem covers_openRequest (d : Dictionary) (user : User) (s : Session) (capacity : Nat) :
    Covers ⟨d, user, (s.openRequest capacity).1⟩ s.lookUps (s.openRequest capacity).2
      (s.openRequest capacity).2 where
  opened := opened_openRequest s capacity
  known q b hb := by
    rw [known_openRequest] at hb
    cases hb
  book := rfl
  events := rfl
  lookUps := ⟨[], rfl, rfl⟩

/-- **Asking and asking anew give one answer**, and the sessions keep what they have in common. -/
theorem Covers.ask (h : Covers scope base s s') (hpure : scope.dictionary.Pure) {l : Leaf}
    (hl : l.Own scope) :
    (s'.askAnew l).1 = (s.ask l).1 ∧ Covers scope base (s.ask l).2 (s'.askAnew l).2 := by
  have hreply : ∀ runs, l.check.procedure.answer runs l.context = l.reply := fun runs =>
    hpure l.name l.check hl.bound _ _ _ _ rfl rfl rfl
  have hask : (s.ask l).1 = l.reply := by
    rw [ask_fst, hl.request]
    cases hknown : s.known scope.request l.question with
    | none => exact hreply _
    | some b => exact (h.known _ b hknown l hl rfl).symm
  have hanew : (s'.askAnew l).1 = l.reply := hreply _
  refine ⟨hanew.trans hask.symm, (opened_ask l s).mpr h.opened, ?known, ?book, ?events, ?lookUps⟩
  case known =>
    intro q b hb l' hl' hq
    rcases known_of_known_ask hb with hold | ⟨⟨-, hnew⟩, hanswer⟩
    · exact h.known q b hold l' hl' hq
    · rw [hl'.reply_eq hpure hl (hq.trans hnew), ← hask, hanswer]
  case book => exact h.book.trans (book_ask l s).symm
  case events =>
    rw [events_ask, hask, ← hanew, ← h.events]
    rfl
  case lookUps =>
    obtain ⟨us, hus, hus'⟩ := h.lookUps
    refine ⟨_ :: us, (lookUps_ask l s).trans (congrArg _ hus), ?_⟩
    rw [hask, ← hanew]
    exact congrArg _ hus'

theorem Covers.report (h : Covers scope base s s') (e : Event) :
    Covers scope base (s.report e) (s'.report e) where
  opened := h.opened
  known := h.known
  book := h.book
  events := congrArg (e :: ·) h.events
  lookUps := h.lookUps

/-- Where all is forgotten, nothing wrong is remembered. -/
theorem Covers.forget (h : Covers scope base s s') :
    Covers scope base (s.setAnswers scope.request (s.answers scope.request).clear)
      (s'.setAnswers scope.request (s'.answers scope.request).clear) where
  opened := by
    rw [Opened, setAnswers, List.length_set]
    exact h.opened
  known q b hb := by
    rw [Session.known, answers_setAnswers_self h.opened] at hb
    cases hb
  book := h.book
  events := h.events
  lookUps := h.lookUps

end Session

/-! ## 5. Trees and decisions in two phases -/

/-- A tree of the request. -/
def Tree.Own (t : Tree) (scope : RequestScope) : Prop := ∀ l ∈ t.leaves, l.Own scope

/-- A plan of the request. -/
structure Plan.Own (plan : Plan) (scope : RequestScope) : Prop where
  preview : plan.preview.Own scope
  commit : plan.commit.Own scope

/-- Decisions of the request. -/
structure TwoPhase.Own (p : TwoPhase) (scope : RequestScope) : Prop where
  scope_eq : p.scope = scope
  queue : ∀ t ∈ p.queue, t.Own scope

/-- What is planned for the request belongs to it. -/
theorem Plan.own_of_plan {scope : RequestScope} {resource : Resource} {category : Category}
    {field : Option String} {change : Option Change} {s : Session} {plan : Plan}
    (h : (scope.plan resource category field change s).1 = .ok plan) : plan.Own scope := by
  obtain rfl := RequestScope.plan_eq_ok h
  exact ⟨fun l hl => (RequestScope.fits_of_mem_tree l hl).own,
    fun l hl => (RequestScope.fits_of_mem_tree l hl).own⟩

namespace Session

/-- Two returns that cannot be told apart; what is returned is as `Q` says. -/
def Matches (scope : RequestScope) (base : List LookUp) {α : Type} (Q : α → Prop)
    (out out' : α × Session) : Prop :=
  ∃ a t t', out = (a, t) ∧ out' = (a, t') ∧ Covers scope base t t' ∧ Q a

/-- Two returns that cannot be told apart, nor what is left of what they were given. -/
def Corresponds (scope : RequestScope) (base : List LookUp) {α β : Type} (Q : α → β → Prop)
    (out out' : α × β × Session) : Prop :=
  ∃ a b t t', out = (a, b, t) ∧ out' = (a, b, t') ∧ Covers scope base t t' ∧ Q a b

theorem Corresponds.map {scope : RequestScope} {base : List LookUp} {α β γ : Type}
    {Q : α → β → Prop} {Q' : γ → β → Prop} {out out' : α × β × Session}
    (h : Corresponds scope base Q out out') (g : α → γ) (hQ : ∀ a b, Q a b → Q' (g a) b) :
    Corresponds scope base Q' (out.map g id) (out'.map g id) := by
  obtain ⟨a, b, t, t', rfl, rfl, ht, hab⟩ := h
  exact ⟨g a, b, t, t', rfl, rfl, ht, hQ a b hab⟩

variable {scope : RequestScope} {base : List LookUp} {s s' : Session}
  (h : Covers scope base s s') (hpure : scope.dictionary.Pure)

include h

/-- Planning gives the same plan in both sessions. -/
theorem Covers.plan (resource : Resource) (category : Category) (field : Option String)
    (change : Option Change) :
    Matches scope base (fun result => ∀ plan, result = .ok plan → plan.Own scope)
      (scope.plan resource category field change s)
      (scope.plan resource category field change s') := by
  obtain ⟨hresult, hbook, es, hes', hes⟩ :=
    scope.plan_of_book_eq resource category field change h.book
  have hquiet := scope.plan_quiet resource category field change s
  have hquiet' := scope.plan_quiet resource category field change s'
  have hsession : Covers scope base (scope.plan resource category field change s).2
      (scope.plan resource category field change s').2 := by
    refine ⟨?_, fun q b hb => ?_, hbook, ?_, ?_⟩
    · rw [Opened, hquiet.requests]
      exact h.opened
    · rw [known_of_requests_eq hquiet.requests] at hb
      exact h.known q b hb
    · rw [hes, hes', h.events]
    · rw [hquiet.lookUps, hquiet'.lookUps]
      exact h.lookUps
  generalize hplan : scope.plan resource category field change s = planned at hresult hsession ⊢
  generalize scope.plan resource category field change s' = planned' at hresult hsession ⊢
  exact ⟨planned.1, planned.2, planned'.2, rfl, Prod.ext hresult rfl, hsession,
    fun plan hok => Plan.own_of_plan (congrArg Prod.fst hplan |>.trans hok)⟩

include hpure

theorem Covers.evaluate {t : Tree} (ht : t.Own scope) :
    Corresponds scope base (fun _ t => t.Own scope)
      (let e := t.evaluateWith (fun l s => s.ask l) s; (e.result, e.tree, e.state))
      (let e := t.evaluateWith (fun l s => s.askAnew l) s'; (e.result, e.tree, e.state)) := by
  obtain ⟨hresult, htree, hstate⟩ :
      (t.evaluateWith (fun l s => s.ask l) s).InStep id (Covers scope base)
        ((t.mapConditions id).evaluateWith (fun l s => s.askAnew l) s') :=
    t.evaluateWith_inStep (fun l hl _ _ hs => hs.ask hpure (ht l hl)) s s' h
  simp only [Tree.mapConditions_id] at hresult htree hstate
  refine ⟨_, _, _, _, rfl, ?_, hstate, ?_⟩
  · simp only [hresult, htree]
  · intro l hl
    rw [Tree.leaves_evaluateWith] at hl
    exact ht l hl

theorem Covers.require {t : Tree} (ht : t.Own scope) :
    Corresponds scope base (fun _ t => t.Own scope) (t.requireBy (fun l s => s.ask l) s)
      (t.requireBy (fun l s => s.askAnew l) s') := by
  obtain ⟨result, t₁, u, u', hout, hout', hu, ht₁⟩ := h.evaluate hpure ht
  simp only [Prod.mk.injEq] at hout hout'
  simp only [Tree.requireBy, hout, hout']
  cases result with
  | error f => exact ⟨_, _, _, _, rfl, rfl, hu, ht₁⟩
  | ok st =>
    cases st with
    | failed => exact ⟨_, _, _, _, rfl, rfl, hu.report _, ht₁⟩
    | _ => exact ⟨_, _, _, _, rfl, rfl, hu, ht₁⟩

theorem Covers.requireAll {ts : List Tree} (hts : ∀ t ∈ ts, t.Own scope) :
    Matches scope base (fun result => ∀ ts, result = .ok ts → ∀ t ∈ ts, t.Own scope)
      (Tree.requireAllBy (fun l s => s.ask l) ts s)
      (Tree.requireAllBy (fun l s => s.askAnew l) ts s') := by
  induction ts generalizing s s' with
  | nil =>
    refine ⟨_, _, _, rfl, rfl, h, fun ts hok => ?_⟩
    cases hok
    exact List.forall_mem_nil _
  | cons t ts ih =>
    obtain ⟨ht, hts⟩ := List.forall_mem_cons.mp hts
    obtain ⟨result, t₁, u, u', hout, hout', hu, ht₁⟩ := h.require hpure ht
    rw [Tree.requireAllBy, Tree.requireAllBy, hout, hout']
    cases result with
    | error f => exact ⟨_, _, _, rfl, rfl, hu, nofun⟩
    | ok =>
      obtain ⟨rest, v, v', hrest, hrest', hv, hts₁⟩ := ih hu hts
      simp only [hrest, hrest']
      cases rest with
      | error f => exact ⟨_, _, _, rfl, rfl, hv, nofun⟩
      | ok ts₁ =>
        refine ⟨_, _, _, rfl, rfl, hv, fun ts hok => ?_⟩
        cases hok
        exact List.forall_mem_cons.mpr ⟨ht₁, hts₁ ts₁ rfl⟩

/-- Previewing a plan of the request. -/
theorem Covers.preview {p : TwoPhase} (hp : p.Own scope) (resource : Resource)
    (category : Category) (field : Option String) (change : Option Change) :
    Corresponds scope base (fun _ p => p.Own scope)
      (p.previewBy (fun l s => s.ask l) (scope.plan resource category field change s))
      (p.previewBy (fun l s => s.askAnew l) (scope.plan resource category field change s')) := by
  obtain ⟨planned, t, t', hplan, hplan', ht, hown⟩ := h.plan resource category field change
  rw [hplan, hplan']
  cases planned with
  | error f => exact ⟨_, _, _, _, rfl, rfl, ht, hp⟩
  | ok plan =>
    obtain ⟨hpreview, hcommit⟩ := hown plan rfl
    obtain ⟨result, _, u, u', hout, hout', hu, -⟩ := ht.require hpure hpreview
    rw [TwoPhase.previewBy, TwoPhase.previewBy, hout, hout']
    cases result with
    | error f => exact ⟨_, _, _, _, rfl, rfl, hu, hp⟩
    | ok =>
      refine ⟨_, _, _, _, rfl, rfl, hu, hp.scope_eq, ?_⟩
      exact List.forall_mem_append.mpr ⟨hp.queue, List.forall_mem_singleton.mpr hcommit⟩

theorem Covers.commit {p : TwoPhase} (hp : p.Own scope) :
    Corresponds scope base
      (fun result p => p.Own scope ∧ ∀ ts, result = .ok ts → ∀ t ∈ ts, t.Own scope)
      (p.commitBy (fun l s => s.ask l) s) (p.commitBy (fun l s => s.askAnew l) s') := by
  have hempty : TwoPhase.Own { p with queue := [] } scope := ⟨hp.scope_eq, List.forall_mem_nil _⟩
  obtain ⟨result, u, u', hout, hout', hu, hts⟩ :=
    (h.report (.committing p.pending)).requireAll hpure hp.queue
  rw [TwoPhase.commitBy, TwoPhase.commitBy, hout, hout']
  cases result with
  | error f => exact ⟨_, _, _, _, rfl, rfl, hu.report _, hempty, nofun⟩
  | ok ts => exact ⟨_, _, _, _, rfl, rfl, hu, hempty, hts⟩

end Session

/-! ## 6. Any sequence of operations -/

namespace Workspace

/-- The same things at hand, all of them of the request, in a session that remembers and in one that
does not. -/
structure Covered (scope : RequestScope) (base : List LookUp) (w w' : Workspace) : Prop where
  trees : w'.trees = w.trees
  phases : w'.phases = w.phases
  session : w.session.Covers scope base w'.session
  ownTrees : ∀ t ∈ w.trees, t.Own scope
  ownPhases : ∀ p ∈ w.phases, p.Own scope

variable {scope : RequestScope} {base : List LookUp} {w w' : Workspace}
  (h : Covered scope base w w')

include h

theorem Covered.onTree (i : Nat) {f f' : Tree → Session → Outcome × Tree × Session}
    (hf : ∀ t : Tree, t.Own scope → Session.Corresponds scope base (fun _ t => t.Own scope)
      (f t w.session) (f' t w'.session)) :
    (w'.onTree i f').1 = (w.onTree i f).1 ∧
      Covered scope base (w.onTree i f).2 (w'.onTree i f').2 := by
  rw [Workspace.onTree, Workspace.onTree, h.trees]
  cases hi : w.trees[i]? with
  | none => exact ⟨rfl, h⟩
  | some t =>
    obtain ⟨outcome, t₁, u, u', hout, hout', hu, ht₁⟩ :=
      hf t (h.ownTrees t (List.mem_of_getElem? hi))
    dsimp only
    rw [hout, hout']
    exact ⟨rfl, rfl, h.phases, hu, forall_mem_set h.ownTrees i ht₁, h.ownPhases⟩

theorem Covered.onPhase (i : Nat) {f f' : TwoPhase → Session → Outcome × TwoPhase × Session}
    (hf : ∀ p : TwoPhase, p.Own scope → Session.Corresponds scope base
      (fun outcome p => p.Own scope ∧ ∀ t ∈ outcome.trees, t.Own scope)
      (f p w.session) (f' p w'.session)) :
    (w'.onPhase i f').1 = (w.onPhase i f).1 ∧
      Covered scope base (w.onPhase i f).2 (w'.onPhase i f').2 := by
  rw [Workspace.onPhase, Workspace.onPhase, h.phases]
  cases hi : w.phases[i]? with
  | none => exact ⟨rfl, h⟩
  | some p =>
    obtain ⟨outcome, p₁, u, u', hout, hout', hu, hp₁, hts⟩ :=
      hf p (h.ownPhases p (List.mem_of_getElem? hi))
    dsimp only
    rw [hout, hout', h.trees]
    exact ⟨rfl, rfl, rfl, hu, List.forall_mem_append.mpr ⟨hts, h.ownTrees⟩,
      forall_mem_set h.ownPhases i hp₁⟩

/-- **Every operation is the same in both sessions.** -/
theorem Covered.perform (hpure : scope.dictionary.Pure) (op : Operation) :
    (w'.perform .direct scope op).1 = (w.perform .cached scope op).1 ∧
      Covered scope base (w.perform .cached scope op).2 (w'.perform .direct scope op).2 := by
  -- the preview of a plan, which shows in three operations
  have preview : ∀ (p : TwoPhase), p.Own scope → ∀ resource category field change,
      Session.Corresponds scope base (fun _ p => p.Own scope)
        (p.previewBy (fun l s => s.ask l) (p.scope.plan resource category field change w.session))
        (p.previewBy (fun l s => s.askAnew l)
          (p.scope.plan resource category field change w'.session)) := by
    intro p hp resource category field change
    rw [hp.scope_eq]
    exact h.session.preview hpure hp resource category field change
  rw [Engine.direct, ← Engine.asking_ask]
  cases op with
  | plan resource category field change =>
    obtain ⟨result, u, u', hplan, hplan', hu, hown⟩ :=
      h.session.plan resource category field change
    rw [Workspace.perform, Workspace.perform, hplan, hplan', h.trees]
    refine ⟨rfl, rfl, h.phases, hu, List.forall_mem_append.mpr ⟨?_, h.ownTrees⟩, h.ownPhases⟩
    cases result with
    | error f => exact List.forall_mem_nil _
    | ok plan =>
      obtain ⟨hpreview, hcommit⟩ := hown plan rfl
      exact List.forall_mem_cons.mpr ⟨hpreview, List.forall_mem_singleton.mpr hcommit⟩
  | evaluate i =>
    exact h.onTree i fun t ht =>
      (h.session.evaluate hpure ht).map Outcome.evaluated fun _ _ ht => ht
  | require i =>
    exact h.onTree i fun t ht =>
      (h.session.require hpure ht).map Outcome.required fun _ _ ht => ht
  | begin =>
    refine ⟨rfl, h.trees, congrArg (TwoPhase.begin scope :: ·) h.phases, h.session, h.ownTrees, ?_⟩
    exact List.forall_mem_cons.mpr ⟨⟨rfl, List.forall_mem_nil _⟩, h.ownPhases⟩
  | checkWhole i resource category =>
    exact h.onPhase i fun p hp => (preview p hp resource category none none).map Outcome.required
      fun _ _ hp => ⟨hp, List.forall_mem_nil _⟩
  | checkField i resource category field change =>
    exact h.onPhase i fun p hp => (preview p hp resource category field change).map Outcome.required
      fun _ _ hp => ⟨hp, List.forall_mem_nil _⟩
  | checkUser i resource category =>
    refine h.onPhase i fun p hp => ?_
    obtain ⟨result, q, u, u', hout, hout', hu, -⟩ := preview p hp resource category none none
    rw [RequestScope.plan] at hout hout'
    simp only [Engine.asking, hout, hout']
    exact ⟨_, _, _, _, rfl, rfl, hu, hp, List.forall_mem_nil _⟩
  | commit i =>
    refine h.onPhase i fun p hp => (h.session.commit hpure hp).map Outcome.committed ?_
    rintro (f | ts) q ⟨hq, hts⟩
    · exact ⟨hq, List.forall_mem_nil _⟩
    · exact ⟨hq, hts ts rfl⟩
  | forget => exact ⟨rfl, h.trees, h.phases, h.session.forget, h.ownTrees, h.ownPhases⟩

/-- Any sequence of operations is the same in both sessions. -/
theorem Covered.performAll (hpure : scope.dictionary.Pure) (ops : List Operation) :
    (w'.performAll .direct scope ops).1 = (w.performAll .cached scope ops).1 ∧
      Covered scope base (w.performAll .cached scope ops).2
        (w'.performAll .direct scope ops).2 := by
  induction ops generalizing w w' with
  | nil => exact ⟨rfl, h⟩
  | cons op ops ih =>
    obtain ⟨houtcome, hstep⟩ := h.perform hpure op
    obtain ⟨houtcomes, hrun⟩ := ih hstep
    exact ⟨congrArg₂ List.cons houtcome houtcomes, hrun⟩

omit h in
/-- **Remembering makes no difference.**  If all checks are pure, then any sequence of operations of
one request comes to the same if every leaf runs its check and nothing is remembered: what is
returned, all trees with the status of every node, what waits for the commit, and what is reported.
The leaves are asked in the same order and get the same answers; only fewer of them run a check. -/
theorem remembering_transparent (d : Dictionary) (hpure : d.Pure) (user : User) (capacity : Nat)
    (s : Session) (ops : List Operation) :
    let opened := s.openRequest capacity
    let scope : RequestScope := ⟨d, user, opened.1⟩
    let start : Workspace := ⟨[], [], opened.2⟩
    let cached := start.performAll .cached scope ops
    let direct := start.performAll .direct scope ops
    direct.1 = cached.1 ∧ direct.2.trees = cached.2.trees ∧ direct.2.phases = cached.2.phases ∧
      direct.2.session.events = cached.2.session.events ∧
      ∃ us, cached.2.session.lookUps = us ++ s.lookUps ∧
        direct.2.session.lookUps = (us.map fun u => { u with ran := true }) ++ s.lookUps := by
  intro opened scope start cached direct
  have hstart : Covered scope s.lookUps start start :=
    ⟨rfl, rfl, Session.covers_openRequest d user s capacity, List.forall_mem_nil _,
      List.forall_mem_nil _⟩
  obtain ⟨houtcomes, hrun⟩ := hstart.performAll hpure ops
  exact ⟨houtcomes, hrun.trees, hrun.phases, hrun.session.events, hrun.session.lookUps⟩

end Workspace

namespace Specimen

/-- A title may be changed by whoever is not the owner, and only for another text. -/
def catalogue : Dictionary :=
  ((Dictionary.empty.addCheck "owner" (.role "owner")).addCheck "retitles"
    (.custom .operation fun _ ctx =>
      .ok ((ctx.change.map Change.key).any fun key => key.before != key.after))).addType
      ((Declaration.bare "book").fieldPermission "title" .update "retitles AND NOT owner")

theorem pure_catalogue : catalogue.Pure := by
  intro name c hc
  have hmem : c.procedure ∈ [_, _] := Dictionary.mem_shelf_of_check? hc
  rcases List.mem_pair.mp hmem with h | h
  · rw [h]
    intro runs runs' ctx ctx' _ huser _
    simp only [Procedure.answer, huser]
  · rw [h]
    intro runs runs' ctx ctx' _ _ hkey
    simp only [Procedure.answer, hkey]

end Specimen

namespace Workspace

open Specimen

/-- A preview, the same decision in two phases, and the commit of both.  Without remembering six
checks run in place of two. -/
theorem remembering_transparent_catalogue :
    let opened := Session.initial.openRequest Answers.defaultCapacity
    let scope : RequestScope := ⟨catalogue, .anonymous, opened.1⟩
    let start : Workspace := ⟨[], [], opened.2⟩
    let ops : List Operation := [.plan book .update "title" retitling, .evaluate 0, .begin,
      .checkField 0 book .update "title" retitling, .commit 0, .evaluate 2]
    let cached := start.performAll .cached scope ops
    let direct := start.performAll .direct scope ops
    catalogue.Pure ∧ cached.2.session.runs.length = 2 ∧ direct.2.session.runs.length = 6 ∧
      direct.1 = cached.1 ∧ direct.2.trees = cached.2.trees ∧
      direct.2.phases = cached.2.phases := by
  have hsame := remembering_transparent catalogue pure_catalogue .anonymous
    Answers.defaultCapacity .initial [.plan book .update "title" retitling, .evaluate 0, .begin,
      .checkField 0 book .update "title" retitling, .commit 0, .evaluate 2]
  exact ⟨pure_catalogue, by decide +kernel, by decide +kernel, hsame.1, hsame.2.1, hsame.2.2.1⟩

end Workspace

end AccessRules
