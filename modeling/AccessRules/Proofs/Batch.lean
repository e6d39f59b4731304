/-
# A batch decides each request on its own

The decisions of a batch share the answers that they get.  A question names the resource by its
identity and the change by its key, so two requests can put one question although a check is shown
different things for them; then the later one gets the answer that was meant for the earlier one.
That is the only way in which one request can reach another: where requests that put one question
to a check get one answer from it (`Request.Coherent`), every decision of the batch is the one that
its request gets alone, whatever the others are and in whatever order they come.

* `Service.opinion`: the decision about a request where nothing is remembered and every check is
  asked anew, which mentions neither sessions nor other requests;
* `Session.Consistent`: the request remembers no answer but what the checks say;
* `decide_eq_opinion`: in such a session a decision is the opinion, and the session stays such.
-/
import AccessRules.Proofs.Decision

namespace AccessRules

/-! ## 1. Questions and answers of a request -/

namespace Request

variable (r : Request) (user : User)

/-- The question that a request puts to a check, in either phase. -/
def question (c : Check) : Question :=
  ⟨r.resource.identity, c.id, r.category, (c.visibleChange r.change).map Change.key⟩

/-- What a check says of a request. -/
def answer (c : Check) : Answer :=
  c.procedure.answer [] ⟨r.resource, c.visibleChange r.change, user⟩

/-- The checks at the leaves of the commit tree of a request, which holds them all. -/
def checks (d : Dictionary) : List Check :=
  (r.tree ⟨d, .anonymous, 0⟩ .commit).leaves.map Leaf.check

/-- Requests that put one question to a check of theirs get one answer from it.  Errors may differ,
for they are not remembered. -/
def Coherent (d : Dictionary) (user : User) (rs : List Request) : Prop :=
  ∀ r ∈ rs, ∀ r' ∈ rs, ∀ c ∈ r.checks d, c ∈ r'.checks d →
    r.question c = r'.question c → ∀ b, r.answer user c = .ok b → r'.answer user c = .ok b

/-- A request on its own puts no question twice with two meanings. -/
theorem coherent_singleton (d : Dictionary) : Coherent d user [r] := by
  intro r₁ h₁ r₂ h₂ c _ _ _ b hb
  rwa [List.mem_singleton.mp h₂, ← List.mem_singleton.mp h₁]

/-- Nothing is lost where the identities tell the resources apart and the keys the changes. -/
theorem coherent_of_injective {rs : List Request} (d : Dictionary)
    (hresource : ∀ r ∈ rs, ∀ r' ∈ rs, r.resource.identity = r'.resource.identity →
      r.resource = r'.resource)
    (hchange : ∀ r ∈ rs, ∀ r' ∈ rs, r.change.map Change.key = r'.change.map Change.key →
      r.change = r'.change) : Coherent d user rs := by
  intro r hr r' hr' c _ _ hquestion b hb
  simp only [question, Question.mk.injEq, true_and] at hquestion
  obtain ⟨hidentity, -, hkey⟩ := hquestion
  have hvisible : c.visibleChange r.change = c.visibleChange r'.change := by
    cases hkind : c.kind with
    | user => simp only [Check.visibleChange, hkind]
    | operation =>
      simp only [Check.visibleChange, hkind] at hkey ⊢
      exact hchange r hr r' hr' hkey
  rwa [answer, ← hresource r hr r' hr' hidentity, ← hvisible]

section Checks

variable {r : Request} {scope : RequestScope}

/-- Whatever a request asks in a phase is among its checks. -/
theorem check_mem_checks {p : Phase} {l : Leaf} (h : l ∈ (r.tree scope p).leaves) :
    l.check ∈ r.checks scope.dictionary := by
  let M : Tree → Tree → Prop := fun t t' => ∀ l ∈ t.leaves, l.check ∈ t'.leaves.map Leaf.check
  have pair : ∀ {node : Tree → Tree → Status → Tree}, Tree.Binary node → ∀ {t t' u u' : Tree},
      M t t' → M u u' → M (node t u .unevaluated) (node t' u' .unevaluated) := by
    intro node hnode t t' u u' ht hu
    simp only [M, hnode.leaves, List.map_append]
    refine List.forall_mem_append.mpr ⟨fun l hl => ?_, fun l hl => ?_⟩
    · exact List.mem_append_left _ (ht l hl)
    · exact List.mem_append_right _ (hu l hl)
  have congruent : Tree.Congruent M :=
    ⟨fun _ _ _ h => absurd h List.not_mem_nil, pair Tree.binary_and, pair Tree.binary_or, id,
      fun condition => pair (Tree.binary_anyField condition), fun _ => id, fun _ => id,
      fun _ _ h => absurd h List.not_mem_nil⟩
  have hall : M (r.tree scope p) (r.tree ⟨scope.dictionary, .anonymous, 0⟩ .commit) := by
    refine RequestScope.tree_related_across rfl congruent fun c _ => ?_
    cases hkind : c.check.kind with
    | user =>
      rw [Phase.leaf_of_user _ _ hkind, Phase.leaf_of_user _ _ hkind]
      simp [M, Tree.ofLeaf, Tree.leaves, Tree.marks]
    | operation =>
      cases p with
      | preview =>
        rw [Phase.leaf_of_operation _ hkind]
        exact fun l hl => absurd hl List.not_mem_nil
      | commit => simp [M, Phase.leaf, Tree.ofLeaf, Tree.leaves, Tree.marks]
  exact hall l h

/-- The checks of a request are bound. -/
theorem exists_check?_of_mem_checks {d : Dictionary} {c : Check} (h : c ∈ r.checks d) :
    ∃ name, d.check? name = some c := by
  obtain ⟨l, hl, rfl⟩ := List.mem_map.mp h
  exact ⟨l.name, (RequestScope.fits_of_mem_tree l hl).bound⟩

end Checks

end Request

/-- The answer of the check at a leaf, asked anew. -/
def Leaf.reply (l : Leaf) : Answer := l.check.procedure.answer [] l.context

namespace Leaf.Fits

variable {l : Leaf} {scope : RequestScope} {r : Request} {p : Phase}
  (h : l.Fits scope ⟨r.category, r.resource, r.field, r.change⟩ p)

include h

/-- A leaf shows its check the change of the request: the preview, which shows none, asks user
checks alone. -/
theorem visibleChange_eq :
    l.check.visibleChange l.situation.change = l.check.visibleChange r.change := by
  rw [h.situation]
  cases p with
  | commit => rfl
  | preview => simp only [Check.visibleChange, h.user rfl]

theorem question_eq : l.question = r.question l.check := by
  rw [question, Request.question, h.visibleChange_eq, h.situation]
  cases p <;> rfl

theorem reply_eq : l.reply = r.answer scope.user l.check := by
  rw [reply, context, Request.answer, h.visibleChange_eq, h.situation]
  cases p <;> rfl

theorem request_eq : l.situation.request = scope.request := by
  rw [h.situation]
  cases p <;> rfl

end Leaf.Fits

/-! ## 2. One tree asked in two ways -/

/-- Two evaluations that cannot be told apart by what they return and show. -/
structure Evaluation.Alike {σ τ : Type} (R : σ → τ → Prop) (e : Evaluation σ) (e' : Evaluation τ) :
    Prop where
  result : e.result = e'.result
  text : e.tree.text = e'.tree.text
  state : R e.state e'.state

/-- Two trees that cannot be told apart before their evaluation or after it. -/
structure Tree.Alike {σ τ : Type} (ask : Leaf → σ → Answer × σ) (ask' : Leaf → τ → Answer × τ)
    (R : σ → τ → Prop) (t t' : Tree) : Prop where
  text : t.text = t'.text
  evaluate : ∀ s s', R s s' → (t.evaluateWith ask s).Alike R (t'.evaluateWith ask' s')

section Alike

variable {σ τ : Type} {R : σ → τ → Prop}

namespace Evaluation

theorem Alike.asked {l l' : Leaf} {out : Answer × σ} {out' : Answer × τ} (hname : l.name = l'.name)
    (hanswer : out.1 = out'.1) (hstate : R out.2 out'.2) :
    (asked l out).Alike R (asked l' out') := by
  obtain ⟨answer, s⟩ := out
  obtain ⟨answer', s'⟩ := out'
  obtain rfl : answer = answer' := hanswer
  cases answer with
  | ok b => exact ⟨rfl, by simp only [Evaluation.asked, settled, Tree.text, hname], hstate⟩
  | error detail =>
    refine ⟨?_, ?_, hstate⟩
    · simp only [Evaluation.asked, stopped, hname]
    · simp only [Evaluation.asked, stopped, Tree.text, hname]

theorem Alike.single {node node' : Tree → Status → Tree} (f : Status → Status)
    (htext : ∀ {c c' : Tree} st, c.text = c'.text → (node c st).text = (node' c' st).text)
    {c : Evaluation σ} {c' : Evaluation τ} (h : c.Alike R c') :
    (single node f c).Alike R (single node' f c') := by
  cases hc : c.result with
  | error e =>
    rw [single_of_error node f hc, single_of_error node' f (h.result ▸ hc)]
    exact ⟨rfl, htext _ h.text, h.state⟩
  | ok a =>
    rw [single_of_ok node f hc, single_of_ok node' f (h.result ▸ hc)]
    exact ⟨rfl, htext _ h.text, h.state⟩

theorem Alike.pair {node : Tree → Tree → Status → Tree} (stop : Status)
    (join : Status → Status → Status)
    (htext : ∀ {l l' r r' : Tree} st, l.text = l'.text → r.text = r'.text →
      (node l r st).text = (node l' r' st).text)
    {left : Evaluation σ} {left' : Evaluation τ} (hl : left.Alike R left')
    {r r' : Tree} {resume : σ → Evaluation σ} {resume' : τ → Evaluation τ}
    (hr : r.text = r'.text) (hresume : ∀ s s', R s s' → (resume s).Alike R (resume' s')) :
    (pair node stop join left r resume).Alike R (pair node stop join left' r' resume') := by
  cases ha : left.result with
  | error e =>
    rw [pair_of_error node stop join r resume ha,
      pair_of_error node stop join r' resume' (hl.result ▸ ha)]
    exact ⟨rfl, htext _ hl.text hr, hl.state⟩
  | ok a =>
    rcases eq_or_ne a stop with rfl | hne
    · rw [pair_of_stop node a join r resume ha,
        pair_of_stop node a join r' resume' (hl.result ▸ ha)]
      exact ⟨rfl, htext _ hl.text hr, hl.state⟩
    · rw [pair_of_ok node stop join r resume ha hne,
        pair_of_ok node stop join r' resume' (hl.result ▸ ha) hne]
      exact .single _ (fun st => htext st hl.text) (hresume _ _ hl.state)

end Evaluation

namespace Tree

variable {ask : Leaf → σ → Answer × σ} {ask' : Leaf → τ → Answer × τ}

theorem Alike.single {node : Tree → Status → Tree} {f : Status → Status}
    (heval : ∀ {ρ : Type} (ask : Leaf → ρ → Answer × ρ) c s,
      (node c .unevaluated).evaluateWith ask s = .single node f (c.evaluateWith ask s))
    (htext : ∀ {c c' : Tree} st, c.text = c'.text → (node c st).text = (node c' st).text)
    {c c' : Tree} (hc : Alike ask ask' R c c') :
    Alike ask ask' R (node c .unevaluated) (node c' .unevaluated) where
  text := htext _ hc.text
  evaluate s s' hs := by
    rw [heval, heval]
    exact .single f htext (hc.evaluate s s' hs)

theorem Alike.pair {node : Tree → Tree → Status → Tree} {stop : Status}
    {join : Status → Status → Status}
    (heval : ∀ {ρ : Type} (ask : Leaf → ρ → Answer × ρ) l r s,
      (node l r .unevaluated).evaluateWith ask s =
        .pair node stop join (l.evaluateWith ask s) r (r.evaluateWith ask))
    (htext : ∀ {l l' r r' : Tree} st, l.text = l'.text → r.text = r'.text →
      (node l r st).text = (node l' r' st).text)
    {l l' r r' : Tree} (hl : Alike ask ask' R l l') (hr : Alike ask ask' R r r') :
    Alike ask ask' R (node l r .unevaluated) (node l' r' .unevaluated) where
  text := htext _ hl.text hr.text
  evaluate s s' hs := by
    rw [heval, heval]
    exact .pair stop join htext (hl.evaluate s s' hs) hr.text hr.evaluate

/-- **Trees with alike leaves are alike.** -/
theorem congruent_alike : Congruent (Alike ask ask' R) where
  constant _ _ := ⟨rfl, fun _ _ hs => ⟨rfl, rfl, hs⟩⟩
  and := .pair (fun _ _ _ _ => rfl) fun _ hl hr => by simp only [text, hl, hr]
  or := .pair (fun _ _ _ _ => rfl) fun _ hl hr => by simp only [text, hl, hr]
  not := .single (fun _ _ _ => rfl) fun _ hc => by simp only [text, hc]
  anyField _ _ _ _ _ := .pair (fun _ _ _ _ => rfl) fun _ hf he => by simp only [text, hf, he]
  fieldRule _ _ _ := .single (f := id) (fun _ _ _ => rfl) fun _ hr => by simp only [text, hr]
  entityRule _ _ _ := .single (f := id) (fun _ _ _ => rfl) fun _ hr => by simp only [text, hr]
  unrestricted _ := ⟨rfl, fun _ _ hs => ⟨rfl, rfl, hs⟩⟩

/-- It does not show who puts a check off. -/
theorem alike_later (name : String) : Alike ask ask' R (.later name) (.later name) :=
  ⟨rfl, fun _ _ hs => ⟨rfl, rfl, hs⟩⟩

end Tree

/-- A decision is told by what the evaluations return and show. -/
theorem Service.judge_eq_of_alike (service : Service) {preview commit : Evaluation σ}
    {preview' commit' : Evaluation τ} (hp : preview.Alike R preview')
    (hc : commit.Alike R commit') :
    service.judge preview commit = service.judge preview' commit' := by
  simp only [judge, hp.result, hp.text, hc.result, hc.text]

end Alike

/-! ## 3. Sessions that remember what checks say -/

namespace Session

/-- What a request remembers of the questions of a batch is what the checks say of each of them. -/
structure Consistent (scope : RequestScope) (rs : List Request) (s : Session) : Prop where
  opened : s.Opened scope.request
  known : ∀ r ∈ rs, ∀ c ∈ r.checks scope.dictionary, ∀ b,
    s.known scope.request (r.question c) = some b → r.answer scope.user c = .ok b

variable {scope : RequestScope} {rs : List Request} {s s' : Session}

theorem Consistent.of_quiet (hs : s.Consistent scope rs) (h : s.Quiet s') :
    s'.Consistent scope rs where
  opened := by
    rw [Opened, h.requests]
    exact hs.opened
  known r hr c hc b hb := by
    rw [known_of_requests_eq h.requests] at hb
    exact hs.known r hr c hc b hb

/-- A request that was just opened remembers nothing. -/
theorem consistent_openScope (service : Service) (user : User) (s : Session) :
    (service.openScope user s).2.Consistent (service.openScope user s).1 rs where
  opened := opened_openRequest s service.initialCapacity
  known r _ c _ b hb := by
    have hnone := known_openRequest s service.initialCapacity (r.question c)
    exact absurd (hnone.symm.trans hb) (by simp)

/-- **Asking keeps what is remembered in line with the checks**, and gets what the check says. -/
theorem Consistent.ask (hs : s.Consistent scope rs)
    (hrs : Request.Coherent scope.dictionary scope.user rs) {r : Request} (hr : r ∈ rs) {l : Leaf}
    {p : Phase} (hl : l ∈ (r.tree scope p).leaves) (hsteady : l.check.procedure.Steady) :
    (s.ask l).1 = l.reply ∧ (s.ask l).2.Consistent scope rs := by
  have hfits : l.Fits scope ⟨r.category, r.resource, r.field, r.change⟩ p :=
    RequestScope.fits_of_mem_tree l hl
  have hcheck := Request.check_mem_checks hl
  have hanswer : (s.ask l).1 = l.reply := by
    rw [ask_fst, hfits.request_eq]
    cases hknown : s.known scope.request l.question with
    | none => exact hsteady _ _ _
    | some b =>
      rw [hfits.question_eq] at hknown
      rw [hfits.reply_eq, hs.known r hr l.check hcheck b hknown]
  refine ⟨hanswer, (opened_ask l s).mpr hs.opened, fun r' hr' c hc b hb => ?_⟩
  rcases known_of_known_ask hb with hold | ⟨⟨-, hquestion⟩, hnew⟩
  · exact hs.known r' hr' c hc b hold
  · -- the answer that was just remembered serves both requests
    rw [hanswer, hfits.reply_eq] at hnew
    obtain ⟨name, hname⟩ := Request.exists_check?_of_mem_checks hc
    obtain rfl : c = l.check := Dictionary.procedure_eq_of_id_eq hname hfits.bound
      (congrArg Question.check hquestion)
    exact hrs r hr r' hr' l.check hcheck hc (hquestion.trans hfits.question_eq).symm b hnew

end Session

/-! ## 4. The decision about a request on its own -/

/-- The evaluation of the tree of a request where every check is asked anew. -/
def Request.imagined (r : Request) (d : Dictionary) (user : User) (p : Phase) : Evaluation Unit :=
  (r.tree ⟨d, user, 0⟩ p).evaluateWith (fun l u => (l.reply, u)) ()

/-- The decision about a request where every check is asked anew. -/
def Service.opinion (service : Service) (d : Dictionary) (user : User) (r : Request) : Decision :=
  match r.obstacle? ⟨d, user, 0⟩ with
  | some f => .closed f
  | none => service.judge (r.imagined d user .preview) (r.imagined d user .commit)

/-- Two trees that cannot be told apart, the first asked in a session that remembers what the
checks say, the second anew. -/
def Tree.AskedAnew (scope : RequestScope) (rs : List Request) : Tree → Tree → Prop :=
  Tree.Alike (fun l s => Session.ask l s) (fun l u => (l.reply, u))
    fun s (_ : Unit) => s.Consistent scope rs

section Opinion

variable {scope : RequestScope} {rs : List Request}
  (hsteady : ∀ name c, scope.dictionary.check? name = some c → c.procedure.Steady)
  (hrs : Request.Coherent scope.dictionary scope.user rs)

include hsteady hrs

/-- It does not show whether a tree of the batch is asked anew. -/
theorem Request.askedAnew_tree {r : Request} (hr : r ∈ rs) (p : Phase) :
    Tree.AskedAnew scope rs (r.tree scope p) (r.tree ⟨scope.dictionary, scope.user, 0⟩ p) := by
  -- only for leaves of the request is it known what the session remembers, so the relation is
  -- claimed for those alone
  let scope₀ : RequestScope := ⟨scope.dictionary, scope.user, 0⟩
  let condition : Condition := ⟨r.category, r.resource, r.field, r.change⟩
  let M : Tree → Tree → Prop := fun t t' =>
    (∀ l ∈ t.leaves, l ∈ (r.tree scope p).leaves) → Tree.AskedAnew scope rs t t'
  have congruent : Tree.Congruent M := Tree.congruent_alike.within _
  have asked : ∀ c : NamedCheck, scope.dictionary.check? c.name = some c.check →
      M (.ofLeaf ⟨c.name, c.check, scope.situation condition p⟩)
        (.ofLeaf ⟨c.name, c.check, scope₀.situation condition p⟩) := by
    intro c hc hleaf
    refine ⟨rfl, fun s _ hs => ?_⟩
    obtain ⟨hanswer, hkept⟩ :=
      hs.ask hrs hr (hleaf _ List.mem_cons_self) (hsteady c.name c.check hc)
    refine .asked rfl (hanswer.trans ?_) hkept
    cases p <;> rfl
  have hall : M (r.tree scope p) (r.tree scope₀ p) := by
    refine RequestScope.tree_related_across rfl congruent fun c hc => ?_
    exact Phase.leaf_related (asked c hc) fun _ => Tree.alike_later c.name
  exact hall fun _ hl => hl

/-- **In such a session a decision is the opinion**, and the session stays such. -/
theorem Service.decide_eq_opinion (service : Service) {r : Request} (hr : r ∈ rs) {index : Nat}
    (hvalid : r.validate index = .ok ()) {s : Session} (hs : s.Consistent scope rs) :
    (service.decide scope r s).1 = service.opinion scope.dictionary scope.user r ∧
      (service.decide scope r s).2.Consistent scope rs := by
  have hplanned : (r.planned scope s).Consistent scope rs :=
    hs.of_quiet (scope.plan_quiet r.resource r.category r.field r.change s)
  have hopinion : service.opinion scope.dictionary scope.user r =
      match r.obstacle? scope with
      | some f => .closed f
      | none => service.judge (r.imagined scope.dictionary scope.user .preview)
          (r.imagined scope.dictionary scope.user .commit) := rfl
  rw [hopinion]
  cases ho : r.obstacle? scope with
  | some f =>
    rw [service.decide_of_obstacle hvalid ho]
    exact ⟨rfl, hplanned.of_quiet (Session.quiet_report _ _)⟩
  | none =>
    have hpreview := (r.askedAnew_tree hsteady hrs hr .preview).evaluate _ () hplanned
    change (r.previewed scope s).Alike _ (r.imagined _ _ .preview) at hpreview
    have hcommit := (r.askedAnew_tree hsteady hrs hr .commit).evaluate _ ()
      (hpreview.state.of_quiet (Session.quiet_report _ (.committing 1)))
    change (r.committed scope s).Alike _ (r.imagined _ _ .commit) at hcommit
    obtain ⟨hdecision, hquiet⟩ := service.decide_judged (s := s) hvalid ho
    refine ⟨hdecision.trans (service.judge_eq_of_alike hpreview hcommit), ?_⟩
    rcases hquiet with hquiet | hquiet
    · exact hpreview.state.of_quiet hquiet
    · exact hcommit.state.of_quiet hquiet

end Opinion

/-! ## 5. Batches -/

namespace Service

variable (service : Service) (user : User)

/-- A request gets the opinion about it in a call of its own. -/
theorem authorize_eq_opinion
    (hsteady : ∀ name c, service.dictionary.check? name = some c → c.procedure.Steady)
    {r : Request} (hvalid : r.validate 0 = .ok ()) (s : Session) :
    ∃ s', service.authorize user r s =
      (.ok (service.opinion service.dictionary user r), s') := by
  let scope := (service.openScope user s).1
  let start := (service.openScope user s).2
  have hdecide : (service.decide scope r start).1 = service.opinion service.dictionary user r ∧
      (service.decide scope r start).2.Consistent scope [r] :=
    service.decide_eq_opinion hsteady (r.coherent_singleton user _) (List.mem_singleton_self r)
      hvalid (Session.consistent_openScope service user s)
  obtain ⟨s', hcall⟩ := service.authorize_of_validate user hvalid s
  exact ⟨s', hcall.trans (congrArg (fun d => (Except.ok d, s')) hdecide.1)⟩

/-- **A batch decides each request on its own.**  If checks answer by what they are shown, and
requests that put one question get one answer, then an admitted batch gets as many decisions as it
has requests, in their order, and each is the one that its request gets alone. -/
theorem authorizeBatch_eq_alone {rs : List Request}
    (hsteady : ∀ name c, service.dictionary.check? name = some c → c.procedure.Steady)
    (hrs : Request.Coherent service.dictionary user rs)
    (hvalid : Request.validateBatch rs = .ok ()) (s : Session) :
    ∃ ds s', service.authorizeBatch user rs s = (.ok ds, s') ∧
      List.Forall₂ (fun r d => ∀ t, ∃ t', service.authorize user r t = (.ok d, t')) rs ds := by
  let scope := (service.openScope user s).1
  have hcoherent : Request.Coherent scope.dictionary scope.user rs := hrs
  have hopen : (service.openScope user s).2.Consistent scope rs :=
    Session.consistent_openScope service user s
  have hdecide : ∀ r ∈ rs, ∀ t : Session, t.Consistent scope rs →
      (∀ t₁, ∃ t', service.authorize user r t₁ = (.ok (service.decide scope r t).1, t')) ∧
        (service.decide scope r t).2.Consistent scope rs := by
    intro r hr t ht
    obtain ⟨index, hindex⟩ := Request.validate_of_validateBatch hvalid r hr
    have hopinion : (service.decide scope r t).1 = service.opinion service.dictionary user r ∧
        (service.decide scope r t).2.Consistent scope rs :=
      service.decide_eq_opinion hsteady hcoherent hr hindex ht
    refine ⟨fun t₁ => ?_, hopinion.2⟩
    rw [hopinion.1]
    exact service.authorize_eq_opinion user hsteady (Request.validate_of_validate hindex 0) t₁
  obtain ⟨s', hcall⟩ := service.authorizeBatch_of_validate user hvalid s
  refine ⟨_, s', hcall, ?_⟩
  exact service.decideAll_forall
    (P := fun r d => ∀ t, ∃ t', service.authorize user r t = (.ok d, t')) hdecide hopen

end Service

namespace Specimen

/-- A book, with the state of its text. -/
def bookIn (state : String) : Resource :=
  ⟨"book", some "1", Supply.nth 0, .ofList [("state", .string state)]⟩

/-- Published books may be read. -/
def library : Service := .ofDictionary ((Dictionary.empty.addCheck "published"
  (.custom .user fun _ ctx => .ok ((ctx.resource.attributes.find? "state").any
    fun state => state.same (.string "published")))).addType
      ((Declaration.bare "book").permission .read "published"))

theorem steady_library : ∀ name c, library.dictionary.check? name = some c →
    c.procedure.Steady := by
  intro name c hc
  have hmem : c.procedure ∈ [_] := Dictionary.mem_shelf_of_check? hc
  rw [List.mem_singleton.mp hmem]
  exact fun _ _ _ => rfl

/-- The question whether a book may be read. -/
def reading (state : String) : Request := .whole (bookIn state) .read

end Specimen

namespace Service

open Specimen

/-- Three requests, the last of which shares an answer with the first, and one of which fails. -/
theorem authorizeBatch_eq_alone_library :
    let rs := [reading "published", .whole ⟨"ghost", some "1", Supply.nth 1, .empty⟩ .read,
      reading "published"]
    Request.Coherent library.dictionary .anonymous rs ∧ Request.validateBatch rs = .ok () ∧
    ∃ ds s', library.authorizeBatch .anonymous rs .initial = (.ok ds, s') ∧
      List.Forall₂ (fun r d => ∀ t, ∃ t', library.authorize .anonymous r t = (.ok d, t'))
        rs ds := by
  intro rs
  have hcoherent : Request.Coherent library.dictionary .anonymous rs := by
    refine Request.coherent_of_injective _ _ ?_ ?_
    · simp [rs, reading, Request.whole, bookIn, Resource.identity]
    · simp [rs, reading, Request.whole]
  have hvalid : Request.validateBatch rs = .ok () := by rfl
  exact ⟨hcoherent, hvalid,
    library.authorizeBatch_eq_alone .anonymous steady_library hcoherent hvalid .initial⟩

/-- **Sharing shows where a check is shown two things under one question.**  A batch that asks for
a book twice, first as it is published and then as a draft, lets the draft be read. -/
theorem sharing_shows :
    let rs := [reading "published", reading "draft"]
    (∀ name c, library.dictionary.check? name = some c → c.procedure.Steady) ∧
    Request.validateBatch rs = .ok () ∧
    ∃ ds s', library.authorizeBatch .anonymous rs .initial = (.ok ds, s') ∧
      ¬ List.Forall₂ (fun r d => ∀ t, ∃ t', library.authorize .anonymous r t = (.ok d, t'))
        rs ds := by
  intro rs
  have hvalid : Request.validateBatch rs = .ok () := by rfl
  have hbatch : (library.authorizeBatch .anonymous rs .initial).1.toOption.map
      (List.map Decision.allowed) = some [true, true] := by rfl
  have halone : (library.authorize .anonymous (reading "draft") .initial).1.toOption.map
      Decision.allowed = some false := by rfl
  obtain ⟨s', hcall⟩ := library.authorizeBatch_of_validate .anonymous hvalid .initial
  refine ⟨steady_library, hvalid, _, s', hcall, fun h => ?_⟩
  rw [hcall] at hbatch
  obtain ⟨d, ds, -, htail, hds⟩ := List.forall₂_cons_left_iff.mp h
  obtain ⟨d', ds', hdraft, -, hds'⟩ := List.forall₂_cons_left_iff.mp htail
  rw [hds, hds'] at hbatch
  obtain ⟨t', ht'⟩ := hdraft .initial
  rw [ht'] at halone
  have hyes : d'.allowed = true := by
    have := Option.some.inj hbatch
    simp only [List.map_cons, List.cons.injEq] at this
    exact this.2.1
  have hno : d'.allowed = false := Option.some.inj halone
  exact Bool.false_ne_true (hno.symm.trans hyes)

end Service

end AccessRules
