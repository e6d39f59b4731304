/-
# The service computes the value of the rule

A decision goes through two trees with different leaves, stops early in each, keeps statuses and
shares remembered answers between them.  If checks answer by what they are shown, and never raise
an error, then none of this can be seen from outside: the decision is the two-valued value of the
rule of the request (`Request.verdict`), which mentions neither phases nor trees nor sessions.

The invariant is `Session.Truthful`: what the request remembers is what the checks say.  It holds
when the request is opened, every question keeps it, and it makes the value of either tree the one
that `Tree.evaluateWith_kleene` computes.
-/
import AccessRules.Proofs.Decision

namespace AccessRules

/-! ## 1. The verdict -/

/-- The yes or no of a check in a context, if it answers by that alone. -/
def Procedure.affirms (p : Procedure) (ctx : Context) : Bool :=
  (p.answer [] ctx).toOption.getD false

theorem Procedure.answer_eq_affirms {p : Procedure} (hsteady : p.Steady) (hcalm : p.Calm)
    (runs : List Run) (ctx : Context) : p.answer runs ctx = .ok (p.affirms ctx) := by
  obtain ⟨b, hb⟩ := hcalm [] ctx
  rw [affirms, hsteady runs [] ctx, hb]
  rfl

namespace Dictionary

/-- What the check of a name says; a user check is shown no change. -/
def affirms (d : Dictionary) (user : User) (resource : Resource) (change : Option Change)
    (name : String) : Bool :=
  match d.check? name with
  | some c => c.procedure.affirms ⟨resource, c.visibleChange change, user⟩
  | none => false

/-- The value of the rule that is declared at a place, given a value for every name. -/
def ruleValue? (d : Dictionary) (v : String → Bool) (typeName : String) (category : Category)
    (place : Option String) : Option Bool :=
  (d.declared? typeName category place).bind fun text =>
    (Rule.parse text).toOption.map fun r => r.value v

end Dictionary

/-- The value of the rule of a request.  For a field that is its own rule, else the rule of the
type, else a yes; for the resource as a whole any rule of a field will do, or else the rule of the
type, or a yes where there is none. -/
def Request.verdict (r : Request) (d : Dictionary) (user : User) : Bool :=
  let rule? := d.ruleValue? (d.affirms user r.resource r.change) r.resource.typeName r.category
  match r.field with
  | some field => (rule? (some field)).getD ((rule? none).getD true)
  | none =>
    (d.fieldsWithRule r.resource.typeName r.category).any
      (fun field => (rule? (some field)).getD false) || (rule? none).getD true

/-! ## 2. The value of a tree with given leaves -/

/-- A disjunction over what is there is one over all, with a no for what is not. -/
theorem any_filterMap_eq {α β : Type} {l : List α} {f : α → Option β} {w : β → Bool}
    {g : α → Option Bool} (h : ∀ a ∈ l, g a = (f a).map w) :
    (l.filterMap f).any w = l.any fun a => (g a).getD false := by
  induction l with
  | nil => rfl
  | cons a l ih =>
    obtain ⟨ha, hl⟩ := List.forall_mem_cons.mp h
    rw [List.filterMap_cons, List.any_cons, ha, ← ih hl]
    cases f a <;> rfl

section Kleene

variable {α : Type} {v : Leaf → Bool} {leaf : α → Tree} {w : α → Bool}

theorem Formula.kleene_tree {φ : Formula α}
    (h : ∀ a ∈ φ.leaves, (leaf a).kleene v = .ofBool (w a)) :
    (φ.tree leaf).kleene v = .ofBool (φ.value w) := by
  induction φ with
  | leaf a => exact h a (List.mem_singleton_self a)
  | and l r ihl ihr =>
    obtain ⟨hl, hr⟩ := List.forall_mem_append.mp h
    rw [tree, Tree.kleene, ihl hl, ihr hr, Status.ofBool_and, value]
  | or l r ihl ihr =>
    obtain ⟨hl, hr⟩ := List.forall_mem_append.mp h
    rw [tree, Tree.kleene, ihl hl, ihr hr, Status.ofBool_or, value]
  | not c ih => rw [tree, Tree.kleene, ih h, Status.ofBool_not, value]

theorem Tree.kleene_anyOf {l : List α} (h : ∀ a ∈ l, (leaf a).kleene v = .ofBool (w a)) :
    (Tree.anyOf (l.map leaf)).kleene v = .ofBool (l.any w) := by
  have fold : ∀ l : List α, (∀ a ∈ l, (leaf a).kleene v = .ofBool (w a)) →
      ∀ t b, Tree.kleene v t = .ofBool b →
        ((l.map leaf).foldl (fun l r => .or l r .unevaluated) t).kleene v =
          .ofBool (b || l.any w) := by
    intro l hl
    induction l with
    | nil =>
      intro t b ht
      rw [List.any_nil, Bool.or_false]
      exact ht
    | cons a l ih =>
      obtain ⟨ha, hl⟩ := List.forall_mem_cons.mp hl
      intro t b ht
      have hor : (Tree.or t (leaf a) .unevaluated).kleene v = .ofBool (b || w a) := by
        rw [kleene, ht, ha, Status.ofBool_or]
      rw [List.any_cons, ← Bool.or_assoc]
      exact ih hl _ _ hor
  cases l with
  | nil => rfl
  | cons a l =>
    obtain ⟨ha, hl⟩ := List.forall_mem_cons.mp h
    exact fold l hl (leaf a) (w a) ha

end Kleene

/-! ## 3. Both trees of a plan -/

/-- What the check at a leaf says. -/
def Leaf.affirms (l : Leaf) : Bool := l.check.procedure.affirms l.context

/-- A usable rule has the value of the rule as it is declared. -/
theorem Dictionary.map_rule? {d : Dictionary} {typeName : String} {category : Category}
    {place : Option String} (h : d.fault? typeName category place = none) (v : String → Bool) :
    (d.rule? typeName category place).map (fun r => r.formula.value fun c => v c.name) =
      d.ruleValue? v typeName category place := by
  rw [fault?] at h
  rw [rule?, ruleValue?]
  cases ht : d.declared? typeName category place with
  | none => rfl
  | some text =>
    rw [ht] at h
    cases hc : d.compile text with
    | error e => simp only [hc, reduceCtorEq] at h
    | ok rule =>
      obtain ⟨r, hr, hreplaces⟩ := compile_eq_ok hc
      have hvalue : rule.formula.value (fun c => v c.name) = r.value v := by
        refine hreplaces.value_eq fun name c hname => ?_
        rw [(check?_of_bindName hname).1]
      rw [Option.bind_some, Option.bind_some, hc, hr]
      exact congrArg some hvalue

namespace RequestScope

variable {scope : RequestScope} {resource : Resource} {category : Category}
  {field : Option String} {change : Option Change}

/-- The commit tree of a usable rule has the value of the rule. -/
theorem kleene_rule {place : Option String} {r : BoundRule}
    (h : scope.dictionary.rule? resource.typeName category place = some r) :
    (r.tree .commit (scope.situation ⟨category, resource, field, change⟩ .commit)).kleene
        Leaf.affirms =
      .ofBool (r.formula.value fun c =>
        scope.dictionary.affirms scope.user resource change c.name) := by
  refine Formula.kleene_tree fun c hc => ?_
  have hbound := Dictionary.check?_of_mem_rule h hc
  simp only [Dictionary.affirms, hbound]
  rfl

section Commit

variable {condition : Condition} {entity : Option BoundRule} {w : BoundRule → Bool}
  (hentity : ∀ r ∈ entity, (r.tree .commit (scope.situation condition .commit)).kleene
    Leaf.affirms = .ofBool (w r))

include hentity

theorem kleene_wholeTree {fields : List BoundRule}
    (hfields : ∀ r ∈ fields, (r.tree .commit (scope.situation condition .commit)).kleene
      Leaf.affirms = .ofBool (w r)) :
    (scope.wholeTree condition entity fields .commit).kleene Leaf.affirms =
      .ofBool (fields.any w || (entity.map w).getD true) := by
  rw [wholeTree, Tree.forResource, Tree.kleene, Tree.kleene_anyOf hfields, ← Status.ofBool_or]
  cases entity with
  | none => rfl
  | some r => exact congrArg (Status.or _) (hentity r rfl)

theorem kleene_fieldTree {field : Option BoundRule}
    (hfield : ∀ r ∈ field, (r.tree .commit (scope.situation condition .commit)).kleene
      Leaf.affirms = .ofBool (w r)) :
    (scope.fieldTree condition entity field .commit).kleene Leaf.affirms =
      .ofBool ((field.map w).getD ((entity.map w).getD true)) := by
  cases field with
  | some r => exact hfield r rfl
  | none =>
    cases entity with
    | some r => exact hentity r rfl
    | none => rfl

end Commit

/-- **The commit tree comes to the verdict.** -/
theorem kleene_commit {r : Request} (h : r.obstacle? scope = none) :
    (r.tree scope .commit).kleene Leaf.affirms =
      .ofBool (r.verdict scope.dictionary scope.user) := by
  obtain ⟨resource, category, field, change⟩ := r
  have hclear := Dictionary.fault?_eq_none_of_unobstructed h
  let v := scope.dictionary.affirms scope.user resource change
  have hvalue : ∀ place ∈ scope.dictionary.places resource.typeName category field,
      scope.dictionary.ruleValue? v resource.typeName category place =
        (scope.dictionary.rule? resource.typeName category place).map
          fun r => r.formula.value fun c => v c.name :=
    fun place hplace => (Dictionary.map_rule? (hclear place hplace) v).symm
  cases field with
  | none =>
    obtain ⟨hentity, hfields⟩ := List.forall_mem_cons.mp hvalue
    refine (kleene_wholeTree (fun r hr => kleene_rule hr) fun r hr => ?_).trans ?_
    · obtain ⟨f, -, hf⟩ := List.mem_filterMap.mp hr
      exact kleene_rule hf
    · rw [← hentity, any_filterMap_eq fun f hf => hfields (some f) (List.mem_map_of_mem hf)]
      rfl
  | some field =>
    obtain ⟨hentity, hown⟩ := List.forall_mem_cons.mp hvalue
    have hfield := hown (some field) (List.mem_singleton_self _)
    refine (kleene_fieldTree (fun r hr => kleene_rule hr) fun r hr => kleene_rule hr).trans ?_
    rw [← hentity, ← hfield]
    rfl

/-- The preview tree says no more than the commit tree, and nothing else. -/
theorem kleene_refines :
    ((scope.tree resource category field change .preview).kleene Leaf.affirms).Refines
      ((scope.tree resource category field change .commit).kleene Leaf.affirms) := by
  refine tree_related
    (M := fun t t' => (t.kleene Leaf.affirms).Refines (t'.kleene Leaf.affirms)) ?_ ?_
  · exact ⟨fun _ _ => .refl _, .and, .or, .negate, fun _ _ _ _ _ => .or, fun _ _ _ => id,
      fun _ _ _ => id, fun _ => .refl _⟩
  · intro c _
    cases hkind : c.check.kind with
    | user =>
      rw [Phase.leaf_of_user _ _ hkind, Phase.leaf_of_user _ _ hkind]
      have hcontext : (Leaf.mk c.name c.check (scope.situation ⟨category, resource, field, change⟩
          .preview)).context = (Leaf.mk c.name c.check (scope.situation
          ⟨category, resource, field, change⟩ .commit)).context := by
        simp only [Leaf.context, Check.visibleChange, hkind, situation]
      refine .inr ?_
      simp only [Tree.ofLeaf, Tree.kleene, Leaf.affirms, hcontext]
    | operation =>
      rw [Phase.leaf_of_operation _ hkind]
      exact Status.refines_deferred _

end RequestScope

/-! ## 4. Sessions that remember the truth -/

/-- Two leaves of one plan that put one question get one answer: a user check is shown no change,
and an operation check is asked in the commit alone. -/
theorem Leaf.Fits.affirms_eq {scope : RequestScope} {condition : Condition} {l l' : Leaf}
    {p p' : Phase} (h : l.Fits scope condition p) (h' : l'.Fits scope condition p')
    (hquestion : l.question = l'.question) : l.affirms = l'.affirms := by
  obtain ⟨name, check, situation⟩ := l
  obtain ⟨name', check', situation'⟩ := l'
  obtain ⟨hbound, hsituation, huser⟩ := h
  obtain ⟨hbound', hsituation', huser'⟩ := h'
  obtain rfl : check = check' :=
    Dictionary.procedure_eq_of_id_eq hbound hbound' (congrArg Question.check hquestion)
  cases hsituation
  cases hsituation'
  cases hkind : check.kind with
  | user =>
    simp only [affirms, context, Check.visibleChange, hkind]
    cases p <;> cases p' <;> rfl
  | operation =>
    have commit : ∀ {p : Phase}, (p = .preview → check.kind = .user) → p = .commit := by
      intro p hp
      cases p with
      | commit => rfl
      | preview =>
        rw [hkind] at hp
        cases hp rfl
    rw [commit huser, commit huser']
    rfl

namespace Session

/-- What the request remembers of the questions of a plan is what their checks say. -/
structure Truthful (scope : RequestScope) (condition : Condition) (s : Session) : Prop where
  opened : s.Opened scope.request
  known : ∀ (l : Leaf) (p : Phase) (b : Bool), l.Fits scope condition p →
    s.known scope.request l.question = some b → b = l.affirms

variable {scope : RequestScope} {condition : Condition} {s : Session} {l : Leaf} {p : Phase}

/-- **Asking keeps the truth**, and gets it. -/
theorem Truthful.ask (hs : s.Truthful scope condition) (hl : l.Fits scope condition p)
    (hsteady : l.check.procedure.Steady) (hcalm : l.check.procedure.Calm) :
    (s.ask l).1 = .ok l.affirms ∧ (s.ask l).2.Truthful scope condition := by
  have hrequest : l.situation.request = scope.request := by
    rw [hl.situation]
    cases p <;> rfl
  have hanswer : (s.ask l).1 = .ok l.affirms := by
    rw [ask_fst, hrequest]
    cases hknown : s.known scope.request l.question with
    | none => exact Procedure.answer_eq_affirms hsteady hcalm _ _
    | some b => exact congrArg Except.ok (hs.known l p b hl hknown)
  refine ⟨hanswer, (opened_ask l s).mpr hs.opened, fun l' p' b hl' hb => ?_⟩
  rcases known_of_known_ask hb with hold | ⟨⟨-, hquestion⟩, hnew⟩
  · exact hs.known l' p' b hl' hold
  · rw [hanswer] at hnew
    rw [← Except.ok.inj hnew]
    exact hl.affirms_eq hl' hquestion.symm

/-- Whatever leaves the answers of requests alone keeps the truth. -/
theorem Truthful.of_requests_eq {s' : Session} (hs : s.Truthful scope condition)
    (h : s'.requests = s.requests) : s'.Truthful scope condition where
  opened := by
    rw [Opened, h]
    exact hs.opened
  known l p b hl hb := by
    rw [known_of_requests_eq h] at hb
    exact hs.known l p b hl hb

/-- A request starts in the truth. -/
theorem truthful_openRequest (d : Dictionary) (user : User) (s : Session) (capacity : Nat)
    {condition : Condition} : (s.openRequest capacity).2.Truthful
      ⟨d, user, (s.openRequest capacity).1⟩ condition where
  opened := opened_openRequest s capacity
  known l p b _ hb := by
    rw [known_openRequest] at hb
    cases hb

end Session

/-- In a session that remembers the truth, either tree comes to its value and the truth stays. -/
theorem RequestScope.evaluate_tree {scope : RequestScope} {resource : Resource}
    {category : Category} {field : Option String} {change : Option Change} {p : Phase}
    (hchecks : ∀ name c, scope.dictionary.check? name = some c →
      c.procedure.Steady ∧ c.procedure.Calm) (s : Session)
    (hs : s.Truthful scope ⟨category, resource, field, change⟩) :
    ((scope.tree resource category field change p).evaluate s).result =
        .ok ((scope.tree resource category field change p).kleene Leaf.affirms) ∧
      ((scope.tree resource category field change p).evaluate s).state.Truthful scope
        ⟨category, resource, field, change⟩ := by
  refine Tree.evaluateWith_kleene fresh_tree (fun l hl s hs => ?_) s hs
  have hfits := fits_of_mem_tree l hl
  obtain ⟨hsteady, hcalm⟩ := hchecks l.name l.check hfits.bound
  exact hs.ask hfits hsteady hcalm

/-! ## 5. The decision -/

namespace Service

variable (service : Service) {scope : RequestScope} {r : Request} {s : Session}

theorem decide_eq_verdict {index : Nat} (hchecks : ∀ name c, scope.dictionary.check? name = some c →
      c.procedure.Steady ∧ c.procedure.Calm)
    (hvalid : r.validate index = .ok ()) (hclear : r.obstacle? scope = none)
    (hs : s.Truthful scope ⟨r.category, r.resource, r.field, r.change⟩) :
    ∃ diagnostic s', service.decide scope r s =
      (⟨r.verdict scope.dictionary scope.user, diagnostic, none⟩, s') := by
  have heval := evaluate_eq_take (s := s) hvalid hclear
  have hp := r.evaluate_preview scope s
  have hc := r.evaluate_commit scope s
  have hplanned : (r.planned scope s).requests = s.requests :=
    (scope.plan_quiet r.resource r.category r.field r.change s).2
  obtain ⟨hpreview, htrue⟩ := RequestScope.evaluate_tree (p := .preview) hchecks _
    (hs.of_requests_eq hplanned)
  change (r.previewed scope s).result = _ at hpreview
  obtain ⟨hcommit, -⟩ := RequestScope.evaluate_tree (p := .commit) hchecks
    ((r.previewed scope s).state.report (.committing 1)) (htrue.of_requests_eq rfl)
  change (r.committed scope s).result = _ at hcommit
  have hverdict := RequestScope.kleene_commit hclear
  have hrefines : ((r.tree scope .preview).kleene Leaf.affirms).Refines
      (.ofBool (r.verdict scope.dictionary scope.user)) :=
    hverdict ▸ RequestScope.kleene_refines
  rw [show RequestScope.tree _ _ _ _ _ _ = r.tree scope .commit from rfl, hverdict] at hcommit
  rcases eq_or_ne ((r.tree scope .preview).kleene Leaf.affirms) .failed with hfailed | hne
  · -- a preview that fails has the verdict already
    have hno : r.verdict scope.dictionary scope.user = false := by
      have hfail := hrefines.eq_of_ne (by rw [hfailed]; decide)
      rw [hfailed] at hfail
      cases hb : r.verdict scope.dictionary scope.user with
      | false => rfl
      | true =>
        rw [hb] at hfail
        cases hfail
    obtain ⟨_, _, t, -, htake⟩ :=
      Plan.take_of_preview_failed hp (hpreview.trans (congrArg _ hfailed))
    exact ⟨_, _, by rw [service.decide_of_forbidden (heval.trans htake), hno]⟩
  · cases hb : r.verdict scope.dictionary scope.user with
    | true =>
      rw [hb] at hcommit
      have htake := Plan.take_of_commit_passed hp hc hpreview hne hcommit
      exact ⟨_, _, service.decide_of_ok (heval.trans htake)⟩
    | false =>
      rw [hb] at hcommit
      obtain ⟨_, _, t, -, htake⟩ := Plan.take_of_commit_failed hp hc hpreview hne hcommit
      exact ⟨_, _, service.decide_of_forbidden (heval.trans htake)⟩

/-- **A decision is the verdict**, in every session, if the checks answer by what they are shown
and raise no error, and nothing keeps the request from being decided. -/
theorem authorize_eq_verdict (user : User) (r : Request) (s : Session)
    (hchecks : ∀ name c, service.dictionary.check? name = some c →
      c.procedure.Steady ∧ c.procedure.Calm)
    (hvalid : r.validate 0 = .ok ())
    (hclear : service.dictionary.obstacle? r.resource.typeName r.category r.field = none) :
    ∃ diagnostic s', service.authorize user r s =
      (.ok ⟨r.verdict service.dictionary user, diagnostic, none⟩, s') := by
  let scope := (service.openScope user s).1
  let start := (service.openScope user s).2
  have hdecide : ∃ diagnostic s', service.decide scope r start =
      (⟨r.verdict service.dictionary user, diagnostic, none⟩, s') :=
    service.decide_eq_verdict hchecks hvalid hclear (Session.truthful_openRequest _ user s _)
  obtain ⟨diagnostic, s', hdecide⟩ := hdecide
  refine ⟨diagnostic, s', ?_⟩
  rw [authorize, hvalid]
  change (Except.ok (service.decide scope r start).1, (service.decide scope r start).2) = _
  rw [hdecide]

/-- Somebody else than the owner may change the title, and the check of the change sees it. -/
theorem authorize_eq_verdict_retitling :
    let service := Service.ofDictionary Specimen.dictionary
    (∀ name c, service.dictionary.check? name = some c →
      c.procedure.Steady ∧ c.procedure.Calm) ∧
    Specimen.request.verdict service.dictionary .anonymous = true ∧
    ∃ diagnostic s', service.authorize .anonymous Specimen.request .initial =
      (.ok ⟨Specimen.request.verdict service.dictionary .anonymous, diagnostic, none⟩, s') := by
  intro service
  have hchecks : ∀ name c, service.dictionary.check? name = some c →
      c.procedure.Steady ∧ c.procedure.Calm := by
    intro name c hc
    have hmem : c.procedure ∈ [_, _] := Dictionary.mem_shelf_of_check? hc
    rcases List.mem_pair.mp hmem with h | h
    · rw [h]
      exact ⟨fun _ _ _ => rfl, fun _ _ => ⟨_, rfl⟩⟩
    · rw [h]
      exact ⟨fun _ _ _ => rfl, fun _ _ => ⟨_, rfl⟩⟩
  exact ⟨hchecks, by rfl, service.authorize_eq_verdict .anonymous Specimen.request .initial hchecks
    (by rfl) (by decide)⟩

end Service

end AccessRules
