/-
# At most one successful run

Within a request a check is run for a question until it answers, and never again: errors are not
kept, so a check may raise any number of them first; a yes or a no is kept, and whoever asks later
gets it.  `Settles` says so of the look-ups of one question, in their order, and ties them to what
the request remembers.

Everything that may be done within a request (planning, evaluating trees as often as one likes, the
two phases, whole batches) asks leaves and nothing else.  So it is enough that asking a leaf keeps
the history of every question in order (`Chronicle.ask`).  `Workspace.Step` is one operation, in
whatever order they come, and `Workspace.Honest` is the invariant: the history is in order, and
every status of a leaf comes from it.
-/
import AccessRules.Proofs.Decision
import Mathlib.Logic.Relation

namespace AccessRules

/-! ## 1. The history of a question -/

/-- A run that raised an error. -/
def LookUp.Raised (u : LookUp) : Prop := u.ran = true ∧ ∃ detail, u.answer = .error detail

/-- The look-ups of one question, among others. -/
def LookUp.about (q : Question) (us : List LookUp) : List LookUp :=
  us.filter fun u => u.leaf.question = q

theorem LookUp.about_concat_self (us : List LookUp) (u : LookUp) :
    about u.leaf.question (us ++ [u]) = about u.leaf.question us ++ [u] := by
  simp [about]

theorem LookUp.about_concat_of_ne {q : Question} (us : List LookUp) {u : LookUp}
    (h : u.leaf.question ≠ q) : about q (us ++ [u]) = about q us := by
  simp [about, h]

/-- The look-ups of one question, in order, where the answer `known` is remembered in the end:
runs that raise errors, then one that answers, and from then on the remembered answer. -/
def Settles (us : List LookUp) : Option Bool → Prop
  | none => ∀ u ∈ us, u.Raised
  | some b => ∃ before u after, us = before ++ u :: after ∧ (∀ x ∈ before, x.Raised) ∧
      (u.ran = true ∧ u.answer = .ok b) ∧ ∀ x ∈ after, x.ran = false ∧ x.answer = .ok b

/-- One more look-up: the check runs unless its answer is remembered. -/
theorem Settles.concat {us : List LookUp} {known : Option Bool} {x : LookUp}
    (h : Settles us known) (hran : x.ran = known.isNone)
    (hknown : ∀ b, known = some b → x.answer = .ok b) :
    Settles (us ++ [x]) x.answer.toOption := by
  cases known with
  | some b =>
    obtain ⟨before, u, after, rfl, hbefore, hu, hafter⟩ := h
    rw [hknown b rfl]
    refine ⟨before, u, after ++ [x], by rw [List.append_assoc, List.cons_append], hbefore, hu, ?_⟩
    exact List.forall_mem_append.mpr ⟨hafter, List.forall_mem_singleton.mpr ⟨hran, hknown b rfl⟩⟩
  | none =>
    cases hanswer : x.answer with
    | error detail =>
      exact List.forall_mem_append.mpr
        ⟨h, List.forall_mem_singleton.mpr ⟨hran, detail, hanswer⟩⟩
    | ok b =>
      exact ⟨us, x, [], rfl, h, ⟨hran, hanswer⟩, List.forall_mem_nil _⟩

/-! ## 2. The chronicle of a request -/

/-- A leaf that may be asked within a request: it asks an implementation of the dictionary. -/
structure Leaf.Posed (l : Leaf) (scope : RequestScope) : Prop where
  request : l.situation.request = scope.request
  implementation : scope.dictionary.implementation? l.check.id = some l.check

/-- What happened in a request since it started: the look-ups `us`, in order, that led from the
session `start` to `s`. -/
structure Chronicle (start : Session) (scope : RequestScope) (s : Session) (us : List LookUp) :
    Prop where
  lookUps : s.lookUps = us.reverse ++ start.lookUps
  opened : s.Opened scope.request
  posed : ∀ u ∈ us, u.leaf.Posed scope
  settles : ∀ q, Settles (LookUp.about q us) (s.known scope.request q)

/-- A tree within a request: its leaves may be asked, and what it says of one is an answer that
the request gave. -/
structure Tree.Honest (t : Tree) (scope : RequestScope) (us : List LookUp) : Prop where
  posed : ∀ l ∈ t.leaves, l.Posed scope
  marked : ∀ m ∈ t.marks, m.2 = .unevaluated ∨
    ∃ u ∈ us, ∃ b, u.leaf = m.1 ∧ u.answer = .ok b ∧ m.2 = .ofBool b

theorem Tree.Honest.append {t : Tree} {scope : RequestScope} {us : List LookUp}
    (h : t.Honest scope us) (vs : List LookUp) : t.Honest scope (us ++ vs) where
  posed := h.posed
  marked m hm := by
    rcases h.marked m hm with hun | ⟨u, hu, hb⟩
    · exact .inl hun
    · exact .inr ⟨u, List.mem_append_left _ hu, hb⟩

section Operations

variable {start : Session} {scope : RequestScope} {s s' : Session} {us : List LookUp}

/-- What neither asks nor touches answers is not told of. -/
theorem Chronicle.of_eq (h : Chronicle start scope s us) (hl : s'.lookUps = s.lookUps)
    (hr : s'.requests = s.requests) : Chronicle start scope s' us where
  lookUps := hl.trans h.lookUps
  opened := by
    rw [Session.Opened, hr]
    exact h.opened
  posed := h.posed
  settles q := by
    rw [Session.known_of_requests_eq hr]
    exact h.settles q

theorem Chronicle.append_nil (h : Chronicle start scope s us) :
    Chronicle start scope s (us ++ []) := by
  rwa [List.append_nil]

/-- **Asking a leaf keeps every history in order.** -/
theorem Chronicle.ask (h : Chronicle start scope s us) {l : Leaf} (hl : l.Posed scope) :
    Chronicle start scope (s.ask l).2
      (us ++ [⟨l, (s.ask l).1, (s.known scope.request l.question).isNone⟩]) where
  lookUps := by
    rw [Session.lookUps_ask, h.lookUps, hl.request, List.reverse_append]
    rfl
  opened := (Session.opened_ask l s).mpr h.opened
  posed := List.forall_mem_append.mpr ⟨h.posed, List.forall_mem_singleton.mpr hl⟩
  settles q := by
    by_cases hq : l.question = q
    · subst hq
      have hself : (s.ask l).2.known scope.request l.question = (s.ask l).1.toOption := by
        rw [← hl.request]
        exact Session.known_ask_self (hl.request ▸ h.opened)
      rw [hself, LookUp.about_concat_self us ⟨l, _, _⟩]
      refine (h.settles l.question).concat rfl fun b hb => ?_
      rw [← hl.request] at hb
      exact (Session.ask_fst l s).trans (by rw [hb])
    · have hother : (s.ask l).2.known scope.request q = s.known scope.request q :=
        Session.known_ask_of_ne s fun h => hq h.2.symm
      rw [hother, LookUp.about_concat_of_ne us hq]
      exact h.settles q

/-! ## 3. Trees -/

/-- Evaluating a tree asks its leaves, and marks them with what they got. -/
theorem Chronicle.evaluate (h : Chronicle start scope s us) {t : Tree} (ht : t.Honest scope us) :
    ∃ vs, Chronicle start scope (t.evaluate s).state (us ++ vs) ∧
      (t.evaluate s).tree.Honest scope (us ++ vs) := by
  -- the chronicle goes on, and its new part is the account of the evaluation
  have hrelated : ∀ us, Chronicle start scope s us →
      ∃ vs, Chronicle start scope (t.evaluate s).state (us ++ vs) := by
    refine Tree.evaluateWith_related (R := fun s s' => ∀ us, Chronicle start scope s us →
      ∃ vs, Chronicle start scope s' (us ++ vs)) ?_ ?_ t ?_ s
    · exact fun _ us h => ⟨[], h.append_nil⟩
    · intro a b c hab hbc us h
      obtain ⟨vs, hvs⟩ := hab us h
      obtain ⟨ws, hws⟩ := hbc (us ++ vs) hvs
      exact ⟨vs ++ ws, List.append_assoc us vs ws ▸ hws⟩
    · exact fun l hl s us h => ⟨_, h.ask (ht.posed l hl)⟩
  obtain ⟨vs, hvs⟩ := hrelated us h
  obtain ⟨ws, hws⟩ := t.evaluate_account s
  have hsame : ws = vs := by
    have hlook := hws.lookUps
    rw [hvs.lookUps, h.lookUps, List.reverse_append, ← List.append_assoc] at hlook
    exact (List.reverse_inj.mp (List.append_cancel_right (List.append_cancel_right hlook))).symm
  subst hsame
  refine ⟨ws, hvs, fun l hl => ?_, fun m hm => ?_⟩
  · obtain ⟨m, hm, rfl⟩ := List.mem_map.mp hl
    rcases hws.marks m hm with hold | ⟨u, hu, b, hleaf, -⟩
    · exact ht.posed m.1 (List.mem_map_of_mem hold)
    · exact hleaf ▸ ht.posed u.leaf (hws.leaves u hu)
  · rcases hws.marks m hm with hold | ⟨u, hu, hb⟩
    · exact (ht.append ws).marked m hold
    · exact .inr ⟨u, List.mem_append_right _ hu, hb⟩

/-- Requiring a tree evaluates it, and at most reports a denial. -/
theorem Chronicle.require (h : Chronicle start scope s us) {t : Tree} (ht : t.Honest scope us) :
    ∃ vs, Chronicle start scope (t.require s).2.2 (us ++ vs) ∧
      (t.require s).2.1.Honest scope (us ++ vs) := by
  obtain ⟨vs, hvs, htree⟩ := h.evaluate ht
  have hquiet : (t.require s).2.2.lookUps = (t.evaluate s).state.lookUps ∧
      (t.require s).2.2.requests = (t.evaluate s).state.requests ∧
      (t.require s).2.1 = (t.evaluate s).tree := by
    simp only [Tree.require, Tree.allows]
    cases (t.evaluate s).result with
    | error f => exact ⟨rfl, rfl, rfl⟩
    | ok st => cases st <;> exact ⟨rfl, rfl, rfl⟩
  obtain ⟨hlookUps, hrequests, hsame⟩ := hquiet
  exact ⟨vs, hvs.of_eq hlookUps hrequests, hsame ▸ htree⟩

theorem Chronicle.requireAll {ts : List Tree} (h : Chronicle start scope s us)
    (hts : ∀ t ∈ ts, t.Honest scope us) :
    ∃ vs, Chronicle start scope (Tree.requireAll ts s).2 (us ++ vs) ∧
      ∀ ts', (Tree.requireAll ts s).1 = .ok ts' → ∀ t ∈ ts', t.Honest scope (us ++ vs) := by
  induction ts generalizing s us with
  | nil =>
    refine ⟨[], h.append_nil, fun ts' hts' => ?_⟩
    cases hts'
    exact List.forall_mem_nil _
  | cons t ts ih =>
    obtain ⟨ht, hts⟩ := List.forall_mem_cons.mp hts
    obtain ⟨vs, hvs, htree⟩ := h.require ht
    rw [Tree.requireAll]
    rcases hrequire : t.require s with ⟨f | _, t', s'⟩
    · rw [hrequire] at hvs
      refine ⟨vs, hvs, fun _ hts' => ?_⟩
      cases hts'
    · rw [hrequire] at hvs htree
      obtain ⟨ws, hws, hrest⟩ := ih hvs fun t ht => (hts t ht).append vs
      rw [List.append_assoc] at hws hrest
      refine ⟨vs ++ ws, ?_⟩
      rcases hall : Tree.requireAll ts s' with ⟨f | ts', s''⟩
      · simp only [hall]
        rw [hall] at hws
        refine ⟨hws, fun _ hts' => ?_⟩
        cases hts'
      · simp only [hall]
        rw [hall] at hws hrest
        refine ⟨hws, fun _ hts' => ?_⟩
        cases hts'
        exact List.forall_mem_cons.mpr ⟨List.append_assoc us vs ws ▸ htree.append ws,
          hrest ts' rfl⟩

/-- A tree that was just planned says nothing yet. -/
theorem RequestScope.honest_tree {resource : Resource} {category : Category}
    {field : Option String} {change : Option Change} (p : Phase) (us : List LookUp) :
    (scope.tree resource category field change p).Honest scope us where
  posed l hl := by
    have hfits := fits_of_mem_tree l hl
    refine ⟨?_, Dictionary.implementation?_of_check? hfits.bound⟩
    rw [hfits.situation]
    cases p <;> rfl
  marked m hm := .inl (fresh_tree.unevaluated m hm)

/-! ## 4. Decisions -/

theorem Chronicle.plan (h : Chronicle start scope s us) (resource : Resource) (category : Category)
    (field : Option String) (change : Option Change) :
    Chronicle start scope (scope.plan resource category field change s).2 us := by
  obtain ⟨hl, hr⟩ := scope.plan_quiet resource category field change s
  exact h.of_eq hl hr

/-- Decisions within a request: the trees that wait are honest. -/
structure TwoPhase.Honest (p : TwoPhase) (scope : RequestScope) (us : List LookUp) : Prop where
  scope_eq : p.scope = scope
  queue : ∀ t ∈ p.queue, t.Honest scope us

theorem TwoPhase.Honest.append {p : TwoPhase} (h : p.Honest scope us) (vs : List LookUp) :
    p.Honest scope (us ++ vs) := ⟨h.scope_eq, fun t ht => (h.queue t ht).append vs⟩

theorem TwoPhase.honest_begin (scope : RequestScope) (us : List LookUp) :
    (TwoPhase.begin scope).Honest scope us := ⟨rfl, List.forall_mem_nil _⟩

section Phases

variable {p : TwoPhase}

theorem Chronicle.preview (h : Chronicle start scope s us) (hp : p.Honest scope us)
    (resource : Resource) (category : Category) (field : Option String) (change : Option Change) :
    ∃ vs, Chronicle start scope
        (p.preview (scope.plan resource category field change s)).2.2 (us ++ vs) ∧
      (p.preview (scope.plan resource category field change s)).2.1.Honest scope (us ++ vs) := by
  have hplan := h.plan resource category field change
  rcases hplanned : scope.plan resource category field change s with ⟨f | plan, s₀⟩
  · rw [hplanned] at hplan
    exact ⟨[], hplan.append_nil, hp.append []⟩
  · rw [hplanned] at hplan
    obtain rfl := RequestScope.plan_eq_ok (congrArg Prod.fst hplanned)
    obtain ⟨vs, hvs, -⟩ := hplan.require (RequestScope.honest_tree .preview us)
    rw [TwoPhase.preview]
    rcases hrequire : Tree.require _ s₀ with ⟨f | _, t, s'⟩
    · rw [hrequire] at hvs
      exact ⟨vs, hvs, hp.append vs⟩
    · rw [hrequire] at hvs
      refine ⟨vs, hvs, hp.scope_eq, List.forall_mem_append.mpr ⟨(hp.append vs).queue, ?_⟩⟩
      exact List.forall_mem_singleton.mpr (RequestScope.honest_tree .commit _)

theorem Chronicle.checkWhole (h : Chronicle start scope s us) (hp : p.Honest scope us)
    (resource : Resource) (category : Category) :
    ∃ vs, Chronicle start scope (p.checkWhole resource category s).2.2 (us ++ vs) ∧
      (p.checkWhole resource category s).2.1.Honest scope (us ++ vs) := by
  rw [TwoPhase.checkWhole, hp.scope_eq]
  exact h.preview hp resource category none none

theorem Chronicle.checkField (h : Chronicle start scope s us) (hp : p.Honest scope us)
    (resource : Resource) (category : Category) (field : String) (change : Option Change) :
    ∃ vs, Chronicle start scope (p.checkField resource category field change s).2.2 (us ++ vs) ∧
      (p.checkField resource category field change s).2.1.Honest scope (us ++ vs) := by
  rw [TwoPhase.checkField, hp.scope_eq]
  exact h.preview hp resource category field change

theorem Chronicle.checkUser (h : Chronicle start scope s us) (hp : p.scope = scope)
    (resource : Resource) (category : Category) :
    ∃ vs, Chronicle start scope (p.checkUser resource category s).2 (us ++ vs) := by
  subst hp
  have hplan : Chronicle start p.scope (p.scope.planWhole resource category none s).2 us :=
    h.plan resource category none none
  rw [TwoPhase.checkUser]
  rcases hplanned : p.scope.planWhole resource category none s with ⟨f | plan, s₀⟩
  · rw [hplanned] at hplan
    exact ⟨[], hplan.append_nil⟩
  · rw [hplanned] at hplan
    have hok : (p.scope.plan resource category none none s).1 = .ok plan :=
      congrArg Prod.fst hplanned
    obtain rfl := RequestScope.plan_eq_ok hok
    obtain ⟨vs, hvs, -⟩ := hplan.require (RequestScope.honest_tree .preview us)
    refine ⟨vs, ?_⟩
    simp only
    rcases hrequire : Tree.require _ s₀ with ⟨r, t, s'⟩
    rw [hrequire] at hvs
    exact hvs

theorem Chronicle.commit (h : Chronicle start scope s us) (hp : p.Honest scope us) :
    ∃ vs, Chronicle start scope (p.commit s).2.2 (us ++ vs) ∧
      (p.commit s).2.1.Honest scope (us ++ vs) ∧
      ∀ ts, (p.commit s).1 = .ok ts → ∀ t ∈ ts, t.Honest scope (us ++ vs) := by
  have hreport : Chronicle start scope (s.report (.committing p.pending)) us := h.of_eq rfl rfl
  obtain ⟨vs, hvs, htrees⟩ := hreport.requireAll hp.queue
  have hempty : ∀ vs, TwoPhase.Honest { p with queue := [] } scope vs :=
    fun _ => ⟨hp.scope_eq, List.forall_mem_nil _⟩
  rw [TwoPhase.commit]
  rcases hall : Tree.requireAll p.queue (s.report (.committing p.pending)) with ⟨f | ts, s'⟩
  · rw [hall] at hvs
    refine ⟨vs, hvs.of_eq rfl rfl, hempty _, fun _ hts => ?_⟩
    cases hts
  · rw [hall] at hvs htrees
    exact ⟨vs, hvs, hempty _, fun _ hts => htrees _ hts⟩

theorem Chronicle.finish {previewed : Except Failure Unit × TwoPhase × Session}
    (h : Chronicle start scope previewed.2.2 us) (hp : previewed.2.1.Honest scope us) :
    ∃ vs, Chronicle start scope (TwoPhase.finish previewed).2 (us ++ vs) := by
  obtain ⟨f | _, p, s⟩ := previewed
  · exact ⟨[], h.append_nil⟩
  · obtain ⟨vs, hvs, -⟩ := h.commit hp
    refine ⟨vs, ?_⟩
    change Chronicle start scope (p.commit s).2.2 _ at hvs
    rw [TwoPhase.finish]
    rcases hcommit : p.commit s with ⟨f | ts, p', s'⟩
    · rw [hcommit] at hvs
      exact hvs
    · rw [hcommit] at hvs
      exact hvs

end Phases

/-- A decision takes both phases on its own. -/
theorem Chronicle.decide (h : Chronicle start scope s us) (service : Service) (r : Request) :
    ∃ vs, Chronicle start scope (service.decide scope r s).2 (us ++ vs) := by
  have hevaluate : ∃ vs, Chronicle start scope (Service.evaluate scope r s).2 (us ++ vs) := by
    rw [Service.evaluate_eq_finish]
    obtain ⟨vs, hvs, hp⟩ := h.preview (TwoPhase.honest_begin scope us) r.resource r.category
      r.field (r.field.bind fun _ => r.change)
    obtain ⟨ws, hws⟩ := hvs.finish hp
    rw [List.append_assoc] at hws
    exact ⟨vs ++ ws, hws⟩
  obtain ⟨vs, hvs⟩ := hevaluate
  refine ⟨vs, ?_⟩
  rw [Service.decide]
  rcases hres : Service.evaluate scope r s with ⟨f | text, s'⟩
  · rw [hres] at hvs
    cases f <;> exact hvs.of_eq rfl rfl
  · rw [hres] at hvs
    exact hvs.of_eq rfl rfl

theorem Chronicle.decideAll (h : Chronicle start scope s us) (service : Service)
    (rs : List Request) :
    ∃ vs, Chronicle start scope (service.decideAll scope rs s).2 (us ++ vs) := by
  induction rs generalizing s us with
  | nil => exact ⟨[], h.append_nil⟩
  | cons r rs ih =>
    obtain ⟨vs, hvs⟩ := h.decide service r
    obtain ⟨ws, hws⟩ := ih hvs
    rw [List.append_assoc] at hws
    exact ⟨vs ++ ws, hws⟩

end Operations

/-! ## 5. Operations in any order -/

/-- What the clients of one request hold: trees, decisions in two phases, and the session. -/
structure Workspace where
  trees : List Tree
  phases : List TwoPhase
  session : Session

/-- One operation within a request.  Nothing here forgets an answer, and everything else may happen
in any order. -/
inductive Workspace.Step (scope : RequestScope) (w : Workspace) : Workspace → Prop where
  /-- Plans a decision and keeps its trees. -/
  | plan (resource : Resource) (category : Category) (field : Option String)
      (change : Option Change) {plan : Plan} {s : Session}
      (h : scope.plan resource category field change w.session = (.ok plan, s)) :
      Step scope w { w with trees := plan.preview :: plan.commit :: w.trees, session := s }
  /-- Fails to plan a decision. -/
  | planFails (resource : Resource) (category : Category) (field : Option String)
      (change : Option Change) {f : Failure} {s : Session}
      (h : scope.plan resource category field change w.session = (.error f, s)) :
      Step scope w { w with session := s }
  /-- Makes a tree by hand, of new leaves and of trees at hand. -/
  | assemble (t : Tree) (hleaves : ∀ l ∈ t.leaves, l.Posed scope)
      (hmarks : ∀ m ∈ t.marks, m.2 = .unevaluated ∨ ∃ t' ∈ w.trees, m ∈ t'.marks) :
      Step scope w { w with trees := t :: w.trees }
  /-- Evaluates a tree, for the first time or again. -/
  | evaluate (i : Nat) {t : Tree} (h : w.trees[i]? = some t) :
      Step scope w { w with
        trees := w.trees.set i (t.evaluate w.session).tree
        session := (t.evaluate w.session).state }
  /-- Evaluates a tree and asks that it does not deny. -/
  | require (i : Nat) {t t' : Tree} {s : Session} {result : Except Failure Unit}
      (hi : w.trees[i]? = some t) (h : t.require w.session = (result, t', s)) :
      Step scope w { w with trees := w.trees.set i t', session := s }
  /-- Begins with decisions in two phases. -/
  | begin : Step scope w { w with phases := .begin scope :: w.phases }
  /-- Previews a decision about a resource as a whole. -/
  | checkWhole (i : Nat) {p p' : TwoPhase} (resource : Resource) (category : Category)
      {s : Session} {result : Except Failure Unit} (hi : w.phases[i]? = some p)
      (h : p.checkWhole resource category w.session = (result, p', s)) :
      Step scope w { w with phases := w.phases.set i p', session := s }
  /-- Previews a decision about one field. -/
  | checkField (i : Nat) {p p' : TwoPhase} (resource : Resource) (category : Category)
      (field : String) (change : Option Change) {s : Session} {result : Except Failure Unit}
      (hi : w.phases[i]? = some p)
      (h : p.checkField resource category field change w.session = (result, p', s)) :
      Step scope w { w with phases := w.phases.set i p', session := s }
  /-- Takes the preview of a decision alone. -/
  | checkUser (i : Nat) {p : TwoPhase} (resource : Resource) (category : Category) {s : Session}
      {result : Except Failure Unit} (hi : w.phases[i]? = some p)
      (h : p.checkUser resource category w.session = (result, s)) :
      Step scope w { w with session := s }
  /-- Commits all decisions that wait, and gets their trees. -/
  | commit (i : Nat) {p p' : TwoPhase} {ts : List Tree} {s : Session} (hi : w.phases[i]? = some p)
      (h : p.commit w.session = (.ok ts, p', s)) :
      Step scope w ⟨ts ++ w.trees, w.phases.set i p', s⟩
  /-- Commits decisions up to one that does not pass. -/
  | commitFails (i : Nat) {p p' : TwoPhase} {f : Failure} {s : Session}
      (hi : w.phases[i]? = some p) (h : p.commit w.session = (.error f, p', s)) :
      Step scope w { w with phases := w.phases.set i p', session := s }
  /-- Decides requests one after the other. -/
  | decideAll (service : Service) (rs : List Request) {ds : List Decision} {s : Session}
      (h : service.decideAll scope rs w.session = (ds, s)) : Step scope w { w with session := s }

namespace Workspace

/-- The trees that may yet be evaluated. -/
def pending (w : Workspace) : List Tree := w.trees ++ w.phases.flatMap (·.queue)

/-- The invariant: the history is in order, and all that is held comes from it. -/
structure Honest (w : Workspace) (start : Session) (scope : RequestScope) (us : List LookUp) :
    Prop where
  chronicle : Chronicle start scope w.session us
  trees : ∀ t ∈ w.trees, t.Honest scope us
  phases : ∀ p ∈ w.phases, p.Honest scope us

variable {start : Session} {scope : RequestScope} {w w' : Workspace} {us : List LookUp}

theorem forall_mem_set {α : Type} {P : α → Prop} {l : List α} (h : ∀ a ∈ l, P a) (i : Nat) {b : α}
    (hb : P b) : ∀ a ∈ l.set i b, P a := by
  intro a ha
  obtain hold | hnew := List.mem_or_eq_of_mem_set ha
  · exact h a hold
  · rw [hnew]
    exact hb

/-- **Every operation keeps the invariant**, and continues the history. -/
theorem Honest.step (h : w.Honest start scope us) (hstep : Step scope w w') :
    ∃ vs, w'.Honest start scope (us ++ vs) := by
  have trees : ∀ vs, ∀ t ∈ w.trees, t.Honest scope (us ++ vs) :=
    fun vs t ht => (h.trees t ht).append vs
  have phases : ∀ vs, ∀ p ∈ w.phases, p.Honest scope (us ++ vs) :=
    fun vs p hp => (h.phases p hp).append vs
  -- an operation that leaves all that is held alone
  have quiet : ∀ {s vs}, Chronicle start scope s (us ++ vs) →
      ∃ vs, Honest { w with session := s } start scope (us ++ vs) :=
    fun hs => ⟨_, hs, trees _, phases _⟩
  cases hstep with
  | plan resource category field change hplan =>
    have hs := h.chronicle.plan resource category field change
    rw [hplan] at hs
    obtain rfl := RequestScope.plan_eq_ok (congrArg Prod.fst hplan)
    refine ⟨[], hs.append_nil, ?_, phases []⟩
    exact List.forall_mem_cons.mpr ⟨RequestScope.honest_tree .preview _,
      List.forall_mem_cons.mpr ⟨RequestScope.honest_tree .commit _, trees []⟩⟩
  | planFails resource category field change hplan =>
    have hs := h.chronicle.plan resource category field change
    rw [hplan] at hs
    exact quiet hs.append_nil
  | assemble t hleaves hmarks =>
    refine ⟨[], h.chronicle.append_nil, ?_, phases []⟩
    refine List.forall_mem_cons.mpr ⟨⟨hleaves, fun m hm => ?_⟩, trees []⟩
    rcases hmarks m hm with hun | ⟨t', ht', hm'⟩
    · exact .inl hun
    · exact (trees [] t' ht').marked m hm'
  | evaluate i hi =>
    obtain ⟨vs, hvs, ht⟩ := h.chronicle.evaluate (h.trees _ (List.mem_of_getElem? hi))
    exact ⟨vs, hvs, forall_mem_set (trees vs) i ht, phases vs⟩
  | require i hi hrequire =>
    obtain ⟨vs, hvs, ht⟩ := h.chronicle.require (h.trees _ (List.mem_of_getElem? hi))
    rw [hrequire] at hvs ht
    exact ⟨vs, hvs, forall_mem_set (trees vs) i ht, phases vs⟩
  | begin =>
    refine ⟨[], h.chronicle.append_nil, trees [], ?_⟩
    exact List.forall_mem_cons.mpr ⟨TwoPhase.honest_begin scope _, phases []⟩
  | checkWhole i resource category hi hcheck =>
    obtain ⟨vs, hvs, hp⟩ :=
      h.chronicle.checkWhole (h.phases _ (List.mem_of_getElem? hi)) resource category
    rw [hcheck] at hvs hp
    exact ⟨vs, hvs, trees vs, forall_mem_set (phases vs) i hp⟩
  | checkField i resource category field change hi hcheck =>
    obtain ⟨vs, hvs, hp⟩ := h.chronicle.checkField (h.phases _ (List.mem_of_getElem? hi)) resource
      category field change
    rw [hcheck] at hvs hp
    exact ⟨vs, hvs, trees vs, forall_mem_set (phases vs) i hp⟩
  | checkUser i resource category hi hcheck =>
    obtain ⟨vs, hvs⟩ := h.chronicle.checkUser (h.phases _ (List.mem_of_getElem? hi)).scope_eq
      resource category
    rw [hcheck] at hvs
    exact quiet hvs
  | commit i hi hcommit =>
    obtain ⟨vs, hvs, hp, hts⟩ := h.chronicle.commit (h.phases _ (List.mem_of_getElem? hi))
    rw [hcommit] at hvs hp hts
    exact ⟨vs, hvs, List.forall_mem_append.mpr ⟨hts _ rfl, trees vs⟩,
      forall_mem_set (phases vs) i hp⟩
  | commitFails i hi hcommit =>
    obtain ⟨vs, hvs, hp, -⟩ := h.chronicle.commit (h.phases _ (List.mem_of_getElem? hi))
    rw [hcommit] at hvs hp
    exact ⟨vs, hvs, trees vs, forall_mem_set (phases vs) i hp⟩
  | decideAll service rs hdecide =>
    obtain ⟨vs, hvs⟩ := h.chronicle.decideAll service rs
    rw [hdecide] at hvs
    exact quiet hvs

/-- Any number of operations keeps the invariant. -/
theorem Honest.run (h : w.Honest start scope us) (hrun : Relation.ReflTransGen (Step scope) w w') :
    ∃ vs, w'.Honest start scope (us ++ vs) := by
  induction hrun with
  | refl => exact ⟨[], by rwa [List.append_nil]⟩
  | tail _ hstep ih =>
    obtain ⟨vs, hvs⟩ := ih
    obtain ⟨ws, hws⟩ := hvs.step hstep
    rw [List.append_assoc] at hws
    exact ⟨vs ++ ws, hws⟩

/-- A request that was just opened has no history. -/
theorem honest_start (d : Dictionary) (user : User) (s : Session) (capacity : Nat) :
    Honest ⟨[], [], (s.openRequest capacity).2⟩ s ⟨d, user, (s.openRequest capacity).1⟩ [] where
  chronicle := {
    lookUps := rfl
    opened := Session.opened_openRequest s capacity
    posed := List.forall_mem_nil _
    settles := fun q => by
      rw [Session.known_openRequest]
      exact List.forall_mem_nil _ }
  trees := List.forall_mem_nil _
  phases := List.forall_mem_nil _

end Workspace

/-! ## 6. What a question is, and how often its check runs -/

/-- Two leaves of one request put the same question exactly if they ask one implementation about
one resource in one category, and about one change if it is an operation check.  The names play
no part. -/
theorem Leaf.Posed.question_eq_iff {scope : RequestScope} {l l' : Leaf} (h : l.Posed scope)
    (h' : l'.Posed scope) : l.question = l'.question ↔
      l.situation.resource.identity = l'.situation.resource.identity ∧ l.check = l'.check ∧
        l.situation.category = l'.situation.category ∧
        (l.check.kind = .operation →
          l.situation.change.map Change.key = l'.situation.change.map Change.key) := by
  have hcheck : l.check.id = l'.check.id → l.check = l'.check := by
    intro hid
    have hsame := h'.implementation
    rw [← hid, h.implementation] at hsame
    exact Option.some.inj hsame
  rw [question, question, Question.mk.injEq]
  constructor
  · rintro ⟨hresource, hid, hcategory, hchange⟩
    rw [← hcheck hid] at hchange
    refine ⟨hresource, hcheck hid, hcategory, fun hkind => ?_⟩
    simpa only [Check.visibleChange, hkind] using hchange
  · rintro ⟨hresource, hsame, hcategory, hchange⟩
    refine ⟨hresource, congrArg Check.id hsame, hcategory, ?_⟩
    rw [← hsame]
    cases hkind : l.check.kind with
    | user => simp only [Check.visibleChange, hkind]
    | operation => simpa only [Check.visibleChange, hkind] using hchange hkind

/-- **At most one successful run.**  Whatever is done within a request, and in whatever order, the
look-ups of a question are runs that raise errors, then at most one run that answers, and after it
no run but that answer alone.  Every leaf of a tree at hand that has a status has it from there. -/
theorem Workspace.runs_settle (d : Dictionary) (user : User) (capacity : Nat) (s : Session)
    {w : Workspace}
    (hrun : Relation.ReflTransGen (Step ⟨d, user, (s.openRequest capacity).1⟩)
      ⟨[], [], (s.openRequest capacity).2⟩ w) :
    ∃ us, w.session.lookUps = us.reverse ++ s.lookUps ∧
      (∀ q, Settles (LookUp.about q us) (w.session.known (s.openRequest capacity).1 q)) ∧
      (∀ t ∈ w.pending, ∀ m ∈ t.marks, m.2 = .unevaluated ∨
        ∃ u ∈ LookUp.about m.1.question us, ∃ b, u.answer = .ok b ∧ m.2 = .ofBool b) ∧
      (∀ u ∈ us, ∀ u' ∈ us, u.leaf.question = u'.leaf.question ↔
        u.leaf.situation.resource.identity = u'.leaf.situation.resource.identity ∧
          u.leaf.check = u'.leaf.check ∧
          u.leaf.situation.category = u'.leaf.situation.category ∧
          (u.leaf.check.kind = .operation → u.leaf.situation.change.map Change.key =
            u'.leaf.situation.change.map Change.key)) ∧
      ∀ u ∈ us, u.leaf.check.kind = .user → u.leaf.context.change = none := by
  obtain ⟨us, h⟩ := (honest_start d user s capacity).run hrun
  rw [List.nil_append] at h
  refine ⟨us, h.chronicle.lookUps, h.chronicle.settles, ?_, ?_, ?_⟩
  · intro t ht m hm
    have hhonest : t.Honest ⟨d, user, (s.openRequest capacity).1⟩ us := by
      rcases List.mem_append.mp ht with ht | ht
      · exact h.trees t ht
      · obtain ⟨p, hp, ht⟩ := List.mem_flatMap.mp ht
        exact (h.phases p hp).queue t ht
    rcases hhonest.marked m hm with hun | ⟨u, hu, b, hleaf, hb⟩
    · exact .inl hun
    · refine .inr ⟨u, List.mem_filter.mpr ⟨hu, ?_⟩, b, hb⟩
      rw [hleaf]
      exact decide_eq_true rfl
  · exact fun u hu u' hu' => (h.chronicle.posed u hu).question_eq_iff (h.chronicle.posed u' hu')
  · intro u _ hkind
    simp only [Leaf.context, Check.visibleChange, hkind]

/-- Both trees of a plan, evaluated one after the other: the second one finds the answer about the
owner remembered, its own check runs, and it alone sees the change. -/
theorem Workspace.runs_settle_retitling :
    let opened := Session.initial.openRequest Answers.defaultCapacity
    ∃ w, Relation.ReflTransGen (Step (Specimen.scope false)) ⟨[], [], opened.2⟩ w ∧
      w.session.lookUps.map (·.ran) = [false, true, true] ∧
      w.session.lookUps.map (·.leaf.context.change.isSome) = [false, true, false] ∧
      w.pending.map (·.marks.map Prod.snd) = [[.failed], [.passed, .failed]] ∧
      ∃ us, w.session.lookUps = us.reverse ++ Session.initial.lookUps ∧
        (∀ q, Settles (LookUp.about q us) (w.session.known opened.1 q)) ∧
        (∀ t ∈ w.pending, ∀ m ∈ t.marks, m.2 = .unevaluated ∨
          ∃ u ∈ LookUp.about m.1.question us, ∃ b, u.answer = .ok b ∧ m.2 = .ofBool b) ∧
        (∀ u ∈ us, ∀ u' ∈ us, u.leaf.question = u'.leaf.question ↔
          u.leaf.situation.resource.identity = u'.leaf.situation.resource.identity ∧
            u.leaf.check = u'.leaf.check ∧
            u.leaf.situation.category = u'.leaf.situation.category ∧
            (u.leaf.check.kind = .operation → u.leaf.situation.change.map Change.key =
              u'.leaf.situation.change.map Change.key)) ∧
        ∀ u ∈ us, u.leaf.check.kind = .user → u.leaf.context.change = none := by
  intro opened
  let scope := Specimen.scope false
  let tree := scope.tree Specimen.book .update "title" Specimen.retitling
  let s := (scope.plan Specimen.book .update "title" Specimen.retitling opened.2).2
  have hplan : scope.plan Specimen.book .update "title" Specimen.retitling opened.2 =
      (.ok ⟨tree .preview, tree .commit⟩, s) :=
    Prod.ext (scope.plan_of_unobstructed _ _ _ _ _ (by decide)) rfl
  let e := (tree .preview).evaluate s
  have hfirst : Step scope ⟨[tree .preview, tree .commit], [], s⟩ _ := .evaluate 0 rfl
  have hsecond : Step scope ⟨[e.tree, tree .commit], [], e.state⟩ _ := .evaluate 1 rfl
  have hrun : Relation.ReflTransGen (Step scope) ⟨[], [], opened.2⟩ _ :=
    .tail (.tail (.single (.plan Specimen.book .update "title" Specimen.retitling hplan)) hfirst)
      hsecond
  exact ⟨_, hrun, by decide, by decide, by decide,
    runs_settle Specimen.dictionary scope.user Answers.defaultCapacity .initial hrun⟩

end AccessRules
