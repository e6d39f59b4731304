/-
# The account of look-ups

What the next question to a leaf will get depends on a session in one respect only, the answer that
its request remembers (`Session.known`).  Asking either finds that answer or runs the check, and in
both cases enters one look-up into the account.  So `ask` has a few laws, and nothing after them
needs to open it:

* `ask_fst`, `lookUps_ask`, `events_ask`, `requests_ask`: what a leaf gets, what is entered and
  reported for it, and what its request keeps;
* `known_ask_self`, `known_ask_of_ne`: what is remembered afterwards, of this question and others.

An evaluation enters the leaves that it reaches, in their order.  It fails exactly if one of them
raises an error, which is then the last (`evaluate_account`).
-/
import AccessRules.Proofs.Evaluation

namespace AccessRules

namespace Session

/-! ## 1. What a request remembers -/

/-- The answer that a request remembers to a question. -/
def known (s : Session) (request : Nat) (q : Question) : Option Bool :=
  Assoc.find? q (s.answers request).known

/-- Whether a request was opened, so that it has answers of its own. -/
def Opened (s : Session) (request : Nat) : Prop := request < s.requests.length

/-- One session remembers, for a request, all that another did. -/
def Remembers (request : Nat) (s s' : Session) : Prop :=
  ∀ q b, s.known request q = some b → s'.known request q = some b

theorem Remembers.refl (n : Nat) (s : Session) : Remembers n s s := fun _ _ h => h

theorem Remembers.trans {n : Nat} {a b c : Session} (hab : Remembers n a b)
    (hbc : Remembers n b c) : Remembers n a c := fun q x h => hbc q x (hab q x h)

theorem answers_setAnswers_self {s : Session} {n : Nat} (h : s.Opened n) (a : Answers) :
    (s.setAnswers n a).answers n = a := by
  have hn : (s.requests.set n a)[n]? = some a := by
    rw [List.getElem?_set_self h]
  rw [answers, setAnswers, hn, Option.getD_some]

theorem answers_setAnswers_of_ne (s : Session) {m n : Nat} (h : m ≠ n) (a : Answers) :
    (s.setAnswers n a).answers m = s.answers m := by
  rw [answers, answers, setAnswers, List.getElem?_set_ne h.symm]

/-- Only a request that was opened remembers anything. -/
theorem opened_of_known {s : Session} {n : Nat} {q : Question} {b : Bool}
    (h : s.known n q = some b) : s.Opened n := by
  rcases Nat.lt_or_ge n s.requests.length with hn | hn
  · exact hn
  · rw [known, answers, List.getElem?_eq_none hn] at h
    cases h

/-- What is remembered is kept with the requests. -/
theorem known_of_requests_eq {s s' : Session} (h : s'.requests = s.requests) (n : Nat)
    (q : Question) : s'.known n q = s.known n q := by
  simp only [known, answers, h]

theorem opened_openRequest (s : Session) (capacity : Nat) :
    (s.openRequest capacity).2.Opened (s.openRequest capacity).1 := by
  rw [Opened, openRequest, List.length_append]
  exact Nat.lt_succ_self _

/-- A request that was just opened remembers nothing. -/
theorem known_openRequest (s : Session) (capacity : Nat) (q : Question) :
    (s.openRequest capacity).2.known (s.openRequest capacity).1 q = none := by
  have hnew : (s.requests ++ [Answers.empty capacity])[s.requests.length]? =
      some (.empty capacity) := List.getElem?_concat_length
  simp only [known, answers, openRequest, hnew]
  rfl

/-- A request that was never opened keeps nothing. -/
theorem setAnswers_of_not_opened {s : Session} {n : Nat} (h : ¬ s.Opened n) (a : Answers) :
    s.setAnswers n a = s := by
  have hset : s.requests.set n a = s.requests :=
    List.set_eq_of_length_le (Nat.le_of_not_lt h)
  rw [setAnswers, hset]

end Session

namespace Answers

@[simp] theorem known_count (a : Answers) (hit : Bool) : (a.count hit).known = a.known := by
  unfold count
  split <;> rfl

/-- Only a yes or a no is kept. -/
theorem find?_settle {ε : Type} (a : Answers) (q other : Question) (outcome : Except ε Bool) :
    Assoc.find? other (a.settle q outcome).known =
      if other = q then (outcome.toOption <|> Assoc.find? q a.known)
      else Assoc.find? other a.known := by
  cases outcome with
  | ok b =>
    change Assoc.find? other (Assoc.insert q b (a.count false).known) = _
    rw [known_count, Assoc.find?_insert]
    rfl
  | error e =>
    change Assoc.find? other (a.count false).known = _
    rw [known_count]
    split
    · next h => rw [h]; rfl
    · rfl

end Answers

namespace Session

/-! ## 2. The laws of asking -/

/-- A remembered answer is returned, and the check does not run. -/
theorem ask_of_known {l : Leaf} {s : Session} {b : Bool}
    (h : s.known l.situation.request l.question = some b) :
    s.ask l = (.ok b,
      ({ s.setAnswers l.situation.request ((s.answers l.situation.request).count true) with
          lookUps := ⟨l, .ok b, false⟩ :: s.lookUps }).report (l.event (.ok b))) := by
  rw [known] at h
  simp only [ask, lookUp, Answers.ask, h]

/-- Where no answer is remembered the check runs, and a yes or a no is kept. -/
theorem ask_of_unknown {l : Leaf} {s : Session}
    (h : s.known l.situation.request l.question = none) :
    s.ask l = (l.check.procedure.answer s.runs l.context,
      ({ s.setAnswers l.situation.request ((s.answers l.situation.request).settle l.question
            (l.check.procedure.answer s.runs l.context)) with
          lookUps := ⟨l, l.check.procedure.answer s.runs l.context, true⟩ :: s.lookUps }).report
        (l.event (l.check.procedure.answer s.runs l.context))) := by
  rw [known] at h
  simp only [ask, lookUp, Answers.ask, h]

/-- What a leaf gets. -/
theorem ask_fst (l : Leaf) (s : Session) :
    (s.ask l).1 = match s.known l.situation.request l.question with
      | some b => .ok b
      | none => l.check.procedure.answer s.runs l.context := by
  cases h : s.known l.situation.request l.question with
  | none => rw [ask_of_unknown h]
  | some b => rw [ask_of_known h]

/-- Who asks a check that raises no error gets an answer. -/
theorem exists_answer_of_calm {l : Leaf} (h : l.check.procedure.Calm) (s : Session) :
    ∃ b, (s.ask l).1 = .ok b := by
  rw [ask_fst]
  cases s.known l.situation.request l.question with
  | some b => exact ⟨b, rfl⟩
  | none => exact h s.runs l.context

/-- What is entered for a leaf. -/
theorem lookUps_ask (l : Leaf) (s : Session) :
    (s.ask l).2.lookUps =
      ⟨l, (s.ask l).1, (s.known l.situation.request l.question).isNone⟩ :: s.lookUps := by
  cases h : s.known l.situation.request l.question with
  | none => rw [ask_of_unknown h]; rfl
  | some b => rw [ask_of_known h]; rfl

/-- Whatever a leaf gets is reported. -/
theorem events_ask (l : Leaf) (s : Session) :
    (s.ask l).2.events = l.event (s.ask l).1 :: s.events := by
  cases h : s.known l.situation.request l.question with
  | none => rw [ask_of_unknown h]; rfl
  | some b => rw [ask_of_known h]; rfl

/-- Asking reads no rules. -/
theorem book_ask (l : Leaf) (s : Session) : (s.ask l).2.book = s.book := by
  cases h : s.known l.situation.request l.question with
  | none => rw [ask_of_unknown h]; rfl
  | some b => rw [ask_of_known h]; rfl

/-- What a request keeps of a leaf: the counters and, if the check ran and gave one, an answer. -/
theorem requests_ask (l : Leaf) (s : Session) :
    (s.ask l).2.requests = s.requests.set l.situation.request
      (match s.known l.situation.request l.question with
        | some _ => (s.answers l.situation.request).count true
        | none => (s.answers l.situation.request).settle l.question
            (l.check.procedure.answer s.runs l.context)) := by
  cases h : s.known l.situation.request l.question with
  | none => rw [ask_of_unknown h]; rfl
  | some b => rw [ask_of_known h]; rfl

/-- The question that was put is remembered with its answer, unless that was an error. -/
theorem known_ask_self {l : Leaf} {s : Session} (hopen : s.Opened l.situation.request) :
    (s.ask l).2.known l.situation.request l.question = (s.ask l).1.toOption := by
  cases h : s.known l.situation.request l.question with
  | none =>
    rw [ask_of_unknown h]
    change Assoc.find? _ ((s.setAnswers _ _).answers _).known = _
    rw [answers_setAnswers_self hopen, Answers.find?_settle, if_pos rfl, ← known, h]
    cases l.check.procedure.answer s.runs l.context <;> rfl
  | some b =>
    rw [ask_of_known h]
    change Assoc.find? _ ((s.setAnswers _ _).answers _).known = _
    rw [answers_setAnswers_self hopen, Answers.known_count, ← known, h]
    rfl

/-- Nothing is learned about any other question, nor by any other request. -/
theorem known_ask_of_ne {l : Leaf} {n : Nat} {q : Question} (s : Session)
    (h : ¬ (n = l.situation.request ∧ q = l.question)) : (s.ask l).2.known n q = s.known n q := by
  have key : ∀ a : Answers,
      (n = l.situation.request →
        Assoc.find? q a.known = Assoc.find? q (s.answers l.situation.request).known) →
      Assoc.find? q ((s.setAnswers l.situation.request a).answers n).known = s.known n q := by
    intro a ha
    by_cases hn : n = l.situation.request
    · by_cases hopen : s.Opened l.situation.request
      · rw [hn, answers_setAnswers_self hopen, ha hn, known]
      · rw [setAnswers_of_not_opened hopen, known]
    · rw [answers_setAnswers_of_ne s hn, known]
  cases hk : s.known l.situation.request l.question with
  | none =>
    rw [ask_of_unknown hk]
    refine key _ fun hn => ?_
    rw [Answers.find?_settle, if_neg fun hq => h ⟨hn, hq⟩]
  | some b =>
    rw [ask_of_known hk]
    refine key _ fun _ => ?_
    rw [Answers.known_count]

theorem opened_ask {n : Nat} (l : Leaf) (s : Session) : (s.ask l).2.Opened n ↔ s.Opened n := by
  rw [Opened, Opened, requests_ask, List.length_set]

/-- What is remembered after a question was remembered before, or answers that very question. -/
theorem known_of_known_ask {l : Leaf} {s : Session} {n : Nat} {q : Question} {b : Bool}
    (h : (s.ask l).2.known n q = some b) :
    s.known n q = some b ∨ (n = l.situation.request ∧ q = l.question) ∧ (s.ask l).1 = .ok b := by
  by_cases hq : n = l.situation.request ∧ q = l.question
  · refine .inr ⟨hq, ?_⟩
    obtain ⟨rfl, rfl⟩ := hq
    rw [known_ask_self ((opened_ask l s).mp (opened_of_known h))] at h
    cases ha : (s.ask l).1 with
    | error detail =>
      rw [ha] at h
      cases h
    | ok b' =>
      rw [ha] at h
      exact congrArg Except.ok (Option.some.inj h)
  · rw [known_ask_of_ne s hq] at h
    exact .inl h

/-- The check of a leaf runs unless its answer is remembered. -/
theorem runs_ask (l : Leaf) (s : Session) :
    (s.ask l).2.runs =
      if (s.known l.situation.request l.question).isNone then
        ⟨l.check.id, l.context, (s.ask l).1⟩ :: s.runs
      else s.runs := by
  rw [runs, lookUps_ask]
  cases (s.known l.situation.request l.question).isNone with
  | true => rfl
  | false => rfl

/-- An answer that is remembered stays. -/
theorem remembers_ask (n : Nat) (l : Leaf) (s : Session) : Remembers n s (s.ask l).2 := by
  intro q b hq
  by_cases h : n = l.situation.request ∧ q = l.question
  · obtain ⟨rfl, rfl⟩ := h
    rw [known_ask_self (opened_of_known hq), ask_fst, hq]
    rfl
  · rw [known_ask_of_ne s h]
    exact hq

/-! ## 3. Additions to the account -/

/-- One session has the account of another with further look-ups, all of one sort. -/
def Adds (sort : LookUp → Prop) (s s' : Session) : Prop :=
  ∃ us, s'.lookUps = us ++ s.lookUps ∧ ∀ u ∈ us, sort u

theorem Adds.refl (sort : LookUp → Prop) (s : Session) : Adds sort s s :=
  ⟨[], rfl, List.forall_mem_nil _⟩

theorem Adds.trans {sort : LookUp → Prop} {a b c : Session} (hab : Adds sort a b)
    (hbc : Adds sort b c) : Adds sort a c := by
  obtain ⟨us, hb, hus⟩ := hab
  obtain ⟨vs, hc, hvs⟩ := hbc
  refine ⟨vs ++ us, by rw [hc, hb, List.append_assoc], fun u hu => ?_⟩
  rcases List.mem_append.mp hu with h | h
  · exact hvs u h
  · exact hus u h

/-- The one look-up that asking a leaf enters. -/
theorem adds_ask {sort : LookUp → Prop} {l : Leaf} {s : Session}
    (h : sort ⟨l, (s.ask l).1, (s.known l.situation.request l.question).isNone⟩) :
    Adds sort s (s.ask l).2 := by
  refine ⟨[_], lookUps_ask l s, fun u hu => ?_⟩
  rw [List.mem_singleton.mp hu]
  exact h

/-- The runs among further look-ups. -/
theorem Adds.runs {sort : LookUp → Prop} {s s' : Session} (h : Adds sort s s') :
    ∃ rs, s'.runs = rs ++ s.runs ∧ ∀ x ∈ rs, ∃ u, sort u ∧
      x = ⟨u.leaf.check.id, u.leaf.context, u.answer⟩ := by
  obtain ⟨us, hus, hsort⟩ := h
  refine ⟨us.filterMap LookUp.run?, by rw [Session.runs, hus, List.filterMap_append, Session.runs],
    fun x hx => ?_⟩
  obtain ⟨u, hu, hrun⟩ := List.mem_filterMap.mp hx
  refine ⟨u, hsort u hu, ?_⟩
  rw [LookUp.run?] at hrun
  split at hrun
  · exact (Option.some.inj hrun).symm
  · cases hrun

end Session

/-! ## 4. The account of an evaluation -/

/-- Look-ups, in the order in which they were made, that explain how an evaluation ended: none of
them raised an error, or the last one did, and that is the error of the evaluation. -/
def Explain (us : List LookUp) : Except CheckFailure Status → Prop
  | .ok _ => ∀ u ∈ us, ∃ b, u.answer = .ok b
  | .error f => ∃ before u, us = before ++ [u] ∧ (∀ x ∈ before, ∃ b, x.answer = .ok b) ∧
      u.leaf.name = f.check ∧ u.answer = .error f.detail

theorem Explain.append {us vs : List LookUp} {r : Except CheckFailure Status}
    (hus : ∀ u ∈ us, ∃ b, u.answer = .ok b) (hvs : Explain vs r) : Explain (us ++ vs) r := by
  cases r with
  | ok st =>
    intro u hu
    rcases List.mem_append.mp hu with h | h
    · exact hus u h
    · exact hvs u h
  | error f =>
    obtain ⟨before, u, rfl, hb, hu⟩ := hvs
    refine ⟨us ++ before, u, (List.append_assoc _ _ _).symm, fun x hx => ?_, hu⟩
    rcases List.mem_append.mp hx with h | h
    · exact hus x h
    · exact hb x h

/-- The error of an evaluation is the first one that a leaf raised. -/
theorem Explain.eq_error {us : List LookUp} {r : Except CheckFailure Status} (h : Explain us r)
    {u : LookUp} (hu : u ∈ us) {detail : String} (hd : u.answer = .error detail) :
    r = .error ⟨u.leaf.name, detail⟩ := by
  cases r with
  | ok st =>
    obtain ⟨b, hb⟩ := h u hu
    rw [hb] at hd
    cases hd
  | error f =>
    obtain ⟨before, last, rfl, hbefore, hname, hdetail⟩ := h
    rcases List.mem_append.mp hu with hu | hu
    · obtain ⟨b, hb⟩ := hbefore u hu
      rw [hb] at hd
      cases hd
    · rw [List.mem_singleton.mp hu] at hd ⊢
      rw [hdetail] at hd
      cases hd
      rw [hname]

/-- The account of the evaluation `e` of a tree from a session: the leaves that were asked, in
order, and what that left in the tree. -/
structure Account (t : Tree) (s : Session) (e : Evaluation Session) (us : List LookUp) :
    Prop where
  lookUps : e.state.lookUps = us.reverse ++ s.lookUps
  leaves : ∀ u ∈ us, u.leaf ∈ t.leaves
  /-- A remembered answer is a yes or a no. -/
  found : ∀ u ∈ us, u.ran = false → ∃ b, u.answer = .ok b
  outcome : Explain us e.result
  /-- A leaf has its status from before or from its look-up. -/
  marks : ∀ m ∈ e.tree.marks, m ∈ t.marks ∨
    ∃ u ∈ us, ∃ b, u.leaf = m.1 ∧ u.answer = .ok b ∧ m.2 = .ofBool b

namespace Account

variable {t : Tree} {s : Session} {e : Evaluation Session} {us : List LookUp}

/-- A leaf that is asked. -/
theorem asked (leaf : Leaf) (s : Session) :
    Account (.ofLeaf leaf) s (.asked leaf (s.ask leaf))
      [⟨leaf, (s.ask leaf).1, (s.known leaf.situation.request leaf.question).isNone⟩] where
  lookUps := by
    rw [Evaluation.asked_state, Session.lookUps_ask]
    rfl
  leaves := by
    intro u hu
    rw [List.mem_singleton.mp hu]
    exact List.mem_cons_self
  found := by
    intro u hu hran
    rw [List.mem_singleton.mp hu] at hran ⊢
    cases hk : s.known leaf.situation.request leaf.question with
    | none =>
      rw [hk] at hran
      cases hran
    | some b => exact ⟨b, by rw [Session.ask_fst, hk]⟩
  outcome := by
    cases ha : (s.ask leaf).1 with
    | error detail =>
      rw [Evaluation.asked_of_error leaf ha]
      exact ⟨[], _, rfl, List.forall_mem_nil _, rfl, rfl⟩
    | ok b =>
      rw [Evaluation.asked_of_ok leaf ha]
      intro u hu
      exact ⟨b, by rw [List.mem_singleton.mp hu]⟩
  marks := by
    intro m hm
    cases ha : (s.ask leaf).1 with
    | error detail =>
      rw [Evaluation.asked_of_error leaf ha] at hm
      exact .inl hm
    | ok b =>
      rw [Evaluation.asked_of_ok leaf ha] at hm
      rw [List.mem_singleton.mp hm]
      exact .inr ⟨_, List.mem_singleton_self _, b, rfl, rfl, rfl⟩

/-- A node whose status follows from its only child. -/
theorem single {node : Tree → Status → Tree} (f : Status → Status) (hnode : Tree.Unary node)
    (h : Account t s e us) :
    Account (node t .unevaluated) s (.single node f e) us where
  lookUps := by rw [Evaluation.single_state, h.lookUps]
  leaves := by
    rw [hnode.leaves]
    exact h.leaves
  found := h.found
  outcome := by
    have ho := h.outcome
    cases hr : e.result with
    | error f' =>
      rw [hr] at ho
      rw [Evaluation.single_of_error node f hr]
      exact ho
    | ok a =>
      rw [hr] at ho
      rw [Evaluation.single_of_ok node f hr]
      exact ho
  marks := by
    rw [hnode.marks]
    have hm : (Evaluation.single node f e).tree.marks = e.tree.marks := by
      cases hr : e.result with
      | error f' => rw [Evaluation.single_of_error node f hr]; exact hnode.marks _ _
      | ok a => rw [Evaluation.single_of_ok node f hr]; exact hnode.marks _ _
    rw [hm]
    exact h.marks

section Pair

variable {node : Tree → Tree → Status → Tree} {l r : Tree} {left right : Evaluation Session}
  {vs : List LookUp}

/-- A node over two children of which only the left one was evaluated. -/
theorem left_only (hnode : Tree.Binary node) (h : Account l s left us)
    (hstate : e.state = left.state) (hmarks : e.tree.marks = left.tree.marks ++ r.marks)
    (hout : Explain us e.result) : Account (node l r .unevaluated) s e us where
  lookUps := by rw [hstate, h.lookUps]
  leaves := by
    intro u hu
    rw [hnode.leaves]
    exact List.mem_append_left _ (h.leaves u hu)
  found := h.found
  outcome := hout
  marks := by
    intro m hm
    rw [hmarks] at hm
    rw [hnode.marks]
    rcases List.mem_append.mp hm with hm | hm
    · rcases h.marks m hm with hl | hu
      · exact .inl (List.mem_append_left _ hl)
      · exact .inr hu
    · exact .inl (List.mem_append_right _ hm)

/-- A node over two children that were evaluated one after the other. -/
theorem both (hnode : Tree.Binary node) (hl : Account l s left us)
    (hr : Account r left.state right vs) (hleft : ∀ u ∈ us, ∃ b, u.answer = .ok b)
    (hstate : e.state = right.state) (hmarks : e.tree.marks = left.tree.marks ++ right.tree.marks)
    (hout : Explain vs e.result) : Account (node l r .unevaluated) s e (us ++ vs) where
  lookUps := by
    rw [hstate, hr.lookUps, hl.lookUps, List.reverse_append, List.append_assoc]
  leaves := by
    intro u hu
    rw [hnode.leaves]
    rcases List.mem_append.mp hu with h | h
    · exact List.mem_append_left _ (hl.leaves u h)
    · exact List.mem_append_right _ (hr.leaves u h)
  found := by
    intro u hu
    rcases List.mem_append.mp hu with h | h
    · exact hl.found u h
    · exact hr.found u h
  outcome := Explain.append hleft hout
  marks := by
    intro m hm
    rw [hmarks] at hm
    rw [hnode.marks]
    rcases List.mem_append.mp hm with hm | hm
    · rcases hl.marks m hm with h | ⟨u, hu, hb⟩
      · exact .inl (List.mem_append_left _ h)
      · exact .inr ⟨u, List.mem_append_left _ hu, hb⟩
    · rcases hr.marks m hm with h | ⟨u, hu, hb⟩
      · exact .inl (List.mem_append_right _ h)
      · exact .inr ⟨u, List.mem_append_right _ hu, hb⟩

/-- A node over two children. -/
theorem pair (stop : Status) (join : Status → Status → Status)
    (resume : Session → Evaluation Session)
    (hnode : Tree.Binary node) (hl : Account l s left us)
    (hr : ∀ s', ∃ vs, Account r s' (resume s') vs) :
    ∃ ws, Account (node l r .unevaluated) s (.pair node stop join left r resume) ws := by
  have ho := hl.outcome
  cases ha : left.result with
  | error f =>
    rw [ha] at ho
    rw [Evaluation.pair_of_error node stop join r resume ha]
    exact ⟨us, left_only hnode hl rfl (hnode.marks _ _ _) ho⟩
  | ok a =>
    rw [ha] at ho
    rcases eq_or_ne a stop with rfl | hne
    · rw [Evaluation.pair_of_stop node a join r resume ha]
      exact ⟨us, left_only hnode hl rfl (hnode.marks _ _ _) ho⟩
    · obtain ⟨vs, hvs⟩ := hr left.state
      have hov := hvs.outcome
      rw [Evaluation.pair_of_ok node stop join r resume ha hne]
      cases hb : (resume left.state).result with
      | error f =>
        rw [hb] at hov
        rw [Evaluation.single_of_error _ _ hb]
        exact ⟨us ++ vs, both hnode hl hvs ho rfl (hnode.marks _ _ _) hov⟩
      | ok b =>
        rw [hb] at hov
        rw [Evaluation.single_of_ok _ _ hb]
        exact ⟨us ++ vs, both hnode hl hvs ho rfl (hnode.marks _ _ _) hov⟩

end Pair

end Account

/-- **Every evaluation has an account**: it asks some leaves of the tree one after the other, and
ends with an error exactly if the last of them raised it. -/
theorem Tree.evaluate_account (t : Tree) (s : Session) : ∃ us, Account t s (t.evaluate s) us := by
  refine Tree.evaluateWith_induction (fun l s => s.ask l)
    (motive := fun t s e => ∃ us, Account t s e us) ?still ?asked ?single ?pair t s
  case still =>
    intro t t' st s hmarks _ _
    refine ⟨[], rfl, List.forall_mem_nil _, List.forall_mem_nil _, List.forall_mem_nil _,
      fun m hm => ?_⟩
    rcases hmarks with rfl | ⟨_, hnone⟩
    · exact .inl hm
    · change m ∈ t'.marks at hm
      rw [hnone] at hm
      exact absurd hm List.not_mem_nil
  case asked => exact fun leaf s => ⟨_, Account.asked leaf s⟩
  case single =>
    rintro node f c s child hnode _ ⟨us, h⟩
    exact ⟨us, h.single f hnode⟩
  case pair =>
    rintro node stop join l r s left resume hnode _ _ ⟨us, hl⟩ hr
    exact Account.pair stop join resume hnode hl hr

namespace Tree

/-! ## 5. What an evaluation leaves as it was -/

/-- Evaluating a tree forgets no answer. -/
theorem remembers_evaluate (n : Nat) (t : Tree) (s : Session) :
    Session.Remembers n s (t.evaluate s).state :=
  evaluateWith_related (Session.Remembers.refl n) Session.Remembers.trans t
    (fun l _ s => Session.remembers_ask n l s) s

theorem opened_evaluate {n : Nat} (t : Tree) {s : Session} (h : s.Opened n) :
    (t.evaluate s).state.Opened n :=
  evaluateWith_related (R := fun s s' => s.Opened n → s'.Opened n) (fun _ h => h)
    (fun hab hbc ha => hbc (hab ha)) t (fun l _ s => (Session.opened_ask l s).mpr) s h

end Tree

end AccessRules
