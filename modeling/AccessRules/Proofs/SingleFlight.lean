/-
# One procedure for many askers

Whatever the order in which the steps of any number of askers fall, as long as the store keeps its
contract: for each question at most one procedure returns an answer and none starts after it,
whoever gets an answer gets that one, and when all calls have returned the counters add up.

* `Told`: what the acts so far say of the askers (`Told.step`, `Reaches.history`);
* `IsOver.run`, `answered_run`: when a procedure runs no more, that of one asker and those for one
  question;
* `single_flight`: what holds at the end of every run.
-/
import AccessRules.Proofs.Flights

namespace AccessRules

namespace Act

variable {ε : Type}

/-- A procedure starts. -/
def starts : Act ε → Bool
  | move _ .start => true
  | _ => false

/-- The procedure of an asker starts or returns. -/
def Runs (i : Nat) (act : Act ε) : Prop :=
  act = .move i .start ∨ ∃ o, act = .move i (.finish o)

/-- Someone calls. -/
def calls : Act ε → Bool
  | call _ => true
  | _ => false

end Act

namespace Shared

variable {ε : Type} {s s' : Shared ε} {act : Act ε} {acts : List (Act ε)} {a a' : Asker ε}
  {m : Move ε} {answers' : Answers}

/-! ## 1. What the acts say -/

/-- What the acts so far say of the askers. -/
structure Told (acts : List (Act ε)) (s : Shared ε) : Prop where
  started : ∀ {i : Nat}, .move i .start ∈ acts ↔ ∃ a, s.askers[i]? = some a ∧ a.evaluated = true
  finished : ∀ {i : Nat} {o : Except ε Bool}, .move i (.finish o) ∈ acts ↔ ∃ q, s.Ran i q o
  starts : acts.countP Act.starts = s.askers.countP Asker.evaluated
  calls : acts.countP Act.calls = s.askers.length

/-- A call is told. -/
theorem Told.called (h : Told acts s) (q : Question) :
    Told (acts ++ [.call q]) ⟨s.answers, s.askers ++ [.newcomer q]⟩ where
  started {i} := by
    simp only [List.mem_append, List.mem_singleton, reduceCtorEq, or_false, h.started,
      getElem?_called]
    constructor
    · rintro ⟨a, hi, hev⟩
      exact ⟨a, .inl hi, hev⟩
    · rintro ⟨a, hi | ⟨-, rfl⟩, hev⟩
      · exact ⟨a, hi, hev⟩
      · cases hev
  finished {i o} := by
    simp only [List.mem_append, List.mem_singleton, reduceCtorEq, or_false, h.finished, ran_called]
  starts := by
    rw [List.countP_append, h.starts, List.countP_append]
    rfl
  calls := by
    rw [List.countP_append, h.calls, List.length_append]
    rfl

/-- A move is told. -/
theorem Told.moved (h : Told acts s) {i : Nat}
    (hi : s.askers[i]? = some a) (hprogress : s.Progress a m answers' a') :
    Told (acts ++ [.move i m]) ⟨answers', s.askers.set i a'⟩ where
  started {k} := by
    simp only [List.mem_append, List.mem_singleton, Act.move.injEq, h.started, getElem?_moved hi]
    constructor
    · rintro (⟨c, hc, hev⟩ | ⟨rfl, hm⟩)
      · by_cases hk : k = i
        · subst hk
          obtain rfl := Option.some.inj (hi.symm.trans hc)
          exact ⟨a', .inl ⟨rfl, rfl⟩, hprogress.evaluated.mpr (.inl hev)⟩
        · exact ⟨c, .inr ⟨hk, hc⟩, hev⟩
      · exact ⟨a', .inl ⟨rfl, rfl⟩, hprogress.evaluated.mpr (.inr hm.symm)⟩
    · rintro ⟨c, ⟨rfl, rfl⟩ | ⟨-, hc⟩, hev⟩
      · obtain hev | hm := hprogress.evaluated.mp hev
        · exact .inl ⟨a, hi, hev⟩
        · exact .inr ⟨rfl, hm.symm⟩
      · exact .inl ⟨c, hc, hev⟩
  finished {k o} := by
    simp only [List.mem_append, List.mem_singleton, Act.move.injEq, h.finished,
      hprogress.ran_iff hi, exists_or]
    refine or_congr_right ⟨?_, ?_⟩
    · rintro ⟨rfl, hm⟩
      exact ⟨a.question, rfl, rfl, hm.symm⟩
    · rintro ⟨q, rfl, -, hm⟩
      exact ⟨rfl, hm.symm⟩
  starts := by
    have hcount := countP_moved hi a' Asker.evaluated
    have hstarts : [Act.move i m].countP Act.starts + a.evaluated.toNat = a'.evaluated.toNat := by
      by_cases hm : m = .start
      · subst hm
        rw [hprogress.fresh rfl, hprogress.evaluated.mpr (.inr rfl)]
        rfl
      · have hsame : a'.evaluated = a.evaluated :=
          Bool.eq_iff_iff.mpr (hprogress.evaluated.trans (or_iff_left hm))
        have hother : (Act.move i m).starts = false := by
          cases m with
          | start => exact absurd rfl hm
          | enter _ | tally | finish _ | land _ | receive _ | count => rfl
        rw [hsame, List.countP_singleton, hother]
        exact Nat.zero_add _
    have hbefore := h.starts
    rw [List.countP_append]
    change _ = (s.askers.set i a').countP Asker.evaluated
    omega
  calls := by
    rw [List.countP_append, h.calls, List.length_set]
    rfl

/-- Every permitted step is told. -/
theorem Told.step (h : Told acts s) (hsound : s.Sound)
    (hstep : s.step act = some s') (hpermits : s.Permits act) : Told (acts ++ [act]) s' := by
  cases act with
  | call q =>
    obtain rfl := Option.some.inj hstep
    exact h.called q
  | move i m =>
    obtain ⟨a, answers', a', hi, hadvances, rfl⟩ := step_move hstep
    exact h.moved hi (hsound.progress hi hadvances (hpermits a hi))

/-- What has been sound and told remains so. -/
theorem Reaches.history {before : List (Act ε)} (h : s.Reaches acts s') (hsound : s.Sound)
    (htold : Told before s) : s'.Sound ∧ Told (before ++ acts) s' := by
  induction acts generalizing s before with
  | nil =>
    obtain ⟨⟨⟩, -⟩ := h
    rw [List.append_nil]
    exact ⟨hsound, htold⟩
  | cons act acts ih =>
    obtain ⟨mid, hstep, hpermits, hrest⟩ := reaches_cons_iff.mp h
    have htold' := ih hrest (hsound.step hstep hpermits) (htold.step hsound hstep hpermits)
    rwa [List.append_assoc] at htold'

theorem told_start (initialCapacity : Nat) : Told [] (start initialCapacity : Shared ε) where
  started := ⟨nofun, fun ⟨_, h, _⟩ => nomatch h⟩
  finished := ⟨nofun, fun ⟨_, _, h, _⟩ => nomatch h⟩
  starts := rfl
  calls := rfl

/-! ## 2. One asker in a run -/

/-- The question of an asker. -/
def question? (s : Shared ε) (i : Nat) : Option Question := s.askers[i]?.map Asker.question

/-- An asker whose procedure will not run, or not again. -/
def IsOver (s : Shared ε) (i : Nat) : Prop := ∃ a, s.askers[i]? = some a ∧ a.isOver = true

/-- What a step is for one asker: his own move, or nothing. -/
theorem asker_step (hsound : s.Sound) (hstep : s.step act = some s') (hpermits : s.Permits act)
    {i : Nat} (hi : s.askers[i]? = some a) : ∃ a', s'.askers[i]? = some a' ∧
      ((∃ m, act = .move i m ∧ s.Progress a m s'.answers a') ∨ a' = a ∧ ∀ m, act ≠ .move i m) := by
  cases act with
  | call q =>
    obtain rfl := Option.some.inj hstep
    exact ⟨a, getElem?_called.mpr (.inl hi), .inr ⟨rfl, fun _ => nofun⟩⟩
  | move k m =>
    obtain ⟨c, answers', c', hk, hadvances, rfl⟩ := step_move hstep
    by_cases hik : i = k
    · subst hik
      obtain rfl := Option.some.inj (hk.symm.trans hi)
      exact ⟨c', (getElem?_moved hk).mpr (.inl ⟨rfl, rfl⟩),
        .inl ⟨m, rfl, hsound.progress hk hadvances (hpermits c hk)⟩⟩
    · refine ⟨a, (getElem?_moved hk).mpr (.inr ⟨hik, hi⟩), .inr ⟨rfl, ?_⟩⟩
      rintro _ ⟨⟩
      exact hik rfl

theorem question?_step (hsound : s.Sound) (hstep : s.step act = some s') (hpermits : s.Permits act)
    {i : Nat} {q : Question} (hq : s.question? i = some q) : s'.question? i = some q := by
  obtain ⟨a, hi, rfl⟩ := Option.map_eq_some_iff.mp hq
  obtain ⟨a', hi', ⟨m, -, hprogress⟩ | ⟨rfl, -⟩⟩ := asker_step hsound hstep hpermits hi
  · exact Option.map_eq_some_iff.mpr ⟨a', hi', hprogress.question⟩
  · exact Option.map_eq_some_iff.mpr ⟨a', hi', rfl⟩

/-- Whose procedure will not run again. -/
theorem IsOver.step {i : Nat} (h : s.IsOver i) (hsound : s.Sound) (hstep : s.step act = some s')
    (hpermits : s.Permits act) : s'.IsOver i ∧ ¬ act.Runs i := by
  obtain ⟨a, hi, hover⟩ := h
  obtain ⟨a', hi', ⟨m, rfl, hprogress⟩ | ⟨rfl, hother⟩⟩ := asker_step hsound hstep hpermits hi
  · refine ⟨⟨a', hi', hprogress.finality hover⟩, fun hruns => ?_⟩
    have hnot := (hprogress.onWay (by simpa [Act.Runs] using hruns)).2
    rw [hover] at hnot
    cases hnot
  · refine ⟨⟨a', hi', hover⟩, ?_⟩
    rintro (hm | ⟨o, hm⟩)
    · exact hother _ hm
    · exact hother _ hm

theorem IsOver.run {i : Nat} (h : s.IsOver i) (hsound : s.Sound) (hreaches : s.Reaches acts s') :
    ∀ act ∈ acts, ¬ act.Runs i := by
  induction acts generalizing s with
  | nil => exact fun _ hmem => nomatch hmem
  | cons act acts ih =>
    obtain ⟨mid, hstep, hpermits, hrest⟩ := reaches_cons_iff.mp hreaches
    obtain ⟨hover, hnot⟩ := h.step hsound hstep hpermits
    exact List.forall_mem_cons.mpr ⟨hnot, ih hover (hsound.step hstep hpermits) hrest⟩

theorem question?_run (hsound : s.Sound) (hreaches : s.Reaches acts s') {i : Nat} {q : Question}
    (hq : s.question? i = some q) : s'.question? i = some q := by
  induction acts generalizing s with
  | nil =>
    obtain ⟨⟨⟩, -⟩ := hreaches
    exact hq
  | cons act acts ih =>
    obtain ⟨mid, hstep, hpermits, hrest⟩ := reaches_cons_iff.mp hreaches
    exact ih (hsound.step hstep hpermits) hrest (question?_step hsound hstep hpermits hq)

/-- Once a procedure has found an answer out, none starts or returns for its question. -/
theorem answered_step (hsound : s.Sound) (hstep : s.step act = some s') (hpermits : s.Permits act)
    {i : Nat} {q : Question} {b : Bool} (hran : s.Ran i q (.ok b)) :
    s'.Ran i q (.ok b) ∧ ∀ j, s.question? j = some q → ¬ act.Runs j := by
  cases act with
  | call q' =>
    obtain rfl := Option.some.inj hstep
    refine ⟨ran_called.mpr hran, ?_⟩
    rintro j - (h | ⟨o, h⟩) <;> cases h
  | move k m =>
    obtain ⟨c, answers', c', hk, hadvances, rfl⟩ := step_move hstep
    have hprogress := hsound.progress hk hadvances (hpermits c hk)
    refine ⟨(hprogress.ran_iff hk).mpr (.inl hran), fun j hj hruns => ?_⟩
    obtain rfl : k = j := by
      obtain h | ⟨o, h⟩ := hruns <;> exact (Act.move.inj h).1
    obtain ⟨hflight, hnot⟩ := hprogress.onWay (by simpa [Act.Runs] using hruns)
    rw [question?, hk] at hj
    obtain rfl := Option.some.inj hj
    obtain rfl := hsound.eq_of_ran hk hflight hran
    obtain ⟨a, ha, -, -, hout⟩ := hran
    obtain rfl := Option.some.inj (hk.symm.trans ha)
    rw [Asker.isOver_of_outcome hout] at hnot
    cases hnot

/-- Who makes a step has called before. -/
theorem exists_question?_of_runs {i : Nat} (hruns : act.Runs i) (hstep : s.step act = some s') :
    ∃ q, s.question? i = some q := by
  obtain ⟨m, rfl⟩ : ∃ m, act = .move i m := by
    obtain h | ⟨o, h⟩ := hruns
    · exact ⟨_, h⟩
    · exact ⟨_, h⟩
  obtain ⟨a, -, -, hi, -, -⟩ := step_move hstep
  exact ⟨a.question, Option.map_eq_some_iff.mpr ⟨a, hi, rfl⟩⟩

theorem answered_run (hsound : s.Sound) (hreaches : s.Reaches acts s') {i : Nat} {q : Question}
    {b : Bool} (hran : s.Ran i q (.ok b)) {j : Nat} (hj : s'.question? j = some q) :
    ∀ act ∈ acts, ¬ act.Runs j := by
  induction acts generalizing s with
  | nil => exact fun _ hmem => nomatch hmem
  | cons act acts ih =>
    obtain ⟨mid, hstep, hpermits, hrest⟩ := reaches_cons_iff.mp hreaches
    obtain ⟨hran', hnot⟩ := answered_step hsound hstep hpermits hran
    refine List.forall_mem_cons.mpr
      ⟨fun hruns => ?_, ih (hsound.step hstep hpermits) hrest hran'⟩
    obtain ⟨q', hq'⟩ := exists_question?_of_runs hruns hstep
    obtain rfl := Option.some.inj ((question?_run hsound hreaches hq').symm.trans hj)
    exact hnot j hq' hruns

/-! ## 3. Many askers -/

/-- The call of an asker has returned. -/
def Returned (s : Shared ε) (i : Nat) (q : Question) (o : Except ε Bool) : Prop :=
  ∃ a, s.askers[i]? = some a ∧ a.question = q ∧ a.stage = .done o

/-- An asker waits for the procedure of another. -/
def Waits (s : Shared ε) (i : Nat) : Prop :=
  ∃ a leader, s.askers[i]? = some a ∧ a.stage = .waiting leader

/-- No call is in progress. -/
def Quiet (s : Shared ε) : Prop := ∀ a ∈ s.askers, a.stage.returned = true

theorem Ran.outcome_eq {i : Nat} {q q' : Question} {o o' : Except ε Bool} (h : s.Ran i q o)
    (h' : s.Ran i q' o') : o = o' := by
  obtain ⟨a, hi, -, -, ho⟩ := h
  obtain ⟨a', hi', -, -, ho'⟩ := h'
  obtain rfl := Option.some.inj (hi.symm.trans hi')
  exact Option.some.inj (ho.symm.trans ho')

theorem Ran.question? {i : Nat} {q : Question} {o : Except ε Bool} (h : s.Ran i q o) :
    s.question? i = some q := by
  obtain ⟨a, hi, rfl, -, -⟩ := h
  exact Option.map_eq_some_iff.mpr ⟨a, hi, rfl⟩

theorem Returned.ran {i : Nat} {q : Question} {o : Except ε Bool} (h : s.Returned i q o)
    (hsound : s.Sound) : ∃ j, s.Ran j q o := by
  obtain ⟨a, hi, rfl, hdone⟩ := h
  exact hsound.source hi (by rw [hdone]; rfl)

/-- When no call is in progress, the counters add up. -/
theorem Quiet.counters (h : s.Quiet) (hsound : s.Sound) :
    s.answers.hits + s.answers.misses = s.askers.length ∧
      s.answers.misses = s.answers.evaluations ∧
      s.answers.evaluations = s.askers.countP Asker.evaluated := by
  have hhits : s.askers.countP Asker.isHit = s.askers.countP (! ·.evaluated) :=
    List.countP_congr fun a ha => by rw [Asker.isHit, h a ha, Bool.true_and]
  have hmisses : s.askers.countP Asker.isMiss = s.askers.countP Asker.evaluated :=
    List.countP_congr fun a ha => by rw [Asker.isMiss, h a ha, Bool.true_and]
  have htallied : s.askers.countP Asker.isTallied = s.askers.countP Asker.evaluated :=
    List.countP_congr fun a ha => by rw [Asker.isTallied_of_returned (h a ha)]
  have hall := List.length_eq_countP_add_countP Asker.evaluated (l := s.askers)
  simp only [Bool.not_eq_true, Bool.decide_eq_false] at hall
  rw [hsound.hits, hsound.misses, hsound.evaluations, hmisses, htallied, hhits]
  exact ⟨by omega, rfl, rfl⟩

/-- What is owed to those who share answers, by the end of a run. -/
structure SingleFlight (initialCapacity : Nat) (acts : List (Act ε)) (s : Shared ε) : Prop where
  /-- After a procedure has found an answer out, none starts or returns for its question. -/
  last : ∀ {before after : List (Act ε)} {i : Nat} {b : Bool},
    acts = before ++ .move i (.finish (.ok b)) :: after →
      ∀ {j : Nat}, s.question? j = s.question? i → ∀ act ∈ after, ¬ act.Runs j
  /-- Who returns with an answer has that of such a procedure, -/
  origin : ∀ {i : Nat} {q : Question} {b : Bool}, s.Returned i q (.ok b) →
    ∃ j, s.question? j = some q ∧ .move j (.finish (.ok b)) ∈ acts
  /-- and so all who return with one have the same. -/
  agree : ∀ {i j : Nat} {q : Question} {b c : Bool},
    s.Returned i q (.ok b) → s.Returned j q (.ok c) → b = c
  /-- A look-up counts as a miss if the asker's own procedure has run, and else as a hit, -/
  counted : ∀ {before after : List (Act ε)} {i : Nat}, acts = before ++ .move i .count :: after →
    ∃ u u', (start initialCapacity).run before = some u ∧ u.step (.move i .count) = some u' ∧
      (.move i .start ∈ acts → u'.answers = u.answers.count false) ∧
      (.move i .start ∉ acts → u'.answers = u.answers.count true)
  /-- as it does for all who once waited. -/
  waited : ∀ {before after : List (Act ε)} {u : Shared ε} {i : Nat}, acts = before ++ after →
    (start initialCapacity).run before = some u → u.Waits i → .move i .start ∉ acts
  quiet : s.Quiet → s.answers.hits + s.answers.misses = acts.countP Act.calls ∧
    s.answers.misses = s.answers.evaluations ∧ s.answers.evaluations = acts.countP Act.starts

/-- A look-up is counted by the mark. -/
theorem step_count {i : Nat} (hstep : s.step (.move i .count) = some s') :
    ∃ a, s.askers[i]? = some a ∧ a.isOver = true ∧ s'.answers = s.answers.count !a.evaluated := by
  obtain ⟨a, answers', a', hi, hadvances, rfl⟩ := step_move hstep
  cases hadvances with
  | count q e o => exact ⟨_, hi, rfl, rfl⟩

/-- A run from the start, cut somewhere. -/
theorem Reaches.cut {initialCapacity : Nat} {before after : List (Act ε)}
    (h : (start initialCapacity).Reaches (before ++ after) s) :
    ∃ u, (start initialCapacity).Reaches before u ∧ u.Sound ∧ Told before u ∧
      u.Reaches after s := by
  obtain ⟨u, hbefore, hafter⟩ := reaches_append_iff.mp h
  obtain ⟨hsound, htold⟩ := hbefore.history (sound_start _) (told_start _)
  exact ⟨u, hbefore, hsound, htold, hafter⟩

/-- Once it is clear that a procedure will not run again, the mark says whether it ever does. -/
theorem Told.start_mem_iff {before after : List (Act ε)} {u : Shared ε} (h : Told before u)
    (hsound : u.Sound) (hafter : u.Reaches after s) {i : Nat} (hi : u.askers[i]? = some a)
    (hover : a.isOver = true) : .move i .start ∈ before ++ after ↔ a.evaluated = true := by
  have hlater : Act.move i .start ∉ after := fun hmem =>
    IsOver.run ⟨a, hi, hover⟩ hsound hafter _ hmem (.inl rfl)
  rw [List.mem_append, or_iff_left hlater, h.started]
  constructor
  · rintro ⟨c, hc, hev⟩
    obtain rfl := Option.some.inj (hi.symm.trans hc)
    exact hev
  · exact fun hev => ⟨a, hi, hev⟩

/-- One procedure for many askers.  Let any number of them put any questions, each with a procedure
of his own that may come to anything, and let their steps fall in any order; if the store keeps its
contract, they get what `SingleFlight` says. -/
theorem single_flight (initialCapacity : Nat) (hrun : (start initialCapacity).run acts = some s)
    (hstore : (start initialCapacity).Honours acts) : SingleFlight initialCapacity acts s := by
  have hreaches : (start initialCapacity).Reaches acts s := ⟨hrun, hstore⟩
  obtain ⟨hsound, htold⟩ := hreaches.history (sound_start _) (told_start _)
  rw [List.nil_append] at htold
  constructor
  case last =>
    intro before after i b hacts j hj
    rw [hacts, List.append_cons] at hreaches
    obtain ⟨u, -, hsound', htold', hafter⟩ := hreaches.cut
    obtain ⟨q, hran⟩ :=
      htold'.finished.mp (List.mem_append_right before (List.mem_singleton_self _))
    rw [question?_run hsound' hafter hran.question?] at hj
    exact answered_run hsound' hafter hran hj
  case origin =>
    intro i q b hi
    obtain ⟨j, hran⟩ := hi.ran hsound
    exact ⟨j, hran.question?, htold.finished.mpr ⟨q, hran⟩⟩
  case agree =>
    intro i j q b c hi hj
    obtain ⟨k, hk⟩ := hi.ran hsound
    obtain ⟨l, hl⟩ := hj.ran hsound
    obtain rfl := hsound.once hk hl
    exact Except.ok.inj (hk.outcome_eq hl)
  case counted =>
    intro before after i hacts
    rw [hacts] at hreaches ⊢
    obtain ⟨u, hbefore, hsound', htold', hafter⟩ := hreaches.cut
    obtain ⟨u', hstep, -, -⟩ := reaches_cons_iff.mp hafter
    obtain ⟨a, hi, hover, hcount⟩ := step_count hstep
    have hmark := htold'.start_mem_iff hsound' hafter hi hover
    refine ⟨u, u', hbefore.run, hstep, fun hstart => ?_, fun hstart => ?_⟩
    · rw [hcount, hmark.mp hstart, Bool.not_true]
    · rw [hcount, Bool.eq_false_iff.mpr (mt hmark.mpr hstart), Bool.not_false]
  case waited =>
    rintro before after u i hacts hu ⟨a, leader, hi, hwaiting⟩ hstart
    rw [hacts] at hreaches hstart
    obtain ⟨v, hbefore, hsound', htold', hafter⟩ := hreaches.cut
    obtain rfl := Option.some.inj (hu.symm.trans hbefore.run)
    obtain ⟨q, e, stage⟩ := a
    obtain rfl : stage = .waiting leader := hwaiting
    have hmark := (htold'.start_mem_iff hsound' hafter hi rfl).mp hstart
    rw [hsound'.marked hi] at hmark
    cases hmark
  case quiet =>
    intro hquiet
    rw [htold.calls, htold.starts]
    exact hquiet.counters hsound

namespace Specimen

/-- What two and more ask. -/
def loan : Question := ⟨.persisted "book" "1", 0, .read, none⟩

/-- One procedure fails while a second asker waits for it.  A third asks again, his succeeds while a
fourth waits, and a fifth finds the answer. -/
def retried : List (Act String) :=
  [.call loan, .call loan, .move 0 (.enter .leads), .move 0 .start, .move 1 (.enter (.waits 0)),
    .move 0 .tally, .move 0 (.finish (.error "down")), .move 0 (.land none),
    .move 1 (.receive (.error "down")), .move 0 .count, .call loan, .move 2 (.enter .leads),
    .move 1 .count, .call loan, .move 3 (.enter (.waits 2)), .move 2 .start, .move 2 .tally,
    .move 2 (.finish (.ok true)), .move 3 (.receive (.ok true)), .move 2 (.land (some true)),
    .call loan, .move 4 (.enter (.found true)), .move 2 .count, .move 4 .count, .move 3 .count]

end Specimen

/-- Five askers, two runs, three hits. -/
theorem single_flight_retried : ∃ s, (start 64).run Specimen.retried = some s ∧
    (start 64).Honours Specimen.retried ∧ SingleFlight 64 Specimen.retried s ∧
    s.answers.misses = 2 ∧ s.answers.hits = 3 :=
  ⟨_, rfl, by decide, single_flight 64 rfl (by decide), rfl, rfl⟩

end Shared

end AccessRules
