/-
# Asking together

`Answers.ask` and `Answers.askTogether` know nothing of steps: they let calls have their turn one
after the other, so that of several askers of one question the first runs his procedure, and the
others find his answer.  Askers who share answers take their steps in any order, and some of them
wait instead.  Calls in turn are one of these orders, and where all ask one question the difference
between the orders does not show when all calls have returned.

* `Turns`: each asker calls and makes all his moves before the next one calls;
* `exists_turns_askInTurn`: in turn, every call does what `Answers.ask` says;
* `Unanimous`: one question, and one answer to it;
* `quiet_eq_askTogether`, `exists_turns_of_quiet`: any order of the steps comes to what calls in
  turn come to.
-/
import AccessRules.Proofs.SingleFlight

namespace AccessRules

namespace Answers

/-! ## 1. One after the other -/

/-- Calls one after the other.  Each brings its question and the procedure that runs if there is no
answer. -/
def askInTurn {ε σ : Type} (a : Answers) (state : σ) :
    List (Question × (σ → Except ε Bool × σ)) → List (Except ε Bool) × Answers × σ
  | [] => ([], a, state)
  | (q, run) :: calls =>
    let (outcome, a, state) := a.ask q run state
    let (outcomes, a, state) := askInTurn a state calls
    (outcome :: outcomes, a, state)

/-- Asking together is calling in turn with one question and one answer. -/
theorem askInTurn_replicate {ε : Type} (a : Answers) (q : Question) (answer : Bool) (n : Nat) :
    a.askInTurn (ε := ε) () (List.replicate n (q, fun s => (.ok answer, s))) =
      ((a.askTogether q answer n).1.map .ok, (a.askTogether q answer n).2, ()) := by
  induction n generalizing a with
  | zero => rfl
  | succ n ih =>
    rw [List.replicate_succ, askInTurn, askTogether, ask, ask]
    cases Assoc.find? q a.known with
    | some b => simp only [ih, List.map_cons]
    | none => simp only [ih, List.map_cons, settle]

/-- Where an answer is known, all get it, and all are hits. -/
theorem askTogether_of_known {a : Answers} {q : Question} {known : Bool}
    (h : Assoc.find? q a.known = some known) (answer : Bool) (n : Nat) :
    a.askTogether q answer n = (List.replicate n known, { a with hits := a.hits + n }) := by
  induction n generalizing a with
  | zero => rfl
  | succ n ih =>
    have hask : a.ask (ε := String) q (fun s => (.ok answer, s)) () =
        (.ok known, a.count true, ()) := by
      rw [ask, h]
    have hhits : a.hits + 1 + n = a.hits + (n + 1) := by omega
    have hrest := ih (a := a.count true) h
    rw [askTogether, hask]
    simp only [hrest, List.replicate_succ]
    simp only [count, if_true, hhits]

/-- The first of several askers runs his procedure, and the others are hits. -/
theorem askTogether_empty (initialCapacity : Nat) (q : Question) (answer : Bool) (n : Nat) :
    (empty initialCapacity).askTogether q answer (n + 1) =
      (List.replicate (n + 1) answer, ⟨initialCapacity, [(q, answer)], n, 1, 1⟩) := by
  have hask : (empty initialCapacity).ask (ε := String) q (fun s => (.ok answer, s)) () =
      (.ok answer, ⟨initialCapacity, [(q, answer)], 0, 1, 1⟩, ()) := rfl
  have hrest := askTogether_of_known (a := ⟨initialCapacity, [(q, answer)], 0, 1, 1⟩)
    (q := q) (if_pos rfl) answer n
  rw [askTogether, hask]
  simp only [hrest, List.replicate_succ, Nat.zero_add]

end Answers

namespace Shared

variable {ε : Type} {s : Shared ε} {acts : List (Act ε)} {q : Question} {b : Bool}

/-! ## 2. Turns -/

/-- The acts of askers of whom each calls and makes all his moves before the next one calls.  The
first of them has the given number. -/
inductive Turns : Nat → List (Act ε) → Prop
  | none (i : Nat) : Turns i []
  | turn (i : Nat) (q : Question) (moves : List (Move ε)) {rest : List (Act ε)}
    (hrest : Turns (i + 1) rest) : Turns i (.call q :: moves.map (.move i) ++ rest)

/-- **Calls in turn are a run of the whole**: the store can keep its contract, and every call does
what `Answers.ask` says. -/
theorem exists_turns_askInTurn {σ : Type} (s : Shared ε) (hquiet : s.Quiet)
    (calls : List (Question × (σ → Except ε Bool × σ))) (state : σ) :
    let inTurn := s.answers.askInTurn state calls
    ∃ turns later, Turns s.askers.length turns ∧
      s.Reaches turns ⟨inTurn.2.1, s.askers ++ later⟩ ∧
      later.map Asker.question = calls.map Prod.fst ∧
      later.map Asker.stage = inTurn.1.map .done := by
  induction calls generalizing s state with
  | nil =>
    refine ⟨[], [], .none _, ⟨?_, trivial⟩, rfl, rfl⟩
    rw [List.append_nil]
    rfl
  | cons call calls ih =>
    obtain ⟨q, run⟩ := call
    have hfree : ∀ a ∈ s.askers, a.question = q → a.stage.inFlight = false := fun a ha _ => by
      have hreturned := hquiet a ha
      obtain ⟨q', e, stage⟩ := a
      cases stage with
      | done o => rfl
      | called | leading | running | tallied | finished _ | waiting _ | received _ =>
        cases hreturned
    obtain ⟨moves, hturn⟩ := exists_reaches_ask s q hfree run state
    generalize hasked : s.answers.ask q run state = asked at hturn
    obtain ⟨outcome, answers, state'⟩ := asked
    let asker : Asker ε := ⟨q, (Assoc.find? q s.answers.known).isNone, .done outcome⟩
    have hquiet' : Quiet ⟨answers, s.askers ++ [asker]⟩ := fun a ha => by
      obtain ha | ha := List.mem_append.mp ha
      · exact hquiet a ha
      · rw [List.mem_singleton.mp ha]
        rfl
    obtain ⟨turns, later, hturns, hreaches, hquestions, hstages⟩ := ih _ hquiet' state'
    rw [List.length_append] at hturns
    refine ⟨_, asker :: later, .turn _ q moves hturns, ?_, ?_, ?_⟩
    · rw [reaches_append_iff]
      refine ⟨_, hturn, ?_⟩
      rw [Answers.askInTurn, hasked]
      simpa using hreaches
    · rw [List.map_cons, hquestions, List.map_cons]
    · rw [Answers.askInTurn, hasked, List.map_cons, hstages, List.map_cons]

/-! ## 3. One question and one answer -/

/-- All ask one question, and all procedures that have returned have come to one answer. -/
structure Unanimous (acts : List (Act ε)) (s : Shared ε) (q : Question) (b : Bool) : Prop where
  question : ∀ a ∈ s.askers, a.question = q
  answer : ∀ {i : Nat} {o : Except ε Bool}, .move i (.finish o) ∈ acts → o = .ok b

theorem Unanimous.ran (h : Unanimous acts s q b) (htold : Told acts s) {i : Nat} {q' : Question}
    {o : Except ε Bool} (hran : s.Ran i q' o) : q' = q ∧ o = .ok b := by
  obtain ⟨a, ha, rfl, -, -⟩ := id hran
  exact ⟨h.question a (List.mem_of_getElem? ha), h.answer (htold.finished.mpr ⟨_, hran⟩)⟩

/-- All return with the answer. -/
theorem Unanimous.done (h : Unanimous acts s q b) (hsound : s.Sound) (htold : Told acts s)
    (hquiet : s.Quiet) {i : Nat} {a : Asker ε} (hi : s.askers[i]? = some a) :
    a.stage = .done (.ok b) := by
  have hreturned := hquiet a (List.mem_of_getElem? hi)
  obtain ⟨q', e, stage⟩ := a
  cases stage with
  | done o =>
    obtain ⟨j, hj⟩ := hsound.source hi rfl
    rw [(h.ran htold hj).2]
  | called | leading | running | tallied | finished _ | waiting _ | received _ => cases hreturned

/-- What holds at one place of a list alone is counted once. -/
theorem countP_eq_one {l : List (Asker ε)} {p : Asker ε → Bool} {i : Nat} {a : Asker ε}
    (hi : l[i]? = some a) (ha : p a = true)
    (hone : ∀ j c, l[j]? = some c → p c = true → j = i) : l.countP p = 1 := by
  induction l generalizing i with
  | nil => cases hi
  | cons c l ih =>
    cases i with
    | zero =>
      obtain rfl := Option.some.inj hi
      have hrest : l.countP p = 0 := List.countP_eq_zero.mpr fun d hd hp => by
        obtain ⟨j, hj⟩ := List.mem_iff_getElem?.mp hd
        cases hone (j + 1) d hj hp
      rw [List.countP_cons, hrest, if_pos ha]
    | succ i =>
      have hc : ¬ p c = true := fun hc => by cases hone 0 c rfl hc
      rw [List.countP_cons, if_neg hc]
      exact ih hi fun j d hj hp => Nat.succ.inj (hone (j + 1) d hj hp)

/-- One procedure has run, and its answer is stored. -/
theorem Unanimous.leader (h : Unanimous acts s q b) (hsound : s.Sound) (htold : Told acts s)
    (hquiet : s.Quiet) (hsome : 0 < s.askers.length) :
    s.askers.countP Asker.evaluated = 1 ∧ Assoc.find? q s.answers.known = some b := by
  have houtcome {i : Nat} {a : Asker ε} (hi : s.askers[i]? = some a) :
      a.stage.outcome? = some (.ok b) := by rw [h.done hsound htold hquiet hi]; rfl
  have hfirst := List.getElem?_eq_getElem hsome
  obtain ⟨i, hran⟩ := hsound.source hfirst (houtcome hfirst)
  obtain ⟨c, hc, -, hev, -⟩ := id hran
  obtain ⟨hq, -⟩ := h.ran htold hran
  rw [hq] at hran
  constructor
  · refine countP_eq_one hc hev fun j d hd hdev => ?_
    have hother : s.Ran j q (.ok b) :=
      ⟨d, hd, h.question d (List.mem_of_getElem? hd), hdev, houtcome hd⟩
    exact hsound.once hother hran
  · rw [← h.question c (List.mem_of_getElem? hc)]
    refine (hsound.settled hc hev (houtcome hc)).resolve_left ?_
    rw [h.done hsound htold hquiet hc]
    exact Bool.false_ne_true

/-- No other question is answered. -/
theorem Unanimous.find?_eq_none (h : Unanimous acts s q b) (hsound : s.Sound) (htold : Told acts s)
    {q' : Question} (hother : q' ≠ q ∨ s.askers = []) :
    Assoc.find? q' s.answers.known = none := by
  refine Option.eq_none_iff_forall_ne_some.mpr fun c hc => ?_
  obtain ⟨j, hran⟩ := hsound.stored hc
  obtain hq' | hnil := hother
  · exact hq' (h.ran htold hran).1
  · obtain ⟨a, ha, -⟩ := hran
    rw [hnil] at ha
    cases ha

/-! ## 4. In any order -/

/-- **Asking together.**  If all ask one question, and all procedures that run come to one answer,
then whatever the order of the steps, once all calls have returned they and the answers have come to
what `Answers.askTogether` says. -/
theorem quiet_eq_askTogether (initialCapacity : Nat)
    (hrun : (start initialCapacity).run acts = some s)
    (hstore : (start initialCapacity).Honours acts) (hquiet : s.Quiet)
    (h : Unanimous acts s q b) :
    let together := (Answers.empty initialCapacity).askTogether q b s.askers.length
    s.askers.map Asker.stage = together.1.map (fun c => .done (.ok c)) ∧
      s.answers.hits = together.2.hits ∧ s.answers.misses = together.2.misses ∧
      s.answers.evaluations = together.2.evaluations ∧
      ∀ q', Assoc.find? q' s.answers.known = Assoc.find? q' together.2.known := by
  have hreaches : (start initialCapacity).Reaches acts s := ⟨hrun, hstore⟩
  obtain ⟨hsound, htold⟩ := hreaches.history (sound_start _) (told_start _)
  rw [List.nil_append] at htold
  obtain ⟨hcalls, hmisses, hevaluations⟩ := hquiet.counters hsound
  have hstages : s.askers.map Asker.stage = List.replicate s.askers.length (.done (.ok b)) :=
    List.eq_replicate_iff.mpr ⟨List.length_map _, fun stage hstage => by
      obtain ⟨a, ha, rfl⟩ := List.mem_map.mp hstage
      obtain ⟨i, hi⟩ := List.mem_iff_getElem?.mp ha
      exact h.done hsound htold hquiet hi⟩
  intro together
  rw [hstages]
  cases hlength : s.askers.length with
  | zero =>
    have hnil := List.length_eq_zero_iff.mp hlength
    have htogether : together = ([], .empty initialCapacity) := by
      simp only [together, hlength]
      rfl
    rw [hnil] at hcalls hevaluations
    rw [htogether]
    refine ⟨rfl, ?_, ?_, hevaluations, fun q' => h.find?_eq_none hsound htold (.inr hnil)⟩
    · exact (Nat.add_eq_zero_iff.mp hcalls).1
    · exact (Nat.add_eq_zero_iff.mp hcalls).2
  | succ n =>
    obtain ⟨hone, hknown⟩ := h.leader hsound htold hquiet (hlength ▸ Nat.succ_pos n)
    have htogether : together =
        (List.replicate (n + 1) b, ⟨initialCapacity, [(q, b)], n, 1, 1⟩) := by
      simp only [together, hlength, Answers.askTogether_empty]
    rw [hone] at hevaluations
    rw [htogether, List.map_replicate]
    refine ⟨rfl, ?_, hmisses.trans hevaluations, hevaluations, fun q' => ?_⟩
    · change s.answers.hits = n
      omega
    · by_cases hq' : q' = q
      · rw [hq', hknown]
        exact (if_pos rfl).symm
      · rw [h.find?_eq_none hsound htold (.inl hq')]
        exact (if_neg (Ne.symm hq')).symm

/-- **The order of the steps does not show**: when all calls have returned, calls in turn could have
come to the same. -/
theorem exists_turns_of_quiet (initialCapacity : Nat)
    (hrun : (start initialCapacity).run acts = some s)
    (hstore : (start initialCapacity).Honours acts) (hquiet : s.Quiet)
    (h : Unanimous acts s q b) :
    ∃ turns s', Turns 0 turns ∧ (start initialCapacity).Reaches turns s' ∧
      s'.askers.map Asker.question = s.askers.map Asker.question ∧
      s'.askers.map Asker.stage = s.askers.map Asker.stage ∧
      s'.answers.hits = s.answers.hits ∧ s'.answers.misses = s.answers.misses ∧
      s'.answers.evaluations = s.answers.evaluations ∧
      ∀ q', Assoc.find? q' s'.answers.known = Assoc.find? q' s.answers.known := by
  obtain ⟨hstages, hhits, hmisses, hevaluations, hknown⟩ :=
    quiet_eq_askTogether initialCapacity hrun hstore hquiet h
  have hnobody : (start initialCapacity : Shared ε).Quiet := fun a ha => by cases ha
  obtain ⟨turns, later, hturns, hreaches, hquestions, hlater⟩ :=
    exists_turns_askInTurn (start initialCapacity) hnobody
      (List.replicate s.askers.length (q, fun u => (.ok b, u))) ()
  have hinTurn := (Answers.empty initialCapacity).askInTurn_replicate (ε := ε) q b s.askers.length
  rw [show (start initialCapacity : Shared ε).answers = .empty initialCapacity from rfl, hinTurn]
    at hreaches hlater
  refine ⟨turns, _, hturns, hreaches, ?_, ?_, hhits.symm, hmisses.symm, hevaluations.symm,
    fun q' => (hknown q').symm⟩
  · have hasked : s.askers.map Asker.question = List.replicate s.askers.length q :=
      List.map_eq_replicate_iff.mpr h.question
    rw [List.map_replicate] at hquestions
    exact hquestions.trans hasked.symm
  · rw [List.map_map] at hlater
    exact hlater.trans hstages.symm

end Shared

end AccessRules
