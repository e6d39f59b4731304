/-
# Askers step by step

What one step of any of the askers of `Shared` comes to, if the store keeps its contract, and what
therefore holds between any two steps: for each question at most one procedure is on its way, and
only where there is no answer; an answer is found out once, and then is on its way to the store or
there.

* `advances_of_advance`: all that a move can do;
* `exists_reaches_ask`: one asker by himself does what `Answers.ask` says;
* `Progress`: what a move comes to, for the asker and for the answers (`Sound.progress`);
* `Sound`: what holds between any two steps (`Sound.step`).
-/
import AccessRules.Answers.Shared

namespace AccessRules

namespace Asker

variable {ε : Type}

/-- The mark is set when the procedure starts. -/
@[simp] def Marked (a : Asker ε) : Prop :=
  match a.stage with
  | .called | .waiting _ | .leading => a.evaluated = false
  | .running | .tallied | .finished _ => a.evaluated = true
  | .received _ | .done _ => True

/-- His procedure will not run, or not again. -/
@[simp] def isOver (a : Asker ε) : Bool :=
  match a.stage with
  | .waiting _ | .finished _ | .received _ | .done _ => true
  | .called | .leading | .running | .tallied => false

/-- A look-up that was counted as a hit. -/
@[simp] def isHit (a : Asker ε) : Bool := a.stage.returned && !a.evaluated

/-- A look-up that was counted as a miss. -/
@[simp] def isMiss (a : Asker ε) : Bool := a.stage.returned && a.evaluated

/-- A run that was counted. -/
@[simp] def isTallied (a : Asker ε) : Bool :=
  match a.stage with
  | .running => false
  | _ => a.evaluated

/-- On the way, a procedure is to run or has started. -/
theorem Marked.leads {a : Asker ε} (h : a.Marked) (hflight : a.stage.inFlight = true) :
    a.evaluated = true ∨ a.stage = .leading := by
  obtain ⟨q, e, stage⟩ := a
  cases stage with
  | leading => exact .inr rfl
  | running | tallied | finished o => exact .inl h
  | called | waiting j | received o | done o => cases hflight

/-- Who has an outcome does not run. -/
theorem isOver_of_outcome {a : Asker ε} {o : Except ε Bool} (h : a.stage.outcome? = some o) :
    a.isOver = true := by
  obtain ⟨q, e, stage⟩ := a
  cases stage with
  | finished o | received o | done o => rfl
  | called | leading | running | tallied | waiting j => cases h

/-- When a call has returned, its run is counted. -/
theorem isTallied_of_returned {a : Asker ε} (h : a.stage.returned = true) :
    a.isTallied = a.evaluated := by
  obtain ⟨q, e, stage⟩ := a
  cases stage with
  | done o => rfl
  | called | leading | running | tallied | finished _ | waiting _ | received _ => cases h

end Asker

namespace Shared

variable {ε : Type}

/-! ## 1. Runs -/

/-- A run during which the store keeps its contract. -/
structure Reaches (s : Shared ε) (acts : List (Act ε)) (s' : Shared ε) : Prop where
  run : s.run acts = some s'
  honours : s.Honours acts

variable {s s' s'' : Shared ε} {act : Act ε} {acts more : List (Act ε)}

theorem reaches_cons_iff : s.Reaches (act :: acts) s'' ↔
    ∃ s', s.step act = some s' ∧ s.Permits act ∧ s'.Reaches acts s'' := by
  constructor
  · rintro ⟨hrun, hpermits, hhonours⟩
    obtain ⟨s', hstep, hrest⟩ := Option.bind_eq_some_iff.mp hrun
    exact ⟨s', hstep, hpermits, hrest, hhonours s' hstep⟩
  · rintro ⟨s', hstep, hpermits, hrun, hhonours⟩
    refine ⟨Option.bind_eq_some_iff.mpr ⟨s', hstep, hrun⟩, hpermits, fun other hother => ?_⟩
    obtain rfl := Option.some.inj (hstep.symm.trans hother)
    exact hhonours

theorem reaches_append_iff : s.Reaches (acts ++ more) s'' ↔
    ∃ s', s.Reaches acts s' ∧ s'.Reaches more s'' := by
  induction acts generalizing s with
  | nil =>
    constructor
    · intro h
      exact ⟨s, ⟨rfl, trivial⟩, h⟩
    · rintro ⟨_, ⟨⟨⟩, -⟩, h⟩
      exact h
  | cons act acts ih =>
    simp only [List.cons_append, reaches_cons_iff, ih]
    constructor
    · rintro ⟨mid, hstep, hpermits, s', hmid, hrest⟩
      exact ⟨s', ⟨mid, hstep, hpermits, hmid⟩, hrest⟩
    · rintro ⟨s', ⟨mid, hstep, hpermits, hmid⟩, hrest⟩
      exact ⟨mid, hstep, hpermits, s', hmid, hrest⟩

/-! ## 2. Moves -/

/-- All that a move can do. -/
inductive Advances (answers : Answers) : Asker ε → Move ε → Answers → Asker ε → Prop
  | enter (q : Question) (e : Bool) (admission : Admission) :
    Advances answers ⟨q, e, .called⟩ (.enter admission) answers ⟨q, e, admission.stage⟩
  | start (q : Question) (e : Bool) :
    Advances answers ⟨q, e, .leading⟩ .start answers ⟨q, true, .running⟩
  | tally (q : Question) (e : Bool) :
    Advances answers ⟨q, e, .running⟩ .tally
      { answers with evaluations := answers.evaluations + 1 } ⟨q, e, .tallied⟩
  | finish (q : Question) (e : Bool) (o : Except ε Bool) :
    Advances answers ⟨q, e, .tallied⟩ (.finish o) answers ⟨q, e, .finished o⟩
  | land (q : Question) (e : Bool) (o : Except ε Bool) (stored : Option Bool) :
    Advances answers ⟨q, e, .finished o⟩ (.land stored)
      (stored.elim answers (answers.insert q)) ⟨q, e, .received o⟩
  | receive (q : Question) (e : Bool) (j : Nat) (o : Except ε Bool) :
    Advances answers ⟨q, e, .waiting j⟩ (.receive o) answers ⟨q, e, .received o⟩
  | count (q : Question) (e : Bool) (o : Except ε Bool) :
    Advances answers ⟨q, e, .received o⟩ .count (answers.count !e) ⟨q, e, .done o⟩

variable {a a' : Asker ε} {m : Move ε} {answers' : Answers}

theorem advances_of_advance {answers : Answers} (h : advance answers a m = some (answers', a')) :
    Advances answers a m answers' a' := by
  obtain ⟨q, e, stage⟩ := a
  cases m <;> cases stage <;>
    simp only [advance, reduceCtorEq, Option.some.injEq, Prod.mk.injEq] at h
  all_goals
    obtain ⟨rfl, rfl⟩ := h
    constructor

/-- A move changes one asker. -/
theorem step_move {i : Nat} (h : s.step (.move i m) = some s') :
    ∃ a answers' a', s.askers[i]? = some a ∧ Advances s.answers a m answers' a' ∧
      s' = ⟨answers', s.askers.set i a'⟩ := by
  rw [step] at h
  cases hi : s.askers[i]? with
  | none => rw [hi] at h; cases h
  | some a =>
    rw [hi] at h
    obtain ⟨⟨answers', a'⟩, hadvance, rfl⟩ := Option.map_eq_some_iff.mp h
    exact ⟨a, answers', a', rfl, advances_of_advance hadvance, rfl⟩

/-! ## 3. One asker alone -/

/-- A move of the one who called last. -/
theorem reaches_last {answers : Answers} {askers : List (Asker ε)}
    (hadvance : advance answers a m = some (answers', a'))
    (hallows : Allows ⟨answers, askers ++ [a]⟩ a m)
    (hrest : Reaches ⟨answers', askers ++ [a']⟩ acts s) :
    Reaches ⟨answers, askers ++ [a]⟩ (.move askers.length m :: acts) s := by
  have hlast : (askers ++ [a])[askers.length]? = some a := List.getElem?_concat_length
  refine reaches_cons_iff.mpr ⟨_, ?_, fun c hc => ?_, hrest⟩
  · rw [step]
    simp only [hlast, hadvance, Option.map_some]
    simp
  · obtain rfl := Option.some.inj (hlast.symm.trans hc)
    exact hallows

/-- Who asks while no procedure is on its way for his question, and makes all his moves at once,
gets what `Answers.ask` says. -/
theorem exists_reaches_ask {σ : Type} (s : Shared ε) (q : Question)
    (hfree : ∀ a ∈ s.askers, a.question = q → a.stage.inFlight = false)
    (run : σ → Except ε Bool × σ) (state : σ) :
    ∃ moves : List (Move ε), s.Reaches (.call q :: moves.map (.move s.askers.length))
      ⟨(s.answers.ask q run state).2.1, s.askers ++
        [⟨q, (Assoc.find? q s.answers.known).isNone, .done (s.answers.ask q run state).1⟩]⟩ := by
  have hcall {acts : List (Act ε)} {s' : Shared ε}
      (h : Reaches ⟨s.answers, s.askers ++ [.newcomer q]⟩ acts s') :
      s.Reaches (.call q :: acts) s' := reaches_cons_iff.mpr ⟨_, rfl, trivial, h⟩
  cases hfound : Assoc.find? q s.answers.known with
  | some b =>
    have hask : s.answers.ask q run state = (.ok b, s.answers.count true, state) := by
      rw [Answers.ask, hfound]
    refine ⟨[.enter (.found b), .count], hcall ?_⟩
    rw [hask]
    exact reaches_last rfl hfound <| reaches_last rfl trivial ⟨rfl, trivial⟩
  | none =>
    have hask : s.answers.ask q run state =
        ((run state).1, s.answers.settle q (run state).1, (run state).2) := by
      rw [Answers.ask, hfound]
    generalize (run state).1 = o at hask
    refine ⟨[.enter .leads, .start, .tally, .finish o, .land o.toOption, .count], hcall ?_⟩
    rw [hask]
    refine reaches_last rfl ⟨hfound, ?_⟩ <| reaches_last rfl trivial <| reaches_last rfl trivial <|
      reaches_last rfl trivial <| reaches_last rfl rfl <| reaches_last rfl trivial ⟨?_, trivial⟩
    · rintro a ha rfl
      obtain ha | ha := List.mem_append.mp ha
      · exact hfree a ha rfl
      · rw [List.mem_singleton.mp ha]
        rfl
    · cases o with
      | ok b => rfl
      | error e => rfl

/-! ## 4. What a move comes to -/

/-- An asker whose procedure has run for a question and returned. -/
def Ran (s : Shared ε) (i : Nat) (q : Question) (o : Except ε Bool) : Prop :=
  ∃ a, s.askers[i]? = some a ∧ a.question = q ∧ a.evaluated = true ∧ a.stage.outcome? = some o

/-- An asker for whom others may wait: his procedure is to run, or has started. -/
def Leads (s : Shared ε) (i : Nat) (q : Question) : Prop :=
  ∃ a, s.askers[i]? = some a ∧ a.question = q ∧ (a.evaluated = true ∨ a.stage = .leading)

/-- A question that has no answer, and for which no procedure is on its way. -/
def Free (s : Shared ε) (q : Question) : Prop :=
  Assoc.find? q s.answers.known = none ∧
    ∀ a ∈ s.askers, a.question = q → a.stage.inFlight = false

/-- What a move comes to, whichever it is, for the one who makes it and for the answers. -/
structure Progress (s : Shared ε) (a : Asker ε) (m : Move ε) (answers' : Answers) (a' : Asker ε) :
    Prop where
  question : a'.question = a.question
  marked : a'.Marked
  evaluated : a'.evaluated = true ↔ a.evaluated = true ∨ m = .start
  /-- A procedure starts once. -/
  fresh : m = .start → a.evaluated = false
  ran : ∀ o, a'.evaluated = true ∧ a'.stage.outcome? = some o ↔
    a.evaluated = true ∧ a.stage.outcome? = some o ∨ m = .finish o
  /-- A procedure starts and returns on the way only. -/
  onWay : (m = .start ∨ ∃ o, m = .finish o) → a.stage.inFlight = true ∧ a.isOver = false
  finality : a.isOver = true → a'.isOver = true
  /-- One sets out for a free question only. -/
  setsOut : a'.stage.inFlight = true → a.stage.inFlight = true ∨ s.Free a.question
  /-- The way ends with an answer stored, or an error. -/
  arrives : a.stage.inFlight = true → a'.stage.inFlight = false →
    ∀ b, a'.stage.outcome? = some (.ok b) → Assoc.find? a.question answers'.known = some b
  /-- Only at the end of the way is an answer stored. -/
  known : answers'.known = s.answers.known ∨ ∃ b, a.stage.inFlight = true ∧ a.evaluated = true ∧
    a.stage.outcome? = some (.ok b) ∧ a'.stage.inFlight = false ∧
      answers'.known = Assoc.insert a.question b s.answers.known
  leading : a.stage = .leading → a'.evaluated = true
  /-- One waits for a leader only. -/
  waits : ∀ j, a'.stage = .waiting j → s.Leads j a.question
  /-- An outcome is that of a procedure. -/
  source : ∀ o, a'.stage.outcome? = some o → a'.evaluated = true ∨ ∃ j, s.Ran j a.question o
  hits : answers'.hits + a.isHit.toNat = s.answers.hits + a'.isHit.toNat
  misses : answers'.misses + a.isMiss.toNat = s.answers.misses + a'.isMiss.toNat
  evaluations : answers'.evaluations + a.isTallied.toNat =
    s.answers.evaluations + a'.isTallied.toNat

/-- What holds between any two steps. -/
structure Sound (s : Shared ε) : Prop where
  marked : ∀ {i : Nat} {a : Asker ε}, s.askers[i]? = some a → a.Marked
  /-- At most one procedure is on its way for a question, -/
  alone : ∀ {i j : Nat} {a b : Asker ε}, s.askers[i]? = some a → s.askers[j]? = some b →
    a.question = b.question → a.stage.inFlight = true → b.stage.inFlight = true → i = j
  /-- and only where there is no answer. -/
  unknown : ∀ {i : Nat} {a : Asker ε}, s.askers[i]? = some a → a.stage.inFlight = true →
    Assoc.find? a.question s.answers.known = none
  /-- An answer found out is on its way to the store, or stored, -/
  settled : ∀ {i : Nat} {a : Asker ε} {b : Bool}, s.askers[i]? = some a → a.evaluated = true →
    a.stage.outcome? = some (.ok b) →
      a.stage.inFlight = true ∨ Assoc.find? a.question s.answers.known = some b
  /-- and found out once. -/
  once : ∀ {i j : Nat} {q : Question} {b c : Bool},
    s.Ran i q (.ok b) → s.Ran j q (.ok c) → i = j
  stored : ∀ {q : Question} {b : Bool}, Assoc.find? q s.answers.known = some b →
    ∃ j, s.Ran j q (.ok b)
  waits : ∀ {i j : Nat} {a : Asker ε}, s.askers[i]? = some a → a.stage = .waiting j →
    s.Leads j a.question
  source : ∀ {i : Nat} {a : Asker ε} {o : Except ε Bool}, s.askers[i]? = some a →
    a.stage.outcome? = some o → ∃ j, s.Ran j a.question o
  hits : s.answers.hits = s.askers.countP Asker.isHit
  misses : s.answers.misses = s.askers.countP Asker.isMiss
  evaluations : s.answers.evaluations = s.askers.countP Asker.isTallied

/-- One who is on his way and has an outcome has run his procedure. -/
theorem Leads.ran {j : Nat} {q : Question} {o : Except ε Bool} (hleads : s.Leads j q)
    (ho : s.outcome? j = some o) : s.Ran j q o := by
  obtain ⟨c, hc, hq, hlead⟩ := hleads
  rw [outcome?, hc] at ho
  obtain hev | hleading := hlead
  · exact ⟨c, hc, hq, hev, ho⟩
  · rw [Option.bind_some, hleading] at ho
    cases ho

/-- What a move comes to, where the store is allowed to take its part in it. -/
theorem Sound.progress (h : s.Sound) {i : Nat} (hi : s.askers[i]? = some a)
    (hadvances : Advances s.answers a m answers' a') (hallows : s.Allows a m) :
    s.Progress a m answers' a' := by
  have hmarked := h.marked hi
  -- What is not named here is read off the two stages.
  cases hadvances with
  | enter q e admission =>
    have hmark : e = false := hmarked
    cases admission with
    | found b =>
      have hsource := h.stored hallows
      constructor <;> simp_all
    | waits j =>
      obtain ⟨leader, hj, hq, hflight⟩ := hallows
      have hleads : s.Leads j q := ⟨leader, hj, hq, (h.marked hj).leads hflight⟩
      constructor <;> simp_all
    | leads =>
      have hfree : s.Free q := hallows
      constructor <;> simp_all
  | start q e =>
    have hmark : e = false := hmarked
    constructor <;> simp_all
  | tally q e => constructor <;> simp_all
  | finish q e o =>
    have hmark : e = true := hmarked
    constructor <;> simp_all
  | land q e o stored =>
    have hmark : e = true := hmarked
    obtain rfl : stored = o.toOption := hallows
    cases o with
    | error x => constructor <;> simp_all [Except.toOption]
    | ok b =>
      constructor
      case known => exact .inr ⟨b, rfl, hmark, rfl, rfl, rfl⟩
      all_goals simp_all [Except.toOption, Answers.insert]
  | receive q e j o =>
    have hmark : e = false := hmarked
    have hsource := (h.waits hi rfl).ran hallows
    constructor
    case source =>
      rintro _ ⟨⟩
      exact .inr ⟨j, hsource⟩
    all_goals simp_all
  | count q e o =>
    have hsource := h.source hi rfl
    cases e with
    | false => constructor <;> simp_all [Answers.count]
    | true => constructor <;> simp_all [Answers.count]

/-! ## 5. Steps -/

/-- Who is where after a move. -/
theorem getElem?_moved {i : Nat} (hi : s.askers[i]? = some a) {k : Nat} {c : Asker ε} :
    (s.askers.set i a')[k]? = some c ↔ k = i ∧ c = a' ∨ k ≠ i ∧ s.askers[k]? = some c := by
  obtain ⟨hlt, -⟩ := List.getElem?_eq_some_iff.mp hi
  rw [List.getElem?_set]
  by_cases hk : i = k
  · subst hk
    simp [hlt, eq_comm]
  · simp [hk, Ne.symm hk]

/-- A count after a move. -/
theorem countP_moved {i : Nat} (hi : s.askers[i]? = some a) (a' : Asker ε) (p : Asker ε → Bool) :
    (s.askers.set i a').countP p + (p a).toNat = s.askers.countP p + (p a').toNat := by
  obtain ⟨hlt, rfl⟩ := List.getElem?_eq_some_iff.mp hi
  have hset := List.countP_set (p := p) (a := a') hlt
  have hle := List.boole_getElem_le_countP (p := p) hlt
  have hite (b : Bool) : b.toNat = if b then 1 else 0 := by cases b <;> rfl
  rw [hite, hite]
  omega

/-- Whose procedure has returned after a move. -/
theorem Progress.ran_iff (h : s.Progress a m answers' a') {i : Nat} (hi : s.askers[i]? = some a)
    {k : Nat} {q : Question} {o : Except ε Bool} :
    Ran ⟨answers', s.askers.set i a'⟩ k q o ↔
      s.Ran k q o ∨ k = i ∧ a.question = q ∧ m = .finish o := by
  have hran := h.ran o
  have hquestion := h.question
  simp only [Ran, getElem?_moved hi]
  constructor
  · rintro ⟨c, ⟨rfl, rfl⟩ | ⟨-, hc⟩, hq, hrest⟩
    · obtain hbefore | hm := hran.mp hrest
      · exact .inl ⟨a, hi, hquestion ▸ hq, hbefore⟩
      · exact .inr ⟨rfl, hquestion ▸ hq, hm⟩
    · exact .inl ⟨c, hc, hq, hrest⟩
  · rintro (⟨c, hc, hq, hrest⟩ | ⟨rfl, hq, hm⟩)
    · by_cases hk : k = i
      · subst hk
        obtain rfl := Option.some.inj (hi.symm.trans hc)
        exact ⟨a', .inl ⟨rfl, rfl⟩, hquestion.trans hq, hran.mpr (.inl hrest)⟩
      · exact ⟨c, .inr ⟨hk, hc⟩, hq, hrest⟩
    · exact ⟨a', .inl ⟨rfl, rfl⟩, hquestion.trans hq, hran.mpr (.inr hm)⟩

/-- A leader remains one. -/
theorem Progress.leads (h : s.Progress a m answers' a') {i : Nat} (hi : s.askers[i]? = some a)
    {k : Nat} {q : Question} (hleads : s.Leads k q) :
    Leads ⟨answers', s.askers.set i a'⟩ k q := by
  obtain ⟨c, hc, hq, hlead⟩ := hleads
  by_cases hk : k = i
  · subst hk
    obtain rfl := Option.some.inj (hi.symm.trans hc)
    refine ⟨a', (getElem?_moved hi).mpr (.inl ⟨rfl, rfl⟩), h.question.trans hq, .inl ?_⟩
    obtain hev | hleading := hlead
    · exact h.evaluated.mpr (.inl hev)
    · exact h.leading hleading
  · exact ⟨c, (getElem?_moved hi).mpr (.inr ⟨hk, hc⟩), hq, hlead⟩

/-- What is stored stays. -/
theorem Sound.find?_moved (h : s.Sound) {i : Nat} (hi : s.askers[i]? = some a)
    (hprogress : s.Progress a m answers' a') {q : Question} {b : Bool}
    (hb : Assoc.find? q s.answers.known = some b) : Assoc.find? q answers'.known = some b := by
  obtain hknown | ⟨c, hflight, -, -, -, hknown⟩ := hprogress.known
  · rw [hknown, hb]
  · have hnone := h.unknown hi hflight
    rw [hknown, Assoc.find?_insert_of_ne c ?_, hb]
    rintro rfl
    rw [hnone] at hb
    cases hb

/-- No other procedure is on its way for the question of one who is. -/
theorem Sound.alone_moved (h : s.Sound) {i : Nat} (hi : s.askers[i]? = some a)
    (hprogress : s.Progress a m answers' a') (hflight : a'.stage.inFlight = true) {k : Nat}
    {c : Asker ε} (hc : s.askers[k]? = some c) (hq : c.question = a.question)
    (hother : c.stage.inFlight = true) : k = i := by
  obtain hbefore | hfree := hprogress.setsOut hflight
  · exact h.alone hc hi hq hother hbefore
  · rw [hfree.2 c (List.mem_of_getElem? hc) hq] at hother
    cases hother

/-- While a procedure is on its way, no answer to its question was found out by another. -/
theorem Sound.eq_of_ran (h : s.Sound) {i k : Nat} (hi : s.askers[i]? = some a)
    (hflight : a.stage.inFlight = true) {b : Bool} (hran : s.Ran k a.question (.ok b)) : k = i := by
  obtain ⟨c, hc, hq, hev, hout⟩ := hran
  obtain hother | hstored := h.settled hc hev hout
  · exact h.alone hc hi hq hother hflight
  · rw [hq, h.unknown hi hflight] at hstored
    cases hstored

/-- A move keeps everything sound. -/
theorem Sound.moved (h : s.Sound) {i : Nat} (hi : s.askers[i]? = some a)
    (hprogress : s.Progress a m answers' a') : Sound ⟨answers', s.askers.set i a'⟩ where
  marked {k c} hc := by
    obtain ⟨-, rfl⟩ | ⟨-, hc⟩ := (getElem?_moved hi).mp hc
    · exact hprogress.marked
    · exact h.marked hc
  alone {k l c d} hc hd hq hflight hother := by
    have hquestion := hprogress.question
    obtain ⟨rfl, rfl⟩ | ⟨-, hk⟩ := (getElem?_moved hi).mp hc
    · obtain ⟨rfl, -⟩ | ⟨-, hl⟩ := (getElem?_moved hi).mp hd
      · rfl
      · exact (h.alone_moved hi hprogress hflight hl (hq.symm.trans hquestion) hother).symm
    · obtain ⟨rfl, rfl⟩ | ⟨-, hl⟩ := (getElem?_moved hi).mp hd
      · exact h.alone_moved hi hprogress hother hk (hq.trans hquestion) hflight
      · exact h.alone hk hl hq hflight hother
  unknown {k c} hc hflight := by
    obtain ⟨-, rfl⟩ | ⟨hk, hc⟩ := (getElem?_moved hi).mp hc
    · obtain hknown | ⟨b, -, -, -, hlanded, -⟩ := hprogress.known
      · rw [hknown, hprogress.question]
        obtain hbefore | hfree := hprogress.setsOut hflight
        · exact h.unknown hi hbefore
        · exact hfree.1
      · rw [hlanded] at hflight
        cases hflight
    · obtain hknown | ⟨b, hbefore, -, -, -, hknown⟩ := hprogress.known
      · rw [hknown]
        exact h.unknown hc hflight
      · rw [hknown, Assoc.find?_insert_of_ne b fun hq => hk (h.alone hc hi hq hflight hbefore)]
        exact h.unknown hc hflight
  settled {k c b} hc hev hout := by
    obtain ⟨-, rfl⟩ | ⟨-, hc⟩ := (getElem?_moved hi).mp hc
    · rw [hprogress.question]
      by_cases hflight : c.stage.inFlight = true
      · exact .inl hflight
      · by_cases hbefore : a.stage.inFlight = true
        · exact .inr (hprogress.arrives hbefore (Bool.eq_false_iff.mpr hflight) b hout)
        · obtain ⟨hev, hout⟩ | hm := (hprogress.ran _).mp ⟨hev, hout⟩
          · exact .inr (h.find?_moved hi hprogress ((h.settled hi hev hout).resolve_left hbefore))
          · exact absurd (hprogress.onWay (.inr ⟨_, hm⟩)).1 hbefore
    · exact (h.settled hc hev hout).imp_right (h.find?_moved hi hprogress)
  once {k l q b c} hk hl := by
    obtain hold | ⟨rfl, rfl, hm⟩ := (hprogress.ran_iff hi).mp hk
    · obtain hother | ⟨rfl, rfl, hm⟩ := (hprogress.ran_iff hi).mp hl
      · exact h.once hold hother
      · exact h.eq_of_ran hi (hprogress.onWay (.inr ⟨_, hm⟩)).1 hold
    · obtain hother | ⟨rfl, -, -⟩ := (hprogress.ran_iff hi).mp hl
      · exact (h.eq_of_ran hi (hprogress.onWay (.inr ⟨_, hm⟩)).1 hother).symm
      · rfl
  stored {q b} hb := by
    obtain hknown | ⟨c, -, hev, hout, -, hknown⟩ := hprogress.known
    · obtain ⟨j, hran⟩ := h.stored (hknown ▸ hb)
      exact ⟨j, (hprogress.ran_iff hi).mpr (.inl hran)⟩
    · rw [hknown, Assoc.find?_insert] at hb
      split at hb
      · next hq =>
        cases hb
        exact ⟨i, (hprogress.ran_iff hi).mpr (.inl ⟨a, hi, hq.symm, hev, hout⟩)⟩
      · obtain ⟨j, hran⟩ := h.stored hb
        exact ⟨j, (hprogress.ran_iff hi).mpr (.inl hran)⟩
  waits {k j c} hc hwaits := by
    obtain ⟨-, rfl⟩ | ⟨-, hc⟩ := (getElem?_moved hi).mp hc
    · exact hprogress.leads hi (hprogress.question ▸ hprogress.waits j hwaits)
    · exact hprogress.leads hi (h.waits hc hwaits)
  source {k c o} hc hout := by
    obtain ⟨rfl, rfl⟩ | ⟨-, hc⟩ := (getElem?_moved hi).mp hc
    · obtain hev | ⟨j, hran⟩ := hprogress.source o hout
      · exact ⟨k, c, (getElem?_moved hi).mpr (.inl ⟨rfl, rfl⟩), rfl, hev, hout⟩
      · exact ⟨j, (hprogress.ran_iff hi).mpr (.inl (hprogress.question ▸ hran))⟩
    · obtain ⟨j, hran⟩ := h.source hc hout
      exact ⟨j, (hprogress.ran_iff hi).mpr (.inl hran)⟩
  hits := by
    have hstep := hprogress.hits
    have hcount := countP_moved hi a' Asker.isHit
    have hbefore := h.hits
    change answers'.hits = (s.askers.set i a').countP Asker.isHit
    omega
  misses := by
    have hstep := hprogress.misses
    have hcount := countP_moved hi a' Asker.isMiss
    have hbefore := h.misses
    change answers'.misses = (s.askers.set i a').countP Asker.isMiss
    omega
  evaluations := by
    have hstep := hprogress.evaluations
    have hcount := countP_moved hi a' Asker.isTallied
    have hbefore := h.evaluations
    change answers'.evaluations = (s.askers.set i a').countP Asker.isTallied
    omega

/-- Who is where after a call. -/
theorem getElem?_called {q : Question} {k : Nat} {c : Asker ε} :
    (s.askers ++ [.newcomer q])[k]? = some c ↔
      s.askers[k]? = some c ∨ k = s.askers.length ∧ c = .newcomer q := by
  obtain hlt | rfl | hlt := Nat.lt_trichotomy k s.askers.length
  · simp [List.getElem?_append_left hlt, Nat.ne_of_lt hlt]
  · simp [eq_comm]
  · have hle : (s.askers ++ [Asker.newcomer q]).length ≤ k := by
      rw [List.length_append]
      exact hlt
    rw [List.getElem?_eq_none hle, List.getElem?_eq_none (Nat.le_of_lt hlt)]
    simp [Nat.ne_of_gt hlt]

/-- Whoever calls has not run anything. -/
theorem ran_called {q q' : Question} {k : Nat} {o : Except ε Bool} :
    Ran ⟨s.answers, s.askers ++ [.newcomer q]⟩ k q' o ↔ s.Ran k q' o := by
  simp only [Ran, getElem?_called]
  constructor
  · rintro ⟨c, hc | ⟨-, rfl⟩, hq, hev, hout⟩
    · exact ⟨c, hc, hq, hev, hout⟩
    · cases hev
  · rintro ⟨c, hc, hrest⟩
    exact ⟨c, .inl hc, hrest⟩

/-- A call keeps everything sound. -/
theorem Sound.called (h : s.Sound) (q : Question) :
    Sound ⟨s.answers, s.askers ++ [.newcomer q]⟩ where
  marked hc := by
    obtain hc | ⟨-, rfl⟩ := getElem?_called.mp hc
    · exact h.marked hc
    · rfl
  alone hc hd hq hflight hother := by
    obtain hc | ⟨-, rfl⟩ := getElem?_called.mp hc
    · obtain hd | ⟨-, rfl⟩ := getElem?_called.mp hd
      · exact h.alone hc hd hq hflight hother
      · cases hother
    · cases hflight
  unknown hc hflight := by
    obtain hc | ⟨-, rfl⟩ := getElem?_called.mp hc
    · exact h.unknown hc hflight
    · cases hflight
  settled hc hev hout := by
    obtain hc | ⟨-, rfl⟩ := getElem?_called.mp hc
    · exact h.settled hc hev hout
    · cases hev
  once hk hl := h.once (ran_called.mp hk) (ran_called.mp hl)
  stored hb := (h.stored hb).imp fun _ => ran_called.mpr
  waits hc hwaits := by
    obtain hc | ⟨-, rfl⟩ := getElem?_called.mp hc
    · obtain ⟨leader, hj, hlead⟩ := h.waits hc hwaits
      exact ⟨leader, getElem?_called.mpr (.inl hj), hlead⟩
    · cases hwaits
  source hc hout := by
    obtain hc | ⟨-, rfl⟩ := getElem?_called.mp hc
    · exact (h.source hc hout).imp fun _ => ran_called.mpr
    · cases hout
  hits := by rw [List.countP_append]; exact h.hits
  misses := by rw [List.countP_append]; exact h.misses
  evaluations := by rw [List.countP_append]; exact h.evaluations

/-- Every permitted step keeps everything sound. -/
theorem Sound.step (h : s.Sound) (hstep : s.step act = some s')
    (hpermits : s.Permits act) : s'.Sound := by
  cases act with
  | call q =>
    obtain rfl := Option.some.inj hstep
    exact h.called q
  | move i m =>
    obtain ⟨a, answers', a', hi, hadvances, rfl⟩ := step_move hstep
    exact h.moved hi (h.progress hi hadvances (hpermits a hi))

theorem sound_start (initialCapacity : Nat) : (start initialCapacity : Shared ε).Sound where
  marked h := nomatch h
  alone h := nomatch h
  unknown h := nomatch h
  settled h := nomatch h
  once h := nomatch h
  stored h := nomatch h
  waits h := nomatch h
  source h := nomatch h
  hits := rfl
  misses := rfl
  evaluations := rfl

end Shared

end AccessRules
