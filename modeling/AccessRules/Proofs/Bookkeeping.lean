/-
# Remembered answers over any history of use

The answers of a request are used in four ways: an answer is looked up, put there, found out by a
run, or all are forgotten.  `Trail` keeps a log of what each use returned and of how often it ran
its procedure, and `held` reads off such a log what is remembered of a question: what was put there
last since all was forgotten, or else what the first run found out.

So the store is a map, whatever was done with it, and its three counters are counts of entries of
the log.

* `held_concat`: what one more entry changes;
* `Trail.Accounted`: what is remembered, and the counters;
* `Trail.Lawful`: what one use owes;
* `trail_accounts`: both hold after every history, whatever the capacity.
-/
import AccessRules.Answers.Basic
import Mathlib.Algebra.Ring.Nat
import Mathlib.Data.Finset.Card
import Mathlib.Data.List.DropRight

namespace AccessRules

/-! ## 1. Keys of a map -/

namespace Assoc

variable {κ ν : Type} [DecidableEq κ]

/-- The keys of a map, in the order in which they came. -/
def keys (m : Assoc κ ν) : List κ := m.map (·.1)

theorem mem_keys_iff {key : κ} {m : Assoc κ ν} : key ∈ keys m ↔ (find? key m).isSome := by
  induction m with
  | nil => simp [keys, find?]
  | cons e m ih =>
    rw [keys] at ih ⊢
    rw [List.map_cons, List.mem_cons, find?, ih]
    by_cases h : e.1 = key
    · simp [h]
    · simp [h, Ne.symm h]

/-- Putting a value under a key keeps the keys apart. -/
theorem nodup_keys_insert (key : κ) (value : ν) {m : Assoc κ ν} (h : (keys m).Nodup) :
    (keys (insert key value m)).Nodup := by
  induction m with
  | nil => exact List.nodup_singleton key
  | cons e m ih =>
    rw [keys, List.map_cons, List.nodup_cons] at h
    rw [insert]
    split
    · next he =>
      rw [keys, List.map_cons, List.nodup_cons, ← he]
      exact h
    · next he =>
      refine List.nodup_cons.mpr ⟨fun hmem => h.1 ?_, ih h.2⟩
      have hfound := mem_keys_iff.mp hmem
      rw [find?_insert_of_ne value he] at hfound
      exact mem_keys_iff.mpr hfound

/-- The number of entries is the number of keys that are found. -/
theorem exists_card_eq_length {m : Assoc κ ν} (h : (keys m).Nodup) :
    ∃ found : Finset κ, (∀ key, key ∈ found ↔ (find? key m).isSome) ∧ m.length = found.card :=
  ⟨(keys m).toFinset, fun key => List.mem_toFinset.trans mem_keys_iff, by
    rw [List.toFinset_card_of_nodup h, keys, List.length_map]⟩

end Assoc

namespace Answers

/-! ## 2. Logs -/

variable {ε σ : Type}

/-- What one use of the answers came to. -/
inductive Entry (ε : Type) where
  | got (question : Question) (found : Option Bool)
  | inserted (question : Question) (answer : Bool)
  /-- With the number of runs that were made for it. -/
  | asked (question : Question) (outcome : Except ε Bool) (runs : Nat)
  | cleared

namespace Entry

/-- The answer that an entry puts under a question. -/
def inserted? (q : Question) : Entry ε → Option Bool
  | inserted q' b => if q = q' then some b else none
  | _ => none

/-- The answer that a run found out for a question. -/
def evaluated? (q : Question) : Entry ε → Option Bool
  | asked q' (.ok b) runs => if q = q' ∧ runs ≠ 0 then some b else none
  | _ => none

/-- Whether all answers were forgotten. -/
def clears : Entry ε → Bool
  | cleared => true
  | _ => false

/-- Whether an answer was looked for. -/
def looksUp : Entry ε → Bool
  | got _ _ | asked _ _ _ => true
  | _ => false

/-- Whether a mere look-up found nothing. -/
def findsNothing : Entry ε → Bool
  | got _ none => true
  | _ => false

/-- How many runs were made. -/
def runs : Entry ε → Nat
  | asked _ _ runs => runs
  | _ => 0

end Entry

/-- The log since all answers were forgotten. -/
def sinceCleared (log : List (Entry ε)) : List (Entry ε) := log.rtakeWhile fun e => !e.clears

/-- What a log says of a question: the answer that was put there last, or else the first that a run
found out, since all answers were forgotten. -/
def held (log : List (Entry ε)) (q : Question) : Option Bool :=
  ((sinceCleared log).filterMap (Entry.inserted? q)).getLast?.or
    ((sinceCleared log).filterMap (Entry.evaluated? q)).head?

/-- What one more entry changes: it forgets all, or puts an answer in place of what is held, or
finds one out where none is held. -/
theorem held_concat (log : List (Entry ε)) (e : Entry ε) (q : Question) :
    held (log ++ [e]) q =
      if e.clears then none else (e.inserted? q).or ((held log q).or (e.evaluated? q)) := by
  cases hclears : e.clears with
  | true => simp [held, sinceCleared, hclears]
  | false =>
    have hsince : sinceCleared (log ++ [e]) = sinceCleared log ++ [e] := by
      simp [sinceCleared, hclears]
    have hlast : ([e].filterMap (Entry.inserted? q)).getLast? = e.inserted? q := by
      rw [List.filterMap_cons]
      cases e.inserted? q <;> rfl
    have hhead : ([e].filterMap (Entry.evaluated? q)).head? = e.evaluated? q := by
      rw [List.filterMap_cons]
      cases e.evaluated? q <;> rfl
    rw [held, held, hsince, List.filterMap_append, List.filterMap_append, List.getLast?_append,
      List.head?_append, hlast, hhead, Option.or_assoc, Option.or_assoc]
    rfl

/-! ## 3. Uses -/

/-- The ways in which answers are used.  A procedure may change a state. -/
inductive Use (ε σ : Type) where
  | get (question : Question)
  | insert (question : Question) (answer : Bool)
  | ask (question : Question) (run : σ → Except ε Bool × σ)
  | clear

/-- Answers in use: the state of the procedures, and the log. -/
structure Trail (ε σ : Type) where
  answers : Answers
  state : σ
  log : List (Entry ε)

namespace Trail

/-- Nothing was asked yet. -/
def start (initialCapacity : Nat) (state : σ) : Trail ε σ := ⟨.empty initialCapacity, state, []⟩

/-- One use, whose procedure counts its runs. -/
def use (t : Trail ε σ) : Use ε σ → Trail ε σ
  | .get q =>
    let (found, answers) := t.answers.get q
    ⟨answers, t.state, t.log ++ [.got q found]⟩
  | .insert q b => ⟨t.answers.insert q b, t.state, t.log ++ [.inserted q b]⟩
  | .ask q run =>
    let counted : σ × Nat → Except ε Bool × σ × Nat := fun (s, runs) =>
      let (outcome, s) := run s
      (outcome, s, runs + 1)
    let (outcome, answers, state, runs) := t.answers.ask q counted (t.state, 0)
    ⟨answers, state, t.log ++ [.asked q outcome runs]⟩
  | .clear => ⟨t.answers.clear, t.state, t.log ++ [.cleared]⟩

/-- Uses one after the other. -/
def useAll (t : Trail ε σ) (uses : List (Use ε σ)) : Trail ε σ := uses.foldl use t

/-- What one use owes, by what is held before it: a look-up finds what is held; a question gets that
and nothing runs, or its procedure runs once and its outcome is returned. -/
def Lawful (t : Trail ε σ) (t' : Trail ε σ) : Use ε σ → Prop
  | .get q => t'.state = t.state ∧ t'.log = t.log ++ [.got q (held t.log q)]
  | .insert q b => t'.state = t.state ∧ t'.log = t.log ++ [.inserted q b]
  | .ask q run =>
    match held t.log q with
    | some b => t'.state = t.state ∧ t'.log = t.log ++ [.asked q (.ok b) 0]
    | none => t'.state = (run t.state).2 ∧ t'.log = t.log ++ [.asked q (run t.state).1 1]
  | .clear => t'.state = t.state ∧ t'.log = t.log ++ [.cleared]

/-- An entry is about a use. -/
def Reports : Use ε σ → Entry ε → Prop
  | .get q, .got q' _ => q = q'
  | .insert q b, .inserted q' b' => q = q' ∧ b = b'
  | .ask q _, .asked q' _ _ => q = q'
  | .clear, .cleared => True
  | _, _ => False

/-- Answers that are what their log says. -/
structure Accounted (t : Trail ε σ) : Prop where
  /-- What is remembered of any question is what is held. -/
  known : ∀ q, Assoc.find? q t.answers.known = held t.log q
  /-- No question is remembered twice. -/
  apart : (Assoc.keys t.answers.known).Nodup
  lookUps : t.answers.hits + t.answers.misses = t.log.countP Entry.looksUp
  evaluations : t.answers.evaluations = (t.log.map Entry.runs).sum
  misses : t.answers.misses = t.answers.evaluations + t.log.countP Entry.findsNothing

variable {t : Trail ε σ}

theorem accounted_start (initialCapacity : Nat) (state : σ) :
    (start initialCapacity state : Trail ε σ).Accounted where
  known _ := rfl
  apart := .nil
  lookUps := rfl
  evaluations := rfl
  misses := rfl

/-- A question whose answer is held: it is returned, and nothing runs. -/
theorem use_ask_of_some (h : t.Accounted) {q : Question} {b : Bool} (hb : held t.log q = some b)
    (run : σ → Except ε Bool × σ) :
    t.use (.ask q run) = ⟨t.answers.count true, t.state, t.log ++ [.asked q (.ok b) 0]⟩ := by
  have hknown := (h.known q).trans hb
  simp only [use, Answers.ask, hknown]

/-- A question whose answer is not held: its procedure runs once. -/
theorem use_ask_of_none (h : t.Accounted) {q : Question} (hnone : held t.log q = none)
    (run : σ → Except ε Bool × σ) :
    t.use (.ask q run) = ⟨t.answers.settle q (run t.state).1, (run t.state).2,
      t.log ++ [.asked q (run t.state).1 1]⟩ := by
  have hknown := (h.known q).trans hnone
  simp only [use, Answers.ask, hknown]

/-- Every use owes what it does. -/
theorem Accounted.lawful (h : t.Accounted) (u : Use ε σ) : t.Lawful (t.use u) u := by
  cases u with
  | get q =>
    refine ⟨rfl, ?_⟩
    change t.log ++ [.got q (Assoc.find? q t.answers.known)] = _
    rw [h.known q]
  | insert q b => exact ⟨rfl, rfl⟩
  | clear => exact ⟨rfl, rfl⟩
  | ask q run =>
    rw [Lawful]
    cases hheld : held t.log q with
    | some b => rw [use_ask_of_some h hheld]; exact ⟨rfl, rfl⟩
    | none => rw [use_ask_of_none h hheld]; exact ⟨rfl, rfl⟩

/-- The account goes on if the answers change as one more entry says. -/
theorem Accounted.concat (h : t.Accounted) {answers : Answers} {state : σ} {e : Entry ε}
    (known : ∀ q, Assoc.find? q answers.known = if e.clears then none
      else (e.inserted? q).or ((Assoc.find? q t.answers.known).or (e.evaluated? q)))
    (apart : (Assoc.keys answers.known).Nodup)
    (lookUps : answers.hits + answers.misses =
      t.answers.hits + t.answers.misses + if e.looksUp then 1 else 0)
    (evaluations : answers.evaluations = t.answers.evaluations + e.runs)
    (misses : answers.misses = t.answers.misses + e.runs + if e.findsNothing then 1 else 0) :
    Accounted ⟨answers, state, t.log ++ [e]⟩ where
  known q := by rw [held_concat, ← h.known q]; exact known q
  apart := apart
  lookUps := by rw [List.countP_append, List.countP_singleton, ← h.lookUps]; exact lookUps
  evaluations := by
    rw [List.map_append, List.sum_append, ← h.evaluations]
    simpa using evaluations
  misses := by
    have hbefore := h.misses
    rw [List.countP_append, List.countP_singleton]
    change answers.misses = answers.evaluations + _
    omega

/-- Every use keeps the account. -/
theorem Accounted.use (h : t.Accounted) (u : Use ε σ) : (t.use u).Accounted := by
  cases u with
  | get q =>
    change Accounted ⟨t.answers.count (Assoc.find? q t.answers.known).isSome, t.state,
      t.log ++ [.got q (Assoc.find? q t.answers.known)]⟩
    cases Assoc.find? q t.answers.known with
    | some b =>
      refine h.concat (fun q' => (Option.or_none).symm) h.apart ?_ rfl rfl
      exact Nat.add_right_comm _ _ _
    | none =>
      exact h.concat (fun q' => (Option.or_none).symm) h.apart rfl rfl rfl
  | insert q b =>
    refine h.concat (fun q' => ?_) (Assoc.nodup_keys_insert q b h.apart) rfl rfl rfl
    rw [Answers.insert, Assoc.find?_insert]
    simp only [Entry.clears, Entry.inserted?, Entry.evaluated?, eq_comm (a := q')]
    split <;> simp
  | ask q run =>
    cases hheld : held t.log q with
    | some b =>
      rw [use_ask_of_some h hheld]
      refine h.concat (fun q' => ?_) h.apart ?_ rfl rfl
      · simp [Entry.clears, Entry.inserted?, Entry.evaluated?, count]
      · exact Nat.add_right_comm _ _ _
    | none =>
      rw [use_ask_of_none h hheld]
      have hknown := (h.known q).trans hheld
      cases hrun : (run t.state).1 with
      | error e => exact h.concat (fun q' => (Option.or_none).symm) h.apart rfl rfl rfl
      | ok b =>
        refine h.concat (fun q' => ?_) (Assoc.nodup_keys_insert q b h.apart) rfl rfl rfl
        change Assoc.find? q' (Assoc.insert q b t.answers.known) = _
        rw [Assoc.find?_insert]
        by_cases hq : q' = q
        · subst hq
          simp [Entry.clears, Entry.inserted?, Entry.evaluated?, hknown]
        · simp [Entry.clears, Entry.inserted?, Entry.evaluated?, hq]
  | clear => exact h.concat (fun _ => rfl) .nil rfl rfl rfl

/-- Every history keeps the account. -/
theorem Accounted.useAll (h : t.Accounted) (uses : List (Use ε σ)) : (t.useAll uses).Accounted := by
  induction uses generalizing t with
  | nil => exact h
  | cons u uses ih => exact ih (h.use u)

/-- A use leaves one entry, about itself. -/
theorem Lawful.reports {t' : Trail ε σ} {u : Use ε σ} (h : t.Lawful t' u) :
    ∃ e, t'.log = t.log ++ [e] ∧ Reports u e := by
  cases u with
  | get q => exact ⟨_, h.2, rfl⟩
  | insert q b => exact ⟨_, h.2, rfl, rfl⟩
  | ask q run =>
    rw [Lawful] at h
    split at h
    · exact ⟨_, h.2, rfl⟩
    · exact ⟨_, h.2, rfl⟩
  | clear => exact ⟨_, h.2, trivial⟩

/-- Only forgetting drops an answer. -/
theorem Lawful.kept {t' : Trail ε σ} {u : Use ε σ} (h : t.Lawful t' u) (hu : u ≠ .clear)
    {q : Question} (hheld : (held t.log q).isSome) : (held t'.log q).isSome := by
  obtain ⟨e, hlog, hreports⟩ := h.reports
  have hclears : e.clears = false := by
    cases e with
    | cleared =>
      cases u with
      | clear => exact absurd rfl hu
      | get _ | insert _ _ | ask _ _ => exact hreports.elim
    | got _ _ | inserted _ _ | asked _ _ _ => rfl
  rw [hlog, held_concat, hclears]
  simp [Option.isSome_or, hheld]

/-- The log of a history has one entry for each use, in their order. -/
theorem Accounted.reports_useAll (h : t.Accounted) (uses : List (Use ε σ)) :
    ∃ entries, (t.useAll uses).log = t.log ++ entries ∧ List.Forall₂ Reports uses entries := by
  induction uses generalizing t with
  | nil => exact ⟨[], (List.append_nil _).symm, .nil⟩
  | cons u uses ih =>
    obtain ⟨e, hone, hreports⟩ := (h.lawful u).reports
    obtain ⟨entries, hlog, hrest⟩ := ih (h.use u)
    refine ⟨e :: entries, ?_, .cons hreports hrest⟩
    change ((t.use u).useAll uses).log = _
    rw [hlog, hone, List.append_assoc]
    rfl

/-- The answers are a map with exact accounts.  After any uses, from nothing and whatever the
capacity: the log reports these uses, what is remembered of every question is what the log says, the
size is the number of such questions, and the counters are counts of the log; and whatever use comes
next owes what `Lawful` says and, unless it forgets all, drops no answer. -/
theorem trail_accounts (initialCapacity : Nat) (state : σ) (uses : List (Use ε σ)) :
    let t := (start initialCapacity state : Trail ε σ).useAll uses
    List.Forall₂ Reports uses t.log ∧ t.Accounted ∧
      (∃ questions : Finset Question, (∀ q, q ∈ questions ↔ (held t.log q).isSome) ∧
        t.answers.size = questions.card) ∧
      ∀ u, t.Lawful (t.use u) u ∧
        (u ≠ .clear → ∀ q, (held t.log q).isSome → (held (t.use u).log q).isSome) := by
  intro t
  have hstart : (start initialCapacity state : Trail ε σ).Accounted := accounted_start _ _
  have h : t.Accounted := hstart.useAll uses
  obtain ⟨entries, hlog, hreports⟩ := hstart.reports_useAll uses
  obtain ⟨questions, hmem, hcard⟩ := Assoc.exists_card_eq_length h.apart
  refine ⟨hlog ▸ hreports, h, ⟨questions, fun q => ?_, hcard⟩,
    fun u => ⟨h.lawful u, fun hu q => (h.lawful u).kept hu⟩⟩
  rw [hmem, h.known]

end Trail

end Answers

end AccessRules
