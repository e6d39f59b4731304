/-
# Remembered answers

Within one request a check is not asked the same question twice.  A question names the resource,
the implementation, the category and, for operation checks, the change.  `Answers` remembers every
answer that was yes or no; an error is never remembered, so the next asker tries again.

Three counters go with it: look-ups that found an answer, look-ups that found none, and runs of
checks.  The initial capacity is room set aside, not a limit.
-/
import AccessRules.Check.Basic
import AccessRules.Data.Assoc

namespace AccessRules

/-- What is asked of a check. -/
structure Question where
  resource : ResourceIdentity
  check : CheckId
  category : Category
  change : Option ChangeKey
  deriving DecidableEq

/-- The answers of one request and the account of its look-ups. -/
structure Answers where
  initialCapacity : Nat
  known : Assoc Question Bool
  hits : Nat
  misses : Nat
  evaluations : Nat

namespace Answers

/-- The capacity where none is chosen. -/
def defaultCapacity : Nat := 64

/-- No answers yet. -/
def empty (initialCapacity : Nat) : Answers := ⟨initialCapacity, [], 0, 0, 0⟩

instance : Inhabited Answers := ⟨empty defaultCapacity⟩

/-- Counts one look-up. -/
def count (a : Answers) (hit : Bool) : Answers :=
  if hit then { a with hits := a.hits + 1 } else { a with misses := a.misses + 1 }

/-- Looks an answer up. -/
def get (a : Answers) (q : Question) : Option Bool × Answers :=
  let found := Assoc.find? q a.known
  (found, a.count found.isSome)

/-- Remembers an answer, in place of an earlier one. -/
def insert (a : Answers) (q : Question) (answer : Bool) : Answers :=
  { a with known := Assoc.insert q answer a.known }

/-- The account after a run with the given outcome. -/
def settle {ε : Type} (a : Answers) (q : Question) (outcome : Except ε Bool) : Answers :=
  let a := { a.count false with evaluations := a.evaluations + 1 }
  match outcome with
  | .ok b => a.insert q b
  | .error _ => a

/-- The remembered answer, or else the outcome of one run, which may change a state. -/
def ask {ε σ : Type} (a : Answers) (q : Question) (run : σ → Except ε Bool × σ) (s : σ) :
    Except ε Bool × Answers × σ :=
  match Assoc.find? q a.known with
  | some b => (.ok b, a.count true, s)
  | none =>
    let (outcome, s) := run s
    (outcome, a.settle q outcome, s)

/-- The outcomes when several askers put one question at once: one of them runs, the others wait
for its answer. -/
def askTogether (a : Answers) (q : Question) (answer : Bool) : Nat → List Bool × Answers
  | 0 => ([], a)
  | n + 1 =>
    match a.ask (ε := String) q (fun s => (.ok answer, s)) () with
    | (.ok b, a, _) =>
      let (bs, a) := askTogether a q answer n
      (b :: bs, a)
    | (.error _, a, _) => askTogether a q answer n

/-- Forgets every answer; the counters go on. -/
def clear (a : Answers) : Answers := { a with known := [] }

/-- How many answers are remembered. -/
def size (a : Answers) : Nat := a.known.length

/-- The share of look-ups that found an answer; zero before the first. -/
def hitRatio (a : Answers) : Ratio :=
  if a.hits + a.misses = 0 then ⟨0, 1⟩ else ⟨a.hits, a.hits + a.misses⟩

/-- The decimals with which a ratio is shown. -/
def ratioPlaces : Nat := 6

/-- The double nearest to a ratio, with its decimals; what lies half-way goes to even. -/
def ratioText (r : Ratio) : String :=
  let nearest := (Double.ofRatio? false r).getD default
  let units := (nearest.magnitude.mul ⟨Nat.pow 10 ratioPlaces, 1⟩).roundEven
  let decimals := Nat.toDigits 10 (units % Nat.pow 10 ratioPlaces)
  toString (units / Nat.pow 10 ratioPlaces) ++ "." ++
    String.ofList (List.replicate (ratioPlaces - decimals.length) '0' ++ decimals)

/-- The outline of a capacity setting. -/
def outlineCapacity (n : Nat) : String :=
  Text.outline "ExpressionCacheConfig" [("initial_capacity", toString n)]

/-- The outline of the counters. -/
def outlineCounters (a : Answers) : String :=
  Text.outline "CacheMetricsSnapshot" [("hits", toString a.hits), ("misses", toString a.misses),
    ("evaluations", toString a.evaluations)]

/-- The outline of remembered answers. -/
def outline (a : Answers) : String :=
  Text.outline "ExpressionResultCache" [("config", outlineCapacity a.initialCapacity),
    ("entry_count", toString a.size), ("metrics", a.outlineCounters)]

end Answers

end AccessRules
