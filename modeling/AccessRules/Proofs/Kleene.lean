/-
# Three values ordered by what is known

Deferred says nothing yet; passed and failed say all.  `Refines` is the order of information on
statuses, and the connectives are monotone in it: what a connective says of rough operands it
also says of any refinement of them.  That is the algebra behind a preview that decides before
all checks have run.

* `Refines.and`, `Refines.or`, `Refines.negate`: monotonicity;
* `Definite.and`, `Definite.or`, `Definite.negate`: nothing is deferred unless an operand is;
* `ofBool_and`, `ofBool_or`, `ofBool_not`: on definite values the connectives are the usual ones;
* `truth_and`, `truth_or`, `truth_negate`: on truth values that may be unknown they are the strong
  ones.
-/
import AccessRules.Tree.Basic

namespace AccessRules.Status

/-! ## 1. The order of information -/

/-- A status that says at least as much as `rough`, and nothing that contradicts it. -/
def Refines (rough fine : Status) : Prop := rough = deferred ∨ rough = fine

theorem Refines.refl (s : Status) : Refines s s := .inr rfl

theorem refines_deferred (s : Status) : Refines deferred s := .inl rfl

/-- Only deferred can be refined to something else. -/
theorem Refines.eq_of_ne {rough fine : Status} (h : Refines rough fine) (hd : rough ≠ deferred) :
    fine = rough := by
  rcases h with h | h
  · exact absurd h hd
  · exact h.symm

theorem Refines.and {a a' b b' : Status} (ha : Refines a a') (hb : Refines b b') :
    Refines (a.and b) (a'.and b') := by
  rcases ha with rfl | rfl
  · rcases hb with rfl | rfl
    · exact refines_deferred _
    · -- a deferred operand is overruled by a failed one alone
      cases b with
      | failed => cases a' <;> exact .refl _
      | _ => exact refines_deferred _
  · rcases hb with rfl | rfl
    · cases a with
      | failed => exact .refl _
      | _ => exact refines_deferred _
    · exact .refl _

theorem Refines.or {a a' b b' : Status} (ha : Refines a a') (hb : Refines b b') :
    Refines (a.or b) (a'.or b') := by
  rcases ha with rfl | rfl
  · rcases hb with rfl | rfl
    · exact refines_deferred _
    · -- a deferred operand is overruled by a passed one alone
      cases b with
      | passed => cases a' <;> exact .refl _
      | _ => exact refines_deferred _
  · rcases hb with rfl | rfl
    · cases a with
      | passed => exact .refl _
      | _ => exact refines_deferred _
    · exact .refl _

theorem Refines.negate {a a' : Status} (ha : Refines a a') : Refines a.negate a'.negate := by
  rcases ha with rfl | rfl
  · exact refines_deferred _
  · exact .refl _

/-! ## 2. Definite statuses -/

/-- A yes or a no. -/
def Definite (s : Status) : Prop := s = passed ∨ s = failed

theorem definite_ofBool (b : Bool) : (ofBool b).Definite := by
  cases b
  · exact .inr rfl
  · exact .inl rfl

theorem Definite.exists_ofBool {s : Status} (h : s.Definite) : ∃ b, s = ofBool b := by
  rcases h with rfl | rfl
  · exact ⟨true, rfl⟩
  · exact ⟨false, rfl⟩

@[simp] theorem ofBool_ne_unevaluated (b : Bool) : ofBool b ≠ unevaluated := by
  cases b <;> decide

theorem ofBool_inj {a b : Bool} : ofBool a = ofBool b ↔ a = b := by
  cases a <;> cases b <;> decide

theorem ofBool_and (a b : Bool) : (ofBool a).and (ofBool b) = ofBool (a && b) := by
  cases a <;> cases b <;> rfl

theorem ofBool_or (a b : Bool) : (ofBool a).or (ofBool b) = ofBool (a || b) := by
  cases a <;> cases b <;> rfl

theorem ofBool_not (a : Bool) : (ofBool a).negate = ofBool (!a) := by
  cases a <;> rfl

theorem Definite.and {a b : Status} (ha : a.Definite) (hb : b.Definite) : (a.and b).Definite := by
  obtain ⟨x, rfl⟩ := ha.exists_ofBool
  obtain ⟨y, rfl⟩ := hb.exists_ofBool
  rw [ofBool_and]
  exact definite_ofBool _

theorem Definite.or {a b : Status} (ha : a.Definite) (hb : b.Definite) : (a.or b).Definite := by
  obtain ⟨x, rfl⟩ := ha.exists_ofBool
  obtain ⟨y, rfl⟩ := hb.exists_ofBool
  rw [ofBool_or]
  exact definite_ofBool _

theorem Definite.negate {a : Status} (ha : a.Definite) : a.negate.Definite := by
  obtain ⟨x, rfl⟩ := ha.exists_ofBool
  rw [ofBool_not]
  exact definite_ofBool _

/-! ## 3. No connective leaves a node unevaluated -/

theorem and_ne_unevaluated (a b : Status) : a.and b ≠ unevaluated := by
  cases a <;> cases b <;> decide

theorem or_ne_unevaluated (a b : Status) : a.or b ≠ unevaluated := by
  cases a <;> cases b <;> decide

theorem negate_ne_unevaluated {a : Status} (h : a ≠ unevaluated) : a.negate ≠ unevaluated := by
  cases a with
  | unevaluated => exact absurd rfl h
  | _ => decide

/-! ## 4. Truth, as far as it is known

The same algebra without statuses: a truth value, or none where it is not known. -/

/-- What is known of the truth of a node. -/
def truth : Status → Option Bool
  | passed => some true
  | failed => some false
  | _ => none

/-- Strong conjunction: one no is enough. -/
def both : Option Bool → Option Bool → Option Bool
  | some false, _ => some false
  | _, some false => some false
  | some true, some true => some true
  | _, _ => none

/-- Strong disjunction: one yes is enough. -/
def either : Option Bool → Option Bool → Option Bool
  | some true, _ => some true
  | _, some true => some true
  | some false, some false => some false
  | _, _ => none

theorem truth_ofBool (b : Bool) : (ofBool b).truth = some b := by
  cases b <;> rfl

theorem truth_and (a b : Status) : (a.and b).truth = both a.truth b.truth := by
  cases a <;> cases b <;> rfl

theorem truth_or (a b : Status) : (a.or b).truth = either a.truth b.truth := by
  cases a <;> cases b <;> rfl

theorem truth_negate (a : Status) : a.negate.truth = a.truth.map (!·) := by
  cases a <;> rfl

end AccessRules.Status
