/-
# The shortest decimal belongs to one double

Around every double lies a cell: the numbers that read back as it.  The cell ends at the half-way
points to the two neighbours and contains them where the significand is even.  Two doubles of
different size have no number in common, for an end that two cells share belongs to the one with the
even significand, and neighbours are never both even.  Below a full significand with no other bit
the spacing halves; there the lower neighbour ends in a one, so the same holds.

The search for the shortest decimal stays in the cell, on whatever grid it ends.

* `Ratio.le_iff`, `Ratio.lt_iff`: comparing crosswise is comparing rational numbers;
* `Double.cell`: the numbers that read back as a double;
* `Double.eq_of_mem_cell`: cells of different doubles have nothing in common;
* `Double.shortest_mem_cell`: the shortest decimal of a double lies in its cell.
-/
import AccessRules.Decimal.Shortest
import Mathlib.Algebra.Order.Field.Power
import Mathlib.Algebra.Order.Ring.Rat
import Mathlib.Order.Interval.Set.Basic
import Mathlib.Tactic.FieldSimp
import Mathlib.Tactic.Positivity
import Mathlib.Tactic.Ring

namespace AccessRules

/-! ## 1. Ratios as rational numbers -/

namespace Ratio

/-- The rational number that a ratio stands for. -/
def toRat (a : Ratio) : ℚ := a.num / a.den

theorem toRat_scaled (m : Nat) {base : Nat} (h : 0 < base) (k : Int) :
    (scaled m base k).toRat = m * (base : ℚ) ^ k := by
  have hbase : (base : ℚ) ≠ 0 := by exact_mod_cast h.ne'
  rw [scaled]
  split
  · next hk =>
    obtain ⟨n, rfl⟩ := Int.eq_ofNat_of_zero_le hk
    simp [toRat]
  · next hk =>
    obtain ⟨n, hn⟩ : ∃ n : Nat, k = -(n : Int) := ⟨(-k).toNat, by omega⟩
    subst hn
    simp [toRat, div_eq_mul_inv]

theorem den_scaled_pos (m : Nat) {base : Nat} (h : 0 < base) (k : Int) :
    0 < (scaled m base k).den := by
  rw [scaled]
  split
  · exact Nat.one_pos
  · exact Nat.pow_pos h

variable {a b : Ratio}

theorem le_iff (ha : 0 < a.den) (hb : 0 < b.den) : a.le b = true ↔ a.toRat ≤ b.toRat := by
  have ha' : (0 : ℚ) < a.den := by exact_mod_cast ha
  have hb' : (0 : ℚ) < b.den := by exact_mod_cast hb
  rw [le, decide_eq_true_iff, toRat, toRat, div_le_div_iff₀ ha' hb']
  exact_mod_cast Iff.rfl

theorem lt_iff (ha : 0 < a.den) (hb : 0 < b.den) : a.lt b = true ↔ a.toRat < b.toRat := by
  have ha' : (0 : ℚ) < a.den := by exact_mod_cast ha
  have hb' : (0 : ℚ) < b.den := by exact_mod_cast hb
  rw [lt, decide_eq_true_iff, toRat, toRat, div_lt_div_iff₀ ha' hb']
  exact_mod_cast Iff.rfl

end Ratio

/-! ## 2. Cells -/

/-- The exact value of a decimal. -/
def Decimal.toRat (x : Decimal) : ℚ := x.digits * 10 ^ x.exponent

theorem Decimal.toRat_value (x : Decimal) : x.value.toRat = x.toRat :=
  Ratio.toRat_scaled x.digits (by decide) x.exponent

namespace Double

variable {d d' : Double}

/-- The numbers that read back as the size of a double: those between its half-way points, and these
themselves if its significand is even. -/
def cell (d : Double) : Set ℚ :=
  if d.significand % 2 = 0 then Set.Icc d.lower.toRat d.upper.toRat
  else Set.Ioo d.lower.toRat d.upper.toRat

theorem readsBack_iff {x : Decimal} : d.readsBack x = true ↔ x.toRat ∈ d.cell := by
  have hx : 0 < x.value.den := Ratio.den_scaled_pos _ (by decide) _
  have hlower : 0 < d.lower.den := Ratio.den_scaled_pos _ (by decide) _
  have hupper : 0 < d.upper.den := Ratio.den_scaled_pos _ (by decide) _
  rw [readsBack, cell]
  split
  · rw [Bool.and_eq_true, Ratio.le_iff hlower hx, Ratio.le_iff hx hupper, x.toRat_value,
      Set.mem_Icc]
  · rw [Bool.and_eq_true, Ratio.lt_iff hlower hx, Ratio.lt_iff hx hupper, x.toRat_value,
      Set.mem_Ioo]

/-- A cell keeps to its half-way points, and is closed where the significand is even. -/
theorem between_of_mem_cell {q : ℚ} (h : q ∈ d.cell) :
    d.lower.toRat ≤ q ∧ q ≤ d.upper.toRat ∧
      (d.significand % 2 = 1 → d.lower.toRat < q ∧ q < d.upper.toRat) := by
  rw [cell] at h
  split at h
  · next heven => exact ⟨h.1, h.2, fun hodd => absurd hodd (by omega)⟩
  · exact ⟨h.1.le, h.2.le, fun _ => h⟩

/-- How many quarters of the spacing the lower half-way point lies below the double. -/
def gap (d : Double) : Nat :=
  if d.significand = Nat.pow 2 (precision - 1) ∧ leastExponent < d.exponent then 1 else 2

theorem toRat_lower (d : Double) :
    d.lower.toRat = (4 * d.significand - d.gap : Nat) * (2 : ℚ) ^ (d.exponent - 2) :=
  Ratio.toRat_scaled _ (by decide) _

theorem toRat_upper (d : Double) :
    d.upper.toRat = (4 * d.significand + 2 : Nat) * (2 : ℚ) ^ (d.exponent - 2) :=
  Ratio.toRat_scaled _ (by decide) _

/-- One double is smaller than another: its exponent is, or its significand is at the same one. -/
def Smaller (d d' : Double) : Prop :=
  d.exponent < d'.exponent ∨ d.exponent = d'.exponent ∧ d.significand < d'.significand

/-- **Between two doubles**, the upper half-way point of the smaller lies at most at the lower one
of the other, and if they meet there, one of the significands is odd. -/
theorem Smaller.halfWay (h : d.Smaller d') {n : Nat} (hn : d'.exponent = d.exponent + n) :
    4 * d.significand + 2 < (4 * d'.significand - d'.gap) * 2 ^ n ∨
      4 * d.significand + 2 = (4 * d'.significand - d'.gap) * 2 ^ n ∧
        (d.significand % 2 = 1 ∨ d'.significand % 2 = 1) := by
  have hfull : Nat.pow 2 (precision - 1) = 4503599627370496 := rfl
  have hbound : Nat.pow 2 precision = 9007199254740992 := rfl
  have hd := d.canonical
  have hd' := d'.canonical
  rw [Canonical, hfull, hbound] at hd hd'
  rcases h with hlt | ⟨heq, hlt⟩
  · -- a greater exponent comes with a full significand, and the spacing at least doubles
    have hdouble : 2 ≤ 2 ^ n := Nat.le_self_pow (by omega) 2
    have hends : 4 * d.significand + 2 ≤ (4 * d'.significand - d'.gap) * 2 ∧
        (4 * d.significand + 2 = (4 * d'.significand - d'.gap) * 2 → d.significand % 2 = 1) := by
      rw [gap, hfull]
      split <;> omega
    have hgrow := Nat.mul_le_mul_left (4 * d'.significand - d'.gap) hdouble
    rcases Nat.lt_or_eq_of_le (hends.1.trans hgrow) with hless | hmeet
    · exact .inl hless
    · exact .inr ⟨hmeet, .inl (hends.2 (Nat.le_antisymm hends.1 (hgrow.trans hmeet.ge)))⟩
  · -- at one exponent the lower half-way points keep the full distance
    obtain rfl : n = 0 := by omega
    rw [pow_zero, Nat.mul_one, gap, hfull]
    split <;> omega

/-- **A smaller double has no number in common with a greater one.** -/
theorem Smaller.not_mem_cell (h : d.Smaller d') {q : ℚ} (hq : q ∈ d.cell) : q ∉ d'.cell := by
  intro hq'
  obtain ⟨n, hn⟩ : ∃ n : Nat, d'.exponent = d.exponent + n :=
    ⟨(d'.exponent - d.exponent).toNat, by rcases h with h | h <;> omega⟩
  have hunit : (0 : ℚ) < 2 ^ (d.exponent - 2) := by positivity
  -- both ends in quarters of the spacing of the smaller one
  have hlower : d'.lower.toRat =
      ((4 * d'.significand - d'.gap) * 2 ^ n : Nat) * (2 : ℚ) ^ (d.exponent - 2) := by
    have hexponent : d'.exponent - 2 = n + (d.exponent - 2) := by omega
    rw [toRat_lower, hexponent, zpow_add₀ (by norm_num), zpow_natCast, ← mul_assoc]
    push_cast
    rfl
  obtain ⟨-, hupper, hodd⟩ := between_of_mem_cell hq
  obtain ⟨hlower', -, hodd'⟩ := between_of_mem_cell hq'
  rw [toRat_upper] at hupper hodd
  rw [hlower] at hlower' hodd'
  rcases h.halfWay hn with hless | ⟨hmeet, hparity⟩
  · have := mul_lt_mul_of_pos_right (Nat.cast_lt (α := ℚ).mpr hless) hunit
    exact absurd (hlower'.trans hupper) (not_le.mpr this)
  · rw [hmeet] at hupper hodd
    rcases hparity with hparity | hparity
    · exact absurd hlower' (not_le.mpr (hodd hparity).2)
    · exact absurd hupper (not_le.mpr (hodd' hparity).1)

/-- Doubles whose cells have a number in common are of one size. -/
theorem sameSize_of_mem_cell {q : ℚ} (hq : q ∈ d.cell) (hq' : q ∈ d'.cell) :
    d.significand = d'.significand ∧ d.exponent = d'.exponent := by
  rcases lt_trichotomy d.exponent d'.exponent with hlt | heq | hlt
  · exact absurd hq' (Smaller.not_mem_cell (.inl hlt) hq)
  · rcases lt_trichotomy d.significand d'.significand with hlt | hsame | hlt
    · exact absurd hq' (Smaller.not_mem_cell (.inr ⟨heq, hlt⟩) hq)
    · exact ⟨hsame, heq⟩
    · exact absurd hq (Smaller.not_mem_cell (.inr ⟨heq.symm, hlt⟩) hq')
  · exact absurd hq (Smaller.not_mem_cell (.inl hlt) hq')

/-- **Cells of different doubles have nothing in common**, but for those of opposite doubles. -/
theorem eq_of_mem_cell {q : ℚ} (hsign : d.negative = d'.negative) (hq : q ∈ d.cell)
    (hq' : q ∈ d'.cell) : d = d' := by
  obtain ⟨hsignificand, hexponent⟩ := sameSize_of_mem_cell hq hq'
  cases d
  cases d'
  cases hsign
  cases hsignificand
  cases hexponent
  rfl

end Double

/-! ## 3. The shortest decimal -/

theorem Decimal.toRat_trimZeros (fuel : Nat) (x : Decimal) :
    (x.trimZeros fuel).toRat = x.toRat := by
  induction fuel generalizing x with
  | zero => rfl
  | succ fuel ih =>
    rw [trimZeros]
    split
    · next h =>
      have hdigits : (x.digits : ℚ) = (x.digits / 10 : Nat) * 10 := by
        have : x.digits = x.digits / 10 * 10 := by omega
        exact_mod_cast this
      rw [ih, toRat, toRat, hdigits, zpow_add_one₀ (by norm_num)]
      ring
    · rfl

namespace Double

variable {d : Double}

theorem mem_cell_of_onGrid? {tie : Tie} {k : Int} {x : Decimal} (h : d.onGrid? tie k = some x) :
    x.toRat ∈ d.cell := by
  rw [← readsBack_iff]
  simp only [onGrid?] at h
  split at h
  · next hlow =>
    split at h
    · next hhigh =>
      cases h
      exact (Bool.and_eq_true_iff.mp hhigh).1
    · cases h
      exact hlow
  · split at h
    · next hhigh =>
      cases h
      exact hhigh
    · cases h

/-- The size of a double other than zero lies strictly between its half-way points. -/
theorem mem_cell_of_eq {q : ℚ} (hd : d.significand ≠ 0)
    (hq : q = d.significand * 2 ^ d.exponent) : q ∈ d.cell := by
  have hunit : (0 : ℚ) < 2 ^ (d.exponent - 2) := by positivity
  have hsize : q = (4 * d.significand : Nat) * (2 : ℚ) ^ (d.exponent - 2) := by
    rw [hq, zpow_sub₀ (by norm_num)]
    push_cast
    ring
  have hgap : 0 < d.gap := by
    rw [gap]
    split <;> decide
  have hlower : d.lower.toRat < q := by
    rw [toRat_lower, hsize]
    exact mul_lt_mul_of_pos_right (Nat.cast_lt.mpr (by omega)) hunit
  have hupper : q < d.upper.toRat := by
    rw [toRat_upper, hsize]
    exact mul_lt_mul_of_pos_right (Nat.cast_lt.mpr (by omega)) hunit
  rw [cell]
  split
  · exact ⟨hlower.le, hupper.le⟩
  · exact ⟨hlower, hupper⟩

theorem toRat_exact (d : Double) : d.exact.toRat = d.significand * 2 ^ d.exponent := by
  rw [exact]
  split
  · next h =>
    obtain ⟨n, hn⟩ := Int.eq_ofNat_of_zero_le h
    rw [hn, Decimal.toRat]
    simp
  · next h =>
    obtain ⟨n, hn⟩ : ∃ n : Nat, d.exponent = -(n : Int) := ⟨(-d.exponent).toNat, by omega⟩
    have hten : (10 : ℚ) ^ n = 5 ^ n * 2 ^ n := by rw [← mul_pow]; norm_num
    rw [hn, Decimal.toRat]
    simp only [neg_neg, Int.toNat_natCast, zpow_neg, zpow_natCast, hten, Nat.pow_eq]
    push_cast
    field_simp

/-- **The shortest decimal reads back.** -/
theorem shortest_mem_cell (hd : d.significand ≠ 0) (tie : Tie) :
    (d.shortest tie).toRat ∈ d.cell := by
  simp only [shortest]
  split
  · next h =>
    obtain ⟨n, -, hgrid⟩ := List.exists_of_findSome?_eq_some h
    rw [Decimal.toRat_trimZeros]
    exact mem_cell_of_onGrid? hgrid
  · exact mem_cell_of_eq hd d.toRat_exact

/-- Zero reads back as itself. -/
theorem zero_mem_cell (hd : d.significand = 0) : (0 : ℚ) ∈ d.cell := by
  have hunit : (0 : ℚ) < 2 ^ (d.exponent - 2) := by positivity
  rw [cell, if_pos (by rw [hd]), toRat_lower, toRat_upper, hd, Nat.mul_zero, Nat.zero_sub,
    Nat.cast_zero, zero_mul]
  exact ⟨le_refl 0, by positivity⟩

end Double

end AccessRules
