/-
# Trimming a text

A text falls into white space, what is left of it when it is trimmed, and white space again.  What
is left has none at either end (`Trimmed`), and such a text is what trimming leaves of it.  A text
is blank exactly if nothing is left.

* `trimmed_trim`, `trim_of_trimmed`: the trimmed texts are those that trimming leaves;
* `trim_eq_empty_iff`: when nothing is left;
* `Trimmed.flatMap`: texts stay trimmed if every character is replaced by some that are not white
  space unless it is itself.
-/
import AccessRules.Text.White
import Mathlib.Data.List.TakeWhile

namespace AccessRules.Text

/-! ## 1. The white space at the ends -/

/-- A text is white space and then what is left of it when its start is trimmed. -/
theorem exists_white_append_trimStart (cs : List Char) :
    ∃ white, (∀ c ∈ white, isWhite c = true) ∧ cs = white ++ trimStart cs :=
  ⟨cs.takeWhile isWhite, List.all_eq_true.mp List.all_takeWhile, by simp [trimStart]⟩

/-- A text is what is left of it when its end is trimmed, and then white space. -/
theorem exists_trimEnd_append_white (cs : List Char) :
    ∃ white, (∀ c ∈ white, isWhite c = true) ∧ cs = trimEnd cs ++ white := by
  obtain ⟨white, hwhite, hcs⟩ := exists_white_append_trimStart cs.reverse
  refine ⟨white.reverse, by simpa using hwhite, ?_⟩
  have h := congrArg List.reverse hcs
  simpa [trimEnd, trimStart] using h

/-- White space at the end makes no difference to what is left when the end is trimmed. -/
theorem trimEnd_append_white {white : List Char} (h : ∀ c ∈ white, isWhite c = true)
    (cs : List Char) : trimEnd (cs ++ white) = trimEnd cs := by
  have hreverse : ∀ c ∈ white.reverse, isWhite c = true := by simpa using h
  rw [trimEnd, trimEnd, List.reverse_append, List.dropWhile_append_of_pos hreverse]

/-- What is trimmed does not begin with white space. -/
theorem not_white_of_head?_trimStart (cs : List Char) :
    ∀ c ∈ (trimStart cs).head?, isWhite c = false := by
  intro c hc
  have h := List.head?_dropWhile_not isWhite cs
  rw [trimStart] at hc
  rw [hc] at h
  simpa using h

/-! ## 2. Trimmed texts -/

/-- A text without white space at either end. -/
structure Trimmed (cs : List Char) : Prop where
  start : ∀ c ∈ cs.head?, isWhite c = false
  ending : ∀ c ∈ cs.getLast?, isWhite c = false

/-- Only white space at the start is trimmed there. -/
theorem trimStart_of_head? {cs : List Char} (h : ∀ c ∈ cs.head?, isWhite c = false) :
    trimStart cs = cs := by
  cases cs with
  | nil => rfl
  | cons c cs =>
    have hc : isWhite c = false := h c rfl
    simp [trimStart, hc]

theorem trimEnd_eq_reverse (cs : List Char) : trimEnd cs = (trimStart cs.reverse).reverse := rfl

/-- Trimming leaves a trimmed text as it is. -/
theorem Trimmed.trim_eq {cs : List Char} (h : Trimmed cs) : trimEnd (trimStart cs) = cs := by
  have hending : ∀ c ∈ cs.reverse.head?, isWhite c = false := by
    rw [List.head?_reverse]
    exact h.ending
  rw [trimStart_of_head? h.start, trimEnd_eq_reverse, trimStart_of_head? hending,
    List.reverse_reverse]

theorem trim_of_trimmed {s : String} (h : Trimmed s.toList) : trim s = s := by
  rw [trim, h.trim_eq, String.ofList_toList]

/-- **What trimming leaves is trimmed.** -/
theorem trimmed_trim (s : String) : Trimmed (trim s).toList := by
  rw [trim, String.toList_ofList]
  constructor
  · -- the end is trimmed off a text that begins as it should
    intro c hc
    obtain ⟨white, -, hsplit⟩ := exists_trimEnd_append_white (trimStart s.toList)
    refine not_white_of_head?_trimStart s.toList c ?_
    rw [hsplit, List.head?_append, Option.mem_def.mp hc]
    rfl
  · intro c hc
    rw [trimEnd_eq_reverse, List.getLast?_reverse] at hc
    exact not_white_of_head?_trimStart _ c hc

/-- Nothing is left of a text exactly if it is blank. -/
theorem trim_eq_empty_iff {s : String} : trim s = "" ↔ isBlank s = true := by
  obtain ⟨front, hfront, hstart⟩ := exists_white_append_trimStart s.toList
  obtain ⟨back, hback, hend⟩ := exists_trimEnd_append_white (trimStart s.toList)
  rw [isBlank, List.all_eq_true]
  constructor
  · intro h c hc
    have hnil : trimEnd (trimStart s.toList) = [] := by
      rw [← String.toList_ofList (l := trimEnd _)]
      exact congrArg String.toList h
    rw [hstart, hend, hnil, List.nil_append] at hc
    rcases List.mem_append.mp hc with hc | hc
    · exact hfront c hc
    · exact hback c hc
  · intro h
    have hnil : trimStart s.toList = [] := List.dropWhile_eq_nil_iff.mpr h
    rw [trim, hnil]
    rfl

/-- A trimmed text is not blank unless it is empty. -/
theorem isBlank_of_trimmed {s : String} (h : Trimmed s.toList) (hne : s ≠ "") :
    isBlank s = false := by
  rw [← Bool.not_eq_true, ← trim_eq_empty_iff, trim_of_trimmed h]
  exact hne

/-! ## 3. Texts that are replaced character by character -/

section Replaced

variable {f : Char → List Char}
  (hf : ∀ c, isWhite c = false → f c ≠ [] ∧ ∀ d ∈ f c, isWhite d = false)

include hf

/-- A text that does not begin with white space does not come to do so. -/
theorem head?_flatMap_not_white {cs : List Char} (h : ∀ c ∈ cs.head?, isWhite c = false) :
    ∀ d ∈ (cs.flatMap f).head?, isWhite d = false := by
  cases cs with
  | nil =>
    intro d hd
    cases hd
  | cons c cs =>
    obtain ⟨hne, hplain⟩ := hf c (h c rfl)
    intro d hd
    rw [List.flatMap_cons, List.head?_append, List.head?_eq_some_head hne] at hd
    exact hplain d (Option.some.inj hd ▸ List.head_mem hne)

/-- **Trimmed texts stay trimmed.** -/
theorem Trimmed.flatMap {cs : List Char} (h : Trimmed cs) : Trimmed (cs.flatMap f) := by
  refine ⟨head?_flatMap_not_white hf h.start, ?_⟩
  -- the end of a text is the start of its reverse
  have hreverse : ∀ c, isWhite c = false →
      (f c).reverse ≠ [] ∧ ∀ d ∈ (f c).reverse, isWhite d = false := by
    intro c hc
    simpa using hf c hc
  have hending : ∀ c ∈ cs.reverse.head?, isWhite c = false := by
    rw [List.head?_reverse]
    exact h.ending
  rw [← List.head?_reverse, List.reverse_flatMap]
  exact head?_flatMap_not_white hreverse hending

end Replaced

end AccessRules.Text
