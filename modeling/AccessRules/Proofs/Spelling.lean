/-
# How a category may be spelled

A category is read from a text by two foldings.  The built-in names are recognised in plain lower
case; any other name is kept in full upper case.  Both come to the same: two texts name one category
exactly if what is left of them when they are trimmed has one upper case.  For where upper case
runs letters together, as it does with the long s, the dotless i, the sharp s and the ligatures, no
name of a built-in category comes out (`Text.lowerAscii_of_upper`).

The name of a category is that upper case.  It has no white space at its ends, and upper case is
final, so reading the name gives the category again.

* `Text.upperChar_of_not_white`: upper case makes no white space;
* `parse?_iff_upper`: what a text names.
-/
import AccessRules.Proofs.Categories
import AccessRules.Proofs.Trimming

namespace AccessRules

namespace Text

/-! ## 1. Upper case and white space -/

/-- No run and no expansion of upper case yields white space, and no expansion is empty. -/
theorem upper_tables_not_white :
    (upperRuns.all fun r => whiteRanges.all fun w =>
      Nat.blt r.highest w.1 || Nat.blt w.2 r.lowest) = true ∧
    (upperExpansions.all fun e => !e.2.isEmpty && e.2.all fun m => !isWhite (Char.ofNat m)) =
      true := by
  decide +kernel

/-- The code point that a run yields is none of white space. -/
theorem not_white_of_move? {r : CaseRun} (hr : r ∈ upperRuns) {n m : Nat}
    (hm : r.move? n = some m) : inRanges whiteRanges m = false := by
  obtain ⟨hlow, hhigh⟩ := CaseRun.bounds_of_move? hm
  have hapart := List.all_eq_true.mp upper_tables_not_white.1 r hr
  rw [inRanges, List.any_eq_false]
  intro w hw hin
  have hmiss := List.all_eq_true.mp hapart w hw
  simp only [Bool.or_eq_true, Nat.blt_eq] at hmiss
  simp only [Bool.and_eq_true, decide_eq_true_eq] at hin
  omega

/-- **Upper case makes no white space**, and makes no character disappear. -/
theorem upperChar_of_not_white (c : Char) (hc : isWhite c = false) :
    upperChar c ≠ [] ∧ ∀ d ∈ upperChar c, isWhite d = false := by
  rcases mapCode_cases upperRuns upperExpansions c.toNat with
    ⟨e, he, -, hmap⟩ | ⟨r, hr, m, hm, hmap⟩ | hmap
  · have hexpansion := List.all_eq_true.mp upper_tables_not_white.2 e he
    simp only [Bool.and_eq_true, Bool.not_eq_true', List.isEmpty_eq_false_iff,
      List.all_eq_true] at hexpansion
    rw [upperChar, hmap]
    refine ⟨by simpa using hexpansion.1, ?_⟩
    intro d hd
    obtain ⟨m, hm, rfl⟩ := List.mem_map.mp hd
    exact hexpansion.2 m hm
  · rw [upperChar, hmap, List.map_singleton]
    refine ⟨List.cons_ne_nil _ _, ?_⟩
    intro d hd
    rw [List.mem_singleton.mp hd, isWhite]
    rcases toNat_ofNat m with hvalid | hzero
    · rw [hvalid]
      exact not_white_of_move? hr hm
    · -- no character has this code point
      rw [hzero]
      rfl
  · rw [upperChar, hmap, List.map_singleton, Char.ofNat_toNat]
    refine ⟨List.cons_ne_nil _ _, ?_⟩
    intro d hd
    rw [List.mem_singleton.mp hd]
    exact hc

/-- A trimmed text is trimmed in upper case as well. -/
theorem trimmed_upper {s : String} (h : Trimmed s.toList) : Trimmed (upper s).toList := by
  rw [toList_upper]
  exact h.flatMap upperChar_of_not_white

theorem upper_ne_empty {s : String} (h : Trimmed s.toList) (hne : s ≠ "") : upper s ≠ "" := by
  intro hempty
  have hnil : s.toList.flatMap upperChar = [] := by
    rw [← toList_upper, hempty]
    rfl
  cases hs : s.toList with
  | nil => exact hne (String.toList_eq_nil_iff.mp hs)
  | cons c cs =>
    have hc : isWhite c = false := h.start c (by rw [hs]; rfl)
    rw [hs, List.flatMap_cons, List.append_eq_nil_iff] at hnil
    exact (upperChar_of_not_white c hc).1 hnil.1

end Text

namespace Category

/-! ## 2. Reading the name of a category -/

/-- Every text that is not blank names a category. -/
theorem exists_parse? {text : String} (h : Text.isBlank text = false) :
    ∃ c, parse? text = some c := by
  unfold parse?
  rw [h]
  simp only [Bool.false_eq_true, if_false]
  cases builtin? (Text.lowerAscii (Text.trim text)) with
  | some c => exact ⟨c, rfl⟩
  | none => exact ⟨_, rfl⟩

/-- Categories that are read from texts are one if their names are. -/
theorem eq_iff_of_parse? {s t : String} {a b : Category} (ha : parse? s = some a)
    (hb : parse? t = some b) : a = b ↔ a.name = b.name :=
  (normal_of_parse? ha).1.eq_iff (normal_of_parse? hb).1

/-- **The name of a category that was read reads as that category.** -/
theorem parse?_name {text : String} {c : Category} (h : parse? text = some c)
    (hblank : Text.isBlank text = false) : parse? c.name = some c := by
  have hname := (normal_of_parse? h).2
  have htrimmed : Text.Trimmed c.name.toList := by
    rw [hname]
    exact Text.trimmed_upper (Text.trimmed_trim text)
  have hne : c.name ≠ "" := by
    rw [hname]
    refine Text.upper_ne_empty (Text.trimmed_trim text) fun hempty => ?_
    rw [Text.trim_eq_empty_iff, hblank] at hempty
    cases hempty
  obtain ⟨c', hc'⟩ := exists_parse? (Text.isBlank_of_trimmed htrimmed hne)
  have hsame : c'.name = c.name := by
    rw [(normal_of_parse? hc').2, Text.trim_of_trimmed htrimmed, hname, Text.upper_upper]
  rw [hc', (eq_iff_of_parse? hc' h).mpr hsame]

/-- **A text names a category by its upper case.**  Two texts that are not blank name one category
exactly if they have one upper case when they are trimmed; that upper case is the name of the
category; and the name names the same category again. -/
theorem parse?_iff_upper {s t : String} (hs : Text.isBlank s = false)
    (ht : Text.isBlank t = false) :
    (parse? s = parse? t ↔ Text.upper (Text.trim s) = Text.upper (Text.trim t)) ∧
      ∃ c, parse? s = some c ∧ c.name = Text.upper (Text.trim s) ∧ parse? c.name = some c := by
  obtain ⟨a, ha⟩ := exists_parse? hs
  obtain ⟨b, hb⟩ := exists_parse? ht
  have hname := (normal_of_parse? ha).2
  refine ⟨?_, a, ha, hname, parse?_name ha hs⟩
  rw [ha, hb, Option.some.injEq, eq_iff_of_parse? ha hb, hname, (normal_of_parse? hb).2]

/-- A long s and a ligature, between blanks that are not plain. -/
theorem parse?_iff_upper_ligature :
    Text.isBlank "\u00a0oﬃce uſe " = false ∧ Text.isBlank "OFFICE USE" = false ∧
      parse? "\u00a0oﬃce uſe " = parse? "OFFICE USE" ∧
      ∃ c, parse? "\u00a0oﬃce uſe " = some c ∧ c.name = "OFFICE USE" ∧
        parse? "OFFICE USE" = some c := by
  have hs : Text.isBlank "\u00a0oﬃce uſe " = false := by decide +kernel
  have ht : Text.isBlank "OFFICE USE" = false := by decide +kernel
  have hupper : Text.upper (Text.trim "\u00a0oﬃce uſe ") = "OFFICE USE" := by decide +kernel
  have hplain : Text.upper (Text.trim "OFFICE USE") = "OFFICE USE" := by decide +kernel
  obtain ⟨hiff, c, hc, hname, hagain⟩ := parse?_iff_upper hs ht
  have hcname := hname.trans hupper
  rw [hcname] at hagain
  exact ⟨hs, ht, hiff.mpr (hupper.trans hplain.symm), c, hc, hcname, hagain⟩

end Category

end AccessRules
