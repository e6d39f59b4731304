/-
# White space, trimming and words

White space is the Unicode property White_Space, twenty-five code points in all.  Names that
differ only in the white space between their words are one name: `collapse` joins the words of
a text by single spaces, and a text is blank when it has no word.
-/

namespace AccessRules.Text

/-! ## 1. The class -/

/-- The code points with the property White_Space, as inclusive ranges in ascending order. -/
def whiteRanges : List (Nat × Nat) :=
  [(0x9, 0xD), (0x20, 0x20), (0x85, 0x85), (0xA0, 0xA0), (0x1680, 0x1680), (0x2000, 0x200A),
   (0x2028, 0x2029), (0x202F, 0x202F), (0x205F, 0x205F), (0x3000, 0x3000)]

/-- Whether a code point lies in one of the inclusive ranges. -/
def inRanges (ranges : List (Nat × Nat)) (n : Nat) : Bool :=
  ranges.any fun r => r.1 ≤ n && n ≤ r.2

/-- Whether a character is white space. -/
def isWhite (c : Char) : Bool := inRanges whiteRanges c.toNat

/-! ## 2. Trimming -/

/-- The text from its first character that is not white space. -/
def trimStart (cs : List Char) : List Char := cs.dropWhile isWhite

/-- The text up to its last character that is not white space. -/
def trimEnd (cs : List Char) : List Char := (cs.reverse.dropWhile isWhite).reverse

/-- The text without the white space at both ends. -/
def trim (s : String) : String := String.ofList (trimEnd (trimStart s.toList))

/-- Whether a text holds white space only. -/
def isBlank (s : String) : Bool := s.toList.all isWhite

/-! ## 3. Words -/

/-- The maximal runs of characters that are not white space, in order. -/
def words : List Char → List (List Char)
  | [] => []
  | c :: cs =>
    if isWhite c then words cs
    else
      match cs, words cs with
      | d :: _, w :: ws => if isWhite d then [c] :: w :: ws else (c :: w) :: ws
      | _, _ => [[c]]

theorem words_cons (c : Char) (cs : List Char) :
    words (c :: cs) =
      if isWhite c then words cs
      else
        match cs, words cs with
        | d :: _, w :: ws => if isWhite d then [c] :: w :: ws else (c :: w) :: ws
        | _, _ => [[c]] := by
  cases cs <;> rfl

/-- A run of characters that are not white space is a word, up to the white space after it. -/
theorem words_run {run text : List Char} (hne : run ≠ []) (hrun : ∀ c ∈ run, isWhite c = false)
    (htext : ∀ c ∈ text.head?, isWhite c = true) : words (run ++ text) = run :: words text := by
  induction run with
  | nil => exact absurd rfl hne
  | cons c run ih =>
    obtain ⟨hc, hrun⟩ := List.forall_mem_cons.mp hrun
    cases run with
    | nil =>
      cases text with
      | nil => simp [words_cons, words, hc]
      | cons d text =>
        have hd : isWhite d = true := htext d rfl
        rw [List.singleton_append, words_cons]
        cases words (d :: text) <;> simp [hc, hd]
    | cons d run =>
      have hd : isWhite d = false := hrun d List.mem_cons_self
      have htail := ih (by simp) hrun
      rw [List.cons_append] at htail
      rw [List.cons_append, List.cons_append, words_cons, htail]
      simp [hc, hd]

/-- The words of a text joined by single spaces. -/
def collapse (s : String) : String :=
  " ".intercalate ((words s.toList).map String.ofList)

/-! ## 4. Length in bytes -/

/-- How many bytes the characters take in UTF-8. -/
def byteLength : List Char → Nat
  | [] => 0
  | c :: cs => c.utf8Size + byteLength cs

theorem byteLength_append (a b : List Char) :
    byteLength (a ++ b) = byteLength a + byteLength b := by
  induction a with
  | nil => simp [byteLength]
  | cons c cs ih => simp [byteLength, ih, Nat.add_assoc]

end AccessRules.Text
