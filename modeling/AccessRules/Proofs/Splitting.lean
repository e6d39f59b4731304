/-
# How a text splits into tokens

`Splits text ts` says what the tokens of a text are, without saying how to find them: blanks
separate, a parenthesis stands for itself, a maximal run of word characters is an operator or a
word, and white space of any other kind is stray.

Every text splits in exactly one way, and that way is what `tokens` computes (`splits_iff`).
Splitting goes part by part as long as no word runs over the seam (`Splits.append`), which is what
a printer of rule text needs to know.
-/
import AccessRules.Rule.Token
import Mathlib.Logic.Basic

namespace AccessRules.Rule

/-! ## 1. The relation -/

/-- A word of rule text: a run of word characters that is no operator. -/
structure IsWord (w : String) : Prop where
  ne_empty : w ≠ ""
  chars : ∀ c ∈ w.toList, isWordChar c = true
  no_operator : ∀ op : Operator, w ≠ op.spelling

/-- No word goes on here: the text is at its end, or before a character of no word. -/
def Ends (text : List Char) : Prop := ∀ c ∈ text.head?, isWordChar c = false

/-- A text and its tokens. -/
inductive Splits : List Char → List Token → Prop where
  | nil : Splits [] []
  | blank {c : Char} {text : List Char} {ts : List Token} (hc : isSeparator c = true)
      (h : Splits text ts) : Splits (c :: text) ts
  | opening {text : List Char} {ts : List Token} (h : Splits text ts) :
      Splits ('(' :: text) (.opening :: ts)
  | closing {text : List Char} {ts : List Token} (h : Splits text ts) :
      Splits (')' :: text) (.closing :: ts)
  | operator (op : Operator) {text : List Char} {ts : List Token} (hend : Ends text)
      (h : Splits text ts) : Splits (op.spelling.toList ++ text) (.operator op :: ts)
  | word {w : String} {text : List Char} {ts : List Token} (hw : IsWord w) (hend : Ends text)
      (h : Splits text ts) : Splits (w.toList ++ text) (.word w :: ts)
  | stray {c : Char} {text : List Char} {ts : List Token} (hwhite : Text.isWhite c = true)
      (hc : isSeparator c = false) (h : Splits text ts) : Splits (c :: text) (.stray c :: ts)

/-! ## 2. Kinds of characters -/

theorem isWhite_of_isSeparator {c : Char} (h : isSeparator c = true) : Text.isWhite c = true := by
  simp only [isSeparator, Bool.or_eq_true, beq_iff_eq] at h
  rcases h with ((rfl | rfl) | rfl) | rfl <;> rfl

theorem isWordChar_of_isWhite {c : Char} (h : Text.isWhite c = true) : isWordChar c = false := by
  simp [isWordChar, h]

theorem isWordChar_of_isSeparator {c : Char} (h : isSeparator c = true) : isWordChar c = false :=
  isWordChar_of_isWhite (isWhite_of_isSeparator h)

theorem not_isWhite_of_isWordChar {c : Char} (h : isWordChar c = true) :
    Text.isWhite c = false := by
  cases hwhite : Text.isWhite c with
  | false => rfl
  | true =>
    rw [isWordChar_of_isWhite hwhite] at h
    cases h

/-- What is in no word is a parenthesis or white space. -/
theorem cases_of_not_isWordChar {c : Char} (h : isWordChar c = false) :
    c = '(' ∨ c = ')' ∨ Text.isWhite c = true := by
  by_cases hopen : c = '('
  · exact .inl hopen
  · by_cases hclose : c = ')'
    · exact .inr (.inl hclose)
    · refine .inr (.inr ?_)
      simpa [isWordChar, hopen, hclose] using h

/-- White space outside of words is stray, unless it separates. -/
theorem ofSingle_white {c : Char} (h : Text.isWhite c = true) : Token.ofSingle c = .stray c := by
  have hopen : c ≠ '(' := by
    rintro rfl
    exact absurd h (by decide)
  have hclose : c ≠ ')' := by
    rintro rfl
    exact absurd h (by decide)
  simp [Token.ofSingle, hopen, hclose]

theorem ends_nil : Ends [] := by simp [Ends]

theorem ends_cons {c : Char} {text : List Char} (h : isWordChar c = false) : Ends (c :: text) := by
  simpa [Ends] using h

theorem Ends.append {a b : List Char} (ha : Ends a) (hb : Ends b) : Ends (a ++ b) := by
  cases a with
  | nil => exact hb
  | cons c cs => exact ends_cons (ha c rfl)

/-! ## 3. Runs of word characters -/

/-- A spelling is found exactly for an operator. -/
theorem ofSpelling?_eq_some {s : String} {op : Operator} (h : Operator.ofSpelling? s = some op) :
    s = op.spelling := by
  simp only [Operator.ofSpelling?] at h
  split at h
  · cases h; assumption
  · split at h
    · cases h; assumption
    · split at h
      · cases h; assumption
      · cases h

theorem operator_chars (op : Operator) : ∀ c ∈ op.spelling.toList, isWordChar c = true := by
  have hall : op.spelling.toList.all isWordChar = true := by cases op <;> decide
  exact List.all_eq_true.mp hall

theorem operator_ne_nil (op : Operator) : op.spelling.toList ≠ [] := by
  cases op <;> decide

theorem IsWord.ne_nil {w : String} (h : IsWord w) : w.toList ≠ [] := by
  intro hnil
  exact h.ne_empty (String.toList_eq_nil_iff.mp hnil)

/-- The token of a run is an operator with that spelling, or the run is a word. -/
theorem ofRun_cases {run : List Char} (hne : run ≠ [])
    (hchars : ∀ c ∈ run, isWordChar c = true) :
    (∃ op : Operator, run = op.spelling.toList ∧ Token.ofRun run = .operator op) ∨
      (IsWord (String.ofList run) ∧ Token.ofRun run = .word (String.ofList run)) := by
  cases h : Operator.ofSpelling? (String.ofList run) with
  | some op =>
    refine .inl ⟨op, ?_, by simp [Token.ofRun, h]⟩
    rw [← ofSpelling?_eq_some h, String.toList_ofList]
  | none =>
    refine .inr ⟨⟨?_, by simpa using hchars, ?_⟩, by simp [Token.ofRun, h]⟩
    · intro hempty
      exact hne (by simpa using congrArg String.toList hempty)
    · intro op hop
      rw [hop, Operator.ofSpelling?_spelling] at h
      cases h

theorem ofRun_operator (op : Operator) : Token.ofRun op.spelling.toList = .operator op := by
  simp [Token.ofRun, Operator.ofSpelling?_spelling]

theorem ofRun_word {w : String} (h : IsWord w) : Token.ofRun w.toList = .word w := by
  cases hop : Operator.ofSpelling? w with
  | some op => exact absurd (ofSpelling?_eq_some hop) (h.no_operator op)
  | none => simp [Token.ofRun, hop]

/-! ## 4. What `tokens` finds -/

/-- The tokens of a text without their places. -/
def scan (text : List Char) : List Token := (tokens text).map Placed.token

/-- Inside a run no token starts, so a run is passed over. -/
theorem tokensFrom_run {run text : List Char} (hrun : ∀ c ∈ run, isWordChar c = true)
    (hend : Ends text) : tokensFrom true (run ++ text) = tokensFrom false text := by
  induction run with
  | nil =>
    cases text with
    | nil => rfl
    | cons c cs =>
      have hc : isWordChar c = false := hend c rfl
      simp [tokensFrom, hc]
  | cons c cs ih =>
    obtain ⟨hc, hcs⟩ := List.forall_mem_cons.mp hrun
    simpa [tokensFrom, hc] using ih hcs

theorem tokens_separator {c : Char} (hc : isSeparator c = true) (text : List Char) :
    tokens (c :: text) = tokens text := by
  simp [tokens, tokensFrom, isWordChar_of_isSeparator hc, hc]

theorem tokens_single {c : Char} (hword : isWordChar c = false) (hc : isSeparator c = false)
    (text : List Char) :
    tokens (c :: text) = ⟨Token.ofSingle c, c :: text⟩ :: tokens text := by
  simp [tokens, tokensFrom, hword, hc]

theorem tokens_run {run text : List Char} (hne : run ≠ []) (hrun : ∀ c ∈ run, isWordChar c = true)
    (hend : Ends text) :
    tokens (run ++ text) = ⟨Token.ofRun run, run ++ text⟩ :: tokens text := by
  cases run with
  | nil => exact absurd rfl hne
  | cons c cs =>
    obtain ⟨hc, hcs⟩ := List.forall_mem_cons.mp hrun
    have htake : (c :: cs ++ text).takeWhile isWordChar = c :: cs := by
      rw [List.takeWhile_append_of_pos hrun]
      cases text with
      | nil => simp
      | cons d ds =>
        have hd : isWordChar d = false := hend d rfl
        simp [hd]
    have hpass := tokensFrom_run hcs hend
    rw [List.cons_append] at htake ⊢
    simp [tokens, tokensFrom, hc, htake, hpass]

theorem scan_nil : scan [] = [] := rfl

theorem scan_separator {c : Char} (hc : isSeparator c = true) (text : List Char) :
    scan (c :: text) = scan text := by
  rw [scan, tokens_separator hc, scan]

theorem scan_single {c : Char} (hword : isWordChar c = false) (hc : isSeparator c = false)
    (text : List Char) : scan (c :: text) = Token.ofSingle c :: scan text := by
  rw [scan, tokens_single hword hc, List.map_cons, scan]

theorem scan_run {run text : List Char} (hne : run ≠ []) (hrun : ∀ c ∈ run, isWordChar c = true)
    (hend : Ends text) : scan (run ++ text) = Token.ofRun run :: scan text := by
  rw [scan, tokens_run hne hrun hend, List.map_cons, scan]

/-- What splits is scanned to the same tokens. -/
theorem Splits.eq_scan {text : List Char} {ts : List Token} (h : Splits text ts) :
    ts = scan text := by
  induction h with
  | nil => rfl
  | blank hc _ ih => rw [scan_separator hc, ih]
  | opening _ ih => rw [scan_single rfl rfl, ← ih]; rfl
  | closing _ ih => rw [scan_single rfl rfl, ← ih]; rfl
  | operator op hend _ ih =>
    rw [scan_run (operator_ne_nil op) (operator_chars op) hend, ofRun_operator, ih]
  | word hw hend _ ih => rw [scan_run hw.ne_nil hw.chars hend, ofRun_word hw, ih]
  | stray hwhite hc _ ih =>
    rw [scan_single (isWordChar_of_isWhite hwhite) hc, ofSingle_white hwhite, ih]

/-- A run in front of a text adds its own token. -/
theorem splits_run {run text : List Char} (hne : run ≠ [])
    (hrun : ∀ c ∈ run, isWordChar c = true) (hend : Ends text) (h : Splits text (scan text)) :
    Splits (run ++ text) (scan (run ++ text)) := by
  rw [scan_run hne hrun hend]
  rcases ofRun_cases hne hrun with ⟨op, rfl, htoken⟩ | ⟨hw, htoken⟩
  · rw [htoken]
    exact .operator op hend h
  · rw [htoken]
    simpa using Splits.word hw hend h

/-- Every text splits into the tokens that are scanned. -/
theorem splits_scan (text : List Char) : Splits text (scan text) := by
  -- in front of the text stands what has been read of a run that may go on
  suffices h : ∀ run : List Char, (∀ c ∈ run, isWordChar c = true) →
      Splits (run ++ text) (scan (run ++ text)) from h [] (List.forall_mem_nil _)
  induction text with
  | nil =>
    intro run hrun
    rcases eq_or_ne run [] with rfl | hne
    · exact .nil
    · exact splits_run hne hrun ends_nil .nil
  | cons c cs ih =>
    intro run hrun
    cases hword : isWordChar c with
    | true =>
      have hlonger : ∀ d ∈ run ++ [c], isWordChar d = true := by
        simpa [or_imp, forall_and, hword] using hrun
      simpa using ih (run ++ [c]) hlonger
    | false =>
      have hrest : Splits cs (scan cs) := ih [] (List.forall_mem_nil _)
      have hhere : Splits (c :: cs) (scan (c :: cs)) := by
        cases hsep : isSeparator c with
        | true =>
          rw [scan_separator hsep]
          exact .blank hsep hrest
        | false =>
          rw [scan_single hword hsep]
          rcases cases_of_not_isWordChar hword with rfl | rfl | hwhite
          · exact .opening hrest
          · exact .closing hrest
          · rw [ofSingle_white hwhite]
            exact .stray hwhite hsep hrest
      rcases eq_or_ne run [] with rfl | hne
      · exact hhere
      · exact splits_run hne hrun (ends_cons hword) hhere

/-- **The tokens of a text are what it splits into.** -/
theorem splits_iff {text : List Char} {ts : List Token} : Splits text ts ↔ ts = scan text :=
  ⟨Splits.eq_scan, fun h => h ▸ splits_scan text⟩

/-! ## 5. Splitting part by part -/

/-- Two texts that meet where no word goes on split one after the other. -/
theorem Splits.append {a b : List Char} {ts us : List Token} (ha : Splits a ts)
    (hb : Splits b us) (hend : Ends b) : Splits (a ++ b) (ts ++ us) := by
  induction ha with
  | nil => exact hb
  | blank hc _ ih => exact .blank hc ih
  | opening _ ih => exact .opening ih
  | closing _ ih => exact .closing ih
  | operator op hend' _ ih =>
    rw [List.append_assoc]
    exact .operator op (hend'.append hend) ih
  | word hw hend' _ ih =>
    rw [List.append_assoc]
    exact .word hw (hend'.append hend) ih
  | stray hwhite hc _ ih => exact .stray hwhite hc ih

/-- Every word among the tokens of a text is one. -/
theorem Splits.isWord {text : List Char} {ts : List Token} (h : Splits text ts) {w : String}
    (hw : Token.word w ∈ ts) : IsWord w := by
  induction h with
  | nil => simp at hw
  | blank _ _ ih => exact ih hw
  | opening _ ih | closing _ ih | operator _ _ _ ih | stray _ _ _ ih =>
    exact ih (by simpa using hw)
  | word hword _ _ ih =>
    rcases List.mem_cons.mp hw with heq | hw
    · cases heq
      exact hword
    · exact ih hw

/-- White space alone holds nothing but stray tokens. -/
theorem stray_of_mem_scan {text : List Char} (h : ∀ c ∈ text, Text.isWhite c = true) {t : Token}
    (ht : t ∈ scan text) : ∃ c, t = .stray c := by
  induction text with
  | nil => simp [scan_nil] at ht
  | cons c cs ih =>
    obtain ⟨hc, hcs⟩ := List.forall_mem_cons.mp h
    cases hsep : isSeparator c with
    | true =>
      rw [scan_separator hsep] at ht
      exact ih hcs ht
    | false =>
      rw [scan_single (isWordChar_of_isWhite hc) hsep, ofSingle_white hc] at ht
      rcases List.mem_cons.mp ht with rfl | ht
      · exact ⟨c, rfl⟩
      · exact ih hcs ht

end AccessRules.Rule
