/-
# Canonical names and the canonical text

The canonical text of a rule puts parentheses around every binary node, none around a negation,
and a name as it stands.  It reads back as the same rule exactly if every name in it is canonical:
words joined by single spaces, none of them an operator.  Whatever is read has canonical names
only, so reading, writing and reading again changes nothing.

* `Derives.canonical`: the names of a derived rule are joined from words of the text;
* `splits_text`: the canonical text of a rule with canonical names splits into tokens that derive
  the rule as one operand, so it can stand in a larger text without parentheses of its own.
-/
import AccessRules.Proofs.Grammar

namespace AccessRules.Rule

/-! ## 1. Canonical names -/

/-- One or more words, joined by single spaces. -/
def Canonical (name : String) : Prop :=
  ∃ words : List String, words ≠ [] ∧ (∀ w ∈ words, IsWord w) ∧ name = " ".intercalate words

/-- The names of a derived rule come from words among its tokens. -/
theorem Derives.canonical {level : Level} {ts : List Token} {r : Rule} (h : Derives level ts r)
    (hwords : ∀ w, Token.word w ∈ ts → IsWord w) : ∀ name ∈ r.leaves, Canonical name := by
  induction h with
  | @name words hne =>
    intro name hname
    rw [Formula.leaves, List.mem_singleton] at hname
    refine ⟨words, hne, fun w hw => hwords w ?_, hname⟩
    exact List.mem_map_of_mem hw
  | not _ ih => exact ih fun w hw => hwords w (by simp [hw])
  | group _ ih => exact ih fun w hw => hwords w (by simp [hw])
  | operand _ ih => exact ih hwords
  | conjunction _ ih => exact ih hwords
  | and _ _ ihl ihr | or _ _ ihl ihr =>
    intro name hname
    rcases List.mem_append.mp hname with hl | hr
    · exact ihl (fun w hw => hwords w (by simp [hw])) name hl
    · exact ihr (fun w hw => hwords w (by simp [hw])) name hr

/-- Whatever is read has canonical names only. -/
theorem canonical_of_parse {text : String} {r : Rule} (h : parse text = .ok r) :
    ∀ name ∈ r.leaves, Canonical name := by
  obtain ⟨ts, hts, hderives⟩ := parse_iff_derives.mp h
  exact hderives.canonical fun w hw => hts.isWord hw

/-- No word holds white space of any kind. -/
theorem IsWord.not_isWhite {w : String} (h : IsWord w) :
    ∀ c ∈ w.toList, Text.isWhite c = false :=
  fun c hc => not_isWhite_of_isWordChar (h.chars c hc)

/-- Words joined by single spaces are the words of the text. -/
theorem words_intercalate {words : List String} (h : ∀ w ∈ words, IsWord w) :
    Text.words (" ".intercalate words).toList = words.map String.toList := by
  induction words with
  | nil => rfl
  | cons w more ih =>
    obtain ⟨hw, hmore⟩ := List.forall_mem_cons.mp h
    cases more with
    | nil =>
      have hend : ∀ c ∈ ([] : List Char).head?, Text.isWhite c = true := fun c hc => nomatch hc
      simpa [Text.words] using Text.words_run hw.ne_nil hw.not_isWhite hend
    | cons w' rest =>
      have hblank : ∀ c ∈ (' ' :: (" ".intercalate (w' :: rest)).toList).head?,
          Text.isWhite c = true := by
        intro c hc
        cases hc
        rfl
      have hrun := Text.words_run hw.ne_nil hw.not_isWhite hblank
      rw [Text.words_cons, if_pos (by rfl), ih hmore] at hrun
      rw [String.intercalate_cons_cons, String.append_assoc, String.toList_append,
        String.toList_append]
      exact hrun

/-- A canonical name is collapsed already, so a dictionary looks it up as it stands. -/
theorem Canonical.collapse {name : String} (h : Canonical name) : Text.collapse name = name := by
  obtain ⟨words, -, hwords, rfl⟩ := h
  rw [Text.collapse, words_intercalate hwords, List.map_map]
  simp

/-! ## 2. Writing -/

/-- Words joined by single spaces split into themselves. -/
theorem splits_words {words : List String} (hne : words ≠ []) (h : ∀ w ∈ words, IsWord w) :
    Splits (" ".intercalate words).toList (words.map .word) := by
  induction words with
  | nil => exact absurd rfl hne
  | cons w more ih =>
    obtain ⟨hw, hmore⟩ := List.forall_mem_cons.mp h
    cases more with
    | nil => simpa using Splits.word hw ends_nil .nil
    | cons w' rest =>
      have hrest := ih (by simp) hmore
      have hblank := Splits.blank (c := ' ') rfl hrest
      rw [String.intercalate_cons_cons, String.append_assoc, String.toList_append,
        String.toList_append]
      exact .word hw (ends_cons rfl) hblank

/-- What stands between parentheses, in front of more text. -/
theorem splits_group {a b : List Char} {ts us : List Token} (ha : Splits a ts) (hb : Splits b us) :
    Splits ('(' :: (a ++ ')' :: b)) (.opening :: (ts ++ .closing :: us)) :=
  .opening (ha.append (.closing hb) (ends_cons rfl))

/-- An operator between blanks, in front of more text. -/
theorem splits_operator (op : Operator) {text : List Char} {ts : List Token} (h : Splits text ts) :
    Splits (' ' :: (op.spelling.toList ++ ' ' :: text)) (.operator op :: ts) :=
  .blank rfl (.operator op (ends_cons rfl) (.blank rfl h))

/-- An operator between blanks joins what stands on its sides, and parentheses close the whole. -/
theorem splits_binary (op : Operator) {l r : String} {ts us : List Token}
    (hl : Splits l.toList ts) (hr : Splits r.toList us) :
    Splits ("(" ++ l ++ (" " ++ op.spelling ++ " ") ++ r ++ ")").toList
      (.opening :: (ts ++ .operator op :: us ++ [.closing])) := by
  have hinside := hl.append (splits_operator op hr) (ends_cons rfl)
  simpa [String.toList_append] using splits_group hinside .nil

/-- **The canonical text of a rule with canonical names derives the rule**, as one operand. -/
theorem splits_text {r : Rule} (h : ∀ name ∈ r.leaves, Canonical name) :
    ∃ ts, Splits r.text.toList ts ∧ Derives .operand ts r := by
  induction r with
  | leaf name =>
    obtain ⟨words, hne, hwords, hname⟩ := h name (List.mem_singleton_self name)
    subst hname
    exact ⟨_, splits_words hne hwords, .name hne⟩
  | and l r ihl ihr =>
    obtain ⟨hl, hr⟩ := List.forall_mem_append.mp h
    obtain ⟨ts, hts, hdl⟩ := ihl hl
    obtain ⟨us, hus, hdr⟩ := ihr hr
    exact ⟨_, splits_binary .and hts hus, .group (.conjunction (.and (.operand hdl) hdr))⟩
  | or l r ihl ihr =>
    obtain ⟨hl, hr⟩ := List.forall_mem_append.mp h
    obtain ⟨ts, hts, hdl⟩ := ihl hl
    obtain ⟨us, hus, hdr⟩ := ihr hr
    exact ⟨_, splits_binary .or hts hus,
      .group (.or (.conjunction (.operand hdl)) (.operand hdr))⟩
  | not c ih =>
    obtain ⟨ts, hts, hd⟩ := ih h
    refine ⟨.operator .not :: ts, ?_, .not hd⟩
    have hblank := Splits.blank (c := ' ') rfl hts
    simpa [text, String.toList_append, Operator.spelling] using
      Splits.operator .not (ends_cons rfl) hblank

theorem parse_text_of_canonical {r : Rule} (h : ∀ name ∈ r.leaves, Canonical name) :
    parse r.text = .ok r := by
  obtain ⟨ts, hts, hd⟩ := splits_text h
  exact parse_iff_derives.mpr ⟨ts, hts, hd.to_rule⟩

/-! ## 3. There and back -/

/-- **The canonical text reads back exactly if all names are canonical**, and whatever was read
from a text, in canonical form or not, is such a rule. -/
theorem parse_text_iff_canonical (r : Rule) :
    (parse r.text = .ok r ↔ ∀ name ∈ r.leaves, Canonical name) ∧
      ∀ s, parse s = .ok r → (∀ name ∈ r.leaves, Canonical name) ∧ parse r.text = .ok r := by
  refine ⟨⟨canonical_of_parse, parse_text_of_canonical⟩, fun s hs => ?_⟩
  have hnames := canonical_of_parse hs
  exact ⟨hnames, parse_text_of_canonical hnames⟩

example : (parse "late OR NOT(is   owner)AND NOTE").map text =
    .ok "(late OR (NOT is owner AND NOTE))" := by rfl

end AccessRules.Rule
