/-
# Names as they are written

A dictionary collapses the white space in the name of a check, and a rule joins the words of a name
by single spaces.  So whatever spelling a check is bound under, the rule that spells it the same way
should mean that check.  Both agree on where a word ends, which is at white space of any kind.  But
between two words a rule takes four characters alone, and it takes no other white space anywhere.

* `parse_of_separated`: a name with no other white space reads as its collapsed form;
* `separated_of_parse`: no text with other white space is a rule at all;
* `Naming.canonical`: the collapsed form itself always reads back.

A check that was bound with a no-break space in its name is one that its own spelling does not reach
(`no_break_space_unread`).
-/
import AccessRules.Proofs.Canonical
import AccessRules.Rule.Book

namespace AccessRules

/-! ## 1. The words of a text -/

namespace Text

/-- Only white space has no words. -/
theorem words_eq_nil_iff {cs : List Char} : words cs = [] ↔ ∀ c ∈ cs, isWhite c = true := by
  induction cs with
  | nil => simp [words]
  | cons c cs ih =>
    rw [words_cons, List.forall_mem_cons]
    by_cases hc : isWhite c = true
    · rw [if_pos hc, ih]
      simp [hc]
    · refine iff_of_false ?_ fun hall => hc hall.1
      rw [if_neg hc]
      split
      · split <;> exact List.cons_ne_nil _ _
      · exact List.cons_ne_nil _ _

/-- A word is not empty, and its characters are those of the text that are no white space. -/
theorem chars_of_mem_words {cs w : List Char} (h : w ∈ words cs) :
    w ≠ [] ∧ ∀ c ∈ w, c ∈ cs ∧ isWhite c = false := by
  induction cs generalizing w with
  | nil => simp [words] at h
  | cons c cs ih =>
    -- a word of the rest is one of the whole
    have later : ∀ {w}, w ∈ words cs → w ≠ [] ∧ ∀ d ∈ w, d ∈ c :: cs ∧ isWhite d = false := by
      intro w hw
      obtain ⟨hne, hchars⟩ := ih hw
      exact ⟨hne, fun d hd => ⟨List.mem_cons_of_mem _ (hchars d hd).1, (hchars d hd).2⟩⟩
    rw [words_cons] at h
    by_cases hc : isWhite c = true
    · rw [if_pos hc] at h
      exact later h
    · have here : c ∈ c :: cs ∧ isWhite c = false :=
        ⟨List.mem_cons_self, Bool.eq_false_iff.mpr hc⟩
      have alone : [c] ≠ [] ∧ ∀ d ∈ [c], d ∈ c :: cs ∧ isWhite d = false :=
        ⟨List.cons_ne_nil _ _, List.forall_mem_singleton.mpr here⟩
      rw [if_neg hc] at h
      split at h
      · next d rest first more hwords =>
        split at h
        · rcases List.mem_cons.mp h with rfl | h
          · exact alone
          · exact later (by rwa [hwords])
        · rcases List.mem_cons.mp h with rfl | h
          · refine ⟨List.cons_ne_nil _ _, List.forall_mem_cons.mpr ⟨here, ?_⟩⟩
            exact (later (hwords ▸ List.mem_cons_self)).2
          · exact later (hwords ▸ List.mem_cons_of_mem _ h)
      · rw [List.mem_singleton.mp h]
        exact alone

end Text

namespace Rule

/-! ## 2. White space that separates -/

/-- The only white space in a text is such as separates tokens. -/
def Separated (text : List Char) : Prop := ∀ c ∈ text, Text.isWhite c = true → isSeparator c = true

theorem separated_cons {c : Char} {text : List Char} :
    Separated (c :: text) ↔ (Text.isWhite c = true → isSeparator c = true) ∧ Separated text :=
  List.forall_mem_cons

/-- A run of word characters holds no white space. -/
theorem separated_run_append {run text : List Char} (hrun : ∀ c ∈ run, isWordChar c = true) :
    Separated (run ++ text) ↔ Separated text := by
  rw [Separated, List.forall_mem_append]
  refine and_iff_right fun c hc hwhite => ?_
  rw [not_isWhite_of_isWordChar (hrun c hc)] at hwhite
  cases hwhite

/-- **The stray tokens of a text are its other white space.** -/
theorem Splits.separated_iff {text : List Char} {ts : List Token} (h : Splits text ts) :
    Separated text ↔ ∀ c, Token.stray c ∉ ts := by
  induction h with
  | nil => simp [Separated]
  | blank hc _ ih => simp [separated_cons, hc, ih]
  | opening _ ih | closing _ ih =>
    rw [separated_cons, ih]
    simp [Text.isWhite, Text.inRanges, Text.whiteRanges]
  | operator op _ _ ih => simp [separated_run_append (operator_chars op), ih]
  | word hw _ _ ih => simp [separated_run_append hw.chars, ih]
  | @stray c text ts hwhite hc _ _ =>
    refine iff_of_false (fun hsep => ?_) fun hnone => hnone c List.mem_cons_self
    have hcontra := (separated_cons.mp hsep).1 hwhite
    rw [hc] at hcontra
    cases hcontra

/-- No phrase holds a stray token. -/
theorem Derives.not_stray {level : Level} {ts : List Token} {r : Rule} (h : Derives level ts r)
    (c : Char) : Token.stray c ∉ ts := by
  induction h with
  | name _ => simp
  | not _ ih | group _ ih => simp [ih]
  | operand _ ih | conjunction _ ih => exact ih
  | and _ _ ihl ihr | or _ _ ihl ihr => simp [ihl, ihr]

/-- **No rule holds other white space than such as separates.** -/
theorem separated_of_parse {s : String} {r : Rule} (h : parse s = .ok r) : Separated s.toList := by
  obtain ⟨ts, hts, hderives⟩ := parse_iff_derives.mp h
  exact hts.separated_iff.mpr hderives.not_stray

/-! ## 3. Names -/

/-- A text that names a check: it has words, none of them an operator, and no parentheses. -/
structure Naming (s : String) : Prop where
  not_blank : Text.isBlank s = false
  not_opening : '(' ∉ s.toList
  not_closing : ')' ∉ s.toList
  not_operator : ∀ op : Operator, op.spelling ∉ (Text.words s.toList).map String.ofList

/-- Where no word goes on and no parenthesis stands there is white space. -/
theorem Ends.white {text : List Char} (h : Ends text) (hopen : '(' ∉ text) (hclose : ')' ∉ text) :
    ∀ c ∈ text.head?, Text.isWhite c = true := by
  intro c hc
  have hmem : c ∈ text := List.mem_of_mem_head? hc
  rcases cases_of_not_isWordChar (h c hc) with rfl | rfl | hwhite
  · exact absurd hmem hopen
  · exact absurd hmem hclose
  · exact hwhite

/-- **The tokens of a name are its words**, if all white space in it separates. -/
theorem Splits.eq_words {text : List Char} {ts : List Token} (h : Splits text ts)
    (hopen : '(' ∉ text) (hclose : ')' ∉ text)
    (hop : ∀ op : Operator, op.spelling ∉ (Text.words text).map String.ofList)
    (hsep : Separated text) : ts = ((Text.words text).map String.ofList).map .word := by
  induction h with
  | nil => rfl
  | @blank c text ts hc _ ih =>
    have hwords : Text.words (c :: text) = Text.words text := by
      rw [Text.words_cons, if_pos (isWhite_of_isSeparator hc)]
    rw [hwords] at hop ⊢
    exact ih (by simp_all) (by simp_all) hop (separated_cons.mp hsep).2
  | opening => exact absurd List.mem_cons_self hopen
  | closing => exact absurd List.mem_cons_self hclose
  | @operator op text ts hend _ _ =>
    have hwords := Text.words_run (operator_ne_nil op)
      (fun c hc => not_isWhite_of_isWordChar (operator_chars op c hc))
      (hend.white (by simp_all) (by simp_all))
    have hmem := hop op
    rw [hwords, List.map_cons, String.ofList_toList] at hmem
    exact absurd List.mem_cons_self hmem
  | @word w text ts hw hend _ ih =>
    have hwords := Text.words_run hw.ne_nil hw.not_isWhite (hend.white (by simp_all) (by simp_all))
    rw [hwords, List.map_cons, String.ofList_toList] at hop ⊢
    rw [List.map_cons, ih (by simp_all) (by simp_all)
      (fun op hmem => hop op (List.mem_cons_of_mem _ hmem))
      ((separated_run_append hw.chars).mp hsep)]
  | stray hwhite hc _ _ =>
    have hcontra := (separated_cons.mp hsep).1 hwhite
    rw [hc] at hcontra
    cases hcontra

namespace Naming

variable {s : String}

theorem words_ne_nil (h : Naming s) : (Text.words s.toList).map String.ofList ≠ [] := by
  intro hnil
  have hblank := h.not_blank
  rw [Text.isBlank, List.all_eq_true.mpr (Text.words_eq_nil_iff.mp (List.map_eq_nil_iff.mp hnil))]
    at hblank
  cases hblank

/-- **The collapsed form of a name is canonical**, whatever white space the name holds. -/
theorem canonical (h : Naming s) : Canonical (Text.collapse s) := by
  refine ⟨_, h.words_ne_nil, fun name hname => ?_, rfl⟩
  have hoperator : ∀ op : Operator, name ≠ op.spelling :=
    fun op heq => h.not_operator op (heq ▸ hname)
  obtain ⟨w, hw, rfl⟩ := List.mem_map.mp hname
  obtain ⟨hne, hchars⟩ := Text.chars_of_mem_words hw
  refine ⟨fun hempty => hne (String.ofList_eq_empty_iff.mp hempty), fun c hc => ?_, hoperator⟩
  rw [String.toList_ofList] at hc
  obtain ⟨hmem, hwhite⟩ := hchars c hc
  have hopen : c ≠ '(' := fun hc => h.not_opening (hc ▸ hmem)
  have hclose : c ≠ ')' := fun hc => h.not_closing (hc ▸ hmem)
  simp [isWordChar, hwhite, hopen, hclose]

/-- The collapsed form of a name reads as itself. -/
theorem parse_collapse (h : Naming s) :
    parse (Text.collapse s) = .ok (.leaf (Text.collapse s)) := by
  have hnames : ∀ name ∈ Formula.leaves (.leaf (Text.collapse s)), Canonical name :=
    List.forall_mem_singleton.mpr h.canonical
  have hparse := parse_text_of_canonical hnames
  rwa [text] at hparse

/-- **A name reads as its collapsed form**, if all white space in it separates. -/
theorem parse_of_separated (h : Naming s) (hsep : Separated s.toList) :
    parse s = .ok (.leaf (Text.collapse s)) := by
  have htokens := splits_scan s.toList
  rw [htokens.eq_words h.not_opening h.not_closing h.not_operator hsep] at htokens
  exact parse_iff_derives.mpr ⟨_, htokens, (Derives.name h.words_ne_nil).to_rule⟩

end Naming

end Rule

/-! ## 4. Names and what they are bound to -/

namespace Dictionary

/-- A check is found under every spelling of the name that it was bound under last. -/
theorem check?_addCheck_self (d : Dictionary) {name other : String} (p : Procedure)
    (h : Text.collapse other = Text.collapse name) :
    (d.addCheck name p).check? other = some ⟨d.shelf.length, p⟩ := by
  rw [check?, addCheck, h, SortedMap.find?_insert_self]
  simp [implementation?]

/-- A text that reads as one bound name compiles to its check. -/
theorem compile_of_name {d : Dictionary} {text name : String} {c : Check}
    (hparse : Rule.parse text = .ok (.leaf name)) (hc : d.check? name = some c) :
    d.compile text = .ok ⟨text, .leaf ⟨name, c⟩⟩ := by
  simp only [compile, hparse, bindRule, Formula.mapM?, bindName, hc]

end Dictionary

namespace Rule

/-- **A name means its check exactly if all white space in it separates.**  Otherwise the name is no
rule.  The collapsed form of the name, under which the dictionary lists the check, always means
it. -/
theorem naming_refers_iff {s : String} (h : Naming s) :
    (parse s = .ok (.leaf (Text.collapse s)) ↔ Separated s.toList) ∧
    (¬ Separated s.toList → ∃ e, parse s = .error e) ∧
    parse (Text.collapse s) = .ok (.leaf (Text.collapse s)) ∧
    ∀ (d : Dictionary) (p : Procedure),
      (d.addCheck s p).names.find? (Text.collapse s) = some d.shelf.length ∧
      ((d.addCheck s p).compile s =
          .ok ⟨s, .leaf ⟨Text.collapse s, ⟨d.shelf.length, p⟩⟩⟩ ↔ Separated s.toList) ∧
      (d.addCheck s p).compile (Text.collapse s) =
        .ok ⟨Text.collapse s, .leaf ⟨Text.collapse s, ⟨d.shelf.length, p⟩⟩⟩ := by
  have hcollapsed := h.parse_collapse
  refine ⟨⟨separated_of_parse, h.parse_of_separated⟩, fun hsep => ?_, hcollapsed,
    fun d p => ⟨SortedMap.find?_insert_self _ _ _, ⟨fun hcompile => ?_, fun hsep => ?_⟩, ?_⟩⟩
  · cases hparse : parse s with
    | error e => exact ⟨e, rfl⟩
    | ok r => exact absurd (separated_of_parse hparse) hsep
  · rw [Dictionary.compile] at hcompile
    split at hcompile
    · cases hcompile
    · next r hparse => exact separated_of_parse hparse
  · exact Dictionary.compile_of_name (h.parse_of_separated hsep)
      (d.check?_addCheck_self p h.canonical.collapse)
  · exact Dictionary.compile_of_name hcollapsed (d.check?_addCheck_self p h.canonical.collapse)

/-- A name whose words a tab and a blank keep apart. -/
theorem naming_refers_iff_tab :
    Naming " is\t owner" ∧ Separated " is\t owner".toList ∧
      parse " is\t owner" = .ok (.leaf "is owner") ∧
      (Dictionary.empty.addCheck " is\t owner" .allow).compile " is\t owner" =
        .ok ⟨" is\t owner", .leaf ⟨"is owner", ⟨0, .allow⟩⟩⟩ := by
  have hname : Naming " is\t owner" :=
    ⟨by decide, by decide, by decide, fun op => by cases op <;> decide⟩
  have hparse : parse " is\t owner" = .ok (.leaf "is owner") := by rfl
  have hsep : Separated " is\t owner".toList := separated_of_parse hparse
  obtain ⟨hread, -, -, hbound⟩ := naming_refers_iff hname
  exact ⟨hname, hsep, hread.mpr hsep, (hbound _ _).2.1.mpr hsep⟩

/-- **A name can be bound that its own spelling does not reach.**  The no-break space ends a word,
for the dictionary and for rules alike, but no rule lets it stand between two words. -/
theorem no_break_space_unread :
    Naming "is\u00a0owner" ∧ Text.collapse "is\u00a0owner" = "is owner" ∧
      (Dictionary.empty.addCheck "is\u00a0owner" .allow).check? "is owner" = some ⟨0, .allow⟩ ∧
      parse "is\u00a0owner" = .error ⟨.unexpected "owner", some 4⟩ :=
  ⟨⟨by decide, by decide, by decide, fun op => by cases op <;> decide⟩, by decide,
    Dictionary.check?_addCheck_self .empty .allow (by decide), by rfl⟩

end Rule

end AccessRules
