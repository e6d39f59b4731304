/-
# Where a text stops being a rule

The error of a text that is no rule names a place.  What stands before that place is the beginning
of a rule, up to the end of a token, and with the token that stands there it no longer is.  So the
place is the first one at which a reader of the text can know that something is wrong.  A text
that breaks off too early is wrong at its end, and one of white space alone has no place at all.

The reader never goes back, so this is a property of its states.

* `Stacked.completes`: whatever the reader has taken can be completed, by an operand where one is
  missing and by the parentheses that are still open;
* `stuck_of_run`: where the reader gets stuck, the text falls into what it has taken and the rest;
* `error_at_first_offence`: the place of an error.
-/
import AccessRules.Proofs.Grammar
import AccessRules.Proofs.Trimming

namespace AccessRules

namespace Text

/-- The number of bytes of a text, counted by characters. -/
theorem byteLength_toList (s : String) : byteLength s.toList = s.utf8ByteSize := by
  suffices h : ∀ cs : List Char, byteLength cs = (String.ofList cs).utf8ByteSize by
    simpa using h s.toList
  intro cs
  induction cs with
  | nil => rfl
  | cons c cs ih =>
    rw [byteLength, ih, String.ofList_cons, String.utf8ByteSize_append,
      String.utf8ByteSize_singleton]

end Text

namespace Rule

/-! ## 1. Phrases, whatever their tree -/

/-- Tokens that some rule has. -/
def Phrase (ts : List Token) : Prop := ∃ r, Derives .rule ts r

namespace Phrase

variable {ts us : List Token}

theorem word (w : String) : Phrase [.word w] := by
  have hname : [w] ≠ [] := List.cons_ne_nil w []
  exact ⟨_, (Derives.name hname).to_rule⟩

theorem group (h : Phrase ts) : Phrase (.opening :: (ts ++ [.closing])) := by
  obtain ⟨r, hr⟩ := h
  exact ⟨r, (Derives.group hr).to_rule⟩

/-- A negation in front of a phrase negates its first operand. -/
theorem derives_not {level : Level} {r : Rule} (h : Derives level ts r) :
    ∃ r', Derives level (.operator .not :: ts) r' := by
  induction h with
  | name hne => exact ⟨_, .not (.name hne)⟩
  | not h _ => exact ⟨_, .not (.not h)⟩
  | group h _ => exact ⟨_, .not (.group h)⟩
  | operand _ ih => exact ih.imp fun _ => .operand
  | conjunction _ ih => exact ih.imp fun _ => .conjunction
  | and _ hr ihl _ =>
    obtain ⟨l', hl'⟩ := ihl
    exact ⟨_, .and hl' hr⟩
  | or _ hr ihl _ =>
    obtain ⟨l', hl'⟩ := ihl
    exact ⟨_, .or hl' hr⟩

theorem not (h : Phrase ts) : Phrase (.operator .not :: ts) := by
  obtain ⟨r, hr⟩ := h
  exact derives_not hr

/-- Two conjunctions are one, by the operands of the second. -/
theorem derives_and {l r : Rule} (hl : Derives .conjunction ts l) (hr : Derives .conjunction us r) :
    ∃ r', Derives .conjunction (ts ++ .operator .and :: us) r' := by
  generalize hlevel : Level.conjunction = level at hr
  induction hr with
  | name _ | not _ _ | group _ _ | conjunction _ _ | or _ _ _ _ => cases hlevel
  | operand h _ => exact ⟨_, .and hl h⟩
  | and _ h ih _ =>
    obtain ⟨l', hl'⟩ := ih rfl
    exact ⟨_, by simpa using Derives.and hl' h⟩

/-- A conjunction with a phrase on its left is one of the last disjunct there. -/
theorem and_conjunction {l r : Rule} (hl : Derives .rule ts l) (hr : Derives .conjunction us r) :
    Phrase (ts ++ .operator .and :: us) := by
  cases hl with
  | conjunction h =>
    obtain ⟨r', hr'⟩ := derives_and h hr
    exact ⟨r', .conjunction hr'⟩
  | or h h' =>
    obtain ⟨r', hr'⟩ := derives_and h' hr
    exact ⟨_, by simpa using Derives.or h hr'⟩

/-- Two phrases with a binary operator between them are one. -/
theorem binary {op : Operator} (hop : op ≠ .not) (hl : Phrase ts) (hr : Phrase us) :
    Phrase (ts ++ .operator op :: us) := by
  obtain ⟨l, hl⟩ := hl
  obtain ⟨r, hr⟩ := hr
  generalize hlevel : Level.rule = level at hr
  induction hr with
  | name _ | not _ _ | group _ _ | operand _ _ | and _ _ _ _ => cases hlevel
  | conjunction h _ =>
    cases op with
    | and => exact and_conjunction hl h
    | or => exact ⟨_, .or hl h⟩
    | not => exact absurd rfl hop
  | or _ h ih _ =>
    obtain ⟨l', hl'⟩ := ih rfl
    exact ⟨_, by simpa using Derives.or hl' h⟩

end Phrase

/-! ## 2. Whatever was taken can be completed -/

/-- **What a stack stands for can be completed** by any phrase and the parentheses that are still
open. -/
theorem Stacked.completes {stack : List Frame} {ts : List Token} (h : Stacked stack ts) :
    ∀ us, Phrase us → ∃ n, Phrase (ts ++ us ++ List.replicate n .closing) := by
  -- the topmost frame and the phrase make a larger phrase, for the stack below
  induction h with
  | nil =>
    intro us hus
    exact ⟨0, by simpa using hus⟩
  | group _ ih =>
    intro us hus
    obtain ⟨n, hn⟩ := ih _ hus.group
    exact ⟨n + 1, by simpa [List.replicate_succ] using hn⟩
  | negation _ ih =>
    intro us hus
    obtain ⟨n, hn⟩ := ih _ hus.not
    exact ⟨n, by simpa using hn⟩
  | andLeft _ hl ih =>
    intro us hus
    have hleft : Phrase _ := ⟨_, hl.to_rule⟩
    have hand : Operator.and ≠ .not := by simp
    obtain ⟨n, hn⟩ := ih _ (hleft.binary hand hus)
    exact ⟨n, by simpa using hn⟩
  | orLeft _ hl ih =>
    intro us hus
    have hleft : Phrase _ := ⟨_, hl⟩
    have hor : Operator.or ≠ .not := by simp
    obtain ⟨n, hn⟩ := ih _ (hleft.binary hor hus)
    exact ⟨n, by simpa using hn⟩

/-- An ending that completes what was taken: an operand if one is missing, and closing
parentheses. -/
inductive Ending : List Char → List Token → Prop where
  | closings (n : Nat) : Ending (List.replicate n ')') (List.replicate n .closing)
  | operand (n : Nat) :
      Ending (' ' :: 'x' :: List.replicate n ')') (.word "x" :: List.replicate n .closing)

theorem splits_closings (n : Nat) :
    Splits (List.replicate n ')') (List.replicate n .closing) := by
  induction n with
  | zero => exact .nil
  | succ n ih => exact .closing ih

theorem ends_closings (n : Nat) : Ends (List.replicate n ')') := by
  cases n with
  | zero => exact ends_nil
  | succ n => exact ends_cons rfl

theorem Ending.splits {text : List Char} {ts : List Token} (h : Ending text ts) :
    Splits text ts := by
  cases h with
  | closings n => exact splits_closings n
  | operand n =>
    have hchars : ∀ c ∈ "x".toList, isWordChar c = true := by
      intro c hc
      obtain rfl : c = 'x' := by simpa using hc
      rfl
    have hword : IsWord "x" := ⟨by decide, hchars, fun op => by cases op <;> decide⟩
    exact .blank rfl (.word hword (ends_closings n) (splits_closings n))

theorem Ending.ends {text : List Char} {ts : List Token} (h : Ending text ts) : Ends text := by
  cases h with
  | closings n => exact ends_closings n
  | operand n => exact ends_cons rfl

/-- **Whatever the reader has taken can be completed.** -/
theorem Reader.Reads.completes {reader : Reader} {ts : List Token} (h : reader.Reads ts) :
    ∃ text us, Ending text us ∧ Phrase (ts ++ us) := by
  cases hheld : reader.held? with
  | none =>
    cases reader with
    | operand stack =>
      have hstack : Stacked stack ts := h
      obtain ⟨n, hn⟩ := hstack.completes _ (.word "x")
      exact ⟨_, _, .operand n, by simpa using hn⟩
    | name _ _ | closed _ _ => cases hheld
  | some held =>
    obtain ⟨us, vs, hus, hvs, rfl⟩ := h.stands hheld
    obtain ⟨n, hn⟩ := hus.completes vs ⟨_, hvs.to_rule⟩
    exact ⟨_, _, .closings n, hn⟩

/-! ## 3. Where the reader gets stuck -/

/-- The reader takes none of these tokens: there is none and the text ends too early, or the first
of them cannot stand. -/
def Reader.Halts (reader : Reader) : List Token → Prop
  | [] => reader.result? = none
  | t :: _ => reader.step t = none

/-- A text that falls into what the reader takes of it and a rest at which it is stuck. -/
def Reader.Halted (reader stuck : Reader) (text rest : List Char) : Prop :=
  ∃ before us vs, text = before ++ rest ∧ Splits before us ∧ Splits rest vs ∧
    Splits text (us ++ vs) ∧ reader.feed us = some stuck ∧ stuck.Halts vs

/-- One token in front of a text: it cannot stand, or else the text is read after it. -/
theorem halted_front (front : List Char) {text rest : List Char} {t : Token} {ts : List Token}
    {reader stuck : Reader}
    (htokens : tokens (front ++ text) = ⟨t, front ++ text⟩ :: tokens text)
    (hsplits : Splits (front ++ text) (t :: ts))
    (hfront : ∀ before us, before <+: text → Splits before us → Splits (front ++ before) (t :: us))
    (ih : ∀ next : Reader, run next (tokens text) = .error (stuck, rest) →
      next.Halted stuck text rest)
    (hrun : run reader (tokens (front ++ text)) = .error (stuck, rest)) :
    reader.Halted stuck (front ++ text) rest := by
  rw [htokens, run] at hrun
  cases hstep : reader.step t with
  | none =>
    simp only [hstep, Except.error.injEq, Prod.mk.injEq] at hrun
    obtain ⟨rfl, rfl⟩ := hrun
    exact ⟨[], [], t :: ts, rfl, .nil, hsplits, hsplits, rfl, hstep⟩
  | some next =>
    simp only [hstep] at hrun
    obtain ⟨before, us, vs, rfl, hus, hvs, hall, hfeed, hhalts⟩ := ih next hrun
    refine ⟨front ++ before, t :: us, vs, by simp, ?_, hvs, ?_, ?_, hhalts⟩
    · exact hfront before us (List.prefix_append before rest) hus
    · exact hfront (before ++ rest) (us ++ vs) List.prefix_rfl hall
    · rw [Reader.feed, hstep, Option.bind_some, hfeed]

/-- No word goes on after the beginning of a text either, where none does after the text. -/
theorem Ends.of_prefix {before text : List Char} (h : Ends text) (hb : before <+: text) :
    Ends before := by
  obtain ⟨rest, rfl⟩ := hb
  cases before with
  | nil => exact ends_nil
  | cons c cs => exact ends_cons (h c rfl)

/-- **Where the reader gets stuck, the text falls into what it has taken and the rest.** -/
theorem halted_of_run {text : List Char} {ts : List Token} (h : Splits text ts)
    {reader stuck : Reader} {rest : List Char}
    (hrun : run reader (tokens text) = .error (stuck, rest)) :
    reader.Halted stuck text rest := by
  induction h generalizing reader with
  | nil =>
    rw [tokens, tokensFrom, run] at hrun
    cases hresult : reader.result? with
    | some r => simp [hresult] at hrun
    | none =>
      simp only [hresult, Except.error.injEq, Prod.mk.injEq] at hrun
      obtain ⟨rfl, rfl⟩ := hrun
      exact ⟨[], [], [], rfl, .nil, .nil, .nil, rfl, hresult⟩
  | @blank c text ts hc _ ih =>
    rw [tokens_separator hc] at hrun
    obtain ⟨before, us, vs, rfl, hus, hvs, hall, hfeed, hhalts⟩ := ih hrun
    exact ⟨c :: before, us, vs, rfl, .blank hc hus, hvs, .blank hc hall, hfeed, hhalts⟩
  | opening h ih =>
    exact halted_front ['('] (tokens_single rfl rfl _) (.opening h)
      (fun _ _ _ => .opening) (fun _ => ih) hrun
  | closing h ih =>
    exact halted_front [')'] (tokens_single rfl rfl _) (.closing h)
      (fun _ _ _ => .closing) (fun _ => ih) hrun
  | operator op hend h ih =>
    refine halted_front _ ?_ (.operator op hend h)
      (fun _ _ hb => .operator op (hend.of_prefix hb)) (fun _ => ih) hrun
    rw [tokens_run (operator_ne_nil op) (operator_chars op) hend, ofRun_operator]
  | word hw hend h ih =>
    refine halted_front _ ?_ (.word hw hend h)
      (fun _ _ hb => .word hw (hend.of_prefix hb)) (fun _ => ih) hrun
    rw [tokens_run hw.ne_nil hw.chars hend, ofRun_word hw]
  | @stray c text ts hwhite hc h ih =>
    refine halted_front [c] ?_ (.stray hwhite hc h) (fun _ _ _ => .stray hwhite hc)
      (fun _ => ih) hrun
    rw [List.singleton_append, tokens_single (isWordChar_of_isWhite hwhite) hc,
      ofSingle_white hwhite]

/-! ## 4. White space around the place -/

/-- No word goes on into white space. -/
theorem ends_of_white {white : List Char} (h : ∀ c ∈ white, Text.isWhite c = true) :
    Ends white :=
  fun c hc => isWordChar_of_isWhite (h c (List.mem_of_mem_head? hc))

/-- The tokens in white space, and then those of the text behind it. -/
theorem scan_white_append {white : List Char} (h : ∀ c ∈ white, Text.isWhite c = true)
    (text : List Char) : scan (white ++ text) = scan white ++ scan text := by
  induction white with
  | nil => rfl
  | cons c white ih =>
    obtain ⟨hc, hwhite⟩ := List.forall_mem_cons.mp h
    rw [List.cons_append]
    cases hsep : isSeparator c with
    | true => rw [scan_separator hsep, scan_separator hsep, ih hwhite]
    | false =>
      have hword := isWordChar_of_isWhite hc
      rw [scan_single hword hsep, scan_single hword hsep, ih hwhite, List.cons_append]

/-- No reader takes a stray token. -/
theorem Reader.not_stray_of_feed {reader next : Reader} {ts : List Token}
    (h : reader.feed ts = some next) (c : Char) : Token.stray c ∉ ts := by
  induction ts generalizing reader with
  | nil => simp
  | cons t ts ih =>
    obtain ⟨after, hstep, hafter⟩ := Option.bind_eq_some_iff.mp h
    intro hmem
    rcases List.mem_cons.mp hmem with rfl | hmem
    · cases reader <;> cases hstep
    · exact ih hafter hmem

/-- White space at the end of a text without stray tokens holds no token. -/
theorem Splits.of_append_white {text white : List Char} {ts : List Token}
    (h : Splits (text ++ white) ts) (hwhite : ∀ c ∈ white, Text.isWhite c = true)
    (hstray : ∀ c, Token.stray c ∉ ts) : Splits text ts := by
  have happend := (splits_scan text).append (splits_scan white) (ends_of_white hwhite)
  have hts : ts = scan text ++ scan white := h.eq_scan.trans happend.eq_scan.symm
  have hnone : scan white = [] := by
    refine List.eq_nil_iff_forall_not_mem.mpr fun t ht => ?_
    obtain ⟨c, rfl⟩ := stray_of_mem_scan hwhite ht
    exact hstray c (by simp [hts, ht])
  rw [hts, hnone, List.append_nil]
  exact splits_scan text

/-- A text that begins with something else than white space begins with a token. -/
theorem Splits.exists_cons {c : Char} {text : List Char} {ts : List Token}
    (h : Splits (c :: text) ts) (hc : Text.isWhite c = false) : ∃ t us, ts = t :: us := by
  generalize htext : c :: text = whole at h
  cases h with
  | nil => cases htext
  | blank hblank _ =>
    cases htext
    rw [isWhite_of_isSeparator hblank] at hc
    cases hc
  | opening _ | closing _ | operator _ _ _ | word _ _ _ | stray _ _ _ => exact ⟨_, _, rfl⟩

/-! ## 5. The place of an error -/

/-- The text is the beginning of one that is read as a rule, and where it ends a token ends. -/
def Opens (text : List Char) : Prop :=
  ∃ ending ts us r, Splits text ts ∧ Splits ending us ∧ Splits (text ++ ending) (ts ++ us) ∧
    parse (String.ofList (text ++ ending)) = .ok r

/-- A text with its tokens as a whole is read if they form a phrase. -/
theorem exists_parse_of_phrase {text : List Char} {ts : List Token} (h : Splits text ts)
    (hts : Phrase ts) : ∃ r, parse (String.ofList text) = .ok r := by
  obtain ⟨r, hr⟩ := hts
  exact ⟨r, parse_iff_derives.mpr ⟨ts, by simpa using h, hr⟩⟩

/-- What the reader has taken of a text opens a rule. -/
theorem opens_of_reads {reader : Reader} {text : List Char} {ts : List Token}
    (h : Splits text ts) (hreads : reader.Reads ts) : Opens text := by
  obtain ⟨ending, us, hending, hphrase⟩ := hreads.completes
  have happend := h.append hending.splits hending.ends
  obtain ⟨r, hr⟩ := exists_parse_of_phrase happend hphrase
  exact ⟨ending, ts, us, r, h, hending.splits, happend, hr⟩

/-- The place between two parts of a text is where the text stops being the beginning of a rule. -/
structure FirstOffence (before rest : String) : Prop where
  /-- The place is not before white space. -/
  not_white : ∀ c ∈ rest.toList.head?, Text.isWhite c = false
  /-- What stands before it opens a rule. -/
  opens : Opens (Text.trimEnd before.toList)
  /-- With the token that stands there, no rule begins that way. -/
  offends : rest ≠ "" → ∃ ts t us, Splits before.toList ts ∧ Splits rest.toList (t :: us) ∧
    Splits (before ++ rest).toList (ts ++ t :: us) ∧
    ∀ s r, parse s = .ok r → ∀ ts', Splits s.toList ts' → ¬ ts ++ [t] <+: ts'

/-- No rule begins with tokens at which the reader is stuck. -/
theorem not_prefix_of_halts {stuck : Reader} {us vs : List Token}
    (hfeed : (Reader.operand []).feed us = some stuck) (hhalts : stuck.Halts vs) (hvs : vs ≠ [])
    {s : String} {r : Rule} (hs : parse s = .ok r) {ts : List Token} (hts : Splits s.toList ts) :
    ¬ us ++ vs <+: ts := by
  rintro ⟨more, rfl⟩
  cases vs with
  | nil => exact hvs rfl
  | cons t vs =>
    have hstep : stuck.step t = none := hhalts
    rw [parse_eq_ok_iff, ← hts.eq_scan, read?, List.append_assoc, Reader.feed_append, hfeed,
      Option.bind_some, List.cons_append, Reader.feed, hstep] at hs
    cases hs

/-- What keeps the reader from going on is the first of the tokens. -/
theorem Reader.Halts.of_prefix {stuck : Reader} {us vs : List Token} (h : stuck.Halts vs)
    (hus : us ≠ []) (hbefore : us <+: vs) : stuck.Halts us := by
  obtain ⟨more, rfl⟩ := hbefore
  cases us with
  | nil => exact absurd rfl hus
  | cons t us => exact h

/-- **Where the reader is stuck, past white space, is the first offence.** -/
theorem firstOffence_of_halted {stuck : Reader} {text rest : List Char}
    (h : (Reader.operand []).Halted stuck text rest) :
    ∃ before, text = before ++ Text.trimStart rest ∧
      FirstOffence (String.ofList before) (String.ofList (Text.trimStart rest)) := by
  obtain ⟨taken, us, vs, rfl, hus, hvs, hall, hfeed, hhalts⟩ := h
  obtain ⟨white, hwhite, hrest⟩ := Text.exists_white_append_trimStart rest
  have hnotwhite := Text.not_white_of_head?_trimStart rest
  generalize Text.trimStart rest = remaining at hrest hnotwhite ⊢
  have htokens : vs = scan white ++ scan remaining := by
    rw [hvs.eq_scan, hrest, scan_white_append hwhite]
  refine ⟨taken ++ white, by simp [hrest], by simpa using hnotwhite, ?_, ?_⟩
  · have hstart : (Reader.operand []).Reads [] := Stacked.nil
    have hreads : stuck.Reads us := by simpa using hstart.feed hfeed
    obtain ⟨white', hwhite', htaken⟩ := Text.exists_trimEnd_append_white taken
    rw [htaken] at hus
    have htrimmed := hus.of_append_white hwhite' (Reader.not_stray_of_feed hfeed)
    simpa [Text.trimEnd_append_white hwhite] using opens_of_reads htrimmed hreads
  · intro hne
    cases remaining with
    | nil => exact absurd rfl hne
    | cons c cs =>
      -- the reader is stuck at the first stray token of the white space, or else at `t`
      have hsplits := splits_scan (c :: cs)
      obtain ⟨t, ws, hws⟩ := hsplits.exists_cons (hnotwhite c rfl)
      rw [hws] at hsplits htokens
      have hbefore := hus.append (splits_scan white) (ends_of_white hwhite)
      refine ⟨us ++ scan white, t, ws, by simpa using hbefore, by simpa using hsplits, ?_, ?_⟩
      · simpa [hrest, htokens] using hall
      · intro s r hs ts hts
        have hstuck : stuck.Halts (scan white ++ [t]) :=
          hhalts.of_prefix (by simp) ⟨ws, by simp [htokens]⟩
        simpa using not_prefix_of_halts hfeed hstuck (by simp) hs hts

/-- **The place of an error is the first offence of the text.**  There is none exactly for a text
of white space; any other text that is no rule falls into two parts there. -/
theorem error_at_first_offence {s : String} {e : RuleError} (h : parse s = .error e) :
    (e.position = none ↔ Text.isBlank s = true) ∧
    ∀ p, e.position = some p → p ≤ s.utf8ByteSize ∧
      ∃ before rest, s = before ++ rest ∧ before.utf8ByteSize = p ∧ FirstOffence before rest := by
  rw [parse] at h
  split at h
  · next hblank =>
    cases h
    simp [hblank]
  · next hblank =>
    split at h
    · cases h
    · next stuck rest hrun =>
      cases h
      refine ⟨by simp [errorAt, hblank], fun p hp => ?_⟩
      obtain ⟨before, htext, hoffence⟩ :=
        firstOffence_of_halted (halted_of_run (splits_scan s.toList) hrun)
      have hs : s = String.ofList before ++ String.ofList (Text.trimStart rest) := by
        rw [← String.ofList_append, ← htext, String.ofList_toList]
      have hsize : (String.ofList before).utf8ByteSize = p := by
        simp only [errorAt, Option.some.injEq] at hp
        rw [← hp, htext, Text.byteLength_append, ← Text.byteLength_toList, String.toList_ofList]
        omega
      refine ⟨?_, _, _, hs, hsize, hoffence⟩
      rw [hs, String.utf8ByteSize_append]
      omega

/-- A stray blank behind a complete group is passed over, and the word after it offends. -/
theorem error_at_first_offence_word :
    parse "(late OR é)\u00a0 b c" = .error ⟨.unexpected "b c", some 15⟩ ∧
      ∃ before rest, "(late OR é)\u00a0 b c" = before ++ rest ∧ before.utf8ByteSize = 15 ∧
        FirstOffence before rest := by
  have herror : parse "(late OR é)\u00a0 b c" = .error ⟨.unexpected "b c", some 15⟩ := by rfl
  obtain ⟨-, hplace⟩ := error_at_first_offence herror
  exact ⟨herror, (hplace 15 rfl).2⟩

end Rule

end AccessRules
