/-
# The grammar of rules

    rule        = conjunction (OR conjunction)*
    conjunction = operand (AND operand)*
    operand     = NOT operand | '(' rule ')' | word+

`Derives` is this grammar over tokens, with the tree that each derivation builds: both binary
operators to the left, the words of a name joined by single spaces.  The reader of rules is a
machine with a stack, which looks at one token at a time and never goes back.  This module proves
that it reads exactly the grammar:

* `Derives.found`: it finds every derivation, for a phrase of any level that begins on a stack
  where such a phrase may begin;
* `Reader.Reads`: whatever it has on its stack stands for the tokens that it has read, so that
  what it returns is derived by all of them (`derives_of_read?`).

So a token sequence has at most one tree, the one that is read (`Derives.unique`).
-/
import AccessRules.Proofs.Splitting
import AccessRules.Rule.Parse
import Mathlib.Logic.ExistsUnique

namespace AccessRules.Rule

/-! ## 1. The grammar -/

/-- The phrases of rule text, from loose to tight. -/
inductive Level where
  | rule
  | conjunction
  | operand

/-- Tokens that form a phrase, and the tree of the phrase. -/
inductive Derives : Level → List Token → Rule → Prop where
  | name {words : List String} (h : words ≠ []) :
      Derives .operand (words.map .word) (.leaf (nameOfWords words))
  | not {ts : List Token} {r : Rule} (h : Derives .operand ts r) :
      Derives .operand (.operator .not :: ts) (.not r)
  | group {ts : List Token} {r : Rule} (h : Derives .rule ts r) :
      Derives .operand (.opening :: (ts ++ [.closing])) r
  | operand {ts : List Token} {r : Rule} (h : Derives .operand ts r) : Derives .conjunction ts r
  | and {ts us : List Token} {l r : Rule} (hl : Derives .conjunction ts l)
      (hr : Derives .operand us r) :
      Derives .conjunction (ts ++ .operator .and :: us) (.and l r)
  | conjunction {ts : List Token} {r : Rule} (h : Derives .conjunction ts r) : Derives .rule ts r
  | or {ts us : List Token} {l r : Rule} (hl : Derives .rule ts l)
      (hr : Derives .conjunction us r) : Derives .rule (ts ++ .operator .or :: us) (.or l r)

/-! ## 2. The reader on tokens without places -/

/-- The reader after some tokens, if all of them can stand. -/
def Reader.feed (reader : Reader) : List Token → Option Reader
  | [] => some reader
  | t :: ts => (reader.step t).bind fun next => next.feed ts

theorem Reader.feed_append (reader : Reader) (ts us : List Token) :
    reader.feed (ts ++ us) = (reader.feed ts).bind fun next => next.feed us := by
  induction ts generalizing reader with
  | nil => rfl
  | cons t ts ih =>
    simp only [List.cons_append, feed]
    cases reader.step t with
    | none => rfl
    | some next => exact ih next

/-- The rule that a whole text of tokens reads as. -/
def read? (ts : List Token) : Option Rule := ((Reader.operand []).feed ts).bind Reader.result?

/-- Places play no part in what is read. -/
theorem run_eq_ok_iff {reader : Reader} {ps : List Placed} {r : Rule} :
    run reader ps = .ok r ↔
      (reader.feed (ps.map Placed.token)).bind Reader.result? = some r := by
  induction ps generalizing reader with
  | nil =>
    simp only [run, List.map_nil, Reader.feed, Option.bind_some]
    cases reader.result? <;> simp
  | cons p ps ih =>
    simp only [run, List.map_cons, Reader.feed]
    cases reader.step p.token with
    | none => simp
    | some next => exact ih

/-- A text of white space alone is no rule. -/
theorem read?_scan_of_isBlank {text : String} (h : Text.isBlank text = true) :
    read? (scan text.toList) = none := by
  have hwhite : ∀ c ∈ text.toList, Text.isWhite c = true := by simpa [Text.isBlank] using h
  cases hts : scan text.toList with
  | nil => rfl
  | cons t ts =>
    obtain ⟨c, rfl⟩ := stray_of_mem_scan hwhite (t := t) (by simp [hts])
    rfl

/-- A text is read as its tokens are. -/
theorem parse_eq_ok_iff {text : String} {r : Rule} :
    parse text = .ok r ↔ read? (scan text.toList) = some r := by
  rw [parse]
  split
  · next hblank => simp [read?_scan_of_isBlank hblank]
  · have hrun : run (.operand []) (tokens text.toList) = .ok r ↔
        read? (scan text.toList) = some r := run_eq_ok_iff
    rw [← hrun]
    cases run (.operand []) (tokens text.toList) with
    | ok r' => simp
    | error e => simp

/-! ## 3. Closing what waits -/

/-- Completes everything that binds at least as tight as a level. -/
def close : Level → List Frame → Rule → List Frame × Rule
  | .operand => closeNegations
  | .conjunction => closeConjunction
  | .rule => closeDisjunction

/-- Where a phrase of a level may begin: nothing is open there that the end of the phrase would
close with it. -/
inductive Begins : Level → List Frame → Prop where
  | text : Begins .rule []
  | group (stack : List Frame) : Begins .rule (.group :: stack)
  | first {stack : List Frame} (h : Begins .rule stack) : Begins .conjunction stack
  | afterOr (l : Rule) (stack : List Frame) : Begins .conjunction (.orLeft l :: stack)
  | anywhere (stack : List Frame) : Begins .operand stack

theorem Begins.closeConjunction {stack : List Frame} (h : Begins .conjunction stack) (r : Rule) :
    closeConjunction stack r = (stack, r) := by
  cases h with
  | first h => cases h <;> rfl
  | afterOr l stack => rfl

theorem Begins.closeDisjunction {stack : List Frame} (h : Begins .rule stack) (r : Rule) :
    closeDisjunction stack r = (stack, r) := by
  cases h <;> rfl

/-- After `AND` no negation waits, so the operand completes the conjunction. -/
theorem closeConjunction_of_andLeft {stack stack' : List Frame} {l r r' : Rule}
    (h : closeNegations stack' r' = closeNegations (.andLeft l :: stack) r) :
    closeConjunction stack' r' = (stack, .and l r) := by
  rw [closeConjunction, h]
  rfl

/-- After `OR` no conjunction waits, so the operand completes the disjunction. -/
theorem closeDisjunction_of_orLeft {stack stack' : List Frame} {l r r' : Rule}
    (h : closeConjunction stack' r' = (.orLeft l :: stack, r)) :
    closeDisjunction stack' r' = (stack, .or l r) := by
  rw [closeDisjunction, h]

/-! ## 4. Every derivation is found -/

/-- What a reader holds that stands after an operand: the operand, and what is open around it. -/
def Reader.held? : Reader → Option (List Frame × Rule)
  | .operand _ => none
  | .name stack words => some (stack, .leaf (nameOfWords words))
  | .closed stack r => some (stack, r)

/-- After an operand, a token that is no word goes by what the reader holds. -/
theorem Reader.step_of_held? {reader : Reader} {stack : List Frame} {r : Rule}
    (h : reader.held? = some (stack, r)) {t : Token} (ht : ∀ w, t ≠ .word w) :
    reader.step t = stepAfter stack r t := by
  cases reader with
  | operand stack => cases h
  | closed stack r => cases h; rfl
  | name stack words =>
    cases h
    cases t with
    | word w => exact absurd rfl (ht w)
    | _ => rfl

theorem Reader.result?_of_held? {reader : Reader} {stack : List Frame} {r : Rule}
    (h : reader.held? = some (stack, r)) : reader.result? = finish stack r := by
  cases reader with
  | operand stack => cases h
  | name stack words => cases h; rfl
  | closed stack r => cases h; rfl

theorem Reader.feed_words (stack : List Frame) (words more : List String) :
    (Reader.name stack words).feed (more.map .word) = some (.name stack (words ++ more)) := by
  induction more generalizing words with
  | nil => simp [feed]
  | cons w more ih => simpa [feed, step] using ih (words ++ [w])

/-- Tokens that the reader takes, beginning on a stack, up to an operand.  Closing what belongs to
a phrase of the level then leaves a tree and the stack around it. -/
def Found (level : Level) (ts : List Token) (stack : List Frame) (left : List Frame × Rule) :
    Prop :=
  ∃ reader held r, (Reader.operand stack).feed ts = some reader ∧
    reader.held? = some (held, r) ∧ close level held r = left

namespace Found

variable {level level' : Level} {ts us : List Token} {stack : List Frame}
  {left left' : List Frame × Rule}

/-- What an operand leaves at one level tells what it leaves at another. -/
theorem imp (h : Found level ts stack left)
    (hclose : ∀ held r, close level held r = left → close level' held r = left') :
    Found level' ts stack left' := by
  obtain ⟨reader, held, r, hfeed, hheld, hleft⟩ := h
  exact ⟨reader, held, r, hfeed, hheld, hclose held r hleft⟩

/-- An operator after a phrase goes on with what stands to its right. -/
theorem operator {op : Operator} {next : List Frame} (h : Found level ts stack left)
    (hstep : ∀ held r, close level held r = left →
      stepAfter held r (.operator op) = some (.operand next))
    (hright : Found level' us next left') :
    Found level' (ts ++ .operator op :: us) stack left' := by
  obtain ⟨before, held, r, hfeed, hheld, hleft⟩ := h
  obtain ⟨reader, held', r', hfeed', hheld', hleft'⟩ := hright
  refine ⟨reader, held', r', ?_, hheld', hleft'⟩
  have hnext : before.step (.operator op) = some (.operand next) := by
    rw [Reader.step_of_held? hheld (by simp), hstep held r hleft]
  rw [Reader.feed_append, hfeed, Option.bind_some, Reader.feed, hnext]
  exact hfeed'

/-- A closing parenthesis makes one operand of what stands in the group. -/
theorem group {r : Rule} (h : Found .rule ts (.group :: stack) (.group :: stack, r)) :
    Found .operand (.opening :: (ts ++ [.closing])) stack (close .operand stack r) := by
  obtain ⟨reader, held, r', hfeed, hheld, hleft⟩ := h
  refine ⟨.closed stack r, stack, r, ?_, rfl, rfl⟩
  have hclose : closeDisjunction held r' = (.group :: stack, r) := hleft
  have hstep : reader.step .closing = some (.closed stack r) := by
    rw [Reader.step_of_held? hheld (by simp), stepAfter, hclose]
  change (Reader.operand (.group :: stack)).feed (ts ++ [.closing]) = _
  rw [Reader.feed_append, hfeed, Option.bind_some, Reader.feed, hstep]
  rfl

/-- The words of a name are one operand. -/
theorem name {words : List String} (h : words ≠ []) :
    Found .operand (words.map .word) stack
      (close .operand stack (.leaf (nameOfWords words))) := by
  cases words with
  | nil => exact absurd rfl h
  | cons w more =>
    refine ⟨.name stack (w :: more), stack, .leaf (nameOfWords (w :: more)), ?_, rfl, rfl⟩
    simpa [Reader.feed, Reader.step] using Reader.feed_words stack [w] more

end Found

/-- **A phrase is found where it may begin**, and leaves its tree on the stack where it began. -/
theorem Derives.found {level : Level} {ts : List Token} {r : Rule} (h : Derives level ts r) :
    ∀ stack, Begins level stack → Found level ts stack (close level stack r) := by
  induction h with
  | name hne => exact fun _ _ => .name hne
  | not _ ih =>
    intro stack _
    obtain ⟨reader, held, r', hfeed, hheld, hleft⟩ := ih _ (.anywhere (.negation :: stack))
    exact ⟨reader, held, r', hfeed, hheld, hleft⟩
  | group _ ih => exact fun stack _ => .group (ih _ (.group stack))
  | @operand ts r _ ih =>
    intro stack _
    refine (ih stack (.anywhere stack)).imp fun held r' hleft => ?_
    have hneg : closeNegations held r' = closeNegations stack r := hleft
    change closeConjunction held r' = closeConjunction stack r
    rw [closeConjunction, closeConjunction, hneg]
  | @and ts us l r _ _ ihl ihr =>
    intro stack hbegins
    have hright := ihr _ (.anywhere (.andLeft l :: stack))
    refine (ihl stack hbegins).operator (fun held l' hleft => ?_)
      (hright.imp fun held r' hleft => ?_)
    · have hconj : closeConjunction held l' = closeConjunction stack l := hleft
      rw [stepAfter, hconj, hbegins.closeConjunction]
    · exact (closeConjunction_of_andLeft hleft).trans (hbegins.closeConjunction _).symm
  | @conjunction ts r _ ih =>
    intro stack hbegins
    refine (ih stack (.first hbegins)).imp fun held r' hleft => ?_
    have hconj : closeConjunction held r' = closeConjunction stack r := hleft
    change closeDisjunction held r' = closeDisjunction stack r
    rw [closeDisjunction, closeDisjunction, hconj]
  | @or ts us l r _ _ ihl ihr =>
    intro stack hbegins
    have hright := ihr _ (.afterOr l stack)
    refine (ihl stack hbegins).operator (fun held l' hleft => ?_)
      (hright.imp fun held r' hleft => ?_)
    · have hdisj : closeDisjunction held l' = closeDisjunction stack l := hleft
      rw [stepAfter, hdisj, hbegins.closeDisjunction]
    · exact (closeDisjunction_of_orLeft hleft).trans (hbegins.closeDisjunction _).symm

/-- What the grammar derives is read. -/
theorem Derives.read? {ts : List Token} {r : Rule} (h : Derives .rule ts r) :
    read? ts = some r := by
  obtain ⟨reader, held, r', hfeed, hheld, hleft⟩ := h.found [] .text
  have hall : closeDisjunction held r' = ([], r) := hleft
  rw [Rule.read?, hfeed, Option.bind_some, Reader.result?_of_held? hheld, finish, hall]

/-! ## 5. Nothing else is read -/

/-- The tokens that a stack stands for. -/
inductive Stacked : List Frame → List Token → Prop where
  | nil : Stacked [] []
  | group {stack : List Frame} {ts : List Token} (h : Stacked stack ts) :
      Stacked (.group :: stack) (ts ++ [.opening])
  | negation {stack : List Frame} {ts : List Token} (h : Stacked stack ts) :
      Stacked (.negation :: stack) (ts ++ [.operator .not])
  | andLeft {stack : List Frame} {ts us : List Token} {l : Rule} (h : Stacked stack ts)
      (hl : Derives .conjunction us l) :
      Stacked (.andLeft l :: stack) (ts ++ us ++ [.operator .and])
  | orLeft {stack : List Frame} {ts us : List Token} {l : Rule} (h : Stacked stack ts)
      (hl : Derives .rule us l) : Stacked (.orLeft l :: stack) (ts ++ us ++ [.operator .or])

/-- Tokens that a stack and a phrase on top of it stand for. -/
def Stands (level : Level) (held : List Frame × Rule) (ts : List Token) : Prop :=
  ∃ us vs, Stacked held.1 us ∧ Derives level vs held.2 ∧ ts = us ++ vs

theorem Stands.closeNegations {stack : List Frame} {r : Rule} {ts : List Token}
    (h : Stands .operand (stack, r) ts) : Stands .operand (closeNegations stack r) ts := by
  induction stack generalizing r with
  | nil => exact h
  | cons frame stack ih =>
    cases frame with
    | negation =>
      obtain ⟨us, vs, hus, hvs, rfl⟩ := h
      cases hus with
      | @negation _ us hus => exact ih ⟨us, _, hus, .not hvs, by simp⟩
    | _ => exact h

theorem Stands.closeConjunction {stack : List Frame} {r : Rule} {ts : List Token}
    (h : Stands .operand (stack, r) ts) : Stands .conjunction (closeConjunction stack r) ts := by
  have hneg := h.closeNegations
  rw [Rule.closeConjunction]
  obtain ⟨us, vs, hus, hvs, rfl⟩ := hneg
  split
  · next stack' l heq =>
    rw [heq] at hus hvs
    cases hus with
    | @andLeft _ us ws _ hus hl => exact ⟨us, _, hus, .and hl hvs, by simp⟩
  · exact ⟨us, vs, hus, .operand hvs, rfl⟩

theorem Stands.closeDisjunction {stack : List Frame} {r : Rule} {ts : List Token}
    (h : Stands .operand (stack, r) ts) : Stands .rule (closeDisjunction stack r) ts := by
  have hconj := h.closeConjunction
  rw [Rule.closeDisjunction]
  obtain ⟨us, vs, hus, hvs, rfl⟩ := hconj
  split
  · next stack' l heq =>
    rw [heq] at hus hvs
    cases hus with
    | @orLeft _ us ws _ hus hl => exact ⟨us, _, hus, .or hl hvs, by simp⟩
  · exact ⟨us, vs, hus, .conjunction hvs, rfl⟩

/-- The invariant of the reader: what it has stands for the tokens it has read. -/
def Reader.Reads : Reader → List Token → Prop
  | .operand stack, ts => Stacked stack ts
  | .name stack words, ts => ∃ us, Stacked stack us ∧ words ≠ [] ∧ ts = us ++ words.map .word
  | .closed stack r, ts => Stands .operand (stack, r) ts

theorem Reader.Reads.stands {reader : Reader} {ts : List Token} (h : reader.Reads ts)
    {held : List Frame × Rule} (hheld : reader.held? = some held) : Stands .operand held ts := by
  cases reader with
  | operand stack => cases hheld
  | closed stack r => cases hheld; exact h
  | name stack words =>
    cases hheld
    obtain ⟨us, hus, hne, rfl⟩ := h
    exact ⟨us, _, hus, .name hne, rfl⟩

/-- A token after an operand keeps the invariant. -/
theorem Stands.stepAfter {stack : List Frame} {r : Rule} {ts : List Token}
    (h : Stands .operand (stack, r) ts) {t : Token} {next : Reader}
    (hstep : stepAfter stack r t = some next) : next.Reads (ts ++ [t]) := by
  cases t with
  | operator op =>
    cases op with
    | and =>
      obtain ⟨us, vs, hus, hvs, rfl⟩ := h.closeConjunction
      cases hstep
      exact .andLeft hus hvs
    | or =>
      obtain ⟨us, vs, hus, hvs, rfl⟩ := h.closeDisjunction
      cases hstep
      exact .orLeft hus hvs
    | not => cases hstep
  | closing =>
    obtain ⟨us, vs, hus, hvs, rfl⟩ := h.closeDisjunction
    simp only [Rule.stepAfter] at hstep
    split at hstep
    · next stack' r' heq =>
      cases hstep
      rw [heq] at hus hvs
      cases hus with
      | @group _ us hus => exact ⟨us, _, hus, .group hvs, by simp⟩
    · cases hstep
  | opening => cases hstep
  | word w => cases hstep
  | stray c => cases hstep

/-- **One token keeps the invariant.** -/
theorem Reader.Reads.step {reader next : Reader} {ts : List Token} {t : Token}
    (h : reader.Reads ts) (hstep : reader.step t = some next) : next.Reads (ts ++ [t]) := by
  cases reader with
  | operand stack =>
    have hstack : Stacked stack ts := h
    cases t with
    | opening => cases hstep; exact .group hstack
    | word w => cases hstep; exact ⟨ts, hstack, by simp, rfl⟩
    | operator op =>
      cases op with
      | not => cases hstep; exact .negation hstack
      | and => cases hstep
      | or => cases hstep
    | closing => cases hstep
    | stray c => cases hstep
  | closed stack r => exact Stands.stepAfter h hstep
  | name stack words =>
    cases t with
    | word w =>
      cases hstep
      obtain ⟨us, hus, -, rfl⟩ := h
      exact ⟨us, hus, by simp, by simp⟩
    | _ => exact (h.stands rfl).stepAfter hstep

/-- Any number of tokens keeps the invariant. -/
theorem Reader.Reads.feed {reader last : Reader} {ts us : List Token} (h : reader.Reads ts)
    (hfeed : reader.feed us = some last) : last.Reads (ts ++ us) := by
  induction us generalizing reader ts with
  | nil =>
    cases hfeed
    simpa using h
  | cons u us ih =>
    obtain ⟨next, hstep, hnext⟩ := Option.bind_eq_some_iff.mp hfeed
    simpa using ih (h.step hstep) hnext

/-- What is read is derived. -/
theorem derives_of_read? {ts : List Token} {r : Rule} (h : read? ts = some r) :
    Derives .rule ts r := by
  obtain ⟨reader, hfeed, hresult⟩ := Option.bind_eq_some_iff.mp h
  have hstart : (Reader.operand []).Reads [] := Stacked.nil
  have hreads : reader.Reads ts := hstart.feed hfeed
  cases hheld : reader.held? with
  | none => cases reader <;> cases hheld; cases hresult
  | some held =>
    obtain ⟨us, vs, hus, hvs, rfl⟩ := (hreads.stands hheld).closeDisjunction
    rw [Reader.result?_of_held? hheld, finish] at hresult
    split at hresult
    · next r' heq =>
      cases hresult
      rw [heq] at hus hvs
      cases hus
      exact hvs
    · cases hresult

/-- The reader reads the grammar. -/
theorem read?_iff_derives {ts : List Token} {r : Rule} : read? ts = some r ↔ Derives .rule ts r :=
  ⟨derives_of_read?, Derives.read?⟩

/-! ## 6. Texts -/

/-- Every phrase is a rule with the same tree. -/
theorem Derives.to_rule {level : Level} {ts : List Token} {r : Rule} (h : Derives level ts r) :
    Derives .rule ts r := by
  cases level with
  | rule => exact h
  | conjunction => exact .conjunction h
  | operand => exact .conjunction (.operand h)

/-- A text is read as a rule exactly if its tokens derive that rule. -/
theorem parse_iff_derives {text : String} {r : Rule} :
    parse text = .ok r ↔ ∃ ts, Splits text.toList ts ∧ Derives .rule ts r := by
  rw [parse_eq_ok_iff, read?_iff_derives]
  simp only [splits_iff, exists_eq_left]

/-- Tokens have one tree at most, at every level of the grammar. -/
theorem Derives.unique {level : Level} {ts : List Token} {r₁ r₂ : Rule}
    (h₁ : Derives level ts r₁) (h₂ : Derives level ts r₂) : r₁ = r₂ := by
  have hread := h₁.to_rule.read?
  rw [h₂.to_rule.read?] at hread
  exact (Option.some.inj hread).symm

/-- **Reading follows the grammar**, no more and no less: every text has its tokens in one way, it
is read as a rule exactly if they derive that rule, and no tokens derive two. -/
theorem parse_reads_grammar (text : String) (r : Rule) :
    (∃! ts, Splits text.toList ts) ∧
      (parse text = .ok r ↔ ∃ ts, Splits text.toList ts ∧ Derives .rule ts r) ∧
      ∀ level ts r₁ r₂, Derives level ts r₁ → Derives level ts r₂ → r₁ = r₂ :=
  ⟨⟨scan text.toList, splits_scan _, fun _ h => h.eq_scan⟩, parse_iff_derives,
    fun _ _ _ _ => Derives.unique⟩

end AccessRules.Rule
