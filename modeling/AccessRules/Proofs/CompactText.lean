/-
# The compact text determines the value

The compact text of a JSON value can be taken apart again, and in one way only, even where other
text follows: a string ends at its closing quote, because a quote inside is escaped; an array and an
object end at their brackets; a number ends where no further character could belong to one.  So the
induction runs over a value together with whatever follows it, and needs of the latter only that it
does not begin like the rest of a number (`Ends`), which is so for every separator.

* `readString_quoted`: the reader gets a written string back;
* `chars_append_inj`: of two texts that begin with a value and go on, the values are the same;
* `text_injective`: different values have different texts;
* `eq_iff_same`: structurally equal values differ in the signs of zeros alone.
-/
import AccessRules.Json.Read
import AccessRules.Proofs.NumberTexts

namespace AccessRules.Json

/-! ## 1. Strings -/

theorem hexValue?_hexDigit (n : Nat) : hexValue? (hexDigit n) = some (n % 16) := by
  have hall : ∀ k < 16, hexValue? (Nat.digitChar k) = some k := by decide
  exact hall (n % 16) (Nat.mod_lt _ (by decide))

theorem charOf?_toNat (c : Char) : charOf? c.toNat = some c := by
  have hvalid : c.toNat.isValidChar := c.valid
  rw [charOf?, if_pos hvalid, Char.ofNat_toNat]

/-- The four digits of a control character. -/
theorem unicodeEscape?_control {c : Char} (h : c.toNat < 0x20) (rest : List Char) :
    unicodeEscape? ('0' :: '0' :: hexDigit (c.toNat / 16) :: hexDigit c.toNat :: rest) =
      some (c, rest) := by
  have hzero : hexValue? '0' = some 0 := rfl
  have hquad : hexQuad? ('0' :: '0' :: hexDigit (c.toNat / 16) :: hexDigit c.toNat :: rest) =
      some (c.toNat, rest) := by
    have hnumber : ((0 * 16 + 0) * 16 + c.toNat / 16 % 16) * 16 + c.toNat % 16 = c.toNat := by
      omega
    rw [hexQuad?, hzero, hexValue?_hexDigit, hexValue?_hexDigit]
    dsimp only
    rw [hnumber]
  have hplain : (decide (0xD800 ≤ c.toNat) && decide (c.toNat < 0xDC00)) = false := by
    simp
    omega
  rw [unicodeEscape?, hquad]
  dsimp only
  rw [hplain, charOf?_toNat]
  rfl

/-- The reader undoes one escape. -/
theorem readString_escape (fuel : Nat) (done : List Char) (c : Char) (rest : List Char) :
    readString (fuel + 1) done (escape c ++ rest) = readString fuel (c :: done) rest := by
  rw [escape]
  split
  · next h => rw [h]; rfl
  split
  · next h => rw [h]; rfl
  split
  · next h => rw [h]; rfl
  split
  · next h => rw [h]; rfl
  split
  · next h => rw [h]; rfl
  split
  · next h => rw [h]; rfl
  split
  · next h => rw [h]; rfl
  split
  · next h =>
    have hescaped := unicodeEscape?_control h rest
    simp only [List.cons_append, List.nil_append, readString, escaped?, hescaped]
  · next hcontrol => simp [readString, hcontrol]

/-- **The reader gets a written string back**, and what follows it. -/
theorem readString_quoted (s done : List Char) {fuel : Nat} (h : s.length < fuel)
    (rest : List Char) : readString fuel done (s.flatMap escape ++ '"' :: rest) =
      some (String.ofList (done.reverse ++ s), rest) := by
  induction s generalizing done fuel with
  | nil =>
    obtain ⟨n, rfl⟩ : ∃ n, fuel = n + 1 := ⟨fuel - 1, by omega⟩
    simp [readString]
  | cons c s ih =>
    obtain ⟨n, rfl⟩ : ∃ n, fuel = n + 1 := ⟨fuel - 1, by omega⟩
    rw [List.flatMap_cons, List.append_assoc, readString_escape, ih _ (by simpa using h)]
    simp

theorem quoted_append_inj {s s' : String} {rest rest' : List Char}
    (h : quoted s ++ rest = quoted s' ++ rest') : s = s' ∧ rest = rest' := by
  have hbody : s.toList.flatMap escape ++ '"' :: rest =
      s'.toList.flatMap escape ++ '"' :: rest' := by
    simpa [quoted] using h
  have hlong : s.toList.length < s.toList.length + s'.toList.length + 1 := by omega
  have hread := readString_quoted s.toList [] hlong rest
  rw [hbody, readString_quoted s'.toList [] (by omega)] at hread
  simp only [List.reverse_nil, List.nil_append, String.ofList_toList, Option.some.injEq,
    Prod.mk.injEq] at hread
  exact ⟨hread.1.symm, hread.2.symm⟩

/-! ## 2. The kinds of values -/

/-- What the first character of a value tells. -/
inductive Kind where
  | null
  | bool (value : Bool)
  | number
  | string
  | array
  | object

/-- The kind of a value. -/
def kind : Json → Kind
  | .null => .null
  | .bool b => .bool b
  | .integer _ => .number
  | .double _ => .number
  | .string _ => .string
  | .array _ => .array
  | .object _ => .object

/-- The kind of value that a character begins. -/
def Kind.ofFirst? (c : Char) : Option Kind :=
  if c = 'n' then some .null
  else if c = 't' then some (.bool true)
  else if c = 'f' then some (.bool false)
  else if c = '"' then some .string
  else if c = '[' then some .array
  else if c = '{' then some .object
  else if isNumeral c then some .number
  else none

theorem Kind.ofFirst?_numeral {c : Char} (h : isNumeral c = true) :
    Kind.ofFirst? c = some .number := by
  have hne : ∀ d, isNumeral d = false → c ≠ d := by
    rintro d hd rfl
    rw [h] at hd
    cases hd
  rw [ofFirst?, if_neg (hne 'n' rfl), if_neg (hne 't' rfl), if_neg (hne 'f' rfl),
    if_neg (hne '"' rfl), if_neg (hne '[' rfl), if_neg (hne '{' rfl), if_pos h]

theorem exists_first_numeral {cs : List Char} (hne : cs ≠ []) (h : Numeral cs) :
    ∃ c cs', cs = c :: cs' ∧ Kind.ofFirst? c = some .number := by
  obtain ⟨c, cs', rfl⟩ := List.exists_cons_of_ne_nil hne
  exact ⟨c, cs', rfl, Kind.ofFirst?_numeral (h c List.mem_cons_self)⟩

/-- **The first character tells the kind.** -/
theorem exists_first (j : Json) : ∃ c cs, j.chars = c :: cs ∧ Kind.ofFirst? c = some j.kind := by
  cases j with
  | null => exact ⟨_, _, by rw [chars]; rfl, rfl⟩
  | bool b => cases b <;> exact ⟨_, _, by rw [chars]; rfl, rfl⟩
  | integer i =>
    rw [chars]
    exact exists_first_numeral (integerText_ne_nil i) (numeral_integerText i)
  | double d =>
    rw [chars]
    refine exists_first_numeral (fun h => ?_) (doubleStyle.numeral_write d)
    rcases doubleStyle.mark_mem_write rfl d with hmark | hmark <;>
      · rw [h] at hmark
        cases hmark
  | string s => exact ⟨_, _, by rw [chars, quoted]; rfl, rfl⟩
  | array items => cases items <;> exact ⟨_, _, by rw [chars], rfl⟩
  | object fields =>
    cases fields with
    | nil => exact ⟨_, _, by rw [chars], rfl⟩
    | cons e fields => exact ⟨_, _, by rw [chars], rfl⟩

theorem kind_eq_of_append {a b : Json} {rest rest' : List Char}
    (h : a.chars ++ rest = b.chars ++ rest') : a.kind = b.kind := by
  obtain ⟨c, cs, hcs, hc⟩ := a.exists_first
  obtain ⟨c', cs', hcs', hc'⟩ := b.exists_first
  rw [hcs, hcs'] at h
  cases List.head_eq_of_cons_eq h
  rw [hc] at hc'
  exact Option.some.inj hc'

/-- No value begins with a character that no value begins with. -/
theorem chars_append_ne_cons (j : Json) {c : Char} (h : Kind.ofFirst? c = none)
    (rest rest' : List Char) : j.chars ++ rest ≠ c :: rest' := by
  intro heq
  obtain ⟨c', cs, hcs, hc'⟩ := j.exists_first
  rw [hcs] at heq
  cases List.head_eq_of_cons_eq heq
  rw [h] at hc'
  cases hc'

/-! ## 3. Where a value ends -/

/-- A text that does not begin like the rest of a number. -/
def Ends (rest : List Char) : Prop := ∀ c ∈ rest.head?, isNumeral c = false

theorem ends_nil : Ends [] := by simp [Ends]

theorem ends_cons {c : Char} (h : isNumeral c = false) (rest : List Char) : Ends (c :: rest) := by
  intro d hd
  cases hd
  exact h

theorem ends_charsOfItems (items : List Json) (rest : List Char) :
    Ends (charsOfItems items ++ rest) := by
  cases items <;> rw [charsOfItems] <;> exact ends_cons (by decide) _

theorem ends_charsOfFields (fields : List (String × Json)) (rest : List Char) :
    Ends (charsOfFields fields ++ rest) := by
  cases fields <;> rw [charsOfFields] <;> exact ends_cons (by decide) _

/-- **A number ends where no further character could belong to it.** -/
theorem numeral_append_inj {cs cs' rest rest' : List Char} (hcs : Numeral cs) (hcs' : Numeral cs')
    (hrest : Ends rest) (hrest' : Ends rest') (h : cs ++ rest = cs' ++ rest') :
    cs = cs' ∧ rest = rest' := by
  have htake : ∀ {cs rest}, Numeral cs → Ends rest →
      (cs ++ rest).takeWhile isNumeral = cs := by
    intro cs rest hcs hrest
    rw [List.takeWhile_append_of_pos hcs]
    cases rest with
    | nil => exact List.append_nil cs
    | cons c rest =>
      rw [List.takeWhile_cons_of_neg (by rw [hrest c rfl]; decide), List.append_nil]
  have hsame : cs = cs' := by rw [← htake hcs hrest, h, htake hcs' hrest']
  subst hsame
  exact ⟨rfl, List.append_cancel_left h⟩

mutual

/-- **A value is told from what follows it.** -/
theorem chars_append_inj (a b : Json) {rest rest' : List Char} (hrest : Ends rest)
    (hrest' : Ends rest') (h : a.chars ++ rest = b.chars ++ rest') : a = b ∧ rest = rest' := by
  have hkind := kind_eq_of_append h
  cases a with
  | null =>
    cases b <;> cases hkind
    exact ⟨rfl, List.append_cancel_left h⟩
  | bool v =>
    cases b <;> cases hkind
    exact ⟨rfl, List.append_cancel_left h⟩
  | integer i =>
    cases b <;> cases hkind <;> simp only [chars] at h
    · obtain ⟨htext, hr⟩ := numeral_append_inj (numeral_integerText _) (numeral_integerText _)
        hrest hrest' h
      exact ⟨congrArg integer (integerText_injective htext), hr⟩
    · obtain ⟨htext, -⟩ := numeral_append_inj (numeral_integerText _) (doubleStyle.numeral_write _)
        hrest hrest' h
      exact absurd htext.symm (doubleText_ne_integerText _ _)
  | double d =>
    cases b <;> cases hkind <;> simp only [chars] at h
    · obtain ⟨htext, -⟩ := numeral_append_inj (doubleStyle.numeral_write _) (numeral_integerText _)
        hrest hrest' h
      exact absurd htext (doubleText_ne_integerText _ _)
    · obtain ⟨htext, hr⟩ := numeral_append_inj (doubleStyle.numeral_write _)
        (doubleStyle.numeral_write _) hrest hrest' h
      exact ⟨congrArg double (doubleStyle.write_injective htext), hr⟩
  | string s =>
    cases b <;> cases hkind
    simp only [chars] at h
    obtain ⟨rfl, hr⟩ := quoted_append_inj h
    exact ⟨rfl, hr⟩
  | array as =>
    cases b <;> cases hkind
    next bs =>
    cases as with
    | nil =>
      cases bs with
      | nil => exact ⟨rfl, List.append_cancel_left h⟩
      | cons b bs =>
        simp only [chars, List.cons_append, List.append_assoc, List.cons.injEq, true_and] at h
        exact absurd h.symm (b.chars_append_ne_cons (by decide) _ _)
    | cons a as =>
      cases bs with
      | nil =>
        simp only [chars, List.cons_append, List.append_assoc, List.cons.injEq, true_and] at h
        exact absurd h (a.chars_append_ne_cons (by decide) _ _)
      | cons b bs =>
        -- but for its first character, an array is written like the rest of one
        have hitems : charsOfItems (a :: as) ++ rest = charsOfItems (b :: bs) ++ rest' := by
          simpa only [charsOfItems, chars, List.cons_append, List.cons.injEq, true_and] using h
        obtain ⟨heq, hr⟩ := charsOfItems_append_inj (a :: as) (b :: bs) hitems
        exact ⟨congrArg array heq, hr⟩
  | object as =>
    cases b <;> cases hkind
    next bs =>
    cases as with
    | nil =>
      cases bs with
      | nil => exact ⟨rfl, List.append_cancel_left h⟩
      | cons b bs => simp [chars, quoted] at h
    | cons a as =>
      cases bs with
      | nil => simp [chars, quoted] at h
      | cons b bs =>
        have hfields : charsOfFields (a :: as) ++ rest = charsOfFields (b :: bs) ++ rest' := by
          simpa only [charsOfFields, chars, List.cons_append, List.cons.injEq, true_and] using h
        obtain ⟨heq, hr⟩ := charsOfFields_append_inj (a :: as) (b :: bs) hfields
        exact ⟨congrArg object heq, hr⟩

theorem charsOfItems_append_inj (as bs : List Json) {rest rest' : List Char}
    (h : charsOfItems as ++ rest = charsOfItems bs ++ rest') : as = bs ∧ rest = rest' := by
  cases as with
  | nil =>
    cases bs with
    | nil => exact ⟨rfl, List.append_cancel_left h⟩
    | cons b bs => simp [charsOfItems] at h
  | cons a as =>
    cases bs with
    | nil => simp [charsOfItems] at h
    | cons b bs =>
      simp only [charsOfItems, List.cons_append, List.append_assoc, List.cons.injEq, true_and] at h
      obtain ⟨rfl, hitems⟩ :=
        chars_append_inj a b (ends_charsOfItems _ _) (ends_charsOfItems _ _) h
      obtain ⟨rfl, hr⟩ := charsOfItems_append_inj as bs hitems
      exact ⟨rfl, hr⟩

theorem charsOfFields_append_inj (as bs : List (String × Json)) {rest rest' : List Char}
    (h : charsOfFields as ++ rest = charsOfFields bs ++ rest') : as = bs ∧ rest = rest' := by
  cases as with
  | nil =>
    cases bs with
    | nil => exact ⟨rfl, List.append_cancel_left h⟩
    | cons b bs => simp [charsOfFields] at h
  | cons a as =>
    cases bs with
    | nil => simp [charsOfFields] at h
    | cons b bs =>
      obtain ⟨m, a⟩ := a
      obtain ⟨n, b⟩ := b
      simp only [charsOfFields, List.cons_append, List.append_assoc, List.cons.injEq,
        true_and] at h
      obtain ⟨rfl, hvalue⟩ := quoted_append_inj h
      obtain ⟨rfl, hfields⟩ := chars_append_inj a b (ends_charsOfFields _ _)
        (ends_charsOfFields _ _) (List.tail_eq_of_cons_eq hvalue)
      obtain ⟨rfl, hr⟩ := charsOfFields_append_inj as bs hfields
      exact ⟨rfl, hr⟩

end

/-- **Different values have different texts.** -/
theorem text_injective : Function.Injective text := by
  intro a b h
  have hchars : a.chars = b.chars := by simpa [text] using congrArg String.toList h
  obtain ⟨heq, -⟩ := chars_append_inj a b ends_nil ends_nil (congrArg (· ++ []) hchars)
  exact heq

/-! ## 4. Structural equality -/

mutual

/-- The signs of the zeros among the doubles of a value, from left to right. -/
def zeroSigns : Json → List Bool
  | .double d => if d.isZero then [d.negative] else []
  | .array items => zeroSignsOfItems items
  | .object fields => zeroSignsOfFields fields
  | _ => []

/-- The signs of the zeros in the items of an array. -/
def zeroSignsOfItems : List Json → List Bool
  | [] => []
  | a :: as => zeroSigns a ++ zeroSignsOfItems as

/-- The signs of the zeros in the fields of an object. -/
def zeroSignsOfFields : List (String × Json) → List Bool
  | [] => []
  | (_, a) :: as => zeroSigns a ++ zeroSignsOfFields as

end

mutual

theorem same_refl (a : Json) : same a a = true := by
  cases a with
  | null => rfl
  | bool b => simp [same]
  | integer i => simp [same]
  | double d => simp [same, Double.same]
  | string s => simp [same]
  | array as =>
    rw [same]
    exact sameItems_refl as
  | object as =>
    rw [same]
    exact sameFields_refl as

theorem sameItems_refl (as : List Json) : sameItems as as = true := by
  cases as with
  | nil => rfl
  | cons a as => rw [sameItems, same_refl a, sameItems_refl as, Bool.and_self]

theorem sameFields_refl (as : List (String × Json)) : sameFields as as = true := by
  cases as with
  | nil => rfl
  | cons a as =>
    obtain ⟨n, a⟩ := a
    rw [sameFields, same_refl a, sameFields_refl as, beq_self_eq_true, Bool.and_self, Bool.and_self]

end

mutual

/-- Equal values with the same signs of zeros are one value, also where further signs follow. -/
theorem eq_of_same (a b : Json) {signs signs' : List Bool} (h : same a b = true)
    (hsigns : a.zeroSigns ++ signs = b.zeroSigns ++ signs') : a = b ∧ signs = signs' := by
  cases a with
  | null => cases b <;> simp_all [same, zeroSigns]
  | bool v => cases b <;> simp_all [same, zeroSigns]
  | integer i => cases b <;> simp_all [same, zeroSigns]
  | double d =>
    cases b with
    | double d' =>
      simp only [same, Double.same, Bool.or_eq_true, decide_eq_true_eq, Bool.and_eq_true] at h
      rcases h with rfl | ⟨hd, hd'⟩
      · exact ⟨rfl, List.append_cancel_left hsigns⟩
      · simp only [zeroSigns, hd, hd', if_true, List.singleton_append, List.cons.injEq] at hsigns
        -- two zeros of one sign are one double
        have hzero := Double.eq_of_mem_cell hsigns.1 (Double.zero_mem_cell (beq_iff_eq.mp hd))
          (Double.zero_mem_cell (beq_iff_eq.mp hd'))
        exact ⟨congrArg double hzero, hsigns.2⟩
    | _ => simp [same] at h
  | string s => cases b <;> simp_all [same, zeroSigns]
  | array as =>
    cases b with
    | array bs =>
      rw [same] at h
      rw [zeroSigns, zeroSigns] at hsigns
      obtain ⟨rfl, hrest⟩ := eq_of_sameItems as bs h hsigns
      exact ⟨rfl, hrest⟩
    | _ => simp [same] at h
  | object as =>
    cases b with
    | object bs =>
      rw [same] at h
      rw [zeroSigns, zeroSigns] at hsigns
      obtain ⟨rfl, hrest⟩ := eq_of_sameFields as bs h hsigns
      exact ⟨rfl, hrest⟩
    | _ => simp [same] at h

theorem eq_of_sameItems (as bs : List Json) {signs signs' : List Bool}
    (h : sameItems as bs = true)
    (hsigns : zeroSignsOfItems as ++ signs = zeroSignsOfItems bs ++ signs') :
    as = bs ∧ signs = signs' := by
  cases as with
  | nil =>
    cases bs with
    | nil => exact ⟨rfl, hsigns⟩
    | cons b bs => simp [sameItems] at h
  | cons a as =>
    cases bs with
    | nil => simp [sameItems] at h
    | cons b bs =>
      rw [sameItems, Bool.and_eq_true] at h
      rw [zeroSignsOfItems, zeroSignsOfItems, List.append_assoc, List.append_assoc] at hsigns
      obtain ⟨rfl, hitems⟩ := eq_of_same a b h.1 hsigns
      obtain ⟨rfl, hrest⟩ := eq_of_sameItems as bs h.2 hitems
      exact ⟨rfl, hrest⟩

theorem eq_of_sameFields (as bs : List (String × Json)) {signs signs' : List Bool}
    (h : sameFields as bs = true)
    (hsigns : zeroSignsOfFields as ++ signs = zeroSignsOfFields bs ++ signs') :
    as = bs ∧ signs = signs' := by
  cases as with
  | nil =>
    cases bs with
    | nil => exact ⟨rfl, hsigns⟩
    | cons b bs => simp [sameFields] at h
  | cons a as =>
    cases bs with
    | nil => simp [sameFields] at h
    | cons b bs =>
      obtain ⟨m, a⟩ := a
      obtain ⟨n, b⟩ := b
      rw [sameFields, Bool.and_eq_true, Bool.and_eq_true, beq_iff_eq] at h
      obtain ⟨⟨rfl, hvalue⟩, hfields⟩ := h
      rw [zeroSignsOfFields, zeroSignsOfFields, List.append_assoc, List.append_assoc] at hsigns
      obtain ⟨rfl, hsigns'⟩ := eq_of_same a b hvalue hsigns
      obtain ⟨rfl, hrest⟩ := eq_of_sameFields as bs hfields hsigns'
      exact ⟨rfl, hrest⟩

end

/-- **Structurally equal values differ in the signs of zeros alone.** -/
theorem eq_iff_same {a b : Json} : a = b ↔ a.same b = true ∧ a.zeroSigns = b.zeroSigns := by
  constructor
  · rintro rfl
    exact ⟨same_refl a, rfl⟩
  · rintro ⟨hsame, hsigns⟩
    obtain ⟨heq, -⟩ := eq_of_same a b hsame (congrArg (· ++ []) hsigns)
    exact heq

/-- **Two values have the same text** if they are structurally equal and their zeros have the same
signs. -/
theorem text_eq_iff {a b : Json} :
    a.text = b.text ↔ a.same b = true ∧ a.zeroSigns = b.zeroSigns :=
  text_injective.eq_iff.trans eq_iff_same

end AccessRules.Json
