/-
# What the text of a number stands for

A number is written as digits with an optional point and an optional exponent, so its text stands
for a rational number.  For a double that number is its shortest decimal, wherever the style puts
the point and whether or not it shows an exponent.  The decimal belongs to one double, so no style
writes two doubles alike; even the zeros differ in their signs.

A style that keeps the point never writes a double like an integer.

* `textValue`: the number that a text stands for;
* `textValue_placed`, `textValue_scientific`: both layouts stand for the decimal they show;
* `DecimalStyle.write_injective`: different doubles have different texts;
* `Json.doubleText_ne_integerText`: doubles and integers never look alike.
-/
import AccessRules.Json.Value
import AccessRules.Proofs.ShortestDecimal
import Mathlib.Data.List.TakeWhile

namespace AccessRules

/-! ## 1. Reading a text as a number -/

/-- The exponent that a text shows from its `e` on; none counts as zero. -/
def exponentValue : List Char → Int
  | _ :: '-' :: cs => -(Nat.ofDigitChars 10 cs 0 : Int)
  | _ :: _ :: cs => Nat.ofDigitChars 10 cs 0
  | _ => 0

/-- The number that a text without a sign stands for. -/
def textValue (cs : List Char) : ℚ :=
  let mantissa := cs.takeWhile (· ≠ 'e')
  let fraction := (mantissa.dropWhile (· ≠ '.')).tail
  Nat.ofDigitChars 10 (mantissa.filter (· ≠ '.')) 0 *
    10 ^ (exponentValue (cs.dropWhile (· ≠ 'e')) - fraction.length)

/-- Digits and nothing else. -/
def Digits (cs : List Char) : Prop := ∀ c ∈ cs, c.isDigit = true

/-- What may follow a mantissa: nothing, or an exponent. -/
def Tail (cs : List Char) : Prop := ∀ c ∈ cs.head?, c = 'e'

@[simp] theorem exponentValue_nil : exponentValue [] = 0 := rfl

theorem tail_nil : Tail [] := by simp [Tail]

section TextValue

variable {whole fraction tail : List Char}

theorem Digits.append (h : Digits whole) (h' : Digits fraction) : Digits (whole ++ fraction) :=
  List.forall_mem_append.mpr ⟨h, h'⟩

theorem Digits.ne {c d : Char} (h : Digits whole) (hc : c ∈ whole) (hd : d.isDigit = false) :
    c ≠ d := by
  rintro rfl
  exact absurd (h c hc) (by rw [hd]; decide)

theorem takeWhile_tail (h : Tail tail) : tail.takeWhile (· ≠ 'e') = [] := by
  cases tail with
  | nil => rfl
  | cons c cs =>
    obtain rfl : c = 'e' := h c rfl
    rfl

theorem dropWhile_tail (h : Tail tail) : tail.dropWhile (· ≠ 'e') = tail := by
  cases tail with
  | nil => rfl
  | cons c cs =>
    obtain rfl : c = 'e' := h c rfl
    rfl

/-- Digits without a point. -/
theorem textValue_whole (hw : Digits whole) (ht : Tail tail) :
    textValue (whole ++ tail) = Nat.ofDigitChars 10 whole 0 * 10 ^ exponentValue tail := by
  have hne : ∀ c ∈ whole, decide (c ≠ 'e') = true :=
    fun c hc => decide_eq_true (hw.ne hc (by decide))
  have hpoint : ∀ c ∈ whole, decide (c ≠ '.') = true :=
    fun c hc => decide_eq_true (hw.ne hc (by decide))
  have hdrop : whole.dropWhile (· ≠ '.') = [] := by
    rw [List.dropWhile_eq_nil_iff]
    exact hpoint
  rw [textValue, List.takeWhile_append_of_pos hne, List.dropWhile_append_of_pos hne,
    takeWhile_tail ht, dropWhile_tail ht, List.append_nil, List.filter_eq_self.mpr hpoint, hdrop]
  simp

/-- Digits around a point. -/
theorem textValue_point (hw : Digits whole) (hf : Digits fraction) (ht : Tail tail) :
    textValue (whole ++ '.' :: (fraction ++ tail)) =
      Nat.ofDigitChars 10 (whole ++ fraction) 0 * 10 ^ (exponentValue tail - fraction.length) := by
  have hne : ∀ c ∈ whole ++ '.' :: fraction, decide (c ≠ 'e') = true := by
    refine fun c hc => decide_eq_true ?_
    rcases List.mem_append.mp hc with hc | hc
    · exact hw.ne hc (by decide)
    · rcases List.mem_cons.mp hc with rfl | hc
      · decide
      · exact hf.ne hc (by decide)
  have hpoint : ∀ c ∈ whole, decide (c ≠ '.') = true :=
    fun c hc => decide_eq_true (hw.ne hc (by decide))
  have hpoint' : ∀ c ∈ fraction, decide (c ≠ '.') = true :=
    fun c hc => decide_eq_true (hf.ne hc (by decide))
  have hsplit : whole ++ '.' :: (fraction ++ tail) = (whole ++ '.' :: fraction) ++ tail := by simp
  have hfilter : (whole ++ '.' :: fraction).filter (· ≠ '.') = whole ++ fraction := by
    rw [List.filter_append, List.filter_eq_self.mpr hpoint, List.filter_cons_of_neg (by decide),
      List.filter_eq_self.mpr hpoint']
  have hdrop : (whole ++ '.' :: fraction).dropWhile (· ≠ '.') = '.' :: fraction := by
    rw [List.dropWhile_append_of_pos hpoint, List.dropWhile_cons_of_neg (by decide)]
  rw [textValue, hsplit, List.takeWhile_append_of_pos hne, List.dropWhile_append_of_pos hne,
    takeWhile_tail ht, dropWhile_tail ht, List.append_nil, hfilter, hdrop, List.tail_cons]

end TextValue

/-! ## 2. The two layouts -/

namespace DecimalStyle

theorem digits_digitsOf (n : Nat) : Digits (digitsOf n) :=
  fun _ hc => Nat.isDigit_of_mem_toDigits (by decide) (by decide) hc

theorem ofDigitChars_digitsOf (n : Nat) : Nat.ofDigitChars 10 (digitsOf n) 0 = n :=
  Nat.ofDigitChars_toDigits (by decide) (by decide)

theorem digits_replicate (n : Nat) : Digits (List.replicate n '0') := by
  intro c hc
  rw [List.eq_of_mem_replicate hc]
  decide

theorem tail_exponentText (k : Int) : Tail ('e' :: exponentText k) := by
  intro c hc
  cases hc
  rfl

theorem exponentValue_exponentText (k : Int) : exponentValue ('e' :: exponentText k) = k := by
  rw [exponentText]
  split
  · next h =>
    rw [exponentValue, ofDigitChars_digitsOf]
    omega
  · next h =>
    have hplus : exponentValue ('e' :: '+' :: digitsOf k.natAbs) =
        Nat.ofDigitChars 10 (digitsOf k.natAbs) 0 := rfl
    rw [hplus, ofDigitChars_digitsOf]
    omega

variable {digits : List Char}

/-- Leading zeros count for nothing. -/
theorem ofDigitChars_zeros (n : Nat) (digits : List Char) :
    Nat.ofDigitChars 10 (List.replicate n '0' ++ digits) 0 = Nat.ofDigitChars 10 digits 0 := by
  rw [Nat.ofDigitChars_append, Nat.ofDigitChars_replicate_zero, Nat.mul_zero]

/-- **Digits in place** stand for the decimal that they are. -/
theorem textValue_placed (style : DecimalStyle) (hd : Digits digits) (k : Int) :
    textValue (style.placed digits k) = Nat.ofDigitChars 10 digits 0 * 10 ^ k := by
  simp only [placed]
  split
  · next hk =>
    -- a whole number, perhaps with a zero behind the point
    obtain ⟨n, rfl⟩ := Int.eq_ofNat_of_zero_le hk
    have hwhole : Digits (digits ++ List.replicate n '0') := hd.append (digits_replicate n)
    have hvalue : Nat.ofDigitChars 10 (digits ++ List.replicate n '0') 0 =
        10 ^ n * Nat.ofDigitChars 10 digits 0 := by
      rw [Nat.ofDigitChars_append, Nat.ofDigitChars_replicate_zero]
    rw [Int.toNat_natCast]
    split
    · have h := textValue_point hwhole (digits_replicate 1) tail_nil
      have hvalue' : Nat.ofDigitChars 10 (digits ++ List.replicate n '0' ++ ['0']) 0 =
          10 * (10 ^ n * Nat.ofDigitChars 10 digits 0) := by
        rw [Nat.ofDigitChars_append, hvalue]
        rfl
      refine h.trans ?_
      rw [List.replicate_one, hvalue']
      simp [exponentValue]
      ring
    · have h := textValue_whole hwhole tail_nil
      refine h.trans ?_
      rw [hvalue]
      simp [exponentValue]
      ring
  · next hk =>
    split
    · next hwhole =>
      -- the point stands among the digits
      have htake : Digits (digits.take (k + digits.length).toNat) :=
        fun c hc => hd c (List.mem_of_mem_take hc)
      have hdrop : Digits (digits.drop (k + digits.length).toNat) :=
        fun c hc => hd c (List.mem_of_mem_drop hc)
      have h := textValue_point htake hdrop tail_nil
      have hplaces : exponentValue [] - ((digits.drop (k + digits.length).toNat).length : Int) =
          k := by
        rw [exponentValue_nil, List.length_drop]
        omega
      rw [List.append_nil] at h
      rw [h, List.take_append_drop, hplaces]
    · next hwhole =>
      -- zeros stand between the point and the digits
      have hzeros : Digits (List.replicate (-(k + digits.length)).toNat '0' ++ digits) :=
        (digits_replicate _).append hd
      have h := textValue_point (digits_replicate 1) hzeros tail_nil
      have hplaces : exponentValue [] -
          ((List.replicate (-(k + digits.length)).toNat '0' ++ digits).length : Int) = k := by
        rw [exponentValue_nil, List.length_append, List.length_replicate]
        omega
      rw [List.append_nil, ofDigitChars_zeros, ofDigitChars_zeros, hplaces] at h
      exact h

/-- **Digits with an exponent** stand for the decimal that they are. -/
theorem textValue_scientific (hd : Digits digits) (hne : digits ≠ []) (k : Int) :
    textValue (scientific digits (k + digits.length - 1)) =
      Nat.ofDigitChars 10 digits 0 * 10 ^ k := by
  have htail := tail_exponentText (k + digits.length - 1)
  match digits, hne with
  | [c], _ =>
    have h := textValue_whole hd htail
    rw [exponentValue_exponentText, List.length_singleton, Nat.cast_one, add_sub_cancel_right] at h
    rw [List.length_singleton, Nat.cast_one, add_sub_cancel_right]
    exact h
  | c :: c' :: cs, _ =>
    obtain ⟨hc, hcs⟩ := List.forall_mem_cons.mp hd
    have h := textValue_point (List.forall_mem_singleton.mpr hc) hcs htail
    have hplaces : k + ((c :: c' :: cs).length : Int) - 1 - ((c' :: cs).length : Int) = k := by
      simp only [List.length_cons]
      omega
    rw [exponentValue_exponentText, hplaces] at h
    exact h

/-! ## 3. Different doubles have different texts -/

variable (style : DecimalStyle) (d : Double)

/-- The text of a double without its sign. -/
def unsigned : List Char :=
  if d.isZero then style.placed ['0'] 0
  else
    let x := d.shortest style.tie
    let digits := digitsOf x.digits
    let k := x.exponent + (digits.length : Int) - 1
    if style.inPlace k then style.placed digits x.exponent else scientific digits k

theorem write_eq_sign_append :
    style.write d = (if d.negative then ['-'] else []) ++ style.unsigned d := by
  simp only [write, unsigned]
  split
  · rfl
  · rfl

/-- What is written is a decimal from the cell of the double, in one of the two layouts. -/
theorem exists_decimal_unsigned : ∃ x : Decimal, x.toRat ∈ d.cell ∧
    (style.unsigned d = style.placed (digitsOf x.digits) x.exponent ∨
      style.unsigned d = scientific (digitsOf x.digits)
        (x.exponent + (digitsOf x.digits).length - 1)) := by
  rw [unsigned]
  split
  · next hzero =>
    refine ⟨⟨0, 0⟩, ?_, .inl rfl⟩
    have hcell := Double.zero_mem_cell (beq_iff_eq.mp hzero)
    simpa [Decimal.toRat] using hcell
  · next hzero =>
    have hsignificand : d.significand ≠ 0 := fun h => hzero (beq_iff_eq.mpr h)
    refine ⟨d.shortest style.tie, Double.shortest_mem_cell hsignificand _, ?_⟩
    dsimp only
    split
    · exact .inl rfl
    · exact .inr rfl

/-- **The text of a double stands for a number that reads back as it.** -/
theorem textValue_unsigned : textValue (style.unsigned d) ∈ d.cell := by
  obtain ⟨x, hx, hplaced | hscientific⟩ := style.exists_decimal_unsigned d
  · rw [hplaced, textValue_placed style (digits_digitsOf _), ofDigitChars_digitsOf]
    exact hx
  · rw [hscientific, textValue_scientific (digits_digitsOf _) Nat.toDigits_ne_nil,
      ofDigitChars_digitsOf]
    exact hx

/-- A text begins with a digit. -/
theorem exists_digit_unsigned : ∃ c cs, c.isDigit = true ∧ style.unsigned d = c :: cs := by
  obtain ⟨x, -, h⟩ := style.exists_decimal_unsigned d
  have hdigits := digits_digitsOf x.digits
  have hne : digitsOf x.digits ≠ [] := Nat.toDigits_ne_nil
  generalize digitsOf x.digits = digits at h hdigits hne
  obtain ⟨c, cs, rfl⟩ := List.exists_cons_of_ne_nil hne
  have hc : c.isDigit = true := hdigits c List.mem_cons_self
  rcases h with h | h
  · simp only [placed] at h
    split at h
    · exact ⟨c, _, hc, h⟩
    · split at h
      · next hwhole =>
        obtain ⟨n, hn⟩ : ∃ n, (x.exponent + (c :: cs).length).toNat = n + 1 :=
          ⟨(x.exponent + (c :: cs).length).toNat - 1, by omega⟩
        rw [hn] at h
        exact ⟨c, _, hc, h⟩
      · exact ⟨'0', _, by decide, h⟩
  · cases cs with
    | nil => exact ⟨c, _, hc, h⟩
    | cons c' cs => exact ⟨c, _, hc, h⟩

/-- **Different doubles have different texts.** -/
theorem write_injective : Function.Injective style.write := by
  intro d d' h
  rw [write_eq_sign_append, write_eq_sign_append] at h
  have hminus : ∀ d : Double, ∀ cs, style.unsigned d ≠ '-' :: cs := by
    intro d cs h
    obtain ⟨c, cs', hc, h'⟩ := style.exists_digit_unsigned d
    rw [h'] at h
    cases h
    exact absurd hc (by decide)
  have hparts : d.negative = d'.negative ∧ style.unsigned d = style.unsigned d' := by
    cases hd : d.negative <;> cases hd' : d'.negative <;> simp only [hd, hd'] at h
    · exact ⟨rfl, h⟩
    · exact absurd h (hminus d _)
    · exact absurd h.symm (hminus d' _)
    · exact ⟨rfl, List.tail_eq_of_cons_eq h⟩
  obtain ⟨hsign, hbody⟩ := hparts
  have hcell := style.textValue_unsigned d
  rw [hbody] at hcell
  exact Double.eq_of_mem_cell hsign hcell (style.textValue_unsigned d')

end DecimalStyle

/-! ## 4. The characters of numbers -/

/-- A character that a number may be written with. -/
def isNumeral (c : Char) : Bool := c.isDigit || c == '-' || c == '+' || c == '.' || c == 'e'

/-- Characters of numbers and nothing else. -/
def Numeral (cs : List Char) : Prop := ∀ c ∈ cs, isNumeral c = true

section Numeral

variable {cs ds : List Char}

theorem Digits.numeral (h : Digits cs) : Numeral cs := by
  intro c hc
  rw [isNumeral, h c hc]
  rfl

theorem Numeral.cons {c : Char} (hc : isNumeral c = true) (h : Numeral cs) : Numeral (c :: cs) :=
  List.forall_mem_cons.mpr ⟨hc, h⟩

theorem Numeral.append (h : Numeral cs) (h' : Numeral ds) : Numeral (cs ++ ds) :=
  List.forall_mem_append.mpr ⟨h, h'⟩

end Numeral

namespace DecimalStyle

variable {digits : List Char} (style : DecimalStyle)

theorem numeral_exponentText (k : Int) : Numeral (exponentText k) := by
  refine .cons ?_ (digits_digitsOf _).numeral
  split <;> decide

theorem numeral_placed (hd : Digits digits) (k : Int) : Numeral (style.placed digits k) := by
  simp only [placed]
  split
  · refine .append (hd.append (digits_replicate _)).numeral ?_
    split
    · exact .cons (by decide) (digits_replicate 1).numeral
    · exact List.forall_mem_nil _
  · split
    · have htake : Digits (digits.take (k + digits.length).toNat) :=
        fun c hc => hd c (List.mem_of_mem_take hc)
      have hdrop : Digits (digits.drop (k + digits.length).toNat) :=
        fun c hc => hd c (List.mem_of_mem_drop hc)
      exact .append htake.numeral (.cons (by decide) hdrop.numeral)
    · exact .cons (by decide) (.cons (by decide) ((digits_replicate _).append hd).numeral)

theorem numeral_scientific (hd : Digits digits) (k : Int) : Numeral (scientific digits k) := by
  have hexponent : Numeral ('e' :: exponentText k) := .cons (by decide) (numeral_exponentText k)
  match digits with
  | [] => exact List.forall_mem_nil _
  | [c] => exact hd.numeral.append hexponent
  | c :: c' :: cs =>
    obtain ⟨hc, hcs⟩ := List.forall_mem_cons.mp hd.numeral
    exact .cons hc (.cons (by decide) (.append hcs hexponent))

theorem numeral_write (d : Double) : Numeral (style.write d) := by
  rw [write_eq_sign_append]
  refine .append ?_ ?_
  · split
    · exact .cons (by decide) (List.forall_mem_nil _)
    · exact List.forall_mem_nil _
  · obtain ⟨x, -, h | h⟩ := style.exists_decimal_unsigned d
    · rw [h]
      exact style.numeral_placed (digits_digitsOf _) _
    · rw [h]
      exact numeral_scientific (digits_digitsOf _) _

/-- In place, a point is shown unless the number is whole and the style drops it. -/
theorem point_mem_placed (hkeeps : style.keepsPoint = true) (digits : List Char) (k : Int) :
    '.' ∈ style.placed digits k := by
  simp only [placed, hkeeps, if_true]
  split
  · simp
  · split <;> simp

theorem exponent_mem_scientific (hne : digits ≠ []) (k : Int) : 'e' ∈ scientific digits k := by
  match digits, hne with
  | [c], _ => simp [scientific]
  | c :: c' :: cs, _ => simp [scientific]

/-- **A double shows that it is one**, by a point or an exponent. -/
theorem mark_mem_write (hkeeps : style.keepsPoint = true) (d : Double) :
    '.' ∈ style.write d ∨ 'e' ∈ style.write d := by
  rw [write_eq_sign_append]
  obtain ⟨x, -, h | h⟩ := style.exists_decimal_unsigned d
  · rw [h]
    exact .inl (List.mem_append_right _ (style.point_mem_placed hkeeps _ _))
  · rw [h]
    exact .inr (List.mem_append_right _ (exponent_mem_scientific Nat.toDigits_ne_nil _))

end DecimalStyle

namespace Json

open DecimalStyle

/-- The text of an integer is a sign and digits. -/
theorem integerText_eq (i : Int) :
    integerText i = (if i < 0 then ['-'] else []) ++ digitsOf i.natAbs := by
  rw [integerText]
  split <;> rfl

theorem numeral_integerText (i : Int) : Numeral (integerText i) := by
  rw [integerText_eq]
  refine .append ?_ (digits_digitsOf _).numeral
  split
  · exact .cons (by decide) (List.forall_mem_nil _)
  · exact List.forall_mem_nil _

theorem integerText_ne_nil (i : Int) : integerText i ≠ [] := by
  rw [integerText_eq]
  exact List.append_ne_nil_of_right_ne_nil _ Nat.toDigits_ne_nil

/-- **Different integers have different texts.** -/
theorem integerText_injective : Function.Injective integerText := by
  intro i j h
  have hminus : ∀ n cs, digitsOf n ≠ '-' :: cs := by
    intro n cs h
    have hdigit := digits_digitsOf n '-' (by rw [h]; exact List.mem_cons_self)
    exact absurd hdigit (by decide)
  have hvalue : ∀ m n, digitsOf m = digitsOf n → m = n := by
    intro m n h
    rw [← ofDigitChars_digitsOf m, h, ofDigitChars_digitsOf]
  simp only [integerText] at h
  split at h
  · split at h
    · have := hvalue _ _ (List.tail_eq_of_cons_eq h)
      omega
    · exact absurd h.symm (hminus _ _)
  · split at h
    · exact absurd h (hminus _ _)
    · have := hvalue _ _ h
      omega

/-- **Doubles and integers never look alike.** -/
theorem doubleText_ne_integerText (d : Double) (i : Int) : doubleStyle.write d ≠ integerText i := by
  intro h
  have hplain : ∀ c ∈ integerText i, c ≠ '.' ∧ c ≠ 'e' := by
    intro c hc
    rw [integerText_eq] at hc
    rcases List.mem_append.mp hc with hc | hc
    · split at hc
      · rw [List.mem_singleton.mp hc]
        decide
      · cases hc
    · exact ⟨(digits_digitsOf _).ne hc (by decide), (digits_digitsOf _).ne hc (by decide)⟩
  rcases doubleStyle.mark_mem_write rfl d with hmark | hmark
  · rw [h] at hmark
    exact (hplain _ hmark).1 rfl
  · rw [h] at hmark
    exact (hplain _ hmark).2 rfl

end Json

end AccessRules
