/-
# Upper and lower case

A character that upper-casing yields is its own upper case.  The tables say so run by run: what one
run yields lies outside every other, or falls between the letters of one whose letters lie two
apart.  So a text that was moved to upper case stays as it is.

In upper case most texts no longer tell how they were written, for a letter such as the dotless i
shares its capital with a plain one.  Some capitals have no such letter beside their own.  A text
that comes to such capitals alone was written in plain letters.

* `upper_upper`: moving to upper case twice is moving once;
* `Tells`: letters of either case that tell how they were written;
* `lowerAscii_of_upper`: the plain lower case of a text, from its telling upper case;
* `upper_lowerAscii`: the upper case of a text, from its plain lower case.

The full lower case and the plain one agree on a text of plain characters.  The full one also tells
when a text was written in plain characters: no others come to plain small letters, but for the sign
for kelvin, which becomes a `k`.  The capital i with a dot becomes two characters, of which one is
not plain.

* `lower_of_plain`: from how a text was written;
* `lowerAscii_of_lower`: from what it becomes.
-/
import AccessRules.Text.Case
import Mathlib.Data.List.Basic

namespace AccessRules.Text

/-! ## 1. What a run yields -/

namespace CaseRun

/-- The least code point that a run yields. -/
def lowest (r : CaseRun) : Nat := ((r.first : Int) + r.shift).toNat

/-- The greatest code point that a run yields. -/
def highest (r : CaseRun) : Nat := ((r.last : Int) + r.shift).toNat

/-- What one run yields misses another: their intervals are apart, or the letters of the other lie
two apart and what the run yields falls between them. -/
def misses (r other : CaseRun) : Bool :=
  Nat.blt r.highest other.first || Nat.blt other.last r.lowest ||
    (Nat.blt 0 r.lowest && other.step == 2 && (r.step == 2 || r.first == r.last) &&
      (r.lowest + other.first) % 2 == 1)

/-- What a run yields misses a code point. -/
def avoids (r : CaseRun) (n : Nat) : Bool := Nat.blt r.highest n || Nat.blt n r.lowest

variable {r other : CaseRun} {n m : Nat}

theorem move?_eq_some : r.move? n = some m ↔
    (r.first ≤ n ∧ n ≤ r.last ∧ (n - r.first) % r.step = 0) ∧ ((n : Int) + r.shift).toNat = m := by
  rw [move?]
  split <;> simp [*]

theorem bounds_of_move? (h : r.move? n = some m) : r.lowest ≤ m ∧ m ≤ r.highest := by
  obtain ⟨⟨hfirst, hlast, -⟩, rfl⟩ := move?_eq_some.mp h
  rw [lowest, highest]
  omega

theorem ne_of_avoids (h : r.avoids n = true) {k : Nat} (hm : r.move? k = some m) : n ≠ m := by
  have hbounds := bounds_of_move? hm
  simp only [avoids, Bool.or_eq_true, Nat.blt_eq] at h
  omega

/-- A run that is missed does not move what was yielded. -/
theorem move?_of_misses (h : r.misses other = true) (hm : r.move? n = some m) :
    other.move? m = none := by
  have hbounds := bounds_of_move? hm
  obtain ⟨⟨hfirst, hlast, hstep⟩, rfl⟩ := move?_eq_some.mp hm
  rw [move?, if_neg]
  rintro ⟨hfirst', hlast', hstep'⟩
  simp only [misses, Bool.or_eq_true, Bool.and_eq_true, Nat.blt_eq, beq_iff_eq] at h
  rcases h with (h | h) | ⟨⟨⟨hpos, htwo⟩, hr⟩, hodd⟩
  · omega
  · omega
  · -- the distance to the first letter of either run is even, but that of the two firsts is not
    rw [htwo] at hstep'
    have heven : (n - r.first) % 2 = 0 := by
      rcases hr with hr | hr
      · rwa [hr] at hstep
      · omega
    rw [lowest] at hpos hodd
    omega

end CaseRun

/-! ## 2. The table of upper case -/

/-- What a run yields misses all runs and all expansions. -/
theorem upperRuns_miss : (upperRuns.all fun r =>
    upperRuns.all r.misses && upperExpansions.all fun e => r.avoids e.1) = true := by
  decide +kernel

/-- What an expansion yields does not move. -/
theorem upperExpansions_stay : ∀ e ∈ upperExpansions, ∀ m ∈ e.2,
    mapCode upperRuns upperExpansions m = [m] := by
  decide +kernel

/-- How a code point comes to its upper case: by an expansion, by a run, or by itself. -/
theorem mapCode_cases (runs : List CaseRun) (expansions : List (Nat × List Nat)) (n : Nat) :
    (∃ e ∈ expansions, e.1 = n ∧ mapCode runs expansions n = e.2) ∨
    (∃ r ∈ runs, ∃ m, r.move? n = some m ∧ mapCode runs expansions n = [m]) ∨
    mapCode runs expansions n = [n] := by
  rw [mapCode]
  split
  · next k ns hfound =>
    have hkey := List.find?_some hfound
    exact .inl ⟨(k, ns), List.mem_of_find?_eq_some hfound, beq_iff_eq.mp hkey, rfl⟩
  · split
    · next m hfound =>
      obtain ⟨r, hr, hm⟩ := List.exists_of_findSome?_eq_some hfound
      exact .inr (.inl ⟨r, hr, m, hm, rfl⟩)
    · exact .inr (.inr rfl)

/-- **What upper-casing yields does not move.** -/
theorem mapCode_upper {n m : Nat} (h : m ∈ mapCode upperRuns upperExpansions n) :
    mapCode upperRuns upperExpansions m = [m] := by
  rcases mapCode_cases upperRuns upperExpansions n with
    ⟨e, he, -, hmap⟩ | ⟨r, hr, k, hk, hmap⟩ | hmap
  · rw [hmap] at h
    exact upperExpansions_stay e he m h
  · rw [hmap] at h
    obtain rfl := List.mem_singleton.mp h
    have hmiss := List.all_eq_true.mp upperRuns_miss r hr
    rw [Bool.and_eq_true, List.all_eq_true, List.all_eq_true] at hmiss
    rcases mapCode_cases upperRuns upperExpansions m with
      ⟨e, he, hkey, -⟩ | ⟨r', hr', k, hk', -⟩ | hmap
    · exact absurd hkey (CaseRun.ne_of_avoids (hmiss.2 e he) hk)
    · rw [CaseRun.move?_of_misses (hmiss.1 r' hr') hk] at hk'
      cases hk'
    · exact hmap
  · rw [hmap] at h
    rwa [List.mem_singleton.mp h]

/-! ## 3. Texts in upper case -/

theorem toNat_ofNat (n : Nat) : (Char.ofNat n).toNat = n ∨ (Char.ofNat n).toNat = 0 := by
  by_cases h : n.isValidChar
  · exact .inl (congrArg Char.toNat (dif_pos h))
  · exact .inr (congrArg Char.toNat (dif_neg h))

/-- What upper-casing a character yields is in upper case. -/
theorem upperChar_of_mem {c d : Char} (h : d ∈ upperChar c) : upperChar d = [d] := by
  obtain ⟨m, hm, rfl⟩ := List.mem_map.mp h
  rw [upperChar]
  rcases toNat_ofNat m with hd | hd
  · rw [hd, mapCode_upper hm]
    rfl
  · -- no character has this code point
    rw [← Char.ofNat_toNat (Char.ofNat m), hd]
    rfl

theorem toList_upper (s : String) : (upper s).toList = s.toList.flatMap upperChar :=
  String.toList_ofList

/-- **Moving to upper case twice is moving once.** -/
theorem upper_upper (s : String) : upper (upper s) = upper s := by
  rw [upper, toList_upper, List.flatMap_assoc, upper]
  congr 1
  refine List.flatMap_congr fun c _ => ?_
  rw [List.flatMap_congr fun d hd => upperChar_of_mem hd, List.flatMap_singleton']

/-! ## 4. Telling letters -/

/-- Letters that tell how they were written: a mapping moves none but plain ones into them, and no
expansion consists of them alone. -/
structure Tells (runs : List CaseRun) (expansions : List (Nat × List Nat)) (letters : List Char) :
    Prop where
  plain : (letters.all fun c => decide (c.toNat < 128 ∧ c.toNat ≠ 0)) = true
  expansions : (expansions.all fun e => e.2.any fun m => !letters.contains (Char.ofNat m)) = true
  runs : (runs.all fun r => letters.all fun c =>
    r.avoids c.toNat || Nat.blt r.last 128) = true

section Telling

variable {runs : List CaseRun} {expansions : List (Nat × List Nat)} {letters : List Char}

theorem Tells.plain_of_mem (h : Tells runs expansions letters) {c : Char} (hc : c ∈ letters) :
    c.toNat < 128 ∧ c.toNat ≠ 0 :=
  of_decide_eq_true (List.all_eq_true.mp h.plain c hc)

/-- A code point that becomes telling letters is plain. -/
theorem Tells.plain_of_mapCode (h : Tells runs expansions letters) {n : Nat}
    (hn : ∀ m ∈ mapCode runs expansions n, Char.ofNat m ∈ letters) : n < 128 := by
  rcases mapCode_cases runs expansions n with ⟨e, he, -, hmap⟩ | ⟨r, hr, m, hm, hmap⟩ | hmap
  · -- an expansion is not made of telling letters
    obtain ⟨m, hm, hout⟩ := List.any_eq_true.mp (List.all_eq_true.mp h.expansions e he)
    rw [List.contains_iff_mem.mpr (hn m (hmap ▸ hm))] at hout
    cases hout
  · have hin : Char.ofNat m ∈ letters := hn m (hmap ▸ List.mem_singleton_self m)
    have hvalid := (toNat_ofNat m).resolve_right (h.plain_of_mem hin).2
    have htell := List.all_eq_true.mp (List.all_eq_true.mp h.runs r hr) _ hin
    rw [hvalid, Bool.or_eq_true, Nat.blt_eq] at htell
    rcases htell with havoids | hlast
    · exact absurd rfl (CaseRun.ne_of_avoids havoids hm)
    · exact Nat.lt_of_le_of_lt (CaseRun.move?_eq_some.mp hm).1.2.1 hlast
  · have hin : Char.ofNat n ∈ letters := hn n (hmap ▸ List.mem_singleton_self n)
    have hplain := h.plain_of_mem hin
    rw [(toNat_ofNat n).resolve_right hplain.2] at hplain
    exact hplain.1

end Telling

/-- Capitals into which nothing moves but the plain letters of both cases. -/
def telling : List Char := ['A', 'C', 'D', 'E', 'L', 'P', 'R', 'T', 'U']

theorem tells_upper : Tells upperRuns upperExpansions telling := by
  constructor <;> decide +kernel

/-- A character that becomes telling capitals is plain. -/
theorem plain_of_upperChar {c : Char} (h : ∀ d ∈ upperChar c, d ∈ telling) : c.toNat < 128 :=
  tells_upper.plain_of_mapCode fun _ hm => h _ (List.mem_map_of_mem hm)

/-- The only plain characters that move are the small letters, and all of them by one distance. -/
theorem plain_moves :
    (upperRuns.all fun r => Nat.ble 128 r.first ||
      r.first == 0x61 && r.last == 0x7A && r.shift == -32) = true ∧
    (upperExpansions.all fun e => Nat.ble 128 e.1) = true := by
  decide +kernel

theorem toLower_capital : ∀ n < 128, 0x61 ≤ n → n ≤ 0x7A →
    (Char.ofNat (n - 32)).toLower = (Char.ofNat n).toLower := by
  decide

/-- A plain character and its upper case have the same plain lower case. -/
theorem map_toLower_upperChar {c : Char} (h : c.toNat < 128) :
    (upperChar c).map Char.toLower = [c.toLower] := by
  obtain ⟨hruns, hexpansions⟩ := plain_moves
  rcases mapCode_cases upperRuns upperExpansions c.toNat with
    ⟨e, he, hkey, -⟩ | ⟨r, hr, m, hm, hmap⟩ | hmap
  · have hhigh := Nat.ble_eq.mp (List.all_eq_true.mp hexpansions e he)
    omega
  · obtain ⟨⟨hfirst, hlast, -⟩, hshift⟩ := CaseRun.move?_eq_some.mp hm
    have hrun := List.all_eq_true.mp hruns r hr
    simp only [Bool.or_eq_true, Bool.and_eq_true, Nat.ble_eq, beq_iff_eq] at hrun
    have hcapital : m = c.toNat - 32 := by omega
    have hlower := toLower_capital c.toNat h (by omega) (by omega)
    rw [upperChar, hmap, List.map_singleton, List.map_singleton, hcapital, hlower, Char.ofNat_toNat]
  · rw [upperChar, hmap, List.map_singleton, Char.ofNat_toNat, List.map_singleton]

/-- **A text in telling capitals tells the plain letters that it was.** -/
theorem lowerAscii_of_upper {s : String} (h : ∀ c ∈ (upper s).toList, c ∈ telling) :
    lowerAscii s = lowerAscii (upper s) := by
  rw [toList_upper, List.forall_mem_flatMap] at h
  rw [lowerAscii, lowerAscii, toList_upper, List.map_flatMap]
  congr 1
  rw [← List.flatMap_pure_eq_map]
  exact List.flatMap_congr fun c hc => (map_toLower_upperChar (plain_of_upperChar (h c hc))).symm

/-! ## 5. Plain letters in either case -/

theorem upperChar_toLower (c : Char) : upperChar c.toLower = upperChar c := by
  have hcapital : ∀ n < 26,
      upperChar (Char.ofNat (n + 65)).toLower = upperChar (Char.ofNat (n + 65)) := by
    decide +kernel
  by_cases h : 65 ≤ c.toNat ∧ c.toNat ≤ 90
  · have hc := hcapital (c.toNat - 65) (by omega)
    rwa [Nat.sub_add_cancel h.1, Char.ofNat_toNat] at hc
  · have hc : c.toLower = c := dif_neg h
    rw [hc]

/-- Moving plain capitals to lower case first makes no difference to the upper case. -/
theorem upper_lowerAscii (s : String) : upper (lowerAscii s) = upper s := by
  rw [upper, lowerAscii, String.toList_ofList, List.flatMap_map, upper]
  congr 1
  exact List.flatMap_congr fun c _ => upperChar_toLower c

/-! ## 6. Plain texts in lower case -/

/-- Plain characters have their plain lower case. -/
theorem lowerChar_of_plain {c : Char} (h : c.toNat < 128) : lowerChar c = [c.toLower] := by
  have hplain : ∀ n < 128, lowerChar (Char.ofNat n) = [(Char.ofNat n).toLower] := by
    decide +kernel
  have hlower := hplain c.toNat h
  rwa [Char.ofNat_toNat] at hlower

theorem lowerFrom_of_plain {before cs : List Char} (h : ∀ c ∈ cs, c.toNat < 128) :
    lowerFrom before cs = cs.map Char.toLower := by
  induction cs generalizing before with
  | nil => rfl
  | cons c cs ih =>
    obtain ⟨hc, hcs⟩ := List.forall_mem_cons.mp h
    have hsigma : c ≠ 'Σ' := by
      rintro rfl
      exact absurd hc (by decide)
    rw [lowerFrom, if_neg hsigma, ih hcs, lowerChar_of_plain hc, List.map_cons,
      List.singleton_append]

/-- **A text of plain characters has its plain lower case.** -/
theorem lower_of_plain {s : String} (h : s.toList.all (·.toNat < 128)) :
    lower s = lowerAscii s := by
  rw [lower, lowerAscii, lowerFrom_of_plain]
  simpa using h

/-! ## 7. Telling small letters -/

/-- The plain letters without `k`, which is also the lower case of the sign for kelvin. -/
def tellingSmall : List Char := "abcdefghijlmnopqrstuvwxyz".toList

theorem tells_lower : Tells lowerRuns lowerExpansions tellingSmall := by
  constructor <;> decide +kernel

/-- What becomes telling letters was plain. -/
theorem plain_of_lowerFrom {before cs : List Char}
    (h : ∀ d ∈ lowerFrom before cs, d ∈ tellingSmall) : ∀ c ∈ cs, c.toNat < 128 := by
  induction cs generalizing before with
  | nil => exact List.forall_mem_nil _
  | cons c cs ih =>
    rw [lowerFrom, List.forall_mem_append] at h
    obtain ⟨hc, hcs⟩ := h
    refine List.forall_mem_cons.mpr ⟨?_, ih hcs⟩
    split at hc
    · -- neither form of the small sigma is telling
      exfalso
      rw [List.forall_mem_singleton] at hc
      split at hc
      · exact absurd hc (by decide)
      · exact absurd hc (by decide)
    · exact tells_lower.plain_of_mapCode fun _ hm => hc _ (List.mem_map_of_mem hm)

/-- **A text in telling small letters tells that it was written in plain ones.** -/
theorem lowerAscii_of_lower {s : String} (h : ∀ c ∈ (lower s).toList, c ∈ tellingSmall) :
    lowerAscii s = lower s := by
  rw [lower, String.toList_ofList] at h
  rw [lowerAscii, lower, lowerFrom_of_plain (plain_of_lowerFrom h)]

end AccessRules.Text
