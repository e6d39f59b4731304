/-
# Maps from names, in ascending order

A `SortedMap` holds one value under each of finitely many names and lists them in ascending code
point order.  The order is part of the type, so two maps that hold the same values under the same
names are equal, in whatever order they were filled.

* `find?_insert_self`, `find?_insert_of_ne`: what inserting does to look-ups;
* `entries_ext`: entries in ascending order are their look-ups.
-/

namespace AccessRules

/-- A finite map from names to values whose entries ascend strictly by name. -/
structure SortedMap (α : Type) where
  entries : List (String × α)
  sorted : entries.Pairwise fun a b => a.1 < b.1
  deriving DecidableEq

namespace SortedMap

variable {α β : Type}

/-! ## 1. Entries -/

/-- The value under a name in a list of entries. -/
def findEntry (name : String) : List (String × α) → Option α
  | [] => none
  | (n, a) :: rest => if n = name then some a else findEntry name rest

/-- Puts an entry at its place, replacing one of the same name. -/
def insertEntry (name : String) (value : α) : List (String × α) → List (String × α)
  | [] => [(name, value)]
  | (n, a) :: rest =>
    if name < n then (name, value) :: (n, a) :: rest
    else if name = n then (name, value) :: rest
    else (n, a) :: insertEntry name value rest

theorem mem_insertEntry {name : String} {value : α} {e : String × α} {l : List (String × α)}
    (h : e ∈ insertEntry name value l) : e = (name, value) ∨ e ∈ l := by
  induction l with
  | nil => simpa [insertEntry] using h
  | cons hd tl ih =>
    simp only [insertEntry] at h
    split at h
    · simpa using h
    · split at h
      · rcases List.mem_cons.mp h with h | h
        · exact .inl h
        · exact .inr (List.mem_cons_of_mem _ h)
      · rcases List.mem_cons.mp h with h | h
        · exact .inr (h ▸ List.mem_cons_self)
        · rcases ih h with h | h
          · exact .inl h
          · exact .inr (List.mem_cons_of_mem _ h)

theorem pairwise_insertEntry (name : String) (value : α) {l : List (String × α)}
    (h : l.Pairwise fun a b => a.1 < b.1) :
    (insertEntry name value l).Pairwise fun a b => a.1 < b.1 := by
  induction l with
  | nil => simp [insertEntry]
  | cons hd tl ih =>
    rw [List.pairwise_cons] at h
    simp only [insertEntry]
    split
    · next hlt =>
      refine List.pairwise_cons.mpr ⟨fun b hb => ?_, List.pairwise_cons.mpr h⟩
      rcases List.mem_cons.mp hb with rfl | hb
      · exact hlt
      · exact String.lt_trans hlt (h.1 b hb)
    · split
      · next heq =>
        exact List.pairwise_cons.mpr ⟨fun b hb => heq ▸ h.1 b hb, h.2⟩
      · next hlt hne =>
        refine List.pairwise_cons.mpr ⟨fun b hb => ?_, ih h.2⟩
        rcases mem_insertEntry hb with rfl | hb
        · rcases Std.lt_trichotomy name hd.1 with h' | h' | h'
          · exact absurd h' hlt
          · exact absurd h' hne
          · exact h'
        · exact h.1 b hb

theorem findEntry_insertEntry_self (name : String) (value : α) (l : List (String × α)) :
    findEntry name (insertEntry name value l) = some value := by
  induction l with
  | nil => simp [insertEntry, findEntry]
  | cons hd tl ih =>
    simp only [insertEntry]
    split
    · simp [findEntry]
    · split
      · simp [findEntry]
      · next hne => simp [findEntry, Ne.symm hne, ih]

theorem findEntry_insertEntry_of_ne {name other : String} (value : α) (h : other ≠ name)
    (l : List (String × α)) :
    findEntry other (insertEntry name value l) = findEntry other l := by
  induction l with
  | nil => simp [insertEntry, findEntry, Ne.symm h]
  | cons hd tl ih =>
    simp only [insertEntry]
    split
    · simp [findEntry, Ne.symm h]
    · split
      · next heq => simp [findEntry, ← heq, Ne.symm h]
      · simp [findEntry, ih]

/-! ## 2. Maps -/

/-- The map without entries. -/
def empty : SortedMap α := ⟨[], .nil⟩

instance : Inhabited (SortedMap α) := ⟨empty⟩

/-- The value under a name. -/
def find? (m : SortedMap α) (name : String) : Option α := findEntry name m.entries

/-- Whether the map holds a value under a name. -/
def contains (m : SortedMap α) (name : String) : Bool := (m.find? name).isSome

/-- Puts a value under a name, in place of the one there. -/
def insert (m : SortedMap α) (name : String) (value : α) : SortedMap α :=
  ⟨insertEntry name value m.entries, pairwise_insertEntry name value m.sorted⟩

/-- The names in ascending order. -/
def names (m : SortedMap α) : List String := m.entries.map (·.1)

/-- The map filled from a list, of which the last entry under a name counts. -/
def ofList (l : List (String × α)) : SortedMap α :=
  l.foldl (fun m e => m.insert e.1 e.2) empty

/-- Changes the value under a name, which starts from `fallback` where there is none. -/
def update (m : SortedMap α) (name : String) (fallback : α) (f : α → α) : SortedMap α :=
  m.insert name (f ((m.find? name).getD fallback))

@[simp] theorem find?_empty (name : String) : (empty : SortedMap α).find? name = none := rfl

@[simp] theorem find?_insert_self (m : SortedMap α) (name : String) (value : α) :
    (m.insert name value).find? name = some value :=
  findEntry_insertEntry_self name value m.entries

theorem find?_insert_of_ne (m : SortedMap α) {name other : String} (value : α)
    (h : other ≠ name) : (m.insert name value).find? other = m.find? other :=
  findEntry_insertEntry_of_ne value h m.entries

theorem find?_insert (m : SortedMap α) (name other : String) (value : α) :
    (m.insert name value).find? other = if other = name then some value else m.find? other := by
  by_cases h : other = name
  · subst h; simp
  · rw [if_neg h, find?_insert_of_ne m value h]

/-! ## 3. A map is its look-ups -/

theorem findEntry_eq_none_of_lt {name : String} {l : List (String × α)}
    (h : ∀ e ∈ l, name < e.1) : findEntry name l = none := by
  induction l with
  | nil => rfl
  | cons hd tl ih =>
    have hne : hd.1 ≠ name := fun he => String.lt_irrefl name (he ▸ h hd List.mem_cons_self)
    simp only [findEntry, if_neg hne]
    exact ih fun e he => h e (List.mem_cons_of_mem _ he)

/-- Ascending lists of entries with the same look-ups are the same list. -/
theorem entries_ext {l k : List (String × α)} (hl : l.Pairwise fun a b => a.1 < b.1)
    (hk : k.Pairwise fun a b => a.1 < b.1) (h : ∀ name, findEntry name l = findEntry name k) :
    l = k := by
  induction l generalizing k with
  | nil =>
    cases k with
    | nil => rfl
    | cons hd tl => simpa [findEntry] using h hd.1
  | cons x l ih =>
    cases k with
    | nil => simpa [findEntry] using h x.1
    | cons y k =>
      rw [List.pairwise_cons] at hl hk
      have hxy : x.1 = y.1 := by
        rcases Std.lt_trichotomy x.1 y.1 with hlt | heq | hlt
        · have h1 := h x.1
          have h2 : findEntry x.1 (y :: k) = none := by
            refine findEntry_eq_none_of_lt fun e he => ?_
            rcases List.mem_cons.mp he with rfl | he
            · exact hlt
            · exact String.lt_trans hlt (hk.1 e he)
          rw [h2] at h1
          simp [findEntry] at h1
        · exact heq
        · have h1 := h y.1
          have h2 : findEntry y.1 (x :: l) = none := by
            refine findEntry_eq_none_of_lt fun e he => ?_
            rcases List.mem_cons.mp he with rfl | he
            · exact hlt
            · exact String.lt_trans hlt (hl.1 e he)
          rw [h2] at h1
          simp [findEntry] at h1
      have hval : x.2 = y.2 := by simpa [findEntry, hxy] using h x.1
      have htail : l = k := by
        refine ih hl.2 hk.2 fun name => ?_
        by_cases hn : x.1 = name
        · have h1 : findEntry name l = none :=
            findEntry_eq_none_of_lt fun e he => hn ▸ hl.1 e he
          have h2 : findEntry name k = none :=
            findEntry_eq_none_of_lt fun e he => hn ▸ hxy ▸ hk.1 e he
          rw [h1, h2]
        · simpa [findEntry, hn, ← hxy] using h name
      rw [htail, Prod.ext hxy hval]

/-- Something is found under the names of a list of entries, and under no others. -/
theorem isSome_findEntry_iff {name : String} {l : List (String × α)} :
    (findEntry name l).isSome ↔ name ∈ l.map (·.1) := by
  induction l with
  | nil => simp [findEntry]
  | cons e l ih =>
    rw [findEntry, List.map_cons, List.mem_cons]
    by_cases h : e.1 = name
    · simp [h]
    · simp [h, Ne.symm h, ih]

/-- A name is listed if something is held under it. -/
theorem isSome_find?_iff {m : SortedMap α} {name : String} :
    (m.find? name).isSome ↔ name ∈ m.names :=
  isSome_findEntry_iff

theorem pairwise_names (m : SortedMap α) : m.names.Pairwise (· < ·) :=
  List.pairwise_map.mpr m.sorted

end SortedMap

/-- A finite set of names in ascending order. -/
abbrev NameSet := SortedMap Unit

/-- The set of the names in a list. -/
def NameSet.ofNames (l : List String) : NameSet := SortedMap.ofList (l.map fun n => (n, ()))

end AccessRules
