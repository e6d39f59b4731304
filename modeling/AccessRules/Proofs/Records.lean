/-
# Reading what was written

What a record, a list or a table is read from is not fixed by its value: a member may be missing
and a field that is no member is passed over.  What is fixed is the outcome.  A list or a table is
read as what was written (`Source.listOf?_map`, `Source.tableOf?_map`), and a record depends on
nothing but the values under the names of its members, once the missing ones are filled in
(`Members.Agree`).
-/
import AccessRules.Exchange.Record

namespace AccessRules

/-! ## 1. Maps from their entries -/

namespace SortedMap

variable {α : Type}

theorem insertEntry_of_forall_lt {name : String} {value : α} {l : List (String × α)}
    (h : ∀ e ∈ l, e.1 < name) : insertEntry name value l = l ++ [(name, value)] := by
  induction l with
  | nil => rfl
  | cons e l ih =>
    obtain ⟨he, hl⟩ := List.forall_mem_cons.mp h
    have hlt : ¬ name < e.1 := String.lt_asymm he
    have hne : name ≠ e.1 := fun heq => String.lt_irrefl _ (heq ▸ he)
    simp [insertEntry, hlt, hne, ih hl]

/-- Entries that ascend are put one behind the other. -/
theorem entries_foldl_insert (l : List (String × α)) (m : SortedMap α)
    (h : (m.entries ++ l).Pairwise fun a b => a.1 < b.1) :
    (l.foldl (fun m e => m.insert e.1 e.2) m).entries = m.entries ++ l := by
  induction l generalizing m with
  | nil => simp
  | cons e l ih =>
    have hlt : ∀ x ∈ m.entries, x.1 < e.1 := by
      intro x hx
      exact (List.pairwise_append.mp h).2.2 x hx e (by simp)
    have hinsert : (m.insert e.1 e.2).entries = m.entries ++ [e] := insertEntry_of_forall_lt hlt
    rw [List.foldl_cons, ih, hinsert]
    · simp
    · rw [hinsert]
      simpa using h

/-- A map is filled from its own entries. -/
theorem ofList_entries (m : SortedMap α) : ofList m.entries = m := by
  obtain ⟨l, hl⟩ := m
  have hentries : (ofList l).entries = l := entries_foldl_insert l .empty hl
  generalize ofList l = k at hentries ⊢
  cases k
  subst hentries
  rfl

theorem findEntry_append (name : String) (l k : List (String × α)) :
    findEntry name (l ++ k) = (findEntry name l).or (findEntry name k) := by
  induction l with
  | nil => simp [findEntry]
  | cons e l ih =>
    by_cases h : e.1 = name
    · simp [findEntry, h]
    · simp [findEntry, h, ih]

end SortedMap

theorem NameSet.ofNames_names (s : NameSet) : NameSet.ofNames s.names = s := by
  have hentries : (s.names.map fun n => (n, ())) = s.entries := by
    simp [SortedMap.names, Function.comp_def]
  rw [ofNames, hentries, SortedMap.ofList_entries]

/-! ## 2. Lists and tables -/

/-- A list is read item by item. -/
theorem mapM_map_of_forall {α β : Type} {read : β → Option α} {write : α → β}
    (h : ∀ a, read (write a) = some a) (l : List α) : (l.map write).mapM read = some l := by
  induction l with
  | nil => rfl
  | cons a l ih => simp [List.mapM_cons, h, ih]

namespace Source

variable {α : Type} {read : Json → Option α} {write : α → Json}

theorem listOf?_map (h : ∀ a, read (write a) = some a) (l : List α) :
    listOf? read (.array (l.map write)) = some l := mapM_map_of_forall h l

theorem tableOf?_map (h : ∀ a, read (write a) = some a) (m : SortedMap α) :
    tableOf? read (.object (m.entries.map fun e => (e.1, write e.2))) = some m := by
  have hentry : ∀ e : String × α, (read (write e.2)).map (e.1, ·) = some e := by
    intro e
    rw [h, Option.map_some]
  change ((m.entries.map _).mapM fun e : String × Json => (read e.2).map (e.1, ·)).map
    SortedMap.ofList = some m
  rw [mapM_map_of_forall hentry, Option.map_some, SortedMap.ofList_entries]

/-- A table of values as they are is the table. -/
theorem tableOf?_ofMap (m : SortedMap Json) : tableOf? some (.ofMap m) = some m := by
  simpa [Json.ofMap] using @tableOf?_map Json some id (fun _ => rfl) m

-- Not by `rfl` alone: where these settle a side condition, `simp` needs them with their proof.
@[simp] theorem listOf?_nil : listOf? read (.array []) = some [] := by
  unfold listOf?
  rfl

@[simp] theorem tableOf?_nil : tableOf? read (.object []) = some .empty := by
  unfold tableOf?
  rfl

@[simp] theorem nullable?_null : nullable? read .null = some none := by
  unfold nullable?
  rfl

@[simp] theorem exactText?_string (t : String) : exactText? (Json.string t) = some t := by
  unfold exactText?
  rfl

@[simp] theorem text?_string (t : String) : text? (Json.string t) = some t := by
  unfold text?
  rfl

@[simp] theorem flag?_bool (b : Bool) : flag? (Json.bool b) = some b := by
  unfold flag?
  rfl

@[simp] theorem count?_natCast (n : Nat) : count? (Json.integer n) = some n := by
  simp [count?, Json.count?]

theorem nullable?_ofText? (t : Option String) :
    nullable? Json.string? (.ofText? t) = some t := by
  cases t <;> rfl

end Source

/-! ## 3. Members of an object -/

namespace Json

@[simp] theorem members?_object (l : List (String × Json)) :
    members? (.object l) = some (.named l) := rfl

@[simp] theorem source_members? (v : Json) : Source.members? v = v.members? := rfl

end Json

namespace Members

@[simp] theorem fits_named {ν : Type} [Source ν] (l : List (String × ν)) (n : Nat) :
    (named l).fits n = true := by
  simp [fits, atMost]

@[simp] theorem atMost_named {ν : Type} (l : List (String × ν)) (n : Nat) :
    (named l).atMost n = true := rfl

variable {α : Type} {d l l' : List (String × Json)} {place : Nat} {name : String}
  {read : Json → Option α}

theorem required_named : (named l).required place name read =
    (SortedMap.findEntry name l).bind read := rfl

theorem defaulted_named {fallback : α} : (named l).defaulted place name fallback read =
    ((SortedMap.findEntry name l).map read).getD (some fallback) := by
  have hfind : (named l).find? place name = SortedMap.findEntry name l := rfl
  rw [defaulted, hfind]
  cases SortedMap.findEntry name l <;> rfl

theorem optional_named : (named l).optional place name read =
    ((SortedMap.findEntry name l).map (Source.nullable? read)).getD (some none) := defaulted_named

/-- Two objects have the same value under a name, where `d` stands in for what is missing. -/
def Agree (d l l' : List (String × Json)) (name : String) : Prop :=
  SortedMap.findEntry name (l ++ d) = SortedMap.findEntry name (l' ++ d)

/-- A member for which nothing stands in is looked up among the fields alone. -/
theorem Agree.find? (h : Agree d l l' name) (hd : SortedMap.findEntry name d = none) :
    (named l).find? place name = (named l').find? place name := by
  simpa [Agree, SortedMap.findEntry_append, hd, Members.find?] using h

theorem Agree.required (h : Agree d l l' name) (hd : SortedMap.findEntry name d = none) :
    (named l).required place name read = (named l').required place name read := by
  rw [Members.required, h.find? hd, Members.required]

/-- A missing member reads as the field that stands in for it. -/
theorem defaulted_append {v : Json} {fallback : α} (hd : SortedMap.findEntry name d = some v)
    (hv : read v = some fallback) : (named l).defaulted place name fallback read =
      (SortedMap.findEntry name (l ++ d)).bind read := by
  rw [SortedMap.findEntry_append, hd, defaulted_named]
  cases SortedMap.findEntry name l with
  | none => exact hv.symm
  | some w => rfl

theorem Agree.defaulted {v : Json} {fallback : α} (h : Agree d l l' name)
    (hd : SortedMap.findEntry name d = some v) (hv : read v = some fallback) :
    (named l).defaulted place name fallback read =
      (named l').defaulted place name fallback read := by
  rw [defaulted_append hd hv, defaulted_append hd hv, h]

/-- For a missing optional member null stands in. -/
theorem Agree.optional (h : Agree d l l' name) (hd : SortedMap.findEntry name d = some .null) :
    (named l).optional place name read = (named l').optional place name read :=
  h.defaulted hd rfl

end Members

end AccessRules
