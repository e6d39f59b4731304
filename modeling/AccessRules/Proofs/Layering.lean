/-
# One layer over another

A layer is laid over what is there entry by entry, and an entry may be a table that is laid over a
table in its turn.  What comes of it is said name by name: under each name lies what the layer makes
of the value that was there (`Setting.onto`), or that value where the layer has no entry of the
name.  This needs that the names of the layer stay apart in lower case; of two that do not, the
later one would be laid over the earlier.

* `get?_mergeAll`: what lies under a name after a layer;
* `onto_none`: over nothing, a value is itself with its names in lower case;
* `layOver_eq_mergeAll`: a layer whose names are plain names is laid over as a table is;
* `get?_lay_member_member`: a value that is laid at a path of two names.
-/
import AccessRules.Settings.Layers

namespace AccessRules

theorem SortedMap.findEntry_insertEntry {α : Type} (name other : String) (value : α)
    (l : List (String × α)) :
    findEntry other (insertEntry name value l) =
      if other = name then some value else findEntry other l := by
  by_cases h : other = name
  · rw [if_pos h, h, findEntry_insertEntry_self]
  · rw [if_neg h, findEntry_insertEntry_of_ne value h]

namespace Setting

/-! ## 1. What lies under a name -/

/-- What a table holds under a name; any other value holds nothing. -/
def get? (s : Setting) (name : String) : Option Setting := SortedMap.findEntry name s.entriesOf

/-- The first value of a list of entries whose name is the given one in lower case. -/
def findFolded (name : String) (l : List (String × Setting)) : Option Setting :=
  (l.find? fun e => Text.lower e.1 == name).map (·.2)

/-- The value that comes of one that is laid over what is there, if anything is.  A table is merged
into it, any other value takes its place. -/
def onto : Setting → Option Setting → Setting
  | table l, old => mergeAll l (old.getD (table []))
  | v, _ => v

theorem findFolded_cons (name : String) (e : String × Setting) (l : List (String × Setting)) :
    findFolded name (e :: l) = if Text.lower e.1 = name then some e.2 else findFolded name l := by
  rw [findFolded, List.find?_cons]
  by_cases h : Text.lower e.1 = name
  · rw [if_pos h, beq_iff_eq.mpr h]
    rfl
  · rw [if_neg h, beq_eq_false_iff_ne.mpr h]
    rfl

theorem findFolded_eq_none_iff {name : String} {l : List (String × Setting)} :
    findFolded name l = none ↔ ∀ e ∈ l, Text.lower e.1 ≠ name := by
  simp [findFolded]

theorem exists_of_findFolded {name : String} {l : List (String × Setting)} {v : Setting}
    (h : findFolded name l = some v) : ∃ e ∈ l, Text.lower e.1 = name ∧ e.2 = v := by
  obtain ⟨e, he, rfl⟩ := Option.map_eq_some_iff.mp h
  have hname := List.find?_some he
  exact ⟨e, List.mem_of_find?_eq_some he, beq_iff_eq.mp hname, rfl⟩

/-- Where names stay apart, every value is found under its own. -/
theorem findFolded_of_mem {l : List (String × Setting)}
    (hl : l.Pairwise fun a b => Text.lower a.1 ≠ Text.lower b.1) {e : String × Setting}
    (he : e ∈ l) : findFolded (Text.lower e.1) l = some e.2 := by
  induction l with
  | nil => cases he
  | cons e' l ih =>
    obtain ⟨hapart, hl⟩ := List.pairwise_cons.mp hl
    rw [findFolded_cons]
    rcases List.mem_cons.mp he with rfl | he
    · rw [if_pos rfl]
    · rw [if_neg (hapart e he), ih hl he]

/-! ## 2. Merging, name by name -/

theorem get?_updateMember (s : Setting) (name : String) (fallback : Setting)
    (f : Setting → Setting) (other : String) :
    (s.updateMember name fallback f).get? other =
      if other = Text.lower name then some (f ((s.get? other).getD fallback))
      else s.get? other := by
  rw [get?, updateMember, entriesOf, SortedMap.findEntry_insertEntry]
  split
  · next h => rw [h, get?]
  · rfl

/-- A value that is laid under a name changes the value there. -/
theorem merge_eq (name : String) (v s : Setting) :
    merge name v s = s.updateMember name (if v.entries?.isSome then table [] else null)
      fun old => v.onto (some old) := by
  cases v <;> rfl

theorem get?_merge (name : String) (v s : Setting) (other : String) :
    (merge name v s).get? other =
      if other = Text.lower name then some (v.onto (s.get? other)) else s.get? other := by
  rw [merge_eq, get?_updateMember]
  cases s.get? other with
  | some old => rfl
  | none => cases v <;> rfl

/-- **After a layer each name has what the layer makes of the value that was there**, or that value
where the layer says nothing. -/
theorem get?_mergeAll {l : List (String × Setting)}
    (hl : l.Pairwise fun a b => Text.lower a.1 ≠ Text.lower b.1) (s : Setting) (name : String) :
    (mergeAll l s).get? name =
      ((findFolded name l).map (·.onto (s.get? name))).or (s.get? name) := by
  induction l generalizing s with
  | nil => rfl
  | cons e l ih =>
    obtain ⟨hapart, hl⟩ := List.pairwise_cons.mp hl
    rw [mergeAll, ih hl, get?_merge, findFolded_cons]
    by_cases h : Text.lower e.1 = name
    · have hnone : findFolded name l = none :=
        findFolded_eq_none_iff.mpr fun e' he' h' => hapart e' he' (h.trans h'.symm)
      rw [hnone, if_pos h, if_pos h.symm]
      rfl
    · rw [if_neg h, if_neg (Ne.symm h)]

/-! ## 3. Tables remain tables -/

/-- The value is a table whose entries ascend by name. -/
def Ascends (s : Setting) : Prop :=
  ∃ l, s = table l ∧ l.Pairwise fun a b => a.1 < b.1

theorem Ascends.entriesOf {s : Setting} (h : s.Ascends) :
    s.entriesOf.Pairwise fun a b => a.1 < b.1 := by
  obtain ⟨l, rfl, hl⟩ := h
  exact hl

theorem Ascends.updateMember {s : Setting} (h : s.Ascends) (name : String) (fallback : Setting)
    (f : Setting → Setting) : (s.updateMember name fallback f).Ascends :=
  ⟨_, rfl, SortedMap.pairwise_insertEntry _ _ h.entriesOf⟩

theorem Ascends.merge {s : Setting} (h : s.Ascends) (name : String) (v : Setting) :
    (merge name v s).Ascends := by
  rw [merge_eq]
  exact h.updateMember ..

theorem Ascends.mergeAll {s : Setting} (h : s.Ascends) (l : List (String × Setting)) :
    (mergeAll l s).Ascends := by
  induction l generalizing s with
  | nil => exact h
  | cons e l ih =>
    rw [Setting.mergeAll]
    exact ih (h.merge e.1 e.2)

/-- Such tables are what lies in them. -/
theorem Ascends.ext {s t : Setting} (hs : s.Ascends) (ht : t.Ascends)
    (h : ∀ name, s.get? name = t.get? name) : s = t := by
  obtain ⟨l, rfl, hl⟩ := hs
  obtain ⟨k, rfl, hk⟩ := ht
  exact congrArg table (SortedMap.entries_ext hl hk h)

/-- What a value is merged into becomes a table. -/
theorem exists_mergeAll_cons (e : String × Setting) (l : List (String × Setting)) (s : Setting) :
    ∃ k, mergeAll (e :: l) s = table k := by
  induction l generalizing e s with
  | nil =>
    rw [mergeAll, mergeAll, merge_eq]
    exact ⟨_, rfl⟩
  | cons e' l ih =>
    rw [mergeAll]
    exact ih e' _

/-! ## 4. Names in lower case -/

mutual

/-- The value with the names of its tables in lower case; lists stay as they are. -/
def lowered : Setting → Setting
  | table l => table (loweredEntries l)
  | v => v

/-- The entries with all names in lower case, in their order. -/
def loweredEntries : List (String × Setting) → List (String × Setting)
  | [] => []
  | (name, v) :: l => SortedMap.insertEntry (Text.lower name) v.lowered (loweredEntries l)

end

theorem pairwise_loweredEntries (l : List (String × Setting)) :
    (loweredEntries l).Pairwise fun a b => a.1 < b.1 := by
  induction l with
  | nil => exact .nil
  | cons e l ih => exact SortedMap.pairwise_insertEntry _ _ ih

theorem findEntry_loweredEntries (name : String) (l : List (String × Setting)) :
    SortedMap.findEntry name (loweredEntries l) = (findFolded name l).map lowered := by
  induction l with
  | nil => rfl
  | cons e l ih =>
    rw [loweredEntries, SortedMap.findEntry_insertEntry, findFolded_cons, ih]
    by_cases h : Text.lower e.1 = name
    · rw [if_pos h, if_pos h.symm, Option.map_some]
    · rw [if_neg h, if_neg (Ne.symm h)]

/-- The names of every table in the value stay apart in lower case; those within lists do not
count. -/
inductive Apart : Setting → Prop where
  | table {l : List (String × Setting)}
      (names : l.Pairwise fun a b => Text.lower a.1 ≠ Text.lower b.1)
      (values : ∀ e ∈ l, Apart e.2) : Apart (table l)
  | other {v : Setting} (h : v.entries? = none) : Apart v

theorem Apart.singleton {name : String} {v : Setting} (h : v.Apart) :
    Apart (.table [(name, v)]) :=
  .table (List.pairwise_singleton _ _) (List.forall_mem_singleton.mpr h)

theorem Apart.names {l : List (String × Setting)} (h : (Setting.table l).Apart) :
    l.Pairwise fun a b => Text.lower a.1 ≠ Text.lower b.1 := by
  cases h with
  | table names _ => exact names
  | other h => cases h

theorem Apart.of_findFolded {l : List (String × Setting)} (h : (Setting.table l).Apart)
    {name : String} {v : Setting} (hv : findFolded name l = some v) : v.Apart := by
  obtain ⟨e, he, -, rfl⟩ := exists_of_findFolded hv
  cases h with
  | table _ values => exact values e he
  | other h => cases h

/-- **Over nothing, a value is itself with its names in lower case.** -/
theorem onto_none {v : Setting} (h : v.Apart) : v.onto none = v.lowered := by
  induction h with
  | @table l names values ih =>
    have hempty : (table []).Ascends := ⟨[], rfl, .nil⟩
    rw [onto, lowered, Option.getD_none]
    refine (hempty.mergeAll l).ext ⟨_, rfl, pairwise_loweredEntries l⟩ fun name => ?_
    have hnothing : (table []).get? name = none := rfl
    have hlowered : (table (loweredEntries l)).get? name = (findFolded name l).map lowered :=
      findEntry_loweredEntries name l
    rw [get?_mergeAll names, hlowered, hnothing, Option.or_none]
    refine Option.map_congr fun v hv => ?_
    obtain ⟨e, he, -, rfl⟩ := exists_of_findFolded hv
    exact ih e he
  | @other v h =>
    cases v with
    | table l => cases h
    | _ => rfl

end Setting

/-! ## 5. Layers and their paths -/

namespace PathStep

/-- Nothing but a point or a bracket goes on with a path. -/
theorem further?_of_ne {c : Char} (h : c ≠ '.' ∧ c ≠ '[') (fuel : Nat) (cs : List Char) :
    further? fuel (c :: cs) = none := by
  rw [further?.eq_def]
  split <;> simp_all

/-- A text without points and brackets is the name of one step. -/
theorem path_of_plain {s : String} (h : '.' ∉ s.toList ∧ '[' ∉ s.toList) :
    path s = [.member s] := by
  have hrest : ∀ c ∈ s.toList.dropWhile isNameChar, c ≠ '.' ∧ c ≠ '[' := by
    intro c hc
    have hmem := (List.dropWhile_sublist isNameChar).mem hc
    exact ⟨fun heq => h.1 (heq ▸ hmem), fun heq => h.2 (heq ▸ hmem)⟩
  have hsplit := List.takeWhile_append_dropWhile (p := isNameChar) (l := s.toList)
  rw [path, path?, name?]
  cases htake : s.toList.takeWhile isNameChar with
  | nil => rfl
  | cons c word =>
    dsimp only
    cases hdrop : s.toList.dropWhile isNameChar with
    | nil =>
      rw [htake, hdrop, List.append_nil] at hsplit
      rw [further?, hsplit, String.ofList_toList]
      rfl
    | cons d rest =>
      rw [further?_of_ne (hrest d (hdrop ▸ List.mem_cons_self))]
      rfl

end PathStep

namespace Setting

/-- **A layer whose names are plain is laid over as a table is.** -/
theorem layOver_eq_mergeAll {l : List (String × Setting)}
    (h : ∀ e ∈ l, '.' ∉ e.1.toList ∧ '[' ∉ e.1.toList) (s : Setting) :
    layOver l s = mergeAll l s := by
  induction l generalizing s with
  | nil => rfl
  | cons e l ih =>
    obtain ⟨he, hl⟩ := List.forall_mem_cons.mp h
    rw [layOver, List.foldl_cons, PathStep.path_of_plain he, lay, mergeAll]
    exact ih hl _

/-- **A text at a path of two names** lies in the table under the first one, which is made where
there is none, and nothing else in that table or under another name has changed. -/
theorem get?_lay_member_member (t group name : String) (s : Setting) (other : String) :
    (lay (text t) [.member group, .member name] s).get? other =
      if other = Text.lower group then some (merge name (text t) ((s.get? other).getD null))
      else s.get? other := by
  rw [lay, get?_updateMember]
  · rfl
  · exact List.cons_ne_nil _ _

end Setting

end AccessRules
