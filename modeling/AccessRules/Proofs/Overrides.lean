/-
# Which source counts for a setting

The standard settings lie under those of the document, and the variables lie on top.  Layers are
merged table by table, so the sources are weighed setting by setting: a variable counts before the
document, the document before what is standard, and it makes no difference what else is set.

A section that is no table is an exception.  A list can stand for a section, with its items in the
order of the settings there.  But nothing is merged into a list: it takes the place of the standard
section as a whole, and the first variable for the section takes the place of the list.

* `Address.source?`: the value that counts for a setting;
* `Address.at?_environment`: what lies at a setting once the variables are laid over it;
* `Address.weighed_written`: what lies there once the document is laid over the standard settings.
-/
import AccessRules.Proofs.LastDeclared
import AccessRules.Proofs.Layering
import AccessRules.Proofs.LetterCase
import AccessRules.Settings.File

namespace AccessRules

/-! ## 1. Sources -/

/-- Where a setting stands that is a single value: its section, its name there, and its place where
the section is a list. -/
structure Address where
  group : String
  name : String
  place : Nat
  deriving DecidableEq

namespace Address

/-- How much room to set aside for answers. -/
def capacity : Address := ⟨"engine", "cache_initial_capacity", 0⟩

/-- Whether decisions carry their diagnostic. -/
def diagnostics : Address := ⟨"engine", "include_diagnostics", 1⟩

/-- How much to log. -/
def level : Address := ⟨"logging", "level", 0⟩

/-- Whether the log is JSON. -/
def json : Address := ⟨"logging", "json", 1⟩

/-- The settings that are single values. -/
def all : List Address := [capacity, diagnostics, level, json]

/-- The path under which a variable gives the setting. -/
def path (a : Address) : String := a.group ++ "." ++ a.name

/-- The value that a variable gives the setting. -/
def given? (a : Address) (v : String × String) : Option Setting :=
  if Environment.path? v.1 = some a.path then some (.text v.2) else none

/-- Whether a variable gives a setting of a section. -/
def touches (group : String) (v : String × String) : Bool :=
  all.any fun a => a.group == group && Environment.path? v.1 == some a.path

/-- A variable of this service gives one of the settings; any other variable means nothing. -/
def Known (v : String × String) : Prop :=
  ∀ path, Environment.path? v.1 = some path → ∃ a ∈ all, path = a.path

/-- The value that an entry gives a setting: an empty table gives none. -/
def valueOf? : Setting → Option Setting
  | .table [] => none
  | v => some v

/-- The value that a document gives the setting.  A section that is a list gives its items, unless a
variable touches it. -/
def written? (a : Address) (document : List (String × Setting)) (touched : Bool) :
    Option Setting :=
  match Setting.findFolded a.group document with
  | some (.table l) => (Setting.findFolded a.name l).bind valueOf?
  | some (.list items) => if touched then none else items[a.place]?
  | _ => none

/-- **The value that counts for the setting**: that of the last variable that gives it one, or else
that of the document. -/
def source? (a : Address) (document : List (String × Setting))
    (assigned : List (String × String)) : Option Setting :=
  (last? a.given? assigned).or (a.written? document (assigned.any (touches a.group)))

end Address

/-- A setting is what its source is read as, or what is standard where it has no source. -/
def Weighed {α : Type} (source : Option Setting) (read : Setting → Option α)
    (standard value : α) : Prop :=
  match source with
  | some v => read v = some value
  | none => value = standard

/-- A source and what is standard leave no choice. -/
theorem Weighed.eq {α : Type} {source : Option Setting} {read : Setting → Option α}
    {standard a b : α} (ha : Weighed source read standard a)
    (hb : Weighed source read standard b) : a = b := by
  cases source with
  | none => exact Eq.trans ha (Eq.symm hb)
  | some v => exact Option.some.inj (Eq.trans (Eq.symm ha) hb)

/-! ## 2. The variables -/

namespace Address

variable {a b : Address} {v : String × String}

/-- The names of the settings are in lower case, and their paths are theirs alone. -/
theorem path_of_mem : ∀ a ∈ all,
    PathStep.path a.path = [.member a.group, .member a.name] ∧
      Text.lower a.group = a.group ∧ Text.lower a.name = a.name := by
  simp (disch := decide) only [all, List.forall_mem_cons, capacity, diagnostics, level, json,
    Text.lower_of_plain]
  decide

theorem path_eq_iff : ∀ a ∈ all, ∀ b ∈ all,
    (a.path = b.path ↔ a.group = b.group ∧ a.name = b.name) := by
  decide

theorem given?_of_path (ha : a ∈ all) (hb : b ∈ all) (hv : Environment.path? v.1 = some b.path) :
    a.given? v = if a.group = b.group ∧ a.name = b.name then some (.text v.2) else none := by
  simp only [given?, hv, Option.some.injEq, eq_comm (a := b.path), path_eq_iff a ha b hb]

theorem touches_iff (hb : b ∈ all) (hv : Environment.path? v.1 = some b.path) (group : String) :
    touches group v = true ↔ b.group = group := by
  simp only [touches, List.any_eq_true, Bool.and_eq_true, beq_iff_eq, hv, Option.some.injEq]
  constructor
  · rintro ⟨a, ha, rfl, hpath⟩
    exact ((path_eq_iff b hb a ha).mp hpath).1
  · rintro rfl
    exact ⟨b, hb, rfl, rfl⟩

/-- What a setting holds in a value for its section: the value under its name, or the item in its
place. -/
def heldBy? (a : Address) : Setting → Option Setting
  | .table l => SortedMap.findEntry a.name l
  | .list items => items[a.place]?
  | _ => none

/-- What lies at the setting. -/
def at? (a : Address) (s : Setting) : Option Setting := (s.get? a.group).bind a.heldBy?

/-- What lies at the setting as long as its section is a table. -/
def within? (a : Address) (s : Setting) : Option Setting :=
  ((s.get? a.group).getD .null).get? a.name

theorem at?_of_table {s : Setting} {l : List (String × Setting)}
    (h : s.get? a.group = some (.table l)) : a.at? s = a.within? s := by
  rw [at?, within?, h]
  rfl

/-- Lays a variable over what is there. -/
def assign (s : Setting) (v : String × String) : Setting :=
  match Environment.path? v.1 with
  | some path => Setting.lay (.text v.2) (PathStep.path path) s
  | none => s

theorem layOver_environment (assigned : List (String × String)) (s : Setting) :
    Setting.layOver (Environment.layer assigned) s = assigned.foldl assign s := by
  rw [Setting.layOver, Environment.layer, List.foldl_filterMap]
  refine congrArg (List.foldl · s assigned) ?_
  funext s v
  rw [assign]
  cases Environment.path? v.1 <;> rfl

theorem get?_assign (hb : b ∈ all) (hv : Environment.path? v.1 = some b.path) (s : Setting)
    (group : String) : (assign s v).get? group =
      if group = b.group then
        some (Setting.merge b.name (.text v.2) ((s.get? group).getD .null))
      else s.get? group := by
  obtain ⟨hpath, hgroup, -⟩ := path_of_mem b hb
  rw [assign, hv]
  dsimp only
  rw [hpath, Setting.get?_lay_member_member, hgroup]

/-- A known variable gives nothing or a setting. -/
theorem known_iff : Known v ↔
    Environment.path? v.1 = none ∨ ∃ b ∈ all, Environment.path? v.1 = some b.path := by
  rw [Known]
  cases Environment.path? v.1 <;> simp

theorem assign_of_none (hv : Environment.path? v.1 = none) (s : Setting) : assign s v = s := by
  rw [assign, hv]

theorem touches_of_none (hv : Environment.path? v.1 = none) (group : String) :
    touches group v = false := by
  simp [touches, hv]

/-- A variable puts its value in the place of what lies at its setting, and leaves the others. -/
theorem within?_assign (ha : a ∈ all) (hv : Known v) (s : Setting) :
    a.within? (assign s v) = (a.given? v).or (a.within? s) := by
  obtain hnone | ⟨b, hb, hpath⟩ := known_iff.mp hv
  · rw [assign_of_none hnone, given?, hnone]
    rfl
  obtain ⟨-, -, hname⟩ := path_of_mem b hb
  rw [given?_of_path ha hb hpath, within?, get?_assign hb hpath]
  by_cases hgroup : a.group = b.group
  · rw [if_pos hgroup, Option.getD_some, Setting.get?_merge, hname]
    by_cases h : a.name = b.name
    · rw [if_pos h, if_pos ⟨hgroup, h⟩]
      rfl
    · rw [if_neg h, if_neg fun h' => h h'.2]
      rfl
  · rw [if_neg hgroup, if_neg fun h' => hgroup h'.1]
    rfl

section Assigned

variable {assigned : List (String × String)} (hassigned : ∀ v ∈ assigned, Known v)

include hassigned

theorem within?_environment (ha : a ∈ all) (s : Setting) :
    a.within? (Setting.layOver (Environment.layer assigned) s) =
      (last? a.given? assigned).or (a.within? s) := by
  rw [layOver_environment]
  exact foldl_last?_of_mem a.within? (fun v hv s => within?_assign ha (hassigned v hv) s) s

/-- A section that no variable touches stays as it is; one that is touched is a table. -/
theorem get?_environment (group : String) (s : Setting) :
    (assigned.any (touches group) = false →
      (Setting.layOver (Environment.layer assigned) s).get? group = s.get? group) ∧
    (assigned.any (touches group) = true → ∃ l,
      (Setting.layOver (Environment.layer assigned) s).get? group = some (.table l)) := by
  rw [layOver_environment]
  induction assigned generalizing s with
  | nil => exact ⟨fun _ => rfl, fun h => nomatch h⟩
  | cons v assigned ih =>
    obtain ⟨hv, hrest⟩ := List.forall_mem_cons.mp hassigned
    obtain ⟨hkept, htable⟩ := ih hrest (assign s v)
    rw [List.foldl_cons, List.any_cons]
    obtain hnone | ⟨b, hb, hpath⟩ := known_iff.mp hv
    · rw [touches_of_none hnone, Bool.false_or]
      rw [assign_of_none hnone] at hkept htable ⊢
      exact ⟨hkept, htable⟩
    have hstep := get?_assign hb hpath s group
    have htouch := touches_iff hb hpath group
    constructor
    · intro h
      obtain ⟨hv, h⟩ := Bool.or_eq_false_iff.mp h
      have hother : group ≠ b.group := by
        rintro rfl
        rw [htouch.mpr rfl] at hv
        cases hv
      rw [hkept h, hstep, if_neg hother]
    · intro h
      cases hlater : assigned.any (touches group) with
      | true => exact htable hlater
      | false =>
        -- this is the last variable that touches the section
        rw [hlater, Bool.or_false] at h
        rw [hkept hlater, hstep, if_pos (htouch.mp h).symm, Setting.merge_eq]
        exact ⟨_, rfl⟩

/-- A variable that gives a setting touches its section. -/
theorem last?_given?_eq_none (ha : a ∈ all) (h : assigned.any (touches a.group) = false) :
    last? a.given? assigned = none := by
  refine Option.not_isSome_iff_eq_none.mp fun hsome => ?_
  obtain ⟨v, hv, hgiven⟩ := isSome_last?_iff.mp hsome
  obtain hnone | ⟨b, hb, hpath⟩ := known_iff.mp (hassigned v hv)
  · rw [given?, hnone] at hgiven
    cases hgiven
  have hgroup : a.group = b.group := by
    rw [given?_of_path ha hb hpath] at hgiven
    split at hgiven
    · next hsame => exact hsame.1
    · cases hgiven
  exact List.any_eq_false.mp h v hv ((touches_iff hb hpath a.group).mpr hgroup.symm)

/-- **What lies at a setting once the variables are laid over it**: the value of the last one that
gives it, or else what was there, as long as its section may stay what it was. -/
theorem at?_environment (ha : a ∈ all) (s : Setting) :
    a.at? (Setting.layOver (Environment.layer assigned) s) =
      (last? a.given? assigned).or
        (if assigned.any (touches a.group) then a.within? s else a.at? s) := by
  obtain ⟨hkept, htable⟩ := get?_environment hassigned a.group s
  cases h : assigned.any (touches a.group) with
  | true =>
    obtain ⟨l, hl⟩ := htable h
    rw [at?_of_table hl, within?_environment hassigned ha, if_pos rfl]
  | false =>
    rw [at?, hkept h, last?_given?_eq_none hassigned ha h, Option.none_or]
    rfl

end Assigned

/-! ## 3. The document -/

/-- Over nothing, the standard settings lie as they are. -/
theorem layOver_standardLayer :
    Setting.layOver ServerSettings.standardLayer (.table []) =
      .table ServerSettings.standardLayer := by
  rw [Setting.layOver_eq_mergeAll (by decide), ServerSettings.standardLayer]
  simp (disch := decide) only [Setting.mergeAll, Setting.merge, Setting.updateMember,
    Text.lower_of_plain]
  rfl

/-- Every section of a setting has its standard table. -/
theorem exists_standard : ∀ a ∈ all, ∃ l,
    (Setting.table ServerSettings.standardLayer).get? a.group = some (.table l) := by
  simp only [all, List.forall_mem_cons]
  exact ⟨⟨_, rfl⟩, ⟨_, rfl⟩, ⟨_, rfl⟩, ⟨_, rfl⟩, List.forall_mem_nil _⟩

section Document

variable {α : Type} {read : Setting → Option α} {standard value : α} {v : Setting}
  (hstandard : read v = some standard) (htable : ∀ l, read (.table l) = none)

include hstandard htable

/-- A value that is laid over the standard one counts, unless it is an empty table. -/
theorem weighed_onto {found : Option Setting}
    (h : Weighed ((found.map (·.onto (some v))).or (some v)) read standard value) :
    Weighed (found.bind valueOf?) read standard value := by
  have hkept : read v = some value → value = standard := fun h =>
    Option.some.inj (h.symm.trans hstandard)
  cases found with
  | none => exact hkept h
  | some w =>
    cases w with
    | table l =>
      cases l with
      | nil => exact hkept h
      | cons e l =>
        -- a table is no value
        obtain ⟨k, hk⟩ := Setting.exists_mergeAll_cons e l v
        have hread : read (Setting.mergeAll (e :: l) v) = some value := h
        rw [hk, htable] at hread
        cases hread
    | _ => exact h

/-- **A document counts before what is standard.** -/
theorem weighed_written {a : Address} (ha : a ∈ all)
    (hv : a.within? (.table ServerSettings.standardLayer) = some v)
    {document : List (String × Setting)} (hdocument : (Setting.table document).Apart)
    {touched : Bool} {s : Setting}
    (hs : s = Setting.mergeAll document (.table ServerSettings.standardLayer))
    (h : Weighed (if touched then a.within? s else a.at? s) read standard value) :
    Weighed (a.written? document touched) read standard value := by
  obtain ⟨l₀, hl₀⟩ := exists_standard a ha
  have hname : SortedMap.findEntry a.name l₀ = some v := by
    rw [within?, hl₀] at hv
    exact hv
  have hget := Setting.get?_mergeAll hdocument.names (.table ServerSettings.standardLayer) a.group
  rw [← hs, hl₀] at hget
  rw [written?]
  cases hfound : Setting.findFolded a.group document with
  | none =>
    rw [hfound] at hget
    have hboth : (if touched then a.within? s else a.at? s) = some v := by
      rw [at?_of_table hget, ite_self, within?, hget]
      exact hname
    rw [hboth] at h
    exact Option.some.inj (Eq.trans (Eq.symm h) hstandard)
  | some w =>
    rw [hfound] at hget
    cases w with
    | table l =>
      have hsection : s.get? a.group = some (Setting.mergeAll l (.table l₀)) := hget
      have hascends : ∃ k, Setting.mergeAll l (.table l₀) = .table k := by
        cases l with
        | nil => exact ⟨l₀, rfl⟩
        | cons e l => exact Setting.exists_mergeAll_cons e l _
      obtain ⟨k, hk⟩ := hascends
      have hboth : (if touched then a.within? s else a.at? s) =
          ((Setting.findFolded a.name l).map (·.onto (some v))).or (some v) := by
        rw [at?_of_table (hsection.trans (congrArg some hk)), ite_self, within?, hsection,
          Option.getD_some, Setting.get?_mergeAll (hdocument.of_findFolded hfound).names,
          show (Setting.table l₀).get? a.name = some v from hname]
      rw [hboth] at h
      exact weighed_onto hstandard htable h
    | list items =>
      cases touched with
      | true => rwa [if_pos rfl, within?, hget] at h
      | false => rwa [if_neg Bool.false_ne_true, at?, hget] at h
    | _ =>
      -- a section that is a single value holds nothing
      cases touched with
      | true => rwa [if_pos rfl, within?, hget] at h
      | false => rwa [if_neg Bool.false_ne_true, at?, hget] at h

end Document

end Address

end AccessRules
