/-
# The settings that are loaded

Settings are read from what all layers have made of the standard ones.  Each of the four that are
single values is that of the source that counts for it.  The policy is that of the document: its
checks are read under their names in lower case, its entities as they are written, since names
within lists stay as they are.

* `Address.weighed_of_layered`: what lies at a setting under all layers;
* `PolicySettings.Follows`: the policy of a document;
* `ServerSettings.load_weighs`: the settings that are loaded;
* `ServerSettings.list_forgotten`: sections that are lists, with and without a variable.
-/
import AccessRules.Proofs.Overrides
import AccessRules.Proofs.Records

namespace AccessRules

/-! ## 1. Reading what was layered -/

section Reading

variable {α : Type} {read : Setting → Option α} {fallback value : α}

theorem weighed_of_defaulted {m : Members Setting} {place : Nat} {name : String}
    (h : m.defaulted place name fallback read = some value) :
    Weighed (m.find? place name) read fallback value := by
  rw [Members.defaulted] at h
  cases hfound : m.find? place name with
  | none =>
    rw [hfound] at h
    exact (Option.some.inj h).symm
  | some v =>
    rw [hfound] at h
    exact h

/-- Settings have room for any number of members. -/
theorem exists_members {v : Setting} {count : Nat} {f : Members Setting → Option α}
    (h : (do
      let m ← Source.members? v
      if m.fits count then f m else none) = some value) :
    ∃ m, Source.members? v = some m ∧ f m = some value := by
  obtain ⟨m, hm, h⟩ := Option.bind_eq_some_iff.mp h
  rw [if_pos (by rfl)] at h
  exact ⟨m, hm, h⟩

theorem Address.find?_eq_heldBy? {v : Setting} {m : Members Setting}
    (h : Source.members? v = some m) (a : Address) : m.find? a.place a.name = a.heldBy? v := by
  cases v <;> cases h <;> rfl

theorem EngineSettings.weighed_of_ofSource? {v : Setting} {e : EngineSettings}
    (h : EngineSettings.ofSource? v = some e) :
    Weighed (Address.capacity.heldBy? v) Source.count? standard.initialCapacity
        e.initialCapacity ∧
      Weighed (Address.diagnostics.heldBy? v) Source.flag? standard.showsDiagnostics
        e.showsDiagnostics := by
  obtain ⟨m, hm, h⟩ := exists_members h
  simp only [Option.bind_eq_bind, Option.bind_eq_some_iff, Option.some.injEq] at h
  obtain ⟨capacity, hcapacity, diagnostics, hdiagnostics, rfl⟩ := h
  rw [← Address.find?_eq_heldBy? hm, ← Address.find?_eq_heldBy? hm]
  exact ⟨weighed_of_defaulted hcapacity, weighed_of_defaulted hdiagnostics⟩

theorem LogSettings.weighed_of_ofSource? {v : Setting} {l : LogSettings}
    (h : LogSettings.ofSource? v = some l) :
    Weighed (Address.level.heldBy? v) Source.text? standard.level l.level ∧
      Weighed (Address.json.heldBy? v) Source.flag? standard.json l.json := by
  obtain ⟨m, hm, h⟩ := exists_members h
  simp only [Option.bind_eq_bind, Option.bind_eq_some_iff, Option.some.injEq] at h
  obtain ⟨level, hlevel, json, hjson, rfl⟩ := h
  rw [← Address.find?_eq_heldBy? hm, ← Address.find?_eq_heldBy? hm]
  exact ⟨weighed_of_defaulted hlevel, weighed_of_defaulted hjson⟩

/-- All settings are read section by section, and what is missing is standard. -/
theorem ServerSettings.sections_of_ofSource? {l : List (String × Setting)} {s : ServerSettings}
    (h : ServerSettings.ofSource? (Setting.table l) = some s) :
    Weighed ((Setting.table l).get? "engine") EngineSettings.ofSource? .standard s.engine ∧
      Weighed ((Setting.table l).get? "logging") LogSettings.ofSource? .standard s.log ∧
      Weighed ((Setting.table l).get? "policy") PolicySettings.ofSource? .standard s.policy := by
  obtain ⟨m, hm, h⟩ := exists_members h
  simp only [Option.bind_eq_bind, Option.bind_eq_some_iff, Option.some.injEq] at h
  obtain ⟨engine, hengine, log, hlog, policy, hpolicy, rfl⟩ := h
  cases hm
  exact ⟨weighed_of_defaulted hengine, weighed_of_defaulted hlog, weighed_of_defaulted hpolicy⟩

end Reading

/-! ## 2. The policy -/

namespace PolicySettings

/-- The checks are those of a table, each under its name in lower case; without a table there are
none. -/
def HoldsChecks (checks : SortedMap CheckBinding) : Option Setting → Prop
  | none => checks = .empty
  | some v => ∃ l, v = .table l ∧
      (∀ e ∈ l, ∃ b, CheckBinding.ofSource? e.2.lowered = some b ∧
        checks.find? (Text.lower e.1) = some b) ∧
      ∀ name ∈ checks.names, ∃ e ∈ l, Text.lower e.1 = name

/-- The entities are those of a list, read as they are written; without a list there are none. -/
def HoldsEntities (entities : List EntityRules) : Option Setting → Prop
  | none => entities = []
  | some v => ∃ items, v = .list items ∧ items.mapM EntityRules.ofSource? = some entities

/-- **The policy is that of the document.**  A policy that is a list is read as it is, without a
change to any name. -/
def Follows (p : PolicySettings) (document : List (String × Setting)) : Prop :=
  match Setting.findFolded "policy" document with
  | none => p.checks = .empty ∧ p.entities = []
  | some (.table l) =>
    HoldsChecks p.checks (Setting.findFolded "checks" l) ∧
      HoldsEntities p.entities (Setting.findFolded "entities" l)
  | some v => PolicySettings.ofSource? v = some p

end PolicySettings

namespace Source

variable {α : Type} {read : Setting → Option α}

/-- The entries that a table is read as are those of the table, read one by one. -/
theorem findEntry_of_mapM {l : List (String × Setting)} {k : List (String × α)}
    (h : (l.mapM fun e => (read e.2).map (e.1, ·)) = some k) :
    k.map (·.1) = l.map (·.1) ∧
      ∀ name, SortedMap.findEntry name k = (SortedMap.findEntry name l).bind read := by
  induction l generalizing k with
  | nil =>
    obtain rfl : [] = k := by simpa using h
    exact ⟨rfl, fun _ => rfl⟩
  | cons e l ih =>
    simp only [List.mapM_cons, Option.bind_eq_bind, Option.bind_eq_some_iff,
      Option.map_eq_some_iff] at h
    obtain ⟨x, ⟨a, ha, rfl⟩, rest, hrest, hk⟩ := h
    obtain rfl : (e.1, a) :: rest = k := by simpa using hk
    obtain ⟨hnames, hfind⟩ := ih hrest
    refine ⟨by rw [List.map_cons, List.map_cons, hnames], fun name => ?_⟩
    rw [SortedMap.findEntry, SortedMap.findEntry, hfind]
    split
    · exact ha.symm
    · rfl

/-- **A table whose names ascend is read name by name**, and every value in it is read. -/
theorem find?_of_tableOf? {l : List (String × Setting)} (hl : l.Pairwise fun a b => a.1 < b.1)
    {m : SortedMap α} (h : tableOf? read (Setting.table l) = some m) (name : String) :
    m.find? name = (SortedMap.findEntry name l).bind read ∧
      ((m.find? name).isSome ↔ (SortedMap.findEntry name l).isSome) := by
  obtain ⟨k, hk, rfl⟩ := Option.map_eq_some_iff.mp h
  obtain ⟨hnames, hfind⟩ := findEntry_of_mapM hk
  have hsorted : k.Pairwise fun a b => a.1 < b.1 := by
    rw [← List.pairwise_map (f := Prod.fst) (R := (· < ·)), hnames]
    exact List.pairwise_map.mpr hl
  have hentries : (SortedMap.ofList k).entries = k :=
    SortedMap.entries_foldl_insert k .empty hsorted
  rw [SortedMap.find?, hentries]
  refine ⟨hfind name, ?_⟩
  rw [SortedMap.isSome_findEntry_iff, SortedMap.isSome_findEntry_iff, hnames]

end Source

namespace PolicySettings

/-- The checks that are read from a table with its names in lower case. -/
theorem holdsChecks_of_weighed {found : Option Setting} (hfound : ∀ v, found = some v → v.Apart)
    {checks : SortedMap CheckBinding}
    (h : Weighed (found.map Setting.lowered) (Source.tableOf? CheckBinding.ofSource?) .empty
      checks) : HoldsChecks checks found := by
  cases found with
  | none => exact h
  | some v =>
    obtain ⟨l, rfl⟩ : ∃ l, v = .table l := by
      cases v with
      | table l => exact ⟨l, rfl⟩
      | _ => cases h
    have hread := Source.find?_of_tableOf? (Setting.pairwise_loweredEntries l) h
    simp only [Setting.findEntry_loweredEntries] at hread
    refine ⟨l, rfl, fun e he => ?_, fun name hname => ?_⟩
    · obtain ⟨hfind, hsome⟩ := hread (Text.lower e.1)
      rw [Setting.findFolded_of_mem (hfound _ rfl).names he] at hfind hsome
      obtain ⟨b, hb⟩ := Option.isSome_iff_exists.mp (hsome.mpr rfl)
      exact ⟨b, hfind.symm.trans hb, hb⟩
    · have hsome := (hread name).2.mp (SortedMap.isSome_find?_iff.mpr hname)
      obtain ⟨v, hv⟩ := Option.isSome_iff_exists.mp (by simpa using hsome)
      obtain ⟨e, he, hlower, -⟩ := Setting.exists_of_findFolded hv
      exact ⟨e, he, hlower⟩

/-- The entities that are read from a list, whose values keep their names. -/
theorem holdsEntities_of_weighed {found : Option Setting} {entities : List EntityRules}
    (h : Weighed (found.map Setting.lowered) (Source.listOf? EntityRules.ofSource?) []
      entities) : HoldsEntities entities found := by
  cases found with
  | none => exact h
  | some v =>
    cases v with
    | list items => exact ⟨items, rfl, h⟩
    | _ => cases h

/-- The policy of a table is read from its checks and its entities. -/
theorem sections_of_ofSource? {l : List (String × Setting)} {p : PolicySettings}
    (h : PolicySettings.ofSource? (Setting.table l) = some p) :
    Weighed (SortedMap.findEntry "checks" l) (Source.tableOf? CheckBinding.ofSource?) .empty
        p.checks ∧
      Weighed (SortedMap.findEntry "entities" l) (Source.listOf? EntityRules.ofSource?) []
        p.entities := by
  obtain ⟨m, hm, h⟩ := exists_members h
  simp only [Option.bind_eq_bind, Option.bind_eq_some_iff, Option.some.injEq] at h
  obtain ⟨checks, hchecks, entities, hentities, rfl⟩ := h
  cases hm
  exact ⟨weighed_of_defaulted hchecks, weighed_of_defaulted hentities⟩

/-- **A policy that is read with its names in lower case follows the document.** -/
theorem follows_of_weighed {p : PolicySettings} {document : List (String × Setting)}
    (hdocument : (Setting.table document).Apart)
    (h : Weighed ((Setting.findFolded "policy" document).map Setting.lowered)
      PolicySettings.ofSource? .standard p) : p.Follows document := by
  rw [Follows]
  cases hfound : Setting.findFolded "policy" document with
  | none =>
    rw [hfound] at h
    cases h
    exact ⟨rfl, rfl⟩
  | some v =>
    rw [hfound] at h
    cases v with
    | table l =>
      obtain ⟨hchecks, hentities⟩ := sections_of_ofSource? (l := Setting.loweredEntries l) h
      rw [Setting.findEntry_loweredEntries] at hchecks hentities
      have hapart := hdocument.of_findFolded hfound
      exact ⟨holdsChecks_of_weighed (fun v => hapart.of_findFolded) hchecks,
        holdsEntities_of_weighed hentities⟩
    | _ => exact h

end PolicySettings

/-! ## 3. All layers -/

namespace ServerSettings

/-- A document over the standard settings, and the variables over both. -/
def layered (document : List (String × Setting)) (assigned : List (String × String)) : Setting :=
  Setting.layOver (Environment.layer assigned)
    (Setting.mergeAll document (.table standardLayer))

/-- These are the layers of a file, if its names are no paths. -/
theorem stack_eq_layered {document : List (String × Setting)}
    (hplain : ∀ e ∈ document, '.' ∉ e.1.toList ∧ '[' ∉ e.1.toList)
    (assigned : List (String × String)) :
    Setting.stack [standardLayer, document, Environment.layer assigned] =
      layered document assigned := by
  rw [Setting.stack, List.foldl_cons, List.foldl_cons, List.foldl_cons, List.foldl_nil,
    Address.layOver_standardLayer, Setting.layOver_eq_mergeAll hplain, layered]

theorem ofLayers_eq_ok_iff {layers : List (List (String × Setting))} {s : ServerSettings} :
    ofLayers layers = .ok s ↔
      ofSource? (Setting.stack (standardLayer :: layers)) = some s ∧ s.validate = .ok () := by
  rw [ofLayers]
  constructor
  · intro h
    split at h
    · cases h
    · next s' hread =>
      split at h
      · cases h
      · next hvalid =>
        cases h
        exact ⟨hread, hvalid⟩
  · rintro ⟨hread, hvalid⟩
    rw [hread]
    dsimp only
    rw [hvalid]

theorem load_eq_ok_iff {file : String} {document : List (String × Setting)}
    (hfile : Setting.ofFile? file = some document)
    (hplain : ∀ e ∈ document, '.' ∉ e.1.toList ∧ '[' ∉ e.1.toList)
    {assigned : List (String × String)} {s : ServerSettings} :
    load file assigned = .ok s ↔
      ofSource? (layered document assigned) = some s ∧ s.validate = .ok () := by
  rw [load, hfile, ← stack_eq_layered hplain]
  exact ofLayers_eq_ok_iff

end ServerSettings

section Layered

open Address ServerSettings

variable {document : List (String × Setting)} (hdocument : (Setting.table document).Apart)
  {assigned : List (String × String)} (hassigned : ∀ v ∈ assigned, Known v)

include hdocument hassigned

/-- **A variable counts before the document, and the document before what is standard**, setting by
setting. -/
theorem Address.weighed_of_layered {a : Address} (ha : a ∈ all) {α : Type}
    {read : Setting → Option α} {standard value : α}
    (hstandard : (a.within? (.table standardLayer)).bind read = some standard)
    (htable : ∀ l, read (.table l) = none) {v : Setting}
    (hv : (layered document assigned).get? a.group = some v)
    (h : Weighed (a.heldBy? v) read standard value) :
    Weighed (a.source? document assigned) read standard value := by
  obtain ⟨w, hw, hread⟩ := Option.bind_eq_some_iff.mp hstandard
  have hat : a.heldBy? v = a.at? (layered document assigned) := by
    rw [at?, hv, Option.bind_some]
  rw [hat, layered, at?_environment hassigned ha] at h
  rw [source?]
  cases hlast : last? a.given? assigned with
  | some w =>
    rw [hlast] at h
    exact h
  | none =>
    rw [hlast, Option.none_or] at h
    exact weighed_written hread htable ha hw hdocument rfl h

/-- The sections of the settings are never missing. -/
theorem Address.exists_section {a : Address} (ha : a ∈ all) :
    ∃ v, (layered document assigned).get? a.group = some v := by
  obtain ⟨hkept, htable⟩ := get?_environment hassigned a.group
    (Setting.mergeAll document (.table standardLayer))
  cases h : assigned.any (touches a.group) with
  | true =>
    obtain ⟨l, hl⟩ := htable h
    exact ⟨_, hl⟩
  | false =>
    obtain ⟨l, hl⟩ := exists_standard a ha
    have hget := Setting.get?_mergeAll hdocument.names (.table standardLayer) a.group
    rw [layered, hkept h, hget, hl]
    cases Setting.findFolded a.group document <;> exact ⟨_, rfl⟩

/-- No layer but the document has a policy. -/
theorem ServerSettings.get?_policy : (layered document assigned).get? "policy" =
    (Setting.findFolded "policy" document).map Setting.lowered := by
  have huntouched : assigned.any (touches "policy") = false :=
    List.any_eq_false.mpr fun v _ => by simp [touches, all, capacity, diagnostics, level, json]
  have hnothing : (Setting.table standardLayer).get? "policy" = none := rfl
  rw [layered, (get?_environment hassigned "policy" _).1 huntouched,
    Setting.get?_mergeAll hdocument.names, hnothing, Option.or_none]
  exact Option.map_congr fun v hv => Setting.onto_none (hdocument.of_findFolded hv)

/-- What all layers are read as. -/
theorem ServerSettings.weighed_of_ofSource? {s : ServerSettings}
    (h : ServerSettings.ofSource? (layered document assigned) = some s) :
    Weighed (capacity.source? document assigned) Source.count?
        EngineSettings.standard.initialCapacity s.engine.initialCapacity ∧
      Weighed (diagnostics.source? document assigned) Source.flag?
        EngineSettings.standard.showsDiagnostics s.engine.showsDiagnostics ∧
      Weighed (level.source? document assigned) Source.text?
        LogSettings.standard.level s.log.level ∧
      Weighed (json.source? document assigned) Source.flag?
        LogSettings.standard.json s.log.json ∧
      s.policy.Follows document := by
  obtain ⟨v, hv⟩ : ∃ v, (layered document assigned).get? "engine" = some v :=
    exists_section hdocument hassigned (a := capacity) (by decide)
  obtain ⟨w, hw⟩ : ∃ v, (layered document assigned).get? "logging" = some v :=
    exists_section hdocument hassigned (a := level) (by decide)
  obtain ⟨l, hl⟩ : ∃ l, layered document assigned = .table l := by
    cases hlayered : layered document assigned with
    | table l => exact ⟨l, rfl⟩
    | _ =>
      rw [hlayered] at hv
      cases hv
  rw [hl] at h
  obtain ⟨hengine, hlog, hpolicy⟩ := sections_of_ofSource? h
  rw [← hl] at hengine hlog hpolicy
  rw [hv] at hengine
  rw [hw] at hlog
  rw [get?_policy hdocument hassigned] at hpolicy
  obtain ⟨hcapacity, hdiagnostics⟩ := EngineSettings.weighed_of_ofSource? hengine
  obtain ⟨hlevel, hjson⟩ := LogSettings.weighed_of_ofSource? hlog
  exact ⟨weighed_of_layered hdocument hassigned (by decide) (by rfl) (fun _ => rfl) hv hcapacity,
    weighed_of_layered hdocument hassigned (by decide) (by rfl) (fun _ => rfl) hv hdiagnostics,
    weighed_of_layered hdocument hassigned (by decide) (by rfl) (fun _ => rfl) hw hlevel,
    weighed_of_layered hdocument hassigned (by decide) (by rfl) (fun _ => rfl) hw hjson,
    PolicySettings.follows_of_weighed hdocument hpolicy⟩

end Layered

namespace ServerSettings

/-- **Each setting is that of its last variable, or else that of the document, or else standard**;
the policy is that of the document, and what is loaded is in order.  The variables alone give what
they give over an empty file. -/
theorem load_weighs (file : String) (assigned : List (String × String)) :
    (∀ document s, Setting.ofFile? file = some document → (Setting.table document).Apart →
      (∀ e ∈ document, '.' ∉ e.1.toList ∧ '[' ∉ e.1.toList) →
      (∀ v ∈ assigned, Address.Known v) → load file assigned = .ok s →
      Weighed (Address.capacity.source? document assigned) Source.count?
          EngineSettings.standard.initialCapacity s.engine.initialCapacity ∧
        Weighed (Address.diagnostics.source? document assigned) Source.flag?
          EngineSettings.standard.showsDiagnostics s.engine.showsDiagnostics ∧
        Weighed (Address.level.source? document assigned) Source.text?
          LogSettings.standard.level s.log.level ∧
        Weighed (Address.json.source? document assigned) Source.flag?
          LogSettings.standard.json s.log.json ∧
        s.policy.Follows document ∧ s.validate = .ok ()) ∧
    (Setting.ofFile? file = some [] → ofEnvironment assigned = load file assigned) := by
  constructor
  · intro document s hfile hdocument hplain hassigned h
    obtain ⟨hread, hvalid⟩ := (load_eq_ok_iff hfile hplain).mp h
    obtain ⟨hcapacity, hdiagnostics, hlevel, hjson, hpolicy⟩ :=
      weighed_of_ofSource? hdocument hassigned hread
    exact ⟨hcapacity, hdiagnostics, hlevel, hjson, hpolicy, hvalid⟩
  · intro hfile
    have hstack (bottom : List (String × Setting)) (layers : List (List (String × Setting))) :
        Setting.stack (bottom :: [] :: layers) = Setting.stack (bottom :: layers) := rfl
    simp only [load, hfile, ofEnvironment, ofLayers, hstack]

/-! ### A file with mixed names -/

/-- Settings with names in mixed case. -/
def mixed : String :=
  "Logging: {LEVEL: Debug}\npolicy: {checks: {Is Admin: {kind: deny}}}\n"

/-- What is written in it. -/
def mixedEntries : List (String × Setting) :=
  [("Logging", .table [("LEVEL", .text "Debug")]),
    ("policy", .table [("checks", .table [("Is Admin", .table [("kind", .text "deny")])])])]

/-- A variable of another program, and one for the log. -/
def mixedVariables : List (String × String) := [("PATH", "/bin"), ("RSPERM_LOGGING__JSON", "on")]

/-- What they come to. -/
def mixedSettings : ServerSettings :=
  ⟨.standard, ⟨"Debug", true⟩, ⟨.ofList [("is admin", .deny)], []⟩⟩

theorem ofFile?_mixed : Setting.ofFile? mixed = some mixedEntries := by
  have hlexemes : Yaml.lexemes? mixed = some
      [.blockMapping,
        .key, .scalar true "Logging", .value,
        .flowMapping, .key, .scalar true "LEVEL", .value, .scalar true "Debug", .flowMappingEnd,
        .key, .scalar true "policy", .value,
        .flowMapping, .key, .scalar true "checks", .value,
        .flowMapping, .key, .scalar true "Is Admin", .value,
        .flowMapping, .key, .scalar true "kind", .value, .scalar true "deny", .flowMappingEnd,
        .flowMappingEnd, .flowMappingEnd,
        .blockEnd] := by
    decide +kernel
  rw [Setting.ofFile?, Yaml.Node.documents?, hlexemes]
  rfl

theorem apart_mixedEntries : (Setting.table mixedEntries).Apart := by
  refine .table ?_ ?_
  · simp (disch := decide) only [mixedEntries, List.pairwise_cons, List.forall_mem_cons,
      Text.lower_of_plain]
    decide
  · simp only [mixedEntries, List.forall_mem_cons]
    exact ⟨.singleton (.other rfl), .singleton (.singleton (.singleton (.other rfl))),
      List.forall_mem_nil _⟩

theorem plain_mixedEntries : ∀ e ∈ mixedEntries, '.' ∉ e.1.toList ∧ '[' ∉ e.1.toList := by
  decide

/-- A file with nothing in it is a table without entries. -/
theorem ofFile?_empty : Setting.ofFile? "" = some [] := by
  have hlexemes : Yaml.lexemes? "" = some [] := by decide
  rw [Setting.ofFile?, Yaml.Node.documents?, hlexemes]
  rfl

theorem path?_json : Environment.path? "RSPERM_LOGGING__JSON" = some "logging.json" := by
  rw [Environment.path?, Text.lower_of_plain (by decide)]
  rfl

theorem path?_other : Environment.path? "PATH" = none := by
  rw [Environment.path?, Text.lower_of_plain (by decide)]
  rfl

theorem layered_mixed : layered mixedEntries mixedVariables = .table
    [("engine", .table
        [("cache_initial_capacity", .integer 64), ("include_diagnostics", .bool true)]),
      ("logging", .table [("json", .text "on"), ("level", .text "Debug")]),
      ("policy", .table [("checks", .table [("is admin", .table [("kind", .text "deny")])])])] := by
  have hnames : Text.lower "Logging" = "logging" ∧ Text.lower "LEVEL" = "level" ∧
      Text.lower "policy" = "policy" ∧ Text.lower "checks" = "checks" ∧
      Text.lower "Is Admin" = "is admin" ∧ Text.lower "kind" = "kind" ∧
      Text.lower "logging" = "logging" ∧ Text.lower "json" = "json" := by
    simp (disch := decide) only [Text.lower_of_plain]
    decide
  have hpath : PathStep.path "logging.json" = [.member "logging", .member "json"] := by decide
  rw [layered, Address.layOver_environment]
  simp only [mixedEntries, mixedVariables, standardLayer, List.foldl_cons, List.foldl_nil,
    Address.assign, path?_json, path?_other, hpath, Setting.lay, Setting.mergeAll, Setting.merge,
    Setting.updateMember, Setting.entriesOf, SortedMap.insertEntry, SortedMap.findEntry, hnames,
    String.reduceLT, String.reduceEq, reduceIte, Option.getD_none, Option.getD_some]
  rfl

theorem load_mixed : load mixed mixedVariables = .ok mixedSettings := by
  refine (load_eq_ok_iff ofFile?_mixed plain_mixedEntries).mpr ⟨?_, ?_⟩
  · rw [layered_mixed]
    rfl
  · have hlevel : mixedSettings.log.problem? = none := by
      rw [LogSettings.problem?, Text.lower_of_plain (by decide)]
      rfl
    rw [validate, problem?, hlevel]
    rfl

theorem known_mixedVariables : ∀ v ∈ mixedVariables, Address.Known v := by
  simp only [mixedVariables, List.forall_mem_cons, Address.known_iff, path?_other, path?_json]
  decide

theorem load_weighs_mixed : load mixed mixedVariables = .ok mixedSettings ∧
    Weighed (Address.capacity.source? mixedEntries mixedVariables) Source.count? 64 64 ∧
    Weighed (Address.diagnostics.source? mixedEntries mixedVariables) Source.flag? true true ∧
    Weighed (Address.level.source? mixedEntries mixedVariables) Source.text? "info" "Debug" ∧
    Weighed (Address.json.source? mixedEntries mixedVariables) Source.flag? false true ∧
    mixedSettings.policy.Follows mixedEntries ∧ mixedSettings.validate = .ok () ∧
    ofEnvironment mixedVariables = load "" mixedVariables := by
  obtain ⟨hcapacity, hdiagnostics, hlevel, hjson, hpolicy, hvalid⟩ :=
    (load_weighs mixed mixedVariables).1 mixedEntries mixedSettings ofFile?_mixed
      apart_mixedEntries plain_mixedEntries known_mixedVariables load_mixed
  exact ⟨load_mixed, hcapacity, hdiagnostics, hlevel, hjson, hpolicy, hvalid,
    (load_weighs "" mixedVariables).2 ofFile?_empty⟩

/-! ### A file with lists -/

/-- Two sections that are lists, and a level that is an empty table. -/
def listed : String :=
  "engine: [7, false]\nlogging: {level: {}}\npolicy: [{Is Admin: {kind: allow}}, []]\n"

/-- What is written in it. -/
def listedEntries : List (String × Setting) :=
  [("engine", .list [.integer 7, .bool false]), ("logging", .table [("level", .table [])]),
    ("policy", .list [.table [("Is Admin", .table [("kind", .text "allow")])], .list []])]

/-- A variable for the engine. -/
def roomForOne : String × String := ("RSPERM_ENGINE__CACHE_INITIAL_CAPACITY", "1")

/-- What they come to, with settings for the engine. -/
def listedSettings (engine : EngineSettings) : ServerSettings :=
  ⟨engine, .standard, ⟨.ofList [("Is Admin", .allow)], []⟩⟩

theorem ofFile?_listed : Setting.ofFile? listed = some listedEntries := by
  have hlexemes : Yaml.lexemes? listed = some
      [.blockMapping,
        .key, .scalar true "engine", .value,
        .flowSequence, .scalar true "7", .flowEntry, .scalar true "false", .flowSequenceEnd,
        .key, .scalar true "logging", .value,
        .flowMapping, .key, .scalar true "level", .value, .flowMapping, .flowMappingEnd,
        .flowMappingEnd,
        .key, .scalar true "policy", .value,
        .flowSequence, .flowMapping, .key, .scalar true "Is Admin", .value,
        .flowMapping, .key, .scalar true "kind", .value, .scalar true "allow", .flowMappingEnd,
        .flowMappingEnd, .flowEntry, .flowSequence, .flowSequenceEnd, .flowSequenceEnd,
        .blockEnd] := by
    decide +kernel
  rw [Setting.ofFile?, Yaml.Node.documents?, hlexemes]
  rfl

theorem apart_listedEntries : (Setting.table listedEntries).Apart := by
  have hempty : (Setting.table []).Apart := .table .nil (List.forall_mem_nil _)
  refine .table ?_ ?_
  · simp (disch := decide) only [listedEntries, List.pairwise_cons, List.forall_mem_cons,
      Text.lower_of_plain]
    decide
  · simp only [listedEntries, List.forall_mem_cons]
    exact ⟨.other rfl, .singleton hempty, .other rfl, List.forall_mem_nil _⟩

theorem plain_listedEntries : ∀ e ∈ listedEntries, '.' ∉ e.1.toList ∧ '[' ∉ e.1.toList := by
  decide

theorem path?_roomForOne : Environment.path? roomForOne.1 = some Address.capacity.path := by
  rw [Environment.path?, Text.lower_of_plain (by decide)]
  rfl

theorem mergeAll_listed : Setting.mergeAll listedEntries (.table standardLayer) = .table
    [("engine", .list [.integer 7, .bool false]),
      ("logging", .table [("json", .bool false), ("level", .text "info")]),
      ("policy", .list [.table [("Is Admin", .table [("kind", .text "allow")])], .list []])] := by
  have hnames : Text.lower "engine" = "engine" ∧ Text.lower "logging" = "logging" ∧
      Text.lower "level" = "level" ∧ Text.lower "policy" = "policy" := by
    simp (disch := decide) only [Text.lower_of_plain]
    decide
  simp only [listedEntries, standardLayer, Setting.mergeAll, Setting.merge,
    Setting.updateMember, Setting.entriesOf, SortedMap.insertEntry, SortedMap.findEntry, hnames,
    String.reduceLT, String.reduceEq, reduceIte, Option.getD_some]
  rfl

theorem validate_listed (engine : EngineSettings) :
    (listedSettings engine).validate = .ok () := by
  have hlevel : LogSettings.standard.problem? = none := by
    rw [LogSettings.problem?, Text.lower_of_plain (by decide)]
    rfl
  rw [validate, problem?, listedSettings, hlevel]
  rfl

theorem load_listed : load listed [] = .ok (listedSettings ⟨7, false⟩) := by
  refine (load_eq_ok_iff ofFile?_listed plain_listedEntries).mpr ⟨?_, validate_listed _⟩
  rw [layered, mergeAll_listed]
  rfl

theorem load_listed_roomForOne :
    load listed [roomForOne] = .ok (listedSettings ⟨1, true⟩) := by
  refine (load_eq_ok_iff ofFile?_listed plain_listedEntries).mpr ⟨?_, validate_listed _⟩
  obtain ⟨hpath, hgroup, hname⟩ := Address.path_of_mem Address.capacity (by decide)
  rw [layered, mergeAll_listed, Address.layOver_environment, List.foldl_cons, List.foldl_nil,
    Address.assign, path?_roomForOne]
  dsimp only
  rw [hpath, Setting.lay, Setting.updateMember, Setting.lay, Setting.merge_eq,
    Setting.updateMember, hgroup, hname]
  · rfl
  · exact List.cons_ne_nil _ _

/-- **What is written in a list is forgotten** once a variable gives another setting of its section:
nothing that might count as written explains both outcomes.  The names in a policy that is a list
are not changed, and an empty table is no value. -/
theorem list_forgotten :
    Setting.ofFile? listed = some listedEntries ∧ (Setting.table listedEntries).Apart ∧
    (∀ e ∈ listedEntries, '.' ∉ e.1.toList ∧ '[' ∉ e.1.toList) ∧
    Address.Known roomForOne ∧
    (¬ ∃ written : Option Setting, ∀ assigned ∈ [[], [roomForOne]], ∀ s,
      load listed assigned = .ok s →
      Weighed ((last? Address.diagnostics.given? assigned).or written) Source.flag?
        EngineSettings.standard.showsDiagnostics s.engine.showsDiagnostics) ∧
    (¬ ∀ s, load listed [] = .ok s →
      Weighed (some (.table [])) Source.text? LogSettings.standard.level s.log.level) ∧
    ¬ ∀ s, load listed [] = .ok s → ∀ name ∈ s.policy.checks.names, Text.lower name = name := by
  have hknown : Address.Known roomForOne :=
    Address.known_iff.mpr (.inr ⟨Address.capacity, by decide, path?_roomForOne⟩)
  refine ⟨ofFile?_listed, apart_listedEntries, plain_listedEntries, hknown, ?_, ?_, ?_⟩
  · rintro ⟨written, h⟩
    have hgiven : Address.diagnostics.given? roomForOne = none := by
      rw [Address.given?_of_path (by decide) (by decide) path?_roomForOne]
      rfl
    have halone : Weighed written Source.flag? true false := h [] (by simp) _ load_listed
    have hbeside := h [roomForOne] (by simp) _ load_listed_roomForOne
    rw [last?, last?, hgiven] at hbeside
    exact absurd (halone.eq hbeside) (by decide)
  · intro h
    cases h _ load_listed
  · intro h
    have hname := h _ load_listed "Is Admin" (by decide)
    rw [Text.lower_of_plain (by decide)] at hname
    exact absurd hname (by decide)

end ServerSettings

end AccessRules
