/-
# Settings in exchanged values

Settings are read from JSON and from settings files alike.  Missing sections and members take
their standard values.  A ready-made check says its kind in a member of its own; its kind and role
are never converted.
-/
import AccessRules.Exchange.Record
import AccessRules.Settings.Basic

namespace AccessRules

variable {ν : Type} [Source ν]

/-! ## 1. Checks -/

namespace CheckBinding

/-- Reads a ready-made check. -/
def ofSource? (v : ν) : Option CheckBinding := do
  let m ← Source.members? v
  let kind ← m.required 0 "kind" Source.exactText?
  if kind = "allow" then if m.atMost 1 then some allow else none
  else if kind = "deny" then if m.atMost 1 then some deny else none
  else if kind = "role" then
    if m.atMost 2 then (m.defaulted 1 "role" "" Source.exactText?).map role else none
  else none

/-- Writes a ready-made check. -/
def toJson : CheckBinding → Json
  | allow => .object [("kind", .string "allow")]
  | deny => .object [("kind", .string "deny")]
  | role name => .object [("kind", .string "role"), ("role", .string name)]

end CheckBinding

/-! ## 2. The policy -/

/-- Reads rule texts by category. -/
def ruleTextsOf? (v : ν) : Option (SortedMap String) := Source.tableOf? Source.text? v

/-- Writes rule texts by category. -/
def ruleTextsJson (m : SortedMap String) : Json :=
  .object (m.entries.map fun e => (e.1, .string e.2))

namespace EntityRules

/-- Reads the rules of an entity. -/
def ofSource? (v : ν) : Option EntityRules := do
  let m ← Source.members? v
  if m.fits 3 then
    let name ← m.required 0 "name" Source.text?
    let permissions ← m.defaulted 1 "permissions" .empty ruleTextsOf?
    let fields ← m.defaulted 2 "fields" .empty (Source.tableOf? ruleTextsOf?)
    some ⟨name, permissions, fields⟩
  else none

/-- Writes the rules of an entity. -/
def toJson (e : EntityRules) : Json :=
  .object [("fields", .object (e.fields.entries.map fun f => (f.1, ruleTextsJson f.2))),
    ("name", .string e.name), ("permissions", ruleTextsJson e.permissions)]

end EntityRules

namespace PolicySettings

/-- Reads a policy. -/
def ofSource? (v : ν) : Option PolicySettings := do
  let m ← Source.members? v
  if m.fits 2 then
    let checks ← m.defaulted 0 "checks" .empty (Source.tableOf? CheckBinding.ofSource?)
    let entities ← m.defaulted 1 "entities" [] (Source.listOf? EntityRules.ofSource?)
    some ⟨checks, entities⟩
  else none

/-- Writes a policy. -/
def toJson (p : PolicySettings) : Json :=
  .object [("checks", .object (p.checks.entries.map fun c => (c.1, c.2.toJson))),
    ("entities", .array (p.entities.map EntityRules.toJson))]

end PolicySettings

/-! ## 3. All settings -/

/-- Reads the settings of the engine. -/
def EngineSettings.ofSource? (v : ν) : Option EngineSettings := do
  let m ← Source.members? v
  if m.fits 2 then
    let capacity ← m.defaulted 0 "cache_initial_capacity" standard.initialCapacity Source.count?
    let diagnostics ← m.defaulted 1 "include_diagnostics" standard.showsDiagnostics Source.flag?
    some ⟨capacity, diagnostics⟩
  else none

/-- Writes the settings of the engine. -/
def EngineSettings.toJson (e : EngineSettings) : Json :=
  .object [("cache_initial_capacity", .integer e.initialCapacity),
    ("include_diagnostics", .bool e.showsDiagnostics)]

/-- Reads the settings of the log. -/
def LogSettings.ofSource? (v : ν) : Option LogSettings := do
  let m ← Source.members? v
  if m.fits 2 then
    let level ← m.defaulted 0 "level" standard.level Source.text?
    let json ← m.defaulted 1 "json" standard.json Source.flag?
    some ⟨level, json⟩
  else none

/-- Writes the settings of the log. -/
def LogSettings.toJson (l : LogSettings) : Json :=
  .object [("json", .bool l.json), ("level", .string l.level)]

namespace ServerSettings

/-- Reads all settings. -/
def ofSource? (v : ν) : Option ServerSettings := do
  let m ← Source.members? v
  if m.fits 3 then
    let engine ← m.defaulted 0 "engine" .standard EngineSettings.ofSource?
    let log ← m.defaulted 1 "logging" .standard LogSettings.ofSource?
    let policy ← m.defaulted 2 "policy" .standard PolicySettings.ofSource?
    some ⟨engine, log, policy⟩
  else none

/-- Writes all settings. -/
def toJson (s : ServerSettings) : Json :=
  .object [("engine", s.engine.toJson), ("logging", s.log.toJson), ("policy", s.policy.toJson)]

end ServerSettings

end AccessRules
