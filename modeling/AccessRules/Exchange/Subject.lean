/-
# Resources, changes, users and categories as JSON

A resource without an instance gets a new one, so reading a resource draws on a supply of
identifiers.  A category is the name of a built-in one, or an object whose only field names the
category: null under a built-in name, the name itself under `Custom`.
-/
import AccessRules.Exchange.Record
import AccessRules.Subject.Basic

namespace AccessRules

/-! ## 1. Categories -/

namespace Category

/-- The built-in category with a written name. -/
def ofWritten? (name : String) : Option Category :=
  if name = "Read" then some .read
  else if name = "Create" then some .create
  else if name = "Update" then some .update
  else if name = "Delete" then some .delete
  else none

/-- Reads a category. -/
def ofJson? : Json → Option Category
  | .string name => ofWritten? name
  | .object [("Custom", .string name)] => some (.custom name)
  | .object [(name, .null)] => ofWritten? name
  | _ => none

/-- Writes a category. -/
def toJson : Category → Json
  | read => .string "Read"
  | create => .string "Create"
  | update => .string "Update"
  | delete => .string "Delete"
  | custom name => .object [("Custom", .string name)]

end Category

/-! ## 2. Resources -/

/-- Reads an identifier. -/
def InstanceId.ofJson? (v : Json) : Option InstanceId := v.string?.bind InstanceId.parse?

namespace Resource

/-- Reads the instance of a resource, or draws a new one where there is none. -/
def instanceOf? (m : Members Json) (supply : Supply) : Option (InstanceId × Supply) :=
  match m.find? 2 "instance" with
  | some v => (InstanceId.ofJson? v).map (·, supply)
  | none => some supply.draw

/-- Reads a resource. -/
def ofJson? (v : Json) (supply : Supply) : Option (Resource × Supply) := do
  let m ← v.members?
  if m.fits 4 then
    let typeName ← m.required 0 "type_name" Json.string?
    let id ← m.optional 1 "id" Json.string?
    let (instanceId, supply) ← instanceOf? m supply
    let attributes ← m.defaulted 3 "attributes" .empty (Source.tableOf? some)
    some (⟨typeName, id, instanceId, attributes⟩, supply)
  else none

/-- Writes a resource. -/
def toJson (r : Resource) : Json :=
  .object [("attributes", .ofMap r.attributes), ("id", .ofText? r.id),
    ("instance", .string r.instanceId.text), ("type_name", .string r.typeName)]

end Resource

/-! ## 3. Changes -/

namespace Change

/-- Reads a change. -/
def ofJson? (v : Json) (supply : Supply) : Option (Change × Supply) := do
  let m ← v.members?
  if m.fits 4 then
    let resource ← m.required 0 "resource" some
    let (resource, supply) ← Resource.ofJson? resource supply
    let field ← m.required 1 "field" Json.string?
    let before ← m.required 2 "original" some
    let after ← m.required 3 "modified" some
    some (⟨resource, field, before, after⟩, supply)
  else none

/-- Writes a change. -/
def toJson (c : Change) : Json :=
  .object [("field", .string c.field), ("modified", c.after), ("original", c.before),
    ("resource", c.resource.toJson)]

end Change

/-! ## 4. Users -/

namespace User

/-- Reads a user. -/
def ofJson? (v : Json) : Option User := do
  let m ← v.members?
  if m.fits 2 then
    let name ← m.optional 0 "name" Json.string?
    let roles ← m.defaulted 1 "roles" [] (Source.listOf? Json.string?)
    some ⟨name, .ofNames roles⟩
  else none

/-- Writes a user. -/
def toJson (u : User) : Json :=
  .object [("name", .ofText? u.name), ("roles", .array (u.roles.names.map .string))]

end User

end AccessRules
