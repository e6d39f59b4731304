/-
# Who asks for what

Four categories of permission are built in; every other name is a category of the user's own, kept
in upper case when it is made from a text.  `Category.parse?` recognises the built-in names in any
ASCII case and ignores white space around a name.

A user may have a name and holds a set of roles.  The anonymous user has neither.

A resource has a type, an id once it is stored, and attributes that checks may inspect.  Results
of checks are kept by its identity: type and id of a stored resource, type and instance of one
that has no id yet.

A change replaces the value of one field.  Its key holds the field and the compact text of both
values; the resource that the change names is no part of it.
-/
import AccessRules.Data.SortedMap
import AccessRules.Json.Value
import AccessRules.Subject.Instance
import AccessRules.Text.Case
import AccessRules.Text.Outline

namespace AccessRules

/-! ## 1. Categories -/

/-- The kind of operation that is asked for. -/
inductive Category where
  | read
  | create
  | update
  | delete
  | custom (name : String)
  deriving DecidableEq

namespace Category

/-- A category of the user's own. -/
def ofCustom (name : String) : Category := .custom (Text.upper name)

/-- The name that messages show. -/
def name : Category → String
  | .read => "READ"
  | .create => "CREATE"
  | .update => "UPDATE"
  | .delete => "DELETE"
  | .custom name => name

/-- The built-in category of a name in lower case. -/
def builtin? (name : String) : Option Category :=
  if name = "read" then some .read
  else if name = "create" then some .create
  else if name = "update" then some .update
  else if name = "delete" then some .delete
  else none

/-- The message for a text that names no category. -/
def emptyMessage : String := "permission category cannot be empty"

/-- The category that a text names, or nothing for a blank text. -/
def parse? (text : String) : Option Category :=
  if Text.isBlank text then none
  else
    let name := Text.trim text
    match builtin? (Text.lowerAscii name) with
    | some c => some c
    | none => some (ofCustom name)

end Category

/-! ## 2. Users -/

/-- The principal who asks. -/
structure User where
  name : Option String
  roles : NameSet
  deriving DecidableEq

namespace User

/-- The user without name and roles. -/
def anonymous : User := ⟨none, .empty⟩

/-- Whether the user holds a role. -/
def holds (u : User) (role : String) : Bool := u.roles.contains role

/-- The outline of a user. -/
def outline (u : User) : String :=
  Text.outline "User" [("name", Text.outlineText? u.name),
    ("roles", Text.outlineSet (u.roles.names.map Text.quoted))]

end User

/-! ## 3. Resources -/

/-- The data that a permission is asked for. -/
structure Resource where
  typeName : String
  id : Option String
  instanceId : InstanceId
  attributes : SortedMap Json

/-- What tells one resource from another within a request. -/
inductive ResourceIdentity where
  | persisted (typeName id : String)
  | transient (typeName : String) (instanceId : InstanceId)
  deriving DecidableEq

namespace Resource

/-- The identity of a resource. -/
def identity (r : Resource) : ResourceIdentity :=
  match r.id with
  | some id => .persisted r.typeName id
  | none => .transient r.typeName r.instanceId

/-- Equality of all parts, attributes by value. -/
def same (a b : Resource) : Bool :=
  a.typeName == b.typeName && a.id == b.id && decide (a.instanceId = b.instanceId) &&
    Json.sameFields a.attributes.entries b.attributes.entries

/-- The text that messages show. -/
def text (r : Resource) : String :=
  "PersistentResource \x7b type=" ++ r.typeName ++ ", id=" ++ r.id.getD "null" ++ " \x7d"

end Resource

/-! ## 4. Changes -/

/-- A new value for one field of a resource, with the value before it. -/
structure Change where
  resource : Resource
  field : String
  before : Json
  after : Json

/-- What tells one change from another within a request. -/
structure ChangeKey where
  field : String
  before : String
  after : String
  deriving DecidableEq

namespace Change

/-- The key of a change. -/
def key (c : Change) : ChangeKey := ⟨c.field, c.before.text, c.after.text⟩

/-- Equality of all parts, values by value. -/
def same (a b : Change) : Bool :=
  a.resource.same b.resource && a.field == b.field && a.before.same b.before &&
    a.after.same b.after

/-- The text that messages show. -/
def text (c : Change) : String :=
  "ChangeSpec \x7b resource=" ++ c.resource.text ++ ", field=" ++ c.field ++ ", original=" ++
    c.before.shown ++ ", modified=" ++ c.after.shown ++ "\x7d"

end Change

end AccessRules
