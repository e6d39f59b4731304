/-
# Requests and decisions as JSON
-/
import AccessRules.Exchange.Subject
import AccessRules.Service.Request

namespace AccessRules

/-! ## 1. Requests -/

/-- Reads a change that may be null. -/
def Change.nullableOfJson? (v : Json) (supply : Supply) : Option (Option Change × Supply) :=
  if v.isNull then some (none, supply)
  else (Change.ofJson? v supply).map fun (c, supply) => (some c, supply)

namespace Request

/-- Reads a request. -/
def ofJson? (v : Json) (supply : Supply) : Option (Request × Supply) := do
  let m ← v.members?
  if m.fits 4 then
    let resource ← m.required 0 "resource" some
    let (resource, supply) ← Resource.ofJson? resource supply
    let category ← m.required 1 "category" Category.ofJson?
    let field ← m.defaulted 2 "field" none (Source.nullable? Json.string?)
    let change ← m.defaulted 3 "change" .null some
    let (change, supply) ← Change.nullableOfJson? change supply
    some (⟨resource, category, field, change⟩, supply)
  else none

/-- Writes a request. -/
def toJson (r : Request) : Json :=
  .object [("category", r.category.toJson), ("change", (r.change.map Change.toJson).getD .null),
    ("field", .ofText? r.field), ("resource", r.resource.toJson)]

end Request

/-! ## 2. Decisions -/

namespace Decision

/-- Reads a decision. -/
def ofJson? (v : Json) : Option Decision := do
  let m ← v.members?
  if m.fits 3 then
    let allowed ← m.required 0 "allowed" Json.bool?
    let diagnostic ← m.optional 1 "diagnostic" Json.string?
    let error ← m.optional 2 "error" Json.string?
    some ⟨allowed, diagnostic, error⟩
  else none

/-- Writes a decision. -/
def toJson (d : Decision) : Json :=
  .object [("allowed", .bool d.allowed), ("diagnostic", .ofText? d.diagnostic),
    ("error", .ofText? d.error)]

/-- Reads the decisions of a batch. -/
def listOfJson? (v : Json) : Option (List Decision) := do
  let m ← v.members?
  if m.fits 1 then m.required 0 "decisions" (Source.listOf? ofJson?) else none

/-- Writes the decisions of a batch. -/
def listToJson (ds : List Decision) : Json := .object [("decisions", .array (ds.map toJson))]

end Decision

end AccessRules
