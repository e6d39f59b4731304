/-
# The dictionary of declared rules

A dictionary binds check names to implementations and says which rule text is declared where: for
a type as a whole or for one of its fields, category by category.  Names of checks are compared
with the white space between their words collapsed.  Whatever is declared last under a key counts,
and a type declared again replaces the earlier declaration as a whole.

Implementations lie on a shelf in the order in which they came, and an implementation's number is
its place there.  So a number stands for one procedure, however many names are bound to it.
-/
import AccessRules.Check.Basic
import AccessRules.Data.Assoc

namespace AccessRules

/-- The rule texts of one type or field, by category. -/
abbrev RuleTexts := Assoc Category String

/-! ## 1. Declarations of one type -/

/-- The rules declared for one type. -/
structure Declaration where
  typeName : String
  rules : RuleTexts
  fields : SortedMap RuleTexts

namespace Declaration

/-- A type without rules. -/
def bare (typeName : String) : Declaration := ⟨typeName, [], .empty⟩

/-- Declares the rule of the type as a whole for a category. -/
def permission (d : Declaration) (category : Category) (text : String) : Declaration :=
  { d with rules := Assoc.insert category text d.rules }

/-- Declares a field, with the rules it has so far. -/
def field (d : Declaration) (name : String) : Declaration :=
  { d with fields := d.fields.update name [] id }

/-- Declares the rule of a field for a category. -/
def fieldPermission (d : Declaration) (name : String) (category : Category) (text : String) :
    Declaration :=
  { d with fields := d.fields.update name [] (Assoc.insert category text) }

end Declaration

/-! ## 2. The dictionary -/

/-- Declared rules and bound checks. -/
structure Dictionary where
  /-- The implementations, each at the place that is its number. -/
  shelf : List Procedure
  /-- The numbers of the implementations by collapsed name. -/
  names : SortedMap CheckId
  types : SortedMap Declaration

namespace Dictionary

/-- The dictionary without rules and checks. -/
def empty : Dictionary := ⟨[], .empty, .empty⟩

/-- The implementation with a number. -/
def implementation? (d : Dictionary) (id : CheckId) : Option Check :=
  (d.shelf[id]?).map fun p => ⟨id, p⟩

/-- Puts a new implementation on the shelf and binds a name to it. -/
def addCheck (d : Dictionary) (name : String) (p : Procedure) : Dictionary :=
  { d with shelf := d.shelf ++ [p], names := d.names.insert (Text.collapse name) d.shelf.length }

/-- Binds a further name to an implementation on the shelf. -/
def addName (d : Dictionary) (name : String) (id : CheckId) : Dictionary :=
  { d with names := d.names.insert (Text.collapse name) id }

/-- Declares a type, in place of an earlier declaration of it. -/
def addType (d : Dictionary) (declaration : Declaration) : Dictionary :=
  { d with types := d.types.insert declaration.typeName declaration }

/-- The check bound to a name. -/
def check? (d : Dictionary) (name : String) : Option Check :=
  (d.names.find? (Text.collapse name)).bind d.implementation?

/-- The bound names in ascending order. -/
def checkNames (d : Dictionary) : List String := d.names.names

/-- Whether a type is declared. -/
def declares (d : Dictionary) (typeName : String) : Bool := d.types.contains typeName

/-- The rule text of a type as a whole. -/
def ruleText? (d : Dictionary) (typeName : String) (category : Category) : Option String :=
  (d.types.find? typeName).bind fun t => Assoc.find? category t.rules

/-- The rule text of a field. -/
def fieldRuleText? (d : Dictionary) (typeName field : String) (category : Category) :
    Option String :=
  (d.types.find? typeName).bind fun t =>
    (t.fields.find? field).bind fun rules => Assoc.find? category rules

/-- The fields with a rule of their own for a category, in ascending order. -/
def fieldsWithRule (d : Dictionary) (typeName : String) (category : Category) : List String :=
  match d.types.find? typeName with
  | none => []
  | some t =>
    (t.fields.entries.filter fun e => (Assoc.find? category e.2).isSome).map (·.1)

/-- A bound check is the implementation with its number. -/
theorem implementation?_of_check? {d : Dictionary} {name : String} {c : Check}
    (h : d.check? name = some c) : d.implementation? c.id = some c := by
  rw [check?, Option.bind_eq_some_iff] at h
  obtain ⟨id, -, hid⟩ := h
  rw [implementation?, Option.map_eq_some_iff] at hid
  obtain ⟨p, hp, rfl⟩ := hid
  rw [implementation?, hp]
  rfl

/-- The procedure of a bound check lies on the shelf. -/
theorem mem_shelf_of_check? {d : Dictionary} {name : String} {c : Check}
    (h : d.check? name = some c) : c.procedure ∈ d.shelf := by
  have hfound := implementation?_of_check? h
  rw [implementation?, Option.map_eq_some_iff] at hfound
  obtain ⟨p, hp, hc⟩ := hfound
  rw [← hc]
  exact List.mem_of_getElem? hp

/-- A number stands for one procedure. -/
theorem procedure_eq_of_id_eq {d : Dictionary} {m n : String} {c c' : Check}
    (hc : d.check? m = some c) (hc' : d.check? n = some c') (h : c.id = c'.id) : c = c' := by
  have hfound := implementation?_of_check? hc
  rw [h, implementation?_of_check? hc'] at hfound
  exact (Option.some.inj hfound).symm

end Dictionary

end AccessRules
