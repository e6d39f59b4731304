/-
# Records in exchanged values

A record comes as an object whose fields are its members, or as an array that lists the members
in their declared order.  A member is *required*, *defaulted* (a value stands in for a missing
one) or *optional* (null means that there is none).  An optional member may be missing from an
object, but not from an array.

What a kind of value offers for this is a `Source`.  JSON is exact about types; other sources may
convert one scalar into another.
-/
import AccessRules.Json.Value

namespace AccessRules

/-- The members of a record, by name or by place. -/
inductive Members (ν : Type) where
  | named (fields : List (String × ν))
  | listed (items : List ν)

/-- How values of one kind present records, lists, tables and scalars. -/
class Source (ν : Type) where
  members? : ν → Option (Members ν)
  items? : ν → Option (List ν)
  table? : ν → Option (List (String × ν))
  /-- The text that the value is or converts to. -/
  text? : ν → Option String
  /-- The text that the value is. -/
  exactText? : ν → Option String
  flag? : ν → Option Bool
  count? : ν → Option Nat
  isNull : ν → Bool
  /-- Whether a record takes an array with more items than it has members. -/
  passesOverItems : Bool

namespace Members

variable {ν α : Type} [Source ν]

/-- The value of a member. -/
def find? (m : Members ν) (place : Nat) (name : String) : Option ν :=
  match m with
  | named fields => SortedMap.findEntry name fields
  | listed items => items[place]?

/-- Whether an array lists at most this many members. -/
def atMost (m : Members ν) (n : Nat) : Bool :=
  match m with
  | named _ => true
  | listed items => items.length ≤ n

/-- Whether the members can be those of a record of this size. -/
def fits (m : Members ν) (n : Nat) : Bool := Source.passesOverItems ν || m.atMost n

/-- A member that must be there. -/
def required (m : Members ν) (place : Nat) (name : String) (read : ν → Option α) : Option α :=
  (m.find? place name).bind read

/-- A member for which a value stands in where it is missing. -/
def defaulted (m : Members ν) (place : Nat) (name : String) (fallback : α)
    (read : ν → Option α) : Option α :=
  match m.find? place name with
  | some v => read v
  | none => some fallback

end Members

namespace Source

variable {ν α : Type} [Source ν]

/-- Null, or a value. -/
def nullable? (read : ν → Option α) (v : ν) : Option (Option α) :=
  if isNull v then some none else (read v).map some

/-- A list of values. -/
def listOf? (read : ν → Option α) (v : ν) : Option (List α) := (items? v).bind (·.mapM read)

/-- A table of values. -/
def tableOf? (read : ν → Option α) (v : ν) : Option (SortedMap α) :=
  (table? v).bind fun entries =>
    (entries.mapM fun e => (read e.2).map (e.1, ·)).map SortedMap.ofList

end Source

/-- A member that may be null, and missing from an object. -/
def Members.optional {ν α : Type} [Source ν] (m : Members ν) (place : Nat) (name : String)
    (read : ν → Option α) : Option (Option α) :=
  match m with
  | .named _ => m.defaulted place name none (Source.nullable? read)
  | .listed _ => m.required place name (Source.nullable? read)

namespace Json

/-- The members of an object or an array. -/
def members? : Json → Option (Members Json)
  | object fields => some (.named fields)
  | array items => some (.listed items)
  | _ => none

/-- The natural number that the value is. -/
def count? : Json → Option Nat
  | integer i => if 0 ≤ i then some i.toNat else none
  | _ => none

/-- Whether the value is null. -/
def isNull : Json → Bool
  | null => true
  | _ => false

instance : Source Json where
  members? := members?
  items? := items?
  table? := fields?
  text? := string?
  exactText? := string?
  flag? := bool?
  count? := count?
  isNull := isNull
  passesOverItems := false

end Json

end AccessRules
