/-
# Layers of settings

Each layer is laid over those before it.  Where a path leads to a value that is no table, the value
takes the place of what is there; a table is merged, entry by entry.  An empty table changes
nothing where there is something.  Names along a path count in lower case; names within lists stay
as they are.

A path names a setting from the outermost table inwards: a name, and then names after points and
places of lists in brackets, as in `a.b[0]`.  The names of a path consist of ASCII letters and
digits, blanks, `_` and `-`.  A place below zero counts from the end of the list.
-/
import AccessRules.Settings.Value

namespace AccessRules

/-! ## 1. Paths -/

/-- One step of a path. -/
inductive PathStep where
  | member (name : String)
  | place (index : Int)
  deriving DecidableEq

namespace PathStep

/-- Whether a character can stand in a name of a path. -/
def isNameChar (c : Char) : Bool := c.isAlphanum || c == ' ' || c == '_' || c == '-'

/-- A name at the start of the text. -/
def name? (cs : List Char) : Option (PathStep × List Char) :=
  match cs.takeWhile isNameChar with
  | [] => none
  | word => some (.member (String.ofList word), cs.dropWhile isNameChar)

/-- Whether a character may stand around a place. -/
def isPadding (c : Char) : Bool := c == ' ' || c == '\t'

/-- The greatest place. -/
def maxPlace : Nat := Nat.pow 2 63 - 1

/-- A place and its closing bracket at the start of the text. -/
def place? (cs : List Char) : Option (PathStep × List Char) :=
  let (negative, cs) :=
    match cs.dropWhile isPadding with
    | '-' :: rest => (true, rest)
    | rest => (false, rest)
  match Json.digitRun cs with
  | ([], _) => none
  | (digits, rest) =>
    let n := Json.naturalOf digits
    match rest.dropWhile isPadding with
    | ']' :: rest =>
      if n ≤ maxPlace then some (.place (if negative then -(n : Int) else n), rest) else none
    | _ => none

/-- The steps that make up all of the text after the first name. -/
def further? (fuel : Nat) (cs : List Char) : Option (List PathStep) :=
  match fuel, cs with
  | _, [] => some []
  | 0, _ => none
  | fuel + 1, '.' :: cs =>
    match name? cs with
    | some (step, rest) => (further? fuel rest).map (step :: ·)
    | none => none
  | fuel + 1, '[' :: cs =>
    match place? cs with
    | some (step, rest) => (further? fuel rest).map (step :: ·)
    | none => none
  | _, _ => none

/-- The path of a text. -/
def path? (s : String) : Option (List PathStep) :=
  match name? s.toList with
  | some (step, rest) => (further? rest.length rest).map (step :: ·)
  | none => none

/-- The path of a text; a text that is no path is a single name. -/
def path (s : String) : List PathStep := (path? s).getD [.member s]

end PathStep

namespace Setting

/-! ## 2. Tables and lists on the way -/

/-- The entries of a table; any other value gives way to an empty table. -/
def entriesOf : Setting → List (String × Setting)
  | table l => l
  | _ => []

/-- The items of a list; any other value gives way to an empty list. -/
def itemsOf : Setting → List Setting
  | list l => l
  | _ => []

/-- Changes the value under a name, which starts from `fallback` where there is none. -/
def updateMember (s : Setting) (name : String) (fallback : Setting) (f : Setting → Setting) :
    Setting :=
  let entries := s.entriesOf
  let key := Text.lower name
  table (SortedMap.insertEntry key (f ((SortedMap.findEntry key entries).getD fallback)) entries)

/-- Changes the value at a place, up to which the list is filled with nulls. -/
def updatePlace (s : Setting) (index : Int) (f : Setting → Setting) : Setting :=
  let items := s.itemsOf
  let place := (if 0 ≤ index then index else items.length + index).toNat
  let items := items ++ List.replicate (place + 1 - items.length) null
  list (items.set place (f (items[place]?.getD null)))

/-! ## 3. Merging -/

mutual

/-- Lays a value under a name over a table. -/
def merge (name : String) : Setting → Setting → Setting
  | table incoming, s => s.updateMember name (table []) (mergeAll incoming)
  | v, s => s.updateMember name null fun _ => v

/-- Lays the entries of a table over a value. -/
def mergeAll : List (String × Setting) → Setting → Setting
  | [], s => s
  | (name, v) :: rest, s => mergeAll rest (merge name v s)

end

/-- Lays a value over what a path leads to. -/
def lay (v : Setting) : List PathStep → Setting → Setting
  | [], _ => v
  | [.member name], s => merge name v s
  | .member name :: steps, s => s.updateMember name null (lay v steps)
  | .place index :: steps, s => s.updatePlace index (lay v steps)

/-- Lays a layer over what is there; the names of a layer are paths. -/
def layOver (layer : List (String × Setting)) (s : Setting) : Setting :=
  layer.foldl (fun s e => lay e.2 (PathStep.path e.1) s) s

/-- The layers one over the other, the first at the bottom. -/
def stack (layers : List (List (String × Setting))) : Setting :=
  layers.foldl (fun s layer => layOver layer s) (table [])

end Setting

end AccessRules
