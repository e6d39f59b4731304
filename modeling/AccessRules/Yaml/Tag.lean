/-
# Tags

A tag says of which kind a node is.  It is written as a handle with a suffix, or as a whole between
angle brackets.  A directive says what a handle stands for; without one, `!!` stands for the lead
of the core kinds, a single mark for itself, and a handle with a name for nothing.

Characters of a suffix may be escaped byte by byte.
-/
import AccessRules.Data.Assoc
import AccessRules.Json.Read
import AccessRules.Yaml.Cursor

namespace AccessRules.Yaml

/-! ## 1. Characters -/

/-- Whether a character can stand in a tag that is written as a whole. -/
def isUriChar (c : Char) : Bool :=
  c.isAlphanum || "-#;/?:@&=+$,_.!~*'()[]%".toList.contains c

/-- Whether a character can stand in the suffix of a tag. -/
def isSuffixChar (c : Char) : Bool := isUriChar c && !isFlowSign c && c != '!'

/-- The byte that an escape stands for. -/
def escapedByte? : List Char → Option Nat
  | '%' :: a :: b :: _ =>
    match Json.hexValue? a, Json.hexValue? b with
    | some x, some y => some (x * 16 + y)
    | _, _ => none
  | _ => none

/-- The character that escapes stand for, and how many characters they take.  One byte stands for
itself; two are read as one number, the second being a continuation; more stand for nothing. -/
def escapedChar? (cs : List Char) : Option (Char × Nat) :=
  match escapedByte? cs, escapedByte? (cs.drop 3) with
  | some x, next =>
    if x < 0x80 then (Json.charOf? x).map (·, 3)
    else if 0xC0 ≤ x ∧ x < 0xE0 then
      match next with
      | some y =>
        if 0x80 ≤ y ∧ y < 0xC0 then (Json.charOf? (x * 256 + y)).map (·, 6) else none
      | none => none
    else none
  | none, _ => none

/-- Reads the characters of a kind that come next, with their escapes. -/
def readUri (fuel : Nat) (kind : Char → Bool) (text : List Char) (c : Cursor) :
    Option (List Char × Cursor) :=
  match fuel with
  | 0 => none
  | fuel + 1 =>
    match c.next? with
    | some ch =>
      if !kind ch then some (text, c)
      else if ch = '%' then
        match escapedChar? c.rest with
        | some (x, n) => readUri fuel kind (text ++ [x]) (c.advance n)
        | none => none
      else readUri fuel kind (text ++ [ch]) c.step
    | none => some (text, c)

/-! ## 2. Tags as they are written -/

/-- A tag as it is written.  One that is written as a whole has an empty handle. -/
structure TagMark where
  handle : String
  suffix : String
  deriving DecidableEq

namespace TagMark

/-- Whether a handle has a name, which may be empty, between two marks. -/
def isNamed (handle : List Char) : Bool := 2 ≤ handle.length && handle.getLast? == some '!'

/-- The handle at a mark, and the place behind it. -/
def readHandle (c : Cursor) : List Char × Cursor :=
  let name := c.step.run isNameChar
  let c := c.step.skipRun isNameChar
  if c.next? = some '!' then ('!' :: name ++ ['!'], c.step) else ('!' :: name, c)

/-- Reads a tag.  What stands behind a single mark is the suffix, and a mark by itself is one. -/
def read (c : Cursor) : Option (TagMark × Cursor) :=
  if c.second? = some '<' then
    match readUri (c.rest.length + 1) isUriChar [] (c.advance 2) with
    | some (text, c) =>
      if c.next? = some '>' then some (⟨"", String.ofList text⟩, c.step) else none
    | none => none
  else
    let (handle, c) := readHandle c
    match readUri (c.rest.length + 1) isSuffixChar [] c with
    | some (suffix, c) =>
      if isNamed handle then
        if suffix.isEmpty then none else some (⟨String.ofList handle, String.ofList suffix⟩, c)
      else
        match handle.drop 1 ++ suffix with
        | [] => some (⟨"", "!"⟩, c)
        | suffix => some (⟨"!", String.ofList suffix⟩, c)
    | none => none

end TagMark

/-! ## 3. What tags mean -/

/-- What a tag says of a node. -/
inductive Tag where
  /-- One of the core kinds, by its name. -/
  | core (kind : String)
  | other
  deriving DecidableEq

/-- What handles stand for. -/
abbrev TagHandles := Assoc String String

namespace TagMark

/-- What the tags of the core kinds start with. -/
def coreLead : String := "tag:yaml.org,2002:"

/-- What the handle of a tag stands for. -/
def lead? (t : TagMark) (handles : TagHandles) : Option String :=
  match handles.find? t.handle with
  | some lead => some lead
  | none =>
    if t.handle = "!!" then some coreLead
    else if isNamed t.handle.toList then none
    else some t.handle

/-- What a tag means; a handle with a name must have been declared. -/
def meaning? (t : TagMark) (handles : TagHandles) : Option Tag :=
  (t.lead? handles).map fun lead => if lead = coreLead then .core t.suffix else .other

end TagMark

/-! ## 4. Directives -/

/-- What a line that starts with a percent sign says. -/
inductive Directive where
  | version
  /-- What a handle stands for. -/
  | handle (name lead : String)
  /-- A directive of an unknown name, which says nothing. -/
  | unknown
  deriving DecidableEq

namespace Directive

/-- How many digits a number of a version can have. -/
def maxVersionDigits : Nat := 9

/-- The place behind a number of a version. -/
def skipVersionNumber? (c : Cursor) : Option Cursor :=
  let n := (c.run Char.isDigit).length
  if 0 < n ∧ n ≤ maxVersionDigits then some (c.advance n) else none

/-- A directive on the version, behind its name. -/
def readVersion (c : Cursor) : Option (Directive × Cursor) := do
  let c ← skipVersionNumber? (c.skipRun isBlank)
  if c.next? = some '.' then (skipVersionNumber? c.step).map (version, ·) else none

/-- A directive on a handle, behind its name.  What the handle stands for starts with a mark or
with a character of a suffix. -/
def readHandle (c : Cursor) : Option (Directive × Cursor) :=
  let c := c.skipRun isBlank
  if c.next? ≠ some '!' then none
  else
    let (name, c) := TagMark.readHandle c
    if name.length ≠ 1 ∧ !TagMark.isNamed name then none
    else
      let c := c.skipRun isBlank
      if c.next?.any fun ch => ch == '!' || isSuffixChar ch then
        match readUri (c.rest.length + 1) isUriChar [] c with
        | some (lead, c) =>
          if endsWord c.next? then some (handle (String.ofList name) (String.ofList lead), c)
          else none
        | none => none
      else none

/-- Reads a directive from its percent sign on, up to the start of the next line. -/
def read (c : Cursor) : Option (Directive × Cursor) := do
  let name := c.step.run isNameChar
  let c := c.step.skipRun isNameChar
  if name.isEmpty || !endsWord c.next? then none
  else
    let (d, c) ←
      if name = "YAML".toList then readVersion c
      else if name = "TAG".toList then readHandle c
      else some (unknown, c.skipRun (!isBreak ·))
    c.lineEnd?.map fun c => (d, c.skipBreak)

end Directive

end AccessRules.Yaml
