/-
# Patterns for the values of fields

A directive may ask for the value of a field by a pattern, which is a regular expression.  No event
is ever compared with one; all that counts is whether the text is a pattern at all, since a
directive with a faulty one is passed over.

Flags change how the rest of a group is read: `verbose` lets blanks and comments stand between the
signs, `wide` makes characters out of bytes, `folds` disregards case.  No tables of characters
stand behind patterns, so in wide mode neither the classes `\d`, `\s` and `\w` nor disregard of case
nor the edges of words are to be had, and a class by property never is.  Where bytes count, nothing
may match half a character.  A text whose parts are nested too deep is no pattern either.
-/
import AccessRules.Json.Read
import AccessRules.Text.LetterTable
import AccessRules.Log.Nesting

namespace AccessRules.Pattern

/-! ## 1. Modes -/

/-- How the signs of a pattern are read. -/
structure Mode where
  verbose : Bool
  wide : Bool
  folds : Bool
  deriving DecidableEq

namespace Mode

/-- The mode at the start of a pattern. -/
def standard : Mode := ⟨false, true, false⟩

/-- Sets what a flag stands for; the other flags do not matter here. -/
def set (m : Mode) (flag : Char) (value : Bool) : Mode :=
  if flag = 'x' then { m with verbose := value }
  else if flag = 'u' then { m with wide := value }
  else if flag = 'i' then { m with folds := value }
  else m

/-- Whether characters can be compared with those of a pattern. -/
def canCompare (m : Mode) : Bool := !(m.wide && m.folds)

/-- The text from the next sign on: in verbose mode white space and comments do not count. -/
def skip (m : Mode) (cs : List Char) : List Char :=
  if m.verbose then past false cs else cs
where
  /-- Passes white space, and a comment up to the end of its line. -/
  past (inComment : Bool) : List Char → List Char
    | [] => []
    | c :: cs =>
      if inComment then past (c != '\n') cs
      else if Text.isWhite c then past false cs
      else if c = '#' then past true cs
      else c :: cs

end Mode

/-- The flags that a group may set. -/
def flagSigns : List Char := ['i', 'm', 's', 'U', 'u', 'R', 'x']

/-- Reads flags up to the sign behind them, a colon or a closing parenthesis; each may stand once,
and those behind a minus are taken back.  Says also whether there are any. -/
def readFlags (seen : List Char) (negative dangling : Bool) (m : Mode) :
    List Char → Option (Mode × Bool × List Char)
  | [] => none
  | c :: cs =>
    if c = ':' ∨ c = ')' then
      if dangling then none else some (m, !seen.isEmpty, c :: cs)
    else if c = '-' then
      if negative then none else readFlags seen true true m cs
    else if flagSigns.contains c && !seen.contains c then
      readFlags (c :: seen) negative false (m.set c !negative) cs
    else none

/-! ## 2. Escapes -/

/-- What an escape stands for. -/
inductive Escape where
  /-- A character by its code point; `isByte` says that two digits give it. -/
  | code (n : Nat) (isByte : Bool)
  /-- The start or the end of the text. -/
  | textEdge
  /-- The edge of a word, or the lack of one. -/
  | wordEdge
  /-- Digits, white space or the characters of words, or all but those. -/
  | kind (negated : Bool)
  deriving DecidableEq

/-- The code point of a character that stands for another one behind a backslash. -/
def shortCode? (c : Char) : Option Nat :=
  if c = 'a' then some 0x7
  else if c = 'f' then some 0xC
  else if c = 't' then some 0x9
  else if c = 'n' then some 0xA
  else if c = 'r' then some 0xD
  else if c = 'v' then some 0xB
  else none

/-- Whether a character stands for itself behind a backslash. -/
def isPlainEscape (c : Char) : Bool :=
  c.toNat < 0x80 && !c.isAlphanum && c != '<' && c != '>'

/-- Reads so many hexadecimal digits. -/
def readHex (m : Mode) : Nat → Nat → List Char → Option (Nat × List Char)
  | 0, n, cs => some (n, cs)
  | k + 1, n, cs =>
    match m.skip cs with
    | c :: cs => (Json.hexValue? c).bind fun x => readHex m k (n * 16 + x) cs
    | [] => none

/-- How many digits give a code point behind a letter. -/
def hexLength? (c : Char) : Option Nat :=
  if c = 'x' then some 2 else if c = 'u' then some 4 else if c = 'U' then some 8 else none

/-- Reads an escape behind its backslash. -/
def readEscape (m : Mode) : List Char → Option (Escape × List Char)
  | [] => none
  | c :: cs =>
    match hexLength? c with
    | some length =>
      (readHex m length 0 cs).bind fun (n, cs) =>
        (Json.charOf? n).map fun _ => (.code n (length == 2), m.skip cs)
    | none =>
      if c = 'd' ∨ c = 's' ∨ c = 'w' then some (.kind false, cs)
      else if c = 'D' ∨ c = 'S' ∨ c = 'W' then some (.kind true, cs)
      else if c = 'A' ∨ c = 'z' then some (.textEdge, cs)
      else if c = 'b' ∨ c = 'B' ∨ c = '<' ∨ c = '>' then some (.wordEdge, cs)
      else if isPlainEscape c then some (.code c.toNat false, cs)
      else (shortCode? c).map fun n => (.code n false, cs)

/-- Whether an escape can stand in a mode. -/
def Escape.fits (m : Mode) : Escape → Bool
  | code n isByte => m.canCompare && (m.wide || !isByte || n < 0x80)
  | textEdge => true
  | wordEdge => !m.wide
  | kind negated => !m.wide && !negated

/-! ## 3. Classes between brackets -/

/-- The classes that have a name. -/
def namedClasses : List String :=
  ["alnum", "alpha", "ascii", "blank", "cntrl", "digit", "graph", "lower", "print", "punct",
    "space", "upper", "word", "xdigit"]

/-- Reads the name of a class between colons and its closing bracket, behind the opening one.  Says
whether the class is negated. -/
def readNamed (cs : List Char) : Option (Bool × List Char) :=
  match cs with
  | ':' :: cs =>
    let (negated, cs) :=
      match cs with
      | '^' :: rest => (true, rest)
      | rest => (false, rest)
    let name := cs.takeWhile (· ≠ ':')
    match cs.dropWhile (· ≠ ':') with
    | ':' :: ']' :: rest =>
      if namedClasses.contains (String.ofList name) then some (negated, rest) else none
    | _ => none
  | _ => none

/-- The text behind dashes, and how many of them there are. -/
def skipDashes (m : Mode) (fuel count : Nat) (cs : List Char) : Nat × List Char :=
  match fuel, m.skip cs with
  | fuel + 1, '-' :: cs => skipDashes m fuel (count + 1) cs
  | _, cs => (count, cs)

/-- Reads what may stand at the start of a class behind its bracket: a sign that negates it, dashes,
or a closing bracket that belongs to it. -/
def readClassStart (m : Mode) (cs : List Char) : Option (Members × List Char) :=
  let (negated, cs) :=
    match m.skip cs with
    | '^' :: rest => (true, rest)
    | rest => (false, rest)
  if negated && !m.wide then none
  else
    match skipDashes m cs.length 0 cs with
    | (0, ']' :: rest) => some (.start 1, rest)
    | (dashes, rest) => some (.start dashes, rest)

/-- Reads a member of a class: the code point of a character, or nothing for a kind of characters.
Where bytes count, only ASCII characters can be members. -/
def readMember (m : Mode) : List Char → Option (Option Nat × List Char)
  | [] => none
  | '\\' :: cs =>
    match readEscape m cs with
    | some (.code n _, cs) => if m.wide || n < 0x80 then some (some n, cs) else none
    | some (.kind negated, cs) =>
      if (Escape.kind negated).fits m then some (none, cs) else none
    | _ => none
  | c :: cs => if m.wide || c.toNat < 0x80 then some (some c.toNat, cs) else none

/-- Reads a member of a class or a range of members. -/
def readRange (m : Mode) (cs : List Char) : Option (List Char) :=
  match readMember m cs with
  | none => none
  | some (first, cs) =>
    match m.skip cs with
    | '-' :: rest =>
      let after := m.skip rest
      if after.head? = some ']' ∨ after.head? = some '-' then some ('-' :: rest)
      else
        match first, readMember m after with
        | some a, some (some b, cs) => if a ≤ b then some cs else none
        | _, _ => none
    | rest => some rest

/-- Reads a class to its end from a place behind the given members, which lie within those of the
classes around, the innermost first.  Gives the depth of the class. -/
def readClass (m : Mode) (fuel : Nat) (outer : List Members) (s : Members) (cs : List Char) :
    Option (Nat × List Char) :=
  match fuel with
  | 0 => none
  | fuel + 1 =>
    match m.skip cs with
    | [] => none
    | '[' :: cs =>
      match readNamed cs with
      | some (negated, rest) =>
        if negated && !m.wide then none else readClass m fuel outer (s.push 0) rest
      | none => (readClassStart m cs).bind fun (inner, cs) => readClass m fuel (s :: outer) inner cs
    | ']' :: cs =>
      match outer with
      | [] => some (s.depth + 1, cs)
      | t :: outer => readClass m fuel outer (t.push (s.depth + 1)) cs
    | '&' :: '&' :: cs => readClass m fuel outer s.split cs
    | '-' :: '-' :: cs => readClass m fuel outer s.split cs
    | '~' :: '~' :: cs => readClass m fuel outer s.split cs
    | cs => (readRange m cs).bind (readClass m fuel outer (s.push 0))

/-! ## 4. Groups -/

/-- Whether a character can stand in the name of a group. -/
def isNameChar (isFirst : Bool) (c : Char) : Bool :=
  c == '_' || if isFirst then Text.isLetter c
    else c == '.' || c == '[' || c == ']' || Text.isLetterOrNumber c

/-- Reads the name of a group up to its closing angle bracket. -/
def readGroupName (cs : List Char) : Option (String × List Char) :=
  let name := cs.takeWhile (· ≠ '>')
  match name, cs.dropWhile (· ≠ '>') with
  | c :: more, _ :: rest =>
    if isNameChar true c && more.all (isNameChar false) then some (String.ofList name, rest)
    else none
  | _, _ => none

/-- What stands at the start of a parenthesis. -/
inductive GroupStart where
  /-- A group that may have a name. -/
  | group (name : Option String) (m : Mode)
  /-- Flags for the rest of the group around them. -/
  | flags (m : Mode)

/-- Reads the start of a group behind its parenthesis.  What looks ahead or back is refused. -/
def readGroupStart (m : Mode) (cs : List Char) : Option (GroupStart × List Char) :=
  match m.skip cs with
  | '?' :: 'P' :: '<' :: cs => (readGroupName cs).map fun (name, cs) => (.group name m, cs)
  | '?' :: '<' :: cs => (readGroupName cs).map fun (name, cs) => (.group name m, cs)
  | '?' :: cs =>
    match readFlags [] false false m cs with
    | some (m, _, ':' :: cs) => some (.group none m, cs)
    | some (m, true, _ :: cs) => some (.flags m, cs)
    | _ => none
  | cs => some (.group none m, cs)

/-! ## 5. Patterns -/

/-- Where the reading of a pattern stands. -/
structure State where
  mode : Mode
  /-- What has been read of the innermost group. -/
  parts : Branches
  /-- The modes around the open groups and what was read before them, the innermost first. -/
  outer : List (Mode × Branches)
  names : List String
  /-- Whether the sign before can be repeated. -/
  repeatable : Bool

namespace State

/-- The state at the start of a pattern. -/
def start : State := ⟨.standard, .start, [], [], false⟩

/-- The state behind a part that can be repeated. -/
def behind (s : State) (depth : Nat) : State :=
  { s with parts := s.parts.push depth, repeatable := true }

/-- The state behind a sign of repetition. -/
def behindRepeat (s : State) : State := { s with parts := s.parts.deepen }

/-- The state behind a bar. -/
def behindBar (s : State) : State := { s with parts := s.parts.split, repeatable := false }

/-- The state behind flags or within a group. -/
def enter (s : State) : GroupStart → Option State
  | .flags m => some { s with mode := m, parts := s.parts.push 0, repeatable := false }
  | .group name m =>
    if name.any s.names.contains then none
    else some ⟨m, .start, (s.mode, s.parts) :: s.outer, name.toList ++ s.names, false⟩

/-- The state behind the end of a group. -/
def leave (s : State) : Option State :=
  match s.outer with
  | [] => none
  | (m, parts) :: outer =>
    some ⟨m, parts.push (s.parts.depth + 1), outer, s.names, true⟩

/-- Whether a pattern can end here. -/
def isComplete (s : State) : Bool := s.outer.isEmpty && s.parts.depth ≤ depthLimit

/-- Whether a character can stand for itself. -/
def takes (s : State) (c : Char) : Bool :=
  if c = '^' ∨ c = '$' then true
  else if c = '.' then s.mode.wide
  else c != '\x7b' && s.mode.canCompare

end State

/-- Reads a pattern to its end. -/
def accepts (fuel : Nat) (s : State) (cs : List Char) : Bool :=
  match fuel with
  | 0 => false
  | fuel + 1 =>
    match s.mode.skip cs with
    | [] => s.isComplete
    | '(' :: cs =>
      match readGroupStart s.mode cs with
      | some (g, cs) =>
        match s.enter g with
        | some s => accepts fuel s cs
        | none => false
      | none => false
    | ')' :: cs =>
      match s.leave with
      | some s => accepts fuel s cs
      | none => false
    | '|' :: cs => accepts fuel s.behindBar cs
    | '[' :: cs =>
      match (readClassStart s.mode cs).bind fun (members, rest) =>
          readClass s.mode cs.length [] members rest with
      | some (depth, cs) => s.mode.canCompare && accepts fuel (s.behind depth) cs
      | none => false
    | '\\' :: cs =>
      match readEscape s.mode cs with
      | some (e, cs) => e.fits s.mode && accepts fuel (s.behind 0) cs
      | none => false
    | c :: cs =>
      if c = '?' ∨ c = '*' ∨ c = '+' then
        let cs :=
          match cs with
          | '?' :: rest => rest
          | rest => rest
        s.repeatable && accepts fuel s.behindRepeat cs
      else s.takes c && accepts fuel (s.behind 0) cs

/-- Whether a text is a pattern. -/
def isValid (text : String) : Bool :=
  let cs := text.toList
  accepts (cs.length + 1) .start cs

end AccessRules.Pattern
