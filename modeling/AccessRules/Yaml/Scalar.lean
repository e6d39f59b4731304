/-
# Scalars

A scalar stands plain, between quotes, or as a block.  Where a plain or quoted scalar runs on for
several lines, one break reads as a space and each further one as a line feed; blanks around
breaks do not count.

Every reader here takes the place where the scalar starts and gives its text and the place behind
it, or nothing if the text is no scalar.
-/
import AccessRules.Json.Read
import AccessRules.Yaml.Cursor

namespace AccessRules.Yaml

/-! ## 1. Gaps between words -/

/-- What stands between two words of a scalar. -/
inductive Gap where
  | blanks (cs : List Char)
  /-- A number of breaks; an escaped break does not count but still ends the line. -/
  | breaks (count : Nat) (escaped : Bool)

namespace Gap

/-- The gap without anything in it. -/
def nothing : Gap := blanks []

/-- How a gap reads. -/
def chars : Gap → List Char
  | blanks cs => cs
  | breaks n true => List.replicate n '\n'
  | breaks 1 false => [' ']
  | breaks n false => List.replicate (n - 1) '\n'

/-- The gap with one more blank; a blank next to a break does not count. -/
def addBlank (g : Gap) (c : Char) : Gap :=
  match g with
  | blanks cs => blanks (cs ++ [c])
  | g => g

/-- The gap with one more break.  The break of a line with a comment on it does not count. -/
def addBreak (g : Gap) (lineIsBlank : Bool) : Gap :=
  match g with
  | blanks _ => breaks 1 false
  | breaks n escaped => if lineIsBlank then breaks (n + 1) escaped else g

/-- Whether the gap ends a line. -/
def isMultiline : Gap → Bool
  | blanks _ => false
  | breaks _ _ => true

end Gap

/-- Reads a gap on to its end.  A tab after a break that stands before the column `margin` is
passed as `passTab?` says. -/
def readGap (fuel : Nat) (margin : Int) (passTab? : Cursor → Option Cursor) (g : Gap)
    (c : Cursor) : Option (Gap × Cursor) :=
  match fuel with
  | 0 => none
  | fuel + 1 =>
    match c.next? with
    | some ch =>
      if isBlank ch then
        if g.isMultiline && ch == '\t' && (c.column : Int) < margin then
          match passTab? c with
          | none => none
          | some c => readGap fuel margin passTab? g c
        else readGap fuel margin passTab? (g.addBlank ch) c.step
      else if isBreak ch then readGap fuel margin passTab? (g.addBreak c.leading) c.skipBreak
      else some (g, c)
    | none => some (g, c)

/-! ## 2. Plain scalars -/

/-- How many characters the word of a plain scalar has. -/
def plainLength (inFlow : Bool) : List Char → Nat
  | [] => 0
  | c :: cs =>
    if isGap c then 0
    else if c == ':' && (endsWord cs.head? || (inFlow && cs.head?.any isFlowSign)) then 0
    else if inFlow && isFlowSign c then 0
    else plainLength inFlow cs + 1

/-- Whether a dash stands here with a sign of flow style right behind it. -/
def atBareDash (c : Cursor) : Bool := c.next? == some '-' && c.second?.any isFlowSign

/-- Reads a plain scalar on from a place behind a gap.  Outside of flow style its lines must reach
the column `margin`; a tab before that column must leave its line empty. -/
def readPlain (fuel : Nat) (inFlow : Bool) (margin : Int) (text : List Char) (g : Gap)
    (c : Cursor) : Option (List Char × Cursor) :=
  match fuel with
  | 0 => none
  | fuel + 1 =>
    if c.atDocumentMark || c.next? == some '#' then some (text, c)
    else if inFlow && atBareDash c then none
    else
      let n := plainLength inFlow c.rest
      let (text, g) :=
        if n = 0 then (text, g) else (text ++ g.chars ++ c.rest.take n, Gap.nothing)
      let c := c.advance n
      if c.next?.any isGap then
        match readGap (c.rest.length + 1) margin Cursor.lineEnd? g c with
        | none => none
        | some (g, c) =>
          if !inFlow && (c.column : Int) < margin then some (text, c)
          else readPlain fuel inFlow margin text g c
      else some (text, c)

/-! ## 3. Quoted scalars -/

/-- The character of a short escape. -/
def shortEscape? : Char → Option Char
  | '0' => some '\x00'
  | 'a' => some '\x07'
  | 'b' => some '\x08'
  | 't' => some '\t'
  | '\t' => some '\t'
  | 'n' => some '\n'
  | 'v' => some '\x0b'
  | 'f' => some '\x0c'
  | 'r' => some '\r'
  | 'e' => some '\x1b'
  | ' ' => some ' '
  | '"' => some '"'
  | '/' => some '/'
  | '\\' => some '\\'
  | 'N' => some '\u0085'
  | '_' => some '\u00a0'
  | 'L' => some '\u2028'
  | 'P' => some '\u2029'
  | _ => none

/-- How many hexadecimal digits follow an escape by code point. -/
def codeLength? : Char → Option Nat
  | 'x' => some 2
  | 'u' => some 4
  | 'U' => some 8
  | _ => none

/-- The number that hexadecimal digits form. -/
def hexNumber? (cs : List Char) : Option Nat :=
  cs.foldl (fun n c => n.bind fun n => (Json.hexValue? c).map (n * 16 + ·)) (some 0)

/-- The character of an escape, given what follows the backslash, and how many characters of that
it takes. -/
def escape? : List Char → Option (Char × Nat)
  | [] => none
  | c :: cs =>
    match codeLength? c with
    | none => (shortEscape? c).map (·, 1)
    | some n =>
      if cs.length < n then none
      else ((hexNumber? (cs.take n)).bind Json.charOf?).map (·, n + 1)

/-- What ends the word of a quoted scalar. -/
inductive QuotedStop where
  | gap
  | quote
  /-- A backslash before a break. -/
  | escapedBreak

/-- Reads the word of a quoted scalar. -/
def readQuotedWord (fuel : Nat) (single : Bool) (text : List Char) (c : Cursor) :
    Option (List Char × QuotedStop × Cursor) :=
  match fuel with
  | 0 => none
  | fuel + 1 =>
    match c.rest with
    | [] => some (text, .gap, c)
    | '\'' :: cs =>
      if !single then readQuotedWord fuel single (text ++ ['\'']) c.step
      else if cs.head? = some '\'' then readQuotedWord fuel single (text ++ ['\'']) (c.advance 2)
      else some (text, .quote, c)
    | '"' :: _ =>
      if single then readQuotedWord fuel single (text ++ ['"']) c.step
      else some (text, .quote, c)
    | '\\' :: cs =>
      if single then readQuotedWord fuel single (text ++ ['\\']) c.step
      else if cs.head?.any isBreak then some (text, .escapedBreak, c.step.skipBreak)
      else
        match escape? cs with
        | none => none
        | some (ch, n) => readQuotedWord fuel single (text ++ [ch]) (c.advance (n + 1))
    | ch :: _ =>
      if isGap ch then some (text, .gap, c)
      else readQuotedWord fuel single (text ++ [ch]) c.step

/-- Reads a quoted scalar on from a place behind its opening quote.  Its lines must reach the
column `indent`. -/
def readQuoted (fuel : Nat) (single : Bool) (indent : Int) (text : List Char) (c : Cursor) :
    Option (List Char × Cursor) :=
  match fuel with
  | 0 => none
  | fuel + 1 =>
    if c.atDocumentMark || c.next?.isNone || (c.column : Int) < indent then none
    else
      match readQuotedWord (c.rest.length + 1) single text c with
      | none => none
      | some (text, .quote, c) => some (text, c.step)
      | some (text, stop, c) =>
        let g :=
          match stop with
          | .escapedBreak => Gap.breaks 0 true
          | _ => Gap.nothing
        if c.next? = some (if single then '\'' else '"') then some (text, c.step)
        else
          match readGap (c.rest.length + 1) indent (fun _ => none) g c with
          | none => none
          | some (g, c) => readQuoted fuel single indent (text ++ g.chars) c

/-! ## 4. Block scalars -/

/-- What becomes of the breaks at the end of a block scalar. -/
inductive Chomping where
  | strip
  | clip
  | keep
  deriving DecidableEq

/-- The chomping that a sign stands for. -/
def Chomping.ofSign? : Char → Option Chomping
  | '+' => some keep
  | '-' => some strip
  | _ => none

/-- The indentation that a digit asks for. -/
def increment? (c : Char) : Option Nat :=
  if c.isDigit then some (c.toNat - '0'.toNat) else none

/-- Reads the signs at the head of a block scalar: chomping and increment in either order.  An
increment of zero is refused. -/
def readBlockHead (c : Cursor) : Option (Chomping × Option Nat × Cursor) :=
  let found : Chomping × Option Nat × Cursor :=
    match c.next?.bind Chomping.ofSign? with
    | some chomping =>
      match c.step.next?.bind increment? with
      | some n => (chomping, some n, c.advance 2)
      | none => (chomping, none, c.step)
    | none =>
      match c.next?.bind increment? with
      | some n =>
        match c.step.next?.bind Chomping.ofSign? with
        | some chomping => (chomping, some n, c.advance 2)
        | none => (.clip, some n, c.step)
      | none => (.clip, none, c)
  if found.2.1 = some 0 then none else some found

/-- Skips indentation and empty lines, and counts the lines.  Without an indentation the spaces of
all lines count, and the widest of them is found. -/
def readBlockBreaks (fuel : Nat) (indent : Option Nat) (widest breaks : Nat) (c : Cursor) :
    Option (Nat × Nat × Cursor) :=
  match fuel with
  | 0 => none
  | fuel + 1 =>
    let spaces := (c.run (· == ' ')).length
    let c := c.advance (match indent with
      | none => spaces
      | some n => min spaces (n - c.column))
    let widest := max widest c.column
    if c.next?.any isBreak then readBlockBreaks fuel indent widest (breaks + 1) c.skipBreak
    else some (widest, breaks, c)

/-- The text of a block scalar so far, with the breaks that are not yet part of it: the one that
ends the last line, and those of empty lines after it. -/
structure BlockText where
  text : List Char
  lineBreak : Bool
  emptyLines : Nat
  /-- Whether the last line starts with a blank. -/
  leadsBlank : Bool

namespace BlockText

/-- The breaks before the next line.  In folded style the break between two lines that both start
with a word reads as a space, unless there are empty lines between them. -/
def join (b : BlockText) (literal startsBlank : Bool) : List Char :=
  (if b.lineBreak then
    if !literal && !b.leadsBlank && !startsBlank then
      if b.emptyLines = 0 then [' '] else []
    else ['\n']
  else []) ++ List.replicate b.emptyLines '\n'

/-- The whole text, given whether the text that holds it ends within its indentation. -/
def finish (b : BlockText) (chomping : Chomping) (endsInside : Bool) : List Char :=
  b.text ++
    (if chomping = .strip then []
    else (if b.lineBreak then ['\n'] else []) ++ if endsInside then ['\n'] else []) ++
    if chomping = .keep then List.replicate b.emptyLines '\n' else []

end BlockText

/-- The text of a block scalar without lines, given whether a break ends its head and how many
empty lines follow. -/
def emptyBlock (chomping : Chomping) (headBreaks : Bool) (emptyLines : Nat) : List Char :=
  if chomping = .strip ∨ !headBreaks then []
  else if chomping = .clip then ['\n']
  else List.replicate (max emptyLines 1) '\n'

/-- Reads the lines of a block scalar. -/
def readBlockLines (fuel : Nat) (literal : Bool) (indent : Nat) (b : BlockText) (c : Cursor) :
    Option (BlockText × Cursor) :=
  match fuel with
  | 0 => none
  | fuel + 1 =>
    match c.next? with
    | none => some (b, c)
    | some ch =>
      if c.column ≠ indent ∨ c.atMark '.' then some (b, c)
      else
        let line := c.run (!isBreak ·)
        let startsBlank := isBlank ch
        let text := b.text ++ b.join literal startsBlank ++ line
        let c := c.advance line.length
        if c.next?.isNone then some (⟨text, false, 0, startsBlank⟩, c)
        else
          match readBlockBreaks (c.rest.length + 1) (some indent) 0 0 c.skipBreak with
          | none => none
          | some (_, empty, c) =>
            readBlockLines fuel literal indent ⟨text, true, empty, startsBlank⟩ c

/-- The indentation of a block scalar within a block of indentation `outer`: the one its head asks
for, or else that of the widest line before its first word, and at least one more than
`outer`. -/
def blockIndent (outer : Int) (increment : Option Nat) (widest : Nat) : Nat :=
  match increment with
  | some n => if 0 ≤ outer then (outer + (n : Int)).toNat else n
  | none => max widest (outer + 1).toNat

/-- Reads a block scalar from a place behind its first sign, within a block of indentation
`outer`.  Its first line may not start with a tab, nor with less indentation than its own and more
than that of the block around it. -/
def readBlock (literal : Bool) (outer : Int) (c : Cursor) : Option (List Char × Cursor) := do
  let (chomping, increment, c) ← readBlockHead c
  let c ← c.lineEnd?
  let headBreaks := c.next?.isSome
  let c := c.skipBreak
  if c.next? = some '\t' then none
  else
    let given := increment.map fun n => blockIndent outer (some n) 0
    let (widest, empty, c) ← readBlockBreaks (c.rest.length + 1) given 0 0 c
    let indent := blockIndent outer increment widest
    if c.next?.isNone then some (emptyBlock chomping headBreaks empty, c)
    else if c.column < indent ∧ outer < (c.column : Int) then none
    else
      let (b, c) ← readBlockLines (c.rest.length + 1) literal indent ⟨[], false, empty, false⟩ c
      some (b.finish chomping (c.next?.isNone && decide (max indent 1 ≤ c.column)), c)

end AccessRules.Yaml
