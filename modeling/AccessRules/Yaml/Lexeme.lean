/-
# Lexemes

The lexemes of a text, in order.  The structure that indentation gives to a block appears as
lexemes of its own: a block starts where the column grows and ends where it shrinks.  That a word
is the name of a mapping's entry shows only at the colon behind it, so a word that may be such a
name is kept in mind with its place among the lexemes, and `key` is put there afterwards.

Outside of flow style a name may not run on for several lines, and at the column of its block it
must be followed by a colon.  What stands behind a sign of a block is expected one column further
in, so a level is prepared there, which gives way if a block or a plain word shows up first.
-/
import AccessRules.Yaml.Scalar
import AccessRules.Yaml.Tag

namespace AccessRules.Yaml

/-! ## 1. The lexemes -/

/-- A lexeme. -/
inductive Lexeme where
  | directive (d : Directive)
  | documentStart
  | documentEnd
  | blockSequence
  | blockMapping
  | blockEnd
  | flowSequence
  | flowSequenceEnd
  | flowMapping
  | flowMappingEnd
  | blockEntry
  | flowEntry
  | key
  | value
  | alias (name : String)
  | anchor (name : String)
  | tag (t : TagMark)
  | scalar (isPlain : Bool) (text : String)
  deriving DecidableEq

/-- A word that may be the name of an entry. -/
structure KeyCandidate where
  /-- How many lexemes stand before it. -/
  place : Nat
  index : Nat
  line : Nat
  column : Nat
  /-- Whether a colon must follow. -/
  isRequired : Bool

/-- A level of indentation: that of a block, or one that is only prepared. -/
structure Level where
  column : Nat
  isBlock : Bool

/-- How far a colon may be from the start of a name. -/
def maxKeyLength : Nat := 1024

/-- How deep flow style may be nested. -/
def maxFlowDepth : Nat := 255

/-- Where the lexer stands. -/
structure Lexer where
  cursor : Cursor
  /-- The lexemes so far, the latest first. -/
  lexemes : List Lexeme
  /-- The levels of indentation, the innermost first. -/
  levels : List Level
  /-- Whether a name can start here. -/
  keyAllowed : Bool
  /-- The candidate outside of flow style. -/
  candidate : Option KeyCandidate
  /-- The candidates of the flow collections that are open, the innermost first. -/
  flow : List (Option KeyCandidate)
  /-- Whether a pair in flow style belongs to a mapping that a sign has started. -/
  mappingStarted : Bool
  /-- Whether a pair is open that is a mapping by itself. -/
  loosePair : Bool
  /-- The index at which a colon may follow a name without a gap. -/
  adjacentIndex : Option Nat

namespace Lexer

/-- The lexer at the start of a text. -/
def start (s : String) : Lexer := ⟨.start s, [], [], true, none, [], false, false, none⟩

/-- Whether the lexer stands within flow style. -/
def inFlow (l : Lexer) : Bool := !l.flow.isEmpty

/-- The column of the innermost level; below zero outside of all levels. -/
def indent (l : Lexer) : Int :=
  match l.levels with
  | [] => -1
  | v :: _ => v.column

/-- Whether the innermost level is that of a block. -/
def atBlock (l : Lexer) : Bool := l.levels.head?.any (·.isBlock)

/-! ## 2. Moves -/

/-- Moves the cursor. -/
def moveTo (l : Lexer) (c : Cursor) : Lexer := { l with cursor := c }

/-- Moves the cursor behind a sign, the blanks after it and a comment. -/
def passSign? (l : Lexer) : Option Lexer := l.cursor.step.passBlanks?.map l.moveTo

/-- Adds a lexeme. -/
def add (l : Lexer) (x : Lexeme) : Lexer := { l with lexemes := x :: l.lexemes }

/-- Puts a lexeme behind the first `place` ones. -/
def addAt (l : Lexer) (place : Nat) (x : Lexeme) : Lexer :=
  let later := l.lexemes.length - place
  { l with lexemes := l.lexemes.take later ++ x :: l.lexemes.drop later }

/-- Says whether a name can start at the place where the lexer stands. -/
def allowKey (l : Lexer) (allowed : Bool) : Lexer := { l with keyAllowed := allowed }

/-! ## 3. Candidates -/

/-- The candidate of the innermost collection. -/
def current (l : Lexer) : Option KeyCandidate :=
  match l.flow with
  | [] => l.candidate
  | k :: _ => k

/-- Puts a candidate in place of the current one. -/
def setCurrent (l : Lexer) (k : Option KeyCandidate) : Lexer :=
  match l.flow with
  | [] => { l with candidate := k }
  | _ :: rest => { l with flow := k :: rest }

/-- Gives up the current candidate, unless a colon must follow it. -/
def dropKey? (l : Lexer) : Option Lexer :=
  if l.current.any (·.isRequired) then none else some (l.setCurrent none)

/-- Remembers the place as that of a candidate, if a name can start here. -/
def saveKey (l : Lexer) : Lexer :=
  if l.keyAllowed then
    let c := l.cursor
    l.setCurrent (some ⟨l.lexemes.length, c.index, c.line, c.column,
      !l.inFlow && l.indent == (c.column : Int) && l.atBlock⟩)
  else l

/-- Whether a candidate is too far back to be a name. -/
def isStale (c : Cursor) (k : KeyCandidate) : Bool :=
  k.line < c.line || k.index + maxKeyLength < c.index

/-- Outside of flow style, gives up a candidate that is too far back, unless a colon must follow
it. -/
def dropStale? (l : Lexer) : Option Lexer :=
  if !l.inFlow && l.candidate.any (isStale l.cursor) then l.dropKey? else some l

/-! ## 4. Levels -/

/-- The levels around a block that starts at a column: a prepared level gives way to a block at
its column or further in. -/
def levelsAround (l : Lexer) (column : Nat) : List Level :=
  match l.levels with
  | v :: outer => if !v.isBlock && v.column ≤ column then outer else l.levels
  | [] => []

/-- Starts a block at a column, unless one at this column is open; its lexeme stands behind the
first `place` ones. -/
def openBlock (l : Lexer) (place column : Nat) (x : Lexeme) : Lexer :=
  if l.inFlow then l
  else
    let l := { l with levels := l.levelsAround column }
    if l.indent < (column : Int) then
      { l.addAt place x with levels := ⟨column, true⟩ :: l.levels }
    else l

/-- Starts a block at a column with the next lexeme. -/
def openBlockHere (l : Lexer) (column : Nat) (x : Lexeme) : Lexer :=
  l.openBlock l.lexemes.length column x

/-- Ends the levels that lie beyond a column; each that is a block has a lexeme for its end. -/
def closeBlocks (l : Lexer) (column : Int) : Lexer :=
  if l.inFlow then l
  else
    let (ended, levels) := l.levels.span fun v => column < (v.column : Int)
    let ends := (ended.filter (·.isBlock)).map fun _ => Lexeme.blockEnd
    { l with levels, lexemes := ends ++ l.lexemes }

/-- Prepares a level one column further in than the innermost block. -/
def prepare (l : Lexer) : Lexer :=
  match l.levels with
  | v :: _ =>
    if !l.inFlow && v.isBlock then { l with levels := ⟨v.column + 1, false⟩ :: l.levels } else l
  | [] => l

/-- Gives up levels that are only prepared. -/
def dropPrepared (l : Lexer) : Lexer := { l with levels := l.levels.dropWhile (!·.isBlock) }

/-! ## 5. Signs of flow style -/

/-- The end of a pair that is a mapping by itself, if one is open. -/
def closePair (l : Lexer) : Lexer :=
  if l.loosePair then { l.add .flowMappingEnd with loosePair := false, mappingStarted := false }
  else l

/-- The start of a flow collection. -/
def readFlowStart (l : Lexer) (x : Lexeme) : Option Lexer :=
  let l := l.saveKey.prepare
  if l.flow.length < maxFlowDepth then
    let l := { l with
      flow := none :: l.flow, mappingStarted := l.mappingStarted || x == Lexeme.flowMapping }
    ((l.allowKey true).add x).passSign?
  else none

/-- The end of a flow collection.  Within another one it may be a name that a colon follows
without a gap. -/
def readFlowEnd (l : Lexer) (x : Lexeme) : Option Lexer := do
  let l ← l.dropKey?
  let l ← ({ l with flow := l.flow.tail }.allowKey false).closePair.passSign?
  let l := if l.inFlow then { l with adjacentIndex := some l.cursor.index } else l
  some (l.add x)

/-- A comma within flow style. -/
def readFlowEntry (l : Lexer) : Option Lexer := do
  let l ← l.dropKey?
  ((l.allowKey true).closePair.add .flowEntry).passSign?

/-! ## 6. Signs of entries -/

/-- The blanks behind the sign where the lexer stands. -/
def blanksBehind (l : Lexer) : List Char := l.cursor.step.run isBlank

/-- A dash before an entry of a block sequence.  A tab may not stand between two dashes. -/
def readBlockEntry (l : Lexer) : Option Lexer :=
  if l.inFlow || !l.keyAllowed then none
  else do
    let hasTab := l.blanksBehind.contains '\t'
    let l ← (l.openBlockHere l.cursor.column .blockSequence).passSign?
    if hasTab && l.cursor.next? == some '-' && endsWord l.cursor.second? then none
    else
      let l := if l.cursor.next?.any fun ch => isBreak ch || isFlowSign ch then l.prepare else l
      l.dropKey?.map fun l => (l.allowKey true).add .blockEntry

/-- A question mark before a name.  A space or a break must follow, and no tab before the name. -/
def readKey (l : Lexer) : Option Lexer :=
  if !l.inFlow && !l.keyAllowed then none
  else do
    let l :=
      if l.inFlow then { l with mappingStarted := true }
      else l.openBlockHere l.cursor.column .blockMapping
    let l ← l.dropKey?
    if l.cursor.second?.all (· == '\t') then none
    else
      let c := l.cursor.step.skipEmptyLines l.cursor.rest.length
      if c.next? = some '\t' then none
      else some (((l.allowKey !l.inFlow).add .key).moveTo c)

/-- Moves behind a colon.  Where a tab follows it, a space must stand before a word or a dash. -/
def passColon? (l : Lexer) : Option Lexer :=
  if l.cursor.second? = some '\t' then
    l.passSign?.filter fun next =>
      l.blanksBehind.contains ' ' || !next.cursor.next?.any isNameChar
  else some (l.moveTo l.cursor.step)

/-- A colon behind a name, or where a name is missing.  In flow style a pair outside of a mapping
is a mapping by itself, and its name must end on the line of the colon. -/
def readValue (l : Lexer) : Option Lexer := do
  let place := l.cursor
  let l := { l with loosePair := l.inFlow && !l.mappingStarted }
  let l ← l.passColon?
  match l.current with
  | some k =>
    if l.loosePair && k.line < place.line then none
    else
      let l := l.addAt k.place .key
      let l := if l.loosePair then l.addAt k.place .flowMapping else l
      let l := (l.openBlock k.place k.column .blockMapping).prepare
      some (((l.setCurrent none).allowKey false).add .value)
  | none =>
    if !l.inFlow && !l.keyAllowed then none
    else
      let l := if l.loosePair then l.add .flowMapping else l
      let l := (l.openBlockHere place.column .blockMapping).prepare
      some ((l.allowKey !l.inFlow).add .value)

/-! ## 7. Documents, anchors and tags -/

/-- Three signs that begin a document. -/
def readDocumentStart (l : Lexer) : Option Lexer :=
  (l.closeBlocks (-1)).dropKey?.map fun l =>
    ((l.allowKey false).add .documentStart).moveTo (l.cursor.advance 3)

/-- Three signs that end a document, alone on their line. -/
def readDocumentEnd (l : Lexer) : Option Lexer := do
  let l ← (l.closeBlocks (-1)).dropKey?
  let c ← (l.cursor.advance 3).lineEnd?
  some (((l.allowKey false).add .documentEnd).moveTo c)

/-- A directive. -/
def readDirective (l : Lexer) : Option Lexer := do
  let l ← (l.closeBlocks (-1)).dropKey?
  let (d, c) ← Directive.read l.cursor
  some (((l.allowKey false).add (.directive d)).moveTo c)

/-- Whether a character can stand in the name of an anchor. -/
def isAnchorChar (c : Char) : Bool := !isGap c && !isFlowSign c && c != '\ufeff'

/-- An anchor or an alias. -/
def readAnchor (l : Lexer) (x : String → Lexeme) : Option Lexer :=
  let l := l.saveKey
  let name := l.cursor.step.run isAnchorChar
  let c := l.cursor.step.skipRun isAnchorChar
  if name.isEmpty then none
  else some (((l.allowKey false).add (x (String.ofList name))).moveTo c)

/-- A tag before a node.  A gap must follow, or a sign within flow style. -/
def readNodeTag (l : Lexer) : Option Lexer :=
  let l := l.saveKey
  match TagMark.read l.cursor with
  | some (t, c) =>
    if endsWord c.next? || (l.inFlow && c.next?.any isFlowSign) then
      some (((l.allowKey false).add (.tag t)).moveTo c)
    else none
  | none => none

/-! ## 8. Gaps between lexemes -/

/-- Whether a tab may not start a line here, since it would stand for indentation. -/
def refusesTab (l : Lexer) : Bool :=
  !l.levels.isEmpty && l.cursor.leading && (l.cursor.column : Int) < l.indent

/-- Passes what stands before a lexeme.  Where a tab may not stand, its line must be empty; a break
outside of flow style lets a name start. -/
def skipToLexeme? (fuel : Nat) (l : Lexer) : Option Lexer :=
  match fuel with
  | 0 => none
  | fuel + 1 =>
    match l.cursor.next? with
    | some ch =>
      if ch = '\t' ∧ l.refusesTab then
        match l.cursor.lineEnd? with
        | some c => skipToLexeme? fuel (l.moveTo c)
        | none => none
      else if isBlank ch then skipToLexeme? fuel (l.moveTo l.cursor.step)
      else if isBreak ch then
        skipToLexeme? fuel ((l.moveTo l.cursor.skipBreak).allowKey (l.keyAllowed || !l.inFlow))
      else if ch = '#' then skipToLexeme? fuel (l.moveTo l.cursor.skipComment)
      else some l
    | none => some l

/-! ## 9. Scalars -/

/-- A plain scalar.  A name can start behind one that ends with its line. -/
def readPlainScalar (l : Lexer) : Option Lexer :=
  let l := l.saveKey.dropPrepared
  let margin := l.indent + 1
  if l.inFlow && decide ((l.cursor.column : Int) < margin) then none
  else
    match readPlain (l.cursor.rest.length + 1) l.inFlow margin [] .nothing l.cursor with
    | some (text, c) =>
      if text.isEmpty then none
      else some (((l.allowKey c.leading).add (.scalar true (String.ofList text))).moveTo c)
    | none => none

/-- Whether what comes next may follow a quoted scalar that started on a line: the end of its
line, a colon, which outside of flow style must stand on that line too, or a sign that ends an
item. -/
def mayFollowQuotes (l : Lexer) (startLine : Nat) : Bool :=
  match l.cursor.next? with
  | some ch =>
    isBreak ch || (ch == ':' && (l.inFlow || startLine == l.cursor.line)) ||
      (l.inFlow && (ch == ',' || ch == ']' || ch == '}'))
  | none => true

/-- A quoted scalar. -/
def readQuotedScalar (l : Lexer) (single : Bool) : Option Lexer := do
  let l := l.saveKey.allowKey false
  let startLine := l.cursor.line
  let (text, c) ← readQuoted (l.cursor.rest.length + 1) single l.indent [] l.cursor.step
  let c ← c.passBlanks?
  let l := l.moveTo c
  if !l.mayFollowQuotes startLine then none
  else
    let l ← skipToLexeme? (l.cursor.rest.length + 1) l
    some ({ l with adjacentIndex := some l.cursor.index }.add
      (.scalar false (String.ofList text)))

/-- A block scalar. -/
def readBlockScalar (l : Lexer) (literal : Bool) : Option Lexer :=
  let l := l.saveKey.dropPrepared
  (readBlock literal l.indent l.cursor.step).map fun (text, c) =>
    ((l.allowKey true).add (.scalar false (String.ofList text))).moveTo c

/-! ## 10. The lexer -/

/-- Whether a colon here stands behind a name. -/
def atValue (l : Lexer) : Bool :=
  let next := l.cursor.second?
  endsWord next ||
    (l.inFlow && (next.any isFlowSign || l.adjacentIndex == some l.cursor.index))

/-- Reads a lexeme that a sign starts, and a plain scalar where none does. -/
def readSign (l : Lexer) (ch : Char) : Option Lexer :=
  let alone := endsWord l.cursor.second?
  if ch = '[' then l.readFlowStart .flowSequence
  else if ch = '{' then l.readFlowStart .flowMapping
  else if ch = ']' then l.readFlowEnd .flowSequenceEnd
  else if ch = '}' then l.readFlowEnd .flowMappingEnd
  else if ch = ',' then l.readFlowEntry
  else if ch = '-' ∧ alone then l.readBlockEntry
  else if ch = '?' ∧ alone then l.readKey
  else if ch = ':' ∧ l.atValue then l.readValue
  else if ch = '*' then l.readAnchor .alias
  else if ch = '&' then l.readAnchor .anchor
  else if ch = '!' then l.readNodeTag
  else if ch = '|' ∧ !l.inFlow then l.readBlockScalar true
  else if ch = '>' ∧ !l.inFlow then l.readBlockScalar false
  else if ch = '\'' then l.readQuotedScalar true
  else if ch = '"' then l.readQuotedScalar false
  else if ch = '%' ∨ ch = '@' ∨ ch = '\x60' then none
  else l.readPlainScalar

/-- Reads the lexeme that starts with a character. -/
def readLexeme (l : Lexer) (ch : Char) : Option Lexer :=
  if l.cursor.column = 0 ∧ ch = '%' then l.readDirective
  else if l.cursor.atMark '-' then l.readDocumentStart
  else if l.cursor.atMark '.' then l.readDocumentEnd
  else if (l.cursor.column : Int) < l.indent then none
  else l.readSign ch

/-- Ends all blocks at the end of the text. -/
def finish? (l : Lexer) : Option (List Lexeme) :=
  if (l.candidate :: l.flow).any fun k => k.any (·.isRequired) then none
  else some (l.closeBlocks (-1)).lexemes.reverse

/-- Reads all lexemes; each takes a character at least. -/
def run (fuel : Nat) (l : Lexer) : Option (List Lexeme) :=
  match fuel with
  | 0 => none
  | fuel + 1 =>
    match (skipToLexeme? (l.cursor.rest.length + 1) l).bind dropStale? with
    | none => none
    | some l =>
      let l := l.closeBlocks l.cursor.column
      match l.cursor.next? with
      | none => l.finish?
      | some ch =>
        match l.readLexeme ch with
        | none => none
        | some l => run fuel l

end Lexer

/-- The lexemes of a text. -/
def lexemes? (s : String) : Option (List Lexeme) :=
  let l := Lexer.start s
  l.run (l.cursor.rest.length + 1)

end AccessRules.Yaml
