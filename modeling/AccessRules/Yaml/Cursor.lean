/-
# Places in a text

A cursor is a place in a text: what is left, how much came before, the line and column, and
whether its line holds only blanks so far.  A line feed breaks a line, and so does a carriage
return; both together are one break.
-/

namespace AccessRules.Yaml

/-! ## 1. Characters -/

/-- Whether a character is a space or a tab. -/
def isBlank (c : Char) : Bool := c == ' ' || c == '\t'

/-- Whether a character breaks a line. -/
def isBreak (c : Char) : Bool := c == '\n' || c == '\r'

/-- Whether a character separates words. -/
def isGap (c : Char) : Bool := isBlank c || isBreak c

/-- Whether a word ends before what comes next: at a gap and at the end of the text. -/
def endsWord (next : Option Char) : Bool := next.all isGap

/-- Whether a line ends before what comes next. -/
def endsLine (next : Option Char) : Bool := next.all isBreak

/-- Whether a character is a sign of flow style. -/
def isFlowSign (c : Char) : Bool := c == ',' || c == '[' || c == ']' || c == '{' || c == '}'

/-- Whether a character can stand in the name of a directive or of a tag's handle. -/
def isNameChar (c : Char) : Bool := c.isAlphanum || c == '_' || c == '-'

/-! ## 2. Cursors -/

/-- A place in a text. -/
structure Cursor where
  rest : List Char
  index : Nat
  line : Nat
  column : Nat
  /-- Whether nothing but blanks stands before the place on its line. -/
  leading : Bool

namespace Cursor

/-- The start of a text.  A null character ends the text. -/
def start (s : String) : Cursor := ⟨s.toList.takeWhile (· ≠ '\x00'), 0, 0, 0, true⟩

/-- The next character. -/
def next? (c : Cursor) : Option Char := c.rest.head?

/-- The character after the next one. -/
def second? (c : Cursor) : Option Char := c.rest[1]?

/-- The place after the next character. -/
def step (c : Cursor) : Cursor :=
  match c.rest with
  | [] => c
  | ch :: cs =>
    if isBreak ch then ⟨cs, c.index + 1, c.line + 1, 0, true⟩
    else ⟨cs, c.index + 1, c.line, c.column + 1, c.leading && isBlank ch⟩

/-- The place after so many characters. -/
def advance : Nat → Cursor → Cursor
  | 0, c => c
  | n + 1, c => advance n c.step

/-- The characters of a kind that come next. -/
def run (c : Cursor) (kind : Char → Bool) : List Char := c.rest.takeWhile kind

/-- The place after the characters of a kind. -/
def skipRun (c : Cursor) (kind : Char → Bool) : Cursor := c.advance (c.run kind).length

/-- The place after a break of lines. -/
def skipBreak (c : Cursor) : Cursor :=
  match c.rest with
  | '\r' :: '\n' :: cs => ⟨cs, c.index + 2, c.line + 1, 0, true⟩
  | _ => c.step

/-- The place at the end of a comment, if one starts here. -/
def skipComment (c : Cursor) : Cursor :=
  if c.next? = some '#' then c.skipRun (!isBreak ·) else c

/-- The place behind the blanks that come next and a comment behind them.  A comment needs a blank
before it. -/
def passBlanks? (c : Cursor) : Option Cursor :=
  if c.next? = some '#' then none else some (c.skipRun isBlank).skipComment

/-- The end of the line, if only blanks and a comment are left of it. -/
def lineEnd? (c : Cursor) : Option Cursor := c.passBlanks?.filter fun c => endsLine c.next?

/-- The place behind the spaces, breaks and comments that come next. -/
def skipEmptyLines (fuel : Nat) (c : Cursor) : Cursor :=
  match fuel with
  | 0 => c
  | fuel + 1 =>
    match c.next? with
    | some ch =>
      if ch = ' ' then skipEmptyLines fuel c.step
      else if ch = '#' then skipEmptyLines fuel c.skipComment
      else if isBreak ch then skipEmptyLines fuel c.skipBreak
      else c
    | none => c

/-- Whether three signs that mark a document stand here, by themselves at the start of a line. -/
def atMark (c : Cursor) (sign : Char) : Bool :=
  c.column == 0 && c.rest.take 3 == [sign, sign, sign] && endsWord c.rest[3]?

/-- Whether a document begins or ends here. -/
def atDocumentMark (c : Cursor) : Bool := c.atMark '-' || c.atMark '.'

end Cursor

end AccessRules.Yaml
