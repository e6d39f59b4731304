/-
# Tokens of rule text

Four characters separate tokens: space, tab, line feed and carriage return.  A parenthesis is a
token by itself.  A maximal run of characters that are neither white space nor parentheses is one
token: an operator if it is exactly `AND`, `OR` or `NOT`, a word otherwise.  Any other white space
is a stray token, which no rule contains.

Each token is kept with the text that starts at it, so that a reader of the tokens can say where
it got stuck.
-/
import AccessRules.Text.White

namespace AccessRules

/-- The three operators of rule text. -/
inductive Operator where
  | and
  | or
  | not
  deriving DecidableEq

/-- The spelling of an operator, in capitals only. -/
def Operator.spelling : Operator → String
  | .and => "AND"
  | .or => "OR"
  | .not => "NOT"

/-- The operator with the given spelling. -/
def Operator.ofSpelling? (s : String) : Option Operator :=
  if s = "AND" then some .and
  else if s = "OR" then some .or
  else if s = "NOT" then some .not
  else none

theorem Operator.ofSpelling?_spelling (op : Operator) :
    Operator.ofSpelling? op.spelling = some op := by
  cases op <;> rfl

namespace Rule

/-- One token of rule text. -/
inductive Token where
  | opening
  | closing
  | operator (op : Operator)
  | word (text : String)
  | stray (c : Char)
  deriving DecidableEq

/-- A token together with the text that starts at it. -/
structure Placed where
  token : Token
  rest : List Char
  deriving DecidableEq

/-- Whether a character separates tokens and is itself no token. -/
def isSeparator (c : Char) : Bool :=
  c == ' ' || c == '\t' || c == '\n' || c == '\r'

/-- Whether a character can stand in a word. -/
def isWordChar (c : Char) : Bool :=
  !Text.isWhite c && c != '(' && c != ')'

/-- The token that a run of word characters is. -/
def Token.ofRun (run : List Char) : Token :=
  match Operator.ofSpelling? (String.ofList run) with
  | some op => .operator op
  | none => .word (String.ofList run)

/-- The token that a single character outside of words and separators is. -/
def Token.ofSingle (c : Char) : Token :=
  if c = '(' then .opening else if c = ')' then .closing else .stray c

/-- The tokens of a text from left to right.  Inside a run of word characters no further token
starts. -/
def tokensFrom (inside : Bool) : List Char → List Placed
  | [] => []
  | c :: cs =>
    if isWordChar c then
      if inside then tokensFrom true cs
      else ⟨.ofRun ((c :: cs).takeWhile isWordChar), c :: cs⟩ :: tokensFrom true cs
    else if isSeparator c then tokensFrom false cs
    else ⟨.ofSingle c, c :: cs⟩ :: tokensFrom false cs

/-- The tokens of a text. -/
def tokens (text : List Char) : List Placed := tokensFrom false text

end Rule

end AccessRules
