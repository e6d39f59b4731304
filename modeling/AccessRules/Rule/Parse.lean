/-
# Reading rule text

Precedence, from loose to tight: `OR`, `AND`, `NOT`.  Both binary operators associate to the
left.  A check name is one or more words, joined by single spaces.

The reader takes the tokens from left to right.  What is still open is a stack of frames: a left
operand waiting for its right one, a `NOT` waiting for its operand, an open parenthesis.  A token
either moves the reader on or stops it, and there is no going back, so the place of an error is
the first token at which the text stops being the beginning of a rule.
-/
import AccessRules.Rule.Formula
import AccessRules.Rule.Token

namespace AccessRules

/-! ## 1. Errors -/

/-- Why a text is no rule, or why a rule cannot be used. -/
inductive RuleFault where
  /-- The text holds white space only. -/
  | empty
  /-- An open parenthesis lacks its partner. -/
  | unclosed
  /-- The text ends where an operand must stand. -/
  | missingOperand
  /-- A closing parenthesis has no partner. -/
  | unexpectedClose
  /-- An operator stands where an operand must stand. -/
  | operandBefore (op : Operator)
  /-- Any other text that cannot stand here, of which the first characters are kept. -/
  | unexpected (excerpt : String)
  /-- A name to which no check is bound. -/
  | unknownCheck (name : String)
  deriving DecidableEq

/-- A fault and the byte offset at which it shows, if it has one. -/
structure RuleError where
  fault : RuleFault
  position : Option Nat
  deriving DecidableEq

/-- The wording of a fault. -/
def RuleFault.message : RuleFault → String
  | .empty => "empty permission expression"
  | .unclosed => "unbalanced parentheses: expected ')'"
  | .missingOperand => "missing operand"
  | .unexpectedClose => "unbalanced parentheses: unexpected ')'"
  | .operandBefore op => "missing operand before '" ++ op.spelling ++ "'"
  | .unexpected excerpt => "unexpected input '" ++ excerpt ++ "'"
  | .unknownCheck name => "unknown check '" ++ name ++ "'"

/-- The wording of the fault alone. -/
def RuleError.message (e : RuleError) : String := e.fault.message

/-- The wording of an error with its position. -/
def RuleError.text (e : RuleError) : String :=
  match e.position with
  | some p => e.message ++ " at position " ++ toString p
  | none => e.message

namespace Rule

/-! ## 2. The reader -/

/-- Something begun to the left of the place where the reader stands. -/
inductive Frame where
  | andLeft (left : Rule)
  | orLeft (left : Rule)
  | negation
  | group
  deriving DecidableEq

/-- Where the reader stands: before an operand, inside a check name, or after a closed group. -/
inductive Reader where
  | operand (stack : List Frame)
  | name (stack : List Frame) (words : List String)
  | closed (stack : List Frame) (rule : Rule)
  deriving DecidableEq

/-- The check name that the words form. -/
def nameOfWords (words : List String) : String := " ".intercalate words

/-- Completes the negations that wait for this operand. -/
def closeNegations : List Frame → Rule → List Frame × Rule
  | .negation :: stack, r => closeNegations stack (.not r)
  | stack, r => (stack, r)

/-- Completes everything that binds tighter than `AND`, and a conjunction to the left. -/
def closeConjunction (stack : List Frame) (r : Rule) : List Frame × Rule :=
  match closeNegations stack r with
  | (.andLeft l :: stack, r) => (stack, .and l r)
  | closed => closed

/-- Completes everything that binds tighter than `OR`, and a disjunction to the left. -/
def closeDisjunction (stack : List Frame) (r : Rule) : List Frame × Rule :=
  match closeConjunction stack r with
  | (.orLeft l :: stack, r) => (stack, .or l r)
  | closed => closed

/-- The reader after a token that follows a complete operand. -/
def stepAfter (stack : List Frame) (r : Rule) : Token → Option Reader
  | .operator .and =>
    let (stack, l) := closeConjunction stack r
    some (.operand (.andLeft l :: stack))
  | .operator .or =>
    let (stack, l) := closeDisjunction stack r
    some (.operand (.orLeft l :: stack))
  | .closing =>
    match closeDisjunction stack r with
    | (.group :: stack, r) => some (.closed stack r)
    | _ => none
  | _ => none

/-- The reader after one more token, or nothing where the token cannot stand. -/
def Reader.step : Reader → Token → Option Reader
  | .operand stack, .opening => some (.operand (.group :: stack))
  | .operand stack, .operator .not => some (.operand (.negation :: stack))
  | .operand stack, .word w => some (.name stack [w])
  | .operand _, _ => none
  | .name stack words, .word w => some (.name stack (words ++ [w]))
  | .name stack words, t => stepAfter stack (.leaf (nameOfWords words)) t
  | .closed stack r, t => stepAfter stack r t

/-- The rule of a complete operand at the end of the text, if nothing is left open. -/
def finish (stack : List Frame) (r : Rule) : Option Rule :=
  match closeDisjunction stack r with
  | ([], r) => some r
  | _ => none

/-- The rule read at the end of the text. -/
def Reader.result? : Reader → Option Rule
  | .operand _ => none
  | .name stack words => finish stack (.leaf (nameOfWords words))
  | .closed stack r => finish stack r

/-- Whether the reader stands after an operand inside parentheses, so that only an operator or a
closing parenthesis can follow. -/
def Reader.awaitsClose : Reader → Bool
  | .operand _ => false
  | .name stack _ => stack.contains .group
  | .closed stack _ => stack.contains .group

/-- Reads all tokens.  Where a token cannot stand, or the text ends too early, the reader is
returned with the text that starts there. -/
def run : Reader → List Placed → Except (Reader × List Char) Rule
  | reader, [] =>
    match reader.result? with
    | some r => .ok r
    | none => .error (reader, [])
  | reader, p :: ps =>
    match reader.step p.token with
    | some next => run next ps
    | none => .error (reader, p.rest)

/-! ## 3. Naming the error -/

/-- How many characters an error quotes. -/
def excerptLength : Nat := 20

/-- The fault that shows where a reader is stuck before the given text. -/
def faultAt (reader : Reader) (remaining : List Char) : RuleFault :=
  if reader.awaitsClose then .unclosed
  else
    match remaining with
    | [] => .missingOperand
    | ')' :: _ => .unexpectedClose
    | _ =>
      match Operator.ofSpelling? (String.ofList (remaining.takeWhile isWordChar)) with
      | some op => .operandBefore op
      | none => .unexpected (String.ofList (remaining.take excerptLength))

/-- The error of a reader that is stuck before `rest`, a tail of `text`.  Its position is the
first character there that is not white space. -/
def errorAt (text : List Char) (reader : Reader) (rest : List Char) : RuleError :=
  let remaining := Text.trimStart rest
  ⟨faultAt reader remaining, some (Text.byteLength text - Text.byteLength remaining)⟩

/-- Reads a rule. -/
def parse (text : String) : Except RuleError Rule :=
  if Text.isBlank text then .error ⟨.empty, none⟩
  else
    match run (.operand []) (tokens text.toList) with
    | .ok r => .ok r
    | .error (reader, rest) => .error (errorAt text.toList reader rest)

end Rule

end AccessRules
