/-
# Levels of events

Five levels run from errors to traces.  A threshold lets through the levels up to itself.  A text
names a level in any ASCII case or by its number, one for errors up to five for traces.
-/
import AccessRules.Json.Read
import AccessRules.Text.Case

namespace AccessRules

/-- How much an event matters. -/
inductive Level where
  | error
  | warn
  | info
  | debug
  | trace
  deriving DecidableEq

namespace Level

/-- The number of a level. -/
def number : Level → Nat
  | error => 1
  | warn => 2
  | info => 3
  | debug => 4
  | trace => 5

/-- The level of a number. -/
def ofNumber? : Nat → Option Level
  | 1 => some error
  | 2 => some warn
  | 3 => some info
  | 4 => some debug
  | 5 => some trace
  | _ => none

/-- The name of a level, in capitals. -/
def name : Level → String
  | error => "ERROR"
  | warn => "WARN"
  | info => "INFO"
  | debug => "DEBUG"
  | trace => "TRACE"

/-- All levels. -/
def all : List Level := [error, warn, info, debug, trace]

/-- The level that a text names in any ASCII case. -/
def named? (text : String) : Option Level :=
  all.find? fun l => Text.lowerAscii l.name == Text.lowerAscii text

/-- The number that decimal digits with an optional plus sign form. -/
def countOf? (text : String) : Option Nat :=
  let digits :=
    match text.toList with
    | '+' :: rest => rest
    | cs => cs
  if !digits.isEmpty && digits.all Char.isDigit then some (Json.naturalOf digits) else none

/-- The level that a text stands for, by name or by number. -/
def parse? (text : String) : Option Level :=
  match named? text with
  | some l => some l
  | none => (countOf? text).bind ofNumber?

end Level

end AccessRules
