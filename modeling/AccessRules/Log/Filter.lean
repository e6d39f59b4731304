/-
# Which events reach the log

A filter is a list of directives between commas.  A directive is a level alone, which speaks of
every target, or a target with or without a level; it may also ask for a field that the event must
have, as in `target[{field}]=level`.  A directive about spans or about the value of a field
speaks of no event.  A text that is no directive is passed over, and so is one that asks for the
value of a field by what is neither a number nor a pattern.

Of the directives that speak of an event the most specific decides: the one with the longest
target, then the one that asks for a field.  Without any directive the configured level decides.
-/
import AccessRules.Decimal.Floating
import AccessRules.Log.Lines
import AccessRules.Log.Pattern
import AccessRules.Settings.Basic

namespace AccessRules

/-! ## 1. Thresholds -/

namespace Level

/-- The number that a threshold text stands for: zero lets nothing through. -/
def threshold? (text : String) : Option Nat :=
  match parse? text with
  | some l => some l.number
  | none => if Text.lowerAscii text = "off" ∨ countOf? text = some 0 then some 0 else none

/-- The threshold that lets everything through. -/
def openThreshold : Nat := trace.number

end Level

/-! ## 2. Directives -/

/-- What a filter says about the events of a target. -/
structure Directive where
  /-- The beginning of the targets in question; none speaks of all. -/
  target : Option String
  /-- A field that the event must have. -/
  field : Option String
  /-- The number of the last level that is let through. -/
  threshold : Nat
  /-- Whether the directive speaks of spans or of the value of a field, and so of no event. -/
  unspoken : Bool
  deriving DecidableEq

namespace Directive

/-- Whether a directive about a target can begin with a character. -/
def begins (c : Char) : Bool := c == '-' || c == ':' || c == '_' || Text.isLetterOrNumber c

/-- The directive of a text without `=` and brackets: a level, or else a target. -/
def ofWord (word : String) : Directive :=
  match Level.threshold? word with
  | some n => ⟨none, none, n, false⟩
  | none => ⟨some word, none, Level.openThreshold, false⟩

/-- The threshold that stands after `=`; nothing there lets everything through. -/
def thresholdAfter? (word : String) : Option Nat :=
  if word = "" then some Level.openThreshold else Level.threshold? word

/-- A text, and the same without the white space around it.  A directive is found by its places in
the trimmed text, but its parts are cut from the whole one.  Places are numbers of bytes. -/
structure Cut where
  trimmed : List Char
  whole : List Char

namespace Cut

/-- The cut of a text. -/
def ofText (text : String) : Cut :=
  ⟨Text.trimEnd (Text.trimStart text.toList), text.toList⟩

/-- How many bytes characters take. -/
def size (cs : List Char) : Nat := (String.ofList cs).utf8ByteSize

/-- The characters behind so many bytes, which must not end within a character. -/
def drop? : Nat → List Char → Option (List Char)
  | 0, cs => some cs
  | _ + 1, [] => none
  | n + 1, c :: cs => if c.utf8Size ≤ n + 1 then drop? (n + 1 - c.utf8Size) cs else none

/-- The part of the whole text from one place in the trimmed text up to another; places count
characters there. -/
def part? (t : Cut) (first last : Nat) : Option String :=
  let start := size (t.trimmed.take first)
  let stop := size (t.trimmed.take last)
  match drop? start t.whole, drop? stop t.whole with
  | some cs, some rest => some (String.ofList (cs.take (cs.length - rest.length)))
  | _, _ => none

/-- The part of the whole text from a place in the trimmed text on. -/
def from? (t : Cut) (first : Nat) : Option String :=
  (drop? (size (t.trimmed.take first)) t.whole).map String.ofList

/-- The first place of such a character from a place on. -/
def find? (t : Cut) (first : Nat) (kind : Char → Bool) : Option Nat :=
  ((t.trimmed.drop first).findIdx? kind).map (first + ·)

/-- The threshold that follows a bracket which closes just before the given place. -/
def threshold? (t : Cut) (place : Nat) : Option Nat :=
  match t.trimmed.drop place with
  | [] => some Level.openThreshold
  | '=' :: _ => (t.from? (place + 1)).bind thresholdAfter?
  | _ => none

end Cut

/-- Whether a value can be asked for: a number, or else a pattern. -/
def isValue (value : String) : Bool := (Floating.parse? value).isSome || Pattern.isValid value

/-- The field that a text between braces asks for, and whether it asks for a value. -/
def field? (text : String) : Option (String × Bool) :=
  match text.splitOn "=" with
  | name :: value :: _ => if isValue value then some (name, true) else none
  | _ => if text = "" then none else some (text, false)

/-- Completes a directive whose brackets open just before the given place. -/
def ofBrackets? (t : Cut) (target : Option String) (place : Nat) : Option Directive := do
  let stop ← t.find? place fun c => c == ']' || c == '\x7b'
  if t.trimmed[stop]? = some ']' then
    let n ← t.threshold? (stop + 1)
    some ⟨target, none, n, true⟩
  else
    let close ← t.find? (stop + 1) (· == '\x7d')
    let text ← t.part? (stop + 1) close
    let (name, hasValue) ← field? text
    if t.trimmed[close + 1]? ≠ some ']' then none
    else
      let n ← t.threshold? (close + 2)
      some ⟨target, some name, n, stop ≠ place || hasValue⟩

/-- The directive of a text. -/
def parse? (text : String) : Option Directive :=
  let t := Cut.ofText text
  match t.trimmed with
  | [] => none
  | c :: _ =>
    if c = '[' then ofBrackets? t none 1
    else if !begins c then none
    else
      match t.find? 0 fun c => c == '=' || c == '[' with
      | none => some (ofWord text)
      | some i =>
        match t.part? 0 i with
        | none => none
        | some target =>
          if t.trimmed[i]? = some '=' then
            ((t.from? (i + 1)).bind thresholdAfter?).map fun n => ⟨some target, none, n, false⟩
          else ofBrackets? t (some target) (i + 1)

/-- Whether an event has a field. -/
def hasField (e : Event) (name : String) : Bool :=
  name == "message" || e.fields.any fun f => f.1 == name

/-- Whether the directive speaks of an event. -/
def concerns (d : Directive) (e : Event) : Bool :=
  !d.unspoken && (d.target.all fun t => e.target.startsWith t) && d.field.all (hasField e)

/-- How long the target is, with one more where there is one at all. -/
def targetWeight (d : Directive) : Nat :=
  match d.target with
  | some t => t.utf8ByteSize + 1
  | none => 0

/-- Whether another directive on the same event comes before this one.  Of two alike the later
one counts. -/
def yieldsTo (a b : Directive) : Bool :=
  if a.targetWeight ≠ b.targetWeight then a.targetWeight < b.targetWeight
  else
    match a.field, b.field with
    | some m, some n => m ≤ n
    | none, _ => true
    | some _, none => false

end Directive

/-! ## 3. Filters -/

/-- The directives of a filter, and the level without any. -/
structure LogFilter where
  directives : List Directive
  level : Level

namespace LogFilter

/-- The filter of a text. -/
def parse (text : String) (level : Level) : LogFilter :=
  ⟨((text.splitOn ",").filter (· ≠ "")).filterMap Directive.parse?, level⟩

/-- The directive that decides about an event. -/
def decisive? (f : LogFilter) (e : Event) : Option Directive :=
  (f.directives.filter (·.concerns e)).foldl
    (fun best d =>
      match best with
      | none => some d
      | some b => if b.yieldsTo d then some d else some b) none

/-- Whether an event is let through. -/
def lets (f : LogFilter) (e : Event) : Bool :=
  if f.directives.isEmpty then e.level.number ≤ f.level.number
  else
    match f.decisive? e with
    | some d => e.level.number ≤ d.threshold
    | none => false

end LogFilter

/-! ## 4. The log -/

/-- The resolved settings of the log. -/
structure LogConfig where
  json : Bool
  level : Level
  deriving DecidableEq

namespace LogConfig

/-- The log where no settings are made. -/
def standard : LogConfig := ⟨false, .info⟩

/-- The log that settings describe. -/
def ofSettings (s : LogSettings) : Except SettingsError LogConfig :=
  match Level.parse? s.level with
  | some level => .ok ⟨s.json, level⟩
  | none => .error (.invalid (.levelText s.level))

/-- The events that reach the log. -/
def select (c : LogConfig) (directives : String) (events : List Event) : List Event :=
  events.filter (LogFilter.parse directives c.level).lets

end LogConfig

end AccessRules
