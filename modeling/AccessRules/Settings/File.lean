/-
# Where settings come from

A settings file is a YAML text with at most one document, which must be a table; a text without a
document is an empty table.  Names of entries are texts or whole numbers, and a name is the same
however it is written: of two such entries the later counts.

A variable of the environment whose name starts with the lead of this service gives one setting.
The rest of the name, in lower case and with every two underscores read as a point, is the path; the
value is a text.

The standard settings lie under those of the file, and the environment lies on top.
-/
import AccessRules.Exchange.Settings
import AccessRules.Settings.Layers
import AccessRules.Yaml.Document

namespace AccessRules

/-! ## 1. Nodes -/

namespace Setting

/-- The name of an entry. -/
def name? : Yaml.Node → Option String
  | .text s => some s
  | .integer i => some (String.ofList (Json.integerText i))
  | _ => none

mutual

/-- The value of a node; an unfit one stands for null.  An infinity, or no number, has a value only
where it is written without a point. -/
def ofNode? : Yaml.Node → Option Setting
  | .unfit => some null
  | .null => some null
  | .bool b => some (bool b)
  | .integer i => some (integer i)
  | .real s => (Floating.parse? s).map floating
  | .text s => some (text s)
  | .sequence items => (ofItems? items).map list
  | .mapping entries => (ofEntries? [] entries).map table

/-- The values of the items of a sequence. -/
def ofItems? : List Yaml.Node → Option (List Setting)
  | [] => some []
  | n :: ns =>
    match ofNode? n, ofItems? ns with
    | some v, some vs => some (v :: vs)
    | _, _ => none

/-- The entries of a mapping, added to those before. -/
def ofEntries? (done : List (String × Setting)) :
    List (Yaml.Node × Yaml.Node) → Option (List (String × Setting))
  | [] => some done
  | (n, v) :: rest =>
    match name? n, ofNode? v with
    | some name, some v => ofEntries? (SortedMap.insertEntry name v done) rest
    | _, _ => none

end

/-! ## 2. Files -/

/-- The entries of a settings file. -/
def ofFile? (s : String) : Option (List (String × Setting)) :=
  match Yaml.Node.documents? s with
  | some [] => some []
  | some [node] => (ofNode? node).bind entries?
  | _ => none

end Setting

/-! ## 3. Variables -/

namespace Environment

/-- What the names of variables start with, in lower case. -/
def lead : List Char := "rsperm_".toList

/-- The text with every two underscores, from the left, read as a point. -/
def separated : List Char → List Char
  | '_' :: '_' :: cs => '.' :: separated cs
  | c :: cs => c :: separated cs
  | [] => []

/-- The path of a variable of this service. -/
def path? (name : String) : Option String :=
  let cs := (Text.lower name).toList
  if lead.isPrefixOf cs then some (String.ofList (separated (cs.drop lead.length))) else none

/-- The layer that variables give. -/
def layer (assigned : List (String × String)) : List (String × Setting) :=
  assigned.filterMap fun v => (path? v.1).map (·, .text v.2)

end Environment

/-! ## 4. Loading -/

namespace ServerSettings

/-- The layer at the bottom: the standard settings of the engine and of the log. -/
def standardLayer : List (String × Setting) :=
  let engine := EngineSettings.standard
  let log := LogSettings.standard
  [("engine", .table [("cache_initial_capacity", .integer engine.initialCapacity),
      ("include_diagnostics", .bool engine.showsDiagnostics)]),
    ("logging", .table [("json", .bool log.json), ("level", .text log.level)])]

/-- The settings that layers over the standard settings give, if they are in order. -/
def ofLayers (layers : List (List (String × Setting))) : Except SettingsError ServerSettings :=
  match ofSource? (Setting.stack (standardLayer :: layers)) with
  | none => .error .unreadable
  | some s =>
    match s.validate with
    | .error e => .error e
    | .ok () => .ok s

/-- The settings of the environment alone. -/
def ofEnvironment (assigned : List (String × String)) : Except SettingsError ServerSettings :=
  ofLayers [Environment.layer assigned]

/-- The settings of a file, with the environment over them. -/
def load (file : String) (assigned : List (String × String)) :
    Except SettingsError ServerSettings :=
  match Setting.ofFile? file with
  | none => .error .unreadable
  | some layer => ofLayers [layer, Environment.layer assigned]

end ServerSettings

end AccessRules
