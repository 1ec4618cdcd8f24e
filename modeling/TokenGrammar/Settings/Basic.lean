import TokenGrammar.Settings.Convert
import TokenGrammar.Settings.Path
import TokenGrammar.Text.Quoted
import TokenGrammar.Toml.Document

namespace TokenGrammar

/-- What can be set. -/
structure Settings where
  /-- Whether the root rule has to take the whole input. -/
  complete : Bool := false
  /-- Whether the log tells of every rule. -/
  trace : Bool := false
  /-- The columns by which a printed tree is indented. -/
  indent : Nat := 2
  level : LogLevel := .warn
deriving DecidableEq, Repr

inductive SettingsError where
  /-- An override whose key is not a path. -/
  | malformedKey (key : String)
  | missingFile
  | malformedFile
  /-- A path to a place before the first item. -/
  | missingPlace
  /-- A setting that is missing or means nothing of its kind. -/
  | unsuitableValue
deriving DecidableEq, Repr

def SettingsError.message : SettingsError → String
  | malformedKey key => "malformed key " ++ Text.quoted key
  | missingFile => "configuration file not found"
  | malformedFile => "configuration file is not valid TOML"
  | missingPlace => "position before the first item"
  | unsuitableValue => "missing or unsuitable value"

namespace Settings

/-- The settings as groups by name. -/
def toSetting (settings : Settings) : Setting :=
  .table [
    ("parse", .table [("complete", .bool settings.complete), ("trace", .bool settings.trace)]),
    ("pretty", .table [("indent", .integer settings.indent)]),
    ("log", .table [("level", .string settings.level.name)])]

def ofSetting? (setting : Setting) : Option Settings := do
  let parse ← setting.field? "parse" 0
  let pretty ← setting.field? "pretty" 1
  let log ← setting.field? "log" 2
  return {
    complete := ← (← parse.field? "complete" 0).toBool?
    trace := ← (← parse.field? "trace" 1).toBool?
    indent := ← (← pretty.field? "indent" 0).toCount?
    level := ← (← log.field? "level" 0).toLevel? }

/-- A file of settings, with its text if it exists. -/
structure Layer where
  text? : Option String
  required : Bool := true

/-- The text of a file without the byte order mark that may stand before it. -/
def contents (text : String) : List Char :=
  if text.toList.head? = some '\uFEFF' then text.toList.drop 1 else text.toList

/-- Puts one entry of a file into the settings. A key that is no path is a name. -/
def addEntry (setting : Setting) (entry : String × Setting) : Option Setting :=
  setting.assign ((Setting.path? entry.1).getD [.key entry.1]) entry.2

def addLayer (setting : Setting) (layer : Layer) : Except SettingsError Setting :=
  match layer.text? with
  | none => if layer.required then .error .missingFile else .ok setting
  | some text =>
    match Toml.parse (contents text) with
    | none => .error .malformedFile
    | some document =>
      match (Setting.ofToml document).entries.foldlM addEntry setting with
      | some setting => .ok setting
      | none => .error .missingPlace

/-- The settings of files over the defaults, a later file over an earlier one, and of overrides
over all of them. -/
def load (layers : List Layer) (overrides : List (String × Setting)) :
    Except SettingsError Settings := do
  let overrides ← overrides.mapM fun (key, value) =>
    match Setting.path? key with
    | some path => .ok (path, value)
    | none => .error (.malformedKey key)
  let layered ← layers.foldlM addLayer ({} : Settings).toSetting
  let overridden := overrides.foldlM
    (fun setting (path, value) => setting.assign path value) layered
  match overridden with
  | none => .error .missingPlace
  | some setting =>
    match ofSetting? setting with
    | some settings => .ok settings
    | none => .error .unsuitableValue

end Settings
end TokenGrammar
