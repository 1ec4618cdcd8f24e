import TokenGrammar.CommandLine.Invocation
import TokenGrammar.Json.Printer
import TokenGrammar.Language.Document
import TokenGrammar.Settings.Basic
import TokenGrammar.Yaml.Printer

namespace TokenGrammar.CommandLine

/-- Why a text cannot be read. -/
inductive ReadError where
  | notFound
  | isDirectory
  | notDirectory
  | notText
deriving DecidableEq, Repr

def ReadError.message : ReadError → String
  | notFound => "No such file or directory (os error 2)"
  | isDirectory => "Is a directory (os error 21)"
  | notDirectory => "Not a directory (os error 20)"
  | notText => "stream did not contain valid UTF-8"

/-- The text that bytes stand for. -/
def decode (bytes : ByteArray) : Except ReadError String :=
  match String.fromUTF8? bytes with
  | some text => .ok text
  | none => .error .notText

/-- What the program can read. -/
structure Surroundings where
  file : String → Except ReadError String
  standardInput : Except ReadError String

/-- What a run of the program leaves. -/
structure Report where
  code : Nat := 0
  output : String := ""
  errors : String := ""
deriving DecidableEq, Repr

def Report.failure (message : String) : Report :=
  { code := 1, errors := "Error: " ++ message ++ "\n" }

/-- Puts the lines that a level lets through before the errors. -/
def Report.withLog (report : Report) (level : LogLevel) (log : List LogLine) : Report :=
  let shown := (log.filter (·.level ≤ level)).map fun line => line.render ++ "\n"
  { report with errors := String.join shown ++ report.errors }

def versionText : String := "grammar 0.1.0\n"

def helpText : String :=
  "Parse documents with declarative grammars\n\n"
    ++ "Usage: grammar [OPTIONS] <COMMAND>\n\n"
    ++ "Commands:\n"
    ++ "  parse <path>   Parse a document and print its tree or value\n"
    ++ "  tokens <path>  Print the token stream of a document\n"
    ++ "  describe       Print the compiled rule descriptors of a grammar\n"
    ++ "  help           Print this message\n\n"
    ++ "The path - stands for standard input.\n\n"
    ++ "Options:\n"
    ++ "  -c, --config <config>  Configuration file layered over the defaults\n"
    ++ "  -v, --verbose          Raise the log level (repeat for more)\n"
    ++ "  -l, --lang <lang>      Grammar to use: json, sexpr or sjson\n"
    ++ "  -f, --format <format>  Output format: pretty, json or yaml; text or json for tokens\n"
    ++ "      --complete         Fail unless the whole input is consumed\n"
    ++ "  -h, --help             Print help\n"
    ++ "  -V, --version          Print version\n"

/-- The log level that repeated requests for more ask for. -/
def levelOfVerbosity : Nat → LogLevel
  | 0 => .off
  | 1 => .info
  | 2 => .debug
  | _ => .trace

namespace Surroundings

/-- The text of the configuration file, if one is asked for, and if it exists. -/
def layer? (surroundings : Surroundings) (invocation : Invocation) : Option Settings.Layer :=
  invocation.config.map fun _ =>
    { text? := invocation.configurationFiles.findSome? fun name =>
        (surroundings.file name).toOption }

def settings (surroundings : Surroundings) (invocation : Invocation) :
    Except SettingsError Settings :=
  let overrides : List (String × Setting) := match invocation.action with
    | .parse _ _ _ true => [("parse.complete", .bool true)]
    | _ => []
  Settings.load (surroundings.layer? invocation).toList overrides

/-- The text at a path, a hyphen being standard input. -/
def source (surroundings : Surroundings) (path : String) : Except String String :=
  if path = "-" then
    surroundings.standardInput.mapError fun error =>
      "reading standard input: " ++ error.message
  else
    (surroundings.file path).mapError fun error => "reading " ++ path ++ ": " ++ error.message

end Surroundings

/-- A document in a format. -/
def showDocument (format : DocumentFormat) (indent : Nat) (document : Document) :
    Except CompileError String :=
  match format with
  | .pretty => .ok (document.pretty indent)
  | .json => return (← document.compile).render ++ "\n"
  | .yaml => return (← document.compile).renderYaml

def tokenValue (token : Token) : JsonValue :=
  .object [("type", .string token.type), ("value", .string token.value)]

def showTokens (format : TokenFormat) (tokens : List Token) : String :=
  match format with
  | .text => String.join (tokens.map fun token => token.describe ++ "\n")
  | .json => (JsonValue.array (tokens.map tokenValue)).render ++ "\n"

def parseReport (language : Language) (format : DocumentFormat) (settings : Settings)
    (level : LogLevel) (source : String) : Report :=
  let options : ParseOptions := ⟨settings.complete, settings.trace || decide (.trace ≤ level)⟩
  let reading := language.read options source
  let report : Report := match reading.result with
    | .error error => .failure error.message
    | .ok document =>
      match showDocument format settings.indent document with
      | .ok output => { output }
      | .error error => .failure error.message
  report.withLog level reading.log

def perform (surroundings : Surroundings) (settings : Settings) (level : LogLevel) :
    Action → Report
  | .parse path language format _ =>
    match surroundings.source path with
    | .ok source => parseReport language format settings level source
    | .error message => .failure message
  | .tokens path language format =>
    match surroundings.source path with
    | .ok source =>
      match language.tokenise source with
      | .ok tokens => { output := showTokens format tokens }
      | .error error => .failure error.message
    | .error message => .failure message
  | .describe language =>
    match language.descriptors with
    | .ok descriptors =>
      { output := Text.joinWith "\n" (descriptors.map Descriptor.describe) }
    | .error error => .failure error.message

/-- Runs the program with its arguments. -/
def run (surroundings : Surroundings) (arguments : List String) : Report :=
  match Invocation.ofArguments arguments with
  | .error .help => { output := helpText }
  | .error .version => { output := versionText }
  | .error .misuse => { code := 2, errors := helpText }
  | .ok invocation =>
    match surroundings.settings invocation with
    | .error error => .failure ("invalid configuration: " ++ error.message)
    | .ok settings =>
      perform surroundings settings
        (settings.level.max (levelOfVerbosity invocation.verbosity)) invocation.action

end TokenGrammar.CommandLine
