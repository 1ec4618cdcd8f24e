import TokenGrammar.CommandLine.Option
import TokenGrammar.Language.Basic

namespace TokenGrammar.CommandLine

/-! Reading arguments. Options may stand before and after the name of the command, but before it
only those that every command has. -/

/-- Why nothing is to be done. -/
inductive Halt where
  | help
  | version
  /-- The arguments make no sense. -/
  | misuse
deriving DecidableEq, Repr

/-- What the arguments have said so far. -/
structure Choices where
  config : Option String := none
  verbosity : Nat := 0
  language : Option Language := none
  documentFormat : Option DocumentFormat := none
  tokenFormat : Option TokenFormat := none
  complete : Bool := false
  path : Option String := none

namespace Choices

/-- Fills in what may be said once. -/
def once (held : Option α) (said : Option α) : Except Halt (Option α) :=
  match held, said with
  | none, some value => .ok (some value)
  | _, _ => .error .misuse

/-- Takes the value of an option. -/
def give (command : Option Command) (choices : Choices) (value : String) :
    Parameter → Except Halt Choices
  | .config => return { choices with config := ← once choices.config (some value) }
  | .language =>
    return { choices with language := ← once choices.language (Language.ofName? value) }
  | .format =>
    if command = some .tokens then
      return { choices with tokenFormat := ← once choices.tokenFormat (TokenFormat.ofName? value) }
    else
      return { choices with
        documentFormat := ← once choices.documentFormat (DocumentFormat.ofName? value) }

def raise (choices : Choices) : Flag → Except Halt Choices
  | .verbose => .ok { choices with verbosity := choices.verbosity + 1 }
  | .complete => if choices.complete then .error .misuse else .ok { choices with complete := true }
  | .help => .error .help
  | .version => .error .version

/-- Takes an argument that is no option. -/
def place (command : Option Command) (choices : Choices) (value : String) : Except Halt Choices :=
  match command with
  | some .parse => return { choices with path := ← once choices.path (some value) }
  | some .tokens => return { choices with path := ← once choices.path (some value) }
  | _ => .error .misuse

end Choices

/-- What has been read, and the option that still wants its value. -/
abbrev Progress := Choices × Option Parameter

/-- Reads an option with a long name. -/
def readLong (command : Option Command) (choices : Choices) (name : String)
    (value : Option String) : Except Halt Progress :=
  match Choice.ofName? command name, value with
  | some (.parameter parameter), some value =>
    return (← choices.give command value parameter, none)
  | some (.parameter parameter), none => .ok (choices, some parameter)
  | some (.flag flag), none => return (← choices.raise flag, none)
  | _, _ => .error .misuse

/-- Reads options by their letters. A letter whose option takes a value has the rest for it,
perhaps after an equals sign. -/
def readLetters (command : Option Command) (choices : Choices) : List Char → Except Halt Progress
  | [] => .ok (choices, none)
  | letter :: rest =>
    match Choice.ofLetter? command letter with
    | none => .error .misuse
    | some (.flag flag) => do readLetters command (← choices.raise flag) rest
    | some (.parameter parameter) =>
      match rest with
      | [] => .ok (choices, some parameter)
      | '=' :: value => return (← choices.give command (String.ofList value) parameter, none)
      | value => return (← choices.give command (String.ofList value) parameter, none)

/-- The forms of an argument. -/
inductive Argument where
  /-- What follows are no options. -/
  | separator
  | long (name : String) (value : Option String)
  | letters (letters : List Char)
  | plain
deriving DecidableEq, Repr

def Argument.ofText (text : String) : Argument :=
  match text.toList with
  | ['-', '-'] => separator
  | '-' :: '-' :: rest =>
    let (name, value) := Text.cutAt '=' rest
    long (String.ofList name) (value.map String.ofList)
  | ['-'] => plain
  | '-' :: rest => letters rest
  | _ => plain

/-- Reads the arguments of a command, or those before it. In the second case the command and its
arguments are left. The value of an option must not look like an option. -/
def readArguments (command : Option Command) (choices : Choices) (wanted : Option Parameter) :
    List String → Except Halt (Choices × List String)
  | [] => if wanted = none then .ok (choices, []) else .error .misuse
  | argument :: rest =>
    match Argument.ofText argument, wanted with
    | .plain, some parameter => do
      readArguments command (← choices.give command argument parameter) none rest
    | _, some _ => .error .misuse
    | .separator, none => return (← rest.foldlM (Choices.place command) choices, [])
    | .long name value, none => do
      let (choices, wanted) ← readLong command choices name value
      readArguments command choices wanted rest
    | .letters letters, none => do
      let (choices, wanted) ← readLetters command choices letters
      readArguments command choices wanted rest
    | .plain, none =>
      if command = none then .ok (choices, argument :: rest)
      else do readArguments command (← choices.place command argument) none rest

end TokenGrammar.CommandLine
