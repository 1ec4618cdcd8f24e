import TokenGrammar.CommandLine.Argument

namespace TokenGrammar.CommandLine

inductive Action where
  | parse (path : String) (language : Language) (format : DocumentFormat) (complete : Bool)
  | tokens (path : String) (language : Language) (format : TokenFormat)
  | describe (language : Language)
deriving DecidableEq, Repr

/-- What the program is to do, and how. -/
structure Invocation where
  config : Option String
  verbosity : Nat
  action : Action
deriving DecidableEq, Repr

namespace Invocation

def actionOf (command : Command) (choices : Choices) : Except Halt Action :=
  let language := choices.language.getD .json
  match command, choices.path with
  | .parse, some path =>
    .ok (.parse path language (choices.documentFormat.getD .pretty) choices.complete)
  | .tokens, some path => .ok (.tokens path language (choices.tokenFormat.getD .text))
  | .describe, _ => .ok (.describe language)
  | _, none => .error .misuse

/-- Help may be asked for one command. -/
def helpOn : List String → Halt
  | [] => .help
  | [topic] => if topic = "help" ∨ (Command.ofName? topic).isSome then .help else .misuse
  | _ => .misuse

/-- What the arguments ask for. What is said after the name of the command has precedence. -/
def ofArguments (arguments : List String) : Except Halt Invocation := do
  let (before, rest) ← readArguments none {} none arguments
  match rest with
  | [] => .error .misuse
  | name :: rest =>
    match Command.ofName? name with
    | some command =>
      let (after, _) ← readArguments (some command) {} none rest
      return {
        config := after.config <|> before.config
        verbosity := if after.verbosity = 0 then before.verbosity else after.verbosity
        action := ← actionOf command after }
    | none => .error (if name = "help" then helpOn rest else .misuse)

/-- The files that the configuration may be in. Its extension may be left out. -/
def configurationFiles (invocation : Invocation) : List String :=
  match invocation.config with
  | some name => [name, name ++ ".toml"]
  | none => []

/-- The path of the text to read, if there is one. -/
def path? (invocation : Invocation) : Option String :=
  match invocation.action with
  | .parse path _ _ _ => some path
  | .tokens path _ _ => some path
  | .describe _ => none

end Invocation
end TokenGrammar.CommandLine
