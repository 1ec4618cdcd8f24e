namespace TokenGrammar.CommandLine

/-- What the program is asked to do with its input. -/
inductive Command where
  | parse
  | tokens
  | describe
deriving DecidableEq, Repr

def Command.ofName? : String → Option Command
  | "parse" => some parse
  | "tokens" => some tokens
  | "describe" => some describe
  | _ => none

/-- How a parsed document is shown. -/
inductive DocumentFormat where
  | pretty
  | json
  | yaml
deriving DecidableEq, Repr

def DocumentFormat.ofName? : String → Option DocumentFormat
  | "pretty" => some pretty
  | "json" => some json
  | "yaml" => some yaml
  | _ => none

/-- How tokens are shown. -/
inductive TokenFormat where
  | text
  | json
deriving DecidableEq, Repr

def TokenFormat.ofName? : String → Option TokenFormat
  | "text" => some text
  | "json" => some json
  | _ => none

/-- Options that take a value. -/
inductive Parameter where
  | config
  | language
  | format
deriving DecidableEq, Repr

/-- Options that stand alone. -/
inductive Flag where
  | verbose
  | complete
  | help
  | version
deriving DecidableEq, Repr

/-- Either kind of option. -/
inductive Choice where
  | parameter (parameter : Parameter)
  | flag (flag : Flag)
deriving DecidableEq, Repr

/-- The options of a command or, without one, those that may stand before it. -/
def Choice.ofName? (command : Option Command) : String → Option Choice
  | "config" => some (parameter .config)
  | "verbose" => some (flag .verbose)
  | "help" => some (flag .help)
  | "version" => if command = none then some (flag .version) else none
  | "lang" => if command = none then none else some (parameter .language)
  | "format" =>
    if command = some .parse ∨ command = some .tokens then some (parameter .format) else none
  | "complete" => if command = some .parse then some (flag .complete) else none
  | _ => none

/-- The one-letter forms; a letter is allowed exactly where its long name is. -/
def Choice.ofLetter? (command : Option Command) : Char → Option Choice
  | 'c' => ofName? command "config"
  | 'v' => ofName? command "verbose"
  | 'h' => ofName? command "help"
  | 'V' => ofName? command "version"
  | 'l' => ofName? command "lang"
  | 'f' => ofName? command "format"
  | _ => none

end TokenGrammar.CommandLine
