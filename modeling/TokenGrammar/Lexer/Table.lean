import TokenGrammar.Lexer.Error
import TokenGrammar.Lexer.Regex
import TokenGrammar.Text.Bytes
import TokenGrammar.Token

namespace TokenGrammar

/-! Lexers as ordered tables of token definitions.

The definitions of a mode are tried in order at each place of the text, and the first whose
pattern matches there decides. A definition may enter another mode, or return to the mode in
which the current one was entered. -/

/-- One kind of token. Without a name its text is skipped. A span, if there is one, decides how
many bytes of the remaining text the token takes once its pattern has matched. -/
structure TokenDefinition where
  pattern : String
  name : Option String := none
  mode : String := ""
  push : Option String := none
  pop : Bool := false
  span : Option (List Char → Nat) := none

/-- The definitions of one mode and the regular expression that matches any of them. -/
structure LexMode where
  name : String
  regex : Regex
  definitions : List TokenDefinition

structure Lexer where
  modes : List LexMode
  initial : String

namespace LexMode

/-- The name under which the pattern of a mode reports a definition. -/
def groupName (index : Nat) : String := "__tok" ++ toString index

/-- The text of the pattern for a list of definitions: a choice, in order, at the start of the
text. -/
def patternText (definitions : List TokenDefinition) : String :=
  let branches := definitions.mapIdx fun index definition =>
    "(?P<" ++ groupName index ++ ">" ++ definition.pattern ++ ")"
  "^(?:" ++ "|".intercalate branches ++ ")"

def compile (library : RegexLibrary) (name : String) (definitions : List TokenDefinition) :
    Except LexError LexMode :=
  match library (patternText definitions) with
  | .ok regex => .ok ⟨name, regex, definitions⟩
  | .error reason => .error (.pattern reason)

/-- The definition that a match reports. -/
def chosen? (mode : LexMode) (captures : Captures) : Option TokenDefinition :=
  (mode.definitions.zipIdx.find? fun (_, index) => captures.groups.contains (groupName index)).map
    (·.1)

end LexMode

namespace Lexer

/-- Definitions put together by mode, in the order in which the modes first occur. -/
def groupByMode (definitions : List TokenDefinition) : List (String × List TokenDefinition) :=
  let modes := definitions.foldl (fun modes definition =>
    if definition.mode ∈ modes then modes else modes ++ [definition.mode]) []
  modes.map fun mode => (mode, definitions.filter (·.mode == mode))

/-- The mode that a definition enters although it has no definitions, the first of all. -/
def unknownMode? (grouped : List (String × List TokenDefinition)) : Option String :=
  let pushed := grouped.flatMap fun (_, definitions) => definitions.filterMap (·.push)
  pushed.find? fun mode => !grouped.any (·.1 == mode)

/-- The lexer for a table. It starts in the mode of the first definition. -/
def compile (library : RegexLibrary) (definitions : List TokenDefinition) :
    Except LexError Lexer :=
  match definitions with
  | [] => .error .noDefinitions
  | first :: _ => do
    let grouped := groupByMode definitions
    if let some mode := unknownMode? grouped then throw (.unknownMode mode)
    let modes ← grouped.mapM fun (name, definitions) => LexMode.compile library name definitions
    return ⟨modes, first.mode⟩

/-- The lexer for a table of patterns. -/
def ofDefinitions (definitions : List TokenDefinition) : Except LexError Lexer :=
  compile Pattern.library definitions

/-- The mode that a lexer is in, and those to return to, the last entered first. -/
structure ModeStack where
  current : String
  outer : List String
deriving DecidableEq, Repr

/-- The modes after a token. A definition that enters a mode does not leave one. -/
def ModeStack.after (modes : ModeStack) (definition : TokenDefinition) : Option ModeStack :=
  match definition.push, definition.pop, modes.outer with
  | some mode, _, outer => some ⟨mode, modes.current :: outer⟩
  | none, false, _ => some modes
  | none, true, mode :: outer => some ⟨mode, outer⟩
  | none, true, [] => none

/-- A token read at some place: the definition, its text and the text after it. -/
structure Lexeme where
  definition : TokenDefinition
  text : List Char
  rest : List Char

/-- Reads one token in a mode. -/
def next (mode : LexMode) (offset : Nat) (text : List Char) : Except LexError Lexeme := do
  let some captures := mode.regex text | throw (.noMatch offset)
  let some definition := mode.chosen? captures | throw (.noMatch offset)
  let bytes := definition.span.elim captures.stop (· text)
  if bytes = 0 then throw (.emptyMatch offset)
  match Text.splitBytes bytes text with
  | none => throw (.noMatch offset)
  | some (taken, rest) => return ⟨definition, taken, rest⟩

/-- The token of a lexeme, unless its text is skipped. -/
def Lexeme.token? (lexeme : Lexeme) : Option Token :=
  lexeme.definition.name.map fun name => .ordinary name (String.ofList lexeme.text)

/-- The tokens of a text from an offset on. A token takes a character at least, so the length
of the text bounds the steps. -/
def tokensFrom (lexer : Lexer) : Nat → ModeStack → Nat → List Char → Except LexError (List Token)
  | _, _, _, [] => .ok []
  | 0, _, offset, _ => .error (.noMatch offset)
  | steps + 1, modes, offset, text => do
    let some mode := lexer.modes.find? (·.name == modes.current)
      | throw (.unknownMode modes.current)
    let lexeme ← next mode offset text
    let some modes := modes.after lexeme.definition | throw (.noModeToPop offset)
    let tokens ← lexer.tokensFrom steps modes (offset + Text.byteLength lexeme.text) lexeme.rest
    return lexeme.token?.toList ++ tokens

def tokenise (lexer : Lexer) (source : String) : Except LexError (List Token) :=
  let text := source.toList
  lexer.tokensFrom text.length ⟨lexer.initial, []⟩ 0 text

end Lexer
end TokenGrammar
