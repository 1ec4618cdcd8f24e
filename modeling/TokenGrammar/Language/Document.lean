import TokenGrammar.Language.Compile
import TokenGrammar.Language.Json
import TokenGrammar.Language.Sexpr
import TokenGrammar.Language.Sjson
import TokenGrammar.Layout

namespace TokenGrammar

inductive DocumentError where
  | unknownLanguage (name : String)
  | lex (error : LexError)
  | parse (error : ParseError)
  | compile (error : CompileError)
deriving DecidableEq, Repr

namespace Language

def declarations : Language → List Declaration
  | json => Json.declarations
  | sexpr => Sexpr.declarations
  | sjson => Sjson.declarations

def grammar (language : Language) : Grammar := .ofDeclarations language.declarations

/-- The rule of a whole document. -/
def root : Language → Symbol
  | json => .rule "Json"
  | sexpr => .rule "SExpr"
  | sjson => .rule "Sjson"

/-- The compiled rules, the root first. -/
def descriptors (language : Language) : Except GrammarError (List Descriptor) :=
  language.declarations.mapM Declaration.compile

def sexprLexer : Except LexError Lexer := Lexer.ofDefinitions Sexpr.definitions

def sjsonLexer : Except LexError Lexer := Lexer.ofDefinitions Sjson.definitions

def tokenise : Language → String → Except LexError (List Token)
  | json, source => TokenGrammar.Json.tokenise source
  | sexpr, source => do (← sexprLexer).tokenise source
  | sjson, source => do (← sjsonLexer).tokenise source

/-- Parses a document where the cursor stands. -/
def parse (language : Language) (complete : Bool) : Parser Tree :=
  language.grammar.parseFrom language.root complete

end Language

namespace DocumentError

def message : DocumentError → String
  | unknownLanguage name =>
    "unknown language '" ++ name ++ "' (expected "
      ++ Text.joinWith ", " (Language.all.map Language.name) ++ ")"
  | lex error => "lex error: " ++ error.message
  | parse error => "parse error: " ++ error.message
  | compile error => "compile error: " ++ error.message

/-- The text of the error that this one stands for. -/
def source? : DocumentError → Option String
  | unknownLanguage _ => none
  | lex error => some error.message
  | parse error => some error.message
  | compile error => some error.message

end DocumentError

structure Document where
  language : Language
  tree : Tree

namespace Document

def pretty (document : Document) (width : Nat) : String := document.tree.pretty width

def compile (document : Document) : Except CompileError JsonValue :=
  match document.language with
  | .sexpr => .error (.unsupported Language.sexpr.name)
  | _ => document.tree.compile

end Document

namespace Language

/-- A document read from a text, and what was logged on the way. -/
structure Reading where
  result : Except DocumentError Document
  log : List LogLine

def find (name : String) : Except DocumentError Language :=
  match ofName? name with
  | some language => .ok language
  | none => .error (.unknownLanguage name)

/-- Tokenises and parses a text. -/
def read (language : Language) (options : ParseOptions) (source : String) : Reading :=
  match language.tokenise source with
  | .error error => ⟨.error (.lex error), []⟩
  | .ok tokens =>
    let run := language.parse options.complete (.start tokens)
    let log := Grammar.logOf run options.trace
    match run.outcome with
    | .matched tree _ => ⟨.ok ⟨language, tree⟩, log⟩
    | .failed error _ => ⟨.error (.parse error), log⟩
    | .stuck fault stop => ⟨.error (.parse (.atCursor (.message fault.message) stop)), log⟩

end Language
end TokenGrammar
