import TokenGrammar.Lexer.Error
import TokenGrammar.Text.Bytes
import TokenGrammar.Token

namespace TokenGrammar.Json

/-! The tokens of JSON text. Each kind of token starts with characters of its own and is as long
as it can be. -/

/-- A token at the start of a text, with its type, and the text after it. -/
structure Lexeme where
  type : String
  text : List Char
  rest : List Char
deriving DecidableEq, Repr

namespace Lexeme

/-- White space between tokens. -/
def isBlank (c : Char) : Bool :=
  c == ' ' || c == '\t' || c == '\r' || c == '\n' || c == '\x0c'

def isPunctuation (c : Char) : Bool :=
  c == '\x7b' || c == '\x7d' || c == ',' || c == ':' || c == '[' || c == ']'

/-- A point and the digits after it, if there are any. -/
def fraction : List Char → List Char × List Char
  | '.' :: text =>
    match text.takeWhile Char.isDigit with
    | [] => ([], '.' :: text)
    | digits => ('.' :: digits, text.dropWhile Char.isDigit)
  | text => ([], text)

/-- The sign of an exponent, if it has one. -/
def sign : List Char → List Char × List Char
  | '-' :: text => (['-'], text)
  | '+' :: text => (['+'], text)
  | text => ([], text)

/-- The mark of an exponent, its sign and its digits, if there are any. -/
def exponent : List Char → List Char × List Char
  | mark :: text =>
    if mark = 'e' ∨ mark = 'E' then
      let (sign, afterSign) := sign text
      match afterSign.takeWhile Char.isDigit with
      | [] => ([], mark :: text)
      | digits => (mark :: sign ++ digits, afterSign.dropWhile Char.isDigit)
    else ([], mark :: text)
  | [] => ([], [])

/-- A number without its sign. -/
def unsigned? (text : List Char) : Option (List Char × List Char) :=
  match text.takeWhile Char.isDigit with
  | [] => none
  | digits =>
    let (fraction, rest) := fraction (text.dropWhile Char.isDigit)
    let (exponent, rest) := exponent rest
    some (digits ++ fraction ++ exponent, rest)

def number? : List Char → Option Lexeme
  | '-' :: text => (unsigned? text).map fun (digits, rest) => ⟨"number", '-' :: digits, rest⟩
  | text => (unsigned? text).map fun (digits, rest) => ⟨"number", digits, rest⟩

/-- The rest of a string up to its closing quote. A backslash takes the character after it with
it, but no line feed. -/
def stringRest : List Char → Option (List Char × List Char)
  | [] => none
  | '"' :: rest => some (['"'], rest)
  | ['\\'] => none
  | '\\' :: c :: rest =>
    if c = '\n' then none
    else (stringRest rest).map fun (text, rest) => ('\\' :: c :: text, rest)
  | c :: rest => (stringRest rest).map fun (text, rest) => (c :: text, rest)

/-- The token at the start of a text. -/
def next? : List Char → Option Lexeme
  | 'n' :: 'u' :: 'l' :: 'l' :: rest => some ⟨"null", ['n', 'u', 'l', 'l'], rest⟩
  | 't' :: 'r' :: 'u' :: 'e' :: rest => some ⟨"bool", ['t', 'r', 'u', 'e'], rest⟩
  | 'f' :: 'a' :: 'l' :: 's' :: 'e' :: rest => some ⟨"bool", ['f', 'a', 'l', 's', 'e'], rest⟩
  | '"' :: text => (stringRest text).map fun (body, rest) => ⟨"string", '"' :: body, rest⟩
  | c :: rest => if isPunctuation c then some ⟨"op", [c], rest⟩ else number? (c :: rest)
  | [] => none

end Lexeme

/-- The tokens of a text from an offset on. Each step takes a character at least, so the length
of the text bounds the steps. -/
def tokensFrom : Nat → Nat → List Char → Except LexError (List Token)
  | _, _, [] => .ok []
  | 0, offset, _ => .error (.noMatch offset)
  | steps + 1, offset, c :: text =>
    if Lexeme.isBlank c then tokensFrom steps (offset + c.utf8Size) text
    else match Lexeme.next? (c :: text) with
      | none => .error (.noMatch offset)
      | some lexeme => do
        let tokens ← tokensFrom steps (offset + Text.byteLength lexeme.text) lexeme.rest
        return .ordinary lexeme.type (String.ofList lexeme.text) :: tokens

def tokenise (source : String) : Except LexError (List Token) :=
  let text := source.toList
  tokensFrom text.length 0 text

end TokenGrammar.Json
