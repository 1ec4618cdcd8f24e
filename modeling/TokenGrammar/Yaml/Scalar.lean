import TokenGrammar.Number.Text

namespace TokenGrammar.Yaml

/-! How a string is written: plain if it reads back as the same string, in single quotes if it
would be taken for something else, as a literal block if it has line feeds, and in double quotes
if it needs escapes. -/

/-- The characters that end a line. -/
def isBreak (c : Char) : Bool :=
  c == '\n' || c == '\r' || c == '\u0085' || c == '\u2028' || c == '\u2029'

/-- The characters that need no escape. -/
def isPrintable (c : Char) : Bool :=
  let code := c.toNat
  code == 0x0A || (0x20 ≤ code && code ≤ 0x7E)
    || (0xA0 ≤ code && code ≤ 0xFFFD && code != 0xFEFF) || 0x10000 ≤ code

/-! What a plain text would be taken for. -/

def isNullWord (text : String) : Bool :=
  text ∈ ["", "~", "null", "Null", "NULL"]

def isBoolWord (text : String) : Bool :=
  text ∈ ["true", "True", "TRUE", "false", "False", "FALSE"]

def isFloatWord (text : String) : Bool :=
  text ∈ [".inf", ".Inf", ".INF", "+.inf", "+.Inf", "+.INF", "-.inf", "-.Inf", "-.INF",
    ".nan", ".NaN", ".NAN"]

/-- The mark of a radix other than ten, and the digits after it. -/
def splitRadix : List Char → Option (Nat × List Char)
  | '0' :: 'x' :: digits => some (16, digits)
  | '0' :: 'o' :: digits => some (8, digits)
  | '0' :: 'b' :: digits => some (2, digits)
  | _ => none

/-- An integer of 128 bits with a mark of its radix. -/
def isMarkedInteger (text : List Char) : Bool :=
  let (bound, unsigned) := match text with
    | '-' :: rest => (Nat.pow 2 127, rest)
    | '+' :: rest => (Nat.pow 2 128 - 1, rest)
    | _ => (Nat.pow 2 128 - 1, text)
  match (splitRadix unsigned).bind fun (radix, digits) => Text.readRadix radix digits with
  | some value => value ≤ bound
  | none => false

def isFiniteDecimal (text : List Char) : Bool :=
  match Binary64.ofText? text with
  | some (.finite _ _ _) => true
  | _ => false

/-- Several digits of which the first is zero. -/
def isZeroLed (text : List Char) : Bool :=
  let unsigned := match text with
    | '-' :: rest => rest
    | '+' :: rest => rest
    | _ => text
  1 < unsigned.length && unsigned.head? == some '0' && unsigned.all Char.isDigit

def readsAsOther (text : List Char) : Bool :=
  let word := String.ofList text
  isNullWord word || isBoolWord word || isFloatWord word || isMarkedInteger text
    || isFiniteDecimal text || isZeroLed text

/-! Where a plain text would end, or be taken for structure. -/

def isIndicator (c : Char) : Bool :=
  c ∈ ['#', ',', '[', ']', '\x7b', '\x7d', '&', '*', '!', '|', '>', '\'', '"', '%', '@', '\x60']

def startsBlank (text : List Char) : Bool :=
  text.isEmpty || text.head? == some ' '

def startsLikeStructure (text : List Char) : Bool :=
  text.take 3 == ['-', '-', '-'] || text.take 3 == ['.', '.', '.'] || match text with
    | c :: rest => isIndicator c || ((c == '?' || c == ':' || c == '-') && startsBlank rest)
    | [] => false

/-- A colon before a space or the end, or a number sign after a space. -/
def hasMark : List Char → Bool
  | [] => false
  | c :: rest =>
    (c == ':' && startsBlank rest) || (c == ' ' && rest.head? == some '#') || hasMark rest

/-- Whether a character of one kind is followed at once by one of another. -/
def hasPair (first second : Char → Bool) : List Char → Bool
  | a :: b :: rest => (first a && second b) || hasPair first second (b :: rest)
  | _ => false

def isSpace (c : Char) : Bool := c == ' '

def hasEnd (kind : Char → Bool) (text : List Char) : Bool :=
  text.head?.any kind || text.getLast?.any kind

inductive Style where
  | plain
  | singleQuoted
  | doubleQuoted
  | literal
deriving DecidableEq, Repr

namespace Style

/-- Whether the characters of a text can stand in a style without escapes. -/
def showsAll (text : List Char) : Bool :=
  text.all isPrintable && !hasPair isSpace isBreak text

def allowsPlain (text : List Char) : Bool :=
  showsAll text && !text.any isBreak && !hasEnd isSpace text && !startsLikeStructure text
    && !hasMark text

def allowsSingleQuoted (text : List Char) : Bool :=
  showsAll text && !hasPair isBreak isSpace text

def allowsLiteral (text : List Char) : Bool :=
  showsAll text && text.getLast? != some ' '

def ofText (text : List Char) : Style :=
  if text.contains '\n' then if allowsLiteral text then literal else doubleQuoted
  else if allowsPlain text && !readsAsOther text then plain
  else if allowsSingleQuoted text then singleQuoted
  else doubleQuoted

end Style

/-- Puts columns before the text that follows the end of a line, also before the first character
if it is said to follow one. -/
def indentLines (columns : Nat) : Bool → List Char → List Char
  | _, [] => []
  | afterBreak, c :: rest =>
    if isBreak c then c :: indentLines columns true rest
    else (if afterBreak then List.replicate columns ' ' else [])
      ++ c :: indentLines columns false rest

/-- A code point in a fixed number of hexadecimal digits. -/
def hexDigits (width code : Nat) : List Char :=
  let digits := (Nat.toDigits 16 code).map Char.toUpper
  List.replicate (width - digits.length) '0' ++ digits

def escapeCharacter (c : Char) : List Char :=
  match c with
  | '\x00' => ['\\', '0']
  | '\x07' => ['\\', 'a']
  | '\x08' => ['\\', 'b']
  | '\t' => ['\\', 't']
  | '\n' => ['\\', 'n']
  | '\x0b' => ['\\', 'v']
  | '\x0c' => ['\\', 'f']
  | '\r' => ['\\', 'r']
  | '\x1b' => ['\\', 'e']
  | '"' => ['\\', '"']
  | '\\' => ['\\', '\\']
  | '\u0085' => ['\\', 'N']
  | '\u2028' => ['\\', 'L']
  | '\u2029' => ['\\', 'P']
  | _ =>
    if isPrintable c then [c]
    else if c.toNat ≤ 0xFF then '\\' :: 'x' :: hexDigits 2 c.toNat
    else if c.toNat ≤ 0xFFFF then '\\' :: 'u' :: hexDigits 4 c.toNat
    else '\\' :: 'U' :: hexDigits 8 c.toNat

def singleQuoted (columns : Nat) (text : List Char) : List Char :=
  '\'' :: indentLines columns false (text.flatMap fun c => if c = '\'' then [c, c] else [c])
    ++ (if text.getLast?.any isBreak then List.replicate columns ' ' else []) ++ ['\'']

def doubleQuoted (text : List Char) : List Char :=
  '"' :: text.flatMap escapeCharacter ++ ['"']

/-- What a literal block says about the ends of lines at its end: none, one or several. -/
def chomping (text : List Char) : List Char :=
  match text.reverse with
  | last :: before =>
    if !isBreak last then ['-']
    else if before.head?.all isBreak then ['+']
    else []
  | [] => ['-']

/-- A literal block. Its indentation is written out if the text itself begins with space. -/
def literal (columns : Nat) (text : List Char) : List Char :=
  let hint := if text.head?.any fun c => isSpace c || isBreak c then ['2'] else []
  '|' :: hint ++ chomping text ++ '\n' :: indentLines columns true text

/-- A string whose further lines, if it takes any, begin at a column. -/
def scalar (columns : Nat) (text : List Char) : List Char :=
  match Style.ofText text with
  | .plain => text
  | .singleQuoted => singleQuoted columns text
  | .doubleQuoted => doubleQuoted text
  | .literal => literal columns text

/-- A string with the end of its last line, which a literal block may have already. -/
def scalarLine (columns : Nat) (text : List Char) : List Char :=
  scalar columns text
    ++ if Style.ofText text = .literal ∧ text.getLast?.any isBreak then [] else ['\n']

end TokenGrammar.Yaml
