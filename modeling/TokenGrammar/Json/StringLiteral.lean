import TokenGrammar.Text.Natural

namespace TokenGrammar.Json

/-! Reading JSON string literals. -/

/-- Reads the four hexadecimal digits of a UTF-16 unit. -/
def readUnit : List Char → Option (Nat × List Char)
  | a :: b :: c :: d :: rest => (Text.readRadix 16 [a, b, c, d]).map fun value => (value, rest)
  | _ => none

def isHighSurrogate (unit : Nat) : Bool := decide (0xD800 ≤ unit ∧ unit ≤ 0xDBFF)

def isLowSurrogate (unit : Nat) : Bool := decide (0xDC00 ≤ unit ∧ unit ≤ 0xDFFF)

/-- Reads the character of one unit, or of a pair of surrogates. A surrogate alone is none. -/
def readUnicode (text : List Char) : Option (Char × List Char) := do
  let (unit, rest) ← readUnit text
  if isLowSurrogate unit then none
  else if isHighSurrogate unit then
    match rest with
    | '\\' :: 'u' :: rest =>
      let (low, rest) ← readUnit rest
      if isLowSurrogate low then
        return (Char.ofNat (0x10000 + (unit - 0xD800) * 0x400 + (low - 0xDC00)), rest)
      else none
    | _ => none
  else return (Char.ofNat unit, rest)

/-- Reads what follows a backslash. -/
def readEscape : List Char → Option (Char × List Char)
  | '"' :: rest => some ('"', rest)
  | '\\' :: rest => some ('\\', rest)
  | '/' :: rest => some ('/', rest)
  | 'b' :: rest => some ('\x08', rest)
  | 'f' :: rest => some ('\x0c', rest)
  | 'n' :: rest => some ('\n', rest)
  | 'r' :: rest => some ('\r', rest)
  | 't' :: rest => some ('\t', rest)
  | 'u' :: rest => readUnicode rest
  | _ => none

/-- Reads one character of a literal. Control characters must be escaped. -/
def readCharacter : List Char → Option (Char × List Char)
  | [] => none
  | '\\' :: rest => readEscape rest
  | c :: rest => if c.toNat < 0x20 then none else some (c, rest)

/-- Reads the characters of a literal up to its closing quote. The first argument bounds their
number. -/
def readCharacters : Nat → List Char → Option (List Char × List Char)
  | _, '"' :: rest => some ([], rest)
  | 0, _ => none
  | bound + 1, text => do
    let (c, rest) ← readCharacter text
    let (characters, rest) ← readCharacters bound rest
    return (c :: characters, rest)

def isBlank (c : Char) : Bool := c == ' ' || c == '\t' || c == '\n' || c == '\r'

/-- The text that a literal stands for. White space around the literal is ignored. -/
def unquote? (literal : String) : Option String :=
  match literal.toList.dropWhile isBlank with
  | '"' :: text =>
    match readCharacters text.length text with
    | some (characters, rest) =>
      if rest.all isBlank then some (String.ofList characters) else none
    | none => none
  | _ => none

end TokenGrammar.Json
