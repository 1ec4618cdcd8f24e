namespace TokenGrammar.Json

/-- The last `width` hexadecimal digits of a number, in lower case. -/
def hexDigits : Nat → Nat → List Char
  | 0, _ => []
  | width + 1, value => hexDigits width (value / 16) ++ [Nat.digitChar (value % 16)]

/-- How a character is written in a JSON string. Only the two delimiters and the control
characters below the space are escaped. -/
def quoteCharacter : Char → List Char
  | '"' => ['\\', '"']
  | '\\' => ['\\', '\\']
  | '\x08' => ['\\', 'b']
  | '\x0c' => ['\\', 'f']
  | '\n' => ['\\', 'n']
  | '\r' => ['\\', 'r']
  | '\t' => ['\\', 't']
  | c => if c.toNat < 0x20 then ['\\', 'u'] ++ hexDigits 4 c.toNat else [c]

def quoteCharacters (text : List Char) : List Char :=
  '"' :: text.flatMap quoteCharacter ++ ['"']

/-- A text as a JSON string. -/
def quoted (text : String) : String := String.ofList (quoteCharacters text.toList)

end TokenGrammar.Json
