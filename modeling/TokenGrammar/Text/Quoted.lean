import TokenGrammar.Text.Printable

namespace TokenGrammar.Text

/-- How one character is written between double quotes. A character that is not printable is
written as its code point in lower-case hexadecimal digits. -/
def quoteCharacter : Char → List Char
  | '\x00' => ['\\', '0']
  | '\t' => ['\\', 't']
  | '\n' => ['\\', 'n']
  | '\r' => ['\\', 'r']
  | '"' => ['\\', '"']
  | '\\' => ['\\', '\\']
  | c =>
    if isPrintable c then [c]
    else ['\\', 'u', '{'] ++ Nat.toDigits 16 c.toNat ++ ['}']

def quoteCharacters (text : List Char) : List Char :=
  '"' :: text.flatMap quoteCharacter ++ ['"']

/-- The text in double quotes, on one line and with every character visible. -/
def quoted (text : String) : String :=
  String.ofList (quoteCharacters text.toList)

end TokenGrammar.Text
