namespace TokenGrammar.Text

/-- The number written by decimal digits, the most significant first. -/
def decimalValue (digits : List Char) : Nat :=
  digits.foldl (fun value digit => value * 10 + (digit.toNat - '0'.toNat)) 0

/-- The largest count that fits a machine word of 64 bits. -/
def maxWord : Nat := Nat.pow 2 64 - 1

/-- Reads a non-empty run of ASCII decimal digits. -/
def readDigits (text : List Char) : Option Nat :=
  if text ≠ [] ∧ text.all Char.isDigit then some (decimalValue text) else none

/-- Reads a natural number with an optional plus sign, as long as it fits a word. -/
def readWord (text : List Char) : Option Nat :=
  let digits := match text with
    | '+' :: rest => rest
    | _ => text
  (readDigits digits).filter (· ≤ maxWord)

/-- The value of a digit, letters of either case being the digits from ten on. -/
def digit? (radix : Nat) (c : Char) : Option Nat :=
  let value? :=
    if c.isDigit then some (c.toNat - '0'.toNat)
    else if 'a' ≤ c ∧ c ≤ 'f' then some (c.toNat - 'a'.toNat + 10)
    else if 'A' ≤ c ∧ c ≤ 'F' then some (c.toNat - 'A'.toNat + 10)
    else none
  value?.filter (· < radix)

/-- Reads a non-empty run of digits, the most significant first. -/
def readRadix (radix : Nat) (text : List Char) : Option Nat :=
  if text = [] then none
  else text.foldlM (fun value c => (digit? radix c).map (value * radix + ·)) 0

/-- The character with a code point in hexadecimal digits. -/
def codePoint? (digits : List Char) : Option Char :=
  ((readRadix 16 digits).filter Nat.isValidChar).map Char.ofNat

theorem readWord_le {text : List Char} {value : Nat} (h : readWord text = some value) :
    value ≤ maxWord := by
  simp only [readWord, Option.filter_eq_some_iff] at h
  simpa using h.2

end TokenGrammar.Text
