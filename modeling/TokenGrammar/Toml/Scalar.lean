import TokenGrammar.Number.Text
import TokenGrammar.Text.Split
import TokenGrammar.Toml.Value

namespace TokenGrammar.Toml

/-! Values of one word: booleans, numbers, dates and times. -/

/-- The characters of such words. -/
def isWordCharacter (c : Char) : Bool :=
  c.isAlphanum || c == '+' || c == '-' || c == '.' || c == ':' || c == '_'

/-- Digits, with underscores only between two of them. -/
def isGrouped (radix : Nat) (text : List Char) : Bool :=
  (Text.splitAt '_' text).all fun group => (Text.readRadix radix group).isSome

def withoutGroups (text : List Char) : List Char := text.filter (· != '_')

/-- A sign and the text after it. -/
def splitSign : List Char → Bool × List Char
  | '-' :: rest => (true, rest)
  | '+' :: rest => (false, rest)
  | text => (false, text)

/-- Decimal digits that do not start with a needless zero. -/
def isDecimal (text : List Char) : Bool :=
  isGrouped 10 text && (text.length == 1 || text.head? != some '0')

def readGrouped (radix : Nat) (text : List Char) : Option Int :=
  if isGrouped radix text then (Text.readRadix radix (withoutGroups text)).map Int.ofNat else none

def readInteger : List Char → Option Int
  | '0' :: 'x' :: digits => readGrouped 16 digits
  | '0' :: 'o' :: digits => readGrouped 8 digits
  | '0' :: 'b' :: digits => readGrouped 2 digits
  | text =>
    let (negative, digits) := splitSign text
    if isDecimal digits then
      (readGrouped 10 digits).map fun value => if negative then -value else value
    else none

/-- Integers are those of 64 bits. -/
def integer? (text : List Char) : Option Int :=
  (readInteger text).filter fun value => decide (-Nat.pow 2 63 ≤ value ∧ value < Nat.pow 2 63)

/-- The mark of an exponent, an optional sign and digits. -/
def isExponent : List Char → Bool
  | mark :: text => (mark == 'e' || mark == 'E') && isGrouped 10 (splitSign text).2
  | [] => false

/-- A fraction or an exponent or both, after the digits of the whole part. -/
def isFractional (text : List Char) : Bool :=
  let isDigit := fun c : Char => c.isDigit || c == '_'
  let whole := text.takeWhile isDigit
  isDecimal whole && match text.dropWhile isDigit with
    | '.' :: rest =>
      isGrouped 10 (rest.takeWhile isDigit)
        && (rest.all isDigit || isExponent (rest.dropWhile isDigit))
    | rest => isExponent rest

/-- A number with a fraction or an exponent must not be too large. -/
def float? (text : List Char) : Option Binary64 :=
  let (negative, unsigned) := splitSign text
  match String.ofList unsigned with
  | "inf" => some (.infinite negative)
  | "nan" => some .notANumber
  | _ =>
    if isFractional unsigned then
      (Binary64.ofText? (withoutGroups text)).filter (· != .infinite false)
    else none

/-- Whether two characters write a number in a range. -/
def isPair (low high : Nat) (tens ones : Char) : Bool :=
  match Text.readDigits [tens, ones] with
  | some value => low ≤ value && value ≤ high
  | none => false

def daysInMonth (year month : Nat) : Nat :=
  if month = 2 then
    if year % 4 = 0 ∧ (year % 100 ≠ 0 ∨ year % 400 = 0) then 29 else 28
  else if month = 4 ∨ month = 6 ∨ month = 9 ∨ month = 11 then 30
  else 31

def isDate : List Char → Bool
  | [a, b, c, d, '-', e, f, '-', g, h] =>
    match Text.readDigits [a, b, c, d], Text.readDigits [e, f] with
    | some year, some month =>
      1 ≤ month && month ≤ 12 && isPair 1 (daysInMonth year month) g h
    | _, _ => false
  | _ => false

/-- Nothing, or the distance to universal time. -/
def isOffset : List Char → Bool
  | [] => true
  | ['Z'] => true
  | ['z'] => true
  | [sign, a, b, ':', c, d] => (sign == '+' || sign == '-') && isPair 0 23 a b && isPair 0 59 c d
  | _ => false

/-- A time of day with seconds and perhaps a fraction of one, before an end of a kind. -/
def isTime (ends : List Char → Bool) : List Char → Bool
  | a :: b :: ':' :: c :: d :: ':' :: e :: f :: rest =>
    isPair 0 23 a b && isPair 0 59 c d && isPair 0 60 e f && match rest with
      | '.' :: digits =>
        !(digits.takeWhile Char.isDigit).isEmpty && ends (digits.dropWhile Char.isDigit)
      | rest => ends rest
  | _ => false

/-- A date with a time after a separating letter. -/
def isDateTime (text : List Char) : Bool :=
  isDate (text.take 10) && match text.drop 10 with
    | mark :: time => (mark == 'T' || mark == 't') && isTime isOffset time
    | [] => false

def isMoment (text : List Char) : Bool :=
  isDate text || isDateTime text || isTime List.isEmpty text

/-- The value of a word. -/
def scalar? (word : List Char) : Option Value :=
  match String.ofList word with
  | "true" => some (.bool true)
  | "false" => some (.bool false)
  | text =>
    if isMoment word then some (.moment text)
    else match integer? word with
      | some value => some (.integer value)
      | none => (float? word).map .float

end TokenGrammar.Toml
