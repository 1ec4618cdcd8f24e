import TokenGrammar.Number.Shortest
import TokenGrammar.Text.Natural

namespace TokenGrammar.Binary64

/-- How numbers are written that are not in positional notation, and those that are not
finite. -/
structure Layout where
  plusSign : Bool
  infinity : String
  notANumber : String

/-- The digits of the decimal `digits * 10 ^ power` with a point in them, and always a digit on
both of its sides. -/
def positional (digits : List Char) (power : Int) : List Char :=
  let scale := power.toNat
  let places := (-power).toNat
  if 0 ≤ power then digits ++ List.replicate scale '0' ++ ['.', '0']
  else if places < digits.length then
    digits.take (digits.length - places) ++ '.' :: digits.drop (digits.length - places)
  else '0' :: '.' :: List.replicate (places - digits.length) '0' ++ digits

def scientific (layout : Layout) (digits : List Char) (exponent : Int) : List Char :=
  let fraction := digits.drop 1
  digits.take 1 ++ (if fraction.isEmpty then [] else '.' :: fraction) ++ 'e'
    :: (if exponent < 0 then ['-'] else if layout.plusSign then ['+'] else [])
    ++ Nat.toDigits 10 exponent.natAbs

/-- The shortest text that reads back as the number: positional between `10 ^ -5` and
`10 ^ 16`, with an exponent outside. -/
def render (layout : Layout) : Binary64 → String
  | notANumber => layout.notANumber
  | infinite negative => (if negative then "-" else "") ++ layout.infinity
  | finite negative mantissa exponent =>
    let sign := if negative then "-" else ""
    if mantissa = 0 then sign ++ "0.0"
    else
      let (value, power) := shortest mantissa exponent
      let digits := Nat.toDigits 10 value
      let leading := power + (digits.length : Int) - 1
      let text := if -5 ≤ leading ∧ leading < 16 then positional digits power
        else scientific layout digits leading
      sign ++ String.ofList text

/-- Reads the exponent of a decimal, if there is one. -/
def readExponent : List Char → Option Int
  | [] => some 0
  | mark :: text =>
    if mark = 'e' ∨ mark = 'E' then
      match text with
      | '-' :: digits => (Text.readDigits digits).map fun value => -Int.ofNat value
      | '+' :: digits => (Text.readDigits digits).map Int.ofNat
      | digits => (Text.readDigits digits).map Int.ofNat
    else none

/-- Reads digits, perhaps with a point before, between or after them, and an exponent. -/
def readUnsigned (negative : Bool) (text : List Char) : Option Binary64 :=
  let whole := text.takeWhile Char.isDigit
  let rest := text.dropWhile Char.isDigit
  let (fraction, rest) := match rest with
    | '.' :: rest => (rest.takeWhile Char.isDigit, rest.dropWhile Char.isDigit)
    | _ => ([], rest)
  let digits := whole ++ fraction
  if digits.isEmpty then none
  else (readExponent rest).map fun exponent =>
    ofDecimal negative (Text.decimalValue digits) (exponent - fraction.length)

/-- Reads a number in decimal notation with an optional sign, or the name of a number that is
not finite, in any case. -/
def ofText? (text : List Char) : Option Binary64 :=
  let (negative, text) := match text with
    | '-' :: rest => (true, rest)
    | '+' :: rest => (false, rest)
    | _ => (false, text)
  match String.ofList (text.map Char.toLower) with
  | "inf" | "infinity" => some (infinite negative)
  | "nan" => some notANumber
  | _ => readUnsigned negative text

end TokenGrammar.Binary64
