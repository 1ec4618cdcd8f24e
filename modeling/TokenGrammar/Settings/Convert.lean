import TokenGrammar.Log
import TokenGrammar.Settings.Setting
import TokenGrammar.Text.Natural

namespace TokenGrammar

/-- The nearest count that fits a word: a half goes up, and what is below zero or no number
is zero. -/
def Binary64.toWord : Binary64 → Nat
  | finite false mantissa exponent =>
    let scale := Nat.pow 2 (-exponent).toNat
    min Text.maxWord ((2 * mantissa * Nat.pow 2 exponent.toNat + scale) / (2 * scale))
  | infinite false => Text.maxWord
  | _ => 0

namespace Setting

/-! What settings mean as values of a kind. -/

/-- The words for yes and no. -/
def switch? (word : String) : Option Bool :=
  if word ∈ ["true", "on", "yes"] then some true
  else if word ∈ ["false", "off", "no"] then some false
  else none

/-- A switch: a boolean, a number that is not zero, or a word in any case. -/
def toBool? : Setting → Option Bool
  | bool value => some value
  | integer value => some (value != 0)
  | float value => some (!value.isZero)
  | string text =>
    match text.toLower with
    | "1" => some true
    | "0" => some false
    | word => switch? word
  | _ => none

/-- A count: a number that is not negative, a switch as one or zero, or a word for either. -/
def toCount? : Setting → Option Nat
  | bool value => some value.toNat
  | integer value => if 0 ≤ value then some value.toNat else none
  | float value => some value.toWord
  | string text =>
    match switch? text.toLower with
    | some value => some value.toNat
    | none => Text.readWord text.toList
  | _ => none

/-- A log level: its name, or a table with the name as its only key. -/
def toLevel? : Setting → Option LogLevel
  | string name => LogLevel.ofName? name
  | table [(name, _)] => LogLevel.ofName? name
  | _ => none

/-- The field of a group that is written with names or, without them, in the order of the
fields. -/
def field? (name : String) (place : Nat) : Setting → Option Setting
  | table entries => entries.lookup name
  | array items => items[place]?
  | _ => none

end Setting
end TokenGrammar
