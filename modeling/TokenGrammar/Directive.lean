import TokenGrammar.Constraint
import TokenGrammar.Repetition
import TokenGrammar.Text.Natural
import TokenGrammar.Text.Space

namespace TokenGrammar

/-! Directives are the short texts that a field or a rule carries.

A token directive lists patterns, separated by `|`. A pattern is a type, then `*` if it only
looks ahead, then a comma and a value if it asks for one; the value starts after the first comma
and may hold others. A size directive is a range `min-max`, whose ends may be left out, or one
exact count. -/

inductive DirectiveError where
  /-- A pattern asks neither for a type nor for a value. -/
  | unconstrained (part : String)
  | notACount (text : String)
  | zeroCount
  | emptyRange (min max : Nat)
deriving DecidableEq, Repr

def DirectiveError.message : DirectiveError → String
  | unconstrained part => "'" ++ part ++ "' constrains neither type nor value"
  | notACount text => "'" ++ text ++ "' is not a repetition count"
  | zeroCount => "an exact count must be at least 1"
  | emptyRange min max => "minimum " ++ toString min ++ " exceeds maximum " ++ toString max

namespace TokenPattern

/-- A text that is absent when empty. -/
def textOf : List Char → Option String
  | [] => none
  | text => some (String.ofList text)

/-- Reads one part of a token directive. -/
def ofPart (part : List Char) : Except DirectiveError TokenPattern :=
  let (head, tail) := Text.cutAt ',' part
  let lookahead := head.getLast? == some '*'
  let type := textOf (if lookahead then head.dropLast else head)
  let value := tail.bind textOf
  if type.isNone && value.isNone then .error (.unconstrained (String.ofList part))
  else .ok ⟨type, value, lookahead⟩

end TokenPattern

namespace Constraint

/-- Reads a token directive. Empty parts count for nothing. -/
def ofDirective (directive : String) : Except DirectiveError Constraint := do
  let parts := (Text.splitAt '|' directive.toList).filter (! ·.isEmpty)
  return ⟨← parts.mapM TokenPattern.ofPart⟩

end Constraint

namespace Repetition

/-- Reads one end of a range. A missing end is zero, and white space around a number is
ignored. -/
def readBound (text : List Char) : Except DirectiveError Nat :=
  if text.isEmpty then .ok 0
  else match Text.readWord (Text.trimSpace text) with
    | some count => .ok count
    | none => .error (.notACount (String.ofList text))

/-- Reads a size directive. A maximum of zero is no maximum. -/
def ofDirective (directive : String) : Except DirectiveError Repetition :=
  if directive.isEmpty then .ok unbounded
  else match Text.cutAt '-' directive.toList with
    | (text, none) => do
      let count ← readBound text
      if count = 0 then throw .zeroCount
      return ⟨count, some count⟩
    | (low, some high) => do
      let min ← readBound low
      let max ← readBound high
      if max = 0 then return ⟨min, none⟩
      if max < min then throw (.emptyRange min max)
      return ⟨min, some max⟩

end Repetition
end TokenGrammar
