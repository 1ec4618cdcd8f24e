import TokenGrammar.Json.Quoted
import TokenGrammar.Json.Value
import TokenGrammar.Number.Text

namespace TokenGrammar.JsonValue

/-! The text of a value over several lines, indented by two columns a level. -/

/-- Positive exponents carry a sign. A number is finite, so its other names are not used. -/
def numberLayout : Binary64.Layout := ⟨true, "null", "null"⟩

def newLine (depth : Nat) : String := "\n" ++ "".pushn ' ' (2 * depth)

mutual

/-- The text of a value inside `depth` containers. -/
def renderAt (depth : Nat) : JsonValue → String
  | null => "null"
  | bool value => if value then "true" else "false"
  | number value => value.render numberLayout
  | string value => Json.quoted value
  | array [] => "[]"
  | array (item :: items) =>
    "[" ++ newLine (depth + 1) ++ renderAt (depth + 1) item ++ renderItems (depth + 1) items
      ++ newLine depth ++ "]"
  | object [] => "\x7b\x7d"
  | object ((key, value) :: members) =>
    "\x7b" ++ newLine (depth + 1) ++ Json.quoted key ++ ": " ++ renderAt (depth + 1) value
      ++ renderMembers (depth + 1) members ++ newLine depth ++ "\x7d"

/-- Further items of an array. -/
def renderItems (depth : Nat) : List JsonValue → String
  | [] => ""
  | item :: items => "," ++ newLine depth ++ renderAt depth item ++ renderItems depth items

/-- Further members of an object. -/
def renderMembers (depth : Nat) : List (String × JsonValue) → String
  | [] => ""
  | (key, value) :: members =>
    "," ++ newLine depth ++ Json.quoted key ++ ": " ++ renderAt depth value
      ++ renderMembers depth members

end

def render (value : JsonValue) : String := renderAt 0 value

end TokenGrammar.JsonValue
