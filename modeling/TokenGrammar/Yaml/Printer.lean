import TokenGrammar.Json.Value
import TokenGrammar.Text.Bytes
import TokenGrammar.Yaml.Scalar

namespace TokenGrammar.JsonValue

open Yaml (scalar scalarLine)

/-! A value as a YAML document in block style. What an entry holds is two columns to the right of
it, but a list under a key is not. -/

/-- Exponents have no plus sign. A number is finite, so its other names are not used. -/
def yamlNumber : Binary64.Layout := ⟨false, ".inf", ".nan"⟩

def columns (count : Nat) : List Char := List.replicate count ' '

/-- A short key on one line stands before its colon. -/
def isSimpleKey (key : List Char) : Bool :=
  !key.any Yaml.isBreak && Text.byteLength key ≤ 128

/-- A value without entries, and the end of its line. Further lines of a string begin at a
column. -/
def yamlLeaf (column : Nat) : JsonValue → List Char
  | null => "null\n".toList
  | bool value => (if value then "true\n" else "false\n").toList
  | number value => (value.render yamlNumber ++ "\n").toList
  | string value => scalarLine column value.toList
  | array _ => "[]\n".toList
  | object _ => "\x7b\x7d\n".toList

mutual

/-- The lines of a value, the first of them without its indentation. Entries begin at a column,
further lines of a string at `inner`. -/
def yamlAt (column inner : Nat) : JsonValue → List Char
  | array items =>
    if items.isEmpty then yamlLeaf inner (array []) else (yamlItems column items).drop column
  | object members =>
    if members.isEmpty then yamlLeaf inner (object [])
    else (yamlMembers column members).drop column
  | leaf => yamlLeaf inner leaf

/-- A value after a key at a column, and its colon. -/
def yamlUnderKey (column : Nat) : JsonValue → List Char
  | array items =>
    if items.isEmpty then ' ' :: yamlLeaf column (array []) else '\n' :: yamlItems column items
  | object members =>
    if members.isEmpty then ' ' :: yamlLeaf column (object [])
    else '\n' :: yamlMembers (column + 2) members
  | leaf => ' ' :: yamlLeaf (column + 2) leaf

/-- The lines of the items of a list. -/
def yamlItems (column : Nat) : List JsonValue → List Char
  | [] => []
  | item :: items =>
    columns column ++ '-' :: ' ' :: yamlAt (column + 2) (column + 2) item ++ yamlItems column items

/-- The lines of the members of an object. -/
def yamlMembers (column : Nat) : List (String × JsonValue) → List Char
  | [] => []
  | (key, value) :: members =>
    columns column
      ++ (if isSimpleKey key.toList then
          scalar (column + 2) key.toList ++ ':' :: yamlUnderKey column value
        else '?' :: ' ' :: scalarLine (column + 2) key.toList ++ columns column
          ++ ':' :: ' ' :: yamlAt (column + 2) (column + 2) value)
      ++ yamlMembers column members

end

def renderYaml (value : JsonValue) : String := String.ofList (yamlAt 0 2 value)

end TokenGrammar.JsonValue
