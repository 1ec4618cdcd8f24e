import TokenGrammar.Proofs.Json.Members
import TokenGrammar.Proofs.Json.Numeral
import TokenGrammar.Proofs.Json.Spelling

namespace TokenGrammar.Json

/-! JSON as it is written, the texts that RFC 8259 allows for it, and the value that it has. -/

inductive Source where
  | null
  | bool (value : Bool)
  | number (numeral : Numeral)
  | string (value : String)
  | array (items : List Source)
  /-- The members in the order of the text. A key may occur more than once. -/
  | object (members : List (String × Source))

namespace Source

mutual

/-- The value of what is written: of several members with one key the last counts. -/
def value : Source → JsonValue
  | null => .null
  | bool value => .bool value
  | number numeral => .ofNumber numeral.value
  | string value => .string value
  | array items => .array (values items)
  | object members =>
    .object ((JsonValue.lastMembers (memberValues members)).mergeSort JsonValue.notAbove)

def values : List Source → List JsonValue
  | [] => []
  | item :: items => value item :: values items

def memberValues : List (String × Source) → List (String × JsonValue)
  | [] => []
  | (key, source) :: members => (key, value source) :: memberValues members

end

end Source

def Blank (text : List Char) : Prop := ∀ c ∈ text, c ∈ [' ', '\t', '\n', '\r']

mutual

inductive Spells : Source → List Char → Prop
  | null : Spells .null ['n', 'u', 'l', 'l']
  | yes : Spells (.bool true) ['t', 'r', 'u', 'e']
  | no : Spells (.bool false) ['f', 'a', 'l', 's', 'e']
  | number (numeral : Numeral) : Spells (.number numeral) numeral.text
  | string (spells : SpellsString value text) : Spells (.string value) text
  | emptyArray (blank : Blank space) : Spells (.array []) ('[' :: (space ++ [']']))
  | array (spells : SpellsItems items text) : Spells (.array items) ('[' :: (text ++ [']']))
  | emptyObject (blank : Blank space) : Spells (.object []) ('\x7b' :: (space ++ ['\x7d']))
  | object (spells : SpellsMembers members text) :
      Spells (.object members) ('\x7b' :: (text ++ ['\x7d']))

/-- The text of a value with space around it. -/
inductive SpellsPadded : Source → List Char → Prop
  | mk (before : Blank left) (spells : Spells source text) (after : Blank right) :
      SpellsPadded source (left ++ (text ++ right))

/-- The text of one item or more, with commas between them. -/
inductive SpellsItems : List Source → List Char → Prop
  | one (item : SpellsPadded source text) : SpellsItems [source] text
  | more (item : SpellsPadded source text) (rest : SpellsItems items others) :
      SpellsItems (source :: items) (text ++ ',' :: others)

inductive SpellsMember : String → Source → List Char → Prop
  | mk (before : Blank left) (name : SpellsString key text) (after : Blank right)
      (held : SpellsPadded source more) :
      SpellsMember key source (left ++ (text ++ (right ++ ':' :: more)))

inductive SpellsMembers : List (String × Source) → List Char → Prop
  | one (member : SpellsMember key source text) : SpellsMembers [(key, source)] text
  | more (member : SpellsMember key source text) (rest : SpellsMembers members others) :
      SpellsMembers ((key, source) :: members) (text ++ ',' :: others)

end

/-- A JSON text is that of one value. -/
def IsText (source : Source) (text : String) : Prop := SpellsPadded source text.toList

end TokenGrammar.Json
