import TokenGrammar.Proofs.Language.Sjson.Grammar

namespace TokenGrammar.Language

open Language.Json (container scalar)

/-! The nodes of the two JSON languages, with any of their alternatives set or none. -/

/-- A node with its alternatives in the order in which they count. What the language keeps of the word
`null` is a type of its own: in simplified JSON there is no such alternative. -/
inductive Node (Null : Type) where
  | mk (number string : Option Token) (null : Option Null) (boolean : Option Token)
    (array : Option (List (Node Null))) (object : Option (List (Token × Node Null)))

/-- What a walk over a node comes by: the token of a scalar or of a key, or a node without an
alternative. -/
inductive Visit where
  | number (token : Token)
  | string (token : Token)
  | null
  | bool (token : Token)
  | vacant

namespace Visit

/-- What is converted there, if it can be. -/
def value (rule : String) : Visit → Except CompileError JsonValue
  | number token => token.numberValue
  | string token => return .string (← token.stringValue)
  | null => return .null
  | bool token => token.boolValue
  | vacant => .error (.emptyNode rule)

def fault? (rule : String) (visit : Visit) : Option CompileError :=
  match visit.value rule with
  | .ok _ => none
  | .error error => some error

def Converts (rule : String) (visit : Visit) (value : JsonValue) : Prop := visit.value rule = .ok value

/-- The first of the scalars of a node. -/
def ofScalars (number string : Option Token) (null : Option Null) (boolean : Option Token) :
    Option Visit :=
  (number.map .number).or ((string.map .string).or ((null.map fun _ => .null).or (boolean.map .bool)))

end Visit

/-- The rules of a language and the fields of its nodes. -/
structure Dialect (Null : Type) where
  rule : String
  scalars : Option Token → Option Token → Option Null → Option Token → List Slot
  arrayField : String
  arrayRule : String
  objectField : String
  objectRule : String
  memberRule : String
  key : Token → Tree
  compile_scalars : ∀ number string null boolean slots,
    Tree.compileAlternatives rule (scalars number string null boolean ++ slots) =
      match Visit.ofScalars number string null boolean with
      | some visit => visit.value rule
      | none => Tree.compileAlternatives rule slots
  arrayKind : ValueKind.ofField arrayField = .array
  objectKind : ValueKind.ofField objectField = .object
  scalar_key : ∀ token, (key token).scalar = token

namespace Dialect

def json : Dialect Token where
  rule := "Json"
  scalars number string null boolean := [
    .mk "number" .optional (number.toList.map (scalar "Number")),
    .mk "string" .optional (string.toList.map (scalar "Str")),
    .mk "null" .optional (null.toList.map (scalar "Null")),
    .mk "boolean" .optional (boolean.toList.map (scalar "Bool"))]
  arrayField := "array"
  arrayRule := "Array"
  objectField := "dict"
  objectRule := "Dict"
  memberRule := "DictItem"
  key := scalar "Str"
  compile_scalars := by rintro (_ | _) (_ | _) (_ | _) (_ | _) slots <;> rfl
  arrayKind := rfl
  objectKind := rfl
  scalar_key _ := rfl

def sjson : Dialect Empty where
  rule := "Sjson"
  scalars number string _ boolean := [
    .mk "number" .optional (number.toList.map .token),
    .mk "string" .optional (string.toList.map .token),
    .mk "boolean" .optional (boolean.toList.map .token)]
  arrayField := "list"
  arrayRule := "List"
  objectField := "object"
  objectRule := "Object"
  memberRule := "Pair"
  key := .token
  compile_scalars := by rintro (_ | _) (_ | _) (_ | ⟨⟨⟩⟩) (_ | _) slots <;> rfl
  arrayKind := rfl
  objectKind := rfl
  scalar_key _ := rfl

variable (dialect : Dialect Null)

def member (key : Token) (value : Tree) : Tree :=
  .node dialect.memberRule [.mk "key" .single [dialect.key key], .mk "colon" .single [.mark],
    .mk "value" .single [value]]

mutual

/-- The tree of a node. -/
def tree : Node Null → Tree
  | .mk number string null boolean array object =>
    .node dialect.rule (dialect.scalars number string null boolean ++
      [.mk dialect.arrayField .optional (arrays array), .mk dialect.objectField .optional (objects object)])

def arrays : Option (List (Node Null)) → List Tree
  | some nodes => [container dialect.arrayRule (trees nodes)]
  | none => []

def objects : Option (List (Token × Node Null)) → List Tree
  | some items => [container dialect.objectRule (members items)]
  | none => []

def trees : List (Node Null) → List Tree
  | [] => []
  | node :: nodes => tree node :: trees nodes

def members : List (Token × Node Null) → List Tree
  | [] => []
  | (key, node) :: items => dialect.member key (tree node) :: members items

end

end Dialect

namespace Node

mutual

/-- What a walk over a node comes by, in the order of the document: all items of the alternative that
counts, and each key before its value. -/
def visits : Node Null → List Visit
  | .mk (some token) _ _ _ _ _ => [.number token]
  | .mk none (some token) _ _ _ _ => [.string token]
  | .mk none none (some _) _ _ _ => [.null]
  | .mk none none none (some token) _ _ => [.bool token]
  | .mk none none none none (some items) _ => visitsAll items
  | .mk none none none none none (some items) => visitsEach items
  | .mk none none none none none none => [.vacant]

def visitsAll : List (Node Null) → List Visit
  | [] => []
  | node :: nodes => visits node ++ visitsAll nodes

def visitsEach : List (Token × Node Null) → List Visit
  | [] => []
  | (key, node) :: items => .string key :: (visits node ++ visitsEach items)

end

section Means

variable (leaf : Visit → JsonValue → Prop)

mutual

/-- The value of a node is that of the first alternative that is set. An object has each key once, with the
value of its last item that has the key. -/
inductive Means : Node Null → JsonValue → Prop
  | number (holds : leaf (.number token) value) :
      Means (.mk (some token) string null boolean array object) value
  | string (holds : leaf (.string token) value) :
      Means (.mk none (some token) null boolean array object) value
  | null (holds : leaf .null value) : Means (.mk none none (some word) boolean array object) value
  | bool (holds : leaf (.bool token) value) : Means (.mk none none none (some token) array object) value
  | array (each : MeansAll items values) :
      Means (.mk none none none none (some items) object) (.array values)
  | object (each : MeansEach items entries) (ordered : JsonValue.Ordered held)
      (last : ∀ key, held.lookup key = entries.reverse.lookup key) :
      Means (.mk none none none none none (some items)) (.object held)

inductive MeansAll : List (Node Null) → List JsonValue → Prop
  | nil : MeansAll [] []
  | cons (first : Means node value) (later : MeansAll nodes values) :
      MeansAll (node :: nodes) (value :: values)

/-- Items with the texts that their keys spell. -/
inductive MeansEach : List (Token × Node Null) → List (String × JsonValue) → Prop
  | nil : MeansEach [] []
  | cons (decoded : key.stringValue = .ok text) (first : Means node value)
      (later : MeansEach items entries) :
      MeansEach ((key, node) :: items) ((text, value) :: entries)

end

end Means

end Node
end TokenGrammar.Language
