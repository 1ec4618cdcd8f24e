import TokenGrammar.Json.StringLiteral
import TokenGrammar.Json.Value
import TokenGrammar.Number.Text
import TokenGrammar.Tree

namespace TokenGrammar

/-! The value of a JSON tree. The walk knows nodes by what their fields are called, so that it
serves the trees of both JSON languages. -/

inductive CompileError where
  | invalidNumber (text : String)
  | invalidString (text : String)
  | invalidBool (text : String)
  /-- A choice without an alternative. -/
  | emptyNode (rule : String)
  /-- A language whose trees have no value. -/
  | unsupported (language : String)
deriving DecidableEq, Repr

def CompileError.message : CompileError → String
  | invalidNumber text => "invalid number literal " ++ text
  | invalidString text => "invalid string literal " ++ text
  | invalidBool text => "invalid boolean literal " ++ text
  | emptyNode rule => rule ++ " node has no alternative set"
  | unsupported language => language ++ " has no compile step"

/-- The kinds of values, by the names of the alternatives that hold them. -/
inductive ValueKind where
  | number
  | string
  | null
  | bool
  | array
  | object
deriving DecidableEq, Repr

def ValueKind.ofField : String → ValueKind
  | "number" => number
  | "string" => string
  | "boolean" => bool
  | "array" => array
  | "list" => array
  | "dict" => object
  | "object" => object
  | _ => null

namespace Token

def numberValue (token : Token) : Except CompileError JsonValue :=
  match Binary64.ofText? token.value.toList with
  | some number => .ok (.ofNumber number)
  | none => .error (.invalidNumber token.value)

def stringValue (token : Token) : Except CompileError String :=
  match Json.unquote? token.value with
  | some text => .ok text
  | none => .error (.invalidString token.value)

def boolValue (token : Token) : Except CompileError JsonValue :=
  if token.value = "true" then .ok (.bool true)
  else if token.value = "false" then .ok (.bool false)
  else .error (.invalidBool token.value)

/-- The value of a token as a scalar of a kind. -/
def scalarValue (kind : ValueKind) (token : Token) : Except CompileError JsonValue :=
  match kind with
  | .number => numberValue token
  | .string => return .string (← stringValue token)
  | .bool => boolValue token
  | _ => return .null

end Token

namespace Tree

/-- The token of a scalar: the tree itself, or the one token of a node. -/
def scalar : Tree → Token
  | token read => read
  | node _ (.mk _ _ (token read :: _) :: _) => read
  | _ => default

/-- The token under the key of an object's member. -/
def keyToken : List Slot → Token
  | [] => default
  | .mk name _ values :: rest =>
    if name = "key" then (values.headD .mark).scalar else keyToken rest

mutual

/-- The value of a choice: that of its first alternative. -/
def compile : Tree → Except CompileError JsonValue
  | node rule slots => compileAlternatives rule slots
  | _ => .error (.emptyNode "")

def compileAlternatives (rule : String) : List Slot → Except CompileError JsonValue
  | [] => .error (.emptyNode rule)
  | .mk _ _ [] :: rest => compileAlternatives rule rest
  | .mk name _ (tree :: _) :: _ => compileKind (.ofField name) tree

/-- The value of an alternative of a kind. -/
def compileKind (kind : ValueKind) : Tree → Except CompileError JsonValue
  | node rule slots =>
    match kind with
    | .array => return .array (← compileItems slots)
    | .object => return .ofMembers (← compileMembers slots)
    | kind => Token.scalarValue kind (node rule slots).scalar
  | leaf => Token.scalarValue kind leaf.scalar

/-- The values of the items of an array. -/
def compileItems : List Slot → Except CompileError (List JsonValue)
  | [] => return []
  | .mk name _ values :: rest => if name = "items" then compileAll values else compileItems rest

def compileAll : List Tree → Except CompileError (List JsonValue)
  | [] => return []
  | tree :: rest => return (← compile tree) :: (← compileAll rest)

/-- The members of an object in the order of the source. -/
def compileMembers : List Slot → Except CompileError (List (String × JsonValue))
  | [] => return []
  | .mk name _ values :: rest =>
    if name = "items" then compileEach values else compileMembers rest

def compileEach : List Tree → Except CompileError (List (String × JsonValue))
  | [] => return []
  | tree :: rest => return (← compileMember tree) :: (← compileEach rest)

/-- The key and the value of a member, the key first. -/
def compileMember : Tree → Except CompileError (String × JsonValue)
  | node _ slots => return (← Token.stringValue (keyToken slots), ← compileValue slots)
  | _ => .error (.emptyNode "")

def compileValue : List Slot → Except CompileError JsonValue
  | [] => .error (.emptyNode "")
  | .mk name _ [] :: rest => if name = "value" then .error (.emptyNode "") else compileValue rest
  | .mk name _ (tree :: _) :: rest => if name = "value" then compile tree else compileValue rest

end

end Tree
end TokenGrammar
