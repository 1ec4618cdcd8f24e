import TokenGrammar.Toml.Quoted
import TokenGrammar.Toml.Scalar
import TokenGrammar.Toml.Table

namespace TokenGrammar.Toml

open Text (Reader)

/-! Documents in TOML 1.0. -/

/-- How deep values may stand inside each other, and how many names a key may have. -/
def maxDepth : Nat := 79

def isBare (c : Char) : Bool := c.isAlphanum || c == '_' || c == '-'

/-- One name of a key, with the spaces around it. -/
def keyName : Reader String := do
  spaces
  let name ← match ← Reader.peek? with
    | some '"' => Reader.expect '"'; String.ofList <$> lineString '"'
    | some '\'' => Reader.expect '\''; String.ofList <$> lineString '\''
    | _ =>
      let name ← Reader.span isBare
      if name.isEmpty then failure
      pure (String.ofList name)
  spaces
  return name

def key : Reader Key := do
  let first ← keyName
  let others ← Reader.many do
    if ← Reader.accept '.' then return some (← keyName) else return none
  if maxDepth ≤ others.length then failure
  let names := first :: others
  return ⟨names.dropLast, names.getLastD first⟩

/-- A date may have its time in the next word. -/
def timeAfterDate? (word : List Char) : Reader (Option (List Char)) := do
  match isDate word, ← get with
  | true, ' ' :: rest =>
    let time := rest.takeWhile isWordCharacter
    if isTime isOffset time then
      set (rest.dropWhile isWordCharacter)
      return some time
    else return none
  | _, _ => return none

/-- A value that holds no others. -/
def simpleValue : Reader Value := do
  match ← Reader.peek? with
  | some '"' => return .string (← quotedString '"')
  | some '\'' => return .string (← quotedString '\'')
  | _ =>
    let word ← Reader.span isWordCharacter
    match ← timeAfterDate? word with
    | some time => return .moment (String.ofList (word ++ ' ' :: time))
    | none => StateT.lift (scalar? word)

/-- Values in brackets, over any number of lines. A comma may follow the last one. -/
def array (item : Reader Value) : Reader Value := do
  Reader.expect '['
  blanks
  let items ← Reader.many do
    if (← Reader.peek?) = some ']' then return none
    let value ← item
    blanks
    unless (← Reader.peek?) = some ']' do
      Reader.expect ','
      blanks
    return some value
  Reader.expect ']'
  return .array items

def binding (item : Reader Value) : Reader (Key × Value) := do
  let key ← key
  Reader.expect '='
  spaces
  let value ← item
  return (key, value)

/-- Keys and values in braces, on one line. -/
def inlineTable (item : Reader Value) : Reader Value := do
  Reader.expect '\x7b'
  spaces
  if ← Reader.accept '\x7d' then return .empty .braces
  let first ← binding item
  spaces
  let others ← Reader.many do
    if ← Reader.accept ',' then
      let entry ← binding item
      spaces
      return some entry
    else return none
  Reader.expect '\x7d'
  StateT.lift <| (first :: others).foldlM
    (fun table (key, value) => table.editTable (key.assign value)) (.empty .braces)

/-- A value that holds others up to a depth. -/
def value : Nat → Reader Value
  | 0 => simpleValue
  | depth + 1 => do
    match ← Reader.peek? with
    | some '[' => array (value depth)
    | some '\x7b' => inlineTable (value depth)
    | _ => simpleValue

/-- What a line of a document says. -/
inductive Line where
  | blank
  /-- The header of a table. -/
  | table (key : Key)
  /-- The header of one of several tables. -/
  | item (key : Key)
  | entry (key : Key) (value : Value)

namespace Line

/-- The header of a table, or of one of several between two pairs of brackets. -/
def header : Reader Line := do
  Reader.expect '['
  if ← Reader.accept '[' then
    let key ← key
    Reader.expect ']'
    Reader.expect ']'
    return item key
  else
    let key ← key
    Reader.expect ']'
    return table key

def read : Reader Line := do
  spaces
  match ← Reader.peek? with
  | some '[' => header
  | some '#' => return blank
  | some '\n' => return blank
  | some '\r' => return blank
  | none => return blank
  | _ =>
    let (key, value) ← binding (value maxDepth)
    return entry key value

def all : Reader (List Line) :=
  Reader.many do
    if ← Reader.atEnd then return none
    let line ← read
    lineEnd
    return some line

end Line

/-- A document that is being put together, and the header that its next line stands under. -/
structure Draft where
  root : Value
  path : List String

/-- Adds what a line says. -/
def Draft.add (draft : Draft) : Line → Option Draft
  | .blank => some draft
  | .table key => do
    let root ← draft.root.editTable (.along .header (.define key.name) key.path)
    return ⟨root, key.path ++ [key.name]⟩
  | .item key => do
    let root ← draft.root.editTable (.along .header (.extend key.name) key.path)
    return ⟨root, key.path ++ [key.name]⟩
  | .entry key value => do
    let root ← draft.root.editTable (.along .header (key.assign value) draft.path)
    return ⟨root, draft.path⟩

/-- The table that a text describes. A byte order mark before it is ignored. -/
def parse (text : List Char) : Option Value := do
  let text := if text.head? = some '\uFEFF' then text.drop 1 else text
  let lines ← Line.all.readAll text
  let draft ← lines.foldlM Draft.add ⟨.empty .header, []⟩
  return draft.root

end TokenGrammar.Toml
