import TokenGrammar.Grammar.Basic
import TokenGrammar.Record

namespace TokenGrammar

/-- What a field shows of a node. -/
structure FieldView where
  cardinality : Cardinality
  values : List Tree

namespace FieldView

/-- A single field holds something from the start. -/
def isEmpty (view : FieldView) : Bool :=
  view.cardinality != .single && view.values.isEmpty

/-- The view of an index that is no field. -/
def absent : FieldView := ⟨.optional, []⟩

end FieldView

/-- The node of a rule while its fields are filled one by one, in any order. It has a place for
each declared field, the separator of a sequence included. -/
structure Draft where
  declaration : Declaration
  values : List (List Tree)

namespace Grammar

/-- What a field holds at first: a default value if it is single, and else nothing. -/
def blankField (blank : Symbol → Option Tree) (field : FieldDeclaration) : Option (List Tree) :=
  if field.cardinality = .single then (blank field.symbol).map ([·]) else some []

/-- The derived default value of a symbol, if not more than `depth` rules nest in it. -/
def blankTo (declarations : List Declaration) (depth : Nat) (symbol : Symbol) : Option Tree :=
  match depth, symbol.content with
  | _, .token => some (.token default)
  | depth + 1, .rule path => do
    let declaration ← declarations.find? (·.path == path)
    let values ← declaration.fields.mapM (blankField (blankTo declarations depth))
    return .node declaration.name <| declaration.fields.zipWith
      (fun field values => .mk field.name field.cardinality values) values
  | 0, .rule _ => none
  | _, _ => some .mark

/-- The derived default value of a symbol. There is none if a rule has to hold another node of
itself in its single fields, however far down. -/
def blank? (declarations : List Declaration) (symbol : Symbol) : Option Tree :=
  blankTo declarations declarations.length symbol

end Grammar

namespace Draft

/-- The default value of a rule. -/
def blank? (declarations : List Declaration) (declaration : Declaration) : Option Draft :=
  (declaration.fields.mapM (Grammar.blankField (Grammar.blank? declarations))).map
    (⟨declaration, ·⟩)

def view (draft : Draft) (index : Nat) : FieldView :=
  match draft.declaration.fields[index]?, draft.values[index]? with
  | some field, some values => ⟨field.cardinality, values⟩
  | _, _ => .absent

/-- Stores a parsed tree: a single or optional field is set, a repeated one grows at its end. -/
def store (draft : Draft) (index : Nat) (field : FieldDeclaration) (tree : Tree) : Draft :=
  { draft with values := draft.values.modify index fun values =>
      if field.cardinality = .repeated then values ++ [tree] else [tree] }

def noField (draft : Draft) (index : Nat) : Cause :=
  .message (draft.declaration.name ++ " has no field #" ++ toString index)

/-- Parses what the field of an index holds, under a constraint, and stores it. -/
def parseField (grammar : Grammar) (draft : Draft) (index : Nat) (constraint : Constraint) :
    Parser Draft := do
  match draft.declaration.fields[index]? with
  | none => .fail (.atCursor (draft.noField index) (← Parser.here))
  | some field =>
    let tree ← grammar.parse field.symbol constraint
    return draft.store index field tree

/-- What a field of the compiled rule holds so far. -/
def held (draft : Draft) (field : FieldDescriptor) : List Tree :=
  draft.values[field.index]?.getD []

/-- What is shown of the node so far: its fields without the separator. -/
def tree (draft : Draft) (rule : Descriptor) : Tree :=
  .node rule.name (rule.fields.map fun field => field.slot (draft.held field))

/-- The node so far, as it is stored. -/
def record (resting : String → List Record) (draft : Draft) (rule : Descriptor) : Record :=
  .node rule.name
    (rule.fields.map fun field =>
      .mk field.name field.cardinality (Tree.records resting (draft.held field)))
    (Tree.records resting (rule.separator.toList.flatMap draft.held))

end Draft
end TokenGrammar
