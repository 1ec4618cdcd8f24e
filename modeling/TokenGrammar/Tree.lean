import TokenGrammar.Token
import TokenGrammar.Rule.Declaration

namespace TokenGrammar

mutual

/-- What a parse yields: a token, the mark of a token that was there, or the node of a rule with
the fields of the compiled rule in order. A box is its content. -/
inductive Tree where
  | token (token : Token)
  | mark
  | node (rule : String) (slots : List Slot)

/-- A field of a node with the trees it holds: one or none, unless the field is repeated. -/
inductive Slot where
  | mk (name : String) (cardinality : Cardinality) (values : List Tree)

end

instance : Inhabited Tree := ⟨.mark⟩

namespace Slot

def name : Slot → String
  | mk name _ _ => name

def cardinality : Slot → Cardinality
  | mk _ cardinality _ => cardinality

def values : Slot → List Tree
  | mk _ _ values => values

@[simp] theorem name_mk (name : String) (cardinality : Cardinality) (values : List Tree) :
    (mk name cardinality values).name = name := rfl

@[simp] theorem cardinality_mk (name : String) (cardinality : Cardinality)
    (values : List Tree) : (mk name cardinality values).cardinality = cardinality := rfl

@[simp] theorem values_mk (name : String) (cardinality : Cardinality) (values : List Tree) :
    (mk name cardinality values).values = values := rfl

end Slot

namespace Tree

def slots : Tree → List Slot
  | node _ slots => slots
  | _ => []

/-- Puts values into the field of a name. Trees without that field stay as they are. -/
def setField (tree : Tree) (name : String) (values : List Tree) : Tree :=
  match tree with
  | node rule slots => node rule <| slots.map fun slot =>
      if slot.name = name then .mk name slot.cardinality values else slot
  | leaf => leaf

end Tree
end TokenGrammar
