import TokenGrammar.Layout

namespace TokenGrammar

mutual

/-- A node as it is stored, fields and separator. The rule of a sequence does not count the
separator among its fields: a parse matches separators beside the node and stores none in it, and
a printer does not show what is stored there. -/
inductive Record where
  | token (token : Token)
  | mark
  | node (rule : String) (cells : List Cell) (separator : List Record)

/-- A field of a stored node with what it holds. -/
inductive Cell where
  | mk (name : String) (cardinality : Cardinality) (values : List Record)

end

namespace Record

mutual

/-- What the fields hold, without the separators. -/
def tree : Record → Tree
  | token read => .token read
  | mark => .mark
  | node rule cells _ => .node rule (slots cells)

def slots : List Cell → List Slot
  | [] => []
  | .mk name cardinality values :: rest => .mk name cardinality (trees values) :: slots rest

def trees : List Record → List Tree
  | [] => []
  | record :: rest => record.tree :: trees rest

end

mutual

/-- What the separators of a node and of the nodes in its fields hold, from the outside in. -/
def separators : Record → List (List Record)
  | token _ | mark => []
  | node _ cells separator => separator :: cellSeparators cells

def cellSeparators : List Cell → List (List Record)
  | [] => []
  | .mk _ _ values :: rest => allSeparators values ++ cellSeparators rest

def allSeparators : List Record → List (List Record)
  | [] => []
  | record :: rest => record.separators ++ allSeparators rest

end

/-- The text of a node shows its fields. -/
def pretty (width : Nat) (record : Record) : String := record.tree.pretty width

end Record

namespace Tree

mutual

/-- A tree as it is stored when nobody has stored separators: those of each rule hold what they
hold from the start. -/
def record (resting : String → List Record) : Tree → Record
  | token read => .token read
  | mark => .mark
  | node rule slots => .node rule (cells resting slots) (resting rule)

def cells (resting : String → List Record) : List Slot → List Cell
  | [] => []
  | .mk name cardinality values :: rest =>
    .mk name cardinality (records resting values) :: cells resting rest

def records (resting : String → List Record) : List Tree → List Record
  | [] => []
  | tree :: rest => tree.record resting :: records resting rest

end

end Tree
end TokenGrammar
