import TokenGrammar.Tree

namespace TokenGrammar.Language.Sexpr

/-! The trees of the grammar of S-expressions, and the tokens that they are written with. -/

def bracket (text : String) : Token := .ordinary "bkt" text

def isComment : Token → Bool
  | .ordinary type _ => decide (type = "comment")
  | .endOfInput => false

def alternatives : List String := ["number", "string", "atom", "list"]

/-- The node of an S-expression, which has one alternative and no other. -/
def alternative (name : String) (tree : Tree) : Tree :=
  .node "SExpr" <| alternatives.map fun field =>
    .mk field .optional (if field = name then [tree] else [])

def list (items : List Tree) : Tree :=
  .node "List" [.mk "open" .single [.mark], .mk "items" .repeated items,
    .mk "close" .single [.mark]]

/-- An alternative for a token is called as the type of that token. -/
inductive WellFormed : Tree → Prop
  | leaf {type : String} (known : type ∈ ["number", "string", "atom"]) (text : String) :
      WellFormed (alternative type (.token (.ordinary type text)))
  | list {items : List Tree} (values : ∀ item ∈ items, WellFormed item) :
      WellFormed (alternative "list" (list items))

/-- The tokens that a field of a rule stands for by its mark. -/
def punctuation (rule field : String) : List Token :=
  match rule, field with
  | "List", "open" => [bracket "("]
  | "List", "close" => [bracket ")"]
  | _, _ => []

mutual

/-- The tokens that a tree is written with. -/
def flatten : Tree → List Token
  | .token token => [token]
  | .mark => []
  | .node rule slots => flattenSlots rule slots

def flattenSlots (rule : String) : List Slot → List Token
  | [] => []
  | .mk field _ values :: rest =>
    punctuation rule field ++ flattenAll values ++ flattenSlots rule rest

def flattenAll : List Tree → List Token
  | [] => []
  | tree :: rest => flatten tree ++ flattenAll rest

end

theorem flattenAll_eq (trees : List Tree) : flattenAll trees = trees.flatMap flatten := by
  induction trees with
  | nil => rfl
  | cons tree rest ih => rw [flattenAll, ih, List.flatMap_cons]

@[simp] theorem flatten_list (items : List Tree) :
    flatten (list items) = bracket "(" :: (items.flatMap flatten ++ [bracket ")"]) := by
  simp [list, flatten, flattenSlots, flattenAll, flattenAll_eq, punctuation]

theorem flatten_alternative {name : String} (known : name ∈ alternatives) (tree : Tree) :
    flatten (alternative name tree) = flatten tree := by
  simp only [alternatives, List.mem_cons, List.not_mem_nil, or_false] at known
  rcases known with rfl | rfl | rfl | rfl <;>
    simp [alternative, alternatives, flatten, flattenSlots, flattenAll, punctuation]

theorem WellFormed.flatten_ne_nil {tree : Tree} (wellFormed : WellFormed tree) :
    flatten tree ≠ [] := by
  cases wellFormed with
  | leaf known text =>
      rw [flatten_alternative (List.mem_append_left ["list"] known)]
      simp [flatten]
  | list values => simp [flatten_alternative (by decide : "list" ∈ alternatives)]

end TokenGrammar.Language.Sexpr
