import TokenGrammar.Proofs.Parser.Matching

namespace TokenGrammar.Language.Json

/-! The trees of the grammar of JSON, and the tokens that they are written with. -/

def op (text : String) : Token := .ordinary "op" text

/-- The node of a rule that is one token. -/
def scalar (rule : String) (token : Token) : Tree :=
  .node rule [.mk "value" .single [.token token]]

def container (rule : String) (items : List Tree) : Tree :=
  .node rule [.mk "open" .single [.mark], .mk "items" .repeated items, .mk "close" .single [.mark]]

def member (key : Token) (value : Tree) : Tree :=
  .node "DictItem" [.mk "key" .single [scalar "Str" key], .mk "colon" .single [.mark],
    .mk "value" .single [value]]

def alternatives : List String := ["number", "string", "null", "boolean", "array", "dict"]

/-- The node of a JSON value, which has one alternative and no other. -/
def alternative (name : String) (tree : Tree) : Tree :=
  .node "Json" <| alternatives.map fun field =>
    .mk field .optional (if field = name then [tree] else [])

inductive WellFormed : Tree → Prop
  | number (text : String) :
      WellFormed (alternative "number" (scalar "Number" (.ordinary "number" text)))
  | string (text : String) :
      WellFormed (alternative "string" (scalar "Str" (.ordinary "string" text)))
  | null : WellFormed (alternative "null" (scalar "Null" (.ordinary "null" "null")))
  | bool (text : String) :
      WellFormed (alternative "boolean" (scalar "Bool" (.ordinary "bool" text)))
  | array {items : List Tree} (values : ∀ item ∈ items, WellFormed item) :
      WellFormed (alternative "array" (container "Array" items))
  | dict {members : List (String × Tree)} (values : ∀ entry ∈ members, WellFormed entry.2) :
      WellFormed (alternative "dict" (container "Dict" <|
        members.map fun entry => member (.ordinary "string" entry.1) entry.2))

/-- The tokens that a field of a rule stands for by its mark. -/
def punctuation (rule field : String) : List Token :=
  match rule, field with
  | "Array", "open" => [op "["]
  | "Array", "close" => [op "]"]
  | "Dict", "open" => [op "\x7b"]
  | "Dict", "close" => [op "\x7d"]
  | "DictItem", "colon" => [op ":"]
  | _, _ => []

mutual

/-- The tokens that a tree is written with. -/
def flatten : Tree → List Token
  | .token token => [token]
  | .mark => []
  | .node rule slots => flattenSlots rule slots

def flattenSlots (rule : String) : List Slot → List Token
  | [] => []
  | .mk field _ values :: rest =>
    punctuation rule field ++ Parser.separated (op ",") (flattenAll values) ++
      flattenSlots rule rest

def flattenAll : List Tree → List (List Token)
  | [] => []
  | tree :: rest => flatten tree :: flattenAll rest

end

theorem flattenAll_eq (trees : List Tree) : flattenAll trees = trees.map flatten := by
  induction trees with
  | nil => rfl
  | cons tree rest ih => rw [flattenAll, ih, List.map_cons]

theorem punctuation_value (rule : String) : punctuation rule "value" = [] := by
  simp [punctuation]

@[simp] theorem flatten_scalar (rule : String) (token : Token) :
    flatten (scalar rule token) = [token] := by
  simp [scalar, flatten, flattenSlots, flattenAll, punctuation_value, Parser.separated]

@[simp] theorem flatten_array (items : List Tree) : flatten (container "Array" items) =
    op "[" :: (Parser.separated (op ",") (items.map flatten) ++ [op "]"]) := by
  simp [container, flatten, flattenSlots, flattenAll_eq, punctuation, Parser.separated]

@[simp] theorem flatten_dict (items : List Tree) : flatten (container "Dict" items) =
    op "\x7b" :: (Parser.separated (op ",") (items.map flatten) ++ [op "\x7d"]) := by
  simp [container, flatten, flattenSlots, flattenAll_eq, punctuation, Parser.separated]

@[simp] theorem flatten_member (key : Token) (value : Tree) :
    flatten (member key value) = key :: op ":" :: flatten value := by
  simp [member, flatten, flattenSlots, flattenAll_eq, punctuation, Parser.separated]

/-- The alternatives that hold nothing are not seen. -/
theorem flatten_alternative (name : String) (tree : Tree) (known : name ∈ alternatives) :
    flatten (alternative name tree) = flatten tree := by
  simp only [alternatives, List.mem_cons, List.not_mem_nil, or_false] at known
  rcases known with rfl | rfl | rfl | rfl | rfl | rfl <;>
    simp [alternative, alternatives, flatten, flattenSlots, flattenAll, punctuation,
      Parser.separated]

theorem WellFormed.flatten_ne_nil (wellFormed : WellFormed tree) : flatten tree ≠ [] := by
  cases wellFormed <;> rw [flatten_alternative _ _ (by decide)] <;> simp

end TokenGrammar.Language.Json
