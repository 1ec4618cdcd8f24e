import TokenGrammar.Parser.Rule

namespace TokenGrammar

/-- The rules that refer to one another by path, each compiled or known to be malformed. Whether the
type of a rule has a default value does not lie in the rule: it may be written for the type, and if
it is derived, it has to hold those of all single fields in turn. -/
structure Grammar where
  rules : List (String × Except GrammarError Descriptor)
  hasDefault : String → Bool

namespace Grammar

/-- The grammar of declared rules. Their types have default values, unless it says otherwise. -/
def ofDeclarations (declarations : List Declaration)
    (hasDefault : String → Bool := fun _ => true) : Grammar :=
  ⟨declarations.map fun declaration => (declaration.path, declaration.compile), hasDefault⟩

def find? (grammar : Grammar) (path : String) : Option (Except GrammarError Descriptor) :=
  grammar.rules.lookup path

/-- The parser for what a field holds, given one for each rule. In a leaf the constraint is
matched; a rule takes it as a guard. -/
def contentParser (rule : String → Constraint → Parser Tree) :
    Symbol → Constraint → Parser Tree
  | .token, constraint => return .token (← Parser.matchNext constraint)
  | .mark, constraint => do
    let _ ← Parser.matchNext constraint
    return .mark
  | .rule path, constraint => rule path constraint
  | .boxed content, constraint => contentParser rule content constraint

/-- The parser for a rule in which at most `depth` rules nest. -/
def ruleParser (grammar : Grammar) : Nat → String → Constraint → Parser Tree
  | 0, _, _ => .getStuck .unbounded
  | depth + 1, path, guard =>
    match grammar.find? path with
    | none => .getStuck (.undefinedRule path)
    | some (.error error) => .getStuck (.malformed error)
    | some (.ok rule) =>
      if grammar.hasDefault path then
        Parser.node (contentParser (grammar.ruleParser depth)) rule guard
      else Parser.nodeless rule guard

/-- How deep rules can nest above the remaining tokens: between two tokens that are consumed,
each rule begins at most once, unless the grammar recurses on the left. -/
def depthBound (grammar : Grammar) (cursor : Cursor) : Nat :=
  grammar.rules.length * (cursor.rest.length + 1)

/-- Parses a symbol under a constraint. -/
def parse (grammar : Grammar) (symbol : Symbol) (constraint : Constraint) : Parser Tree :=
  fun cursor => contentParser (grammar.ruleParser (grammar.depthBound cursor)) symbol constraint
    cursor

/-- The tokens that a symbol skips between its items. A leaf has no filter. -/
def dropFilter? (grammar : Grammar) : Symbol → Option (Except GrammarError Constraint)
  | .rule path => (grammar.find? path).map fun rule => rule.map (·.drop)
  | .boxed content => grammar.dropFilter? content
  | _ => none

end Grammar
end TokenGrammar
