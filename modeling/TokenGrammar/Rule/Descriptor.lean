import TokenGrammar.Directive
import TokenGrammar.Rule.Declaration

namespace TokenGrammar

/-- A field with its directives read. Its index is its place in the declaration. -/
structure FieldDescriptor where
  name : String
  index : Nat
  symbol : Symbol
  cardinality : Cardinality
  tokens : Constraint
  size : Repetition
  separator : Constraint
deriving DecidableEq, Repr

/-- A checked rule. A sequence may have a separator, which is matched between its items. -/
structure Descriptor where
  name : String
  combinator : Combinator
  fields : List FieldDescriptor
  separator : Option FieldDescriptor
  drop : Constraint
deriving DecidableEq, Repr

/-- Why a declaration is malformed. -/
inductive GrammarError where
  | missingMarker (rule : String)
  | noFields (rule : String)
  | singleAlternative (rule field : String)
  | repeatedSeparator (rule : String)
  | misplacedDirective (rule field directive : String)
  | invalidDirective (location directive value : String) (reason : DirectiveError)
deriving DecidableEq, Repr

def GrammarError.message : GrammarError → String
  | missingMarker rule => "rule " ++ rule ++ " must be marked #[rule(one_of)] or #[rule(seq)]"
  | noFields rule => "rule " ++ rule ++ " has no fields"
  | singleAlternative rule field =>
    "one_of rule " ++ rule ++ ": field " ++ field ++ " must be an Option or a Vec"
  | repeatedSeparator rule => "seq rule " ++ rule ++ ": the separator cannot be repeated"
  | misplacedDirective rule field directive =>
    rule ++ "." ++ field ++ ": '" ++ directive ++ "' only applies to repeated fields"
  | invalidDirective location directive value reason =>
    location ++ ": invalid " ++ directive ++ " = " ++ Text.quoted value ++ ": " ++ reason.message

/-- The field name that stands for the separator of a sequence. -/
def separatorName : String := "separator"

/-- Names the directive of a field or rule that cannot be read. -/
def readDirective (read : String → Except DirectiveError α) (location directive value : String) :
    Except GrammarError α :=
  (read value).mapError (.invalidDirective location directive value)

namespace FieldDeclaration

/-- The directives that only a repeated field may carry, in the order of their checks. -/
def misplaced? (field : FieldDeclaration) : Option String :=
  if field.cardinality = .repeated then none
  else if field.size ≠ "" then some "size"
  else if field.sep ≠ "" then some "sep"
  else none

def compile (rule : String) (index : Nat) (field : FieldDeclaration) :
    Except GrammarError FieldDescriptor := do
  if let some directive := field.misplaced? then
    throw (.misplacedDirective rule field.name directive)
  let location := rule ++ "." ++ field.name
  let tokens ← readDirective Constraint.ofDirective location "tok" field.tok
  let size ← readDirective Repetition.ofDirective location "size" field.size
  let separator ← readDirective Constraint.ofDirective location "sep" field.sep
  return ⟨field.name, index, field.symbol, field.cardinality, tokens, size, separator⟩

end FieldDeclaration

namespace Declaration

/-- The fields of a rule from one index on: those that it keeps, in order, and its separator.
Of several separators the last one counts. -/
def compileFields (rule : String) (combinator : Combinator) :
    Nat → List FieldDeclaration →
      Except GrammarError (List FieldDescriptor × Option FieldDescriptor)
  | _, [] => .ok ([], none)
  | index, field :: rest => do
    let compiled ← field.compile rule index
    match combinator with
    | .oneOf =>
      if field.cardinality = .single then throw (.singleAlternative rule field.name)
      let (fields, separator) ← compileFields rule combinator (index + 1) rest
      return (compiled :: fields, separator)
    | .seq =>
      if field.name = separatorName then
        if field.cardinality = .repeated then throw (.repeatedSeparator rule)
        let (fields, separator) ← compileFields rule combinator (index + 1) rest
        return (fields, separator <|> some compiled)
      else
        let (fields, separator) ← compileFields rule combinator (index + 1) rest
        return (compiled :: fields, separator)

/-- Checks a declaration and reads its directives. -/
def compile (declaration : Declaration) : Except GrammarError Descriptor := do
  let rule := declaration.name
  let some marker := declaration.marker | throw (.missingMarker rule)
  let drop ← readDirective Constraint.ofDirective rule "drop" marker.drop
  let (fields, separator) ← compileFields rule marker.combinator 0 declaration.fields
  if fields.isEmpty then throw (.noFields rule)
  return ⟨rule, marker.combinator, fields, separator, drop⟩

end Declaration

def FieldDescriptor.describe (field : FieldDescriptor) : String :=
  field.name ++ ": " ++ field.symbol.text ++ " (" ++ field.cardinality.text
    ++ (if field.cardinality = .repeated then " " ++ field.size.describe else "") ++ ")"
    ++ (if field.tokens.isEmpty then "" else " tok: " ++ field.tokens.describe)
    ++ (if field.separator.isEmpty then "" else " sep: " ++ field.separator.describe)

namespace Descriptor

/-- The lines that describe a rule: a heading, its separator, and a line for each field. -/
def lines (rule : Descriptor) : List String :=
  let dropped := if rule.drop.isEmpty then "" else ", drop: " ++ rule.drop.describe
  (rule.name ++ " (" ++ rule.combinator.text ++ dropped ++ ")")
    :: rule.separator.toList.map (fun field => "  [separator] " ++ field.describe)
    ++ rule.fields.map (fun field => "  " ++ field.describe)

def describe (rule : Descriptor) : String :=
  String.join (rule.lines.map (· ++ "\n"))

end Descriptor
end TokenGrammar
