import TokenGrammar.Parser.Basic
import TokenGrammar.Tree

namespace TokenGrammar

/-! How a rule reads its fields, given a parser for what a field holds.

An item is the value of a single or optional field, or one repetition of a repeated field. In a
sequence the drop filter runs before each item; before each item but the first the separator is
matched and the filter runs again. A separator and the item after it are one attempt: if the
item fails, both are taken back. In a choice the filter runs once, and nothing lies between the
repetitions of a field but the separator of that field. -/

/-- What lies between the items of a rule. -/
structure Gap where
  drop : Constraint
  separator : Option FieldDescriptor
deriving DecidableEq, Repr

namespace Gap

def nothing : Gap := ⟨.anyToken, none⟩

def ofRule (rule : Descriptor) : Gap := ⟨rule.drop, rule.separator⟩

end Gap

namespace FieldDescriptor

def slot (field : FieldDescriptor) (values : List Tree) : Slot :=
  .mk field.name field.cardinality values

def tooFew (field : FieldDescriptor) (rule : String) (min count : Nat) : Cause :=
  .message (rule ++ "." ++ field.name ++ " needs at least " ++ toString min
    ++ " repetitions, got " ++ toString count)

end FieldDescriptor

namespace Parser

variable (content : Symbol → Constraint → Parser Tree)

/-- Matches the separator of a sequence. An optional one may be missing. -/
def separator (field : FieldDescriptor) : Parser Unit := do
  match ← attempt (content field.symbol field.tokens) with
  | .ok _ => return
  | .error error => if field.cardinality = .optional then return else fail error

/-- What comes before an item that has `before` items ahead of it. -/
def gap (gap : Gap) (before : Nat) : Parser Unit := do
  dropTokens gap.drop
  match gap.separator with
  | some field =>
    if before = 0 then return
    else
      separator content field
      dropTokens gap.drop
  | none => return

def item (between : Gap) (field : FieldDescriptor) (before : Nat) : Parser Tree := do
  gap content between before
  content field.symbol field.tokens

/-- One more repetition of a field after `count` of them. The separator of the field comes
first, if it has one. -/
def repetition (between : Gap) (field : FieldDescriptor) (before count : Nat) : Parser Tree := do
  if count ≠ 0 ∧ field.separator.isEmpty = false then
    dropTokens between.drop
    let _ ← matchNext field.separator
  item content between field (before + count)

/-- Repeats a field until it fails, has reached its maximum or consumes nothing, and tells the
failure that ended it. The first argument bounds the repetitions. -/
def repetitions (between : Gap) (field : FieldDescriptor) (before : Nat) :
    Nat → Nat → Parser (List Tree × Option ParseError)
  | 0, _ => getStuck .unbounded
  | steps + 1, count => do
    if field.size.allowsMore count then
      let start ← here
      match ← attempt (repetition content between field before count) with
      | .error error => return ([], some error)
      | .ok tree =>
        if (← here).pos = start.pos then return ([tree], none)
        else
          let (trees, error) ← repetitions between field before steps (count + 1)
          return (tree :: trees, error)
    else return ([], none)

/-- All repetitions of a field, of which there must be at least `min`. A repetition that is not
the last consumes a token, which bounds them. -/
def repeated (rule : String) (between : Gap) (field : FieldDescriptor) (before min : Nat) :
    Parser (List Tree) := do
  let start ← here
  let (trees, error) ← repetitions content between field before (start.rest.length + 1) 0
  if trees.length < min then
    match error with
    | some error => fail error
    | none => reject (field.tooFew rule min trees.length)
  else return trees

/-- The values of one field of a sequence. -/
def fieldValues (rule : Descriptor) (field : FieldDescriptor) (before : Nat) :
    Parser (List Tree) := do
  match field.cardinality with
  | .single => return [← item content (.ofRule rule) field before]
  | .optional =>
    match ← attempt (item content (.ofRule rule) field before) with
    | .ok tree => return [tree]
    | .error _ => return []
  | .repeated => repeated content rule.name (.ofRule rule) field before field.size.min

/-- The fields of a sequence from one field on, with `items` items before it. A sequence that
has matched no item fails. -/
def sequence (rule : Descriptor) : List FieldDescriptor → Nat → Parser (List Slot)
  | [], items => if items = 0 then reject .emptyMatch else return []
  | field :: rest, items => do
    let values ← fieldValues content rule field items
    let slots ← sequence rule rest (items + values.length)
    return field.slot values :: slots

/-- A field of a choice on its own. A repeated one must occur. -/
def alternative (rule : Descriptor) (field : FieldDescriptor) : Parser (List Tree) := do
  match field.cardinality with
  | .repeated => repeated content rule.name .nothing field 0 (max 1 field.size.min)
  | _ => return [← content field.symbol field.tokens]

/-- The first field of a choice that matches, each tried from the same place. The error gathers
those of the fields before. -/
def choice (rule : Descriptor) : List FieldDescriptor → Option ParseError → Parser (List Slot)
  | [], some error => fail error
  | [], none => reject .emptyMatch
  | field :: rest, gathered => do
    match ← attempt (alternative content rule field) with
    | .ok values => return field.slot values :: rest.map (·.slot [])
    | .error error =>
      let slots ← choice rule rest (some (.gather gathered error))
      return field.slot [] :: slots

def body (rule : Descriptor) : Parser (List Slot) := do
  match rule.combinator with
  | .seq => sequence content rule rule.fields 0
  | .oneOf =>
    dropTokens rule.drop
    choice content rule rule.fields none

/-- Checks the first token that the rule would see. -/
def guarded (rule : Descriptor) (guard : Constraint) : Parser Unit :=
  if guard.isEmpty then pure ()
  else lookAhead do
    dropTokens rule.drop
    checkNext guard

/-- The node of a rule. It begins as the default value of its type, in which the fields are stored.
The fields of a choice begin with one each, and a separator is stored in one of its own; as they
are all the same, only the first can be missing. -/
def node (rule : Descriptor) (guard : Constraint) : Parser Tree := do
  guarded rule guard
  let slots ← within rule.name (body content rule)
  return .node rule.name slots

/-- The node of a rule whose type has no default value. -/
def nodeless (rule : Descriptor) (guard : Constraint) : Parser Tree := do
  guarded rule guard
  within rule.name (getStuck (.noDefault rule.name))

end Parser
end TokenGrammar
