import TokenGrammar.Session.Routine

namespace TokenGrammar

/-! Rules as routines. Every call reads and changes the same session, and goes back by itself where
it has to. -/

namespace Routine

variable (content : Symbol → Constraint → Routine Tree)

/-- Matches the separator of a sequence. An optional one may be missing. -/
def separator (field : FieldDescriptor) : Routine Unit := do
  let pos ← save
  match ← tried (content field.symbol field.tokens) with
  | .ok _ => return
  | .error error => if field.cardinality = .optional then restore pos else throw error

/-- What comes before an item that has `before` items ahead of it. -/
def gap (between : Gap) (before : Nat) : Routine Unit := do
  dropTokens between.drop
  if before ≠ 0 then
    if let some field := between.separator then
      separator content field
      dropTokens between.drop

/-- Matches one item. The caller goes back if it fails. -/
def item (between : Gap) (field : FieldDescriptor) (before : Nat) : Routine Tree := do
  gap content between before
  content field.symbol field.tokens

/-- Matches one more repetition of a field after `count` of them, behind the separator of the field,
if it has one. The caller goes back if it fails. -/
def repetition (between : Gap) (field : FieldDescriptor) (before count : Nat) : Routine Tree := do
  if count ≠ 0 ∧ field.separator.isEmpty = false then
    dropTokens between.drop
    let _ ← matchNext field.separator
  item content between field (before + count)

/-- Repeats a field until it fails, has reached its maximum or consumes nothing, and tells the
failure that ended it. -/
def repetitions (between : Gap) (field : FieldDescriptor) (before : Nat) :
    Nat → Nat → Routine (List Tree × Option ParseError)
  | 0, _ => getStuck .unbounded
  | steps + 1, count => do
    if field.size.allowsMore count then
      let pos ← save
      match ← tried (repetition content between field before count) with
      | .error error =>
        restore pos
        return ([], some error)
      | .ok tree =>
        if (← save) = pos then return ([tree], none)
        else
          let (trees, error) ← repetitions between field before steps (count + 1)
          return (tree :: trees, error)
    else return ([], none)

/-- All repetitions of a field, of which there must be at least `min`. -/
def repeated (rule : String) (between : Gap) (field : FieldDescriptor) (before min : Nat) :
    Routine (List Tree) := do
  let (trees, error) ← repetitions content between field before ((← left) + 1) 0
  if trees.length < min then
    match error with
    | some error => throw error
    | none => reject (field.tooFew rule min trees.length)
  else return trees

/-- The values of one field of a sequence. -/
def fieldValues (rule : Descriptor) (field : FieldDescriptor) (before : Nat) :
    Routine (List Tree) := do
  match field.cardinality with
  | .single => return [← item content (.ofRule rule) field before]
  | .optional =>
    let pos ← save
    match ← tried (item content (.ofRule rule) field before) with
    | .ok tree => return [tree]
    | .error _ =>
      restore pos
      return []
  | .repeated => repeated content rule.name (.ofRule rule) field before field.size.min

/-- The fields of a sequence from one field on, with `items` items before it. -/
def sequence (rule : Descriptor) : List FieldDescriptor → Nat → Routine (List Slot)
  | [], items => if items = 0 then reject .emptyMatch else return []
  | field :: rest, items => do
    let values ← fieldValues content rule field items
    let slots ← sequence rule rest (items + values.length)
    return field.slot values :: slots

/-- A field of a choice on its own. A repeated one must occur. -/
def alternative (rule : Descriptor) (field : FieldDescriptor) : Routine (List Tree) := do
  match field.cardinality with
  | .repeated => repeated content rule.name .nothing field 0 (max 1 field.size.min)
  | _ => return [← content field.symbol field.tokens]

/-- The first field of a choice that matches, each tried from the same place. -/
def choice (rule : Descriptor) (start : Nat) :
    List FieldDescriptor → Option ParseError → Routine (List Slot)
  | [], some error => throw error
  | [], none => reject .emptyMatch
  | field :: rest, gathered => do
    match ← tried (alternative content rule field) with
    | .ok values => return field.slot values :: rest.map (·.slot [])
    | .error error =>
      restore start
      let slots ← choice rule start rest (some (.gather gathered error))
      return field.slot [] :: slots

def body (rule : Descriptor) : Routine (List Slot) := do
  match rule.combinator with
  | .seq => sequence content rule rule.fields 0
  | .oneOf =>
    dropTokens rule.drop
    choice content rule (← save) rule.fields none

/-- Checks the first token that the rule would see. -/
def guarded (rule : Descriptor) (guard : Constraint) : Routine Unit :=
  if guard.isEmpty then pure ()
  else lookAhead do
    dropTokens rule.drop
    checkNext guard

def node (rule : Descriptor) (guard : Constraint) : Routine Tree := do
  guarded rule guard
  let slots ← within rule.name (body content rule)
  return .node rule.name slots

/-- A rule whose type has no default value. -/
def nodeless (rule : Descriptor) (guard : Constraint) : Routine Tree := do
  guarded rule guard
  within rule.name (getStuck (.noDefault rule.name))

end Routine

namespace Grammar

open TokenGrammar.Routine

/-- What a field holds, given a routine for each rule. -/
def contentRoutine (rule : String → Constraint → Routine Tree) :
    Symbol → Constraint → Routine Tree
  | .token, constraint => return .token (← matchNext constraint)
  | .mark, constraint => do
    let _ ← matchNext constraint
    return .mark
  | .rule path, constraint => rule path constraint
  | .boxed content, constraint => contentRoutine rule content constraint

/-- The routine for a rule in which at most `depth` rules nest. -/
def ruleRoutine (grammar : Grammar) : Nat → String → Constraint → Routine Tree
  | 0, _, _ => getStuck .unbounded
  | depth + 1, path, guard =>
    match grammar.find? path with
    | none => getStuck (.undefinedRule path)
    | some (.error error) => getStuck (.malformed error)
    | some (.ok rule) =>
      if grammar.hasDefault path then
        Routine.node (contentRoutine (grammar.ruleRoutine depth)) rule guard
      else Routine.nodeless rule guard

/-- Parses a symbol under a constraint, from where the session stands. -/
def parseIn (grammar : Grammar) (symbol : Symbol) (constraint : Constraint) : Routine Tree :=
  fun session => contentRoutine (grammar.ruleRoutine (grammar.depthBound session.stream.cursor))
    symbol constraint session

end Grammar
end TokenGrammar
