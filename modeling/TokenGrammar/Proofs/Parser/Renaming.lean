import Mathlib.Data.List.Basic
import TokenGrammar.Proofs.ParseError.Merge
import TokenGrammar.Proofs.Parser.Run

namespace TokenGrammar

/-! # Tokens under other names

To a parser the types and the values of tokens are names and nothing else: whatever a grammar does
with some tokens it does with the renamed ones when its patterns are renamed in the same way. No
text is special, those that the end of the input shows included. The end itself keeps its place
under every renaming. -/

/-- Other names for the types and for the values of tokens. Different names stay different. -/
structure Renaming where
  type : String → String
  value : String → String
  type_injective : Function.Injective type
  value_injective : Function.Injective value

namespace Renaming

variable (ρ : Renaming)

def token : Token → Token
  | .ordinary type value => .ordinary (ρ.type type) (ρ.value value)
  | .endOfInput => .endOfInput

def pattern (pattern : TokenPattern) : TokenPattern :=
  ⟨pattern.type.map ρ.type, pattern.value.map ρ.value, pattern.lookahead⟩

def constraint (constraint : Constraint) : Constraint := ⟨constraint.patterns.map ρ.pattern⟩

def field (field : FieldDescriptor) : FieldDescriptor :=
  { field with tokens := ρ.constraint field.tokens, separator := ρ.constraint field.separator }

def gap (gap : Gap) : Gap := ⟨ρ.constraint gap.drop, gap.separator.map ρ.field⟩

def rule (rule : Descriptor) : Descriptor :=
  { rule with
    fields := rule.fields.map ρ.field
    separator := rule.separator.map ρ.field
    drop := ρ.constraint rule.drop }

def grammar (grammar : Grammar) : Grammar :=
  { grammar with rules := grammar.rules.map fun (name, compiled) => (name, compiled.map ρ.rule) }

def cursor (cursor : Cursor) : Cursor := ⟨cursor.pos, cursor.rest.map ρ.token⟩

mutual

def tree : Tree → Tree
  | .token token => .token (ρ.token token)
  | .mark => .mark
  | .node rule slots => .node rule (slotList slots)

def slot : Slot → Slot
  | .mk name cardinality values => .mk name cardinality (treeList values)

def treeList : List Tree → List Tree
  | [] => []
  | first :: rest => tree first :: treeList rest

def slotList : List Slot → List Slot
  | [] => []
  | first :: rest => slot first :: slotList rest

end

def cause : Cause → Cause
  | .expected patterns => .expected (patterns.map ρ.pattern)
  | other => other

def error (error : ParseError) : ParseError :=
  ⟨ρ.token error.token, error.pos, ρ.cause error.cause⟩

def event : Event → Event
  | .failure failure => .failure (ρ.error failure)
  | other => other

/-- The value or the error of an attempt. -/
def attempted (values : α → β) : Except ParseError α → Except ParseError β
  | .ok value => .ok (values value)
  | .error failure => .error (ρ.error failure)

def outcome (values : α → β) : Outcome α → Outcome β
  | .matched value next => .matched (values value) (ρ.cursor next)
  | .failed failure stop => .failed (ρ.error failure) (ρ.cursor stop)
  | .stuck fault stop => .stuck fault (ρ.cursor stop)

def run (values : α → β) (run : Run α) : Run β :=
  ⟨run.journal.map ρ.event, ρ.outcome values run.outcome⟩

@[simp] theorem treeList_eq_map (trees : List Tree) : ρ.treeList trees = trees.map ρ.tree := by
  induction trees with
  | nil => rfl
  | cons first rest ih => rw [treeList, ih, List.map_cons]

@[simp] theorem slotList_eq_map (slots : List Slot) : ρ.slotList slots = slots.map ρ.slot := by
  induction slots with
  | nil => rfl
  | cons first rest ih => rw [slotList, ih, List.map_cons]

@[simp] theorem tree_token (token : Token) : ρ.tree (.token token) = .token (ρ.token token) := rfl

@[simp] theorem tree_mark : ρ.tree .mark = .mark := rfl

@[simp] theorem tree_node (rule : String) (slots : List Slot) :
    ρ.tree (.node rule slots) = .node rule (slots.map ρ.slot) := by
  rw [tree, slotList_eq_map]

@[simp] theorem slot_field (field : FieldDescriptor) (values : List Tree) :
    ρ.slot (field.slot values) = (ρ.field field).slot (values.map ρ.tree) := by
  simp [FieldDescriptor.slot, Renaming.slot, Renaming.field]

/-! A pattern accepts a token under other names if it accepts it under its own. -/

@[simp] theorem isEnd_token (token : Token) : (ρ.token token).isEnd = token.isEnd := by
  cases token <;> rfl

@[simp] theorem accepts_token (pattern : TokenPattern) (token : Token) :
    (ρ.pattern pattern).accepts (ρ.token token) = pattern.accepts token := by
  cases token with
  | endOfInput => rfl
  | ordinary type value =>
      have types (asked : String) : (ρ.type asked == ρ.type type) = (asked == type) :=
        Bool.eq_iff_iff.mpr (by simpa using ρ.type_injective.eq_iff)
      have values (asked : String) : (ρ.value asked == ρ.value value) = (asked == value) :=
        Bool.eq_iff_iff.mpr (by simpa using ρ.value_injective.eq_iff)
      obtain ⟨_ | asked, _ | text, lookahead⟩ := pattern <;>
        simp [TokenPattern.accepts, Renaming.pattern, Renaming.token, Token.type, Token.value, types,
          values]

@[simp] theorem find_token (constraint : Constraint) (token : Token) :
    (ρ.constraint constraint).find? (ρ.token token) =
      (constraint.find? token).map ρ.pattern := by
  have same : (fun pattern => TokenPattern.accepts pattern (ρ.token token)) ∘ ρ.pattern =
      fun pattern => pattern.accepts token := funext fun pattern => ρ.accepts_token pattern token
  rw [Constraint.find?, Renaming.constraint, List.find?_map, same, Constraint.find?]

@[simp] theorem isEmpty_constraint (constraint : Constraint) :
    (ρ.constraint constraint).isEmpty = constraint.isEmpty := by
  simp [Constraint.isEmpty, Renaming.constraint]

theorem pattern_injective : Function.Injective ρ.pattern := by
  intro first second same
  simp only [pattern, TokenPattern.mk.injEq] at same
  obtain ⟨types, values, lookaheads⟩ := same
  have type := Option.map_injective ρ.type_injective types
  have value := Option.map_injective ρ.value_injective values
  exact congr (congr (congrArg TokenPattern.mk type) value) lookaheads

/-! What a parser sees from a place. -/

@[simp] theorem pos_cursor (start : Cursor) : (ρ.cursor start).pos = start.pos := rfl

@[simp] theorem length_rest (start : Cursor) :
    (ρ.cursor start).rest.length = start.rest.length := by
  simp [Renaming.cursor]

@[simp] theorem peek_cursor (start : Cursor) : (ρ.cursor start).peek = ρ.token start.peek := by
  obtain ⟨pos, _ | ⟨token, rest⟩⟩ := start <;> rfl

@[simp] theorem advance_cursor (start : Cursor) :
    (ρ.cursor start).advance = ρ.cursor start.advance := by
  obtain ⟨pos, _ | ⟨token, rest⟩⟩ := start <;> rfl

@[simp] theorem skip_cursor (drop : Constraint) (start : Cursor) :
    (ρ.cursor start).skip (ρ.constraint drop) = ρ.cursor (start.skip drop) := by
  obtain ⟨pos, rest⟩ := start
  simp only [Cursor.skip, cursor]
  induction rest generalizing pos with
  | nil => rfl
  | cons token rest ih =>
      simp only [List.map_cons, Cursor.skipFrom, find_token, Option.isSome_map]
      split
      · exact ih (pos + 1)
      · rfl

/-! Errors are joined by their positions and by which patterns are the same. -/

@[simp] theorem atCursor_cursor (cause : Cause) (start : Cursor) :
    ParseError.atCursor (ρ.cause cause) (ρ.cursor start) = ρ.error (.atCursor cause start) := by
  simp [ParseError.atCursor, Renaming.error]

theorem unite_map (first second : List TokenPattern) :
    ParseError.unite (first.map ρ.pattern) (second.map ρ.pattern) =
      (ParseError.unite first second).map ρ.pattern := by
  have known (pattern : TokenPattern) (patterns : List TokenPattern) :
      ρ.pattern pattern ∈ patterns.map ρ.pattern ↔ pattern ∈ patterns :=
    List.mem_map_of_injective ρ.pattern_injective
  induction second generalizing first with
  | nil => rfl
  | cons pattern rest ih =>
      simp only [ParseError.unite, List.map_cons, List.foldl_cons, known] at ih ⊢
      split
      · exact ih first
      · simpa using ih (first ++ [pattern])

@[simp] theorem merge_error (earlier later : ParseError) :
    (ρ.error earlier).merge (ρ.error later) = ρ.error (earlier.merge later) := by
  rcases Nat.lt_trichotomy earlier.pos later.pos with further | level | behind
  · rw [ParseError.merge_of_lt further]
    exact ParseError.merge_of_lt further
  · have merged : (ρ.error earlier).merge (ρ.error later) = _ :=
      ParseError.merge_of_level level.symm
    rw [merged, ParseError.merge_of_level level.symm]
    obtain ⟨token, pos, cause⟩ := earlier
    obtain ⟨laterToken, laterPos, laterCause⟩ := later
    cases cause <;> cases laterCause <;> simp [Renaming.error, Renaming.cause, unite_map]
  · rw [ParseError.merge_of_gt behind]
    exact ParseError.merge_of_gt behind

@[simp] theorem gather_error (gathered : Option ParseError) (error : ParseError) :
    .gather (gathered.map ρ.error) (ρ.error error) = ρ.error (.gather gathered error) :=
  ParseError.gather_map ρ.merge_error gathered error

@[simp] theorem furthest_map (errors : List ParseError) :
    ParseError.furthest (errors.map ρ.error) = (ParseError.furthest errors).map ρ.error :=
  ParseError.furthest_map ρ.merge_error errors

@[simp] theorem errors_map (journal : List Event) :
    Event.errors (journal.map ρ.event) = (Event.errors journal).map ρ.error := by
  have each : Event.error? ∘ ρ.event = fun event => event.error?.map ρ.error := by
    funext event
    cases event <;> rfl
  rw [Event.errors, List.filterMap_map, each, Event.errors, List.map_filterMap]

end Renaming

/-- A parser of renamed tokens that does what another one does with the tokens themselves. -/
def Parser.Renames (ρ : Renaming) (values : α → β) (parser : Parser α) (renamed : Parser β) : Prop :=
  ∀ start, renamed (ρ.cursor start) = ρ.run values (parser start)

namespace Parser

open Renaming

variable {ρ : Renaming}

section Combinators

variable {values : α → β} {more : γ → δ}

theorem renames_pure {value : α} {renamed : β} (same : values value = renamed) :
    (pure value : Parser α).Renames ρ values (pure renamed) := by
  intro start
  rw [pure_run, pure_run, ← same]
  rfl

theorem renames_fail (error : ParseError) :
    (fail error : Parser α).Renames ρ values (fail (ρ.error error)) := fun _ => rfl

theorem renames_reject (cause : Cause) :
    (reject cause : Parser α).Renames ρ values (reject (ρ.cause cause)) := by
  intro start
  simp [reject, Renaming.run, outcome, event]

theorem renames_getStuck (fault : Fault) :
    (getStuck fault : Parser α).Renames ρ values (getStuck fault) := fun _ => rfl

theorem renames_here : here.Renames ρ ρ.cursor here := fun _ => rfl

theorem renames_dropTokens (drop : Constraint) :
    (dropTokens drop).Renames ρ id (dropTokens (ρ.constraint drop)) := by
  intro start
  simp [dropTokens, Renaming.run, outcome]

theorem renames_matchNext (constraint : Constraint) :
    (matchNext constraint).Renames ρ ρ.token (matchNext (ρ.constraint constraint)) := by
  intro start
  have unexpected : reject .unexpectedEnd (ρ.cursor start) =
      ρ.run ρ.token (reject .unexpectedEnd start) := renames_reject .unexpectedEnd start
  have refused : reject (.expected (constraint.patterns.map ρ.pattern)) (ρ.cursor start) =
      ρ.run ρ.token (reject (.expected constraint.patterns) start) :=
    renames_reject (.expected constraint.patterns) start
  unfold matchNext
  simp only [isEmpty_constraint, peek_cursor, isEnd_token, find_token, advance_cursor]
  by_cases unconstrained : constraint.isEmpty = true
  · simp only [if_pos unconstrained]
    split
    · exact unexpected
    · rfl
  · simp only [if_neg unconstrained]
    cases constraint.find? start.peek with
    | none => exact refused
    | some pattern =>
        by_cases looking : pattern.lookahead = true <;>
          simp [looking, Renaming.run, outcome, Renaming.pattern]

theorem Renames.bind {first : Parser α} {renamedFirst : Parser β} {next : α → Parser γ}
    {renamedNext : β → Parser δ} (head : first.Renames ρ values renamedFirst)
    (tail : ∀ value, (next value).Renames ρ more (renamedNext (values value))) :
    (first >>= next).Renames ρ more (renamedFirst >>= renamedNext) := by
  intro start
  rw [bind_run, bind_run, head start]
  generalize first start = run
  obtain ⟨journal, ending⟩ := run
  cases ending with
  | matched value middle =>
      simp only [Renaming.run, outcome, tail value middle, List.map_append]
  | failed | stuck => rfl

theorem Renames.attempt {parser : Parser α} {renamed : Parser β}
    (renames : parser.Renames ρ values renamed) :
    parser.attempt.Renames ρ (ρ.attempted values) renamed.attempt := by
  intro start
  rw [attempt_run, attempt_run, renames start]
  generalize parser start = run
  obtain ⟨journal, ending⟩ := run
  cases ending with
  | matched | failed | stuck => rfl

theorem Renames.lookAhead {parser : Parser α} {renamed : Parser β}
    (renames : parser.Renames ρ values renamed) :
    parser.lookAhead.Renames ρ values renamed.lookAhead := by
  intro start
  simp only [Parser.lookAhead, renames start]
  generalize parser start = run
  obtain ⟨journal, ending⟩ := run
  cases ending with
  | matched | failed | stuck => rfl

theorem Renames.within {parser : Parser α} {renamed : Parser β}
    (renames : parser.Renames ρ values renamed) (rule : String) :
    (within rule parser).Renames ρ values (within rule renamed) := by
  intro start
  simp only [Parser.within, renames start]
  generalize parser start = run
  obtain ⟨journal, ending⟩ := run
  cases ending with
  | matched | failed | stuck => simp [Renaming.run, outcome, event]

end Combinators

/-! The parts of a rule, over a parser for what its fields hold and one for the renamed tokens. -/

section Rule

variable {content renamed : Symbol → Constraint → Parser Tree}
  (contents : ∀ symbol constraint,
    (content symbol constraint).Renames ρ ρ.tree (renamed symbol (ρ.constraint constraint)))

include contents

theorem renames_separator (field : FieldDescriptor) :
    (separator content field).Renames ρ id (separator renamed (ρ.field field)) := by
  refine (contents field.symbol field.tokens).attempt.bind fun result => ?_
  cases result with
  | ok tree => exact renames_pure rfl
  | error error =>
      by_cases optional : field.cardinality = .optional
      · simp only [attempted, Renaming.field, optional, if_true]
        exact renames_pure rfl
      · simp only [attempted, Renaming.field, optional, if_false]
        exact renames_fail error

theorem renames_gap (between : Gap) (before : Nat) :
    (gap content between before).Renames ρ id (gap renamed (ρ.gap between) before) := by
  refine (renames_dropTokens between.drop).bind fun _ => ?_
  cases present : between.separator with
  | none =>
      simp only [Renaming.gap, present, Option.map_none]
      exact renames_pure rfl
  | some field =>
      simp only [Renaming.gap, present, Option.map_some]
      by_cases first : before = 0
      · simp only [if_pos first]
        exact renames_pure rfl
      · simp only [if_neg first]
        exact (renames_separator contents field).bind fun _ => renames_dropTokens between.drop

theorem renames_item (between : Gap) (field : FieldDescriptor) (before : Nat) :
    (item content between field before).Renames ρ ρ.tree
      (item renamed (ρ.gap between) (ρ.field field) before) :=
  (renames_gap contents between before).bind fun _ => contents field.symbol field.tokens

theorem renames_repetition (between : Gap) (field : FieldDescriptor) (before count : Nat) :
    (repetition content between field before count).Renames ρ ρ.tree
      (repetition renamed (ρ.gap between) (ρ.field field) before count) := by
  have items := renames_item contents between field (before + count)
  have empty : (ρ.field field).separator.isEmpty = field.separator.isEmpty :=
    ρ.isEmpty_constraint field.separator
  unfold repetition
  simp only [empty]
  split
  · exact (renames_dropTokens between.drop).bind fun _ =>
      (renames_matchNext field.separator).bind fun _ => items
  · exact items

theorem renames_repetitions (between : Gap) (field : FieldDescriptor) (before steps count : Nat) :
    (repetitions content between field before steps count).Renames ρ
      (fun result => (result.1.map ρ.tree, result.2.map ρ.error))
      (repetitions renamed (ρ.gap between) (ρ.field field) before steps count) := by
  induction steps generalizing count with
  | zero => exact renames_getStuck .unbounded
  | succ steps ih =>
      have allowed : (ρ.field field).size.allowsMore count = field.size.allowsMore count := rfl
      simp only [repetitions, allowed]
      split
      · refine renames_here.bind fun start => ?_
        refine (renames_repetition contents between field before count).attempt.bind
          fun result => ?_
        cases result with
        | error error => exact renames_pure rfl
        | ok tree =>
            refine renames_here.bind fun next => ?_
            have unmoved : (ρ.cursor next).pos = (ρ.cursor start).pos ↔ next.pos = start.pos := .rfl
            by_cases idle : next.pos = start.pos
            · simp only [unmoved, if_pos idle]
              exact renames_pure rfl
            · simp only [unmoved, if_neg idle]
              refine (ih (count + 1)).bind fun later => ?_
              exact renames_pure rfl
      · exact renames_pure rfl

theorem renames_repeated (rule : String) (between : Gap) (field : FieldDescriptor)
    (before least : Nat) :
    (repeated content rule between field before least).Renames ρ (List.map ρ.tree)
      (repeated renamed rule (ρ.gap between) (ρ.field field) before least) := by
  refine renames_here.bind fun start => ?_
  simp only [length_rest]
  refine (renames_repetitions contents between field before (start.rest.length + 1) 0).bind
    fun result => ?_
  obtain ⟨trees, error⟩ := result
  simp only [List.length_map]
  split
  · cases error with
    | some error => exact renames_fail error
    | none => exact renames_reject (field.tooFew rule least trees.length)
  · exact renames_pure rfl

theorem renames_fieldValues (rule : Descriptor) (field : FieldDescriptor) (before : Nat) :
    (fieldValues content rule field before).Renames ρ (List.map ρ.tree)
      (fieldValues renamed (ρ.rule rule) (ρ.field field) before) := by
  have once := renames_item contents (.ofRule rule) field before
  have same : (ρ.field field).cardinality = field.cardinality := rfl
  unfold fieldValues
  cases cardinality : field.cardinality with
  | single =>
      simp only [same, cardinality]
      exact once.bind fun tree => renames_pure rfl
  | optional =>
      simp only [same, cardinality]
      refine once.attempt.bind fun result => ?_
      cases result with
      | ok tree => exact renames_pure rfl
      | error error => exact renames_pure rfl
  | repeated =>
      simp only [same, cardinality]
      exact renames_repeated contents rule.name (.ofRule rule) field before field.size.min

theorem renames_sequence (rule : Descriptor) (fields : List FieldDescriptor) (items : Nat) :
    (sequence content rule fields items).Renames ρ (List.map ρ.slot)
      (sequence renamed (ρ.rule rule) (fields.map ρ.field) items) := by
  induction fields generalizing items with
  | nil =>
      simp only [List.map_nil, sequence]
      split
      · exact renames_reject .emptyMatch
      · exact renames_pure rfl
  | cons field rest ih =>
      refine (renames_fieldValues contents rule field items).bind fun values => ?_
      simp only [List.length_map]
      refine (ih (items + values.length)).bind fun slots => ?_
      exact renames_pure (by simp)

theorem renames_alternative (rule : Descriptor) (field : FieldDescriptor) :
    (alternative content rule field).Renames ρ (List.map ρ.tree)
      (alternative renamed (ρ.rule rule) (ρ.field field)) := by
  have once : (content field.symbol field.tokens >>= fun tree => pure [tree]).Renames ρ
      (List.map ρ.tree) (renamed field.symbol (ρ.constraint field.tokens) >>= fun tree =>
        pure [tree]) :=
    (contents field.symbol field.tokens).bind fun tree => renames_pure rfl
  have same : (ρ.field field).cardinality = field.cardinality := rfl
  unfold alternative
  cases cardinality : field.cardinality with
  | single | optional =>
      simp only [same, cardinality]
      exact once
  | repeated =>
      simp only [same, cardinality]
      exact renames_repeated contents rule.name .nothing field 0 (max 1 field.size.min)

theorem renames_choice (rule : Descriptor) (fields : List FieldDescriptor)
    (gathered : Option ParseError) :
    (choice content rule fields gathered).Renames ρ (List.map ρ.slot)
      (choice renamed (ρ.rule rule) (fields.map ρ.field) (gathered.map ρ.error)) := by
  induction fields generalizing gathered with
  | nil =>
      cases gathered with
      | some error => exact renames_fail error
      | none => exact renames_reject .emptyMatch
  | cons field rest ih =>
      refine (renames_alternative contents rule field).attempt.bind fun result => ?_
      cases result with
      | ok values =>
          exact renames_pure (by simp)
      | error error =>
          simp only [attempted, gather_error]
          refine (ih (some (.gather gathered error))).bind fun slots => ?_
          exact renames_pure (by simp)

theorem renames_body (rule : Descriptor) :
    (body content rule).Renames ρ (List.map ρ.slot) (body renamed (ρ.rule rule)) := by
  have same : (ρ.rule rule).combinator = rule.combinator := rfl
  unfold body
  cases combinator : rule.combinator with
  | seq =>
      simp only [same, combinator]
      exact renames_sequence contents rule rule.fields 0
  | oneOf =>
      simp only [same, combinator]
      exact (renames_dropTokens rule.drop).bind fun _ =>
        renames_choice contents rule rule.fields none

omit contents in
theorem renames_guarded (rule : Descriptor) (guard : Constraint) :
    (guarded rule guard).Renames ρ id (guarded (ρ.rule rule) (ρ.constraint guard)) := by
  unfold guarded
  simp only [isEmpty_constraint]
  split
  · exact renames_pure rfl
  · refine Renames.lookAhead ((renames_dropTokens rule.drop).bind fun _ => ?_)
    exact Renames.lookAhead ((renames_matchNext guard).bind fun _ => renames_pure rfl)

theorem renames_node (rule : Descriptor) (guard : Constraint) :
    (node content rule guard).Renames ρ ρ.tree
      (node renamed (ρ.rule rule) (ρ.constraint guard)) := by
  refine (renames_guarded rule guard).bind fun _ => ?_
  refine ((renames_body contents rule).within rule.name).bind fun slots => ?_
  exact renames_pure (ρ.tree_node rule.name slots)

omit contents in
theorem renames_nodeless (rule : Descriptor) (guard : Constraint) :
    (nodeless rule guard).Renames ρ ρ.tree (nodeless (ρ.rule rule) (ρ.constraint guard)) :=
  (renames_guarded rule guard).bind fun _ =>
    Renames.within (renames_getStuck (.noDefault rule.name)) rule.name

end Rule
end Parser

open TokenGrammar.Parser

namespace Grammar

variable {ρ : Renaming}

theorem renames_contentParser {rules renamed : String → Constraint → Parser Tree}
    (parsers : ∀ name guard,
      (rules name guard).Renames ρ ρ.tree (renamed name (ρ.constraint guard)))
    (symbol : Symbol) (constraint : Constraint) :
    (contentParser rules symbol constraint).Renames ρ ρ.tree
      (contentParser renamed symbol (ρ.constraint constraint)) := by
  induction symbol with
  | token => exact (renames_matchNext constraint).bind fun token => renames_pure rfl
  | mark => exact (renames_matchNext constraint).bind fun _ => renames_pure rfl
  | rule name => exact parsers name constraint
  | boxed content ih => exact ih

theorem find_renamed (ρ : Renaming) (grammar : Grammar) (name : String) :
    (ρ.grammar grammar).find? name = (grammar.find? name).map (·.map ρ.rule) := by
  obtain ⟨rules⟩ := grammar
  simp only [find?, Renaming.grammar]
  induction rules with
  | nil => rfl
  | cons entry rest ih =>
      obtain ⟨other, compiled⟩ := entry
      simp only [List.map_cons, List.lookup_cons]
      cases name == other with
      | true => rfl
      | false => exact ih

theorem renames_ruleParser (grammar : Grammar) (depth : Nat) (name : String) (guard : Constraint) :
    (grammar.ruleParser depth name guard).Renames ρ ρ.tree
      ((ρ.grammar grammar).ruleParser depth name (ρ.constraint guard)) := by
  induction depth generalizing name guard with
  | zero => exact renames_getStuck .unbounded
  | succ depth ih =>
      simp only [ruleParser, find_renamed]
      cases grammar.find? name with
      | none => exact renames_getStuck (.undefinedRule name)
      | some compiled =>
          cases compiled with
          | error error => exact renames_getStuck (.malformed error)
          | ok rule =>
              by_cases made : grammar.hasDefault name = true
              · simp only [Renaming.grammar, made, if_true]
                exact renames_node (renames_contentParser ih) rule guard
              · simp only [Renaming.grammar, made]
                exact renames_nodeless rule guard

theorem renames_parse (grammar : Grammar) (symbol : Symbol) (constraint : Constraint) :
    (grammar.parse symbol constraint).Renames ρ ρ.tree
      ((ρ.grammar grammar).parse symbol (ρ.constraint constraint)) := by
  intro start
  have depth : (ρ.grammar grammar).depthBound (ρ.cursor start) = grammar.depthBound start := by
    simp [depthBound, Renaming.grammar]
  simp only [parse, depth]
  exact renames_contentParser (renames_ruleParser grammar _) symbol constraint start

theorem dropFilter_renamed (ρ : Renaming) (grammar : Grammar) (symbol : Symbol) :
    (ρ.grammar grammar).dropFilter? symbol =
      (grammar.dropFilter? symbol).map (·.map ρ.constraint) := by
  induction symbol with
  | token | mark => rfl
  | rule name =>
      simp only [dropFilter?, find_renamed]
      rcases grammar.find? name with _ | _ | _ <;> rfl
  | boxed content ih => exact ih

theorem skipTrailing_renamed (ρ : Renaming) (grammar : Grammar) (root : Symbol) (start : Cursor) :
    (ρ.grammar grammar).skipTrailing root (ρ.cursor start) =
      ρ.cursor (grammar.skipTrailing root start) := by
  simp only [skipTrailing, dropFilter_renamed]
  rcases grammar.dropFilter? root with _ | _ | drop
  · rfl
  · rfl
  · exact ρ.skip_cursor drop start

theorem renames_parseRoot (grammar : Grammar) (root : Symbol) (complete : Bool) :
    (grammar.parseRoot root complete).Renames ρ ρ.tree
      ((ρ.grammar grammar).parseRoot root complete) := by
  refine (renames_parse grammar root .anyToken).bind fun tree => ?_
  cases complete with
  | false => exact renames_pure rfl
  | true =>
      refine renames_here.bind fun next => ?_
      simp only [skipTrailing_renamed, ρ.peek_cursor, ρ.isEnd_token]
      split
      · exact renames_pure rfl
      · rw [show Cause.trailingInput = ρ.cause .trailingInput from rfl, ρ.atCursor_cursor]
        exact renames_fail _

/-- A whole parse of renamed tokens by the renamed grammar is the parse under the other names. -/
theorem renames_parseFrom (grammar : Grammar) (root : Symbol) (complete : Bool) :
    (grammar.parseFrom root complete).Renames ρ ρ.tree
      ((ρ.grammar grammar).parseFrom root complete) := by
  intro start
  unfold parseFrom
  rw [renames_parseRoot grammar root complete start]
  generalize grammar.parseRoot root complete start = run
  obtain ⟨journal, ending⟩ := run
  cases ending with
  | failed error stop => simp [Renaming.run, Renaming.outcome]
  | matched | stuck => rfl

end Grammar
end TokenGrammar
