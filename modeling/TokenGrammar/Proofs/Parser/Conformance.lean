import TokenGrammar.Language.Sexpr
import TokenGrammar.Proofs.Parser.Run
import TokenGrammar.Proofs.Rule.Compile
import TokenGrammar.Proofs.Tree.Equality

namespace TokenGrammar

/-! # What a tree promises

A tree conforms to a symbol if each of its nodes holds what the rule of the node asks for. The
parsers yield nothing else. -/

/-- A token that is there and satisfies a pattern, if the constraint has any. -/
structure Constraint.Admits (constraint : Constraint) (token : Token) : Prop where
  present : token.isEnd = false
  satisfied : constraint.isEmpty = false →
    ∃ pattern ∈ constraint.patterns, pattern.accepts token = true

/-- How many values a field holds. -/
def FieldDescriptor.Allows (field : FieldDescriptor) (count : Nat) : Prop :=
  match field.cardinality with
  | .single => count = 1
  | .optional => count ≤ 1
  | .repeated => field.size.min ≤ count ∧ ∀ most, field.size.max = some most → count ≤ most

mutual

/-- A sequence holds what each of its fields asks for, and not nothing. A choice holds values in
one field and in no other. -/
inductive Grammar.Conforms (grammar : Grammar) : Symbol → Constraint → Tree → Prop
  | token (admits : constraint.Admits token) : Conforms grammar .token constraint (.token token)
  | mark : Conforms grammar .mark constraint .mark
  | boxed (content : Grammar.Conforms grammar symbol constraint tree) :
      Conforms grammar (.boxed symbol) constraint tree
  | sequence {guard : Constraint} (defined : grammar.find? name = some (.ok rule))
      (combinator : rule.combinator = .seq)
      (fields : Grammar.ConformsFields grammar rule.fields slots)
      (present : 0 < Parser.valueCount slots)
      (kept : ∀ slot ∈ slots, slot.name ≠ separatorName) :
      Conforms grammar (.rule name) guard (.node rule.name slots)
  | choice {guard : Constraint} (defined : grammar.find? name = some (.ok rule))
      (combinator : rule.combinator = .oneOf)
      (split : rule.fields = before ++ field :: after) (optional : field.cardinality ≠ .single)
      (present : 0 < trees.length) (allowed : field.Allows trees.length)
      (values : ∀ tree ∈ trees, Grammar.Conforms grammar field.symbol field.tokens tree) :
      Conforms grammar (.rule name) guard
        (.node rule.name
          (before.map (·.slot []) ++ field.slot trees :: after.map (·.slot [])))

inductive Grammar.ConformsFields (grammar : Grammar) : List FieldDescriptor → List Slot → Prop
  | nil : ConformsFields grammar [] []
  | cons (allowed : field.Allows trees.length)
      (values : ∀ tree ∈ trees, Grammar.Conforms grammar field.symbol field.tokens tree)
      (more : Grammar.ConformsFields grammar rest slots) :
      ConformsFields grammar (field :: rest) (field.slot trees :: slots)

end

/-- The fields of a node have the names that the rule gives them. -/
theorem Grammar.ConformsFields.names {grammar : Grammar}
    (conforms : grammar.ConformsFields fields slots) :
    slots.map (·.name) = fields.map (·.name) := by
  induction fields generalizing slots with
  | nil =>
      cases conforms
      rfl
  | cons field rest ih =>
      cases conforms with
      | cons allowed values more =>
          rw [List.map_cons, List.map_cons, ih more]
          rfl

/-- What a parser yields is of a certain kind. -/
def Parser.Yields (kind : α → Prop) (parser : Parser α) : Prop :=
  ∀ start value next, (parser start).outcome = .matched value next → kind value

namespace Parser

variable {kind : α → Prop} {other : β → Prop}

theorem yields_pure {value : α} (holds : kind value) : Yields kind (pure value : Parser α) := by
  intro start result next matched
  cases matched
  exact holds

theorem yields_reject (cause : Cause) : Yields kind (reject cause : Parser α) := by
  intro start result next matched
  cases matched

theorem yields_fail (error : ParseError) : Yields kind (fail error : Parser α) := by
  intro start result next matched
  cases matched

theorem Yields.bind {first : Parser α} {next : α → Parser β} (head : first.Yields kind)
    (tail : ∀ value, kind value → (next value).Yields other) : (first >>= next).Yields other := by
  intro start result stop matched
  obtain ⟨value, middle, first, second⟩ := bind_matched matched
  exact tail value (head _ _ _ first) _ _ _ second

theorem yields_bind {first : Parser α} {next : α → Parser β}
    (tail : ∀ value, (next value).Yields other) : (first >>= next).Yields other := by
  have anything : first.Yields fun _ => True := fun _ _ _ _ => trivial
  exact anything.bind fun value _ => tail value

theorem Yields.attempt {parser : Parser α} (yields : parser.Yields kind) :
    (attempt parser).Yields fun result => ∀ value, result = .ok value → kind value := by
  rintro start result next matched value rfl
  rcases attempt_matched matched with ⟨tree, same, inner⟩ | ⟨error, same, _⟩
  · cases same
    exact yields _ _ _ inner
  · cases same

theorem yields_matchNext (constraint : Constraint) :
    (matchNext constraint).Yields constraint.Admits := by
  intro start token next matched
  have checks := matchNext_checks constraint start
  generalize matchNext constraint start = run at checks matched
  cases checks with
  | anyToken unconstrained present =>
      cases matched
      exact ⟨present, by simp [unconstrained]⟩
  | @accepted pattern constrained found =>
      cases matched
      have accepts : pattern.accepts start.peek = true :=
        List.find?_some (p := fun pattern : TokenPattern => pattern.accepts start.peek) found
      refine ⟨?_, fun _ => ⟨pattern, List.mem_of_find?_eq_some found, accepts⟩⟩
      cases token : start.peek with
      | ordinary => rfl
      | endOfInput => simp [token] at accepts
  | atEnd | refused => cases matched

/-! The parts of a rule, over a parser that yields what the fields ask for. -/

section Rule

variable {grammar : Grammar} {content : Symbol → Constraint → Parser Tree}
  (contents : ∀ symbol constraint,
    (content symbol constraint).Yields (grammar.Conforms symbol constraint))

include contents

theorem yields_item (between : Gap) (field : FieldDescriptor) (before : Nat) :
    (item content between field before).Yields (grammar.Conforms field.symbol field.tokens) :=
  yields_bind fun _ => contents field.symbol field.tokens

theorem yields_repetition (between : Gap) (field : FieldDescriptor) (before count : Nat) :
    (repetition content between field before count).Yields
      (grammar.Conforms field.symbol field.tokens) := by
  have items := yields_item contents between field (before + count)
  rcases repetition_cases content between field before count with ⟨_, same⟩ | ⟨_, _, same⟩
  · rw [same]
    exact items
  · rw [same]
    exact yields_bind fun _ => yields_bind fun _ => items

/-- Repetitions conform, and no more of them are made than the field allows. -/
theorem Repeats.conforms {between : Gap} {field : FieldDescriptor} {before count : Nat}
    {trees : List Tree}
    (repeats : Repeats content between field before count start journal trees error next) :
    (∀ tree ∈ trees, grammar.Conforms field.symbol field.tokens tree) ∧
      ∀ most, field.size.max = some most → count ≤ most → count + trees.length ≤ most := by
  have bounded {made most : Nat} (allowed : field.size.allowsMore made = true)
      (limit : field.size.max = some most) : made < most := by
    simpa [Repetition.allowsMore, limit] using allowed
  induction repeats with
  | full | stopped => exact ⟨by simp, fun _ _ within => within⟩
  | stalled allowed matched idle =>
      have conforms := yields_repetition contents between field before _ _ _ _
        (congrArg Run.outcome matched)
      exact ⟨by simpa using conforms, fun _ limit _ => bounded allowed limit⟩
  | more allowed matched moved rest ih =>
      have conforms := yields_repetition contents between field before _ _ _ _
        (congrArg Run.outcome matched)
      refine ⟨?_, fun most limit _ => ?_⟩
      · intro tree member
        rcases List.mem_cons.mp member with same | later
        · rw [same]
          exact conforms
        · exact ih.1 tree later
      · have total := ih.2 most limit (bounded allowed limit)
        simp only [List.length_cons]
        omega

theorem yields_repeated (rule : String) (between : Gap) (field : FieldDescriptor)
    (before least : Nat) :
    (repeated content rule between field before least).Yields fun trees =>
      least ≤ trees.length ∧ (∀ most, field.size.max = some most → trees.length ≤ most) ∧
        ∀ tree ∈ trees, grammar.Conforms field.symbol field.tokens tree := by
  intro start trees next matched
  obtain ⟨enough, journal, error, repeats⟩ := repeated_matched matched
  obtain ⟨conforms, bounded⟩ := repeats.conforms contents
  refine ⟨enough, fun most limit => ?_, conforms⟩
  have total := bounded most limit (Nat.zero_le most)
  omega

theorem yields_fieldValues (rule : Descriptor) (field : FieldDescriptor) (before : Nat) :
    (fieldValues content rule field before).Yields fun trees =>
      field.Allows trees.length ∧
        ∀ tree ∈ trees, grammar.Conforms field.symbol field.tokens tree := by
  have items := yields_item contents (.ofRule rule) field before
  cases cardinality : field.cardinality with
  | single =>
      simp only [fieldValues, cardinality]
      refine items.bind fun tree conforms => ?_
      exact yields_pure ⟨by simp [FieldDescriptor.Allows, cardinality], by simpa using conforms⟩
  | optional =>
      simp only [fieldValues, cardinality]
      refine items.attempt.bind fun result conforms => ?_
      cases result with
      | ok tree =>
          exact yields_pure
            ⟨by simp [FieldDescriptor.Allows, cardinality], by simpa using conforms tree rfl⟩
      | error error => exact yields_pure ⟨by simp [FieldDescriptor.Allows, cardinality], by simp⟩
  | repeated =>
      simp only [fieldValues, cardinality]
      intro start trees next matched
      obtain ⟨enough, bounded, conforms⟩ := yields_repeated contents rule.name (.ofRule rule) field
        before field.size.min _ _ _ matched
      simp only [FieldDescriptor.Allows, cardinality]
      exact ⟨⟨enough, bounded⟩, conforms⟩

/-- The slots of a sequence, which has matched an item before them or in them. -/
theorem yields_sequence (rule : Descriptor) (fields : List FieldDescriptor) (before : Nat) :
    (sequence content rule fields before).Yields fun slots =>
      grammar.ConformsFields fields slots ∧ 0 < before + valueCount slots := by
  induction fields generalizing before with
  | nil =>
      by_cases nothing : before = 0
      · simp only [sequence, nothing, if_true]
        exact yields_reject .emptyMatch
      · simp only [sequence, nothing, if_false]
        exact yields_pure ⟨.nil, by omega⟩
  | cons field rest ih =>
      simp only [sequence]
      refine (yields_fieldValues contents rule field before).bind fun trees values => ?_
      refine (ih (before + trees.length)).bind fun slots rest => ?_
      obtain ⟨allowed, conforms⟩ := values
      obtain ⟨more, present⟩ := rest
      have counted := valueCount_cons field trees slots
      exact yields_pure ⟨.cons allowed conforms more, by omega⟩

theorem yields_alternative (rule : Descriptor) (field : FieldDescriptor)
    (optional : field.cardinality ≠ .single) :
    (alternative content rule field).Yields fun trees =>
      0 < trees.length ∧ field.Allows trees.length ∧
        ∀ tree ∈ trees, grammar.Conforms field.symbol field.tokens tree := by
  cases cardinality : field.cardinality with
  | single => exact absurd cardinality optional
  | optional =>
      simp only [alternative, cardinality]
      refine (contents field.symbol field.tokens).bind fun tree conforms => ?_
      exact yields_pure
        ⟨by simp, by simp [FieldDescriptor.Allows, cardinality], by simpa using conforms⟩
  | repeated =>
      simp only [alternative, cardinality]
      intro start trees next matched
      obtain ⟨enough, bounded, conforms⟩ := yields_repeated contents rule.name .nothing field 0
        (max 1 field.size.min) _ _ _ matched
      simp only [FieldDescriptor.Allows, cardinality]
      exact ⟨by omega, ⟨by omega, bounded⟩, conforms⟩

/-- One field of a choice holds values. -/
theorem yields_choice (rule : Descriptor) (fields : List FieldDescriptor)
    (gathered : Option ParseError) (optional : ∀ field ∈ fields, field.cardinality ≠ .single) :
    (choice content rule fields gathered).Yields fun slots =>
      ∃ before field after trees, fields = before ++ field :: after ∧
        slots = before.map (·.slot []) ++ field.slot trees :: after.map (·.slot []) ∧
        0 < trees.length ∧ field.Allows trees.length ∧
        ∀ tree ∈ trees, grammar.Conforms field.symbol field.tokens tree := by
  induction fields generalizing gathered with
  | nil =>
      cases gathered with
      | none => exact yields_reject .emptyMatch
      | some error => exact yields_fail error
  | cons field rest ih =>
      simp only [choice]
      have head := yields_alternative contents rule field (optional field (by simp))
      refine head.attempt.bind fun result values => ?_
      cases result with
      | ok trees => exact yields_pure ⟨[], field, rest, trees, rfl, rfl, values trees rfl⟩
      | error error =>
          have more := ih (some (.gather gathered error))
            fun other member => optional other (by simp [member])
          refine more.bind fun slots found => ?_
          obtain ⟨before, chosen, after, trees, rfl, rfl, conforms⟩ := found
          exact yields_pure ⟨field :: before, chosen, after, trees, rfl, rfl, conforms⟩

theorem yields_node {name : String} {rule : Descriptor} (guard : Constraint)
    (defined : grammar.find? name = some (.ok rule)) (wellFormed : rule.WellFormed) :
    (node content rule guard).Yields (grammar.Conforms (.rule name) guard) := by
  intro start tree next matched
  obtain ⟨_, place, guarding, matched⟩ := bind_matched matched
  obtain ⟨slots, middle, ran, done⟩ := bind_matched matched
  cases done
  have inner := within_matched ran
  cases combinator : rule.combinator with
  | seq =>
      simp only [body, combinator] at inner
      obtain ⟨conforms, present⟩ := yields_sequence contents rule rule.fields 0 _ _ _ inner
      refine .sequence defined combinator conforms (by omega) fun slot member => ?_
      have named : slot.name ∈ rule.fields.map (·.name) := by
        rw [← conforms.names]
        exact List.mem_map_of_mem member
      obtain ⟨field, declared, same⟩ := List.mem_map.mp named
      rw [← same]
      exact wellFormed.kept combinator field declared
  | oneOf =>
      simp only [body, combinator] at inner
      obtain ⟨_, middle, _, choosing⟩ := bind_matched inner
      have optional := wellFormed.alternatives combinator
      obtain ⟨before, field, after, trees, split, rfl, present, allowed, conforms⟩ :=
        yields_choice contents rule rule.fields none optional _ _ _ choosing
      exact .choice defined combinator split (optional field (by simp [split])) present allowed
        conforms

end Rule
end Parser

namespace Grammar

open TokenGrammar.Parser

variable {grammar : Grammar}

theorem yields_contentParser {rules : String → Constraint → Parser Tree}
    (nodes : ∀ name guard, (rules name guard).Yields (grammar.Conforms (.rule name) guard))
    (symbol : Symbol) (constraint : Constraint) :
    (contentParser rules symbol constraint).Yields (grammar.Conforms symbol constraint) := by
  induction symbol with
  | token => exact (yields_matchNext constraint).bind fun token admits => yields_pure (.token admits)
  | mark => exact yields_bind fun _ => yields_pure .mark
  | rule name => exact nodes name constraint
  | boxed symbol ih => exact fun start tree next matched => .boxed (ih start tree next matched)

theorem yields_ruleParser
    (wellFormed : ∀ name rule, grammar.find? name = some (.ok rule) → rule.WellFormed)
    (depth : Nat) (name : String) (guard : Constraint) :
    (grammar.ruleParser depth name guard).Yields (grammar.Conforms (.rule name) guard) := by
  refine ruleParser_induction (motive := fun name guard parser =>
    parser.Yields (grammar.Conforms (.rule name) guard)) ?_ ?_ ?_ depth name guard
  · intro name guard fault start tree next matched
    cases matched
  · intro rules name guard rule nodes defined
    exact yields_node (yields_contentParser nodes) guard defined (wellFormed name rule defined)
  · intro name guard rule defined start tree next matched
    exact absurd matched (nodeless_unmatched rule guard)

/-- Every tree that a compiled grammar reads conforms to the rules of its nodes, at any depth. -/
theorem parse_conforms (declarations : List Declaration) (symbol : Symbol)
    (constraint : Constraint) (start : Cursor)
    (matched : ((ofDeclarations declarations).parse symbol constraint start).outcome =
      .matched tree next) :
    (ofDeclarations declarations).Conforms symbol constraint tree :=
  yields_contentParser (yields_ruleParser (fun _ _ found => wellFormed_of_find found) _) symbol
    constraint start tree next matched

/-- A list with an atom in it, behind a comment. -/
theorem parse_conforms_list :
    let start := Cursor.start [.ordinary "bkt" "(", .ordinary "comment" "; list",
      .ordinary "atom" "x", .ordinary "bkt" ")"]
    let atom : Tree := .node "SExpr" [.mk "number" .optional [], .mk "string" .optional [],
      .mk "atom" .optional [.token (.ordinary "atom" "x")], .mk "list" .optional []]
    let list : Tree := .node "List"
      [.mk "open" .single [.mark], .mk "items" .repeated [atom], .mk "close" .single [.mark]]
    let tree : Tree := .node "SExpr" [.mk "number" .optional [], .mk "string" .optional [],
      .mk "atom" .optional [], .mk "list" .optional [list]]
    let grammar := ofDeclarations Language.Sexpr.declarations
    (grammar.parse (.rule "SExpr") .anyToken start).outcome = .matched tree ⟨4, []⟩ ∧
      grammar.Conforms (.rule "SExpr") .anyToken tree := by
  intro start atom list tree grammar
  have matched : (grammar.parse (.rule "SExpr") .anyToken start).outcome =
      .matched tree ⟨4, []⟩ := by
    decide +kernel
  exact ⟨matched, parse_conforms Language.Sexpr.declarations (.rule "SExpr") .anyToken start matched⟩

end Grammar
end TokenGrammar
