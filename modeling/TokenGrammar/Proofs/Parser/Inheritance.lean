import TokenGrammar.Proofs.Parser.Run

namespace TokenGrammar.Parser

/-! What the combinators keep, the parsers of a rule keep: each is put together from what its
fields hold. Only the note of where a rule begins and ends is a step that a property has to take
by itself. -/

/-- A property of parsers that lasts under the combinators, apart from the notes of a rule. -/
structure Inherited (holds : {α : Type} → Parser α → Prop) : Prop where
  pure {α : Type} (value : α) : holds (Pure.pure value : Parser α)
  fail {α : Type} (error : ParseError) : holds (Parser.fail error : Parser α)
  reject {α : Type} (cause : Cause) : holds (Parser.reject cause : Parser α)
  getStuck {α : Type} (fault : Fault) : holds (Parser.getStuck fault : Parser α)
  here : holds Parser.here
  dropTokens (drop : Constraint) : holds (Parser.dropTokens drop)
  matchNext (constraint : Constraint) : holds (Parser.matchNext constraint)
  bind {α β : Type} {first : Parser α} {next : α → Parser β} :
    holds first → (∀ value, holds (next value)) → holds (first >>= next)
  attempt {α : Type} {parser : Parser α} : holds parser → holds (Parser.attempt parser)
  lookAhead {α : Type} {parser : Parser α} : holds parser → holds (Parser.lookAhead parser)

namespace Inherited

variable {holds : {α : Type} → Parser α → Prop} (inherited : Inherited holds)

include inherited

theorem guarded (rule : Descriptor) (guard : Constraint) : holds (Parser.guarded rule guard) := by
  unfold Parser.guarded
  split
  · exact inherited.pure ()
  · refine inherited.lookAhead (inherited.bind (inherited.dropTokens rule.drop) fun _ => ?_)
    exact inherited.lookAhead (inherited.bind (inherited.matchNext guard) fun _ =>
      inherited.pure ())

theorem contentParser {rules : String → Constraint → Parser Tree}
    (nodes : ∀ name guard, holds (rules name guard)) (symbol : Symbol) (constraint : Constraint) :
    holds (Grammar.contentParser rules symbol constraint) := by
  induction symbol with
  | token | mark =>
      exact inherited.bind (inherited.matchNext constraint) fun _ => inherited.pure _
  | rule name => exact nodes name constraint
  | boxed symbol ih => exact ih

variable {content : Symbol → Constraint → Parser Tree}
  (contents : ∀ symbol constraint, holds (content symbol constraint))

include contents

theorem separator (field : FieldDescriptor) : holds (Parser.separator content field) := by
  refine inherited.bind (inherited.attempt (contents _ _)) fun result => ?_
  cases result with
  | ok tree => exact inherited.pure ()
  | error error =>
      dsimp only
      split
      · exact inherited.pure ()
      · exact inherited.fail error

theorem gap (between : Gap) (before : Nat) : holds (Parser.gap content between before) := by
  refine inherited.bind (inherited.dropTokens _) fun _ => ?_
  cases between.separator with
  | none => exact inherited.pure ()
  | some field =>
      dsimp only
      split
      · exact inherited.pure ()
      · exact inherited.bind (inherited.separator contents field) fun _ =>
          inherited.dropTokens between.drop

theorem item (between : Gap) (field : FieldDescriptor) (before : Nat) :
    holds (Parser.item content between field before) :=
  inherited.bind (inherited.gap contents between before) fun _ => contents _ _

theorem repetition (between : Gap) (field : FieldDescriptor) (before count : Nat) :
    holds (Parser.repetition content between field before count) := by
  have item := inherited.item contents between field (before + count)
  rcases repetition_cases content between field before count with ⟨_, same⟩ | ⟨_, _, same⟩
  · rw [same]
    exact item
  · rw [same]
    refine inherited.bind (inherited.dropTokens _) fun _ => ?_
    exact inherited.bind (inherited.matchNext _) fun _ => item

theorem repetitions (between : Gap) (field : FieldDescriptor) (before steps count : Nat) :
    holds (Parser.repetitions content between field before steps count) := by
  induction steps generalizing count with
  | zero => exact inherited.getStuck .unbounded
  | succ steps ih =>
      have once := inherited.repetition contents between field before count
      unfold Parser.repetitions
      split
      · refine inherited.bind inherited.here fun start => ?_
        refine inherited.bind (inherited.attempt once) fun result => ?_
        cases result with
        | error error => exact inherited.pure _
        | ok tree =>
            refine inherited.bind inherited.here fun next => ?_
            split
            · exact inherited.pure _
            · exact inherited.bind (ih (count + 1)) fun _ => inherited.pure _
      · exact inherited.pure _

theorem repeated (rule : String) (between : Gap) (field : FieldDescriptor) (before least : Nat) :
    holds (Parser.repeated content rule between field before least) := by
  refine inherited.bind inherited.here fun start => ?_
  refine inherited.bind (inherited.repetitions contents between field before _ 0) fun result => ?_
  obtain ⟨trees, error⟩ := result
  dsimp only
  split
  · cases error with
    | some error => exact inherited.fail error
    | none => exact inherited.reject _
  · exact inherited.pure trees

theorem fieldValues (rule : Descriptor) (field : FieldDescriptor) (before : Nat) :
    holds (Parser.fieldValues content rule field before) := by
  have item := inherited.item contents (.ofRule rule) field before
  unfold Parser.fieldValues
  cases field.cardinality with
  | single => exact inherited.bind item fun _ => inherited.pure _
  | optional =>
      refine inherited.bind (inherited.attempt item) fun result => ?_
      cases result <;> exact inherited.pure _
  | repeated => exact inherited.repeated contents _ _ _ _ _

theorem sequence (rule : Descriptor) (fields : List FieldDescriptor) (before : Nat) :
    holds (Parser.sequence content rule fields before) := by
  induction fields generalizing before with
  | nil =>
      unfold Parser.sequence
      split
      · exact inherited.reject .emptyMatch
      · exact inherited.pure []
  | cons field rest ih =>
      refine inherited.bind (inherited.fieldValues contents rule field before) fun values => ?_
      exact inherited.bind (ih _) fun _ => inherited.pure _

theorem alternative (rule : Descriptor) (field : FieldDescriptor) :
    holds (Parser.alternative content rule field) := by
  have lone : holds (do return [← content field.symbol field.tokens]) :=
    inherited.bind (contents _ _) fun _ => inherited.pure _
  unfold Parser.alternative
  cases field.cardinality with
  | repeated => exact inherited.repeated contents _ _ _ _ _
  | single | optional => exact lone

theorem choice (rule : Descriptor) (fields : List FieldDescriptor) (gathered : Option ParseError) :
    holds (Parser.choice content rule fields gathered) := by
  induction fields generalizing gathered with
  | nil =>
      cases gathered with
      | none => exact inherited.reject .emptyMatch
      | some error => exact inherited.fail error
  | cons field rest ih =>
      refine inherited.bind (inherited.attempt (inherited.alternative contents rule field))
        fun result => ?_
      cases result with
      | ok values => exact inherited.pure _
      | error error => exact inherited.bind (ih _) fun _ => inherited.pure _

theorem body (rule : Descriptor) : holds (Parser.body content rule) := by
  unfold Parser.body
  cases rule.combinator with
  | seq => exact inherited.sequence contents rule rule.fields 0
  | oneOf =>
      exact inherited.bind (inherited.dropTokens rule.drop) fun _ =>
        inherited.choice contents rule rule.fields none

end Inherited
end TokenGrammar.Parser
