import TokenGrammar.Proofs.ParseError.Merge
import TokenGrammar.Proofs.Parser.Run
import TokenGrammar.Grammar.Basic

namespace TokenGrammar

/-! The error with which a parser fails is on record: it may be the join of many, but each of
these arose in a check that failed, and joining it to the record once more changes nothing. -/

variable {record : Option ParseError}

theorem Event.errors_append (first second : List Event) :
    errors (first ++ second) = errors first ++ errors second := by
  simp only [errors, List.filterMap_append]

/-- The notes around a rule are no errors. -/
theorem Event.errors_enclosed (rule : String) (first : Nat) (matched : Bool) (last : Nat)
    (journal : List Event) :
    errors (.enter rule first :: journal ++ [.leave rule matched last]) = errors journal := by
  simp [errors, error?, List.filterMap_cons]

/-- The record after a run. -/
def Run.recordAfter (before : Option ParseError) (run : Run α) : Option ParseError :=
  ParseError.recordAll before (Event.errors run.journal)

/-- If a run fails, the record after it holds its error. -/
def Run.OnRecord (before : Option ParseError) (run : Run α) : Prop :=
  ∀ error stop, run.outcome = .failed error stop → ParseError.Holds (run.recordAfter before) error

/-- A parser that puts the error on record with which it fails, whatever is on record before. -/
def Parser.Records (parser : Parser α) : Prop := ∀ before start, (parser start).OnRecord before

namespace Run.OnRecord

theorem of_matched {value : α} : Run.OnRecord record ⟨events, .matched value next⟩ := by
  intro error stop failed
  cases failed

theorem of_stuck : Run.OnRecord (α := α) record ⟨events, .stuck fault stop⟩ := by
  intro error stop failed
  cases failed

theorem of_failed
    (held : ParseError.Holds (ParseError.recordAll record (Event.errors events)) error) :
    Run.OnRecord (α := α) record ⟨events, .failed error stop⟩ := by
  intro error stop failed
  cases failed
  exact held

/-- A run that goes on after a events. -/
theorem behind {run : Run α}
    (onRecord : run.OnRecord (ParseError.recordAll record (Event.errors events))) :
    Run.OnRecord record ⟨events ++ run.journal, run.outcome⟩ := by
  intro error stop failed
  have held := onRecord error stop failed
  simpa only [Run.recordAfter, Event.errors_append, ParseError.recordAll_append] using held

end Run.OnRecord

namespace Parser

open ParseError

theorem records_pure (value : α) : Records (pure value : Parser α) := fun _ _ => .of_matched

theorem records_reject (cause : Cause) : Records (reject cause : Parser α) :=
  fun before start => .of_failed (holds_gather before (.atCursor cause start))

theorem onRecord_fail (held : Holds record error) :
    ((fail error : Parser α) start).OnRecord record := .of_failed held

theorem records_dropTokens (drop : Constraint) : Records (dropTokens drop) :=
  fun _ _ => .of_matched

theorem records_matchNext (constraint : Constraint) : Records (matchNext constraint) := by
  intro before start
  have checks := matchNext_checks constraint start
  generalize matchNext constraint start = run at checks ⊢
  cases checks with
  | anyToken | accepted => exact .of_matched
  | atEnd | refused => exact records_reject _ before start

/-- Two parsers in a row. The second one starts with what the first has recorded. -/
theorem onRecord_bind {first : Parser α} {next : α → Parser β} (head : first.Records)
    (tail : ∀ value middle, (next value middle).OnRecord ((first start).recordAfter record)) :
    ((first >>= next) start).OnRecord record := by
  have failing := head record start
  rw [bind_run]
  cases ran : first start with
  | mk journal outcome =>
      simp only [ran] at failing tail
      cases outcome with
      | matched value middle => exact (tail value middle).behind
      | failed error stop => exact .of_failed (failing error stop rfl)
      | stuck fault stop => exact .of_stuck

theorem Records.bind {first : Parser α} {next : α → Parser β} (head : first.Records)
    (tail : ∀ value, (next value).Records) : (first >>= next).Records :=
  fun _ _ => onRecord_bind head fun value middle => tail value _ middle

/-- What an attempt turns into a value is on record. -/
theorem onRecord_attempt_bind {first : Parser α} {next : Except ParseError α → Parser β}
    (head : first.Records)
    (goBack : ∀ error, Holds ((first start).recordAfter record) error →
      (next (.error error) start).OnRecord ((first start).recordAfter record))
    (goOn : ∀ value middle,
      (next (.ok value) middle).OnRecord ((first start).recordAfter record)) :
    ((attempt first >>= next) start).OnRecord record := by
  have failing := head record start
  rw [bind_run, attempt_run]
  cases ran : first start with
  | mk journal outcome =>
      simp only [ran] at failing goBack goOn
      cases outcome with
      | matched value middle => exact (goOn value middle).behind
      | failed error stop => exact (goBack error (failing error stop rfl)).behind
      | stuck fault stop => exact .of_stuck

theorem records_within (rule : String) {parser : Parser α} (records : parser.Records) :
    (within rule parser).Records := by
  intro before start
  have inner := records before start
  unfold within
  cases ran : parser start with
  | mk journal outcome =>
      rw [ran] at inner
      cases outcome with
      | matched value next => exact .of_matched
      | failed error stop =>
          apply Run.OnRecord.of_failed
          have held := inner error stop rfl
          rwa [Run.recordAfter, ← Event.errors_enclosed rule start.pos false stop.pos] at held
      | stuck fault stop => exact .of_stuck

theorem records_guarded (rule : Descriptor) (guard : Constraint) : (guarded rule guard).Records := by
  intro before start
  by_cases free : guard.isEmpty = true
  · rw [guarded_run_free free]
    exact .of_matched
  · rw [guarded_run_bound (by simpa using free)]
    have check := records_matchNext guard before (start.skip rule.drop)
    cases ran : matchNext guard (start.skip rule.drop) with
    | mk journal outcome =>
        rw [ran] at check
        cases outcome with
        | matched token next => exact .of_matched
        | failed error stop => exact .of_failed (check error stop rfl)
        | stuck fault stop => exact .of_stuck

/-! The parts of a rule, over a parser that records its errors. -/

section Rule

variable {content : Symbol → Constraint → Parser Tree}
  (contents : ∀ symbol constraint, (content symbol constraint).Records)

include contents

theorem records_separator (field : FieldDescriptor) : (separator content field).Records := by
  intro before start
  apply onRecord_attempt_bind (contents field.symbol field.tokens)
  · intro error held
    by_cases optional : field.cardinality = .optional
    · simp only [optional, if_true]
      exact .of_matched
    · simp only [optional, if_false]
      exact onRecord_fail held
  · intro tree middle
    exact .of_matched

theorem records_gap (between : Gap) (before : Nat) : (gap content between before).Records := by
  apply (records_dropTokens between.drop).bind
  intro _
  split
  · split
    · exact records_pure ()
    · exact (records_separator contents _).bind fun _ => records_dropTokens between.drop
  · exact records_pure ()

theorem records_item (between : Gap) (field : FieldDescriptor) (before : Nat) :
    (item content between field before).Records :=
  (records_gap contents between before).bind fun _ => contents field.symbol field.tokens

theorem records_repetition (between : Gap) (field : FieldDescriptor) (before count : Nat) :
    (repetition content between field before count).Records := by
  have items := records_item contents between field (before + count)
  rcases repetition_cases content between field before count with ⟨_, same⟩ | ⟨_, _, same⟩
  · rw [same]
    exact items
  · rw [same]
    exact (records_dropTokens between.drop).bind fun _ =>
      (records_matchNext field.separator).bind fun _ => items

/-- The failure that ends some repetitions is on record after them. -/
theorem Repeats.holds {between : Gap} {field : FieldDescriptor} {before count : Nat}
    {trees : List Tree} {error : ParseError}
    (repeats : Repeats content between field before count start journal trees (some error) next) :
    Holds (recordAll record (Event.errors journal)) error := by
  generalize ended : some error = failure at repeats
  induction repeats generalizing record with
  | full | stalled => cases ended
  | @stopped count start journal error stop allowed failed =>
      cases ended
      have held := records_repetition contents between field before count record start
      rw [failed] at held
      exact held error stop rfl
  | more allowed matched moved rest ih =>
      rw [Event.errors_append, recordAll_append]
      exact ih ended

theorem records_repeated (rule : String) (between : Gap) (field : FieldDescriptor)
    (before least : Nat) : (repeated content rule between field before least).Records := by
  intro record start
  rcases repeated_run content rule between field before least start with
    ⟨journal, trees, error, next, repeats, ran⟩ | ⟨journal, fault, stop, ran⟩
  · rw [ran]
    by_cases short : trees.length < least
    · cases error with
      | some error =>
          simp only [short, if_true]
          exact .of_failed (repeats.holds contents)
      | none =>
          simp only [short, if_true]
          apply Run.OnRecord.of_failed
          rw [Event.errors_append, recordAll_append]
          exact holds_gather _ _
    · simp only [short, if_false]
      exact .of_matched
  · rw [ran]
    exact .of_stuck

theorem records_fieldValues (rule : Descriptor) (field : FieldDescriptor) (before : Nat) :
    (fieldValues content rule field before).Records := by
  have items := records_item contents (.ofRule rule) field before
  cases cardinality : field.cardinality with
  | single =>
      simp only [fieldValues, cardinality]
      exact items.bind fun tree => records_pure [tree]
  | optional =>
      simp only [fieldValues, cardinality]
      intro record start
      exact onRecord_attempt_bind items (fun _ _ => .of_matched) (fun _ _ => .of_matched)
  | repeated =>
      simp only [fieldValues, cardinality]
      exact records_repeated contents rule.name (.ofRule rule) field before field.size.min

theorem records_sequence (rule : Descriptor) (fields : List FieldDescriptor) (before : Nat) :
    (sequence content rule fields before).Records := by
  induction fields generalizing before with
  | nil =>
      simp only [sequence]
      split
      · exact records_reject .emptyMatch
      · exact records_pure []
  | cons field rest ih =>
      exact (records_fieldValues contents rule field before).bind fun values =>
        (ih (before + values.length)).bind fun slots => records_pure _

theorem records_alternative (rule : Descriptor) (field : FieldDescriptor) :
    (alternative content rule field).Records := by
  unfold alternative
  split
  · exact records_repeated contents rule.name .nothing field 0 (max 1 field.size.min)
  · exact (contents field.symbol field.tokens).bind fun tree => records_pure [tree]

/-- The errors that a choice has gathered are on record. -/
theorem onRecord_choice (rule : Descriptor) (fields : List FieldDescriptor)
    {gathered : Option ParseError} (held : ∀ error, gathered = some error → Holds record error) :
    (choice content rule fields gathered start).OnRecord record := by
  induction fields generalizing gathered record with
  | nil =>
      cases gathered with
      | some error => exact onRecord_fail (held error rfl)
      | none => exact records_reject .emptyMatch record start
  | cons field rest ih =>
      simp only [choice]
      apply onRecord_attempt_bind (records_alternative contents rule field)
      · intro error failing
        have both : Holds ((alternative content rule field start).recordAfter record)
            (.gather gathered error) := by
          cases gathered with
          | none => exact failing
          | some first => exact ((held first rfl).recordAll _).merge failing
        have gathering : ∀ other, some (ParseError.gather gathered error) = some other →
            Holds ((alternative content rule field start).recordAfter record) other := by
          intro other same
          cases same
          exact both
        have more := ih gathering
        dsimp only
        rw [bind_run]
        cases ran : choice content rule rest (some (.gather gathered error)) start with
        | mk journal outcome =>
            rw [ran] at more
            cases outcome with
            | matched slots next => exact .of_matched
            | failed error stop => exact more
            | stuck fault stop => exact .of_stuck
      · intro values middle
        exact .of_matched

theorem records_body (rule : Descriptor) : (body content rule).Records := by
  unfold body
  split
  · exact records_sequence contents rule rule.fields 0
  · apply (records_dropTokens rule.drop).bind
    intro _ record start
    exact onRecord_choice contents rule rule.fields (by simp)

theorem records_node (rule : Descriptor) (guard : Constraint) : (node content rule guard).Records :=
  (records_guarded rule guard).bind fun _ =>
    (records_within rule.name (records_body contents rule)).bind fun _ => records_pure _

end Rule
end Parser

namespace Grammar

open TokenGrammar.Parser

theorem records_contentParser {rules : String → Constraint → Parser Tree}
    (nodes : ∀ name guard, (rules name guard).Records) (symbol : Symbol) (constraint : Constraint) :
    (contentParser rules symbol constraint).Records := by
  induction symbol with
  | token | mark => exact (records_matchNext constraint).bind fun _ => records_pure _
  | rule name => exact nodes name constraint
  | boxed symbol ih => exact ih

theorem records_ruleParser (grammar : Grammar) (depth : Nat) (name : String) (guard : Constraint) :
    (grammar.ruleParser depth name guard).Records :=
  ruleParser_induction (motive := fun _ _ parser => parser.Records) (fun _ _ _ _ _ => .of_stuck)
    (fun _ _ guard rule rules _ => records_node (records_contentParser rules) rule guard)
    (fun _ guard rule _ => (records_guarded rule guard).bind fun _ =>
      records_within rule.name fun _ _ => .of_stuck)
    depth name guard

theorem records_parse (grammar : Grammar) (symbol : Symbol) (constraint : Constraint) :
    (grammar.parse symbol constraint).Records :=
  fun before start =>
    records_contentParser (grammar.records_ruleParser _) symbol constraint before start

end Grammar
end TokenGrammar
