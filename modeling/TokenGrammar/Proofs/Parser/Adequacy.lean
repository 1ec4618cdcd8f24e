import TokenGrammar.Proofs.Parser.Performance
import TokenGrammar.Proofs.Parser.Run

namespace TokenGrammar

/-! Each parser does what the grammar asks for, with the journal and the ending that the steps of
the grammar have, unless it gets stuck. -/

variable {grammar : Grammar} {task begun : Task} {start place : Cursor} {journal : List Event}

/-- The ending of a run that is not stuck. What the run yields may stand for any number of
values. -/
def Outcome.ending? (count : α → Nat) : Outcome α → Option Ending
  | matched value next => some (.matched (count value) next)
  | failed _ stop => some (.failed stop)
  | stuck _ _ => none

/-- A run, unless stuck, is a performance of a task. -/
def Run.Performs (grammar : Grammar) (task : Task) (start : Cursor) (count : α → Nat)
    (run : Run α) : Prop :=
  ∀ ending, run.outcome.ending? count = some ending →
    grammar.Performs task start run.journal ending

/-- Wherever a parser starts, its run is a performance of a task. -/
def Parser.CarriesOut (grammar : Grammar) (task : Task) (count : α → Nat) (parser : Parser α) :
    Prop :=
  ∀ start, (parser start).Performs grammar task start count

namespace Run.Performs

theorem of_matched {value : α}
    (performed : grammar.Performs task start journal (.matched (count value) next)) :
    Run.Performs grammar task start count ⟨journal, .matched value next⟩ := by
  intro ending ended
  cases ended
  exact performed

theorem of_failed {count : α → Nat}
    (performed : grammar.Performs task start journal (.failed stop)) :
    Run.Performs grammar task start count ⟨journal, .failed error stop⟩ := by
  intro ending ended
  cases ended
  exact performed

theorem of_stuck {count : α → Nat} :
    Run.Performs grammar task start count ⟨journal, .stuck fault stop⟩ := by
  intro ending ended
  simp [Outcome.ending?] at ended

end Run.Performs

namespace Parser

/-- A sequence of two parsers, given what the first does and how that goes on. -/
theorem bind_performs {first : Parser α} {next : α → Parser β} {counts : α → Nat}
    {count : β → Nat} (head : (first place).Performs grammar begun place counts)
    (cutOff : ∀ {journal stop}, grammar.Performs begun place journal (.failed stop) →
      grammar.Performs task start journal (.failed stop))
    (goOn : ∀ {journal middle} value,
      grammar.Performs begun place journal (.matched (counts value) middle) →
      Run.Performs grammar task start count
        ⟨journal ++ (next value middle).journal, (next value middle).outcome⟩) :
    ((first >>= next) place).Performs grammar task start count := by
  simp only [Bind.bind, Parser.bind]
  cases run : first place with
  | mk journal outcome =>
      rw [run] at head
      cases outcome with
      | matched value middle => exact goOn value (head _ rfl)
      | failed error stop => exact .of_failed (cutOff (head _ rfl))
      | stuck fault stop => exact .of_stuck

/-- What follows an attempt begins behind the match, or where the attempt began. -/
theorem attempt_bind_performs {first : Parser α} {next : Except ParseError α → Parser β}
    {counts : α → Nat} {count : β → Nat}
    (head : (first place).Performs grammar begun place counts)
    (goBack : ∀ {journal stop} error, grammar.Performs begun place journal (.failed stop) →
      Run.Performs grammar task start count
        ⟨journal ++ (next (.error error) place).journal, (next (.error error) place).outcome⟩)
    (goOn : ∀ {journal middle} value,
      grammar.Performs begun place journal (.matched (counts value) middle) →
      Run.Performs grammar task start count
        ⟨journal ++ (next (.ok value) middle).journal, (next (.ok value) middle).outcome⟩) :
    ((attempt first >>= next) place).Performs grammar task start count := by
  simp only [Bind.bind, Parser.bind, attempt]
  cases run : first place with
  | mk journal outcome =>
      rw [run] at head
      cases outcome with
      | matched value middle => exact goOn value (head _ rfl)
      | failed error stop => exact goBack error (head _ rfl)
      | stuck fault stop => exact .of_stuck

theorem matchNext_carriesOut (constraint : Constraint) :
    CarriesOut grammar (.check constraint) (fun _ => 1) (matchNext constraint) := by
  intro start
  have checks := matchNext_checks constraint start
  generalize matchNext constraint start = run at checks ⊢
  cases checks with
  | anyToken unconstrained present => exact .of_matched (.anyToken unconstrained present)
  | atEnd unconstrained absent => exact .of_failed (.atEnd unconstrained absent)
  | accepted constrained found => exact .of_matched (.accepted constrained found)
  | refused constrained missing => exact .of_failed (.refused constrained missing)

/-! The parts of a rule, over a parser that does what the fields hold. -/

section Rule

variable {content : Symbol → Constraint → Parser Tree}
  (contents : ∀ symbol constraint,
    CarriesOut grammar (.content symbol constraint) (fun _ => 1) (content symbol constraint))

include contents

theorem separator_carriesOut (field : FieldDescriptor) :
    CarriesOut grammar (.separator field) (fun _ => 0) (separator content field) := by
  intro start
  apply attempt_bind_performs (contents field.symbol field.tokens start)
  · intro journal stop error failed
    by_cases optional : field.cardinality = .optional
    · simp only [optional, if_true, pure_run, List.append_nil]
      exact .of_matched (.leftOut optional failed)
    · simp only [optional, if_false, fail_run, List.append_nil]
      exact .of_failed (.unseparated optional failed)
  · intro journal middle tree matched
    simp only [pure_run, List.append_nil]
    exact .of_matched (.separated matched)

theorem gap_carriesOut (between : Gap) (before : Nat) :
    CarriesOut grammar (.gap between before) (fun _ => 0) (gap content between before) := by
  intro start
  cases present : between.separator with
  | none =>
      simp only [gap, present, dropTokens_bind_run]
      exact .of_matched (.plainGap (.inl present))
  | some field =>
      by_cases first : before = 0
      · simp only [gap, present, first, dropTokens_bind_run, if_true]
        exact .of_matched (.plainGap (.inr rfl))
      · simp only [gap, present, first, dropTokens_bind_run, if_false]
        apply bind_performs (separator_carriesOut contents field (start.skip between.drop))
        · exact .brokenGap present first
        · intro journal middle _ separated
          simp only [dropTokens_run, List.append_nil]
          exact .of_matched (.separatedGap present first separated)

theorem item_carriesOut (between : Gap) (field : FieldDescriptor) (before : Nat) :
    CarriesOut grammar (.item between field before) (fun _ => 1)
      (item content between field before) := by
  intro start
  apply bind_performs (gap_carriesOut contents between before start)
  · exact .itemCutOff
  · intro journal middle _ gap ending ended
    exact .item gap (contents field.symbol field.tokens middle ending ended)

theorem repetition_carriesOut (between : Gap) (field : FieldDescriptor) (before count : Nat) :
    CarriesOut grammar (.repetition between field before count) (fun _ => 1)
      (repetition content between field before count) := by
  intro start
  have items := item_carriesOut contents between field (before + count)
  rcases repetition_cases content between field before count with
    ⟨plain, same⟩ | ⟨later, separated, same⟩
  · rw [same]
    intro ending ended
    exact .plainRepetition plain (items start ending ended)
  · rw [same, dropTokens_bind_run]
    apply bind_performs (matchNext_carriesOut field.separator (start.skip between.drop))
    · exact .repetitionCutOff later separated
    · intro journal middle _ check ending ended
      exact .separatedRepetition later separated check (items middle ending ended)

/-- Enough repetitions match. Too few of them fail, with a failure on record unless one of them
has failed. -/
theorem Repeats.performs {between : Gap} {field : FieldDescriptor} {before count : Nat}
    {trees : List Tree} {error : Option ParseError} (rule : String) (least : Nat)
    (repeats : Repeats content between field before count start journal trees error place) :
    (least ≤ count + trees.length →
      grammar.Performs (.repetitions rule between field before least count) start journal
        (.matched trees.length place)) ∧
    (count + trees.length < least →
      grammar.Performs (.repetitions rule between field before least count) start
        (journal ++ if error.isSome then [] else
          [.failureAt (field.tooFew rule least (count + trees.length)) place])
        (.failed place)) := by
  induction repeats with
  | full last =>
      exact ⟨fun enough => .full last enough, fun short => .fullShort last short⟩
  | @stopped count start journal error stop allowed failed =>
      have done := repetition_carriesOut contents between field before count start
      rw [failed] at done
      refine ⟨fun enough => .stopped allowed (done _ rfl) enough, fun short => ?_⟩
      simpa using Grammar.Performs.stoppedShort allowed (done _ rfl) short
  | @stalled count start journal tree next allowed matched idle =>
      have done := repetition_carriesOut contents between field before count start
      rw [matched] at done
      exact ⟨fun enough => .stalled allowed (done _ rfl) idle enough,
        fun short => .stalledShort allowed (done _ rfl) idle short⟩
  | @more count start first tree middle second trees error next allowed matched moved rest ih =>
      have done := repetition_carriesOut contents between field before count start
      rw [matched] at done
      have total : count + (tree :: trees).length = count + 1 + trees.length := by
        simp only [List.length_cons]
        omega
      rw [total, List.append_assoc]
      refine ⟨fun enough => ?_, fun short => .repeats allowed (done _ rfl) moved (ih.2 short)⟩
      have ends : Ending.matched (tree :: trees).length next =
          (Ending.matched trees.length next).add 1 := by
        simp [Ending.add, Nat.add_comm]
      rw [ends]
      exact .repeats allowed (done _ rfl) moved (ih.1 enough)

theorem repeated_carriesOut (rule : String) (between : Gap) (field : FieldDescriptor)
    (before least : Nat) :
    CarriesOut grammar (.repetitions rule between field before least 0) List.length
      (repeated content rule between field before least) := by
  intro start
  rcases repeated_run content rule between field before least start with
    ⟨journal, trees, error, next, repeats, ran⟩ | ⟨journal, fault, stop, ran⟩
  · have done := repeats.performs contents rule least
    simp only [Nat.zero_add] at done
    rw [ran]
    by_cases short : trees.length < least
    · have failed := done.2 short
      cases error with
      | some error =>
          simp only [short, if_true]
          exact .of_failed (by simpa using failed)
      | none =>
          simp only [short, if_true]
          exact .of_failed failed
    · simp only [short, if_false]
      exact .of_matched (done.1 (by omega))
  · rw [ran]
    exact .of_stuck

theorem fieldValues_carriesOut (rule : Descriptor) (field : FieldDescriptor) (before : Nat) :
    CarriesOut grammar (.values rule field before) List.length
      (fieldValues content rule field before) := by
  intro start
  have items := item_carriesOut contents (.ofRule rule) field before start
  cases cardinality : field.cardinality with
  | single =>
      simp only [fieldValues, cardinality]
      apply bind_performs items
      · exact fun failed => .single cardinality failed
      · intro journal middle tree matched
        simp only [pure_run, List.append_nil]
        exact .of_matched (.single cardinality matched)
  | optional =>
      simp only [fieldValues, cardinality]
      apply attempt_bind_performs items
      · intro journal stop error failed
        simp only [pure_run, List.append_nil]
        exact .of_matched (.absent cardinality failed)
      · intro journal middle tree matched
        simp only [pure_run, List.append_nil]
        exact .of_matched (.present cardinality matched)
  | repeated =>
      simp only [fieldValues, cardinality]
      intro ending ended
      exact .repeated cardinality
        (repeated_carriesOut contents rule.name (.ofRule rule) field before field.size.min start
          ending ended)

theorem sequence_carriesOut (rule : Descriptor) (fields : List FieldDescriptor) (before : Nat) :
    CarriesOut grammar (.fields rule fields before) valueCount
      (sequence content rule fields before) := by
  induction fields generalizing before with
  | nil =>
      intro start
      by_cases nothing : before = 0
      · subst before
        exact .of_failed .nothing
      · simp only [sequence, nothing, if_false, pure_run]
        exact .of_matched (.noMoreFields nothing)
  | cons field rest ih =>
      intro start
      simp only [sequence]
      apply bind_performs (fieldValues_carriesOut contents rule field before start)
      · exact .fieldFails
      · intro first middle values matched
        have more := ih (before + values.length) middle
        rw [bind_run]
        cases ran : sequence content rule rest (before + values.length) middle with
        | mk second outcome =>
            rw [ran] at more
            cases outcome with
            | matched slots next =>
                simp only [pure_run, List.append_nil]
                have counted : Ending.matched (valueCount (field.slot values :: slots)) next =
                    (Ending.matched (valueCount slots) next).add values.length := by
                  rw [valueCount_cons]
                  rfl
                exact .of_matched (counted ▸ .fields matched (more _ rfl))
            | failed error stop => exact .of_failed (.fields matched (more _ rfl))
            | stuck fault stop => exact .of_stuck

theorem alternative_carriesOut (rule : Descriptor) (field : FieldDescriptor) :
    CarriesOut grammar (.alternative rule field) List.length (alternative content rule field) := by
  intro start
  by_cases cardinality : field.cardinality = .repeated
  · simp only [alternative, cardinality]
    intro ending ended
    exact .list cardinality (repeated_carriesOut contents rule.name .nothing field 0
      (max 1 field.size.min) start ending ended)
  · simp only [alternative]
    apply bind_performs (contents field.symbol field.tokens start)
    · exact fun failed => .lone cardinality failed
    · intro journal middle tree matched
      simp only [pure_run, List.append_nil]
      exact .of_matched (.lone cardinality matched)

theorem choice_carriesOut (rule : Descriptor) (fields : List FieldDescriptor)
    (gathered : Option ParseError) :
    CarriesOut grammar (.alternatives rule fields gathered.isSome) valueCount
      (choice content rule fields gathered) := by
  induction fields generalizing gathered with
  | nil =>
      intro start
      cases gathered with
      | some error => exact .of_failed .noMoreAlternatives
      | none => exact .of_failed .noAlternative
  | cons field rest ih =>
      intro start
      simp only [choice]
      apply attempt_bind_performs (alternative_carriesOut contents rule field start)
      · intro first stop error failed
        have more := ih (some (.gather gathered error)) start
        dsimp only
        rw [bind_run]
        cases ran : choice content rule rest (some (.gather gathered error)) start with
        | mk second outcome =>
            rw [ran] at more
            cases outcome with
            | matched slots next =>
                simp only [pure_run, List.append_nil]
                have counted : valueCount (field.slot [] :: slots) = valueCount slots := by
                  simp
                exact .of_matched (counted ▸ .passedOver failed (more _ rfl))
            | failed error stop => exact .of_failed (.passedOver failed (more _ rfl))
            | stuck fault stop => exact .of_stuck
      · intro journal middle values matched
        simp only [pure_run, List.append_nil]
        have counted : valueCount (field.slot values :: rest.map (·.slot [])) = values.length := by
          simp
        exact .of_matched (counted ▸ .chosen matched)

theorem body_carriesOut (rule : Descriptor) :
    CarriesOut grammar (.body rule) valueCount (body content rule) := by
  intro start ending ended
  cases combinator : rule.combinator with
  | seq =>
      simp only [body, combinator] at ended ⊢
      exact .sequence combinator
        (sequence_carriesOut contents rule rule.fields 0 start ending ended)
  | oneOf =>
      simp only [body, combinator, dropTokens_bind_run] at ended ⊢
      exact .choice combinator
        (choice_carriesOut contents rule rule.fields none (start.skip rule.drop) ending ended)

/-- A node, behind a guard that has left the given journal and has passed. -/
theorem within_performs {rule : Descriptor} (before : List Event) (start : Cursor) (task : Task)
    (call : ∀ {journal ending}, grammar.Performs (.body rule) start journal ending →
      grammar.Performs task start (before ++ Event.call rule.name start journal ending)
        (ending.ofBody start)) :
    Run.Performs grammar task start (fun _ => 1)
      (let run := (do return Tree.node rule.name (← within rule.name (body content rule)) :
        Parser Tree) start
      ⟨before ++ run.journal, run.outcome⟩) := by
  have done := body_carriesOut contents rule start
  simp only [bind_run, within]
  cases ran : body content rule start with
  | mk journal outcome =>
      rw [ran] at done
      cases outcome with
      | matched slots next =>
          simp only [pure_run, List.append_nil]
          exact .of_matched (call (done _ rfl))
      | failed error stop => exact .of_failed (call (done _ rfl))
      | stuck fault stop => exact .of_stuck

/-- The guard is checked where the rule begins, behind the tokens that it drops. -/
theorem node_carriesOut {name : String} {rule : Descriptor} (guard : Constraint)
    (defined : grammar.find? name = some (.ok rule)) :
    CarriesOut grammar (.content (.rule name) guard) (fun _ => 1) (node content rule guard) := by
  intro start
  simp only [node]
  rw [bind_run]
  by_cases free : guard.isEmpty = true
  · rw [guarded_run_free free]
    exact within_performs contents [] start (.content (.rule name) guard)
      fun body => .unguarded defined free body
  · have bound : guard.isEmpty = false := by simpa using free
    have checks : (matchNext guard (start.skip rule.drop)).Performs grammar (.check guard)
        (start.skip rule.drop) fun _ => 1 := matchNext_carriesOut guard (start.skip rule.drop)
    rw [guarded_run_bound bound]
    cases ran : matchNext guard (start.skip rule.drop) with
    | mk checked outcome =>
        rw [ran] at checks
        cases outcome with
        | matched token seen =>
            exact within_performs contents checked start (.content (.rule name) guard)
              fun body => .guarded defined bound (checks _ rfl) body
        | failed error stop => exact .of_failed (.guardFails defined bound (checks _ rfl))
        | stuck fault stop => exact .of_stuck

end Rule

theorem leaf_carriesOut (constraint : Constraint) (tree : Token → Tree) :
    CarriesOut grammar (.check constraint) (fun _ => 1)
      (do return tree (← matchNext constraint)) := by
  intro start
  apply bind_performs (matchNext_carriesOut constraint start)
  · exact id
  · intro journal middle token matched
    simp only [pure_run, List.append_nil]
    exact .of_matched matched

end Parser

namespace Grammar

open TokenGrammar.Parser

theorem contentParser_carriesOut {rules : String → Constraint → Parser Tree}
    (nodes : ∀ name guard,
      CarriesOut grammar (.content (.rule name) guard) (fun _ => 1) (rules name guard))
    (symbol : Symbol) (constraint : Constraint) :
    CarriesOut grammar (.content symbol constraint) (fun _ => 1)
      (contentParser rules symbol constraint) := by
  intro start ending ended
  induction symbol with
  | token => exact .token (leaf_carriesOut constraint _ start ending ended)
  | mark => exact .mark (leaf_carriesOut constraint _ start ending ended)
  | rule name => exact nodes name constraint start ending ended
  | boxed symbol ih => exact .boxed (ih ended)

theorem nodeless_carriesOut {rule : Descriptor} {name : String} (guard : Constraint)
    (defined : grammar.find? name = some (.ok rule)) :
    CarriesOut grammar (.content (.rule name) guard) (fun _ => 1) (nodeless rule guard) := by
  intro start
  rcases nodeless_run (fun _ _ => getStuck .unbounded) rule guard start with same | ⟨_, _, stuck⟩
  · rw [same]
    exact node_carriesOut (fun _ _ _ => .of_stuck) guard defined start
  · rw [stuck]
    exact .of_stuck

theorem ruleParser_carriesOut (depth : Nat) (name : String) (guard : Constraint) :
    CarriesOut grammar (.content (.rule name) guard) (fun _ => 1)
      (grammar.ruleParser depth name guard) :=
  ruleParser_induction (fun _ _ _ _ => .of_stuck)
    (fun _ _ guard _ rules defined => node_carriesOut (contentParser_carriesOut rules) guard defined)
    (fun _ guard _ defined => nodeless_carriesOut guard defined)
    depth name guard

/-- A parse that is not stuck is a performance of what the grammar asks for. -/
theorem parse_carriesOut (grammar : Grammar) (symbol : Symbol) (constraint : Constraint) :
    CarriesOut grammar (.content symbol constraint) (fun _ => 1)
      (grammar.parse symbol constraint) :=
  fun start => contentParser_carriesOut (ruleParser_carriesOut _) symbol constraint start

end Grammar
end TokenGrammar
