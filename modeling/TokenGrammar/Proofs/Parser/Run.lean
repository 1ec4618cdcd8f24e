import TokenGrammar.Grammar.Parse

namespace TokenGrammar

namespace Parser

/-! What the combinators do where they stand, and how a repetition goes. -/

theorem pure_run (value : α) : (pure value : Parser α) start = ⟨[], .matched value start⟩ := rfl

theorem fail_run (error : ParseError) : (fail error : Parser α) start = ⟨[], .failed error start⟩ :=
  rfl

theorem reject_run (cause : Cause) : (reject cause : Parser α) start =
    ⟨[.failure (.atCursor cause start)], .failed (.atCursor cause start) start⟩ := rfl

theorem here_bind_run (next : Cursor → Parser α) : (here >>= next) start = next start start := rfl

theorem dropTokens_run (drop : Constraint) :
    dropTokens drop start = ⟨[], .matched () (start.skip drop)⟩ := rfl

theorem dropTokens_bind_run (drop : Constraint) (next : Unit → Parser α) :
    (dropTokens drop >>= next) start = next () (start.skip drop) := rfl

/-- A run of two parsers in a row. -/
theorem bind_run (first : Parser α) (next : α → Parser β) :
    (first >>= next) start = match first start with
      | ⟨journal, .matched value middle⟩ =>
        ⟨journal ++ (next value middle).journal, (next value middle).outcome⟩
      | ⟨journal, .failed error stop⟩ => ⟨journal, .failed error stop⟩
      | ⟨journal, .stuck fault stop⟩ => ⟨journal, .stuck fault stop⟩ := rfl

theorem attempt_run (parser : Parser α) :
    attempt parser start = match parser start with
      | ⟨journal, .matched value next⟩ => ⟨journal, .matched (.ok value) next⟩
      | ⟨journal, .failed error _⟩ => ⟨journal, .matched (.error error) start⟩
      | ⟨journal, .stuck fault stop⟩ => ⟨journal, .stuck fault stop⟩ := rfl

/-- How the check of one token goes. -/
inductive Checks (constraint : Constraint) (start : Cursor) : Run Token → Prop
  | anyToken (unconstrained : constraint.isEmpty = true) (present : start.peek.isEnd = false) :
      Checks constraint start ⟨[], .matched start.peek start.advance⟩
  | atEnd (unconstrained : constraint.isEmpty = true) (absent : start.peek.isEnd = true) :
      Checks constraint start (reject .unexpectedEnd start)
  | accepted (constrained : constraint.isEmpty = false)
      (found : constraint.find? start.peek = some pattern) :
      Checks constraint start
        ⟨[], .matched start.peek (if pattern.lookahead then start else start.advance)⟩
  | refused (constrained : constraint.isEmpty = false)
      (missing : constraint.find? start.peek = none) :
      Checks constraint start (reject (.expected constraint.patterns) start)

theorem matchNext_checks (constraint : Constraint) (start : Cursor) :
    Checks constraint start (matchNext constraint start) := by
  by_cases unconstrained : constraint.isEmpty = true
  · by_cases absent : start.peek.isEnd = true
    · simp only [matchNext, unconstrained, absent, if_true]
      exact .atEnd unconstrained absent
    · simp only [matchNext, unconstrained, absent, if_true]
      exact .anyToken unconstrained (by simpa using absent)
  · have constrained : constraint.isEmpty = false := by simpa using unconstrained
    cases found : constraint.find? start.peek with
    | some pattern =>
        simp only [matchNext, unconstrained, found]
        exact .accepted constrained found
    | none =>
        simp only [matchNext, unconstrained, found]
        exact .refused constrained found

/-- A match of two parsers in a row is a match of each. -/
theorem bind_matched {first : Parser α} {next : α → Parser β}
    (matched : ((first >>= next) start).outcome = .matched value stop) :
    ∃ head middle, (first start).outcome = .matched head middle ∧
      (next head middle).outcome = .matched value stop := by
  rw [bind_run] at matched
  cases ran : first start with
  | mk journal outcome =>
      rw [ran] at matched
      cases outcome with
      | matched head middle => exact ⟨head, middle, rfl, matched⟩
      | failed | stuck => cases matched

/-- An attempt matches what it tries or stays where it is. -/
theorem attempt_matched {parser : Parser α}
    (matched : (attempt parser start).outcome = .matched value stop) :
    (∃ tree, value = .ok tree ∧ (parser start).outcome = .matched tree stop) ∨
      ∃ error, value = .error error ∧ stop = start := by
  rw [attempt_run] at matched
  cases ran : parser start with
  | mk journal outcome =>
      rw [ran] at matched
      cases outcome with
      | matched tree next =>
          cases matched
          exact .inl ⟨tree, rfl, rfl⟩
      | failed error place =>
          cases matched
          exact .inr ⟨error, rfl, rfl⟩
      | stuck => cases matched

theorem within_matched {parser : Parser α}
    (matched : (within rule parser start).outcome = .matched value stop) :
    (parser start).outcome = .matched value stop := by
  unfold within at matched
  cases ran : parser start with
  | mk journal outcome =>
      rw [ran] at matched
      cases outcome with
      | matched | failed | stuck => cases matched <;> rfl

theorem guarded_run_free {rule : Descriptor} {guard : Constraint} (free : guard.isEmpty = true) :
    guarded rule guard start = ⟨[], .matched () start⟩ := by
  simp only [guarded, free, if_true, pure_run]

/-- A guard leaves the rule where it is, whether it passes or fails. -/
theorem guarded_run_bound {rule : Descriptor} {guard : Constraint} (bound : guard.isEmpty = false) :
    guarded rule guard start = match matchNext guard (start.skip rule.drop) with
      | ⟨journal, .matched _ _⟩ => ⟨journal, .matched () start⟩
      | ⟨journal, .failed error _⟩ => ⟨journal, .failed error start⟩
      | ⟨journal, .stuck fault stop⟩ => ⟨journal, .stuck fault stop⟩ := by
  cases checked : matchNext guard (start.skip rule.drop) with
  | mk journal outcome =>
      cases outcome <;>
        simp [guarded, bound, lookAhead, checkNext, Bind.bind, Parser.bind, dropTokens, checked,
          pure_run]

theorem guarded_matched {rule : Descriptor} {guard : Constraint}
    (matched : (guarded rule guard start).outcome = .matched () stop) : stop = start := by
  by_cases free : guard.isEmpty = true
  · rw [guarded_run_free free] at matched
    cases matched
    rfl
  · rw [guarded_run_bound (by simpa using free)] at matched
    cases ran : matchNext guard (start.skip rule.drop) with
    | mk journal outcome =>
        rw [ran] at matched
        cases outcome with
        | matched | failed | stuck => cases matched <;> rfl

/-- A rule without a default value is like any node up to its body, and there it gets stuck. -/
theorem nodeless_run (content : Symbol → Constraint → Parser Tree) (rule : Descriptor)
    (guard : Constraint) (start : Cursor) :
    nodeless rule guard start = node content rule guard start ∨
      ∃ journal stop, nodeless rule guard start = ⟨journal, .stuck (.noDefault rule.name) stop⟩ := by
  unfold nodeless node
  rw [bind_run, bind_run]
  cases guarded rule guard start with
  | mk journal outcome =>
      cases outcome with
      | matched => exact .inr ⟨_, _, rfl⟩
      | failed | stuck => exact .inl rfl

theorem nodeless_unmatched (rule : Descriptor) (guard : Constraint) :
    (nodeless rule guard start).outcome ≠ .matched tree next := by
  intro matched
  obtain ⟨_, _, _, inside⟩ := bind_matched matched
  cases within_matched inside

/-- All values that the fields of a node hold. -/
def valueCount (slots : List Slot) : Nat := (slots.flatMap (·.values)).length

@[simp] theorem valueCount_cons (field : FieldDescriptor) (trees : List Tree) (slots : List Slot) :
    valueCount (field.slot trees :: slots) = trees.length + valueCount slots := by
  simp [valueCount, FieldDescriptor.slot]

@[simp] theorem valueCount_empty (fields : List FieldDescriptor) :
    valueCount (fields.map (·.slot [])) = 0 := by
  induction fields with
  | nil => rfl
  | cons field rest ih =>
      rw [List.map_cons, valueCount_cons, ih]
      rfl

section Repetitions

variable {content : Symbol → Constraint → Parser Tree} {between : Gap} {field : FieldDescriptor}
  {before : Nat}

/-- The separator of a field comes before each of its repetitions but the first. -/
theorem repetition_cases (content : Symbol → Constraint → Parser Tree) (between : Gap)
    (field : FieldDescriptor) (before count : Nat) :
    ((count = 0 ∨ field.separator.isEmpty = true) ∧
      repetition content between field before count =
        item content between field (before + count)) ∨
    (count ≠ 0 ∧ field.separator.isEmpty = false ∧
      repetition content between field before count = do
        dropTokens between.drop
        let _ ← matchNext field.separator
        item content between field (before + count)) := by
  by_cases separated : count ≠ 0 ∧ field.separator.isEmpty = false
  · exact .inr ⟨separated.1, separated.2, by simp only [repetition, if_pos separated]⟩
  · refine .inl ⟨?_, by simp only [repetition, if_neg separated]⟩
    by_cases first : count = 0
    · exact .inl first
    · exact .inr (by simpa [first] using separated)

/-- How the repetitions of a field go from one count on, up to their end: there may be no more of
them, the next one fails, or it consumes nothing. -/
inductive Repeats (content : Symbol → Constraint → Parser Tree) (between : Gap)
    (field : FieldDescriptor) (before : Nat) :
    Nat → Cursor → List Event → List Tree → Option ParseError → Cursor → Prop
  | full (last : field.size.allowsMore count = false) :
      Repeats content between field before count start [] [] none start
  | stopped (allowed : field.size.allowsMore count = true)
      (failed : repetition content between field before count start =
        ⟨journal, .failed error stop⟩) :
      Repeats content between field before count start journal [] (some error) start
  | stalled (allowed : field.size.allowsMore count = true)
      (matched : repetition content between field before count start =
        ⟨journal, .matched tree next⟩)
      (idle : next.pos = start.pos) :
      Repeats content between field before count start journal [tree] none next
  | more (allowed : field.size.allowsMore count = true)
      (matched : repetition content between field before count start =
        ⟨first, .matched tree middle⟩)
      (moved : middle.pos ≠ start.pos)
      (rest : Repeats content between field before (count + 1) middle second trees error next) :
      Repeats content between field before count start (first ++ second) (tree :: trees) error next

theorem repetitions_outcome (content : Symbol → Constraint → Parser Tree) (between : Gap)
    (field : FieldDescriptor) (before : Nat) (start : Cursor) (steps count : Nat) :
    (∃ journal trees error next,
      repetitions content between field before steps count start =
        ⟨journal, .matched (trees, error) next⟩ ∧
      Repeats content between field before count start journal trees error next) ∨
    ∃ journal fault stop,
      repetitions content between field before steps count start =
        ⟨journal, .stuck fault stop⟩ := by
  induction steps generalizing count start with
  | zero => exact .inr ⟨_, _, _, rfl⟩
  | succ steps ih =>
      by_cases allowed : field.size.allowsMore count = true
      · simp only [repetitions, allowed, if_true, here_bind_run]
        rw [bind_run, attempt_run]
        cases ran : repetition content between field before count start with
        | mk journal outcome =>
            cases outcome with
            | failed error stop =>
                simp only [pure_run, List.append_nil]
                exact .inl ⟨_, _, _, _, rfl, .stopped allowed ran⟩
            | stuck fault stop => exact .inr ⟨_, _, _, rfl⟩
            | matched tree middle =>
                by_cases idle : middle.pos = start.pos
                · simp only [here_bind_run, idle, if_true, pure_run, List.append_nil]
                  exact .inl ⟨_, _, _, _, rfl, .stalled allowed ran idle⟩
                · simp only [here_bind_run, idle, if_false]
                  rw [bind_run]
                  rcases ih middle (count + 1) with
                    ⟨second, trees, error, next, rest, repeats⟩ | ⟨second, fault, stop, rest⟩
                  · simp only [rest, pure_run, List.append_nil]
                    exact .inl ⟨_, _, _, _, rfl, .more allowed ran idle repeats⟩
                  · rw [rest]
                    exact .inr ⟨_, _, _, rfl⟩
      · simp only [repetitions, allowed]
        exact .inl ⟨_, _, _, _, rfl, .full (by simpa using allowed)⟩

/-- A repeated field goes as its repetitions do. Too few of them fail with the failure that ended
them, or with one of their own. -/
theorem repeated_run (content : Symbol → Constraint → Parser Tree) (rule : String) (between : Gap)
    (field : FieldDescriptor) (before least : Nat) (start : Cursor) :
    (∃ journal trees error next,
      Repeats content between field before 0 start journal trees error next ∧
      repeated content rule between field before least start =
        if trees.length < least then
          match error with
          | some error => ⟨journal, .failed error next⟩
          | none =>
            let short := ParseError.atCursor (field.tooFew rule least trees.length) next
            ⟨journal ++ [.failure short], .failed short next⟩
        else ⟨journal, .matched trees next⟩) ∨
    ∃ journal fault stop,
      repeated content rule between field before least start = ⟨journal, .stuck fault stop⟩ := by
  simp only [repeated, here_bind_run]
  rw [bind_run]
  rcases repetitions_outcome content between field before start (start.rest.length + 1) 0 with
    ⟨journal, trees, error, next, ran, repeats⟩ | ⟨journal, fault, stop, ran⟩
  · refine .inl ⟨journal, trees, error, next, repeats, ?_⟩
    rw [ran]
    by_cases short : trees.length < least
    · cases error <;> simp only [short, if_true, fail_run, reject_run, List.append_nil]
    · simp only [short, if_false, pure_run, List.append_nil]
  · exact .inr ⟨journal, fault, stop, by rw [ran]⟩

theorem repeated_matched {rule : String} {least : Nat}
    (matched : (repeated content rule between field before least start).outcome =
      .matched trees next) :
    least ≤ trees.length ∧
      ∃ journal error, Repeats content between field before 0 start journal trees error next := by
  rcases repeated_run content rule between field before least start with
    ⟨journal, found, error, stop, repeats, ran⟩ | ⟨journal, fault, stop, ran⟩
  · rw [ran] at matched
    by_cases short : found.length < least
    · cases error <;> simp [short] at matched
    · simp only [short, if_false] at matched
      cases matched
      exact ⟨by omega, journal, error, repeats⟩
  · rw [ran] at matched
    cases matched

end Repetitions
end Parser

namespace Grammar

/-- The parsers for the rules of a grammar share what getting stuck has, what a rule without a
default value has, and what the parser of a rule has whenever those of the rules in it have it. -/
theorem ruleParser_induction {grammar : Grammar}
    {motive : String → Constraint → Parser Tree → Prop}
    (stuck : ∀ name guard fault, motive name guard (Parser.getStuck fault))
    (node : ∀ rules name guard rule, (∀ name guard, motive name guard (rules name guard)) →
      grammar.find? name = some (.ok rule) →
      motive name guard (Parser.node (contentParser rules) rule guard))
    (nodeless : ∀ name guard rule, grammar.find? name = some (.ok rule) →
      motive name guard (Parser.nodeless rule guard))
    (depth : Nat) (name : String) (guard : Constraint) :
    motive name guard (grammar.ruleParser depth name guard) := by
  induction depth generalizing name guard with
  | zero => exact stuck name guard .unbounded
  | succ depth ih =>
      simp only [ruleParser]
      split
      · exact stuck name guard (.undefinedRule name)
      · rename_i error _
        exact stuck name guard (.malformed error)
      · rename_i rule defined
        split
        · exact node (grammar.ruleParser depth) name guard rule ih defined
        · exact nodeless name guard rule defined

open ParseError in
/-- A whole parse goes as that of its root does, unless input remains. -/
theorem parseFrom_run (grammar : Grammar) (root : Symbol) (complete : Bool) (start : Cursor) :
    grammar.parseFrom root complete start = match grammar.parse root .anyToken start with
      | ⟨journal, .matched tree next⟩ =>
        let after := grammar.skipTrailing root next
        if complete = true ∧ after.peek.isEnd = false then
          ⟨journal, .failed (gather (furthest (Event.errors journal))
            (.atCursor .trailingInput after)) start⟩
        else ⟨journal, .matched tree next⟩
      | ⟨journal, .failed error _⟩ =>
        ⟨journal, .failed (gather (furthest (Event.errors journal)) error) start⟩
      | ⟨journal, .stuck fault stop⟩ => ⟨journal, .stuck fault stop⟩ := by
  unfold parseFrom parseRoot
  rw [Parser.bind_run]
  cases ran : grammar.parse root .anyToken start with
  | mk journal outcome =>
      cases outcome with
      | matched tree next =>
          cases complete with
          | false => simp [Parser.pure_run]
          | true =>
              cases ends : (grammar.skipTrailing root next).peek.isEnd <;>
                simp [Parser.here_bind_run, ends, Parser.pure_run, Parser.fail_run]
      | failed error stop => rfl
      | stuck fault stop => rfl

end Grammar
end TokenGrammar
