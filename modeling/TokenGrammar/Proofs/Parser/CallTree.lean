import TokenGrammar.Proofs.Parser.Bounds
import TokenGrammar.Proofs.Parser.Calls

namespace TokenGrammar

/-! # The calls of a parse

A parse goes into rules, and out of each before it goes into the next one beside it. Which rules it
goes into is told by the outcomes of its parts, apart from the journal; the log of a traced parse
draws these calls and nothing else. -/

theorem Cursor.pos_le_advance (start : Cursor) : start.pos ≤ start.advance.pos := by
  obtain ⟨pos, _ | ⟨token, rest⟩⟩ := start
  · exact Nat.le_refl pos
  · exact Nat.le_succ pos

namespace Parser

/-- The calls that a parser makes from a place on. A rule is called once its guard has passed. What
is tried counts, whether or not it is taken back. -/
inductive Makes : {α : Type} → Parser α → Cursor → Calls → Prop
  -- What reads or fails by itself calls nothing, and what is put together calls what its parts
  -- call.
  | pure {α : Type} (value : α) (start : Cursor) : Makes (Pure.pure value : Parser α) start .none
  | fail {α : Type} (error : ParseError) (start : Cursor) :
      Makes (Parser.fail error : Parser α) start .none
  | reject {α : Type} (cause : Cause) (start : Cursor) :
      Makes (Parser.reject cause : Parser α) start .none
  | here (start : Cursor) : Makes Parser.here start .none
  | dropTokens (drop : Constraint) (start : Cursor) : Makes (Parser.dropTokens drop) start .none
  | matchNext (constraint : Constraint) (start : Cursor) :
      Makes (Parser.matchNext constraint) start .none
  | bind {α β : Type} {first : Parser α} {value : α} {next : α → Parser β}
      (head : Makes first start calls) (matched : (first start).outcome = .matched value middle)
      (tail : Makes (next value) middle more) : Makes (first >>= next) start (calls ++ more)
  | cutOff {α β : Type} {first : Parser α} {next : α → Parser β}
      (head : Makes first start calls) (failed : (first start).outcome = .failed error stop) :
      Makes (first >>= next) start calls
  | attempt {α : Type} {parser : Parser α} (tried : Makes parser start calls) :
      Makes (Parser.attempt parser) start calls
  | lookAhead {α : Type} {parser : Parser α} (seen : Makes parser start calls) :
      Makes (Parser.lookAhead parser) start calls
  -- The node of a rule. A rule that fails goes back, but its call ends where its body gave up.
  | refused {rule : Descriptor} {guard : Constraint}
      (closed : (guarded rule guard start).outcome = .failed error stop) :
      Makes (node content rule guard) start .none
  | matched {rule : Descriptor} {guard : Constraint} {start next : Cursor}
      (matched : (node content rule guard start).outcome = .matched tree next)
      (inside : Makes (body content rule) start nested) :
      Makes (node content rule guard) start
        (.call rule.name start.pos nested true next.pos .none)
  | failed {rule : Descriptor} {guard : Constraint} {start stop : Cursor}
      (passed : (guarded rule guard start).outcome.isMatch = true)
      (failed : (body content rule start).outcome = .failed error stop)
      (inside : Makes (body content rule) start nested) :
      Makes (node content rule guard) start
        (.call rule.name start.pos nested false stop.pos .none)

section Runs

variable {start : Cursor}

theorem bind_run_matched {first : Parser α} {next : α → Parser β}
    (matched : (first start).outcome = .matched value middle) :
    (first >>= next) start =
      ⟨(first start).journal ++ (next value middle).journal, (next value middle).outcome⟩ := by
  rw [bind_run]
  cases ran : first start with
  | mk journal outcome =>
      rw [ran] at matched
      cases matched
      rfl

theorem bind_run_failed {first : Parser α} {next : α → Parser β}
    (failed : (first start).outcome = .failed error stop) :
    (first >>= next) start = ⟨(first start).journal, .failed error stop⟩ := by
  rw [bind_run]
  cases ran : first start with
  | mk journal outcome =>
      rw [ran] at failed
      cases failed
      rfl

@[simp] theorem journal_attempt (parser : Parser α) :
    (attempt parser start).journal = (parser start).journal := by
  rw [attempt_run]
  cases parser start with
  | mk journal outcome => cases outcome <;> rfl

@[simp] theorem journal_lookAhead (parser : Parser α) :
    (lookAhead parser start).journal = (parser start).journal := by
  unfold lookAhead
  cases parser start with
  | mk journal outcome => cases outcome <;> rfl

theorem Free.of_bind {first : Parser α} {next : α → Parser β}
    (free : (first >>= next).Free start) : first.Free start := by
  unfold Free at free ⊢
  rw [bind_run] at free
  cases ran : first start with
  | mk journal outcome =>
      rw [ran] at free
      cases outcome with
      | matched | failed => rfl
      | stuck => exact free

theorem Free.of_attempt {parser : Parser α} (free : (attempt parser).Free start) :
    parser.Free start := by
  unfold Free at free ⊢
  rw [attempt_run] at free
  cases ran : parser start with
  | mk journal outcome =>
      rw [ran] at free
      cases outcome with
      | matched | failed => rfl
      | stuck => exact free

theorem Free.of_lookAhead {parser : Parser α} (free : (lookAhead parser).Free start) :
    parser.Free start := by
  unfold Free lookAhead at free
  unfold Free
  cases ran : parser start with
  | mk journal outcome =>
      rw [ran] at free
      cases outcome with
      | matched | failed => rfl
      | stuck => exact free

variable {content : Symbol → Constraint → Parser Tree} {rule : Descriptor} {guard : Constraint}

/-- A guard passes without a trace, or it fails where the rule would have begun. -/
theorem guarded_cases (rule : Descriptor) (guard : Constraint) (start : Cursor) :
    guarded rule guard start = ⟨[], .matched () start⟩ ∨
      ∃ error, guarded rule guard start = ⟨[.failure error], .failed error start⟩ := by
  by_cases free : guard.isEmpty = true
  · exact .inl (guarded_run_free free)
  · rw [guarded_run_bound (by simpa using free)]
    have checks := matchNext_checks guard (start.skip rule.drop)
    generalize matchNext guard (start.skip rule.drop) = run at checks
    cases checks with
    | anyToken | accepted => exact .inl rfl
    | atEnd | refused => exact .inr ⟨_, rfl⟩

/-- Behind its guard a rule runs as its body does, between two notes. -/
theorem node_run_passed (content : Symbol → Constraint → Parser Tree)
    (passed : guarded rule guard start = ⟨[], .matched () start⟩) :
    node content rule guard start = match body content rule start with
      | ⟨journal, .matched slots next⟩ =>
        ⟨.enter rule.name start.pos :: journal ++ [.leave rule.name true next.pos],
          .matched (.node rule.name slots) next⟩
      | ⟨journal, .failed error stop⟩ =>
        ⟨.enter rule.name start.pos :: journal ++ [.leave rule.name false stop.pos],
          .failed error start⟩
      | ⟨journal, .stuck fault stop⟩ =>
        ⟨.enter rule.name start.pos :: journal, .stuck fault stop⟩ := by
  unfold node
  rw [bind_run, passed]
  dsimp only
  rw [bind_run]
  unfold within
  cases ran : body content rule start with
  | mk journal outcome => cases outcome <;> simp [pure_run]

theorem node_run_refused (refused : guarded rule guard start = ⟨journal, .failed error stop⟩) :
    node content rule guard start = ⟨journal, .failed error stop⟩ := by
  unfold node
  rw [bind_run, refused]

theorem node_run_matched (matched : (node content rule guard start).outcome = .matched tree next) :
    ∃ slots, (body content rule start).outcome = .matched slots next ∧
      (node content rule guard start).journal = .enter rule.name start.pos ::
        (body content rule start).journal ++ [.leave rule.name true next.pos] := by
  rcases guarded_cases rule guard start with passed | ⟨error, refused⟩
  · rw [node_run_passed _ passed] at matched ⊢
    cases ran : body content rule start with
    | mk journal outcome =>
        rw [ran] at matched
        cases outcome <;> cases matched
        exact ⟨_, rfl, rfl⟩
  · rw [node_run_refused refused] at matched
    cases matched

theorem node_run_failed (passed : (guarded rule guard start).outcome.isMatch = true)
    (failed : (body content rule start).outcome = .failed error stop) :
    node content rule guard start = ⟨.enter rule.name start.pos ::
      (body content rule start).journal ++ [.leave rule.name false stop.pos],
        .failed error start⟩ := by
  rcases guarded_cases rule guard start with passes | ⟨_, refused⟩
  · rw [node_run_passed _ passes]
    cases ran : body content rule start with
    | mk journal outcome =>
        rw [ran] at failed
        cases failed
        rfl
  · rw [refused] at passed
    cases passed

end Runs

namespace Makes

/-- A run notes the calls that it makes, in the order in which they begin and end. -/
theorem notes {parser : Parser α} (makes : parser.Makes start calls) :
    Trace.notes (parser start).journal = calls.events := by
  -- Only a node has notes of its own, around those of its body.
  induction makes with
  | pure | fail | reject | here | dropTokens => rfl
  | matchNext constraint start =>
      have checks := matchNext_checks constraint start
      generalize Parser.matchNext constraint start = run at checks ⊢
      cases checks <;> rfl
  | bind _ matched _ head tail =>
      rw [bind_run_matched matched, Trace.notes_append, head, tail, Calls.events_append]
  | cutOff _ failed head =>
      rw [bind_run_failed failed]
      exact head
  | attempt _ ih => rwa [journal_attempt]
  | lookAhead _ ih => rwa [journal_lookAhead]
  | @refused start error stop content rule guard closed =>
      rcases guarded_cases rule guard start with passed | ⟨_, failed⟩
      · rw [passed] at closed
        cases closed
      · rw [node_run_refused failed]
        rfl
  | matched matched _ ih =>
      obtain ⟨_, _, noted⟩ := node_run_matched matched
      rw [noted, List.cons_append, Trace.notes_enter, Trace.notes_append, ih]
      rfl
  | failed passed failed _ ih =>
      rw [node_run_failed passed failed, List.cons_append, Trace.notes_enter, Trace.notes_append,
        ih]
      rfl

theorem unique {parser : Parser α} (makes : parser.Makes start calls)
    (others : parser.Makes start other) : other = calls :=
  Calls.events_inj (others.notes.symm.trans makes.notes)

/-- No run ends before it begins, nor does any of its calls. -/
theorem ordered {parser : Parser α} (makes : parser.Makes start calls) :
    calls.Ordered start.pos ∧ start.pos ≤ (parser start).outcome.cursor.pos := by
  induction makes with
  | pure | fail | reject | here => exact ⟨trivial, Nat.le_refl _⟩
  | dropTokens drop start => exact ⟨trivial, start.pos_le_skip drop⟩
  | matchNext constraint start =>
      refine ⟨trivial, ?_⟩
      have checks := matchNext_checks constraint start
      generalize Parser.matchNext constraint start = run at checks ⊢
      cases checks with
      | anyToken => exact start.pos_le_advance
      | accepted =>
          dsimp only [Outcome.cursor]
          split
          · exact Nat.le_refl _
          · exact start.pos_le_advance
      | atEnd | refused => exact Nat.le_refl _
  | bind _ matched _ head tail =>
      obtain ⟨ordered, reaches⟩ := head
      obtain ⟨orderedMore, goesOn⟩ := tail
      rw [matched] at reaches
      rw [bind_run_matched matched]
      exact ⟨ordered.append (orderedMore.mono reaches), Nat.le_trans reaches goesOn⟩
  | cutOff _ failed head =>
      rw [failed] at head
      rwa [bind_run_failed failed]
  | @attempt start calls α parser _ ih =>
      obtain ⟨ordered, reaches⟩ := ih
      refine ⟨ordered, ?_⟩
      rw [attempt_run]
      cases ran : parser start with
      | mk journal outcome =>
          rw [ran] at reaches
          cases outcome with
          | matched | stuck => exact reaches
          | failed => exact Nat.le_refl _
  | @lookAhead start calls α parser _ ih =>
      obtain ⟨ordered, reaches⟩ := ih
      refine ⟨ordered, ?_⟩
      unfold Parser.lookAhead
      cases ran : parser start with
      | mk journal outcome =>
          rw [ran] at reaches
          cases outcome with
          | matched | failed => exact Nat.le_refl _
          | stuck => exact reaches
  | @refused start error stop content rule guard closed =>
      rcases guarded_cases rule guard start with passed | ⟨_, failed⟩
      · rw [passed] at closed
        cases closed
      · rw [node_run_refused failed]
        exact ⟨trivial, Nat.le_refl _⟩
  | matched matched _ ih =>
      obtain ⟨nested, reaches⟩ := ih
      obtain ⟨_, inside, _⟩ := node_run_matched matched
      rw [inside] at reaches
      rw [matched]
      exact ⟨⟨Nat.le_refl _, reaches, nested, trivial⟩, reaches⟩
  | failed passed failed _ ih =>
      obtain ⟨nested, reaches⟩ := ih
      rw [failed] at reaches
      rw [node_run_failed passed failed]
      exact ⟨⟨Nat.le_refl _, reaches, nested, trivial⟩, Nat.le_refl _⟩

end Makes

/-- A parser whose calls are told wherever it does not get stuck. -/
def Traceable (parser : Parser α) : Prop :=
  ∀ start, parser.Free start → ∃ calls, parser.Makes start calls

theorem Traceable.bind {first : Parser α} {next : α → Parser β} (head : first.Traceable)
    (tail : ∀ value, (next value).Traceable) : (first >>= next).Traceable := by
  intro start free
  obtain ⟨calls, makes⟩ := head start free.of_bind
  cases ends : (first start).outcome with
  | matched value middle =>
      unfold Free at free
      rw [bind_run_matched ends] at free
      obtain ⟨more, makesMore⟩ := tail value middle free
      exact ⟨_, .bind makes ends makesMore⟩
  | failed error stop => exact ⟨_, .cutOff makes ends⟩
  | stuck fault stop =>
      have goesOn := free.of_bind
      rw [Free, ends] at goesOn
      cases goesOn

theorem Traceable.attempt {parser : Parser α} (traceable : parser.Traceable) :
    (attempt parser).Traceable := by
  intro start free
  obtain ⟨calls, makes⟩ := traceable start free.of_attempt
  exact ⟨calls, .attempt makes⟩

theorem Traceable.lookAhead {parser : Parser α} (traceable : parser.Traceable) :
    (lookAhead parser).Traceable := by
  intro start free
  obtain ⟨calls, makes⟩ := traceable start free.of_lookAhead
  exact ⟨calls, .lookAhead makes⟩

theorem inherited_traceable : Inherited Traceable where
  pure value start _ := ⟨_, .pure value start⟩
  fail error start _ := ⟨_, .fail error start⟩
  reject cause start _ := ⟨_, .reject cause start⟩
  getStuck fault start free := by cases free
  here start _ := ⟨_, .here start⟩
  dropTokens drop start _ := ⟨_, .dropTokens drop start⟩
  matchNext constraint start _ := ⟨_, .matchNext constraint start⟩
  bind := .bind
  attempt := .attempt
  lookAhead := .lookAhead

theorem traceable_node {content : Symbol → Constraint → Parser Tree}
    (contents : ∀ symbol constraint, (content symbol constraint).Traceable) (rule : Descriptor)
    (guard : Constraint) : (node content rule guard).Traceable := by
  intro start free
  rcases guarded_cases rule guard start with passed | ⟨_, refused⟩
  · have runs := node_run_passed content passed
    have inside := inherited_traceable.body contents rule start
    unfold Free at free inside
    rw [runs] at free
    cases ran : body content rule start with
    | mk journal outcome =>
        rw [ran] at runs free inside
        cases outcome with
        | matched slots next =>
            obtain ⟨calls, makes⟩ := inside rfl
            exact ⟨_, .matched (congrArg Run.outcome runs) makes⟩
        | failed error stop =>
            obtain ⟨calls, makes⟩ := inside rfl
            exact ⟨_, .failed (by rw [passed]; rfl) (congrArg Run.outcome ran) makes⟩
        | stuck => cases free
  · exact ⟨_, .refused (congrArg Run.outcome refused)⟩

theorem traceable_nodeless (rule : Descriptor) (guard : Constraint) :
    (nodeless rule guard).Traceable :=
  inherited_traceable.bind (inherited_traceable.guarded rule guard) fun _ _ free => by cases free

end Parser

namespace Grammar

open TokenGrammar.Parser

theorem traceable_ruleParser (grammar : Grammar) (depth : Nat) (name : String)
    (guard : Constraint) : (grammar.ruleParser depth name guard).Traceable :=
  ruleParser_induction (motive := fun _ _ parser => parser.Traceable)
    (fun _ _ fault => inherited_traceable.getStuck fault)
    (fun _ _ guard rule rules _ =>
      traceable_node (inherited_traceable.contentParser rules) rule guard)
    (fun _ guard rule _ => traceable_nodeless rule guard)
    depth name guard

/-- The calls that a root makes from a place on. -/
def Invokes (grammar : Grammar) (root : Symbol) (start : Cursor) (calls : Calls) : Prop :=
  (contentParser (grammar.ruleParser (grammar.depthBound start)) root .anyToken).Makes start calls

/-- The lines of a log that trace a parse. -/
def traceOf (run : Run Tree) : List String :=
  ((logOf run true).filter (·.level = .trace)).map (·.text)

theorem traceOf_eq (run : Run Tree) : traceOf run = Trace.lines 0 run.journal := by
  simp only [traceOf, logOf, if_true]
  cases run.outcome <;> simp [List.filter_map, Function.comp_def]

/-- The log of a traced parse draws the calls that the parse makes: one entry and one exit for each
rule that it goes into behind a guard, indented by the rules around it, at the places where the
call begins and ends. The lines find their partners by the indentation alone. -/
theorem parseFrom_traces (declarations : List Declaration) (admissible : Admissible declarations)
    (root : Symbol) (declared : Declares declarations root) (complete : Bool) (start : Cursor) :
    let grammar := ofDeclarations declarations
    let lines := traceOf (grammar.parseFrom root complete start)
    ∃ calls, grammar.Invokes root start calls ∧
      (∀ other, grammar.Invokes root start other → other = calls) ∧
      calls.Ordered start.pos ∧ lines = calls.lines 0 ∧ Trace.Paired lines := by
  intro grammar lines
  have free : (grammar.parse root .anyToken).Free start :=
    free_parse admissible.total admissible.wellFounded (admissible.defines declared)
      .anyToken start
  obtain ⟨calls, makes⟩ := inherited_traceable.contentParser
    (grammar.traceable_ruleParser (grammar.depthBound start)) root .anyToken start free
  obtain ⟨ordered, _⟩ := makes.ordered
  have drawn : lines = calls.lines 0 := by
    calc lines = Trace.lines 0 (grammar.parseFrom root complete start).journal := traceOf_eq _
      _ = Trace.lines 0 (grammar.parse root .anyToken start).journal := by
          rw [(grammar.parseFrom_of_parse root complete start).1]
      _ = Trace.lines 0 calls.events := by
          rw [← Trace.lines_notes, ← makes.notes]
          rfl
      _ = calls.lines 0 := by simpa [Trace.lines] using calls.lines_events 0 []
  refine ⟨calls, makes, fun other invokes => makes.unique invokes, ordered, drawn, ?_⟩
  rw [drawn]
  exact ordered.paired 0

open Declaration in
/-- A word with a blank in front is tried as a pair first. No sign is called for, since its guard
refuses the word, and the pair gives up behind the word. -/
theorem parseFrom_traces_word :
    let sign := { ruleField "sign" "Word" with cardinality := .optional, tok := "sign" }
    let left := { ruleField "left" "Word" with tok := "word" }
    let declarations := [
      oneOf "Value" "" [ruleField "pair" "Pair", ruleField "word" "Word"],
      seq "Pair" "blank" [sign, left, markField "colon" "op,:", ruleField "right" "Word"],
      seq "Word" "blank" [tokenField "text" "word"]]
    let grammar := ofDeclarations declarations
    let start : Cursor := .start [.ordinary "blank" " ", .ordinary "word" "x"]
    let word (pos : Nat) : Calls := .call "Word" pos .none true 2 .none
    Admissible declarations ∧ Declares declarations (.rule "Value") ∧
      grammar.Invokes (.rule "Value") start
        (.call "Value" 0 (.call "Pair" 0 (word 1) false 2 (word 0)) true 2 .none) ∧
      traceOf (grammar.parseFrom (.rule "Value") true start) = [
        "> Value at #0",
        "  > Pair at #0",
        "    > Word at #1",
        "    < Word matched at #2",
        "  < Pair failed at #2",
        "  > Word at #0",
        "  < Word matched at #2",
        "< Value matched at #2"] := by
  intro sign left declarations grammar start word
  have ranked : ranked declarations
      (fun name => if name = "Value" then 2 else if name = "Pair" then 1 else 0) = true := by
    decide +kernel
  have admissible := admissible_of_ranked ranked
  have checked : declares declarations (fun _ => true) (.rule "Value") = true := by decide
  have declared : Declares declarations (.rule "Value") :=
    fun name content => (declares_of_check checked content).1
  obtain ⟨calls, invokes, _, _, drawn, _⟩ :=
    parseFrom_traces declarations admissible (.rule "Value") declared true start
  have made : calls = .call "Value" 0 (.call "Pair" 0 (word 1) false 2 (word 0)) true 2 .none :=
    Calls.events_inj (invokes.notes.symm.trans (by decide +kernel))
  subst made
  exact ⟨admissible, declared, invokes, drawn.trans (by decide +kernel)⟩

end Grammar
end TokenGrammar
