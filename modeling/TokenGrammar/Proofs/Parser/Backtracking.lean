import TokenGrammar.Proofs.Parser.Adequacy
import TokenGrammar.Session
import TokenGrammar.Language.Json

namespace TokenGrammar

/-! A parse that fails leaves nothing behind but its record: the stream stands where it stood,
and as many rules are open as before. -/

namespace Trace

theorem depthAfter_append (depth : Nat) (first second : List Event) :
    depthAfter depth (first ++ second) = depthAfter (depthAfter depth first) second := by
  simp only [depthAfter, List.foldl_append]

/-- A rule closes what it opens. -/
theorem depthAfter_call {journal : List Event} (rule : String) (start : Cursor) (ending : Ending)
    (balanced : ∀ depth, depthAfter depth journal = depth) (depth : Nat) :
    depthAfter depth (Event.call rule start journal ending) = depth := by
  have opened : depthAfter depth (Event.call rule start journal ending) =
      depthAfter (depthAfter (depth + 1) journal)
        [.leave rule ending.isMatch ending.cursor.pos] := by
    rw [← depthAfter_append]
    rfl
  rw [opened, balanced]
  rfl

end Trace

namespace Grammar.Performs

variable {grammar : Grammar}

theorem depthAfter_journal (performed : grammar.Performs task start journal ending) :
    ∀ depth, Trace.depthAfter depth journal = depth := by
  induction performed with
  | unguarded defined free body ih => exact Trace.depthAfter_call _ _ _ ih
  | guarded defined bound check body checked ih =>
      intro depth
      rw [Trace.depthAfter_append, checked, Trace.depthAfter_call _ _ _ ih]
  | anyToken | accepted | plainGap | full | noMoreFields | noMoreAlternatives =>
      exact fun _ => rfl
  | atEnd | refused | fullShort | nothing | noAlternative => exact fun _ => rfl
  | item _ _ first second | separatedRepetition _ _ _ _ first second | repeats _ _ _ _ first second
  | fields _ _ first second | passedOver _ _ first second =>
      intro depth
      rw [Trace.depthAfter_append, first, second]
  | stalledShort _ _ _ _ ih =>
      intro depth
      rw [Trace.depthAfter_append, ih]
      rfl
  | _ => assumption

theorem check_failed (performed : grammar.Performs (.check constraint) start journal (.failed stop)) :
    stop = start := by
  cases performed <;> rfl

/-- What a field holds is read or not begun. -/
theorem content_failed {symbol : Symbol}
    (performed : grammar.Performs (.content symbol constraint) start journal (.failed stop)) :
    stop = start := by
  induction symbol with
  | token =>
      cases performed with
      | token check => exact check.check_failed
  | mark =>
      cases performed with
      | mark check => exact check.check_failed
  | rule name =>
      generalize ends : Ending.failed stop = ending at performed
      cases performed with
      | @unguarded _ _ _ journal ending _ _ body =>
          cases ending <;> cases ends
          rfl
      | @guarded _ _ _ _ _ journal ending _ _ _ _ body =>
          cases ending <;> cases ends
          rfl
      | guardFails =>
          cases ends
          rfl
  | boxed symbol ih =>
      cases performed with
      | boxed content => exact ih content

end Grammar.Performs

namespace Outcome

def isFailure : Outcome α → Bool
  | failed _ _ => true
  | _ => false

def isStuck : Outcome α → Bool
  | stuck _ _ => true
  | _ => false

/-- Whether a run gets stuck with a fault that is not left aside. -/
def isStuckBut (spared : Fault → Bool) : Outcome α → Bool
  | stuck fault _ => !spared fault
  | _ => false

end Outcome

theorem Grammar.parse_failed {grammar : Grammar} {symbol : Symbol}
    (failed : (grammar.parse symbol constraint start).outcome = .failed error stop) :
    stop = start :=
  (grammar.parse_carriesOut symbol constraint start (.failed stop)
    (by rw [failed]; rfl)).content_failed

theorem Grammar.parseFrom_failed {grammar : Grammar}
    (failed : (grammar.parseFrom root complete start).outcome = .failed error stop) :
    stop = start := by
  unfold Grammar.parseFrom at failed
  cases ran : grammar.parseRoot root complete start with
  | mk journal outcome =>
      cases outcome <;> simp [ran] at failed
      exact failed.2.symm

namespace Session

/-- The content of a field, wherever a session stands: a failure moves nothing, and neither a
match nor a failure leaves a rule open. A whole parse that fails moves nothing either, also when
all that is wrong is what follows the root. -/
theorem run_parse_backtracks (grammar : Grammar) (symbol : Symbol) (constraint : Constraint)
    (session : Session) :
    let ran := session.run (grammar.parse symbol constraint)
    (ran.1.isFailure = true → ran.2.stream = session.stream) ∧
    (ran.1.isStuck = false → ran.2.depth = session.depth) ∧
    ∀ complete traced,
      let whole := run { stream := session.stream, traced } (grammar.parseFrom symbol complete)
      whole.1.isFailure = true → whole.2.stream = session.stream := by
  intro ran
  have performed := grammar.parse_carriesOut symbol constraint session.stream.cursor
  refine ⟨?_, ?_, ?_⟩
  · intro failed
    cases outcome : (grammar.parse symbol constraint session.stream.cursor).outcome with
    | failed error stop =>
        have back := (performed (.failed stop) (by rw [outcome]; rfl)).content_failed
        simp only [ran, run, outcome, Outcome.cursor, back]
        rfl
    | _ => simp [ran, run, outcome, Outcome.isFailure] at failed
  · intro free
    cases outcome : (grammar.parse symbol constraint session.stream.cursor).outcome with
    | matched tree next =>
        exact (performed (.matched 1 next) (by rw [outcome]; rfl)).depthAfter_journal session.depth
    | failed error stop =>
        exact (performed (.failed stop) (by rw [outcome]; rfl)).depthAfter_journal session.depth
    | stuck fault stop => simp [ran, run, outcome, Outcome.isStuck] at free
  · intro complete traced whole failed
    cases outcome : (grammar.parseFrom symbol complete session.stream.cursor).outcome with
    | failed error stop =>
        simp only [whole, run, outcome, Outcome.cursor, grammar.parseFrom_failed outcome]
        rfl
    | _ => simp [whole, run, outcome, Outcome.isFailure] at failed

/-- An array with a comma before its end, three rules deep and behind another token; and a number
with a bracket behind it, which a root alone would leave. -/
theorem run_parse_backtracks_dangling_comma :
    let grammar := Grammar.ofDeclarations Language.Json.declarations
    let session : Session := { depth := 3, stream := ⟨[.ordinary "op" ":", .ordinary "op" "[",
      .ordinary "number" "1", .ordinary "op" ",", .ordinary "op" "]"], 1⟩ }
    let ran := session.run (grammar.parse (.boxed (.rule "Json")) .anyToken)
    let trailing : Session := { stream := ⟨[.ordinary "number" "1", .ordinary "op" "]"], 0⟩ }
    let whole := trailing.run (grammar.parseFrom (.rule "Json") true)
    ran.1.isFailure = true ∧ ran.1.isStuck = false ∧ whole.1.isFailure = true ∧
      ran.2.stream = session.stream ∧ ran.2.depth = 3 ∧ whole.2.stream = trailing.stream := by
  intro grammar session ran trailing whole
  have failed : ran.1.isFailure = true := by decide +kernel
  have free : ran.1.isStuck = false := by decide +kernel
  have wholeFailed : whole.1.isFailure = true := by decide +kernel
  obtain ⟨stream, depth, _⟩ :=
    run_parse_backtracks grammar (.boxed (.rule "Json")) .anyToken session
  obtain ⟨_, _, back⟩ := run_parse_backtracks grammar (.rule "Json") .anyToken trailing
  exact ⟨failed, free, wholeFailed, stream failed, depth free, back true false wholeFailed⟩

end Session
end TokenGrammar
