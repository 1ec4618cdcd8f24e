import TokenGrammar.Language.Json
import TokenGrammar.Proofs.ParseError.Arbitration
import TokenGrammar.Proofs.Parser.Adequacy
import TokenGrammar.Proofs.Parser.Record
import TokenGrammar.Proofs.Tree.Equality

namespace TokenGrammar.Grammar

open ParseError

/-- All errors that arise when a whole parse fails, in the order in which they arise: those of
the root, and one for what follows a root that matched. -/
inductive Produces (grammar : Grammar) (root : Symbol) (complete : Bool) (start : Cursor) :
    List ParseError → Prop
  | rootFails
      (performed : grammar.Performs (.content root .anyToken) start journal (.failed stop)) :
      Produces grammar root complete start (Event.errors journal)
  | inputRemains (asked : complete = true)
      (performed : grammar.Performs (.content root .anyToken) start journal (.matched count next))
      (remains : (grammar.skipTrailing root next).peek.isEnd = false) :
      Produces grammar root complete start
        (Event.errors journal ++ [.atCursor .trailingInput (grammar.skipTrailing root next)])

variable {grammar : Grammar} {root : Symbol} {complete : Bool} {start : Cursor}

theorem Produces.unique (produces : grammar.Produces root complete start errors)
    (other : grammar.Produces root complete start others) : others = errors := by
  cases produces with
  | rootFails performed =>
      cases other with
      | rootFails again => rw [(performed.unique again).1]
      | inputRemains _ again => exact absurd (performed.unique again).2 (by simp)
  | inputRemains _ performed =>
      cases other with
      | rootFails again => exact absurd (performed.unique again).2 (by simp)
      | inputRemains _ again =>
          obtain ⟨journals, endings⟩ := performed.unique again
          cases endings
          rw [journals]

/-- The record of a root that fails is the furthest error of the root. -/
theorem parseRoot_failed
    (failed : grammar.parseRoot root complete start = ⟨journal, .failed error stop⟩) :
    ∃ errors, grammar.Produces root complete start errors ∧
      furthest errors = some (.gather (furthest (Event.errors journal)) error) := by
  have performed := grammar.parse_carriesOut root .anyToken start
  have onRecord := grammar.records_parse root .anyToken none start
  unfold parseRoot at failed
  rw [Parser.bind_run] at failed
  cases ran : grammar.parse root .anyToken start with
  | mk first outcome =>
      rw [ran] at failed performed onRecord
      cases outcome with
      | matched tree next =>
          cases complete with
          | false => simp [Parser.pure_run] at failed
          | true =>
              simp only [if_true, Parser.here_bind_run] at failed
              by_cases ends : (grammar.skipTrailing root next).peek.isEnd = true
              · simp [ends, Parser.pure_run] at failed
              · simp only [ends, Bool.false_eq_true, if_false, Parser.fail_run,
                  List.append_nil] at failed
                cases failed
                refine ⟨_, .inputRemains rfl (performed _ rfl) (by simpa using ends), ?_⟩
                simp only [furthest, List.foldl_append]
                rfl
      | failed error stop =>
          cases failed
          exact ⟨_, .rootFails (performed _ rfl), (onRecord error stop rfl).symm⟩
      | stuck fault stop => cases failed

/-- A whole parse fails with the join of all errors that arise in it. -/
theorem parseFrom_furthest
    (failed : (grammar.parseFrom root complete start).outcome = .failed error stop) :
    ∃ errors, grammar.Produces root complete start errors ∧ furthest errors = some error := by
  unfold parseFrom at failed
  cases ran : grammar.parseRoot root complete start with
  | mk journal outcome =>
      rw [ran] at failed
      cases outcome with
      | failed last place =>
          obtain ⟨errors, produces, joined⟩ := parseRoot_failed ran
          cases failed
          exact ⟨errors, produces, joined⟩
      | matched | stuck => simp at failed

/-- The error of a whole parse that fails speaks for all errors that arise in it, whatever came of
the attempts in which they did. -/
theorem parseFrom_arbitrates (grammar : Grammar) (root : Symbol) (complete : Bool) (start : Cursor)
    (failed : (grammar.parseFrom root complete start).outcome = .failed error stop) :
    ∃ errors, grammar.Produces root complete start errors ∧
      (∀ others, grammar.Produces root complete start others → others = errors) ∧
      Arbitrates errors error := by
  obtain ⟨errors, produces, joined⟩ := parseFrom_furthest failed
  exact ⟨errors, produces, fun _ other => produces.unique other, arbitrates_furthest joined⟩

/-- After an open bracket, each kind of value and the closing bracket have been tried. -/
theorem parseFrom_arbitrates_open_bracket :
    let grammar := Grammar.ofDeclarations Language.Json.declarations
    let start := Cursor.start [.ordinary "op" "[", .ordinary "op" ":"]
    let error : ParseError := ⟨.ordinary "op" ":", 1, .expected [.ofType "number",
      .ofType "string", .ofValue "null" "null", .ofType "bool", .ofValue "op" "[",
      .ofValue "op" "\x7b", .ofValue "op" "]"]⟩
    (grammar.parseFrom (.rule "Json") true start).outcome = .failed error start ∧
      ∃ errors, grammar.Produces (.rule "Json") true start errors ∧ Arbitrates errors error := by
  intro grammar start error
  have failed : (grammar.parseFrom (.rule "Json") true start).outcome = .failed error start := by
    decide +kernel
  obtain ⟨errors, produces, _, arbitrates⟩ :=
    parseFrom_arbitrates grammar (.rule "Json") true start failed
  exact ⟨failed, errors, produces, arbitrates⟩

end TokenGrammar.Grammar
