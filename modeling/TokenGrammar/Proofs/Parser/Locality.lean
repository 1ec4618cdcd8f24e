import TokenGrammar.Proofs.Grammar.Ranking
import TokenGrammar.Proofs.ParseError.Arbitration
import TokenGrammar.Proofs.Parser.FurthestError
import TokenGrammar.Proofs.Parser.Place
import TokenGrammar.Proofs.Parser.SideBySide

namespace TokenGrammar

/-! # What a parse depends on

No token beyond the furthest failure and the end of a parse is ever looked at: two token lists
that are the same up to there are parsed alike. -/

/-- Two token lists that yield the same tokens up to a position, that position included. -/
def Agree (left right : List Token) (last : Nat) : Prop :=
  ∀ index ≤ last, left.getD index .endOfInput = right.getD index .endOfInput

instance (left right : List Token) (last : Nat) : Decidable (Agree left right last) :=
  inferInstanceAs (Decidable (∀ index ≤ last, _))

namespace Correspondence

variable {left right : List Token} {last : Nat}

/-- Where the parses stand: at the same position, up to the last one that counts. -/
def At (left right : List Token) (last : Nat) (start other : Cursor) : Prop :=
  ∃ pos ≤ last, start = TokenStream.cursor ⟨left, pos⟩ ∧ other = TokenStream.cursor ⟨right, pos⟩

theorem At.peek (agree : Agree left right last) (place : At left right last start other) :
    start.peek = other.peek := by
  obtain ⟨pos, within, rfl, rfl⟩ := place
  rw [TokenStream.peek_cursor, TokenStream.peek_cursor, agree pos within]

theorem At.advance (agree : Agree left right last) (place : At left right last start other)
    (present : start.peek.isEnd = false) :
    last < start.advance.pos ∨ At left right last start.advance other.advance := by
  have also : other.peek.isEnd = false := by rwa [← place.peek agree]
  obtain ⟨pos, within, rfl, rfl⟩ := place
  rw [TokenStream.advance_cursor present, TokenStream.advance_cursor also]
  by_cases further : pos + 1 ≤ last
  · exact .inr ⟨pos + 1, further, rfl, rfl⟩
  · exact .inl (Nat.lt_of_not_le further)

theorem At.atCursor (agree : Agree left right last) (place : At left right last start other)
    (cause : Cause) : ParseError.atCursor cause start = ParseError.atCursor cause other := by
  have token := place.peek agree
  obtain ⟨pos, within, rfl, rfl⟩ := place
  simp only [ParseError.atCursor, token, TokenStream.pos_cursor]

/-- A filter drops the same tokens of both lists, as long as it is where they agree. -/
theorem At.skip (agree : Agree left right last) (drop : Constraint)
    (place : At left right last start other) :
    last < (start.skip drop).pos ∨ At left right last (start.skip drop) (other.skip drop) := by
  obtain ⟨pos, within, rfl, rfl⟩ := place
  induction remaining : last + 1 - pos generalizing pos with
  | zero => omega
  | succ _ ih =>
      have place : At left right last (TokenStream.cursor ⟨left, pos⟩)
          (TokenStream.cursor ⟨right, pos⟩) := ⟨pos, within, rfl, rfl⟩
      have token := place.peek agree
      cases found : drop.find? (TokenStream.cursor ⟨left, pos⟩).peek with
      | none =>
          rw [Cursor.skip_of_kept found, Cursor.skip_of_kept (token ▸ found)]
          exact .inr place
      | some pattern =>
          have moved {tokens : List Token}
              (dropped : drop.find? (TokenStream.cursor ⟨tokens, pos⟩).peek = some pattern) :
              (TokenStream.cursor ⟨tokens, pos⟩).skip drop =
                (TokenStream.cursor ⟨tokens, pos + 1⟩).skip drop := by
            rw [Cursor.skip_of_dropped dropped,
              TokenStream.advance_cursor (Cursor.peek_of_found dropped)]
          rw [moved found, moved (token ▸ found)]
          by_cases further : pos + 1 ≤ last
          · exact ih (pos + 1) further (by omega)
          · have passed := Cursor.pos_le_skip (TokenStream.cursor ⟨left, pos + 1⟩) drop
            exact .inl (Nat.lt_of_lt_of_le (Nat.lt_of_not_le further) passed)

def upTo (agree : Agree left right last) : Correspondence :=
  .ofPlaces (At left right last) (last < ·) (·.peek agree) (·.advance agree)
    (fun cause place => place.atCursor agree cause)

theorem upTo_suits (agree : Agree left right last) (grammar : Grammar) (rule : Descriptor) :
    (upTo agree).Suits grammar rule where
  drop _ _ place := place.skip agree rule.drop
  lists _ _ _ _ _ _ place := place.skip agree .anyToken
  moves _ _ _ := .inl fun start other next otherNext place after => by
    obtain ⟨pos, _, rfl, rfl⟩ := place
    obtain ⟨later, _, rfl, rfl⟩ := after
    rfl

end Correspondence

theorem ParseError.pos_le_gather (errors : List ParseError) (last : ParseError) :
    (∀ error ∈ errors, error.pos ≤ (gather (furthest errors) last).pos) ∧
      last.pos ≤ (gather (furthest errors) last).pos := by
  have joined : furthest (errors ++ [last]) = some (gather (furthest errors) last) := by
    simp [furthest, List.foldl_append]
  have bound := (joins_furthest joined).furthest
  exact ⟨fun error member => bound error (by simp [member]), bound last (by simp)⟩

theorem ParseError.pos_le_furthest {errors : List ParseError} (member : error ∈ errors) :
    error.pos ≤ ((furthest errors).map (·.pos)).getD 0 := by
  cases joined : furthest errors with
  | some last => exact (joins_furthest joined).furthest error member
  | none =>
      obtain rfl | ⟨earlier, last, rfl⟩ := errors.eq_nil_or_concat
      · cases member
      · simp [furthest] at joined

/-- What a run yields, without the place where it ends. -/
def Outcome.result? : Outcome α → Option (Except ParseError α)
  | matched value _ => some (.ok value)
  | failed error _ => some (.error error)
  | stuck _ _ => none

namespace Grammar

open Correspondence ParseError

variable {declarations : List Declaration} {left right : List Token}

/-- Two parses that do not get beyond the part where the token lists agree. -/
inductive GoesAlike (left right : List Token) (last : Nat) : Run Tree → Run Tree → Prop
  | matched {journal otherJournal : List Event}
      (errors : Event.errors journal = Event.errors otherJournal)
      (place : At left right last next otherNext) :
      GoesAlike left right last ⟨journal, .matched tree next⟩
        ⟨otherJournal, .matched tree otherNext⟩
  | failed {journal otherJournal : List Event}
      (errors : Event.errors journal = Event.errors otherJournal) :
      GoesAlike left right last ⟨journal, .failed error stop⟩
        ⟨otherJournal, .failed error otherStop⟩

theorem GoesAlike.of_corresponds {κ : Correspondence} {run other : Run Tree}
    (alike : Run.Corresponds κ Eq (At left right last) run other)
    (errors : ∀ first second, κ.Error first second → first = second)
    (notes : ∀ first second, κ.Notes first second → first = second)
    (free : run.outcome.isStuck = false) (scope : ¬ run.Escapes κ) :
    GoesAlike left right last run other := by
  cases alike with
  | stuck => cases free
  | escaped escapes => exact absurd escapes scope
  | matched noted same place =>
      cases same
      exact .matched (notes _ _ noted) place
  | failed noted same =>
      cases errors _ _ same
      exact .failed (notes _ _ noted)

theorem parse_goesAlike (admissible : Admissible declarations) {symbol : Symbol}
    (declared : Declares declarations symbol) (constraint : Constraint) (start : Nat) {last : Nat}
    (agree : Agree left right last)
    (scope : ¬ ((ofDeclarations declarations).parse symbol constraint
      (TokenStream.cursor ⟨left, start⟩)).Reaches (last + 1)) :
    GoesAlike left right last
      ((ofDeclarations declarations).parse symbol constraint (TokenStream.cursor ⟨left, start⟩))
      ((ofDeclarations declarations).parse symbol constraint
        (TokenStream.cursor ⟨right, start⟩)) := by
  have total := admissible.total
  have defined : (ofDeclarations declarations).Defines symbol := admissible.defines declared
  have free := free_parse total admissible.wellFounded defined constraint
    (TokenStream.cursor ⟨left, start⟩)
  have begun : start ≤ last := by
    rcases ((ofDeclarations declarations).parse_carriesOut symbol constraint).steady (by simp)
      (TokenStream.cursor ⟨left, start⟩) with stuck | reaches
    · rw [free] at stuck
      cases stuck
    · exact Nat.le_of_not_lt fun later => scope (reaches.mono later)
  have alike := corresponds_parse total admissible.wellFounded (sized declarations)
    (fun _ rule _ => upTo_suits agree (ofDeclarations declarations) rule) defined constraint
    (.inl (show At left right last _ _ from ⟨start, begun, rfl, rfl⟩))
  refine .of_corresponds alike (fun _ _ same => same) (fun _ _ same => same) free ?_
  intro escapes
  obtain ⟨pos, beyond, reaches⟩ := escapes
  exact scope (reaches.mono beyond)

theorem pos_le_skipTrailing (grammar : Grammar) (root : Symbol) (start : Cursor) :
    start.pos ≤ (grammar.skipTrailing root start).pos := by
  unfold skipTrailing
  split
  · exact start.pos_le_skip _
  · exact Nat.le_refl _

theorem skipTrailing_at {last : Nat} (agree : Agree left right last) (grammar : Grammar)
    (root : Symbol) (place : At left right last start other) :
    last < (grammar.skipTrailing root start).pos ∨
      At left right last (grammar.skipTrailing root start) (grammar.skipTrailing root other) := by
  unfold skipTrailing
  split
  · exact place.skip agree _
  · exact .inr place

/-- A run does not get beyond the error that is reported for it. -/
theorem not_reaches_reported {journal : List Event} {outcome : Outcome Tree} {error : ParseError}
    (ends : ∀ tree next, outcome = .matched tree next → next.pos ≤ error.pos) :
    ¬ (⟨journal, outcome⟩ : Run Tree).Reaches
      ((gather (furthest (Event.errors journal)) error).pos + 1) := by
  obtain ⟨bound, own⟩ := pos_le_gather (Event.errors journal) error
  rintro (⟨other, member, beyond⟩ | ⟨tree, next, matched, beyond⟩)
  · exact absurd (bound other member) (Nat.not_le_of_lt beyond)
  · exact absurd (Nat.le_trans (ends tree next matched) own) (Nat.not_le_of_lt beyond)

theorem parseFrom_failed_alike (admissible : Admissible declarations) {root : Symbol}
    (declared : Declares declarations root) {complete : Bool} {start : Nat}
    (failed : ((ofDeclarations declarations).parseFrom root complete
      (TokenStream.cursor ⟨left, start⟩)).outcome = .failed error stop)
    (agree : Agree left right error.pos) :
    ((ofDeclarations declarations).parseFrom root complete
      (TokenStream.cursor ⟨right, start⟩)).outcome =
        .failed error (TokenStream.cursor ⟨right, start⟩) := by
  have alike := parse_goesAlike admissible declared .anyToken start agree
  rw [parseFrom_run] at failed ⊢
  generalize (ofDeclarations declarations).parse root .anyToken
    (TokenStream.cursor ⟨left, start⟩) = run at alike failed
  generalize (ofDeclarations declarations).parse root .anyToken
    (TokenStream.cursor ⟨right, start⟩) = other at alike ⊢
  obtain ⟨journal, outcome⟩ := run
  cases outcome with
  | stuck fault place => cases failed
  | failed last place =>
      cases failed
      cases alike (not_reaches_reported fun _ _ ends => nomatch ends) with
      | failed errors => simp only [errors]
  | matched tree next =>
      by_cases remains : complete = true ∧
          ((ofDeclarations declarations).skipTrailing root next).peek.isEnd = false
      · simp only [if_pos remains] at failed
        cases failed
        obtain ⟨_, trailing⟩ := pos_le_gather (Event.errors journal)
          (.atCursor .trailingInput ((ofDeclarations declarations).skipTrailing root next))
        cases alike (not_reaches_reported fun _ _ ends => by
            cases ends
            exact pos_le_skipTrailing _ root next) with
        | matched errors place =>
            rcases skipTrailing_at agree (ofDeclarations declarations) root place with
              beyond | after
            · exact absurd trailing (Nat.not_le_of_lt beyond)
            · have token := after.peek agree
              have also := after.atCursor agree .trailingInput
              rw [token] at remains
              simp only [if_pos remains]
              rw [← also, ← errors]
      · simp only [if_neg remains] at failed
        cases failed

theorem run_alike (admissible : Admissible declarations) {symbol : Symbol}
    (declared : Declares declarations symbol) (constraint : Constraint) {start : Nat}
    {session : Session} (clear : session.furthest = none) (stands : session.stream = ⟨left, start⟩)
    (agree : Agree left right
      (max (session.run ((ofDeclarations declarations).parse symbol constraint)).2.stream.pos
        (((session.run ((ofDeclarations declarations).parse symbol constraint)).2.furthest.map
          (·.pos)).getD 0))) :
    let ran := session.run ((ofDeclarations declarations).parse symbol constraint)
    let again := { session with stream := ⟨right, start⟩ : Session }.run
      ((ofDeclarations declarations).parse symbol constraint)
    ran.1.result?.isSome = true ∧ again.1.result? = ran.1.result? ∧
      again.2.stream.pos = ran.2.stream.pos ∧ again.2.furthest = ran.2.furthest := by
  have alike := parse_goesAlike admissible declared constraint start agree
  have performed := (ofDeclarations declarations).parse_carriesOut symbol constraint
    (TokenStream.cursor ⟨left, start⟩)
  have performedToo := (ofDeclarations declarations).parse_carriesOut symbol constraint
    (TokenStream.cursor ⟨right, start⟩)
  simp only [Session.run, clear, stands, TokenStream.restore] at alike ⊢
  generalize (ofDeclarations declarations).parse symbol constraint
    (TokenStream.cursor ⟨left, start⟩) = run at alike performed ⊢
  generalize (ofDeclarations declarations).parse symbol constraint
    (TokenStream.cursor ⟨right, start⟩) = other at alike performedToo ⊢
  have scope : ¬ run.Reaches (max run.outcome.cursor.pos
      (((furthest (Event.errors run.journal)).map (·.pos)).getD 0) + 1) := by
    rintro (⟨error, member, beyond⟩ | ⟨tree, next, matched, beyond⟩)
    · have := pos_le_furthest member
      omega
    · rw [matched] at beyond
      simp only [Outcome.cursor] at beyond
      omega
  cases alike scope with
  | matched errors place =>
      obtain ⟨pos, _, rfl, rfl⟩ := place
      exact ⟨rfl, rfl, rfl, by rw [errors]⟩
  | failed errors =>
      have back := (performed _ rfl).content_failed
      have backToo := (performedToo _ rfl).content_failed
      exact ⟨rfl, rfl, by simp only [Outcome.cursor, back, backToo, TokenStream.pos_cursor],
        by rw [errors]⟩

/-- A parse depends on the tokens up to its furthest failure and its end, and on no others: a
failure comes back with every list that has the same tokens up to it, and what a session is left
with depends on the tokens up to the last place on record or the place where it stands. -/
theorem parse_local (declarations : List Declaration) (admissible : Admissible declarations)
    (root : Symbol) (declared : Declares declarations root) (left right : List Token)
    (start : Nat) :
    let grammar := ofDeclarations declarations
    (∀ complete error stop,
      (grammar.parseFrom root complete (TokenStream.cursor ⟨left, start⟩)).outcome =
          .failed error stop →
        Agree left right error.pos →
        (grammar.parseFrom root complete (TokenStream.cursor ⟨right, start⟩)).outcome =
          .failed error (TokenStream.cursor ⟨right, start⟩)) ∧
    ∀ (constraint : Constraint) (session : Session), session.furthest = none →
      session.stream = ⟨left, start⟩ →
      let ran := session.run (grammar.parse root constraint)
      let again := { session with stream := ⟨right, start⟩ : Session }.run
        (grammar.parse root constraint)
      Agree left right
          (max ran.2.stream.pos ((ran.2.furthest.map (·.pos)).getD 0)) →
        ran.1.result?.isSome = true ∧ again.1.result? = ran.1.result? ∧
          again.2.stream.pos = ran.2.stream.pos ∧ again.2.furthest = ran.2.furthest := by
  intro grammar
  refine ⟨fun complete error stop failed agree => ?_, fun constraint session clear stands => ?_⟩
  · exact parseFrom_failed_alike admissible declared failed agree
  · exact run_alike admissible declared constraint clear stands

/-- A list that is broken off at a bracket of the wrong kind, whatever comes behind that. -/
theorem parse_local_wrong_bracket :
    let declarations := Language.Sexpr.declarations
    let grammar := ofDeclarations declarations
    let left : List Token := [.ordinary "bkt" "(", .ordinary "comment" ";", .ordinary "atom" "a",
      .ordinary "bkt" "]", .ordinary "bkt" ")"]
    let right : List Token := [.ordinary "bkt" "(", .ordinary "comment" ";", .ordinary "atom" "a",
      .ordinary "bkt" "]", .ordinary "number" "1"]
    let error : ParseError := ⟨.ordinary "bkt" "]", 3, .expected [.ofType "number",
      .ofType "string", .ofType "atom", .ofValue "bkt" "(", .ofValue "bkt" ")"]⟩
    let ran := (Session.ofTokens left false).run (grammar.parse (.rule "SExpr") .anyToken)
    let again := (Session.ofTokens right false).run (grammar.parse (.rule "SExpr") .anyToken)
    Admissible declarations ∧ Declares declarations (.rule "SExpr") ∧
      Agree left right 3 ∧
      (grammar.parseFrom (.rule "SExpr") true (.start right)).outcome =
        .failed error (.start right) ∧
      again.1.result? = ran.1.result? ∧ again.2.furthest = ran.2.furthest := by
  intro declarations grammar left right error ran again
  have ranked : ranked declarations (fun name => if name = "SExpr" then 1 else 0) = true := by
    decide +kernel
  have admissible := admissible_of_ranked ranked
  have checked : declares declarations (fun _ => true) (.rule "SExpr") = true := by decide
  have declared : Declares declarations (.rule "SExpr") :=
    fun name content => (declares_of_check checked content).1
  have agree : Agree left right 3 := by decide
  obtain ⟨whole, sessions⟩ :=
    parse_local declarations admissible (.rule "SExpr") declared left right 0
  have failed : (grammar.parseFrom (.rule "SExpr") true (.start left)).outcome =
      .failed error (.start left) := by decide +kernel
  have last : max ran.2.stream.pos ((ran.2.furthest.map (·.pos)).getD 0) = 3 := by decide +kernel
  obtain ⟨_, results, _, records⟩ := sessions .anyToken (Session.ofTokens left false) rfl rfl
    (by rw [last]; exact agree)
  exact ⟨admissible, declared, agree, whole true error _ failed agree, results, records⟩

end Grammar
end TokenGrammar
