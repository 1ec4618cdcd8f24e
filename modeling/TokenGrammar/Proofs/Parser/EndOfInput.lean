import TokenGrammar.Proofs.Parser.Locality
import TokenGrammar.Proofs.Parser.Renaming

namespace TokenGrammar

/-! # The end of the input

The mark of the end stops every reader, within a token list as well as behind its last token: what
stands behind the mark is never seen. This does not hold of ordinary tokens that show the texts of
the mark, which are like tokens under any other names. -/

theorem TokenStream.pos_skip_le {tokens : List Token} {pos last : Nat}
    (ended : (tokens.getD last .endOfInput).isEnd = true) (within : pos ≤ last)
    (drop : Constraint) : ((cursor ⟨tokens, pos⟩).skip drop).pos ≤ last := by
  induction remaining : last - pos generalizing pos with
  | zero =>
      obtain rfl : pos = last := by omega
      have kept : drop.find? (cursor ⟨tokens, pos⟩).peek = none := by
        rw [peek_cursor, Token.isEnd_iff.mp ended, Constraint.find?_endOfInput]
      rw [Cursor.skip_of_kept kept, pos_cursor]
  | succ more ih =>
      cases found : drop.find? (cursor ⟨tokens, pos⟩).peek with
      | none => rwa [Cursor.skip_of_kept found, pos_cursor]
      | some pattern =>
          rw [Cursor.skip_of_dropped found, advance_cursor (Cursor.peek_of_found found)]
          exact ih (by omega) (by omega)

namespace Correspondence

variable {left right : List Token} {last : Nat}

/-- A token before the end of the input lies before the last place that counts. -/
theorem At.advance_of_end (agree : Agree left right last)
    (ended : (left.getD last .endOfInput).isEnd = true) (place : At left right last start other)
    (present : start.peek.isEnd = false) : At left right last start.advance other.advance := by
  rcases place.advance agree present with beyond | after
  · obtain ⟨pos, within, rfl, rfl⟩ := place
    simp only [TokenStream.advance_cursor present, TokenStream.pos_cursor] at beyond
    obtain rfl : pos = last := by omega
    rw [TokenStream.peek_cursor, ended] at present
    cases present
  · exact after

theorem At.skip_of_end (agree : Agree left right last)
    (ended : (left.getD last .endOfInput).isEnd = true) (drop : Constraint)
    (place : At left right last start other) :
    At left right last (start.skip drop) (other.skip drop) := by
  rcases place.skip agree drop with beyond | after
  · obtain ⟨pos, within, rfl, rfl⟩ := place
    exact absurd (TokenStream.pos_skip_le ended within drop) (Nat.not_le_of_lt beyond)
  · exact after

/-- Parses of two lists that are the same up to a place where the input ends. Nothing is out of
scope, for neither gets past that place. -/
def untilEnd (agree : Agree left right last)
    (ended : (left.getD last .endOfInput).isEnd = true) : Correspondence :=
  .ofPlaces (At left right last) (fun _ => False) (·.peek agree)
    (fun place present => .inr (place.advance_of_end agree ended present))
    (fun cause place => place.atCursor agree cause)

theorem untilEnd_suits (agree : Agree left right last)
    (ended : (left.getD last .endOfInput).isEnd = true) (grammar : Grammar) (rule : Descriptor) :
    (untilEnd agree ended).Suits grammar rule where
  drop _ _ place := .inr (place.skip_of_end agree ended rule.drop)
  lists _ _ _ _ _ _ place := .inr (place.skip_of_end agree ended .anyToken)
  moves _ _ _ := .inl fun start other next otherNext place after => by
    obtain ⟨pos, _, rfl, rfl⟩ := place
    obtain ⟨later, _, rfl, rfl⟩ := after
    rfl

end Correspondence

theorem agree_of_end (before after : List Token) :
    Agree (before ++ .endOfInput :: after) before before.length := by
  intro index within
  rcases Nat.lt_or_eq_of_le within with inside | rfl
  · simp [List.getElem?_append_left inside]
  · simp

namespace Grammar

open Correspondence ParseError

variable {declarations : List Declaration} {left right : List Token} {last : Nat}

theorem skipTrailing_of_end (agree : Agree left right last)
    (ended : (left.getD last .endOfInput).isEnd = true) (grammar : Grammar) (root : Symbol)
    (place : At left right last start other) :
    At left right last (grammar.skipTrailing root start) (grammar.skipTrailing root other) := by
  unfold skipTrailing
  split
  · exact place.skip_of_end agree ended _
  · exact place

theorem parse_of_end (admissible : Admissible declarations) {symbol : Symbol}
    (declared : Declares declarations symbol) (constraint : Constraint) {start : Nat}
    (agree : Agree left right last) (ended : (left.getD last .endOfInput).isEnd = true)
    (within : start ≤ last) :
    GoesAlike left right last
      ((ofDeclarations declarations).parse symbol constraint (TokenStream.cursor ⟨left, start⟩))
      ((ofDeclarations declarations).parse symbol constraint
        (TokenStream.cursor ⟨right, start⟩)) := by
  have total := admissible.total
  have defined : (ofDeclarations declarations).Defines symbol := admissible.defines declared
  have free := free_parse total admissible.wellFounded defined constraint
    (TokenStream.cursor ⟨left, start⟩)
  have alike := corresponds_parse total admissible.wellFounded (sized declarations)
    (fun _ rule _ => untilEnd_suits agree ended (ofDeclarations declarations) rule) defined
    constraint (.inl (show At left right last _ _ from ⟨start, within, rfl, rfl⟩))
  refine .of_corresponds alike (fun _ _ same => same) (fun _ _ same => same) free ?_
  intro escapes
  obtain ⟨_, beyond, _⟩ := escapes
  exact beyond

theorem parseFrom_of_end (admissible : Admissible declarations) {root : Symbol}
    (declared : Declares declarations root) (complete : Bool) {start : Nat}
    (agree : Agree left right last) (ended : (left.getD last .endOfInput).isEnd = true)
    (within : start ≤ last) :
    let whole := ((ofDeclarations declarations).parseFrom root complete
      (TokenStream.cursor ⟨left, start⟩)).outcome
    let other := ((ofDeclarations declarations).parseFrom root complete
      (TokenStream.cursor ⟨right, start⟩)).outcome
    other.result?.isSome = true ∧ whole.result? = other.result? ∧
      whole.cursor.pos = other.cursor.pos ∧ other.cursor.pos ≤ last := by
  intro whole other
  have alike := parse_of_end admissible declared .anyToken agree ended within
  simp only [whole, other, parseFrom_run]
  generalize (ofDeclarations declarations).parse root .anyToken
    (TokenStream.cursor ⟨left, start⟩) = run at alike ⊢
  generalize (ofDeclarations declarations).parse root .anyToken
    (TokenStream.cursor ⟨right, start⟩) = otherRun at alike ⊢
  cases alike with
  | failed errors => exact ⟨rfl, by simp only [errors, Outcome.result?], rfl, within⟩
  | matched errors place =>
      have after := skipTrailing_of_end agree ended (ofDeclarations declarations) root place
      simp only [after.peek agree, after.atCursor agree]
      split
      · exact ⟨rfl, by simp only [errors, Outcome.result?], rfl, within⟩
      · obtain ⟨pos, inside, rfl, rfl⟩ := place
        exact ⟨rfl, rfl, rfl, inside⟩

/-- The mark of the end is never consumed: with the mark in a list a parse goes as it does without
the mark and all that follows. The mark is known by what it is and not by its texts, since a parse
follows any renaming of types and values. -/
theorem parseFrom_ends (declarations : List Declaration) (admissible : Admissible declarations)
    (root : Symbol) (declared : Declares declarations root) (complete : Bool)
    (before after : List Token) (start : Nat) (within : start ≤ before.length) :
    let grammar := ofDeclarations declarations
    let whole := (grammar.parseFrom root complete
      (TokenStream.cursor ⟨before ++ .endOfInput :: after, start⟩)).outcome
    let cut := (grammar.parseFrom root complete (TokenStream.cursor ⟨before, start⟩)).outcome
    (cut.result?.isSome = true ∧ whole.result? = cut.result? ∧
      whole.cursor.pos = cut.cursor.pos ∧ cut.cursor.pos ≤ before.length) ∧
    ∀ (ρ : Renaming) (stream : TokenStream),
      (ρ.grammar grammar).parseFrom root complete (ρ.cursor stream.cursor) =
        ρ.run ρ.tree (grammar.parseFrom root complete stream.cursor) := by
  intro grammar whole cut
  refine ⟨?_, fun ρ stream => renames_parseFrom grammar root complete stream.cursor⟩
  exact parseFrom_of_end admissible declared complete (agree_of_end before after) (by simp) within

/-- Words between ordinary tokens with the texts of the mark, which the rule drops. The mark itself
ends the list, in view of another word. -/
theorem parseFrom_ends_words :
    let declarations : List Declaration := [⟨"Words", some ⟨.seq, "EOF,EOF"⟩,
      [⟨"word", .token, .repeated, "word", "", ""⟩], "Words"⟩]
    let grammar := ofDeclarations declarations
    let before : List Token :=
      [.ordinary "EOF" "EOF", .ordinary "word" "a", .ordinary "EOF" "EOF"]
    let after : List Token := [.ordinary "word" "b"]
    let whole := (grammar.parseFrom (.rule "Words") true
      (TokenStream.cursor ⟨before ++ .endOfInput :: after, 0⟩)).outcome
    Admissible declarations ∧ Declares declarations (.rule "Words") ∧ 0 ≤ before.length ∧
      whole.result? = some (.ok (.node "Words"
        [.mk "word" .repeated [.token (.ordinary "word" "a")]])) ∧ whole.cursor.pos = 2 := by
  intro declarations grammar before after whole
  have ranked : ranked declarations (fun _ => 0) = true := by decide +kernel
  have admissible := admissible_of_ranked ranked
  have checked : declares declarations (fun _ => true) (.rule "Words") = true := by decide
  have declared : Declares declarations (.rule "Words") :=
    fun name content => (declares_of_check checked content).1
  obtain ⟨⟨_, results, places, _⟩, _⟩ := parseFrom_ends declarations admissible (.rule "Words")
    declared true before after 0 (Nat.zero_le _)
  have cut : (grammar.parseFrom (.rule "Words") true (TokenStream.cursor ⟨before, 0⟩)).outcome =
      .matched (.node "Words" [.mk "word" .repeated [.token (.ordinary "word" "a")]])
        (TokenStream.cursor ⟨before, 2⟩) := by decide +kernel
  rw [cut] at results places
  exact ⟨admissible, declared, Nat.zero_le _, results, places⟩

end Grammar
end TokenGrammar
