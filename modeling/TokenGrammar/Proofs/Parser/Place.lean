import TokenGrammar.Proofs.Parser.Reach
import TokenGrammar.Token.Stream

namespace TokenGrammar

/-! Where a parser stands in a token list, as a position in the list. -/

namespace TokenStream

variable {tokens taken : List Token} {pos : Nat} {place : Cursor}

@[simp] theorem pos_cursor (stream : TokenStream) : stream.cursor.pos = stream.pos := rfl

theorem peek_cursor (tokens : List Token) (pos : Nat) :
    (cursor ⟨tokens, pos⟩).peek = tokens.getD pos .endOfInput := by
  simp [cursor, Cursor.peek, List.headD_eq_head?_getD, List.head?_drop]

theorem cursor_of_consumes (consumes : (cursor ⟨tokens, pos⟩).Consumes taken place) :
    place = cursor ⟨tokens, pos + taken.length⟩ := by
  obtain ⟨moved, rest⟩ := place
  obtain ⟨remaining, further⟩ := consumes
  simp only [cursor] at remaining further ⊢
  rw [← List.drop_drop, remaining, List.drop_left, further]

theorem advance_cursor (present : (cursor ⟨tokens, pos⟩).peek.isEnd = false) :
    (cursor ⟨tokens, pos⟩).advance = cursor ⟨tokens, pos + 1⟩ :=
  cursor_of_consumes (Cursor.consumes_advance present)

end TokenStream

namespace Cursor

theorem skip_of_kept {start : Cursor} {drop : Constraint} (kept : drop.find? start.peek = none) :
    start.skip drop = start := by
  obtain ⟨pos, _ | ⟨token, rest⟩⟩ := start
  · rfl
  · simp only [peek_cons] at kept
    simp [skip, skipFrom, kept]

theorem skip_of_dropped {start : Cursor} {drop : Constraint}
    (dropped : drop.find? start.peek = some pattern) : start.skip drop = start.advance.skip drop := by
  obtain ⟨pos, _ | ⟨token, rest⟩⟩ := start
  · simp at dropped
  · simp only [peek_cons] at dropped
    simp [skip, skipFrom, dropped]

/-- A filter stops at a token that it would not drop. -/
theorem find_peek_skip (start : Cursor) (drop : Constraint) :
    drop.find? (start.skip drop).peek = none := by
  obtain ⟨pos, tokens⟩ := start
  induction tokens generalizing pos with
  | nil => simp [skip, skipFrom]
  | cons token rest ih =>
      cases found : drop.find? token with
      | none =>
          have stays : skip drop ⟨pos, token :: rest⟩ = ⟨pos, token :: rest⟩ := skip_of_kept found
          rw [stays, peek_cons, found]
      | some pattern =>
          have further : skip drop ⟨pos, token :: rest⟩ = skip drop ⟨pos + 1, rest⟩ :=
            skip_of_dropped found
          rw [further]
          exact ih (pos + 1)

end Cursor
end TokenGrammar
