import TokenGrammar.Proofs.Json.Source

namespace TokenGrammar.Json

/-! How a text is cut into tokens up to some place, with what follows in view. -/

inductive Lexes : List Char → List Token → List Char → Prop
  | done : Lexes rest [] rest
  | blank (blank : Lexeme.isBlank c = true) (later : Lexes text tokens rest) :
      Lexes (c :: text) tokens rest
  | token (visible : Lexeme.isBlank c = false)
      (cut : Lexeme.next? (c :: text) = some ⟨type, word, left⟩) (shorter : left.length ≤ text.length)
      (later : Lexes left tokens rest) :
      Lexes (c :: text) (.ordinary type (String.ofList word) :: tokens) rest

namespace Lexes

theorem trans (first : Lexes text tokens middle) (second : Lexes middle more rest) :
    Lexes text (tokens ++ more) rest := by
  induction first with
  | done => exact second
  | blank blank _ ih => exact .blank blank (ih second)
  | token visible cut shorter _ ih => exact .token visible cut shorter (ih second)

theorem tokensFrom (lexes : Lexes text tokens []) {steps : Nat} (enough : text.length ≤ steps)
    (offset : Nat) : Json.tokensFrom steps offset text = .ok tokens := by
  generalize ending : ([] : List Char) = rest at lexes
  induction lexes generalizing steps offset with
  | done =>
      subst ending
      cases steps <;> rfl
  | blank blank later ih =>
      obtain ⟨steps, rfl⟩ : ∃ less, steps = less + 1 := ⟨steps - 1, by simp at enough; omega⟩
      have less := Nat.le_of_succ_le_succ enough
      simp only [Json.tokensFrom, blank, if_true, ih less _ ending]
  | token visible cut shorter later ih =>
      obtain ⟨steps, rfl⟩ : ∃ less, steps = less + 1 := ⟨steps - 1, by simp at enough; omega⟩
      have less := Nat.le_trans shorter (Nat.le_of_succ_le_succ enough)
      simp only [Json.tokensFrom, visible, cut, ih less _ ending]
      rfl

theorem tokenise {source : String} (lexes : Lexes source.toList tokens []) :
    Json.tokenise source = .ok tokens :=
  lexes.tokensFrom (Nat.le_refl _) 0

end Lexes

/-- The characters that may follow a value. -/
def delimiters : List Char := [' ', '\t', '\n', '\r'] ++ [',', ':', ']', '\x7d']

theorem delimited_cons {c : Char} (delimiter : c ∈ delimiters) (rest : List Char) :
    Delimited (c :: rest) := by
  have apart : ∀ c ∈ delimiters, c.isDigit = false ∧ c ≠ '.' ∧ c ≠ 'e' ∧ c ≠ 'E' := by
    simp [delimiters]
  obtain ⟨digit, mark⟩ := apart c delimiter
  refine ⟨?_, ?_⟩
  · rintro _ ⟨⟩
    exact digit
  · rintro _ ⟨⟩
    exact mark

theorem delimited_nil : Delimited [] := ⟨by simp, by simp⟩

theorem Blank.delimited (blank : Blank space) (delimited : Delimited rest) :
    Delimited (space ++ rest) := by
  cases space with
  | nil => exact delimited
  | cons c more => exact delimited_cons (List.mem_append_left _ (blank c (by simp))) _

theorem Blank.lexes (blank : Blank space) (rest : List Char) : Lexes (space ++ rest) [] rest := by
  induction space with
  | nil => exact .done
  | cons c space ih =>
      have blanks : ∀ c ∈ [' ', '\t', '\n', '\r'], Lexeme.isBlank c = true := by
        simp [Lexeme.isBlank]
      exact .blank (blanks c (blank c (by simp))) (ih fun other member => blank other (by simp [member]))

/-- A punctuation mark is a token, whatever follows. -/
theorem lexes_mark {c : Char} (mark : Lexeme.isPunctuation c = true) (rest : List Char) :
    Lexes (c :: rest) [.ordinary "op" (String.ofList [c])] rest := by
  simp only [Lexeme.isPunctuation, Bool.or_eq_true, beq_iff_eq] at mark
  rcases mark with ((((rfl | rfl) | rfl) | rfl) | rfl) | rfl <;>
    exact .token rfl rfl (Nat.le_refl _) .done

theorem Numeral.lexes (numeral : Numeral) (delimited : Delimited rest) :
    Lexes (numeral.text ++ rest) [.ordinary "number" (String.ofList numeral.text)] rest := by
  have cut := numeral.next_append delimited
  obtain ⟨c, more, same, begins⟩ := numeral.text_head
  rw [same] at cut ⊢
  exact .token (Lexeme.isBlank_of_number begins) cut (by simp) .done

theorem SpellsString.lexes (spells : SpellsString value text) (rest : List Char) :
    Lexes (text ++ rest) [.ordinary "string" (String.ofList text)] rest := by
  have cut := spells.next_append rest
  obtain ⟨body, _, rfl⟩ := spells
  refine .token (by decide) cut ?_ .done
  simp
  omega

/-- The text is cut into these tokens wherever something may stand behind a value. -/
def LexesAs (text : List Char) (tokens : List Token) : Prop :=
  ∀ rest, Delimited rest → Lexes (text ++ rest) tokens rest

namespace LexesAs

theorem blank (blank : Blank space) : LexesAs space [] := fun rest _ => blank.lexes rest

theorem padded (before : Blank left) (cut : LexesAs text tokens) (after : Blank right) :
    LexesAs (left ++ (text ++ right)) tokens := by
  intro rest delimited
  have middle := (cut _ (after.delimited delimited)).trans (after.lexes rest)
  simpa using (before.lexes _).trans middle

variable {mark opening closing : Char}

/-- Two texts are cut on their own where a mark stands between them. -/
theorem joined (cut : LexesAs text tokens) (punctuation : Lexeme.isPunctuation mark = true)
    (delimits : mark ∈ delimiters) (cutToo : LexesAs more others) :
    LexesAs (text ++ mark :: more)
      (tokens ++ .ordinary "op" (String.ofList [mark]) :: others) := by
  intro rest delimited
  have later := (lexes_mark punctuation _).trans (cutToo rest delimited)
  simpa using (cut _ (delimited_cons delimits _)).trans later

theorem enclosed (opens : Lexeme.isPunctuation opening = true)
    (closes : Lexeme.isPunctuation closing = true) (delimits : closing ∈ delimiters)
    (cut : LexesAs text tokens) :
    LexesAs (opening :: (text ++ [closing]))
      (.ordinary "op" (String.ofList [opening]) ::
        (tokens ++ [.ordinary "op" (String.ofList [closing])])) := by
  intro rest _
  have last := (cut _ (delimited_cons delimits rest)).trans (lexes_mark closes rest)
  simpa using (lexes_mark opens _).trans last

end LexesAs
end TokenGrammar.Json
