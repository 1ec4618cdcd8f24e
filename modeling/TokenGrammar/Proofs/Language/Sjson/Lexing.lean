import TokenGrammar.Language.Document
import TokenGrammar.Proofs.Json.Decoding
import TokenGrammar.Proofs.Json.Lexing
import TokenGrammar.Proofs.Language.Json.Literals
import TokenGrammar.Proofs.Language.Sjson.Patterns

namespace TokenGrammar.Language.Sjson

open Lexer TokenGrammar.Json

/-! Simplified JSON is cut into tokens as JSON is, as long as its strings can be decoded and JSON
knows its white space. -/

theorem next_of_space {c : Char} (space : Text.isSpace c = true) (text : List Char) :
    Lexeme.next? (c :: text) = none := by
  have visible : ('-' :: Lexeme.starters).all (fun d => !Text.isSpace d) = true := by decide
  have apart : ∀ d ∈ '-' :: Lexeme.starters, c ≠ d := by
    intro d member same
    have own := List.all_eq_true.mp visible d member
    simp [← same, space] at own
  have digit : c.isDigit = false := by
    simp only [Text.isSpace, Text.spaceRanges, CodeRanges.contains, List.any_cons,
      List.any_nil, Bool.or_false, Bool.or_eq_true, decide_eq_true_eq] at space
    have zero : '0'.toNat = 48 := rfl
    have nine : '9'.toNat = 57 := rfl
    rw [← Bool.not_eq_true, Char.isDigit_iff_toNat]
    omega
  have minus : c ≠ '-' := apart '-' (by simp)
  rw [Lexeme.next_of_other fun member => apart c (by simp [member]) rfl]
  simp [Lexeme.number?, minus, Lexeme.unsigned?, digit]

theorem isSpace_of_isBlank {c : Char} (blank : Lexeme.isBlank c = true) : Text.isSpace c = true := by
  simp only [Lexeme.isBlank, Bool.or_eq_true, beq_iff_eq] at blank
  rcases blank with (((rfl | rfl) | rfl) | rfl) | rfl <;> decide

theorem visible {c : Char} {text : List Char} (cut : Lexeme.next? (c :: text) = some lexeme) :
    Lexeme.isBlank c = false := by
  rw [← Bool.not_eq_true]
  intro blank
  cases (next_of_space (isSpace_of_isBlank blank) text).symm.trans cut

theorem eq_of_unquoted {body other space : List Char} (unquoted : '"' ∉ body)
    (same : body ++ ['"'] = other ++ '"' :: space) : other = body ∧ space = [] := by
  rcases List.append_eq_append_iff.mp same with ⟨more, rfl, last⟩ | ⟨more, rfl, last⟩
  · cases more with
    | nil => simpa using last
    | cons c more => simp at last
  · cases more with
    | nil => simpa using last
    | cons c more =>
        cases last
        simp at unquoted

namespace Cut

theorem spaces (cut : Cut none taken rest) : ∀ c ∈ taken, Text.isSpace c = true := by
  cases cut
  assumption

/-- Nothing that is cut off goes on with the exponent of a number. -/
theorem head (cut : Cut type taken rest) (present : taken ≠ []) :
    ∃ c more, taken = c :: more ∧ c ≠ 'e' ∧ c ≠ 'E' := by
  cases cut with
  | space spaces =>
      obtain ⟨c, more, rfl⟩ := List.exists_cons_of_ne_nil present
      have space := spaces c (by simp)
      refine ⟨c, more, rfl, ?_, ?_⟩ <;> rintro rfl <;> exact absurd space (by decide)
  | mark punctuation =>
      refine ⟨_, _, rfl, ?_, ?_⟩ <;> rintro rfl <;> exact absurd punctuation (by decide)
  | string => exact ⟨_, _, rfl, by decide, by decide⟩
  | number begins =>
      refine ⟨_, _, rfl, ?_, ?_⟩ <;> rintro rfl <;> exact absurd begins (by decide)
  | bool word =>
      simp only [List.mem_cons, List.not_mem_nil, or_false] at word
      rcases word with rfl | rfl <;> exact ⟨_, _, rfl, by decide, by decide⟩
  | null => exact ⟨_, _, rfl, by decide, by decide⟩

/-- JSON cuts off the same text under the same name, unless it is a string that it reads on in. -/
theorem next (cut : Cut (some type) taken rest) (mark : Lexeme.exponent rest = ([], rest))
    (decoded : type = "string" → (unquote? (String.ofList taken)).isSome = true) :
    Lexeme.next? (taken ++ rest) = some ⟨type, taken, rest⟩ := by
  cases cut with
  | mark punctuation =>
      simp only [Lexeme.isPunctuation, Bool.or_eq_true, beq_iff_eq] at punctuation
      rcases punctuation with ((((rfl | rfl) | rfl) | rfl) | rfl) | rfl <;> rfl
  | string unquoted =>
      -- A quote inside the literal that JSON reads would have ended the text that is cut off.
      obtain ⟨value, read⟩ := Option.isSome_iff_exists.mp (decoded rfl)
      obtain ⟨body, space, same, spells⟩ := unquote_spells read
      obtain ⟨rfl, rfl⟩ := eq_of_unquoted unquoted same
      exact SpellsString.next_append ⟨_, spells, rfl⟩ rest
  | number begins longest => exact (Lexeme.next_of_number begins _).trans (longest mark)
  | bool word =>
      simp only [List.mem_cons, List.not_mem_nil, or_false] at word
      rcases word with rfl | rfl <;> rfl
  | null => rfl

end Cut

/-- Up to some place, JSON and simplified JSON cut a text into the same tokens. JSON may not know
the white space between them. -/
inductive Cuts : List Char → List Token → List Char → Prop
  | done : Cuts rest [] rest
  | space (space : Text.isSpace c = true) (later : Cuts text tokens rest) :
      Cuts (c :: text) tokens rest
  | token (cut : Lexeme.next? (word ++ left) = some ⟨type, word, left⟩) (present : word ≠ [])
      (later : Cuts left tokens rest) :
      Cuts (word ++ left) (.ordinary type (String.ofList word) :: tokens) rest

theorem Cuts.spaces (spaces : ∀ c ∈ taken, Text.isSpace c = true) (later : Cuts text tokens rest) :
    Cuts (taken ++ text) tokens rest := by
  induction taken with
  | nil => exact later
  | cons c taken ih =>
      have ⟨first, others⟩ := List.forall_mem_cons.mp spaces
      exact .space first (ih others)

section Steps

variable {definition : TokenDefinition} {modes : ModeStack} {steps : List Step}

/-- No definition of the table has a span of its own. -/
theorem cut_of_decides (decides : Decides definitions mode (taken ++ rest) definition bytes)
    (length : Text.byteLength taken = definition.span.elim bytes (· (taken ++ rest))) :
    Cut definition.name taken rest := by
  obtain ⟨earlier, later, declared, _, matched, _⟩ := decides
  have member : definition ∈ definitions := by simp [declared]
  have plain : ∀ definition ∈ definitions, definition.span = none := by simp [definitions]
  rw [plain definition member] at length
  rw [show bytes = Text.byteLength taken from length.symm] at matched
  exact cut_of_matches member matched

theorem exponent_of_steps (run : Steps definitions modes text steps) :
    Lexeme.exponent text = ([], text) := by
  cases run with
  | done => rfl
  | step decides present length =>
      obtain ⟨c, more, rfl, lower, upper⟩ := (cut_of_decides decides length).head present
      simp [Lexeme.exponent, lower, upper]

theorem cuts_of_steps (run : Steps definitions modes text steps)
    (split : steps.filterMap Step.token? = before ++ after) (decodable : Json.Decodable before) :
    ∃ rest, Cuts text before rest ∧ (after = [] → rest = []) := by
  -- Along the steps; only as long as tokens of `before` are left, their strings can be decoded.
  induction run generalizing before with
  | done =>
      obtain ⟨rfl, _⟩ := List.append_eq_nil_iff.mp split.symm
      exact ⟨[], .done, fun _ => rfl⟩
  | @step _ _ definition _ taken rest steps decides present length _ further ih =>
      have cut := cut_of_decides decides length
      cases called : definition.name with
      | none =>
          rw [called] at cut
          have spaces := cut.spaces
          have skipped : Step.token? ⟨definition, taken⟩ = none := by simp [Step.token?, called]
          rw [List.filterMap_cons_none skipped] at split
          obtain ⟨left, cuts, last⟩ := ih split decodable
          exact ⟨left, cuts.spaces spaces, last⟩
      | some type =>
          rw [called] at cut
          have kept : Step.token? ⟨definition, taken⟩ = some (.ordinary type (String.ofList taken)) := by
            simp [Step.token?, called]
          rw [List.filterMap_cons_some kept] at split
          cases before with
          | nil => exact ⟨_, .done, fun none => by simp [none] at split⟩
          | cons token before =>
              obtain ⟨rfl, remaining⟩ := List.cons.inj split
              have others : Json.Decodable before := fun text member => decodable text (by simp [member])
              obtain ⟨left, cuts, last⟩ := ih remaining others
              refine ⟨left, .token (cut.next (exponent_of_steps further) ?_) present cuts, last⟩
              rintro rfl
              exact decodable _ (by simp)

end Steps

/-- What JSON reads begins with the tokens that it cuts off as simplified JSON does. -/
theorem Cuts.prefix_of_tokensFrom (cuts : Cuts text before rest)
    (read : TokenGrammar.Json.tokensFrom steps offset text = .ok tokens) :
    ∃ after, tokens = before ++ after := by
  induction cuts generalizing steps offset tokens with
  | done => exact ⟨tokens, rfl⟩
  | @space c text tokens rest space later ih =>
      cases steps with
      | zero => cases read
      | succ steps =>
          -- White space that JSON does not know begins no token, so that JSON would have stopped.
          rw [TokenGrammar.Json.tokensFrom, next_of_space space] at read
          split at read
          · exact ih read
          · cases read
  | @token word left type before rest cut present later ih =>
      obtain ⟨c, more, rfl⟩ := List.exists_cons_of_ne_nil present
      cases steps with
      | zero => cases read
      | succ steps =>
          rw [List.cons_append, TokenGrammar.Json.tokensFrom, ← List.cons_append, cut] at read
          rw [visible cut] at read
          obtain ⟨others, further, same⟩ := Except.ok_of_bind_ok read
          obtain ⟨after, rfl⟩ := ih further
          cases same
          exact ⟨after, rfl⟩

theorem Cuts.lexes (cuts : Cuts text tokens rest)
    (blanks : ∀ c ∈ text, Text.isSpace c = true → Lexeme.isBlank c = true) :
    Lexes text tokens rest := by
  induction cuts with
  | done => exact .done
  | space space later ih =>
      exact .blank (blanks _ (by simp) space) (ih fun c member => blanks c (by simp [member]))
  | @token word left type tokens rest cut present later ih =>
      obtain ⟨c, more, rfl⟩ := List.exists_cons_of_ne_nil present
      exact .token (visible cut) cut (by simp) (ih fun c member => blanks c (by simp [member]))

theorem steps_of_tokenise {source : String} (read : sjson.tokenise source = .ok tokens) :
    ∃ modes steps, Steps definitions modes source.toList steps ∧
      tokens = steps.filterMap Step.token? := by
  have standalone : ∀ definition ∈ definitions,
      ∃ pattern, Pattern.Standalone definition.pattern.toList pattern := by
    intro definition member
    simp only [definitions, List.mem_cons, List.not_mem_nil, or_false] at member
    rcases member with rfl | rfl | rfl | rfl | rfl | rfl <;> exact ⟨_, rfl, _, rfl⟩
  obtain ⟨lexer, built, read⟩ := Except.ok_of_bind_ok read
  obtain ⟨_, modes⟩ := ofDefinitions_ok built
  exact ⟨_, steps_of_tokensFrom modes standalone read⟩

theorem cuts_of_tokenise {source : String} (read : sjson.tokenise source = .ok (before ++ after))
    (decodable : Json.Decodable before) :
    ∃ rest, Cuts source.toList before rest ∧ (after = [] → rest = []) := by
  obtain ⟨modes, steps, run, split⟩ := steps_of_tokenise read
  exact cuts_of_steps run split.symm decodable

theorem ordinary_of_tokenise {source : String} (read : sjson.tokenise source = .ok tokens) :
    ∀ token ∈ tokens, token.isEnd = false := by
  obtain ⟨_, steps, _, rfl⟩ := steps_of_tokenise read
  intro token member
  obtain ⟨step, _, own⟩ := List.mem_filterMap.mp member
  obtain ⟨type, _, rfl⟩ := Option.map_eq_some_iff.mp own
  rfl

end TokenGrammar.Language.Sjson
