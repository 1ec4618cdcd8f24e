import TokenGrammar.Proofs.Json.Lexing
import TokenGrammar.Proofs.Lexer.Separation
import TokenGrammar.Proofs.Rule.Compile

namespace TokenGrammar.Json

/-! The tokens of JSON text keep their text and their type where a line ends behind them. -/

namespace Lexeme

variable {text word body rest : List Char} {type : String}

/-- Where a string ends depends on its own text only. -/
theorem stringRest_split (read : stringRest text = some (body, rest)) :
    text = body ++ rest ∧ ∀ other, stringRest (body ++ other) = some (body, other) := by
  fun_induction stringRest text generalizing body rest with
  | case1 => cases read
  | case2 =>
      cases read
      exact ⟨rfl, fun _ => rfl⟩
  | case3 => cases read
  | case4 => cases read
  | case5 c text feed ih =>
      obtain ⟨⟨more, left⟩, read, same⟩ := Option.map_eq_some_iff.mp read
      cases same
      obtain ⟨split, again⟩ := ih read
      exact ⟨by simp [split], fun other => by simp [stringRest, feed, again]⟩
  | case6 c text quote lone escape ih =>
      obtain ⟨⟨more, left⟩, read, same⟩ := Option.map_eq_some_iff.mp read
      cases same
      obtain ⟨split, again⟩ := ih read
      refine ⟨by simp [split], fun other => ?_⟩
      have unescaped : c ≠ '\\' := by
        rintro rfl
        cases text with
        | nil => exact lone rfl rfl
        | cons d text => exact escape d text rfl rfl
      simp [stringRest, unescaped, again]

/-- The texts of the tokens of a type. -/
inductive Word : String → List Char → Prop
  | null : Word "null" "null".toList
  | bool (word : taken ∈ ["true".toList, "false".toList]) : Word "bool" taken
  | mark (punctuation : isPunctuation c = true) : Word "op" [c]
  | string (closed : ∀ other, stringRest (taken ++ other) = some (taken, other)) :
      Word "string" ('"' :: taken)
  | number (literal : Literal) : Word "number" literal.text

theorem word_of_next (cut : next? text = some ⟨type, word, rest⟩) :
    Word type word ∧ text = word ++ rest := by
  unfold next? at cut
  split at cut
  · cases cut
    exact ⟨.null, rfl⟩
  · cases cut
    exact ⟨.bool (by simp), rfl⟩
  · cases cut
    exact ⟨.bool (by simp), rfl⟩
  · obtain ⟨⟨body, left⟩, read, same⟩ := Option.map_eq_some_iff.mp cut
    cases same
    obtain ⟨split, closed⟩ := stringRest_split read
    exact ⟨.string closed, by simp [split]⟩
  · split at cut
    · rename_i punctuation
      cases cut
      exact ⟨.mark punctuation, rfl⟩
    · obtain ⟨rfl, literal, rfl, split⟩ := literal_of_number cut
      exact ⟨.number literal, split⟩
  · cases cut

theorem Word.next (word : Word type text) (delimited : Delimited rest) :
    next? (text ++ rest) = some ⟨type, text, rest⟩ := by
  cases word with
  | null => rfl
  | bool word =>
      simp only [List.mem_cons, List.not_mem_nil, or_false] at word
      rcases word with rfl | rfl <;> rfl
  | mark punctuation =>
      simp only [isPunctuation, Bool.or_eq_true, beq_iff_eq] at punctuation
      rcases punctuation with ((((rfl | rfl) | rfl) | rfl) | rfl) | rfl <;> rfl
  | string closed => simp [next?, closed]
  | number literal => exact literal.next_append delimited

theorem Word.visible (word : Word type text) :
    ∃ c more, text = c :: more ∧ isBlank c = false := by
  cases word with
  | null => exact ⟨_, _, rfl, by decide⟩
  | bool word =>
      simp only [List.mem_cons, List.not_mem_nil, or_false] at word
      rcases word with rfl | rfl <;> exact ⟨_, _, rfl, by decide⟩
  | mark punctuation =>
      simp only [isPunctuation, Bool.or_eq_true, beq_iff_eq] at punctuation
      rcases punctuation with ((((rfl | rfl) | rfl) | rfl) | rfl) | rfl <;>
        exact ⟨_, _, rfl, by decide⟩
  | string => exact ⟨_, _, rfl, by decide⟩
  | number literal =>
      obtain ⟨c, more, same, begins⟩ := literal.text_head
      exact ⟨c, more, same, isBlank_of_number begins⟩

end Lexeme

open Lexeme (Word)

/-- One blank character, or the token at the start of a text. -/
def cut : Cutter
  | [] => none
  | c :: text =>
    if Lexeme.isBlank c then some (none, [c])
    else (Lexeme.next? (c :: text)).map fun lexeme => (some lexeme.type, lexeme.text)

theorem next_of_cut (next : cut text = some (some type, taken)) :
    ∃ rest, Lexeme.next? text = some ⟨type, taken, rest⟩ := by
  unfold cut at next
  split at next
  · cases next
  · split at next
    · cases next
    · obtain ⟨lexeme, read, same⟩ := Option.map_eq_some_iff.mp next
      cases same
      exact ⟨_, read⟩

theorem word_of_cut (next : cut text = some (some type, taken)) : Word type taken := by
  obtain ⟨rest, read⟩ := next_of_cut next
  exact (Lexeme.word_of_next read).1

theorem blank_of_cut (next : cut text = some (none, taken)) :
    ∃ c, taken = [c] ∧ Lexeme.isBlank c = true := by
  unfold cut at next
  split at next
  · cases next
  · split at next
    · cases next
      exact ⟨_, rfl, ‹_›⟩
    · obtain ⟨_, _, same⟩ := Option.map_eq_some_iff.mp next
      cases same

theorem cut_of_word (word : Word type taken) (delimited : Delimited rest) :
    cut (taken ++ rest) = some (some type, taken) := by
  have next := word.next delimited
  obtain ⟨c, more, rfl, visible⟩ := word.visible
  rw [List.cons_append] at next ⊢
  simp [cut, visible, next]

theorem delimited_of_broken (broken : Broken rest) : Delimited rest := by
  refine ⟨fun c head => ?_, fun c head => ?_⟩ <;> rw [broken c head]
  · decide
  · exact ⟨by decide, by decide, by decide⟩

theorem separates : cut.Separates Lexeme.isBlank where
  skips next c member := by
    obtain ⟨blank, rfl, isBlank⟩ := blank_of_cut next
    rwa [List.mem_singleton.mp member]
  visible next c head := by
    obtain ⟨first, more, rfl, visible⟩ := (word_of_cut next).visible
    cases head
    exact visible
  again next _ _ broken := cut_of_word (word_of_cut next) (delimited_of_broken broken)
  lineFeed _ := rfl

theorem cuts_of_tokensFrom (read : tokensFrom steps offset text = .ok tokens) :
    cut.Cuts text tokens := by
  induction steps generalizing offset text tokens with
  | zero =>
      cases text with
      | nil =>
          cases read
          exact .done
      | cons => cases read
  | succ steps ih =>
      cases text with
      | nil =>
          cases read
          exact .done
      | cons c text =>
          unfold tokensFrom at read
          split at read
          · rename_i blank
            have next : cut ([c] ++ text) = some (none, [c]) := by simp [cut, blank]
            exact .skip next (by simp) (ih read)
          · rename_i visible
            split at read
            · cases read
            · rename_i lexeme next
              obtain ⟨others, further, same⟩ := Except.ok_of_bind_ok read
              cases same
              obtain ⟨word, split⟩ := Lexeme.word_of_next next
              obtain ⟨first, more, present, _⟩ := word.visible
              have cutOff : cut (lexeme.text ++ lexeme.rest) = some (some lexeme.type, lexeme.text) := by
                rw [← split]
                simp [cut, visible, next]
              rw [split]
              exact .token cutOff (by simp [present]) (ih further)

theorem lexes_of_cuts (cuts : cut.Cuts text tokens) : Lexes text tokens [] := by
  induction cuts with
  | done => exact .done
  | skip next _ _ ih =>
      obtain ⟨c, rfl, blank⟩ := blank_of_cut next
      exact .blank blank ih
  | @token taken rest type tokens next _ _ ih =>
      obtain ⟨left, read⟩ := next_of_cut next
      obtain ⟨word, split⟩ := Lexeme.word_of_next read
      obtain rfl := List.append_cancel_left split
      obtain ⟨c, more, rfl, visible⟩ := word.visible
      exact .token visible read (by simp) ih

theorem tokenise_iff_cuts {source : String} :
    tokenise source = .ok tokens ↔ cut.Cuts source.toList tokens :=
  ⟨cuts_of_tokensFrom, fun cuts => (lexes_of_cuts cuts).tokenise⟩

end TokenGrammar.Json
