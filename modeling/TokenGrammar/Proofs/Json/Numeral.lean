import Mathlib.Data.List.TakeWhile
import TokenGrammar.Json.Lexer
import TokenGrammar.Number.Text

namespace TokenGrammar.Json

/-! Numbers as RFC 8259 writes them: a sign, a whole part without leading zeros, a fraction and
an exponent. -/

structure Digits (text : List Char) : Prop where
  present : text ≠ []
  digits : ∀ c ∈ text, c.isDigit = true

def IsWhole (text : List Char) : Prop := text = ['0'] ∨ Digits text ∧ text.head? ≠ some '0'

def IsFraction (text : List Char) : Prop := text = [] ∨ ∃ digits, Digits digits ∧ text = '.' :: digits

def IsExponent (text : List Char) : Prop :=
  text = [] ∨ ∃ mark sign digits, (mark = 'e' ∨ mark = 'E') ∧ sign ∈ [[], ['-'], ['+']] ∧
    Digits digits ∧ text = mark :: (sign ++ digits)

structure Numeral where
  negative : Bool
  whole : List Char
  fraction : List Char
  exponent : List Char
  isWhole : IsWhole whole
  isFraction : IsFraction fraction
  isExponent : IsExponent exponent

def Numeral.magnitude (numeral : Numeral) : List Char :=
  numeral.whole ++ (numeral.fraction ++ numeral.exponent)

def Numeral.text (numeral : Numeral) : List Char :=
  (if numeral.negative then ['-'] else []) ++ numeral.magnitude

/-- A number as the lexers take it. Leading zeros are allowed. -/
structure Literal where
  negative : Bool
  whole : List Char
  fraction : List Char
  exponent : List Char
  digits : Digits whole
  isFraction : IsFraction fraction
  isExponent : IsExponent exponent

def Literal.magnitude (literal : Literal) : List Char :=
  literal.whole ++ (literal.fraction ++ literal.exponent)

def Literal.text (literal : Literal) : List Char :=
  (if literal.negative then ['-'] else []) ++ literal.magnitude

/-- What may follow a number: nothing that would be read as more of it. -/
structure Delimited (rest : List Char) : Prop where
  digit : ∀ c, rest.head? = some c → c.isDigit = false
  mark : ∀ c, rest.head? = some c → c ≠ '.' ∧ c ≠ 'e' ∧ c ≠ 'E'

theorem IsWhole.digits (whole : IsWhole text) : Digits text := by
  rcases whole with rfl | ⟨digits, _⟩
  · exact ⟨by simp, by simp⟩
  · exact digits

variable {digits rest : List Char}

theorem Digits.takeWhile (run : Digits digits)
    (stops : ∀ c, rest.head? = some c → c.isDigit = false) :
    (digits ++ rest).takeWhile Char.isDigit = digits := by
  rw [List.takeWhile_append_of_pos run.digits]
  cases rest with
  | nil => simp
  | cons c rest => simp [stops c rfl]

theorem Digits.dropWhile (run : Digits digits)
    (stops : ∀ c, rest.head? = some c → c.isDigit = false) :
    (digits ++ rest).dropWhile Char.isDigit = rest := by
  rw [List.dropWhile_append_of_pos run.digits]
  cases rest with
  | nil => simp
  | cons c rest => simp [stops c rfl]

theorem ne_of_isDigit {c other : Char} (digit : c.isDigit = true) (apart : other.isDigit = false) :
    c ≠ other := by
  rintro rfl
  simp [digit] at apart

theorem Digits.cases_head (run : Digits digits) :
    ∃ c more, digits = c :: more ∧ c.isDigit = true := by
  cases digits with
  | nil => exact absurd rfl run.present
  | cons c more => exact ⟨c, more, rfl, run.digits c (by simp)⟩

theorem IsExponent.head {exponent rest : List Char} (isExponent : IsExponent exponent)
    (delimited : Delimited rest) :
    ∀ c, (exponent ++ rest).head? = some c → c.isDigit = false ∧ c ≠ '.' := by
  rcases isExponent with rfl | ⟨mark, sign, digits, letter, _, _, rfl⟩
  · exact fun c head => ⟨delimited.digit c head, (delimited.mark c head).1⟩
  · intro c head
    cases head
    rcases letter with rfl | rfl <;> exact ⟨by decide, by decide⟩

namespace Lexeme

variable {digits fraction exponent rest : List Char}

theorem sign_append {sign : List Char} (signs : sign ∈ [[], ['-'], ['+']]) (run : Digits digits) :
    Lexeme.sign (sign ++ (digits ++ rest)) = (sign, digits ++ rest) := by
  simp only [List.mem_cons, List.not_mem_nil, or_false] at signs
  rcases signs with rfl | rfl | rfl
  · obtain ⟨c, more, rfl, digit⟩ := run.cases_head
    have minus : c ≠ '-' := ne_of_isDigit digit (by decide)
    have plus : c ≠ '+' := ne_of_isDigit digit (by decide)
    simp [Lexeme.sign, minus, plus]
  · rfl
  · rfl

theorem exponent_append (isExponent : IsExponent exponent) (delimited : Delimited rest) :
    Lexeme.exponent (exponent ++ rest) = (exponent, rest) := by
  rcases isExponent with rfl | ⟨mark, sign, digits, letter, signs, run, rfl⟩
  · cases rest with
    | nil => rfl
    | cons c rest =>
        obtain ⟨_, lower, upper⟩ := delimited.mark c rfl
        simp [Lexeme.exponent, lower, upper]
  · have taken := run.takeWhile delimited.digit
    have left := run.dropWhile delimited.digit
    obtain ⟨c, more, same, _⟩ := run.cases_head
    rw [same] at taken
    simp only [Lexeme.exponent, List.cons_append, List.append_assoc, if_pos letter,
      sign_append signs run, left]
    rw [same, taken]

theorem fraction_append (isFraction : IsFraction fraction)
    (stops : ∀ c, rest.head? = some c → c.isDigit = false ∧ c ≠ '.') :
    Lexeme.fraction (fraction ++ rest) = (fraction, rest) := by
  rcases isFraction with rfl | ⟨digits, run, rfl⟩
  · cases rest with
    | nil => rfl
    | cons c rest => simp [Lexeme.fraction, (stops c rfl).2]
  · have taken := run.takeWhile fun c head => (stops c head).1
    have left := run.dropWhile fun c head => (stops c head).1
    obtain ⟨c, more, same, _⟩ := run.cases_head
    rw [same] at taken
    simp only [Lexeme.fraction, List.cons_append, left]
    rw [same, taken]

end Lexeme

/-- The characters that begin tokens other than numbers. -/
def Lexeme.starters : List Char := ['n', 't', 'f', '"', '\x7b', '\x7d', ',', ':', '[', ']']

theorem Lexeme.next_of_other {c : Char} (other : c ∉ starters) (text : List Char) :
    Lexeme.next? (c :: text) = Lexeme.number? (c :: text) := by
  simp only [starters, List.mem_cons, List.not_mem_nil, or_false, not_or] at other
  obtain ⟨n, t, f, quote, marks⟩ := other
  have plain : Lexeme.isPunctuation c = false := by
    simp [Lexeme.isPunctuation, marks]
  unfold Lexeme.next?
  split <;> simp_all

theorem Lexeme.next_of_number {c : Char} (begins : c = '-' ∨ c.isDigit = true) (text : List Char) :
    Lexeme.next? (c :: text) = Lexeme.number? (c :: text) := by
  have neither : ∀ d ∈ starters, ¬ (d = '-' ∨ d.isDigit = true) := by simp [starters]
  exact next_of_other (fun member => neither c member begins) text

theorem Lexeme.isBlank_of_number {c : Char} (begins : c = '-' ∨ c.isDigit = true) :
    Lexeme.isBlank c = false := by
  rw [← Bool.not_eq_true]
  intro blank
  simp only [Lexeme.isBlank, Bool.or_eq_true, beq_iff_eq] at blank
  rcases blank with (((rfl | rfl) | rfl) | rfl) | rfl <;> exact absurd begins (by decide)

/-! What is taken from any text has the form of a number. -/

theorem digits_of_takeWhile {text : List Char} (read : text.takeWhile Char.isDigit = c :: more) :
    Digits (c :: more) :=
  ⟨by simp, fun _ member => List.mem_takeWhile_imp (read.symm ▸ member)⟩

namespace Lexeme

variable {text word digits rest : List Char} {type : String}

theorem fraction_parts (text : List Char) :
    IsFraction (fraction text).1 ∧ text = (fraction text).1 ++ (fraction text).2 := by
  unfold fraction
  split
  · rename_i text
    split
    · exact ⟨.inl rfl, rfl⟩
    · rename_i digits present
      obtain ⟨c, more, same⟩ := List.exists_cons_of_ne_nil present
      refine ⟨.inr ⟨_, same ▸ digits_of_takeWhile same, rfl⟩, ?_⟩
      rw [List.cons_append, List.takeWhile_append_dropWhile]
  · exact ⟨.inl rfl, rfl⟩

theorem sign_parts (text : List Char) :
    (sign text).1 ∈ [[], ['-'], ['+']] ∧ text = (sign text).1 ++ (sign text).2 := by
  unfold sign
  split <;> simp

theorem exponent_parts (text : List Char) :
    IsExponent (exponent text).1 ∧ text = (exponent text).1 ++ (exponent text).2 := by
  unfold exponent
  split
  · rename_i mark text
    obtain ⟨signs, split⟩ := sign_parts text
    by_cases letter : mark = 'e' ∨ mark = 'E'
    · simp only [if_pos letter]
      split
      · exact ⟨.inl rfl, rfl⟩
      · rename_i digits present
        obtain ⟨c, more, same⟩ := List.exists_cons_of_ne_nil present
        refine ⟨.inr ⟨mark, _, _, letter, signs, same ▸ digits_of_takeWhile same, by simp⟩, ?_⟩
        simp [← split]
    · simp only [if_neg letter]
      exact ⟨.inl rfl, rfl⟩
  · exact ⟨.inl rfl, rfl⟩

theorem literal_of_unsigned (negative : Bool) (read : unsigned? text = some (digits, rest)) :
    ∃ literal : Literal, literal.negative = negative ∧ literal.magnitude = digits ∧
      text = digits ++ rest := by
  unfold unsigned? at read
  split at read
  · cases read
  · rename_i whole present
    obtain ⟨c, more, same⟩ := List.exists_cons_of_ne_nil present
    have isFraction := fraction_parts (text.dropWhile Char.isDigit)
    generalize fraction (text.dropWhile Char.isDigit) = parts at isFraction read
    obtain ⟨point, middle⟩ := parts
    have isExponent := exponent_parts middle
    simp only at read
    generalize exponent middle = parts at isExponent read
    obtain ⟨isFraction, first⟩ := isFraction
    obtain ⟨isExponent, second⟩ := isExponent
    cases read
    refine ⟨⟨negative, _, _, _, same ▸ digits_of_takeWhile same, isFraction, isExponent⟩, rfl,
      by simp [Literal.magnitude], ?_⟩
    rw [List.append_assoc, ← second, List.append_assoc, ← first, List.takeWhile_append_dropWhile]

theorem literal_of_number (read : number? text = some ⟨type, word, rest⟩) :
    type = "number" ∧ ∃ literal : Literal, literal.text = word ∧ text = word ++ rest := by
  unfold number? at read
  split at read <;> obtain ⟨⟨digits, left⟩, unsigned, same⟩ := Option.map_eq_some_iff.mp read <;>
    cases same
  · obtain ⟨literal, negative, magnitude, split⟩ := literal_of_unsigned true unsigned
    exact ⟨rfl, literal, by simp [Literal.text, negative, magnitude], by simp [split]⟩
  · obtain ⟨literal, negative, magnitude, split⟩ := literal_of_unsigned false unsigned
    exact ⟨rfl, literal, by simp [Literal.text, negative, magnitude], split⟩

end Lexeme

namespace Literal

variable (literal : Literal)

/-- After the whole part no digit follows, if none begins what comes after the fraction. -/
theorem tail_stops
    (stops : ∀ c, (literal.exponent ++ rest).head? = some c → c.isDigit = false ∧ c ≠ '.') :
    ∀ c, (literal.fraction ++ (literal.exponent ++ rest)).head? = some c → c.isDigit = false := by
  rcases literal.isFraction with same | ⟨digits, _, same⟩
  · intro c head
    rw [same] at head
    exact (stops c head).1
  · intro c head
    rw [same] at head
    cases head
    decide

theorem tail_head (delimited : Delimited rest) :
    ∀ c, (literal.fraction ++ (literal.exponent ++ rest)).head? = some c → c.isDigit = false :=
  literal.tail_stops (literal.isExponent.head delimited)

theorem unsigned_append (delimited : Delimited rest) :
    Lexeme.unsigned? (literal.magnitude ++ rest) = some (literal.magnitude, rest) := by
  have run := literal.digits
  have taken := run.takeWhile (literal.tail_head delimited)
  have left := run.dropWhile (literal.tail_head delimited)
  obtain ⟨c, more, same, _⟩ := run.cases_head
  have fraction := Lexeme.fraction_append literal.isFraction
    (literal.isExponent.head delimited)
  have exponent := Lexeme.exponent_append literal.isExponent delimited
  simp only [Lexeme.unsigned?, magnitude, List.append_assoc, taken, left]
  rw [same]
  simp [fraction, exponent]

theorem magnitude_head : ∃ c more, literal.magnitude = c :: more ∧ c.isDigit = true := by
  obtain ⟨c, more, same, digit⟩ := literal.digits.cases_head
  exact ⟨c, more ++ (literal.fraction ++ literal.exponent), by simp [magnitude, same], digit⟩

theorem number_append (delimited : Delimited rest) :
    Lexeme.number? (literal.text ++ rest) = some ⟨"number", literal.text, rest⟩ := by
  have unsigned := literal.unsigned_append delimited
  cases negative : literal.negative with
  | true => simp [text, negative, Lexeme.number?, unsigned]
  | false =>
      obtain ⟨c, more, same, digit⟩ := literal.magnitude_head
      have minus : c ≠ '-' := ne_of_isDigit digit (by decide)
      simp only [text, negative]
      rw [same] at unsigned ⊢
      simp at unsigned
      simp [Lexeme.number?, minus, unsigned]

theorem text_head : ∃ c more, literal.text = c :: more ∧ (c = '-' ∨ c.isDigit = true) := by
  cases negative : literal.negative with
  | true => exact ⟨'-', literal.magnitude, by simp [text, negative], .inl rfl⟩
  | false =>
      obtain ⟨c, more, same, digit⟩ := literal.magnitude_head
      exact ⟨c, more, by simp [text, negative, same], .inr digit⟩

/-- The longest token at the start of a number is the whole number. -/
theorem next_append (delimited : Delimited rest) :
    Lexeme.next? (literal.text ++ rest) = some ⟨"number", literal.text, rest⟩ := by
  rw [← literal.number_append delimited]
  obtain ⟨c, more, same, begins⟩ := literal.text_head
  rw [same]
  exact Lexeme.next_of_number begins _

theorem exponent_converts : ∃ value, Binary64.readExponent literal.exponent = some value := by
  rcases literal.isExponent with same | ⟨mark, sign, digits, letter, signs, run, same⟩
  · exact ⟨0, by rw [same]; rfl⟩
  · have read : Text.readDigits digits = some (Text.decimalValue digits) := by
      rw [Text.readDigits, if_pos ⟨run.present, List.all_eq_true.mpr run.digits⟩]
    simp only [List.mem_cons, List.not_mem_nil, or_false] at signs
    rw [same]
    rcases signs with rfl | rfl | rfl
    · obtain ⟨c, more, rfl, digit⟩ := run.cases_head
      have minus : c ≠ '-' := ne_of_isDigit digit (by decide)
      have plus : c ≠ '+' := ne_of_isDigit digit (by decide)
      simp [Binary64.readExponent, letter, minus, plus, read]
    · simp [Binary64.readExponent, letter, read]
    · simp [Binary64.readExponent, letter, read]

theorem unsigned_converts (negative : Bool) :
    ∃ value, Binary64.readUnsigned negative literal.magnitude = some value ∧ value ≠ .notANumber := by
  have delimited : Delimited [] := ⟨by simp, by simp⟩
  have run := literal.digits
  have taken := run.takeWhile (literal.tail_head delimited)
  have left := run.dropWhile (literal.tail_head delimited)
  simp only [List.append_nil] at taken left
  obtain ⟨exponent, read⟩ := literal.exponent_converts
  have present := run.present
  rcases literal.isFraction with same | ⟨digits, fraction, same⟩
  · have head := literal.isExponent.head delimited
    simp only [List.append_nil] at head
    simp only [Binary64.readUnsigned, magnitude, taken, left]
    rw [same, List.nil_append]
    split
    · rename_i text _ pointed
      exact absurd rfl (head '.' (by rw [pointed]; rfl)).2
    · simp [present, read, Binary64.ofDecimal_ne_notANumber]
  · have stops := fun c head => (literal.isExponent.head delimited c head).1
    have inner := fraction.takeWhile stops
    have after := fraction.dropWhile stops
    simp only [List.append_nil] at inner after
    simp only [Binary64.readUnsigned, magnitude, taken, left]
    simp [same, inner, after, present, read, Binary64.ofDecimal_ne_notANumber]

theorem toLower_of_isDigit {c : Char} (digit : c.isDigit = true) : c.toLower = c := by
  simp only [Char.isDigit, Bool.and_eq_true, decide_eq_true_eq, ge_iff_le] at digit
  unfold Char.toLower
  rw [dif_neg]
  intro upper
  have low := digit.2
  have high := upper.1
  simp only [UInt32.le_iff_toNat_le] at low high
  simp at low high
  omega

/-- Every number has a value, which is one or too large to be one: the text is none of the names of
numbers that are not finite. -/
theorem converts : ∃ value, Binary64.ofText? literal.text = some value ∧ value ≠ .notANumber := by
  obtain ⟨value, converted, isNumber⟩ := literal.unsigned_converts literal.negative
  obtain ⟨c, more, same, digit⟩ := literal.magnitude_head
  have unnamed : ∀ name : String, name.toList.all (fun c => !c.isDigit) = true →
      String.ofList ((c :: more).map Char.toLower) ≠ name := by
    rintro _ letters rfl
    simp [toLower_of_isDigit digit, digit] at letters
  have minus : c ≠ '-' := ne_of_isDigit digit (by decide)
  have plus : c ≠ '+' := ne_of_isDigit digit (by decide)
  refine ⟨value, ?_, isNumber⟩
  rw [same] at converted
  cases negative : literal.negative <;> rw [negative] at converted <;>
    simp only [Binary64.ofText?, text, negative, Bool.false_eq_true, if_false, if_true, same,
      List.cons_append, List.nil_append, List.cons.injEq, minus, plus, false_and, imp_self,
      implies_true] <;>
    split
  any_goals exact absurd ‹_› (unnamed _ (by decide))
  · exact converted
  · exact converted

end Literal

namespace Numeral

variable (numeral : Numeral)

/-- A numeral is a literal without leading zeros. -/
def literal : Literal :=
  ⟨numeral.negative, numeral.whole, numeral.fraction, numeral.exponent, numeral.isWhole.digits,
    numeral.isFraction, numeral.isExponent⟩

theorem text_head : ∃ c more, numeral.text = c :: more ∧ (c = '-' ∨ c.isDigit = true) :=
  numeral.literal.text_head

/-- The longest token at the start of a number is the whole number. -/
theorem next_append (delimited : Delimited rest) :
    Lexeme.next? (numeral.text ++ rest) = some ⟨"number", numeral.text, rest⟩ :=
  numeral.literal.next_append delimited

def value : Binary64 :=
  (Binary64.ofText? numeral.text).get (by
    obtain ⟨value, converted, _⟩ := numeral.literal.converts
    exact Option.isSome_of_eq_some converted)

end Numeral
end TokenGrammar.Json
