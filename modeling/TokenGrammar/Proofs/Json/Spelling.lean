import TokenGrammar.Json.Lexer
import TokenGrammar.Json.Quoted
import TokenGrammar.Json.StringLiteral

namespace TokenGrammar.Json

/-! How RFC 8259 spells a text as a string: each character as itself or by an escape, which may
be the UTF-16 units of the character in hexadecimal digits of either case. -/

inductive HexDigit : Char → Nat → Prop
  | decimal (small : value < 10) : HexDigit (Char.ofNat ('0'.toNat + value)) value
  | lower (small : value < 6) : HexDigit (Char.ofNat ('a'.toNat + value)) (10 + value)
  | upper (small : value < 6) : HexDigit (Char.ofNat ('A'.toNat + value)) (10 + value)

inductive SpellsUnit : Nat → List Char → Prop
  | mk (first : HexDigit a w) (second : HexDigit b x) (third : HexDigit c y)
      (fourth : HexDigit d z) :
      SpellsUnit (((w * 16 + x) * 16 + y) * 16 + z) [a, b, c, d]

def shortEscapes : List (Char × Char) :=
  [('"', '"'), ('\\', '\\'), ('/', '/'), ('\x08', 'b'), ('\x0c', 'f'), ('\n', 'n'), ('\r', 'r'),
    ('\t', 't')]

inductive SpellsCharacter : Char → List Char → Prop
  | plain (printable : 0x20 ≤ c.toNat) (unquoted : c ≠ '"') (unescaped : c ≠ '\\') :
      SpellsCharacter c [c]
  | short (known : (c, mark) ∈ shortEscapes) : SpellsCharacter c ['\\', mark]
  | unit (spells : SpellsUnit c.toNat digits) : SpellsCharacter c ('\\' :: 'u' :: digits)
  | pair (supplementary : 0x10000 ≤ c.toNat)
      (high : SpellsUnit (0xD800 + (c.toNat - 0x10000) / 0x400) first)
      (low : SpellsUnit (0xDC00 + (c.toNat - 0x10000) % 0x400) second) :
      SpellsCharacter c ('\\' :: 'u' :: first ++ '\\' :: 'u' :: second)

inductive SpellsCharacters : List Char → List Char → Prop
  | nil : SpellsCharacters [] []
  | cons (head : SpellsCharacter c text) (tail : SpellsCharacters rest more) :
      SpellsCharacters (c :: rest) (text ++ more)

def SpellsString (value : String) (text : List Char) : Prop :=
  ∃ body, SpellsCharacters value.toList body ∧ text = '"' :: (body ++ ['"'])

/-! The digits of a unit. -/

theorem HexDigit.digit (hex : HexDigit c value) : Text.digit? 16 c = some value := by
  have decimals : ∀ value < 10, Text.digit? 16 (Char.ofNat ('0'.toNat + value)) = some value := by
    decide
  have lowers : ∀ value < 6,
      Text.digit? 16 (Char.ofNat ('a'.toNat + value)) = some (10 + value) := by
    decide
  have uppers : ∀ value < 6,
      Text.digit? 16 (Char.ofNat ('A'.toNat + value)) = some (10 + value) := by
    decide
  cases hex with
  | decimal small => exact decimals _ small
  | lower small => exact lowers _ small
  | upper small => exact uppers _ small

theorem SpellsUnit.readUnit (spells : SpellsUnit unit text) (rest : List Char) :
    Json.readUnit (text ++ rest) = some (unit, rest) := by
  obtain ⟨first, second, third, fourth⟩ := spells
  simp [Json.readUnit, Text.readRadix, first.digit, second.digit, third.digit, fourth.digit]

/-! Cutting a string out of a text. -/

/-- A character that does not end a string and does not begin an escape. -/
def Inert (c : Char) : Prop := c ≠ '"' ∧ c ≠ '\\'

theorem HexDigit.inert (hex : HexDigit c value) : Inert c := by
  have digit := hex.digit
  refine ⟨?_, ?_⟩
  · rintro rfl
    have none : Text.digit? 16 '"' = none := by decide
    simp [none] at digit
  · rintro rfl
    have none : Text.digit? 16 '\\' = none := by decide
    simp [none] at digit

theorem SpellsUnit.inert (spells : SpellsUnit unit text) : ∀ c ∈ text, Inert c := by
  obtain ⟨first, second, third, fourth⟩ := spells
  simp [first.inert, second.inert, third.inert, fourth.inert]

theorem stringRest_inert {text : List Char} (inert : ∀ c ∈ text, Inert c) (rest : List Char) :
    Lexeme.stringRest (text ++ rest) =
      (Lexeme.stringRest rest).map fun (taken, left) => (text ++ taken, left) := by
  induction text with
  | nil => simp
  | cons c text ih =>
      obtain ⟨unquoted, unescaped⟩ := inert c (by simp)
      have later := ih fun other member => inert other (by simp [member])
      simp [Lexeme.stringRest, unescaped, later, Function.comp_def]

theorem stringRest_escape {mark : Char} (feed : mark ≠ '\n') {text : List Char}
    (inert : ∀ c ∈ text, Inert c) (rest : List Char) :
    Lexeme.stringRest ('\\' :: mark :: (text ++ rest)) =
      (Lexeme.stringRest rest).map fun (taken, left) => ('\\' :: mark :: (text ++ taken), left) := by
  simp [Lexeme.stringRest, feed, stringRest_inert inert, Function.comp_def]

theorem SpellsCharacter.stringRest (spells : SpellsCharacter c text) (rest : List Char) :
    Lexeme.stringRest (text ++ rest) =
      (Lexeme.stringRest rest).map fun (taken, left) => (text ++ taken, left) := by
  cases spells with
  | plain printable unquoted unescaped =>
      exact stringRest_inert (by simpa using ⟨unquoted, unescaped⟩) rest
  | short known =>
      have apart : ∀ entry ∈ shortEscapes, entry.2 ≠ '\n' := by simp [shortEscapes]
      simpa using stringRest_escape (apart _ known) (List.forall_mem_nil Inert) rest
  | unit digits => simpa using stringRest_escape (by decide) digits.inert rest
  | @pair _ second first supplementary high low =>
      have inner := stringRest_escape (by decide : 'u' ≠ '\n') low.inert rest
      have outer := stringRest_escape (by decide : 'u' ≠ '\n') high.inert
        ('\\' :: 'u' :: (second ++ rest))
      simp [outer, inner, Function.comp_def]

theorem SpellsCharacters.stringRest (spells : SpellsCharacters value text) (rest : List Char) :
    Lexeme.stringRest (text ++ '"' :: rest) = some (text ++ ['"'], rest) := by
  induction spells with
  | nil => rfl
  | cons head tail ih => simp [head.stringRest, ih]

/-- The longest token at the start of a string is the whole string. -/
theorem SpellsString.next_append (spells : SpellsString value text) (rest : List Char) :
    Lexeme.next? (text ++ rest) = some ⟨"string", text, rest⟩ := by
  obtain ⟨body, spells, rfl⟩ := spells
  have cut := spells.stringRest rest
  simp [Lexeme.next?, cut]

/-! Reading a string. -/

theorem toNat_not_surrogate (c : Char) : c.toNat < 0xD800 ∨ 0xDFFF < c.toNat := by
  rcases c.valid with low | ⟨high, _⟩
  · exact .inl low
  · exact .inr high

theorem SpellsUnit.readUnicode {c : Char} (spells : SpellsUnit c.toNat text) (rest : List Char) :
    Json.readUnicode (text ++ rest) = some (c, rest) := by
  have low : isLowSurrogate c.toNat = false := by
    have := toNat_not_surrogate c
    simp only [isLowSurrogate, decide_eq_false_iff_not]
    omega
  have high : isHighSurrogate c.toNat = false := by
    have := toNat_not_surrogate c
    simp only [isHighSurrogate, decide_eq_false_iff_not]
    omega
  simp [Json.readUnicode, spells.readUnit, low, high]

theorem readUnicode_of_units {first second rest : List Char} {unit low : Nat}
    (high : SpellsUnit unit first) (lower : SpellsUnit low second)
    (notLow : isLowSurrogate unit = false) (isHigh : isHighSurrogate unit = true)
    (isLow : isLowSurrogate low = true) :
    Json.readUnicode (first ++ '\\' :: 'u' :: (second ++ rest)) =
      some (Char.ofNat (0x10000 + (unit - 0xD800) * 0x400 + (low - 0xDC00)), rest) := by
  simp [Json.readUnicode, high.readUnit, lower.readUnit, notLow, isHigh, isLow]

/-- The two surrogates of a character stand for it. -/
theorem readUnicode_pair {c : Char} (supplementary : 0x10000 ≤ c.toNat)
    (high : SpellsUnit (0xD800 + (c.toNat - 0x10000) / 0x400) first)
    (low : SpellsUnit (0xDC00 + (c.toNat - 0x10000) % 0x400) second) (rest : List Char) :
    Json.readUnicode (first ++ '\\' :: 'u' :: (second ++ rest)) = some (c, rest) := by
  have small : c.toNat < 0x110000 := by
    rcases c.valid with low | ⟨_, high⟩
    · exact Nat.lt_trans low (by decide)
    · exact high
  have notLow : isLowSurrogate (0xD800 + (c.toNat - 0x10000) / 0x400) = false := by
    simp only [isLowSurrogate, decide_eq_false_iff_not]
    omega
  have isHigh : isHighSurrogate (0xD800 + (c.toNat - 0x10000) / 0x400) = true := by
    simp only [isHighSurrogate, decide_eq_true_eq]
    omega
  have isLow : isLowSurrogate (0xDC00 + (c.toNat - 0x10000) % 0x400) = true := by
    simp only [isLowSurrogate, decide_eq_true_eq]
    omega
  have together : 0x10000 + (0xD800 + (c.toNat - 0x10000) / 0x400 - 0xD800) * 0x400 +
      (0xDC00 + (c.toNat - 0x10000) % 0x400 - 0xDC00) = c.toNat := by
    omega
  rw [readUnicode_of_units high low notLow isHigh isLow, together, Char.ofNat_toNat]

theorem SpellsCharacter.read (spells : SpellsCharacter c text) (rest : List Char) :
    readCharacter (text ++ rest) = some (c, rest) := by
  cases spells with
  | plain printable unquoted unescaped =>
      simp [readCharacter, printable]
  | @short _ mark known =>
      have reads : ∀ entry ∈ shortEscapes, readEscape (entry.2 :: rest) = some (entry.1, rest) := by
        simp [shortEscapes, readEscape]
      exact reads _ known
  | unit digits => simpa [readCharacter, readEscape] using digits.readUnicode rest
  | pair supplementary high low =>
      simpa [readCharacter, readEscape] using readUnicode_pair supplementary high low rest

/-- The spelling of a character does not begin with the quote that would end the string. -/
theorem SpellsCharacter.head (spells : SpellsCharacter c text) :
    ∃ first more, text = first :: more ∧ first ≠ '"' := by
  cases spells with
  | plain printable unquoted unescaped => exact ⟨c, [], rfl, unquoted⟩
  | short | unit | pair => exact ⟨_, _, rfl, by decide⟩

theorem SpellsCharacters.length_le (spells : SpellsCharacters value text) :
    value.length ≤ text.length := by
  induction spells with
  | nil => exact Nat.le_refl _
  | cons head tail ih =>
      obtain ⟨first, more, rfl, _⟩ := head.head
      simp only [List.length_append, List.length_cons]
      omega

theorem SpellsCharacters.read (spells : SpellsCharacters value text) {bound : Nat}
    (enough : value.length ≤ bound) (rest : List Char) :
    readCharacters bound (text ++ '"' :: rest) = some (value, rest) := by
  induction spells generalizing bound with
  | nil => cases bound <;> rfl
  | @cons c text others more head tail ih =>
      obtain ⟨bound, rfl⟩ : ∃ less, bound = less + 1 := ⟨bound - 1, by simp at enough; omega⟩
      have own := head.read (more ++ '"' :: rest)
      have later := ih (by simpa using enough)
      obtain ⟨first, left, rfl, unquoted⟩ := head.head
      simp only [List.cons_append, List.append_assoc] at own ⊢
      simp [readCharacters, unquoted, own, later]

/-- A string is read as the text that it spells. -/
theorem SpellsString.unquote (spells : SpellsString value text) :
    unquote? (String.ofList text) = some value := by
  obtain ⟨body, spells, rfl⟩ := spells
  have enough : value.toList.length ≤ body.length + 1 :=
    Nat.le_trans spells.length_le (Nat.le_succ _)
  have read := spells.read enough []
  simp [unquote?, isBlank, read]

example : unquote? "\"\\ud83D\\uDE00\\u00e9\"" =
    some (String.ofList [Char.ofNat 0x1F600, Char.ofNat 0xE9]) := by
  decide +kernel

/-! Writing a string. -/

theorem hexDigit_digitChar {value : Nat} (small : value < 16) :
    HexDigit (Nat.digitChar value) value := by
  by_cases decimal : value < 10
  · have same : ∀ value < 10, Nat.digitChar value = Char.ofNat ('0'.toNat + value) := by decide
    rw [same value decimal]
    exact .decimal decimal
  · obtain ⟨rest, rfl⟩ : ∃ rest, value = 10 + rest := ⟨value - 10, by omega⟩
    have same : ∀ rest < 6, Nat.digitChar (10 + rest) = Char.ofNat ('a'.toNat + rest) := by decide
    rw [same rest (by omega)]
    exact .lower (by omega)

theorem spellsUnit_hexDigits {value : Nat} (small : value < 0x10000) :
    SpellsUnit value (hexDigits 4 value) := by
  have digit (value : Nat) : HexDigit (Nat.digitChar (value % 16)) (value % 16) :=
    hexDigit_digitChar (Nat.mod_lt _ (by decide))
  have spelled := SpellsUnit.mk (digit (value / 16 / 16 / 16)) (digit (value / 16 / 16))
    (digit (value / 16)) (digit value)
  have whole : ((value / 16 / 16 / 16 % 16 * 16 + value / 16 / 16 % 16) * 16 +
      value / 16 % 16) * 16 + value % 16 = value := by
    omega
  rw [whole] at spelled
  simpa [hexDigits] using spelled

theorem quoteCharacter_spells (c : Char) : SpellsCharacter c (quoteCharacter c) := by
  unfold quoteCharacter
  split
  any_goals exact .short (by decide)
  rename_i unquoted unescaped _ _ _ _ _
  split
  · rename_i control
    exact .unit (spellsUnit_hexDigits (by omega))
  · rename_i control
    exact .plain (by omega) unquoted unescaped

theorem quoteCharacters_spells (text : List Char) :
    SpellsCharacters text (text.flatMap quoteCharacter) := by
  induction text with
  | nil => exact .nil
  | cons c rest ih => exact .cons (quoteCharacter_spells c) ih

/-- What is printed for a string spells it. -/
theorem quoted_spells (value : String) : SpellsString value (quoted value).toList :=
  ⟨_, quoteCharacters_spells value.toList, by simp [quoted, quoteCharacters]⟩

end TokenGrammar.Json
