import TokenGrammar.Lexer.Table
import TokenGrammar.Proofs.Json.Separation
import TokenGrammar.Proofs.Pattern.Spelling

namespace TokenGrammar.Json

/-! # The patterns of JSON tokens

The lexer goes by the characters that tokens begin with. What it takes is said here by patterns: at
each place of a text it takes the longest piece that any of them stands for, and it stops where none
of them stands for any. -/

open Pattern

/-- The kinds of pieces. The first is skipped. -/
def tokenDefinitions : List TokenDefinition := [
  { pattern := r"[ \t\r\n\f]+" },
  { pattern := "null", name := "null" },
  { pattern := "true", name := "bool" },
  { pattern := "false", name := "bool" },
  { pattern := r"[{},:\[\]]", name := "op" },
  { pattern := r#""([^"\\]|\\.)*""#, name := "string" },
  { pattern := r"-?[0-9]+(\.[0-9]+)?([eE][-+]?[0-9]+)?", name := "number" }]

/-- A definition under some name has a pattern that stands for a text. -/
def Allows (name : Option String) (text : List Char) : Prop :=
  ∃ definition ∈ tokenDefinitions, definition.name = name ∧
    ∃ pattern, ofText definition.pattern.toList = .ok pattern ∧ pattern.Spells text

/-- The longest piece at the start of a text. -/
structure Longest (name : Option String) (taken rest : List Char) : Prop where
  allows : Allows name taken
  longest : ∀ other longer left, Allows other longer → taken ++ rest = longer ++ left →
    longer.length ≤ taken.length

/-- What comes of a text from an offset on: its pieces, each of them the longest, or the offset
where no definition allows any. -/
inductive Munches : Nat → List Char → Except LexError (List Token) → Prop
  | done : Munches offset [] (.ok [])
  | skip (piece : Longest none taken rest)
      (later : Munches (offset + Text.byteLength taken) rest outcome) :
      Munches offset (taken ++ rest) outcome
  | token (piece : Longest (some type) taken rest)
      (later : Munches (offset + Text.byteLength taken) rest outcome) :
      Munches offset (taken ++ rest) (outcome.map (.ordinary type (String.ofList taken) :: ·))
  | stuck (present : text ≠ []) (unallowed : ∀ name taken rest, text = taken ++ rest →
      ¬ Allows name taken) : Munches offset text (.error (.noMatch offset))

section Spelling

variable {text body rest : List Char}

def blankPattern : Pattern := repeated true 1 none (one (.listed [' ', '\t', '\r', '\n', '\x0c']))

theorem spells_blank :
    blankPattern.Spells text ↔ text ≠ [] ∧ ∀ c ∈ text, Lexeme.isBlank c = true := by
  have same (c : Char) : (CharSet.listed [' ', '\t', '\r', '\n', '\x0c']).contains c = true ↔
      Lexeme.isBlank c = true := by
    simp [CharSet.listed_contains, Lexeme.isBlank, or_assoc]
  simp only [blankPattern, spells_run, same]

def markPattern : Pattern := one (.listed ['\x7b', '\x7d', ',', ':', '[', ']'])

theorem spells_mark :
    markPattern.Spells text ↔ ∃ c, Lexeme.isPunctuation c = true ∧ text = [c] := by
  simp [markPattern, CharSet.listed_contains, Lexeme.isPunctuation, or_assoc]

/-- One character of a string, or a backslash with the character after it. -/
def stringPart : Pattern :=
  either (one (.complement (.listed ['"', '\\'])))
    (seq (one (.one '\\')) (one (.complement (.one '\n'))))

def stringPattern : Pattern :=
  seq (one (.one '"')) (seq (repeated true 0 none stringPart) (one (.one '"')))

theorem spells_stringPart : stringPart.Spells text ↔
    (∃ c, (c ≠ '"' ∧ c ≠ '\\') ∧ text = [c]) ∨ ∃ c, c ≠ '\n' ∧ text = ['\\', c] := by
  simp [stringPart, CharSet.contains, CharSet.contains_one, ← Bool.not_eq_true,
    CharSet.listed_contains, eq_comm (a := '\n')]

theorem spells_string : stringPattern.Spells text ↔ ∃ parts : List (List Char),
    (∀ part ∈ parts, stringPart.Spells part) ∧ text = '"' :: (parts.flatten ++ ['"']) := by
  simp [stringPattern, spells_any, CharSet.contains_one]

theorem stringRest_parts {parts : List (List Char)}
    (each : ∀ part ∈ parts, stringPart.Spells part) (other : List Char) :
    Lexeme.stringRest (parts.flatten ++ '"' :: other) = some (parts.flatten ++ ['"'], other) := by
  induction parts with
  | nil => rfl
  | cons part parts ih =>
      have read := ih fun part member => each part (by simp [member])
      rcases spells_stringPart.mp (each part (by simp)) with ⟨c, plain, rfl⟩ | ⟨c, feed, rfl⟩
      · simp [Lexeme.stringRest, plain, read]
      · simp [Lexeme.stringRest, feed, read]

theorem parts_of_stringRest (read : Lexeme.stringRest text = some (body, rest)) :
    ∃ parts : List (List Char), (∀ part ∈ parts, stringPart.Spells part) ∧
      body = parts.flatten ++ ['"'] := by
  fun_induction Lexeme.stringRest text generalizing body rest with
  | case1 => cases read
  | case2 =>
      cases read
      exact ⟨[], by simp⟩
  | case3 => cases read
  | case4 => cases read
  | case5 c text feed ih =>
      obtain ⟨⟨more, left⟩, read, same⟩ := Option.map_eq_some_iff.mp read
      cases same
      obtain ⟨parts, each, rfl⟩ := ih read
      refine ⟨['\\', c] :: parts, ?_, by simp⟩
      exact List.forall_mem_cons.mpr ⟨spells_stringPart.mpr (.inr ⟨c, feed, rfl⟩), each⟩
  | case6 c text quote lone escape ih =>
      obtain ⟨⟨more, left⟩, read, same⟩ := Option.map_eq_some_iff.mp read
      cases same
      obtain ⟨parts, each, rfl⟩ := ih read
      have plain : c ≠ '\\' := by
        rintro rfl
        cases text with
        | nil => exact lone rfl rfl
        | cons d text => exact escape d text rfl rfl
      refine ⟨[c] :: parts, ?_, by simp⟩
      exact List.forall_mem_cons.mpr ⟨spells_stringPart.mpr (.inl ⟨c, ⟨quote, plain⟩, rfl⟩), each⟩

def digitsPattern : Pattern := repeated true 1 none (one .decimal)

def fractionPattern : Pattern := repeated true 0 (some 1) (seq (one (.one '.')) digitsPattern)

def signPattern : Pattern := repeated true 0 (some 1) (one (.union (.one '-') (.one '+')))

def exponentPattern : Pattern :=
  repeated true 0 (some 1) (seq (one (.listed ['e', 'E'])) (seq signPattern digitsPattern))

def numberPattern : Pattern :=
  seq (repeated true 0 (some 1) (one (.one '-')))
    (seq digitsPattern (seq fractionPattern exponentPattern))

theorem spells_digits : digitsPattern.Spells text ↔ Digits text := by
  simp only [digitsPattern, spells_run, CharSet.decimal_contains]
  exact ⟨fun ⟨present, digits⟩ => ⟨present, digits⟩, fun ⟨present, digits⟩ => ⟨present, digits⟩⟩

theorem spells_fraction : fractionPattern.Spells text ↔ IsFraction text := by
  simp [fractionPattern, spells_optional, spells_digits, CharSet.contains_one, IsFraction]

theorem spells_sign : signPattern.Spells text ↔ text ∈ [[], ['-'], ['+']] := by
  simp [signPattern, spells_optional, CharSet.contains, CharSet.contains_one, or_and_right,
    exists_or]

theorem spells_exponent : exponentPattern.Spells text ↔ IsExponent text := by
  simp only [exponentPattern, spells_optional, spells_seq, spells_one, spells_sign, spells_digits,
    CharSet.listed_contains]
  refine or_congr_right ⟨?_, ?_⟩
  · rintro ⟨_, _, ⟨mark, letter, rfl⟩, ⟨sign, digits, signs, run, rfl⟩, rfl⟩
    exact ⟨mark, sign, digits, by simpa using letter, signs, run, rfl⟩
  · rintro ⟨mark, sign, digits, letter, signs, run, rfl⟩
    exact ⟨[mark], _, ⟨mark, by simpa using letter, rfl⟩, ⟨sign, digits, signs, run, rfl⟩, rfl⟩

theorem spells_number : numberPattern.Spells text ↔ ∃ literal : Literal, literal.text = text := by
  simp only [numberPattern, spells_seq, spells_optional, spells_one, spells_digits, spells_fraction,
    spells_exponent, CharSet.contains_one, beq_iff_eq]
  constructor
  · rintro ⟨_, _, minus,
      ⟨whole, _, run, ⟨fraction, exponent, isFraction, isExponent, rfl⟩, rfl⟩, rfl⟩
    rcases minus with rfl | ⟨_, rfl, rfl⟩
    · exact ⟨⟨false, whole, fraction, exponent, run, isFraction, isExponent⟩, rfl⟩
    · exact ⟨⟨true, whole, fraction, exponent, run, isFraction, isExponent⟩, rfl⟩
  · rintro ⟨⟨negative, whole, fraction, exponent, run, isFraction, isExponent⟩, rfl⟩
    refine ⟨if negative then ['-'] else [], _, ?_, ⟨whole, _, run,
      ⟨fraction, exponent, isFraction, isExponent, rfl⟩, rfl⟩, rfl⟩
    cases negative with
    | false => exact .inl rfl
    | true => exact .inr ⟨'-', rfl, rfl⟩

theorem allows_iff {name : Option String} : Allows name text ↔
    none = name ∧ blankPattern.Spells text ∨
      some "null" = name ∧ text = "null".toList ∨
      some "bool" = name ∧ text = "true".toList ∨
      some "bool" = name ∧ text = "false".toList ∨
      some "op" = name ∧ markPattern.Spells text ∨
      some "string" = name ∧ stringPattern.Spells text ∨
      some "number" = name ∧ numberPattern.Spells text := by
  have blank : ofText r"[ \t\r\n\f]+".toList = .ok blankPattern := rfl
  have null : ofText "null".toList = .ok (word "null".toList) := rfl
  have true : ofText "true".toList = .ok (word "true".toList) := rfl
  have false : ofText "false".toList = .ok (word "false".toList) := rfl
  have mark : ofText r"[{},:\[\]]".toList = .ok markPattern := rfl
  have string : ofText r#""([^"\\]|\\.)*""#.toList = .ok stringPattern := rfl
  have number : ofText r"-?[0-9]+(\.[0-9]+)?([eE][-+]?[0-9]+)?".toList = .ok numberPattern := rfl
  simp only [Allows, tokenDefinitions, List.exists_mem_cons_iff, List.not_mem_nil, false_and,
    exists_false, or_false, blank, null, true, false, mark, string, number, Except.ok.injEq,
    exists_eq_left', spells_word]

theorem allows_none : Allows none text ↔ text ≠ [] ∧ ∀ c ∈ text, Lexeme.isBlank c = true := by
  simp [allows_iff, spells_blank]

/-- The definitions allow the words of their types. -/
theorem allows_some {type : String} : Allows (some type) text ↔ Lexeme.Word type text := by
  rw [allows_iff, spells_mark, spells_string, spells_number]
  constructor
  · rintro (⟨named, _⟩ | ⟨named, rfl⟩ | ⟨named, rfl⟩ | ⟨named, rfl⟩ | ⟨named, c, punctuation, rfl⟩ |
      ⟨named, parts, each, rfl⟩ | ⟨named, literal, rfl⟩) <;> cases named
    · exact .null
    · exact .bool (by simp)
    · exact .bool (by simp)
    · exact .mark punctuation
    · exact .string fun other => by simpa using stringRest_parts each other
    · exact .number literal
  · intro word
    cases word with
    | null => exact .inr (.inl ⟨rfl, rfl⟩)
    | bool word =>
        simp only [List.mem_cons, List.not_mem_nil, or_false] at word
        rcases word with rfl | rfl
        · exact .inr (.inr (.inl ⟨rfl, rfl⟩))
        · exact .inr (.inr (.inr (.inl ⟨rfl, rfl⟩)))
    | mark punctuation => exact .inr (.inr (.inr (.inr (.inl ⟨rfl, _, punctuation, rfl⟩))))
    | string closed =>
        obtain ⟨parts, each, rfl⟩ := parts_of_stringRest (closed [])
        exact .inr (.inr (.inr (.inr (.inr (.inl ⟨rfl, parts, each, rfl⟩)))))
    | number literal => exact .inr (.inr (.inr (.inr (.inr (.inr ⟨rfl, literal, rfl⟩)))))

end Spelling

/-! Which piece is taken. -/

section Longest

variable {text taken rest : List Char} {type : String}

theorem unsigned_rest (digits : text.takeWhile Char.isDigit ≠ []) : ∃ taken,
    Lexeme.unsigned? text = some (taken,
      (Lexeme.exponent (Lexeme.fraction (text.dropWhile Char.isDigit)).2).2) := by
  unfold Lexeme.unsigned?
  split
  · exact absurd ‹_› digits
  · exact ⟨_, rfl⟩

theorem length_fraction (text : List Char) : (Lexeme.fraction text).2.length ≤ text.length := by
  have split := congrArg List.length (Lexeme.fraction_parts text).2
  rw [List.length_append] at split
  omega

theorem length_exponent (text : List Char) : (Lexeme.exponent text).2.length ≤ text.length := by
  have split := congrArg List.length (Lexeme.exponent_parts text).2
  rw [List.length_append] at split
  omega

theorem fraction_rest {digits : List Char} (run : Digits digits) (left : List Char) :
    (Lexeme.fraction ('.' :: (digits ++ left))).2 = left.dropWhile Char.isDigit := by
  have taken : (digits ++ left).takeWhile Char.isDigit = digits ++ left.takeWhile Char.isDigit :=
    List.takeWhile_append_of_pos run.digits
  have dropped : (digits ++ left).dropWhile Char.isDigit = left.dropWhile Char.isDigit :=
    List.dropWhile_append_of_pos run.digits
  obtain ⟨c, more, rfl, _⟩ := run.cases_head
  simp only [Lexeme.fraction]
  rw [taken, dropped]
  rfl

theorem exponent_rest {mark : Char} {sign digits : List Char} (letter : mark = 'e' ∨ mark = 'E')
    (signs : sign ∈ [[], ['-'], ['+']]) (run : Digits digits) (left : List Char) :
    (Lexeme.exponent (mark :: (sign ++ (digits ++ left)))).2 = left.dropWhile Char.isDigit := by
  have taken : (digits ++ left).takeWhile Char.isDigit = digits ++ left.takeWhile Char.isDigit :=
    List.takeWhile_append_of_pos run.digits
  have dropped : (digits ++ left).dropWhile Char.isDigit = left.dropWhile Char.isDigit :=
    List.dropWhile_append_of_pos run.digits
  have signed : Lexeme.sign (sign ++ (digits ++ left)) = (sign, digits ++ left) :=
    Lexeme.sign_append signs run
  obtain ⟨c, more, rfl, _⟩ := run.cases_head
  simp only [Lexeme.exponent, if_pos letter, signed]
  rw [taken, dropped]
  rfl

/-- From a text that begins with a number, at least that number is taken. -/
theorem Literal.unsigned_longer (literal : Literal) (left : List Char) : ∃ taken rest,
    Lexeme.unsigned? (literal.magnitude ++ left) = some (taken, rest) ∧
      rest.length ≤ left.length := by
  have run := literal.digits
  have shorter : (left.dropWhile Char.isDigit).length ≤ left.length := List.length_dropWhile_le ..
  have split : literal.magnitude ++ left =
      literal.whole ++ (literal.fraction ++ (literal.exponent ++ left)) := by
    simp [Literal.magnitude]
  have begins : (literal.magnitude ++ left).takeWhile Char.isDigit ≠ [] := by
    rw [split, List.takeWhile_append_of_pos run.digits]
    simp [run.present]
  obtain ⟨taken, read⟩ := unsigned_rest begins
  refine ⟨_, _, read, ?_⟩
  rw [split]
  rcases literal.isExponent with none | ⟨mark, sign, digits, letter, signs, more, same⟩
  · refine Nat.le_trans (length_exponent _) ?_
    rw [List.dropWhile_append_of_pos run.digits, none, List.nil_append]
    rcases literal.isFraction with none | ⟨digits, more, same⟩
    · rw [none]
      exact Nat.le_trans (length_fraction _) shorter
    · have point : (literal.fraction ++ left).dropWhile Char.isDigit = '.' :: (digits ++ left) := by
        rw [same]
        rfl
      rw [point, fraction_rest more]
      exact shorter
  · -- The mark is no digit and no point, so what stands before it is read as it is.
    have stops : ∀ c, (literal.exponent ++ left).head? = some c → c.isDigit = false ∧ c ≠ '.' := by
      rw [same]
      rintro _ ⟨⟩
      rcases letter with rfl | rfl <;> decide
    rw [run.dropWhile (literal.tail_stops stops), Lexeme.fraction_append literal.isFraction stops,
      same, List.cons_append, List.append_assoc, exponent_rest letter signs more]
    exact shorter

theorem Literal.number_longer (literal : Literal) (left : List Char) : ∃ taken rest,
    Lexeme.next? (literal.text ++ left) = some ⟨"number", taken, rest⟩ ∧
      rest.length ≤ left.length := by
  obtain ⟨taken, rest, read, shorter⟩ := literal.unsigned_longer left
  obtain ⟨c, more, same, begins⟩ := literal.text_head
  have number : Lexeme.next? (literal.text ++ left) = Lexeme.number? (literal.text ++ left) := by
    rw [same]
    exact Lexeme.next_of_number begins _
  rw [number]
  cases negative : literal.negative with
  | true =>
      refine ⟨'-' :: taken, rest, ?_, shorter⟩
      simp [Literal.text, negative, Lexeme.number?, read]
  | false =>
      obtain ⟨c, more, same, digit⟩ := literal.magnitude_head
      have minus : c ≠ '-' := ne_of_isDigit digit (by decide)
      rw [same, List.cons_append] at read
      refine ⟨taken, rest, ?_, shorter⟩
      simp [Literal.text, negative, same, Lexeme.number?, minus, read]

theorem Lexeme.Word.next_longer (word : Lexeme.Word type taken) (left : List Char) :
    ∃ longer rest, Lexeme.next? (taken ++ left) = some ⟨type, longer, rest⟩ ∧
      rest.length ≤ left.length := by
  cases word with
  | null => exact ⟨_, left, rfl, Nat.le_refl _⟩
  | bool word =>
      simp only [List.mem_cons, List.not_mem_nil, or_false] at word
      rcases word with rfl | rfl <;> exact ⟨_, left, rfl, Nat.le_refl _⟩
  | mark punctuation =>
      simp only [Lexeme.isPunctuation, Bool.or_eq_true, beq_iff_eq] at punctuation
      rcases punctuation with ((((rfl | rfl) | rfl) | rfl) | rfl) | rfl <;>
        exact ⟨_, left, rfl, Nat.le_refl _⟩
  | @string body closed =>
      exact ⟨'"' :: body, left, by simp [Lexeme.next?, closed], Nat.le_refl _⟩
  | number literal => exact literal.number_longer left

/-- Blank text and the words of tokens begin apart. -/
theorem Lexeme.Word.apart {blank left : List Char} (word : Lexeme.Word type taken)
    (blanks : ∀ c ∈ blank, Lexeme.isBlank c = true) (present : blank ≠ []) :
    taken ++ rest ≠ blank ++ left := by
  obtain ⟨c, more, rfl, visible⟩ := word.visible
  obtain ⟨d, others, rfl⟩ := List.exists_cons_of_ne_nil present
  intro same
  obtain rfl := (List.cons.inj same).1
  simp [blanks c (by simp)] at visible

/-- A token is taken if and only if it is the longest piece at its place. -/
theorem longest_iff : Longest (some type) taken rest ↔
    Lexeme.next? (taken ++ rest) = some ⟨type, taken, rest⟩ := by
  constructor
  · intro ⟨allows, longest⟩
    obtain ⟨longer, left, next, shorter⟩ := (allows_some.mp allows).next_longer rest
    obtain ⟨word, split⟩ := Lexeme.word_of_next next
    have bound := longest _ longer left (allows_some.mpr word) split
    have lengths := congrArg List.length split
    simp only [List.length_append] at lengths
    obtain ⟨rfl, rfl⟩ := List.append_inj split (by omega)
    exact next
  · intro next
    obtain ⟨word, _⟩ := Lexeme.word_of_next next
    refine ⟨allows_some.mpr word, fun other longer left allows split => ?_⟩
    cases other with
    | none =>
        obtain ⟨present, blanks⟩ := allows_none.mp allows
        exact absurd split (word.apart blanks present)
    | some other =>
        obtain ⟨_, _, again, shorter⟩ := (allows_some.mp allows).next_longer left
        rw [← split, next] at again
        cases again
        have lengths := congrArg List.length split
        simp only [List.length_append] at lengths
        omega

/-- A run of blanks is the longest piece where no blank follows it. -/
theorem longest_blank (present : taken ≠ []) (blanks : ∀ c ∈ taken, Lexeme.isBlank c = true)
    (stops : ∀ c, rest.head? = some c → Lexeme.isBlank c = false) : Longest none taken rest := by
  refine ⟨allows_none.mpr ⟨present, blanks⟩, fun other longer left allows split => ?_⟩
  cases other with
  | none =>
      obtain ⟨_, others⟩ := allows_none.mp allows
      have run := congrArg (List.takeWhile Lexeme.isBlank) split
      rw [List.takeWhile_append_of_pos blanks, List.takeWhile_append_of_pos others] at run
      have none : rest.takeWhile Lexeme.isBlank = [] := by
        cases rest with
        | nil => rfl
        | cons c rest => simp [stops c rfl]
      have lengths := congrArg List.length run
      simp only [none, List.append_nil, List.length_append] at lengths
      omega
  | some other => exact absurd split.symm ((allows_some.mp allows).apart blanks present)

theorem Allows.present {name : Option String} (allows : Allows name taken) : taken ≠ [] := by
  cases name with
  | none => exact (allows_none.mp allows).1
  | some type =>
      obtain ⟨c, more, same, _⟩ := (allows_some.mp allows).visible
      simp [same]

/-- Where any piece is allowed, one of them is the longest. -/
theorem exists_longest {name : Option String} (allows : Allows name taken)
    (split : text = taken ++ rest) :
    ∃ name longer left, text = longer ++ left ∧ Longest name longer left := by
  cases name with
  | none =>
      obtain ⟨present, blanks⟩ := allows_none.mp allows
      refine ⟨none, text.takeWhile Lexeme.isBlank, text.dropWhile Lexeme.isBlank,
        List.takeWhile_append_dropWhile.symm, longest_blank ?_ (fun c => List.mem_takeWhile_imp) ?_⟩
      · rw [split, List.takeWhile_append_of_pos blanks]
        simp [present]
      · intro c head
        have dropped : text.dropWhile Lexeme.isBlank ≠ [] := by
          rintro none
          simp [none] at head
        rw [List.head?_eq_some_head dropped, Option.some.injEq] at head
        rw [← head]
        exact List.head_dropWhile_not _ dropped
  | some type =>
      obtain ⟨longer, left, next, _⟩ := (allows_some.mp allows).next_longer rest
      obtain ⟨_, again⟩ := Lexeme.word_of_next next
      exact ⟨_, longer, left, split.trans again, longest_iff.mpr (again ▸ next)⟩

end Longest

/-! The whole text. -/

namespace Munches

variable {offset : Nat} {text : List Char} {outcome : Except LexError (List Token)}

theorem tokensFrom_blank {space rest : List Char} (blanks : ∀ c ∈ space, Lexeme.isBlank c = true)
    (later : ∀ steps, rest.length ≤ steps →
      tokensFrom steps (offset + Text.byteLength space) rest = outcome) {steps : Nat}
    (enough : (space ++ rest).length ≤ steps) :
    tokensFrom steps offset (space ++ rest) = outcome := by
  induction space generalizing offset steps with
  | nil => exact later steps enough
  | cons c space ih =>
      obtain ⟨steps, rfl⟩ : ∃ less, steps = less + 1 := ⟨steps - 1, by simp at enough; omega⟩
      have blank : Lexeme.isBlank c = true := blanks c (by simp)
      simp only [List.cons_append, tokensFrom, blank, if_true]
      refine ih (fun d member => blanks d (by simp [member])) (fun steps enough => ?_)
        (Nat.le_of_succ_le_succ enough)
      rw [Nat.add_assoc]
      exact later steps enough

theorem tokensFrom (munches : Munches offset text outcome) {steps : Nat}
    (enough : text.length ≤ steps) : Json.tokensFrom steps offset text = outcome := by
  induction munches generalizing steps with
  | done => cases steps <;> rfl
  | skip piece _ ih =>
      exact tokensFrom_blank (allows_none.mp piece.allows).2 (fun steps enough => ih enough) enough
  | @token type taken rest offset outcome piece _ ih =>
      have next := longest_iff.mp piece
      obtain ⟨c, more, rfl, visible⟩ := (allows_some.mp piece.allows).visible
      obtain ⟨steps, rfl⟩ : ∃ less, steps = less + 1 := ⟨steps - 1, by simp at enough; omega⟩
      have fewer : rest.length ≤ steps := by
        simp only [List.length_append, List.length_cons] at enough
        omega
      rw [List.cons_append] at next ⊢
      simp only [Json.tokensFrom, visible, next, ih fewer]
      cases outcome <;> rfl
  | @stuck text offset present unallowed =>
      -- Nothing is allowed, so there is neither a blank here nor a token.
      obtain ⟨c, rest, rfl⟩ := List.exists_cons_of_ne_nil present
      obtain ⟨steps, rfl⟩ : ∃ less, steps = less + 1 := ⟨steps - 1, by simp at enough; omega⟩
      have visible : Lexeme.isBlank c = false := by
        rw [← Bool.not_eq_true]
        exact fun blank => unallowed none [c] rest rfl (allows_none.mpr (by simpa using blank))
      have nothing : Lexeme.next? (c :: rest) = none := by
        rw [← Option.not_isSome_iff_eq_none]
        intro found
        obtain ⟨⟨type, taken, left⟩, next⟩ := Option.isSome_iff_exists.mp found
        obtain ⟨word, split⟩ := Lexeme.word_of_next next
        exact unallowed _ _ _ split (allows_some.mpr word)
      simp [Json.tokensFrom, visible, nothing]

theorem exists_outcome (offset : Nat) (text : List Char) :
    ∃ outcome, Munches offset text outcome := by
  induction length : text.length using Nat.strong_induction_on generalizing offset text with
  | _ size ih =>
      by_cases empty : text = []
      · subst empty
        exact ⟨_, .done⟩
      by_cases allowed : ∃ name taken rest, text = taken ++ rest ∧ Allows name taken
      · obtain ⟨_, _, _, split, allows⟩ := allowed
        obtain ⟨name, taken, rest, rfl, piece⟩ := exists_longest allows split
        have shorter : rest.length < size := by
          have present := List.length_pos_of_ne_nil piece.allows.present
          simp only [List.length_append] at length
          omega
        obtain ⟨outcome, later⟩ := ih _ shorter (offset + Text.byteLength taken) rest rfl
        cases name with
        | none => exact ⟨_, .skip piece later⟩
        | some type => exact ⟨_, .token piece later⟩
      · simp only [not_exists, not_and] at allowed
        exact ⟨_, .stuck empty allowed⟩

end Munches

/-- The lexer cuts a text where its longest pieces end. -/
theorem tokenise_iff {source : String} {outcome : Except LexError (List Token)} :
    tokenise source = outcome ↔ Munches 0 source.toList outcome := by
  constructor
  · intro read
    obtain ⟨other, munches⟩ := Munches.exists_outcome 0 source.toList
    rwa [← read, tokenise, munches.tokensFrom (Nat.le_refl _)]
  · exact fun munches => munches.tokensFrom (Nat.le_refl _)

end TokenGrammar.Json
