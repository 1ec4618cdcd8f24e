import TokenGrammar.Language.Sjson
import TokenGrammar.Proofs.Json.Numeral
import TokenGrammar.Proofs.Lexer.Steps
import TokenGrammar.Proofs.Pattern.Spelling

namespace TokenGrammar.Language.Sjson

open TokenGrammar.Json

/-! What the patterns of simplified JSON match. -/

/-- What a definition with some name takes from a text, and the text after it. -/
inductive Cut : Option String → List Char → List Char → Prop
  | space (spaces : ∀ c ∈ taken, Text.isSpace c = true) : Cut none taken rest
  | mark (punctuation : Lexeme.isPunctuation c = true) : Cut (some "op") [c] rest
  | string (unquoted : '"' ∉ body) : Cut (some "string") ('"' :: (body ++ ['"'])) rest
  | number (begins : c = '-' ∨ c.isDigit = true)
      (longest : Lexeme.exponent rest = ([], rest) →
        Lexeme.number? (c :: (more ++ rest)) = some ⟨"number", c :: more, rest⟩) :
      Cut (some "number") (c :: more) rest
  | bool (word : taken ∈ ["true".toList, "false".toList]) : Cut (some "bool") taken rest
  | null : Cut (some "null") "null".toList rest

open Pattern

/-- A pattern takes, at the start of any text, words of a kind. -/
def Takes (pattern : Pattern) (kind : List Char → List Char → Prop) : Prop :=
  ∀ text last, pattern.matchAt (.start text) = some last →
    ∃ taken left, text = taken ++ left ∧ last = (Spot.start text).past taken ∧ kind taken left

variable {kind : List Char → List Char → Prop}

theorem Takes.matches? {pattern : Pattern} {definition : TokenDefinition} (takes : Takes pattern kind)
    (read : ofText definition.pattern.toList = .ok pattern)
    (matched : definition.matches? (taken ++ rest) = some (Text.byteLength taken)) :
    kind taken rest := by
  rw [TokenDefinition.matches?, read] at matched
  obtain ⟨last, found, length⟩ := Option.map_eq_some_iff.mp matched
  obtain ⟨word, left, text, rfl, holds⟩ := takes _ last found
  have bytes : Text.byteLength word = Text.byteLength taken := by
    rw [← length, Spot.past_bytes]
    exact (Nat.zero_add _).symm
  have cut := Text.splitBytes_append word left
  rw [← text, bytes, Text.splitBytes_append] at cut
  cases cut
  exact holds

theorem Takes.weaken {pattern : Pattern} {other : List Char → List Char → Prop}
    (takes : Takes pattern kind) (each : ∀ {taken left}, kind taken left → other taken left) :
    Takes pattern other := by
  intro text last matched
  obtain ⟨taken, left, split, same, holds⟩ := takes text last matched
  exact ⟨taken, left, split, same, each holds⟩

theorem Takes.either {first second : Pattern} (takes : Takes first kind) (others : Takes second kind) :
    Takes (either first second) kind := by
  intro text last matched
  rcases (Option.orElse_eq_some _ _ _).mp matched with matched | ⟨_, matched⟩
  · exact takes text last matched
  · exact others text last matched

theorem Takes.word {characters : List Char} (holds : ∀ left, kind characters left) :
    Takes (word characters) kind := by
  intro text last matched
  obtain ⟨left, same, ends⟩ := of_word matched
  cases ends
  exact ⟨characters, left, same, rfl, holds left⟩

theorem Takes.one {set : CharSet} (holds : ∀ c left, set.contains c = true → kind [c] left) :
    Takes (one set) kind := by
  intro text last matched
  cases text with
  | nil => cases matched
  | cons c left =>
      cases member : set.contains c with
      | false =>
          rw [matchAt, one_fails (by simp [Spot.start, member])] at matched
          cases matched
      | true =>
          rw [matchAt, one_matches rfl member] at matched
          cases matched
          exact ⟨[c], left, rfl, rfl, holds c left member⟩

def spaces : Pattern := repeated true 1 none (one .space)

theorem spaces_takes : Takes spaces (Cut none) := by
  intro text last matched
  have ends : EndsRun .space (.start text) some := .inl rfl
  have whole := (plus_matches ends).symm.trans matched
  split at whole
  · cases whole
  · cases whole
    exact ⟨_, _, rest_run .space (.start text), rfl, .space fun c member => mem_run member⟩

def marks : CharSet := .listed ['[', ']', '\x7b', '\x7d', ',', ':']

theorem marks_contains (c : Char) : marks.contains c = Lexeme.isPunctuation c := by
  rw [Bool.eq_iff_iff, marks, CharSet.listed_contains]
  simp only [List.mem_cons, List.not_mem_nil, or_false, Lexeme.isPunctuation, Bool.or_eq_true,
    beq_iff_eq]
  tauto

def unquoted : CharSet := .complement (.listed ['"'])

theorem unquoted_contains {c : Char} : unquoted.contains c = true ↔ c ≠ '"' := by
  simp [unquoted, CharSet.contains, ← Bool.not_eq_true, CharSet.listed_contains]

def quoted : Pattern :=
  seq (word ['"']) (seq (repeated true 0 none (one unquoted)) (word ['"']))

theorem quoted_takes : Takes quoted (Cut (some "string")) := by
  intro text last matched
  obtain ⟨inside, begins, matched⟩ := of_word matched
  let place := (Spot.start text).past ['"']
  have closes : EndsRun unquoted place fun after => (word ['"']).matcher after some := by
    refine .inr fun spot c head member => one_fails fun other same => ?_
    cases head.symm.trans same
    rw [CharSet.contains_one, beq_eq_false_iff_ne]
    exact (unquoted_contains.mp member).symm
  obtain ⟨left, ends, done⟩ := of_word ((star_matches closes).symm.trans matched)
  cases done
  have whole : text = '"' :: inside := begins
  have rest : inside = run unquoted place ++ '"' :: left := by
    rw [← (Spot.past_rest begins : place.rest = inside), rest_run unquoted place, ends]
    rfl
  refine ⟨'"' :: (run unquoted place ++ ['"']), left, ?_, ?_, .string fun member => ?_⟩
  · simp [whole, rest]
  · rw [← Spot.past_append, ← Spot.past_append]
    rfl
  · exact unquoted_contains.mp (mem_run member) rfl

theorem run_decimal (spot : Spot) : run .decimal spot = spot.rest.takeWhile Char.isDigit := by
  rw [run, funext CharSet.decimal_contains]

def fraction : Pattern :=
  repeated true 0 (some 1) (seq (word ['.']) (repeated true 1 none (one .decimal)))

theorem fraction_matches (spot : Spot) :
    fraction.matcher spot some = some (spot.past (Lexeme.fraction spot.rest).1) := by
  have whole : fraction.matcher spot some = ((word ['.']).matcher spot
      (fun middle => (repeated true 1 none (one .decimal)).matcher middle some) <|> some spot) := rfl
  by_cases point : ∃ text, spot.rest = '.' :: text
  · obtain ⟨text, begins⟩ := point
    have behind : (spot.past ['.']).rest = text := Spot.past_rest begins
    have ends : EndsRun .decimal (spot.past ['.']) some := .inl rfl
    rw [whole, word_matches (begins : spot.rest = ['.'] ++ text), plus_matches ends, run_decimal,
      behind, begins, Lexeme.fraction]
    cases taken : text.takeWhile Char.isDigit with
    | nil => rfl
    | cons digit more => simp [← Spot.past_append]
  · have absent : (Lexeme.fraction spot.rest).1 = [] := by
      rw [Lexeme.fraction]
      exact fun text begins => point ⟨text, begins⟩
    have fails {next : Spot → Option Spot} : (word ['.']).matcher spot next = none := by
      refine one_fails fun c head => ?_
      rw [CharSet.contains_one, beq_eq_false_iff_ne]
      rintro rfl
      exact point (List.head?_eq_some_iff.mp head)
    rw [whole, absent, fails]
    rfl

def unsigned : Pattern := seq (repeated true 1 none (one .decimal)) fraction

theorem unsigned_matches (spot : Spot) : unsigned.matcher spot some =
    if spot.rest.takeWhile Char.isDigit = [] then none
    else some (spot.past (spot.rest.takeWhile Char.isDigit ++
      (Lexeme.fraction (spot.rest.dropWhile Char.isDigit)).1)) := by
  let behind := spot.past (run .decimal spot)
  have ends : EndsRun .decimal spot fun after => fraction.matcher after some :=
    .inl (Option.isSome_of_eq_some (fraction_matches behind))
  have whole : unsigned.matcher spot some = _ := plus_matches ends
  have left : (spot.past (spot.rest.takeWhile Char.isDigit)).rest = spot.rest.dropWhile Char.isDigit :=
    Spot.past_rest List.takeWhile_append_dropWhile.symm
  rw [whole, fraction_matches, run_decimal, left, Spot.past_append]

theorem of_unsigned (negative : Bool) (matched : unsigned.matcher spot some = some last) :
    ∃ (literal : Literal) (left : List Char), literal.negative = negative ∧ literal.exponent = [] ∧
      spot.rest = literal.magnitude ++ left ∧ last = spot.past literal.magnitude ∧
      (Lexeme.exponent left = ([], left) →
        Lexeme.unsigned? spot.rest = some (literal.magnitude, left)) := by
  rw [unsigned_matches] at matched
  split at matched
  · cases matched
  · rename_i present
    obtain ⟨c, more, same⟩ := List.exists_cons_of_ne_nil present
    obtain ⟨isFraction, split⟩ := Lexeme.fraction_parts (spot.rest.dropWhile Char.isDigit)
    have digits : Digits (spot.rest.takeWhile Char.isDigit) := same ▸ digits_of_takeWhile same
    refine ⟨⟨negative, _, _, [], digits, isFraction, .inl rfl⟩,
      (Lexeme.fraction (spot.rest.dropWhile Char.isDigit)).2, rfl, rfl, ?_, ?_, fun mark => ?_⟩
    · simp only [Literal.magnitude, List.append_nil, List.append_assoc]
      rw [← split, List.takeWhile_append_dropWhile]
    · cases matched
      simp [Literal.magnitude]
    · simp [Lexeme.unsigned?, Literal.magnitude, same, mark]

def number : Pattern := seq (repeated true 0 (some 1) (word ['-'])) unsigned

/-- A number without an exponent. -/
def IsNumber (text : List Char) : Prop := ∃ literal : Literal, literal.exponent = [] ∧ literal.text = text

/-- JSON takes the same number, unless it goes on with an exponent. -/
theorem number_takes : Takes number fun taken left => IsNumber taken ∧
    (Lexeme.exponent left = ([], left) →
      Lexeme.number? (taken ++ left) = some ⟨"number", taken, left⟩) := by
  intro text last matched
  have ways := (optional_matcher (word ['-'])).symm.trans matched
  rcases (Option.orElse_eq_some _ _ _).mp ways with negative | ⟨_, positive⟩
  · obtain ⟨inside, begins, matched⟩ := of_word negative
    have behind : ((Spot.start text).past ['-']).rest = inside := Spot.past_rest begins
    obtain ⟨literal, left, signed, plain, split, rfl, read⟩ := of_unsigned true matched
    have whole : literal.text = '-' :: literal.magnitude := by simp [Literal.text, signed]
    rw [behind] at split read
    refine ⟨literal.text, left, ?_, by rw [whole]; rfl, ⟨literal, plain, rfl⟩, fun mark => ?_⟩
    · rw [whole, List.cons_append, ← split]
      exact begins
    · simp [whole, Lexeme.number?, ← split, read mark]
  · obtain ⟨literal, left, signed, plain, split, rfl, read⟩ := of_unsigned false positive
    have whole : literal.text = literal.magnitude := by simp [Literal.text, signed]
    have own : text = literal.magnitude ++ left := split
    refine ⟨literal.text, left, by rw [whole]; exact own, by rw [whole], ⟨literal, plain, rfl⟩, fun mark => ?_⟩
    obtain ⟨c, more, same, digit⟩ := literal.magnitude_head
    have minus : c ≠ '-' := ne_of_isDigit digit (by decide)
    have unsigned : Lexeme.unsigned? (literal.magnitude ++ left) = some (literal.magnitude, left) :=
      own ▸ read mark
    rw [whole]
    rw [same] at unsigned ⊢
    rw [List.cons_append] at unsigned ⊢
    simp [Lexeme.number?, minus, unsigned]

theorem cut_of_number (taken : IsNumber text) (longest : Lexeme.exponent rest = ([], rest) →
    Lexeme.number? (text ++ rest) = some ⟨"number", text, rest⟩) : Cut (some "number") text rest := by
  obtain ⟨literal, _, rfl⟩ := taken
  obtain ⟨c, more, same, begins⟩ := literal.text_head
  rw [same] at longest ⊢
  exact .number begins longest

def boolean : Pattern := either (word "true".toList) (word "false".toList)

theorem cut_of_matches {definition : TokenDefinition} (member : definition ∈ definitions)
    (matched : definition.matches? (taken ++ rest) = some (Text.byteLength taken)) :
    Cut definition.name taken rest := by
  have marks_takes : Takes (one marks) (Cut (some "op")) :=
    .one fun c left member => .mark ((marks_contains c).symm.trans member)
  have boolean_takes : Takes boolean (Cut (some "bool")) :=
    .either (.word fun left => .bool (by simp)) (.word fun left => .bool (by simp))
  have null_takes : Takes (word "null".toList) (Cut (some "null")) := .word fun left => .null
  simp only [definitions, List.mem_cons, List.not_mem_nil, or_false] at member
  rcases member with rfl | rfl | rfl | rfl | rfl | rfl
  · exact spaces_takes.matches? rfl matched
  · exact marks_takes.matches? rfl matched
  · exact quoted_takes.matches? rfl matched
  · obtain ⟨taken, longest⟩ := number_takes.matches? rfl matched
    exact cut_of_number taken longest
  · exact boolean_takes.matches? rfl matched
  · exact null_takes.matches? rfl matched

end TokenGrammar.Language.Sjson
