import TokenGrammar.Language.Document
import TokenGrammar.Proofs.Language.Kinds

namespace TokenGrammar.Language

open Pattern TokenGrammar.Json

/-! In each language the tokens of a text are those of the text that has each of them on a line of its
own. -/

namespace Kind

/-- One character of certain ranges. -/
def mark (name pattern : String) (ranges : CodeRanges)
    (standalone : Standalone pattern.toList (one (.ofRanges ranges))) : Kind where
  name
  pattern
  expression := one (.ofRanges ranges)
  standalone
  begins := ranges
  word text := ∃ c, ranges.contains c = true ∧ text = [c]
  head := by
    rintro _ ⟨c, member, rfl⟩
    exact ⟨c, [], rfl, member⟩
  takes := .one fun c _ member => ⟨c, (CharSet.contains_ofRanges ranges c).symm.trans member, rfl⟩
  gives := by
    rintro _ rest ⟨c, member, rfl⟩ _
    rw [matchAt, one_matches rfl ((CharSet.contains_ofRanges ranges c).trans member)]

/-- One of some words. -/
def words (name pattern : String) (expression : Pattern) (texts : List (List Char)) (begins : CodeRanges)
    (standalone : Standalone pattern.toList expression)
    (head : ∀ text ∈ texts, text.head?.any begins.contains = true)
    (takes : Sjson.Takes expression fun taken _ => taken ∈ texts)
    (gives : ∀ taken ∈ texts, ∀ rest,
      expression.matchAt (.start (taken ++ rest)) = some ((Spot.start (taken ++ rest)).past taken)) :
    Kind where
  name
  pattern
  expression
  standalone
  begins
  word text := text ∈ texts
  head {text} member := by
    have first := head text member
    cases text with
    | nil => cases first
    | cons c more => exact ⟨c, more, rfl, first⟩
  takes
  gives member _ := gives _ member _

/-- One character of some kind and those of another kind that follow it, unless that takes line feeds. -/
def headed (name pattern : String) (first more : CharSet) (begins : CodeRanges)
    (standalone : Standalone pattern.toList (seq (one first) (repeated true 0 none (one more))))
    (member : ∀ c, first.contains c = true → begins.contains c = true)
    (inLine : more.contains '\n' = false) : Kind where
  name
  pattern
  expression := seq (one first) (repeated true 0 none (one more))
  standalone
  begins
  word text := ∃ c body, first.contains c = true ∧ (∀ d ∈ body, more.contains d = true) ∧ text = c :: body
  head := by
    rintro _ ⟨c, body, begins, _, rfl⟩
    exact ⟨c, body, rfl, member c begins⟩
  takes := by
    intro text last matched
    cases text with
    | nil => cases matched
    | cons c text =>
        cases starts : first.contains c with
        | false =>
            have fails := (one_fails (by simp [Spot.start, starts])).symm.trans matched
            cases fails
        | true =>
            let behind := (Spot.start (c :: text)).past [c]
            have whole := (one_matches rfl starts).symm.trans matched
            have ends : EndsRun more behind some := .inl rfl
            cases (star_matches ends).symm.trans whole
            refine ⟨c :: run more behind, (behind.past (run more behind)).rest, ?_, rfl,
              c, _, starts, fun d => mem_run, rfl⟩
            have rest : behind.rest = text := Spot.past_rest rfl
            rw [List.cons_append, ← rest_run, rest]
  gives := by
    rintro _ rest ⟨c, body, starts, all, rfl⟩ broken
    have stops : ∀ d, rest.head? = some d → more.contains d = false := fun d head =>
      broken d head ▸ inLine
    let behind := (Spot.start (c :: (body ++ rest))).past [c]
    have ends : EndsRun more behind some := .inl rfl
    have body : run more behind = body := run_append all stops (Spot.past_rest rfl)
    have rest := star_matches ends
    rw [body] at rest
    exact (one_matches rfl starts).trans rest

theorem quoted_matches {body : List Char} (unquoted : '"' ∉ body) (rest : List Char) :
    Sjson.quoted.matchAt (.start ('"' :: (body ++ '"' :: rest))) =
      some ((Spot.start ('"' :: (body ++ '"' :: rest))).past ('"' :: (body ++ ['"']))) := by
  let behind := (Spot.start ('"' :: (body ++ '"' :: rest))).past ['"']
  have inside : behind.rest = body ++ '"' :: rest := Spot.past_rest rfl
  have all : ∀ c ∈ body, Sjson.unquoted.contains c = true := fun c member =>
    Sjson.unquoted_contains.mpr fun same => unquoted (same ▸ member)
  have stops : ∀ c, ('"' :: rest).head? = some c → Sjson.unquoted.contains c = false := by
    rintro _ ⟨⟩
    decide
  have taken : run Sjson.unquoted behind = body := run_append all stops inside
  let closing : Spot → Option Spot := fun after => (Pattern.word ['"']).matcher after some
  have closes : closing (behind.past body) = some ((behind.past body).past ['"']) :=
    word_matches (Spot.past_rest inside)
  have ends : EndsRun Sjson.unquoted behind closing := .inl (by rw [taken, closes]; rfl)
  have inner := star_matches ends
  rw [taken, closes, ← Spot.past_append] at inner
  have opens : Sjson.quoted.matchAt (.start ('"' :: (body ++ '"' :: rest))) =
      (repeated true 0 none (one Sjson.unquoted)).matcher behind closing := word_matches rfl
  rw [opens, inner]
  rfl

/-- A text between quotes without one in it. -/
def quoted : Kind where
  name := "string"
  pattern := "\"[^\"]*\""
  expression := Sjson.quoted
  standalone := ⟨rfl, _, rfl⟩
  begins := [(34, 34)]
  word text := ∃ body, '"' ∉ body ∧ text = '"' :: (body ++ ['"'])
  head := by
    rintro _ ⟨body, _, rfl⟩
    exact ⟨_, _, rfl, by decide⟩
  takes := Sjson.quoted_takes.weaken fun cut => by
    generalize called : some "string" = type at cut
    cases cut with
    | string unquoted => exact ⟨_, unquoted, rfl⟩
    | _ => simp at called
  gives := by
    rintro _ rest ⟨body, unquoted, rfl⟩ _
    simpa using quoted_matches unquoted rest

theorem unsigned_of_literal (literal : Literal) (plain : literal.exponent = [])
    (delimited : Delimited rest) (text : spot.rest = literal.magnitude ++ rest) :
    Sjson.unsigned.matcher spot some = some (spot.past literal.magnitude) := by
  have whole : literal.magnitude ++ rest = literal.whole ++ (literal.fraction ++ rest) := by
    simp [Literal.magnitude, plain]
  have head := literal.tail_head delimited
  rw [plain] at head
  have taken := literal.digits.takeWhile head
  have left := literal.digits.dropWhile head
  have fraction := Lexeme.fraction_append literal.isFraction fun c head =>
    ⟨delimited.digit c head, (delimited.mark c head).1⟩
  rw [List.nil_append] at taken left
  rw [Sjson.unsigned_matches, text, whole, taken, left, fraction, if_neg literal.digits.present]
  simp [Literal.magnitude, plain]

theorem number_matches (literal : Literal) (plain : literal.exponent = []) (delimited : Delimited rest) :
    Sjson.number.matchAt (.start (literal.text ++ rest)) =
      some ((Spot.start (literal.text ++ rest)).past literal.text) := by
  let start := Spot.start (literal.text ++ rest)
  have ways : Sjson.number.matchAt start =
      (((Pattern.word ['-']).matcher start fun after => Sjson.unsigned.matcher after some) <|>
        Sjson.unsigned.matcher start some) := rfl
  cases negative : literal.negative with
  | true =>
      have whole : literal.text = ['-'] ++ literal.magnitude := by simp [Literal.text, negative]
      have begins : start.rest = ['-'] ++ (literal.magnitude ++ rest) := by
        rw [← List.append_assoc, ← whole]
        rfl
      have unsigned := unsigned_of_literal literal plain delimited (Spot.past_rest begins)
      rw [ways, word_matches begins, unsigned, ← Spot.past_append, ← whole]
      rfl
  | false =>
      have whole : literal.text = literal.magnitude := by simp [Literal.text, negative]
      have begins : start.rest = literal.magnitude ++ rest := by
        rw [← whole]
        rfl
      obtain ⟨c, more, same, digit⟩ := literal.magnitude_head
      have fails {next : Spot → Option Spot} : (Pattern.word ['-']).matcher start next = none := by
        refine one_fails fun d head => ?_
        rw [begins, same] at head
        cases head
        rw [CharSet.contains_one, beq_eq_false_iff_ne]
        exact (ne_of_isDigit digit (by decide)).symm
      rw [ways, fails, unsigned_of_literal literal plain delimited begins, ← whole]
      rfl

def number : Kind where
  name := "number"
  pattern := r"-?[0-9]+(?:\.[0-9]+)?"
  expression := Sjson.number
  standalone := ⟨rfl, _, rfl⟩
  begins := [(45, 45), (48, 57)]
  word := Sjson.IsNumber
  head := by
    rintro _ ⟨literal, _, rfl⟩
    obtain ⟨c, more, same, begins⟩ := literal.text_head
    refine ⟨c, more, same, ?_⟩
    rcases begins with rfl | digit
    · decide
    · exact CodeRanges.contains_iff.mpr ⟨(48, 57), by simp, Char.isDigit_iff_toNat.mp digit⟩
  takes := Sjson.number_takes.weaken And.left
  gives := by
    rintro _ rest ⟨literal, plain, rfl⟩ broken
    exact number_matches literal plain (delimited_of_broken broken)

end Kind

open Kind (headed mark words)

namespace Sexpr

def kinds : List Kind := [
  headed "comment" r";[^\n]*" (.one ';') (.complement (.ofRanges [(10, 10)])) [(59, 59)]
    ⟨rfl, _, rfl⟩ (by simp [CharSet.one, CharSet.contains, CodeRanges.contains]) rfl,
  mark "bkt" r"[()]" [(40, 40), (41, 41)] ⟨rfl, _, rfl⟩,
  Kind.quoted,
  Kind.number,
  headed "atom" r"[a-zA-Z_][a-zA-Z0-9_-]*" (.ofRanges [(97, 122), (65, 90), (95, 95)])
    (.ofRanges [(97, 122), (65, 90), (48, 57), (95, 95), (45, 45)]) [(97, 122), (65, 90), (95, 95)]
    ⟨rfl, _, rfl⟩ (by simp [CharSet.contains_ofRanges]) rfl]

theorem definitions_eq : definitions = Kind.table kinds := rfl

theorem kinds_distinct : Kind.Distinct kinds := by
  unfold Kind.Distinct
  decide

end Sexpr

namespace Sjson

theorem takes_boolean : Takes boolean fun taken _ => taken ∈ ["true".toList, "false".toList] :=
  .either (.word fun _ => by simp) (.word fun _ => by simp)

def kinds : List Kind := [
  mark "op" r"[\[\]{},:]" [(91, 91), (93, 93), (123, 123), (125, 125), (44, 44), (58, 58)]
    ⟨rfl, _, rfl⟩,
  Kind.quoted,
  Kind.number,
  words "bool" "true|false" boolean ["true".toList, "false".toList] [(116, 116), (102, 102)]
    ⟨rfl, _, rfl⟩ (by decide) takes_boolean
    (List.forall_mem_cons.mpr ⟨fun _ => rfl, List.forall_mem_singleton.mpr fun _ => rfl⟩),
  words "null" "null" (Pattern.word "null".toList) ["null".toList] [(110, 110)]
    ⟨rfl, _, rfl⟩ (by decide) (.word fun _ => by simp)
    (List.forall_mem_singleton.mpr fun _ => rfl)]

theorem definitions_eq : definitions = Kind.table kinds := rfl

theorem kinds_distinct : Kind.Distinct kinds := by
  unfold Kind.Distinct
  decide

end Sjson

/-- The white space that a language skips. -/
def skips : Language → Char → Bool
  | json => Lexeme.isBlank
  | sexpr => Text.isSpace
  | sjson => Text.isSpace

def cut : Language → Cutter
  | json => TokenGrammar.Json.cut
  | sexpr => Lexer.cutter (Kind.table Sexpr.kinds)
  | sjson => Lexer.cutter (Kind.table Sjson.kinds)

theorem separates (language : Language) : language.cut.Separates language.skips := by
  cases language with
  | json => exact TokenGrammar.Json.separates
  | sexpr => exact Sexpr.kinds_distinct.separates
  | sjson => exact Sjson.kinds_distinct.separates

theorem Kind.tokenise_iff_cuts {kinds : List Kind} {lexer : Lexer} {source : String}
    (built : Lexer.ofDefinitions (table kinds) = .ok lexer) :
    lexer.tokenise source = .ok tokens ↔ (Lexer.cutter (table kinds)).Cuts source.toList tokens :=
  Lexer.tokenise_iff_cuts plain_of_mem_table standalone_of_mem_table built

theorem ok_of_isOk {result : Except ε α} (succeeds : result.isOk = true) :
    ∃ value, result = .ok value := by
  cases result with
  | ok value => exact ⟨value, rfl⟩
  | error => cases succeeds

theorem tokenise_iff_cuts (language : Language) {source : String} :
    language.tokenise source = .ok tokens ↔ language.cut.Cuts source.toList tokens := by
  cases language with
  | json => exact TokenGrammar.Json.tokenise_iff_cuts
  | sexpr =>
      obtain ⟨lexer, built⟩ := ok_of_isOk (by decide +kernel : sexprLexer.isOk = true)
      rw [tokenise, built]
      rw [sexprLexer, Sexpr.definitions_eq] at built
      exact Kind.tokenise_iff_cuts built
  | sjson =>
      obtain ⟨lexer, built⟩ := ok_of_isOk (by decide +kernel : sjsonLexer.isOk = true)
      rw [tokenise, built]
      rw [sjsonLexer, Sjson.definitions_eq] at built
      exact Kind.tokenise_iff_cuts built

/-- The tokens of a text stand in it in order, with nothing but white space around them, and the text that
has each of them on a line of its own has the same tokens. -/
theorem tokenise_lines (language : Language) {source : String} {tokens : List Token}
    (read : language.tokenise source = .ok tokens) :
    Spread language.skips source.toList tokens ∧
      language.tokenise (Token.lines tokens) = .ok tokens := by
  have cuts := language.tokenise_iff_cuts.mp read
  have separates := language.separates
  exact ⟨cuts.spread separates, language.tokenise_iff_cuts.mpr (cuts.lines separates).1⟩

/-- A comment up to the end of its line, a string over two lines, and tokens without a space between
them. -/
theorem tokenise_lines_comment :
    let source := "(a;b \n\"c\nd\"-1.5e"
    let tokens := [.ordinary "bkt" "(", .ordinary "atom" "a", .ordinary "comment" ";b ",
      .ordinary "string" "\"c\nd\"", .ordinary "number" "-1.5", .ordinary "atom" "e"]
    sexpr.tokenise source = .ok tokens ∧ Spread Text.isSpace source.toList tokens ∧
      sexpr.tokenise "(\na\n;b \n\"c\nd\"\n-1.5\ne" = .ok tokens := by
  have read : sexpr.tokenise "(a;b \n\"c\nd\"-1.5e" = .ok [.ordinary "bkt" "(", .ordinary "atom" "a",
      .ordinary "comment" ";b ", .ordinary "string" "\"c\nd\"", .ordinary "number" "-1.5",
      .ordinary "atom" "e"] := by decide +kernel
  exact ⟨read, tokenise_lines sexpr read⟩

end TokenGrammar.Language
