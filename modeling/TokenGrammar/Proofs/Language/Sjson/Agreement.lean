import TokenGrammar.Proofs.Language.Sjson.Grammar
import TokenGrammar.Proofs.Language.Sjson.Lexing
import TokenGrammar.Proofs.Tree.Equality

namespace TokenGrammar.Language

open TokenGrammar.Parser

/-- A document is what the root of the language matches at the start of the tokens. -/
theorem read_ok_iff {language : Language} : (language.read options source).result = .ok document ↔
    ∃ tokens tree next, language.tokenise source = .ok tokens ∧
      Matches (language.parse options.complete) (.start tokens) tree next ∧
      document = ⟨language, tree⟩ := by
  unfold read Matches
  cases language.tokenise source with
  | error error => simp
  | ok tokens =>
      cases ran : (language.parse options.complete (.start tokens)).outcome with
      | failed | stuck => simp [ran]
      | matched tree next => simp [ran, eq_comm]

namespace Sjson

open Language.Json (op)

theorem parse_matches {tokens : List Token} {complete : Bool} {tree : Tree} {next : Cursor}
    (matched : Matches (Language.sjson.parse complete) (.start tokens) tree next) :
    ∃ other, Restates tree other ∧ (Cursor.start tokens).Consumes (Json.flatten other) next ∧
      (complete = true → next.peek.isEnd = true) := by
  have whole : Language.sjson.parse complete = grammar.parseFrom (.rule "Sjson") complete := rfl
  rw [whole, Grammar.parseFrom_matches] at matched
  obtain ⟨matched, ends⟩ := matched
  have run : grammar.parse (.rule "Sjson") .anyToken (.start tokens) = grammar.ruleParser
      (grammar.depthBound (.start tokens)) "Sjson" .anyToken (.start tokens) := by
    simp only [Grammar.parse, Grammar.contentParser]
  rw [Matches, run] at matched
  have drop : grammar.dropFilter? (.rule "Sjson") = some (.ok .anyToken) := rfl
  have trailing : grammar.skipTrailing (.rule "Sjson") next = next := by
    simp only [Grammar.skipTrailing, drop, Cursor.skip_anyToken]
  obtain ⟨other, restates, consumes⟩ := restates_of_matches matched
  exact ⟨other, restates, consumes, fun complete => trailing ▸ ends complete⟩

/-- What a document of simplified JSON stands for is a JSON tree that the tokens begin with. -/
theorem read_restates (read : (sjson.read options source).result = .ok document)
    (compiled : document.compile = .ok value) :
    ∃ tree after, Json.WellFormed tree ∧ tree.compile = .ok value ∧
      sjson.tokenise source = .ok (Json.flatten tree ++ after) ∧
      (options.complete = true → after = []) := by
  obtain ⟨tokens, tree, next, cut, matched, rfl⟩ := read_ok_iff.mp read
  obtain ⟨other, restates, consumes, ends⟩ := parse_matches matched
  have split : tokens = Json.flatten other ++ next.rest := consumes.rest
  have ordinary : ∀ token ∈ next.rest, token.isEnd = false :=
    fun token member => ordinary_of_tokenise cut token (by simp [split, member])
  exact ⟨other, next.rest, restates.wellFormed, restates.compile.symm.trans compiled, by rw [cut, split],
    fun complete => Cursor.rest_of_isEnd ordinary (ends complete)⟩

theorem isBlank_of_mem {c : Char} (member : c ∈ [' ', '\t', '\r', '\n', '\x0c']) :
    TokenGrammar.Json.Lexeme.isBlank c = true := by
  simpa [TokenGrammar.Json.Lexeme.isBlank, or_assoc] using member

/-- Simplified JSON and JSON agree. A text that has a value in both has one value. A text without white
space that JSON does not know, which simplified JSON reads to its end, has its value in JSON, too. -/
theorem agrees_with_json (source : String) :
    (∀ options document other value otherValue,
      (sjson.read options source).result = .ok document → document.compile = .ok value →
      (json.read options source).result = .ok other → other.compile = .ok otherValue →
      value = otherValue) ∧
    ((∀ c ∈ source.toList, Text.isSpace c = true → c ∈ [' ', '\t', '\r', '\n', '\x0c']) →
      ∀ trace traceToo document value,
        (sjson.read ⟨true, trace⟩ source).result = .ok document → document.compile = .ok value →
        ∃ other, (json.read ⟨true, traceToo⟩ source).result = .ok other ∧
          other.compile = .ok value) := by
  constructor
  · intro options document other value otherValue read compiled readToo compiledToo
    obtain ⟨tree, after, wellFormed, same, cut, _⟩ := read_restates read compiled
    obtain ⟨rest, cuts, _⟩ := cuts_of_tokenise cut (wellFormed.decodable same)
    obtain ⟨tokens, own, next, cutToo, matched, rfl⟩ := read_ok_iff.mp readToo
    obtain ⟨others, rfl⟩ := cuts.prefix_of_tokensFrom cutToo
    obtain ⟨alike, consumes⟩ := Json.wellFormed_of_matches (Json.parse_matches.mp matched).1
    cases Json.eq_of_flatten_append wellFormed alike consumes.rest
    exact Except.ok.inj (same.symm.trans compiledToo)
  · intro blanks trace traceToo document value read compiled
    obtain ⟨tree, after, wellFormed, same, cut, whole⟩ := read_restates read compiled
    obtain ⟨rest, cuts, finished⟩ := cuts_of_tokenise cut (wellFormed.decodable same)
    have lexes := cuts.lexes fun c member space => isBlank_of_mem (blanks c member space)
    rw [finished (whole rfl)] at lexes
    have matched := Json.parse_flatten wellFormed
    exact ⟨⟨json, tree⟩, read_ok_iff.mpr ⟨_, tree, _, lexes.tokenise, matched, rfl⟩, same⟩

/-- A list over two lines, read as JSON and as simplified JSON. -/
theorem agrees_with_json_list :
    let source := "[-2.5,\n \"a\"]"
    (∃ document other value otherValue,
      (sjson.read {} source).result = .ok document ∧ document.compile = .ok value ∧
      (json.read {} source).result = .ok other ∧ other.compile = .ok otherValue ∧
      value = otherValue) ∧
    (∀ c ∈ source.toList, Text.isSpace c = true → c ∈ [' ', '\t', '\r', '\n', '\x0c']) ∧
    ∃ document value, (sjson.read ⟨true, false⟩ source).result = .ok document ∧
      document.compile = .ok value ∧
      ∃ other, (json.read ⟨true, true⟩ source).result = .ok other ∧ other.compile = .ok value := by
  intro source
  let number := Token.ordinary "number" "-2.5"
  let string := Token.ordinary "string" "\"a\""
  let tokens := [op "[", number, op ",", string, op "]"]
  let tree := alternative "list" (Json.container "List"
    [alternative "number" (.token number), alternative "string" (.token string)])
  let other := Json.alternative "array" (Json.container "Array"
    [Json.alternative "number" (Json.scalar "Number" number),
      Json.alternative "string" (Json.scalar "Str" string)])
  have restates : Restates tree other := @Restates.array
    [(_, Json.alternative "number" (Json.scalar "Number" number)),
      (_, Json.alternative "string" (Json.scalar "Str" string))]
    (by simpa using ⟨.number "-2.5", .string "\"a\""⟩)
  have first : (Json.alternative "number" (Json.scalar "Number" number)).compile =
      .ok (.number (.finite true 5629499534213120 (-51))) := by
    have read : Binary64.ofText? ['-', '2', '.', '5'] =
        some (.finite true 5629499534213120 (-51)) := by decide +kernel
    rw [TokenGrammar.Json.compile_alternative _ _ (by decide)]
    simp [Json.scalar, ValueKind.ofField, Tree.compileKind, Token.scalarValue, Tree.scalar,
      Token.numberValue, Token.value, number, read, JsonValue.ofNumber]
  have second : (Json.alternative "string" (Json.scalar "Str" string)).compile = .ok (.string "a") :=
    TokenGrammar.Json.compile_string (TokenGrammar.Json.quoted_spells "a")
  have compiledToo : other.compile =
      .ok (.array [.number (.finite true 5629499534213120 (-51)), .string "a"]) := by
    refine TokenGrammar.Json.compile_array ?_
    simp only [Tree.compileAll, first, second, TokenGrammar.Json.ok_bind, TokenGrammar.Json.ok_pure]
  have compiled := restates.compile.trans compiledToo
  have blanks : ∀ c ∈ source.toList, Text.isSpace c = true → c ∈ [' ', '\t', '\r', '\n', '\x0c'] := by
    have each : source.toList.all (fun c =>
        !Text.isSpace c || [' ', '\t', '\r', '\n', '\x0c'].contains c) = true := by decide
    intro c member space
    have own := List.all_eq_true.mp each c member
    simpa [space] using own
  have reading (complete : Bool) : (sjson.read ⟨complete, false⟩ source).result = .ok ⟨sjson, tree⟩ := by
    have cut : sjson.tokenise source = .ok tokens := by decide +kernel
    have matched : Matches (sjson.parse complete) (.start tokens) tree ⟨5, []⟩ := by
      unfold Matches
      cases complete <;> decide +kernel
    exact read_ok_iff.mpr ⟨tokens, tree, ⟨5, []⟩, cut, matched, rfl⟩
  have readingToo : (json.read {} source).result = .ok ⟨json, other⟩ := by
    have cut : json.tokenise source = .ok tokens := by decide +kernel
    have matched : Matches (json.parse false) (.start tokens) other ⟨5, []⟩ := by
      unfold Matches
      decide +kernel
    exact read_ok_iff.mpr ⟨tokens, other, ⟨5, []⟩, cut, matched, rfl⟩
  exact ⟨⟨_, _, _, _, reading false, compiled, readingToo, compiledToo,
      (agrees_with_json source).1 _ _ _ _ _ (reading false) compiled readingToo compiledToo⟩,
    blanks, _, _, reading true, compiled,
    (agrees_with_json source).2 blanks false true _ _ (reading true) compiled⟩

end Sjson
end TokenGrammar.Language
