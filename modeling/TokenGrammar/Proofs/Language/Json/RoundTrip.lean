import TokenGrammar.CommandLine.Run
import TokenGrammar.Proofs.Json.Printing
import TokenGrammar.Proofs.Language.Json.Reading

namespace TokenGrammar

theorem Document.canonical_compile {document : Document} {value : JsonValue}
    (compiled : document.compile = .ok value) : value.Canonical := by
  cases language : document.language with
  | sexpr => simp [Document.compile, language] at compiled
  | json | sjson => exact Tree.canonical_compile (by simpa [Document.compile, language] using compiled)

namespace Json

open Language.Json

/-- Every text of a JSON value is read as that value. So is what the program prints for a value
that a document has. -/
theorem read_text :
    (∀ (source : Source) (text : String) (trace : Bool), IsText source text →
      ∃ tokens document, Json.tokenise text = .ok tokens ∧
        (Language.json.read ⟨true, trace⟩ text).result = .ok document ∧
        document.compile = .ok source.value) ∧
    ∀ (origin : Document) (value : JsonValue) (indent : Nat) (printed : String) (trace : Bool),
      origin.compile = .ok value →
      CommandLine.showDocument .json indent origin = .ok printed →
      (∀ number, value.Contains number → number.ReadsBack) →
      ∃ document, (Language.json.read ⟨true, trace⟩ printed).result = .ok document ∧
        document.compile = .ok value := by
  refine ⟨fun source text trace isText => isText.read trace, ?_⟩
  intro origin value indent printed trace compiled shown numbers
  simp only [CommandLine.showDocument, compiled] at shown
  cases shown
  obtain ⟨source, rfl, isText⟩ := printed_spells (Document.canonical_compile compiled) numbers
  obtain ⟨_, document, _, read, again⟩ := isText.read trace
  exact ⟨document, read, again⟩

/-- Two members under one key, which is spelled in two ways, and a printed list of a number that
was written with one digit more. -/
theorem read_text_duplicate_key :
    let hundred : Numeral := ⟨true, ['1'], [], ['e', '2'], .inr ⟨⟨by simp, by simp⟩, by simp⟩,
      .inl rfl, .inr ⟨'e', [], ['2'], .inl rfl, by simp, ⟨by simp, by simp⟩, rfl⟩⟩
    let source : Source := .object [("k", .number hundred), ("k", .string "x")]
    let number : Binary64 := .finite false 6755399441055744 (-52)
    let origin : Document := ⟨.json, alternative "array" (container "Array"
      [alternative "number" (scalar "Number" (.ordinary "number" "1.50"))])⟩
    source.value = .object [("k", .string "x")] ∧
      (∃ tokens document,
        Json.tokenise "\x7b\"k\" : -1e2,\n \"\\u006b\":\"x\" \x7d\n" = .ok tokens ∧
        (Language.json.read ⟨true, false⟩ "\x7b\"k\" : -1e2,\n \"\\u006b\":\"x\" \x7d\n").result =
          .ok document ∧
        document.compile = .ok source.value) ∧
      CommandLine.showDocument .json 2 origin = .ok "[\n  1.5\n]\n" ∧
      ∃ document, (Language.json.read ⟨true, false⟩ "[\n  1.5\n]\n").result = .ok document ∧
        document.compile = .ok (.array [.number number]) := by
  intro hundred source number origin
  have isText : IsText source "\x7b\"k\" : -1e2,\n \"\\u006b\":\"x\" \x7d\n" := by
    have gap : Blank [' '] := by simp [Blank]
    have line : Blank ['\n', ' '] := by simp [Blank]
    have feed : Blank ['\n'] := by simp [Blank]
    have escapedKey : SpellsString "k" ['"', '\\', 'u', '0', '0', '6', 'b', '"'] :=
      ⟨_, .cons (.unit (spellsUnit_hexDigits (by decide))) .nil, rfl⟩
    have first := SpellsMember.mk blank_nil (quoted_spells "k") gap
      (.mk gap (.number hundred) blank_nil)
    have second := SpellsMember.mk line escapedKey blank_nil
      (.mk blank_nil (.string (quoted_spells "x")) gap)
    exact SpellsPadded.mk blank_nil (.object (.more first (.one second))) feed
  have written : number.render JsonValue.numberLayout = "1.5" := by decide +kernel
  have numeral : number.ReadsBack :=
    ⟨⟨false, ['1'], ['.', '5'], [], .inr ⟨⟨by simp, by simp⟩, by simp⟩,
      .inr ⟨['5'], ⟨by simp, by simp⟩, rfl⟩, .inl rfl⟩, by rw [written]; rfl, by decide +kernel⟩
  have read : Binary64.ofText? ['1', '.', '5', '0'] = some number := by decide +kernel
  have item : (alternative "number" (scalar "Number" (.ordinary "number" "1.50"))).compile =
      .ok (.number number) := by
    rw [compile_alternative _ _ (by decide)]
    simp [scalar, ValueKind.ofField, Tree.compileKind, Token.scalarValue, Tree.scalar,
      Token.numberValue, Token.value, read, JsonValue.ofNumber, number]
  have compiled : origin.compile = .ok (.array [.number number]) :=
    compile_array (by rw [Tree.compileAll, item]; rfl)
  have shown : CommandLine.showDocument .json 2 origin = .ok "[\n  1.5\n]\n" := by
    rw [CommandLine.showDocument, compiled]
    refine congrArg Except.ok ?_
    rw [JsonValue.render, JsonValue.renderAt, JsonValue.renderAt, JsonValue.renderItems, written]
    rfl
  refine ⟨?_, read_text.1 source _ false isText, shown,
    read_text.2 origin (.array [.number number]) 2 _ false compiled shown ?_⟩
  · simp [source, Source.value, Source.memberValues, JsonValue.lastMembers]
  · intro occurring contains
    cases contains with
    | item member inside =>
        cases List.mem_singleton.mp member
        cases inside
        exact numeral

end Json
end TokenGrammar
