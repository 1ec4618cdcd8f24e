import TokenGrammar.Proofs.Json.Lexing
import TokenGrammar.Proofs.Language.Json.Grammar

namespace TokenGrammar.Json

open Language.Json TokenGrammar.Parser

/-! What is written is cut into the tokens of a well-formed tree, which has the value of what is
written. -/

theorem ok_bind (value : α) (more : α → Except ε β) :
    ((.ok value : Except ε α) >>= more) = more value := rfl

theorem ok_pure (value : α) : (pure value : Except ε α) = .ok value := rfl

theorem compile_alternative (name : String) (tree : Tree) (known : name ∈ alternatives) :
    (alternative name tree).compile = tree.compileKind (.ofField name) := by
  simp only [alternatives, List.mem_cons, List.not_mem_nil, or_false] at known
  rcases known with rfl | rfl | rfl | rfl | rfl | rfl <;> rfl

theorem compile_array {items : List Tree} {values : List JsonValue}
    (compiled : Tree.compileAll items = .ok values) :
    (alternative "array" (container "Array" items)).compile = .ok (.array values) := by
  rw [compile_alternative _ _ (by decide)]
  simp [container, ValueKind.ofField, Tree.compileKind, Tree.compileItems, compiled, ok_bind,
    ok_pure]

theorem compile_dict {items : List Tree} {members : List (String × JsonValue)}
    (compiled : Tree.compileEach items = .ok members) :
    (alternative "dict" (container "Dict" items)).compile = .ok (.ofMembers members) := by
  rw [compile_alternative _ _ (by decide)]
  simp [container, ValueKind.ofField, Tree.compileKind, Tree.compileMembers, compiled, ok_bind,
    ok_pure]

theorem compileMember_eq {key : Token} {tree : Tree} {name : String} {value : JsonValue}
    (named : key.stringValue = .ok name) (compiled : tree.compile = .ok value) :
    Tree.compileMember (member key tree) = .ok (name, value) := by
  simp [member, scalar, Tree.compileMember, Tree.keyToken, Tree.compileValue, Tree.scalar, named,
    compiled, ok_bind, ok_pure]

theorem stringValue_eq (spells : SpellsString value text) :
    (Token.ordinary "string" (String.ofList text)).stringValue = .ok value := by
  simp [Token.stringValue, Token.value, spells.unquote]

theorem compile_object {items : List Tree} {members : List (String × Source)}
    (compiled : Tree.compileEach items = .ok (Source.memberValues members)) :
    (alternative "dict" (container "Dict" items)).compile = .ok (Source.object members).value := by
  rw [compile_dict compiled, JsonValue.ofMembers_eq, Source.value]

theorem compile_number (numeral : Numeral) :
    (alternative "number" (scalar "Number" (.ordinary "number" (String.ofList numeral.text)))).compile =
      .ok (.ofNumber numeral.value) := by
  have converted : Binary64.ofText? numeral.text = some numeral.value := by simp [Numeral.value]
  rw [compile_alternative _ _ (by decide)]
  simp [scalar, ValueKind.ofField, Tree.compileKind, Token.scalarValue, Tree.scalar,
    Token.numberValue, Token.value, converted]

theorem compile_string (spells : SpellsString value text) :
    (alternative "string" (scalar "Str" (.ordinary "string" (String.ofList text)))).compile =
      .ok (.string value) := by
  rw [compile_alternative _ _ (by decide)]
  simp [scalar, ValueKind.ofField, Tree.compileKind, Token.scalarValue, Tree.scalar,
    stringValue_eq spells, ok_bind, ok_pure]

/-- A tree that a text is read as, wherever the text stands before something else. -/
structure ReadsAs (source : Source) (text : List Char) (tree : Tree) : Prop where
  wellFormed : WellFormed tree
  compiled : tree.compile = .ok source.value
  lexes : LexesAs text (flatten tree)

mutual

theorem Spells.reads : ∀ {source : Source} {text : List Char}, Spells source text →
    ∃ tree, ReadsAs source text tree
  | _, _, .null => ⟨_, .null, rfl, fun _ _ => .token rfl rfl (by simp; omega) .done⟩
  | _, _, .yes => ⟨_, .bool "true", rfl, fun _ _ => .token rfl rfl (by simp; omega) .done⟩
  | _, _, .no => ⟨_, .bool "false", rfl, fun _ _ => .token rfl rfl (by simp; omega) .done⟩
  | _, _, .number numeral =>
    ⟨_, .number _, compile_number numeral, fun _ delimited => numeral.lexes delimited⟩
  | _, _, .string spells => ⟨_, .string _, compile_string spells, fun rest _ => spells.lexes rest⟩
  | _, _, .emptyArray blank =>
    ⟨_, @WellFormed.array [] (by simp), compile_array rfl,
      .enclosed rfl rfl (by decide) (.blank blank)⟩
  | _, _, .array spells => by
    obtain ⟨tree, trees, wellFormed, compiled, lexes⟩ := spells.reads
    refine ⟨_, .array wellFormed, compile_array compiled, ?_⟩
    rw [flatten_alternative "array" _ (by decide), flatten_array]
    exact .enclosed rfl rfl (by decide) lexes
  | _, _, .emptyObject blank =>
    ⟨_, @WellFormed.dict [] (by simp), compile_object rfl,
      .enclosed rfl rfl (by decide) (.blank blank)⟩
  | _, _, .object spells => by
    obtain ⟨head, tail, wellFormed, compiled, lexes⟩ := spells.reads
    refine ⟨_, .dict wellFormed, compile_object compiled, ?_⟩
    rw [flatten_alternative "dict" _ (by decide), flatten_dict]
    exact .enclosed rfl rfl (by decide) lexes

theorem SpellsPadded.reads : ∀ {source : Source} {text : List Char}, SpellsPadded source text →
    ∃ tree, ReadsAs source text tree
  | _, _, .mk before spells after => by
    obtain ⟨tree, wellFormed, compiled, lexes⟩ := spells.reads
    exact ⟨tree, wellFormed, compiled, lexes.padded before after⟩

theorem SpellsItems.reads : ∀ {items : List Source} {text : List Char}, SpellsItems items text →
    ∃ tree trees, (∀ item ∈ tree :: trees, WellFormed item) ∧
      Tree.compileAll (tree :: trees) = .ok (Source.values items) ∧
      LexesAs text (separated (op ",") ((tree :: trees).map flatten))
  | _, _, .one item => by
    obtain ⟨tree, wellFormed, compiled, lexes⟩ := item.reads
    refine ⟨tree, [], by simpa using wellFormed, ?_, by simpa [separated] using lexes⟩
    simp only [Tree.compileAll, compiled, Source.values]
    rfl
  | _, _, .more item rest => by
    obtain ⟨tree, wellFormed, compiled, lexes⟩ := item.reads
    obtain ⟨other, trees, others, compiledMore, lexesMore⟩ := rest.reads
    refine ⟨tree, other :: trees, List.forall_mem_cons.mpr ⟨wellFormed, others⟩, ?_, ?_⟩
    · rw [Tree.compileAll, compiled, compiledMore]
      rfl
    · exact lexes.joined rfl (by decide) lexesMore

theorem SpellsMember.reads : ∀ {key : String} {source : Source} {text : List Char},
    SpellsMember key source text → ∃ name tree, WellFormed tree ∧
      Tree.compileMember (member (.ordinary "string" name) tree) = .ok (key, source.value) ∧
      LexesAs text (flatten (member (.ordinary "string" name) tree))
  | _, _, _, .mk before name after held => by
    obtain ⟨tree, wellFormed, compiled, lexes⟩ := held.reads
    refine ⟨_, tree, wellFormed, compileMember_eq (stringValue_eq name) compiled, ?_⟩
    have named : LexesAs _ _ := fun rest _ => name.lexes rest
    have colon : Lexeme.isPunctuation ':' = true := rfl
    simpa [op] using (named.padded before after).joined colon (by decide) lexes

theorem SpellsMembers.reads : ∀ {members : List (String × Source)} {text : List Char},
    SpellsMembers members text →
    ∃ head tail, (∀ entry ∈ head :: tail, WellFormed entry.2) ∧
      Tree.compileEach ((head :: tail).map fun entry : String × Tree =>
        member (.ordinary "string" entry.1) entry.2) = .ok (Source.memberValues members) ∧
      LexesAs text (separated (op ",")
        (((head :: tail).map fun entry => member (.ordinary "string" entry.1) entry.2).map
          flatten))
  | _, _, .one member => by
    obtain ⟨name, tree, wellFormed, compiled, lexes⟩ := member.reads
    refine ⟨(name, tree), [], by simpa using wellFormed, ?_, by simpa [separated] using lexes⟩
    simp only [List.map_cons, List.map_nil, Tree.compileEach, compiled, Source.memberValues]
    rfl
  | _, _, .more member rest => by
    obtain ⟨name, tree, wellFormed, compiled, lexes⟩ := member.reads
    obtain ⟨other, entries, others, compiledMore, lexesMore⟩ := rest.reads
    refine ⟨(name, tree), other :: entries, List.forall_mem_cons.mpr ⟨wellFormed, others⟩, ?_, ?_⟩
    · rw [List.map_cons, Tree.compileEach, compiled, compiledMore]
      rfl
    · exact lexes.joined rfl (by decide) lexesMore

end

/-- A text of what is written is read, and compiles to the value of what is written. -/
theorem IsText.read {source : Source} {text : String} (isText : IsText source text)
    (trace : Bool) : ∃ tokens document, Json.tokenise text = .ok tokens ∧
      (Language.json.read ⟨true, trace⟩ text).result = .ok document ∧
      document.compile = .ok source.value := by
  obtain ⟨tree, wellFormed, compiled, lexes⟩ := isText.reads
  have whole := lexes [] delimited_nil
  rw [List.append_nil] at whole
  refine ⟨flatten tree, ⟨.json, tree⟩, whole.tokenise, ?_, compiled⟩
  simp [Language.read, Language.tokenise, whole.tokenise, parse_flatten wellFormed]

end TokenGrammar.Json
