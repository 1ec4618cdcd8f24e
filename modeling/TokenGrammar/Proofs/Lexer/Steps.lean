import TokenGrammar.Proofs.Lexer.Choice
import TokenGrammar.Proofs.Rule.Compile

namespace TokenGrammar

/-! A lexer goes over a text in steps, one for each token and each skipped text. -/

theorem Text.splitBytes_append (taken left : List Char) :
    splitBytes (byteLength taken) (taken ++ left) = some (taken, left) := by
  induction taken with
  | nil => cases left <;> rfl
  | cons c rest ih =>
      have size := c.utf8Size_pos
      obtain ⟨bytes, more⟩ : ∃ bytes, byteLength (c :: rest) = bytes + 1 :=
        ⟨byteLength (c :: rest) - 1, by simp only [byteLength]; omega⟩
      have fits : c.utf8Size ≤ bytes + 1 := by simp only [byteLength] at more; omega
      have length : bytes + 1 - c.utf8Size = byteLength rest := by simp only [byteLength] at more; omega
      rw [more, List.cons_append, splitBytes, if_pos fits, length, ih]
      rfl

theorem Text.byteLength_eq_zero {text : List Char} : byteLength text = 0 ↔ text = [] := by
  cases text with
  | nil => simp [byteLength]
  | cons c rest =>
      have size := c.utf8Size_pos
      simp only [byteLength, reduceCtorEq, iff_false]
      omega

namespace Lexer

/-- How a definition changes the modes: it enters one and keeps the current one in mind, or returns
to the one last kept in mind, or does neither. -/
inductive Moves (definition : TokenDefinition) : ModeStack → ModeStack → Prop
  | enter {mode current outer} (pushes : definition.push = some mode) :
      Moves definition ⟨current, outer⟩ ⟨mode, current :: outer⟩
  | leave {current mode outer} (stays : definition.push = none) (pops : definition.pop = true) :
      Moves definition ⟨current, mode :: outer⟩ ⟨mode, outer⟩
  | stay {modes} (stays : definition.push = none) (keeps : definition.pop = false) :
      Moves definition modes modes

/-- A definition decides in a mode what the next token of a text is: it is the first of the
definitions of the mode whose pattern matches at the start of the text, and that many bytes. -/
def Decides (definitions : List TokenDefinition) (mode : String) (text : List Char)
    (definition : TokenDefinition) (bytes : Nat) : Prop :=
  ∃ earlier later, definitions = earlier ++ definition :: later ∧
    definition.mode = mode ∧ definition.matches? text = some bytes ∧
    ∀ other ∈ earlier, other.mode = mode → other.matches? text = none

/-- A definition and the text that it takes. -/
structure Step where
  definition : TokenDefinition
  taken : List Char

/-- The token of a step, unless its text is skipped. -/
def Step.token? (step : Step) : Option Token :=
  step.definition.name.map fun name => .ordinary name (String.ofList step.taken)

/-- Steps that go over a whole text from some modes on. Each of them takes some text: as many bytes as the
pattern of the definition that decides has matched, or as many as the span of the definition says. -/
inductive Steps (definitions : List TokenDefinition) : ModeStack → List Char → List Step → Prop
  | done {modes} : Steps definitions modes [] []
  | step {modes next definition bytes taken rest steps}
      (decides : Decides definitions modes.current (taken ++ rest) definition bytes)
      (some : taken ≠ [])
      (length : Text.byteLength taken = definition.span.elim bytes (· (taken ++ rest)))
      (moves : Moves definition modes next)
      (further : Steps definitions next rest steps) :
      Steps definitions modes (taken ++ rest) (⟨definition, taken⟩ :: steps)

theorem moves_iff {definition : TokenDefinition} {modes next : ModeStack} :
    Moves definition modes next ↔ modes.after definition = some next := by
  obtain ⟨current, outer⟩ := modes
  constructor
  · intro moves
    cases moves with
    | enter pushes => simp [ModeStack.after, pushes]
    | leave stays pops => simp [ModeStack.after, stays, pops]
    | stay stays keeps => simp [ModeStack.after, stays, keeps]
  · intro after
    cases pushes : definition.push with
    | some mode =>
        simp only [ModeStack.after, pushes] at after
        cases after
        exact .enter pushes
    | none =>
        cases pops : definition.pop with
        | false =>
            simp only [ModeStack.after, pushes, pops] at after
            cases after
            exact .stay pushes pops
        | true =>
            cases outer with
            | nil => simp [ModeStack.after, pushes, pops] at after
            | cons mode outer =>
                simp only [ModeStack.after, pushes, pops] at after
                cases after
                exact .leave pushes pops

theorem firstMatch?_filter {definitions : List TokenDefinition} {mode : String} {text : List Char} :
    firstMatch? (definitions.filter (·.mode == mode)) text = some (definition, bytes) ↔
      Decides definitions mode text definition bytes := by
  have inMode : firstMatch? (definitions.filter (·.mode == mode)) text =
      definitions.findSome? fun definition =>
        if definition.mode = mode then (definition.matches? text).map (definition, ·) else none := by
    unfold firstMatch?
    induction definitions with
    | nil => rfl
    | cons definition definitions ih =>
        by_cases same : definition.mode = mode <;>
          simp [List.findSome?_cons, same, ih]
  rw [inMode, List.findSome?_eq_some_iff]
  constructor
  · intro ⟨earlier, other, later, split, found, before⟩
    split at found
    · rename_i same
      obtain ⟨_, matched, ⟨⟩⟩ := Option.map_eq_some_iff.mp found
      exact ⟨earlier, later, split, same, matched, fun other member same => by
        simpa [same] using before other member⟩
    · cases found
  · intro ⟨earlier, later, split, same, matched, before⟩
    refine ⟨earlier, definition, later, split, by simp [same, matched], fun other member => ?_⟩
    split
    · rw [before other member ‹_›]
      rfl
    · rfl

section Modes

theorem mem_foldl_modes {definitions : List TokenDefinition} {seen : List String} {mode : String} :
    mode ∈ definitions.foldl (fun modes definition =>
      if definition.mode ∈ modes then modes else modes ++ [definition.mode]) seen ↔
      mode ∈ seen ∨ ∃ definition ∈ definitions, definition.mode = mode := by
  induction definitions generalizing seen with
  | nil => simp
  | cons definition definitions ih =>
      rw [List.foldl_cons, ih]
      by_cases known : definition.mode ∈ seen
      · have own : definition.mode = mode → mode ∈ seen := fun same => same ▸ known
        simp only [if_pos known, List.mem_cons, exists_eq_or_imp]
        exact ⟨fun known => known.imp_right .inr, fun known =>
          known.elim .inl fun known => known.elim (.inl ∘ own) .inr⟩
      · simp [if_neg known, or_assoc, eq_comm]

theorem forall₂_of_mapM {f : α → Except ε β} {list : List α} {results : List β}
    (mapped : list.mapM f = .ok results) : List.Forall₂ (fun item result => f item = .ok result) list results := by
  induction list generalizing results with
  | nil =>
      cases mapped
      exact .nil
  | cons item rest ih =>
      rw [List.mapM_cons] at mapped
      obtain ⟨result, first, mapped⟩ := Except.ok_of_bind_ok mapped
      obtain ⟨others, further, same⟩ := Except.ok_of_bind_ok mapped
      cases same
      exact .cons first (ih further)

/-- A mode that a lexer has is built from the definitions of that mode. -/
theorem find_mode {library : RegexLibrary} {names : List String}
    {group : String → List TokenDefinition}
    {modes : List LexMode} (built : List.Forall₂ (fun name mode =>
      LexMode.compile library name (group name) = .ok mode) names modes) (name : String) :
    (∃ mode, modes.find? (·.name == name) = some mode ∧
      LexMode.compile library name (group name) = .ok mode) ∨
      modes.find? (·.name == name) = none ∧ name ∉ names := by
  induction built with
  | nil => exact .inr ⟨rfl, by simp⟩
  | @cons other mode names modes built further ih =>
      have called := (LexMode.compile_ok built).1
      by_cases same : other = name
      · subst same
        exact .inl ⟨mode, by simp [called], built⟩
      · rw [List.find?_cons_of_neg (by simpa [called] using same)]
        exact ih.imp_right fun absent => ⟨absent.1, by simp [absent.2, Ne.symm same]⟩

end Modes

/-- The modes of a lexer are those of some definitions, each built from the definitions of it. -/
def BuiltFrom (library : RegexLibrary) (definitions : List TokenDefinition) (lexer : Lexer) :
    Prop :=
  ∀ name, (∃ mode, lexer.modes.find? (·.name == name) = some mode ∧
      LexMode.compile library name (definitions.filter (·.mode == name)) = .ok mode) ∨
    lexer.modes.find? (·.name == name) = none ∧
      ∀ definition ∈ definitions, definition.mode ≠ name

theorem compile_ok {library : RegexLibrary} {first : TokenDefinition}
    {others : List TokenDefinition} {lexer : Lexer}
    (built : compile library (first :: others) = .ok lexer) :
    lexer.initial = first.mode ∧ BuiltFrom library (first :: others) lexer := by
  unfold compile at built
  cases unknown : unknownMode? (groupByMode (first :: others)) with
  | some mode =>
      simp only [unknown] at built
      cases built
  | none =>
      simp only [unknown] at built
      obtain ⟨modes, mapped, same⟩ := Except.ok_of_bind_ok built
      cases same
      have each := List.forall₂_map_left_iff.mp (forall₂_of_mapM mapped)
      refine ⟨rfl, fun name => (find_mode each name).imp_right fun absent => ⟨absent.1, ?_⟩⟩
      intro definition member same
      exact absent.2 (mem_foldl_modes.mpr (.inr ⟨definition, member, same⟩))

theorem ofDefinitions_ok {first : TokenDefinition} {others : List TokenDefinition} {lexer : Lexer}
    (built : ofDefinitions (first :: others) = .ok lexer) :
    lexer.initial = first.mode ∧ BuiltFrom Pattern.library (first :: others) lexer :=
  compile_ok built

/-- A token that has been read takes what the definition reported says. -/
theorem of_next {mode : LexMode} (read : next mode offset text = .ok lexeme) :
    ∃ bytes, mode.reported? text = some (lexeme.definition, bytes) ∧
      text = lexeme.text ++ lexeme.rest ∧ lexeme.text ≠ [] ∧
      Text.byteLength lexeme.text = lexeme.definition.span.elim bytes (· text) := by
  unfold next at read
  cases found : mode.regex text with
  | none =>
      simp only [found] at read
      cases read
  | some captures =>
      cases chosen : mode.chosen? captures with
      | none =>
          simp only [found, chosen] at read
          cases read
      | some definition =>
          simp only [found, chosen] at read
          split at read
          · cases read
          · rename_i positive
            split at read
            · cases read
            · rename_i taken rest cut
              cases read
              obtain ⟨split, length⟩ := Text.splitBytes_eq_some cut
              have present : taken ≠ [] := fun none => by
                rw [none] at length
                exact positive length.symm
              exact ⟨captures.stop, by simp [LexMode.reported?, found, chosen], split, present, length⟩

theorem next_of_reported {mode : LexMode} {definition : TokenDefinition}
    (reported : mode.reported? (taken ++ rest) = some (definition, bytes)) (present : taken ≠ [])
    (length : Text.byteLength taken = definition.span.elim bytes (· (taken ++ rest))) :
    next mode offset (taken ++ rest) = .ok ⟨definition, taken, rest⟩ := by
  obtain ⟨captures, found, reported⟩ := Option.bind_eq_some_iff.mp reported
  obtain ⟨_, chosen, same⟩ := Option.map_eq_some_iff.mp reported
  cases same
  have positive : definition.span.elim captures.stop (· (taken ++ rest)) ≠ 0 := by
    rw [← length, ne_eq, Text.byteLength_eq_zero]
    exact present
  have cut := Text.splitBytes_append taken rest
  rw [length] at cut
  unfold next
  simp only [found, chosen, if_neg positive, cut]
  rfl

section Lexing

variable {definitions : List TokenDefinition} {lexer : Lexer} {modes : ModeStack}

theorem reports_iff (built : BuiltFrom Pattern.library definitions lexer)
    (standalone : ∀ definition ∈ definitions,
      ∃ pattern, Pattern.Standalone definition.pattern.toList pattern)
    (found : lexer.modes.find? (·.name == name) = some mode) :
    mode.reported? text = some (definition, bytes) ↔
      Decides definitions name text definition bytes := by
  rcases built name with ⟨_, same, built⟩ | ⟨none, _⟩
  · cases found.symm.trans same
    have each : ∀ definition ∈ definitions.filter (·.mode == name),
        ∃ pattern, Pattern.Standalone definition.pattern.toList pattern :=
      fun definition member => standalone definition (List.mem_of_mem_filter member)
    rw [LexMode.reported?_eq built each, firstMatch?_filter]
  · cases found.symm.trans none

theorem filterMap_step (lexeme : Lexeme) (steps : List Step) :
    List.filterMap Step.token? (⟨lexeme.definition, lexeme.text⟩ :: steps) =
      lexeme.token?.toList ++ steps.filterMap Step.token? := by
  have same : Step.token? ⟨lexeme.definition, lexeme.text⟩ = lexeme.token? := rfl
  rw [List.filterMap_cons, same]
  cases lexeme.token? <;> rfl

theorem steps_of_tokensFrom (built : BuiltFrom Pattern.library definitions lexer)
    (standalone : ∀ definition ∈ definitions,
      ∃ pattern, Pattern.Standalone definition.pattern.toList pattern)
    (read : lexer.tokensFrom bound modes offset text = .ok tokens) :
    ∃ steps, Steps definitions modes text steps ∧ tokens = steps.filterMap Step.token? := by
  induction bound generalizing modes offset text tokens with
  | zero =>
      cases text with
      | nil =>
          cases read
          exact ⟨[], .done, rfl⟩
      | cons => cases read
  | succ bound ih =>
      cases text with
      | nil =>
          cases read
          exact ⟨[], .done, rfl⟩
      | cons c others =>
          unfold tokensFrom at read
          cases found : lexer.modes.find? (·.name == modes.current) with
          | none =>
              simp only [found] at read
              cases read
          | some mode =>
              simp only [found] at read
              -- What the mode's pattern reports is what the definitions of the mode decide.
              obtain ⟨lexeme, taken, read⟩ := Except.ok_of_bind_ok read
              cases moved : modes.after lexeme.definition with
              | none =>
                  simp only [moved] at read
                  cases read
              | some next =>
                  simp only [moved] at read
                  obtain ⟨further, last, same⟩ := Except.ok_of_bind_ok read
                  cases same
                  obtain ⟨bytes, reported, split, present, length⟩ := of_next taken
                  obtain ⟨steps, run, rfl⟩ := ih last
                  have decides := (reports_iff built standalone found).mp reported
                  rw [split] at decides length ⊢
                  exact ⟨_, .step decides present length (moves_iff.mpr moved) run,
                    (filterMap_step lexeme steps).symm⟩

theorem tokensFrom_next {lexeme : Lexeme} (present : text ≠ [])
    (found : lexer.modes.find? (·.name == modes.current) = some mode)
    (taken : Lexer.next mode offset text = .ok lexeme)
    (moved : modes.after lexeme.definition = some after) :
    lexer.tokensFrom (bound + 1) modes offset text =
      (lexer.tokensFrom bound after (offset + Text.byteLength lexeme.text) lexeme.rest).map
        (lexeme.token?.toList ++ ·) := by
  obtain ⟨c, others, rfl⟩ := List.exists_cons_of_ne_nil present
  rw [tokensFrom]
  · simp only [found, taken, moved, bind, Except.bind]
    cases lexer.tokensFrom bound after (offset + Text.byteLength lexeme.text) lexeme.rest <;> rfl
  · simp

theorem tokensFrom_of_steps (built : BuiltFrom Pattern.library definitions lexer)
    (standalone : ∀ definition ∈ definitions,
      ∃ pattern, Pattern.Standalone definition.pattern.toList pattern)
    (run : Steps definitions modes text steps) (enough : text.length ≤ bound) :
    lexer.tokensFrom bound modes offset text = .ok (steps.filterMap Step.token?) := by
  induction run generalizing bound offset with
  | done => cases bound <;> rfl
  | @step modes next definition bytes taken rest steps decides present length moves further ih =>
      have longer : 0 < taken.length := List.length_pos_iff.mpr present
      simp only [List.length_append] at enough
      obtain ⟨fewer, rfl⟩ : ∃ fewer, bound = fewer + 1 := ⟨bound - 1, by omega⟩
      have fits : rest.length ≤ fewer := by omega
      rcases built modes.current with ⟨mode, found, _⟩ | ⟨_, absent⟩
      · have reported := (reports_iff built standalone found).mpr decides
        rw [filterMap_step ⟨definition, taken, rest⟩]
        rw [tokensFrom_next (by simp [present]) found (next_of_reported reported present length)
          (moves_iff.mp moves), ih fits]
        rfl
      · obtain ⟨earlier, later, declared, same, _⟩ := decides
        exact absurd same (absent definition (by simp [declared]))

/-- A table of definitions reads a text if there are steps over the whole of it, from the mode of the
first definition on. The tokens are those of the steps. -/
theorem tokenise_ok_iff {first : TokenDefinition} {others : List TokenDefinition} {lexer : Lexer}
    (built : ofDefinitions (first :: others) = .ok lexer)
    (standalone : ∀ definition ∈ first :: others,
      ∃ pattern, Pattern.Standalone definition.pattern.toList pattern)
    (source : String) (tokens : List Token) :
    lexer.tokenise source = .ok tokens ↔
      ∃ steps, Steps (first :: others) ⟨first.mode, []⟩ source.toList steps ∧
        tokens = steps.filterMap Step.token? := by
  obtain ⟨initial, modes⟩ := ofDefinitions_ok built
  unfold tokenise
  rw [initial]
  constructor
  · exact steps_of_tokensFrom modes standalone
  · intro ⟨steps, run, same⟩
    rw [same]
    exact tokensFrom_of_steps modes standalone run (Nat.le_refl _)

end Lexing

/-- Texts between quotes, which are read in a mode of their own. -/
def quotedTable : List TokenDefinition := [
  { pattern := "\"", push := some "text" },
  { pattern := " +" },
  { pattern := "[^\"]+", name := some "text", mode := "text" },
  { pattern := "\"", mode := "text", pop := true }]

theorem tokenise_ok_iff_quoted :
    ∃ lexer, ofDefinitions quotedTable = .ok lexer ∧
      (∀ definition ∈ quotedTable, ∃ pattern, Pattern.Standalone definition.pattern.toList pattern) ∧
      ∃ steps, Steps quotedTable ⟨"", []⟩ "\"a b\" \"c\"".toList steps ∧
        [.ordinary "text" "a b", .ordinary "text" "c"] = steps.filterMap Step.token? := by
  have standalone : ∀ definition ∈ quotedTable,
      ∃ pattern, Pattern.Standalone definition.pattern.toList pattern := by
    intro definition member
    simp only [quotedTable, List.mem_cons, List.not_mem_nil, or_false] at member
    rcases member with rfl | rfl | rfl | rfl <;> exact ⟨_, rfl, _, rfl⟩
  exact ⟨_, rfl, standalone, (tokenise_ok_iff rfl standalone _ _).mp rfl⟩

/-- The first pattern ends in a comment, which the text of the whole table goes on in up to the end of
the line. -/
def openComment : List TokenDefinition := [
  { pattern := "(?x)a#", name := some "first" },
  { pattern := "b\n|c", name := some "second" }]

/-- A comment that is left open takes in the next definition, whose pattern then counts as one of the
first. -/
theorem tokenise_openComment :
    ∃ lexer, ofDefinitions openComment = .ok lexer ∧
      (∀ definition ∈ openComment, ∃ pattern,
        Pattern.ofText definition.pattern.toList = .ok pattern) ∧
      lexer.tokenise "c" = .ok [.ordinary "first" "c"] ∧
      ¬∃ steps, Steps openComment ⟨"", []⟩ "c".toList steps ∧
        [.ordinary "first" "c"] = steps.filterMap Step.token? := by
  have readable : ∀ definition ∈ openComment,
      ∃ pattern, Pattern.ofText definition.pattern.toList = .ok pattern := by
    intro definition member
    simp only [openComment, List.mem_cons, List.not_mem_nil, or_false] at member
    rcases member with rfl | rfl <;> exact ⟨_, rfl⟩
  refine ⟨_, rfl, readable, rfl, ?_⟩
  intro ⟨steps, run, same⟩
  generalize text : "c".toList = source at run
  cases run with
  | done => cases text
  | @step _ _ definition bytes taken rest further decides _ _ _ _ =>
      obtain ⟨earlier, later, declared, _, matched, _⟩ := decides
      have member : definition ∈ openComment := by simp [declared]
      rw [← text] at matched
      simp only [openComment, List.mem_cons, List.not_mem_nil, or_false] at member
      rcases member with rfl | rfl
      · cases matched
      · simp [Step.token?] at same

end Lexer
end TokenGrammar
