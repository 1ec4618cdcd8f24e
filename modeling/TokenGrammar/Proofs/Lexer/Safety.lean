import TokenGrammar.Proofs.Lexer.Steps

namespace TokenGrammar

/-! # Safety of lexers

The span of a definition may answer anything. Whatever it says, a lexer stands between two
characters of the text and in a mode that it has, and it reaches the end or gives up for a reason
that lies in the table. -/

theorem Text.utf8ByteSize_ofList (text : List Char) :
    (String.ofList text).utf8ByteSize = byteLength text := by
  induction text with
  | nil => rfl
  | cons c rest ih =>
      rw [String.ofList_cons, String.utf8ByteSize_append, String.utf8ByteSize_singleton, ih, byteLength]

theorem Text.splitBytes_eq_none {bytes : Nat} {text taken rest : List Char}
    (uncut : splitBytes bytes text = none) (split : text = taken ++ rest) :
    byteLength taken ≠ bytes := by
  intro length
  rw [split, ← length, splitBytes_append] at uncut
  cases uncut

namespace Lexer

/-- A lexer in some modes takes a step at the start of a text: as many bytes as the span of the
reported definition says or, without a span, as its pattern has matched. -/
inductive Takes (lexer : Lexer) (modes : ModeStack) : List Char → Step → List Char → Prop
  | intro {mode definition bytes taken rest}
      (found : lexer.modes.find? (·.name == modes.current) = some mode)
      (reported : mode.reported? (taken ++ rest) = some (definition, bytes))
      (some : taken ≠ [])
      (length : Text.byteLength taken = definition.span.elim bytes (· (taken ++ rest))) :
      Takes lexer modes (taken ++ rest) ⟨definition, taken⟩ rest

inductive Goes (lexer : Lexer) :
    ModeStack → List Char → List Step → ModeStack → List Char → Prop
  | stay {modes text} : Goes lexer modes text [] modes text
  | step {modes text step rest next steps last left} (takes : Takes lexer modes text step rest)
      (moves : Moves step.definition modes next) (further : Goes lexer next rest steps last left) :
      Goes lexer modes text (step :: steps) last left

/-- Why a mode has no token at the start of a text: no definition is reported, or the one that is
reported takes nothing, or it asks for more bytes than there are or for a part of a character. -/
inductive Rejects (mode : LexMode) (text : List Char) : (Nat → LexError) → Prop
  | unmatched (missing : mode.reported? text = none) : Rejects mode text .noMatch
  | empty {definition bytes} (reported : mode.reported? text = some (definition, bytes))
      (nothing : definition.span.elim bytes (· text) = 0) : Rejects mode text .emptyMatch
  | outside {definition bytes} (reported : mode.reported? text = some (definition, bytes))
      (uncut : ∀ taken rest, text = taken ++ rest →
        Text.byteLength taken ≠ definition.span.elim bytes (· text)) :
      Rejects mode text .noMatch

/-- Why a lexer gives up: its mode has no token, or a token leaves a mode that was not entered. -/
inductive Refuses (lexer : Lexer) (modes : ModeStack) (text : List Char) :
    (Nat → LexError) → Prop
  | rejects {mode reason} (found : lexer.modes.find? (·.name == modes.current) = some mode)
      (rejects : Rejects mode text reason) : Refuses lexer modes text reason
  | unentered {step rest} (takes : Takes lexer modes text step rest)
      (stays : step.definition.push = none) (pops : step.definition.pop = true)
      (outer : modes.outer = []) : Refuses lexer modes text .noModeToPop

/-- How many bytes some steps take. -/
def extent (steps : List Step) : Nat := Text.byteLength (steps.flatMap (·.taken))

def Step.pushes (step : Step) : Bool := step.definition.push.isSome

/-- A definition that enters a mode does not leave one. -/
def Step.pops (step : Step) : Bool := step.definition.push.isNone && step.definition.pop

@[simp] theorem extent_cons (step : Step) (steps : List Step) :
    extent (step :: steps) = Text.byteLength step.taken + extent steps := by
  simp [extent, Text.byteLength_append]

theorem next_rejects {mode : LexMode} (failed : next mode offset text = .error error) :
    ∃ reason, Rejects mode text reason ∧ error = reason offset := by
  unfold next at failed
  cases found : mode.regex text with
  | none =>
      simp only [found] at failed
      cases failed
      exact ⟨_, .unmatched (by simp [LexMode.reported?, found]), rfl⟩
  | some captures =>
      cases chosen : mode.chosen? captures with
      | none =>
          simp only [found, chosen] at failed
          cases failed
          exact ⟨_, .unmatched (by simp [LexMode.reported?, found, chosen]), rfl⟩
      | some definition =>
          have reported : mode.reported? text = some (definition, captures.stop) := by
            simp [LexMode.reported?, found, chosen]
          simp only [found, chosen] at failed
          split at failed
          · rename_i nothing
            cases failed
            exact ⟨_, .empty reported nothing, rfl⟩
          · split at failed
            · rename_i uncut
              cases failed
              exact ⟨_, .outside reported fun _ _ => Text.splitBytes_eq_none uncut, rfl⟩
            · cases failed

section Goes

variable {lexer : Lexer} {modes last : ModeStack} {text left : List Char} {steps : List Step}

theorem takes_of_next {mode : LexMode} {lexeme : Lexeme}
    (found : lexer.modes.find? (·.name == modes.current) = some mode)
    (read : next mode offset text = .ok lexeme) :
    Takes lexer modes text ⟨lexeme.definition, lexeme.text⟩ lexeme.rest := by
  obtain ⟨bytes, reported, split, present, length⟩ := of_next read
  rw [split] at reported length ⊢
  exact .intro found reported present length

theorem Takes.split {step : Step} (takes : Takes lexer modes text step left) :
    text = step.taken ++ left ∧ step.taken ≠ [] := by
  cases takes with
  | intro _ _ present _ => exact ⟨rfl, present⟩

theorem Takes.length_lt {step : Step} (takes : Takes lexer modes text step left) :
    left.length < text.length := by
  obtain ⟨split, present⟩ := takes.split
  have longer := List.length_pos_iff.mpr present
  rw [split, List.length_append]
  omega

theorem Goes.split (goes : Goes lexer modes text steps last left) :
    text = steps.flatMap (·.taken) ++ left := by
  induction goes with
  | stay => rfl
  | step takes _ _ ih =>
      obtain ⟨split, _⟩ := takes.split
      rw [split, ih, List.flatMap_cons, List.append_assoc]

theorem Goes.length_le (goes : Goes lexer modes text steps last left) :
    steps.length ≤ text.length := by
  induction goes with
  | stay => exact Nat.zero_le _
  | step takes _ _ ih =>
      have shorter := takes.length_lt
      rw [List.length_cons]
      omega

/-- A mode is kept in mind from where it is left behind to where it is returned to. -/
theorem Goes.balance (goes : Goes lexer modes text steps last left) :
    last.outer.length + steps.countP Step.pops = modes.outer.length + steps.countP Step.pushes := by
  induction goes with
  | stay => rfl
  | step _ moves _ ih =>
      cases moves with
      | enter pushes =>
          simp [Step.pops, Step.pushes, pushes] at ih ⊢
          omega
      | leave stays pops =>
          simp [Step.pops, Step.pushes, stays, pops] at ih ⊢
          omega
      | stay stays keeps =>
          simp [Step.pops, Step.pushes, stays, keeps] at ih ⊢
          omega

end Goes

/-! A lexer does not get into a mode that it does not have. -/

/-- A lexer that has its first mode and those that its definitions enter. -/
structure Closed (lexer : Lexer) : Prop where
  initial : ∃ mode, lexer.modes.find? (·.name == lexer.initial) = some mode
  pushed : ∀ name mode definition target, lexer.modes.find? (·.name == name) = some mode →
    definition ∈ mode.definitions → definition.push = some target →
    ∃ other, lexer.modes.find? (·.name == target) = some other

/-- All modes that a lexer is in, or has to return to, are modes that it has. -/
def Knows (lexer : Lexer) (modes : ModeStack) : Prop :=
  ∀ name ∈ modes.current :: modes.outer, ∃ mode, lexer.modes.find? (·.name == name) = some mode

theorem Closed.knows_initial {lexer : Lexer} (closed : Closed lexer) :
    Knows lexer ⟨lexer.initial, []⟩ := by
  intro name member
  obtain rfl := List.mem_singleton.mp member
  exact closed.initial

theorem mode_of_push {definitions : List TokenDefinition} {definition : TokenDefinition}
    (known : unknownMode? (groupByMode definitions) = none) (member : definition ∈ definitions)
    (pushes : definition.push = some target) :
    ∃ other ∈ definitions, other.mode = target := by
  have entered : target ∈ (groupByMode definitions).flatMap fun group =>
      group.2.filterMap (·.push) := by
    refine List.mem_flatMap.mpr
      ⟨(definition.mode, definitions.filter (·.mode == definition.mode)), ?_, ?_⟩
    · exact List.mem_map_of_mem (mem_foldl_modes.mpr (.inr ⟨definition, member, rfl⟩))
    · exact List.mem_filterMap.mpr ⟨definition, by simp [member], pushes⟩
  have grouped := List.find?_eq_none.mp known target entered
  obtain ⟨group, among, same⟩ : ∃ group ∈ groupByMode definitions, group.1 = target := by
    simpa using grouped
  obtain ⟨mode, listed, rfl⟩ := List.mem_map.mp among
  rcases mem_foldl_modes.mp listed with none | ⟨other, declared, called⟩
  · cases none
  · exact ⟨other, declared, called.trans same⟩

theorem closed_of_compile {library : RegexLibrary} {definitions : List TokenDefinition}
    {lexer : Lexer} (built : compile library definitions = .ok lexer) : Closed lexer := by
  cases definitions with
  | nil => cases built
  | cons first others =>
      obtain ⟨initial, modes⟩ := compile_ok built
      have known : unknownMode? (groupByMode (first :: others)) = none := by
        cases unknown : unknownMode? (groupByMode (first :: others)) with
        | none => rfl
        | some mode =>
            simp only [compile, unknown] at built
            cases built
      have found {definition : TokenDefinition} (member : definition ∈ first :: others) :
          ∃ mode, lexer.modes.find? (·.name == definition.mode) = some mode := by
        rcases modes definition.mode with ⟨mode, found, _⟩ | ⟨_, absent⟩
        · exact ⟨mode, found⟩
        · exact absurd rfl (absent definition member)
      refine ⟨initial ▸ found (List.mem_cons_self ..), ?_⟩
      intro name mode definition target present among pushes
      rcases modes name with ⟨_, same, own⟩ | ⟨none, _⟩
      · cases present.symm.trans same
        rw [(LexMode.compile_ok own).2.1] at among
        obtain ⟨other, declared, rfl⟩ := mode_of_push known (List.mem_of_mem_filter among) pushes
        exact found declared
      · cases present.symm.trans none

theorem mem_of_reported {mode : LexMode}
    (reported : mode.reported? text = some (definition, bytes)) :
    definition ∈ mode.definitions := by
  obtain ⟨spot, _, reported⟩ := Option.bind_eq_some_iff.mp reported
  obtain ⟨_, chosen, same⟩ := Option.map_eq_some_iff.mp reported
  cases same
  obtain ⟨⟨_, index⟩, found, rfl⟩ := Option.map_eq_some_iff.mp chosen
  exact List.fst_mem_of_mem_zipIdx (List.mem_of_find?_eq_some found)

section Run

variable {lexer : Lexer} {modes last : ModeStack} {text left : List Char} {steps : List Step}

theorem Knows.moves {step : Step} {next : ModeStack} (closed : Closed lexer)
    (knows : Knows lexer modes) (takes : Takes lexer modes text step left)
    (moves : Moves step.definition modes next) : Knows lexer next := by
  cases moves with
  | enter pushes =>
      cases takes with
      | intro found reported _ _ =>
          intro name member
          rcases List.mem_cons.mp member with rfl | kept
          · exact closed.pushed _ _ _ _ found (mem_of_reported reported) pushes
          · exact knows name kept
  | leave => exact fun name member => knows name (List.mem_cons_of_mem _ member)
  | stay => exact knows

theorem Goes.knows (closed : Closed lexer) (knows : Knows lexer modes)
    (goes : Goes lexer modes text steps last left) : Knows lexer last := by
  induction goes with
  | stay => exact knows
  | step takes moves _ ih => exact ih (knows.moves closed takes moves)

theorem ModeStack.after_eq_none {definition : TokenDefinition} :
    modes.after definition = none ↔
      definition.push = none ∧ definition.pop = true ∧ modes.outer = [] := by
  unfold after
  split <;> simp_all

theorem tokensFrom_goes (closed : Closed lexer) (knows : Knows lexer modes)
    (enough : text.length ≤ bound) (offset : Nat) :
    (∃ steps last, Goes lexer modes text steps last [] ∧
      lexer.tokensFrom bound modes offset text = .ok (steps.filterMap Step.token?)) ∨
    ∃ steps last left reason, Goes lexer modes text steps last left ∧ left ≠ [] ∧
      Refuses lexer last left reason ∧
      lexer.tokensFrom bound modes offset text = .error (reason (offset + extent steps)) := by
  -- The bound is one on the characters that are left. What carries the induction is that each step
  -- takes one of them and leads to modes that the lexer has.
  induction bound generalizing modes offset text with
  | zero =>
      obtain rfl := List.length_eq_zero_iff.mp (Nat.le_zero.mp enough)
      exact .inl ⟨[], modes, .stay, rfl⟩
  | succ bound ih =>
      match text with
      | [] => exact .inl ⟨[], modes, .stay, rfl⟩
      | c :: others =>
          have present : c :: others ≠ [] := List.cons_ne_nil c others
          obtain ⟨mode, found⟩ := knows modes.current (List.mem_cons_self ..)
          cases read : next mode offset (c :: others) with
          | error error =>
              obtain ⟨reason, rejects, rfl⟩ := next_rejects read
              refine .inr ⟨[], modes, _, reason, .stay, present, .rejects found rejects, ?_⟩
              simp only [tokensFrom, found, read]
              rfl
          | ok lexeme =>
              have takes := takes_of_next found read
              cases moved : modes.after lexeme.definition with
              | none =>
                  obtain ⟨stays, pops, outer⟩ := ModeStack.after_eq_none.mp moved
                  refine .inr ⟨[], modes, _, _, .stay, present,
                    .unentered takes stays pops outer, ?_⟩
                  simp only [tokensFrom, found, read, moved, bind, Except.bind]
                  rfl
              | some next =>
                  have moves := moves_iff.mpr moved
                  have fits : lexeme.rest.length ≤ bound :=
                    Nat.le_of_lt_succ (Nat.lt_of_lt_of_le takes.length_lt enough)
                  rw [tokensFrom_next present found read moved]
                  rcases ih (knows.moves closed takes moves) fits _ with
                    ⟨steps, last, goes, result⟩ | ⟨steps, last, left, reason, goes, remains, refuses, result⟩
                  · refine .inl ⟨_, last, .step takes moves goes, ?_⟩
                    rw [result, filterMap_step]
                    rfl
                  · refine .inr ⟨_, last, left, reason, .step takes moves goes, remains, refuses, ?_⟩
                    rw [result, extent_cons, ← Nat.add_assoc]
                    rfl

theorem tokensFrom_of_le (enough : text.length ≤ bound) (higher : bound ≤ other) :
    lexer.tokensFrom other modes offset text = lexer.tokensFrom bound modes offset text := by
  induction bound generalizing other modes offset text with
  | zero =>
      obtain rfl := List.length_eq_zero_iff.mp (Nat.le_zero.mp enough)
      cases other <;> rfl
  | succ bound ih =>
      obtain ⟨other, rfl⟩ : ∃ fewer, other = fewer + 1 := ⟨other - 1, by omega⟩
      match text with
      | [] => rfl
      | c :: others =>
          have present : c :: others ≠ [] := List.cons_ne_nil c others
          cases found : lexer.modes.find? (·.name == modes.current) with
          | none => simp only [tokensFrom, found]
          | some mode =>
              cases read : next mode offset (c :: others) with
              | error error =>
                  simp only [tokensFrom, found, read]
                  rfl
              | ok lexeme =>
                  cases moved : modes.after lexeme.definition with
                  | none =>
                      simp only [tokensFrom, found, read, moved, bind, Except.bind]
                  | some next =>
                      have takes := takes_of_next found read
                      have fits : lexeme.rest.length ≤ bound :=
                        Nat.le_of_lt_succ (Nat.lt_of_lt_of_le takes.length_lt enough)
                      rw [tokensFrom_next present found read moved,
                        tokensFrom_next present found read moved, ih fits (Nat.le_of_succ_le_succ higher)]

theorem Goes.pushes_lt_pops {step : Step} (goes : Goes lexer ⟨name, []⟩ text steps last left)
    (stays : step.definition.push = none) (pops : step.definition.pop = true)
    (outer : last.outer = []) :
    (steps ++ [step]).countP Step.pushes < (steps ++ [step]).countP Step.pops := by
  have balance := goes.balance
  simp only [outer, List.length_nil, Nat.zero_add] at balance
  simp [Step.pushes, Step.pops, stays, pops, balance]

end Run

/-- A place in a text behind some steps that lies between two characters, with a mode that the lexer
has. -/
structure Safe (lexer : Lexer) (source : String) (steps : List Step) (modes : ModeStack)
    (left : List Char) : Prop where
  split : source = String.ofList (steps.flatMap (·.taken)) ++ String.ofList left
  boundary : String.Pos.Raw.IsValid source ⟨extent steps⟩
  within : extent steps + Text.byteLength left = source.utf8ByteSize
  fewer : steps.length ≤ source.length
  known : ∃ mode, lexer.modes.find? (·.name == modes.current) = some mode

theorem Goes.safe {lexer : Lexer} {source : String} {steps : List Step} {modes : ModeStack}
    {left : List Char} (closed : Closed lexer)
    (goes : Goes lexer ⟨lexer.initial, []⟩ source.toList steps modes left) :
    Safe lexer source steps modes left := by
  have split : source = String.ofList (steps.flatMap (·.taken)) ++ String.ofList left := by
    rw [← String.ofList_append, ← goes.split, String.ofList_toList]
  refine ⟨split, ?_, ?_, String.length_toList ▸ goes.length_le, goes.knows closed closed.knows_initial _ (by simp)⟩
  · refine String.Pos.Raw.isValid_iff_exists_append.mpr ⟨_, _, split, ?_⟩
    rw [String.rawEndPos, Text.utf8ByteSize_ofList, extent]
  · rw [split, String.utf8ByteSize_append, Text.utf8ByteSize_ofList, Text.utf8ByteSize_ofList, extent]

/-- Whatever the regular expressions of a table find, by any library that has compiled them, and
whatever the spans of its definitions answer, a lexer goes from one safe place to the next. It
comes to the end of the source or gives up before it, for a reason that lies in the table and with
the place where it stands. It has no mode to return to only if it has left more modes than it has
entered. -/
theorem tokenise_safe {library : RegexLibrary} {definitions : List TokenDefinition} {lexer : Lexer}
    (built : compile library definitions = .ok lexer) (source : String) :
    let start : ModeStack := ⟨lexer.initial, []⟩
    (∀ steps modes left, Goes lexer start source.toList steps modes left →
      Safe lexer source steps modes left) ∧
    (∀ bound, source.length ≤ bound →
      lexer.tokensFrom bound start 0 source.toList = lexer.tokenise source) ∧
    (∀ tokens, lexer.tokenise source = .ok tokens →
      ∃ steps modes, Goes lexer start source.toList steps modes [] ∧
        tokens = steps.filterMap Step.token?) ∧
    ∀ error, lexer.tokenise source = .error error →
      ∃ steps modes left reason, Goes lexer start source.toList steps modes left ∧
        extent steps < source.utf8ByteSize ∧ Refuses lexer modes left reason ∧
        error = reason (extent steps) ∧
        (error = .noMatch (extent steps) ∨ error = .emptyMatch (extent steps) ∨
          error = .noModeToPop (extent steps) ∧
            ∃ step rest, Takes lexer modes left step rest ∧
              (steps ++ [step]).countP Step.pushes < (steps ++ [step]).countP Step.pops) := by
  intro start
  have closed := closed_of_compile built
  have ends := tokensFrom_goes closed closed.knows_initial (Nat.le_refl source.toList.length) 0
  refine ⟨fun steps modes left goes => goes.safe closed, fun bound enough => ?_,
    fun tokens done => ?_, fun error failed => ?_⟩
  · exact tokensFrom_of_le (Nat.le_refl _) (String.length_toList ▸ enough)
  · rcases ends with ⟨steps, modes, goes, result⟩ | ⟨_, _, _, _, _, _, _, result⟩
    · cases done.symm.trans result
      exact ⟨steps, modes, goes, rfl⟩
    · cases done.symm.trans result
  · rcases ends with ⟨_, _, _, result⟩ | ⟨steps, modes, left, reason, goes, remains, refuses, result⟩
    · cases failed.symm.trans result
    · cases failed.symm.trans result
      have within := (goes.safe closed).within
      have bytes := Nat.pos_of_ne_zero (mt Text.byteLength_eq_zero.mp remains)
      rw [Nat.zero_add]
      refine ⟨steps, modes, left, reason, goes, by omega, refuses, rfl, ?_⟩
      cases refuses with
      | rejects found rejects => cases rejects <;> simp
      | unentered takes stays pops outer =>
          exact .inr (.inr ⟨rfl, _, _, takes, goes.pushes_lt_pops stays pops outer⟩)

/-- Brackets, and spans that end inside a character or far behind the text. -/
def spannedTable : List TokenDefinition := [
  { pattern := "\\(", push := some "inner" },
  { pattern := "\\)", pop := true },
  { pattern := "é", span := some fun _ => 1 },
  { pattern := "z", span := some fun _ => 18446744073709551615 },
  { pattern := "\\)", mode := "inner", pop := true }]

theorem tokenise_safe_spanned :
    ∃ lexer, ofDefinitions spannedTable = .ok lexer ∧
      lexer.tokenise "()é" = .error (.noMatch 2) ∧ lexer.tokenise "()z" = .error (.noMatch 2) ∧
      lexer.tokenise "())" = .error (.noModeToPop 2) ∧
      ∃ steps modes left step rest,
        Goes lexer ⟨lexer.initial, []⟩ "())".toList steps modes left ∧
        Takes lexer modes left step rest ∧
        (steps ++ [step]).countP Step.pushes < (steps ++ [step]).countP Step.pops := by
  obtain ⟨lexer, built, inside, far, unentered⟩ : ∃ lexer, ofDefinitions spannedTable = .ok lexer ∧
      lexer.tokenise "()é" = .error (.noMatch 2) ∧ lexer.tokenise "()z" = .error (.noMatch 2) ∧
      lexer.tokenise "())" = .error (.noModeToPop 2) := ⟨_, rfl, rfl, rfl, rfl⟩
  refine ⟨lexer, built, inside, far, unentered, ?_⟩
  obtain ⟨_, _, _, gaveUp⟩ := tokenise_safe built "())"
  obtain ⟨steps, modes, left, _, goes, _, _, _, cause⟩ := gaveUp _ unentered
  rcases cause with other | other | ⟨_, step, rest, takes, more⟩
  · cases other
  · cases other
  · exact ⟨steps, modes, left, step, rest, goes, takes, more⟩

end Lexer
end TokenGrammar
