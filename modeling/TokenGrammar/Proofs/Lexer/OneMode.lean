import TokenGrammar.Proofs.Lexer.Separation
import TokenGrammar.Proofs.Lexer.Steps

namespace TokenGrammar

/-! Tables without modes and without spans. Such a table cuts a text piece by piece, and what it cuts off at
some place depends on the text from there on only. -/

/-- A definition that neither enters a mode nor leaves one, and takes what its pattern matches. -/
structure TokenDefinition.Plain (definition : TokenDefinition) : Prop where
  mode : definition.mode = ""
  push : definition.push = none
  pop : definition.pop = false
  span : definition.span = none

namespace Lexer

/-- The first definition whose pattern matches decides. -/
def cutter (definitions : List TokenDefinition) : Cutter := fun text =>
  (firstMatch? definitions text).bind fun (definition, bytes) =>
    (Text.splitBytes bytes text).map fun (taken, _) => (definition.name, taken)

variable {definitions : List TokenDefinition} {definition : TokenDefinition} {taken rest : List Char}

theorem cutter_of_match
    (first : firstMatch? definitions (taken ++ rest) = some (definition, Text.byteLength taken)) :
    cutter definitions (taken ++ rest) = some (definition.name, taken) := by
  simp [cutter, first, Text.splitBytes_append]

theorem match_of_cutter {name : Option String} (next : cutter definitions text = some (name, taken)) :
    ∃ definition rest, firstMatch? definitions text = some (definition, Text.byteLength taken) ∧
      definition.name = name ∧ text = taken ++ rest := by
  obtain ⟨⟨definition, bytes⟩, first, next⟩ := Option.bind_eq_some_iff.mp next
  obtain ⟨⟨word, rest⟩, cut, same⟩ := Option.map_eq_some_iff.mp next
  cases same
  obtain ⟨split, length⟩ := Text.splitBytes_eq_some cut
  exact ⟨definition, rest, length ▸ first, rfl, split⟩

theorem mem_of_firstMatch? {bytes : Nat} (first : firstMatch? definitions text = some (definition, bytes)) :
    definition ∈ definitions ∧ definition.matches? text = some bytes := by
  obtain ⟨_, member, found⟩ := List.exists_of_findSome?_eq_some first
  obtain ⟨_, matched, same⟩ := Option.map_eq_some_iff.mp found
  cases same
  exact ⟨member, matched⟩

section Plain

variable (plain : ∀ definition ∈ definitions, definition.Plain)
include plain

theorem decides_iff {bytes : Nat} : Decides definitions "" text definition bytes ↔
    firstMatch? definitions text = some (definition, bytes) := by
  have all : definitions.filter (·.mode == "") = definitions :=
    List.filter_eq_self.mpr fun definition member => by simp [(plain definition member).mode]
  rw [← firstMatch?_filter, all]

theorem cuts_of_steps {outer : List String} (run : Steps definitions ⟨"", outer⟩ text steps) :
    (cutter definitions).Cuts text (steps.filterMap Step.token?) := by
  generalize modes : ModeStack.mk "" outer = stack at run
  induction run with
  | done => exact .done
  | @step _ _ definition bytes taken rest steps decides present length moves _ ih =>
      subst modes
      have first := (decides_iff plain).mp decides
      have own := plain definition (mem_of_firstMatch? first).1
      rw [show bytes = Text.byteLength taken by rw [length, own.span]; rfl] at first
      have further := ih (by
        cases moves with
        | enter pushes => simp [own.push] at pushes
        | leave _ pops => simp [own.pop] at pops
        | stay => rfl)
      have next := cutter_of_match first
      cases called : definition.name with
      | none =>
          rw [List.filterMap_cons_none (by simp [Step.token?, called])]
          exact .skip (called ▸ next) present further
      | some type =>
          have kept : Step.token? ⟨definition, taken⟩ = some (.ordinary type (String.ofList taken)) := by
            simp [Step.token?, called]
          rw [List.filterMap_cons_some kept]
          exact .token (called ▸ next) present further

theorem step_of_cut {name : Option String} {modes : ModeStack} (inMode : modes.current = "")
    (next : cutter definitions (taken ++ rest) = some (name, taken)) (present : taken ≠ [])
    (run : Steps definitions modes rest steps) :
    ∃ definition, definition.name = name ∧
      Steps definitions modes (taken ++ rest) (⟨definition, taken⟩ :: steps) := by
  obtain ⟨definition, _, first, called, _⟩ := match_of_cutter next
  have own := plain definition (mem_of_firstMatch? first).1
  refine ⟨definition, called, .step (inMode ▸ (decides_iff plain).mpr first) present ?_
    (.stay own.push own.pop) run⟩
  rw [own.span]
  rfl

theorem steps_of_cuts (cuts : (cutter definitions).Cuts text tokens) :
    ∃ steps, Steps definitions ⟨"", []⟩ text steps ∧ tokens = steps.filterMap Step.token? := by
  induction cuts with
  | done => exact ⟨[], .done, rfl⟩
  | skip next present _ ih =>
      obtain ⟨steps, run, rfl⟩ := ih
      obtain ⟨definition, called, whole⟩ := step_of_cut plain rfl next present run
      exact ⟨_, whole, by simp [Step.token?, called]⟩
  | token next present _ ih =>
      obtain ⟨steps, run, rfl⟩ := ih
      obtain ⟨definition, called, whole⟩ := step_of_cut plain rfl next present run
      exact ⟨_, whole, by simp [Step.token?, called]⟩

end Plain

theorem tokenise_iff_cuts {first : TokenDefinition} {others : List TokenDefinition} {lexer : Lexer}
    (plain : ∀ definition ∈ first :: others, definition.Plain)
    (standalone : ∀ definition ∈ first :: others,
      ∃ pattern, Pattern.Standalone definition.pattern.toList pattern)
    (built : ofDefinitions (first :: others) = .ok lexer) {source : String} :
    lexer.tokenise source = .ok tokens ↔ (cutter (first :: others)).Cuts source.toList tokens := by
  obtain ⟨initial, modes⟩ := ofDefinitions_ok built
  rw [(plain first (by simp)).mode] at initial
  rw [tokenise, initial]
  constructor
  · intro read
    obtain ⟨steps, run, rfl⟩ := steps_of_tokensFrom modes standalone read
    exact cuts_of_steps plain run
  · intro cuts
    obtain ⟨steps, run, rfl⟩ := steps_of_cuts plain cuts
    exact tokensFrom_of_steps modes standalone run (Nat.le_refl _)

end Lexer
end TokenGrammar
