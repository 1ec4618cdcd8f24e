import Mathlib.Data.List.Forall2
import TokenGrammar.Lexer.Table
import TokenGrammar.Proofs.Pattern.Branches
import TokenGrammar.Proofs.Pattern.Match

namespace TokenGrammar

/-! The pattern of a mode is the choice, in order, of the patterns of its definitions. -/

/-- Things that are each related to another one, one by one. -/
theorem exists_forall₂ {relation : α → β → Prop} {list : List α}
    (each : ∀ item ∈ list, ∃ other, relation item other) : ∃ others, List.Forall₂ relation list others := by
  induction list with
  | nil => exact ⟨[], .nil⟩
  | cons item rest ih =>
      obtain ⟨other, related⟩ := each item (by simp)
      obtain ⟨others, further⟩ := ih fun item member => each item (by simp [member])
      exact ⟨other :: others, .cons related further⟩

namespace LexMode

open Pattern

/-- The text of the branch for a definition, up to some text after it. -/
def branchText (index : Nat) (definition : TokenDefinition) (after : List Char) : List Char :=
  '(' :: '?' :: 'P' :: '<' ::
    ((groupName index).toList ++ '>' :: (definition.pattern.toList ++ ')' :: after))

/-- The text of the branches from the definition with an index on, up to some text after them. -/
def branchesText (index : Nat) : List TokenDefinition → List Char → List Char
  | [], after => after
  | [definition], after => branchText index definition after
  | definition :: definitions, after =>
    branchText index definition ('|' :: branchesText (index + 1) definitions after)

/-- The branches from the definition with an index on. -/
def branches (index : Nat) : List Pattern → List Pattern
  | [] => []
  | pattern :: patterns => named (groupName index) pattern :: branches (index + 1) patterns

theorem toList_intercalate (index : Nat) (definitions : List TokenDefinition) (after : List Char) :
    ("|".intercalate (definitions.mapIdx fun place definition =>
      "(?P<" ++ groupName (place + index) ++ ">" ++ definition.pattern ++ ")")).toList ++ after =
      branchesText index definitions after := by
  induction definitions generalizing index with
  | nil => rfl
  | cons definition definitions ih =>
      have further := ih (index + 1)
      cases definitions with
      | nil => simp [branchesText, branchText]
      | cons other definitions =>
          have shifted (place : Nat) : place + 1 + index = place + (index + 1) := by omega
          simp only [List.mapIdx_cons] at further ⊢
          simp only [String.intercalate_cons_cons, branchesText, ← further, shifted]
          simp [branchText, -String.toList_intercalate]

theorem toList_patternText (definitions : List TokenDefinition) :
    (patternText definitions).toList = '^' :: '(' :: '?' :: ':' :: branchesText 0 definitions [')'] := by
  rw [← toList_intercalate 0 definitions]
  simp only [patternText, String.toList_append, List.append_assoc]
  rfl

theorem toList_groupName (index : Nat) :
    (groupName index).toList = '_' :: '_' :: 't' :: 'o' :: 'k' :: Nat.toDigits 10 index := by
  simp [groupName, Nat.toString_eq_repr, Nat.toList_repr]

theorem isNamePart_of_isDigit {c : Char} (digit : c.isDigit = true) :
    isNamePart c = true ∧ c ≠ '>' := by
  have ascii : c.toNat < 0x80 := by
    have bounds := Char.isDigit_iff_toNat.mp digit
    have nine : '9'.toNat = 57 := rfl
    omega
  refine ⟨by simp [isNamePart, Text.isWordCharacter, ascii, Char.isAlphanum, digit], ?_⟩
  intro same
  subst same
  cases digit

theorem groupName_parts (index : Nat) :
    ∀ c ∈ (groupName index).toList, isNamePart c = true ∧ c ≠ '>' := by
  rw [toList_groupName]
  intro c member
  simp only [List.mem_cons] at member
  rcases member with rfl | rfl | rfl | rfl | rfl | member
  · decide
  · decide
  · decide
  · decide
  · decide
  · exact isNamePart_of_isDigit (Nat.isDigit_of_mem_toDigits (by decide) (by decide) member)

theorem readName_groupName (index : Nat) (rest : List Char) :
    readName ((groupName index).toList ++ '>' :: rest) = .ok (groupName index, rest) := by
  have kept : ∀ c ∈ (groupName index).toList, (c != '>') = true := fun c member => by
    simpa using (groupName_parts index c member).2
  have taken : ((groupName index).toList ++ '>' :: rest).takeWhile (· != '>') =
      (groupName index).toList := by
    simp [List.takeWhile_append_of_pos kept]
  have left : ((groupName index).toList ++ '>' :: rest).dropWhile (· != '>') = '>' :: rest := by
    simp [List.dropWhile_append_of_pos kept]
  have parts := fun c member => (groupName_parts index c member).1
  have whole : String.ofList (groupName index).toList = groupName index := String.ofList_toList
  rw [readName, taken, left]
  rw [toList_groupName] at parts whole ⊢
  have start : isNameStart '_' = true := by decide
  have more : ('_' :: 't' :: 'o' :: 'k' :: Nat.toDigits 10 index).all isNamePart = true :=
    List.all_eq_true.mpr fun c member => parts c (List.mem_cons_of_mem _ member)
  simp only [start, more, and_self, if_true, whole]

/-- The branches of a mode's pattern are read as the patterns of the definitions are read by
themselves. -/
theorem run_branches {reader : Reader} {definitions : List TokenDefinition}
    {patterns : List Pattern} (plain : reader.flags = {}) (naming : reader.Naming)
    (around : reader.around = outer :: others)
    (unnamed : reader.group.name = none) (opened : reader.group.items = [])
    (standalone : List.Forall₂ (fun definition pattern =>
      Standalone definition.pattern.toList pattern) definitions patterns)
    (present : definitions ≠ [])
    (accepted : reader.run steps (branchesText index definitions [')']) = .ok result) :
    reader.Branched outer others (branches index patterns) result := by
  induction standalone generalizing reader index steps with
  | nil => exact absurd rfl present
  | cons standalone further ih =>
      cases further with
      | nil =>
          obtain ⟨inside, left, within, naming, accepted⟩ :=
            Reader.run_group plain naming standalone (readName_groupName index) accepted
          exact Reader.branched_last around unnamed opened within naming accepted
      | cons next further =>
          obtain ⟨inside, left, within, naming, accepted⟩ :=
            Reader.run_group plain naming standalone (readName_groupName index) accepted
          obtain ⟨_, _, _, rfl, step, accepted⟩ := Reader.run_cons (by simp) accepted
          have ended := naming.step step
          cases (Reader.step_bar (by exact plain) _).symm.trans step
          exact Reader.branched_cons opened within naming
            (ih (by exact plain) ended around unnamed rfl (by simp) accepted)

theorem ofText_patternText {definitions : List TokenDefinition} {patterns : List Pattern}
    {whole : Pattern} (standalone : List.Forall₂ (fun definition pattern =>
      Standalone definition.pattern.toList pattern) definitions patterns)
    (present : definitions ≠ [])
    (read : ofText (patternText definitions).toList = .ok whole) :
    whole = seq (anchor .textStart) (choice (branches 0 patterns)) ∧
      (branches 0 patterns).Pairwise fun one other =>
        one.groupNames.Disjoint other.groupNames := by
  obtain ⟨last, ran, _, rfl⟩ := run_of_ofText read
  rw [toList_patternText] at ran
  obtain ⟨_, anchored, _, _, begins, ran⟩ := Reader.run_cons (by simp) ran
  have naming := Reader.Naming.start.step begins
  cases begins
  obtain ⟨_, _, _, _, opens, ran⟩ := Reader.run_cons (by simp) ran
  have naming := naming.step opens
  cases opens
  have read := run_branches rfl naming rfl rfl rfl standalone present ran
  refine ⟨?_, read.apart⟩
  rw [read.group]
  rfl

end LexMode

/-- How many bytes the pattern of a definition matches at the start of a text. -/
def TokenDefinition.matches? (definition : TokenDefinition) (text : List Char) : Option Nat :=
  match Pattern.ofText definition.pattern.toList with
  | .ok pattern => (pattern.matchAt (.start text)).map (·.bytes)
  | .error _ => none

/-- The first definition whose pattern matches at the start of a text, and how many bytes. -/
def firstMatch? (definitions : List TokenDefinition) (text : List Char) :
    Option (TokenDefinition × Nat) :=
  definitions.findSome? fun definition => (definition.matches? text).map (definition, ·)

namespace LexMode

open Pattern

/-- The definition that a mode's pattern reports, and how many bytes have been matched. -/
def reported? (mode : LexMode) (text : List Char) : Option (TokenDefinition × Nat) :=
  (mode.regex text).bind fun captures =>
    (mode.chosen? captures).map fun definition => (definition, captures.stop)

theorem branches_report {definitions : List TokenDefinition} {patterns : List Pattern}
    (standalone : List.Forall₂ (fun definition pattern =>
      Standalone definition.pattern.toList pattern) definitions patterns)
    (apart : (branches index patterns).Pairwise fun one other =>
      one.groupNames.Disjoint other.groupNames) (text : List Char) :
    (((branches index patterns).findSome? (·.matchAt (.start text))).bind fun spot =>
      ((definitions.zipIdx index).find? fun (_, place) => spot.names.contains (groupName place)).map
        fun found => (found.1, spot.bytes)) = firstMatch? definitions text := by
  induction standalone generalizing index with
  | nil => rfl
  | @cons definition pattern definitions patterns standalone further ih =>
      have ⟨first, later⟩ := List.pairwise_cons.mp apart
      have own : definition.matches? text = (pattern.matchAt (.start text)).map (·.bytes) := by
        rw [TokenDefinition.matches?, standalone.1]
      rw [branches, List.findSome?_cons, matchAt_named, firstMatch?, List.findSome?_cons, own,
        List.zipIdx_cons]
      cases matched : pattern.matchAt (.start text) with
      | some after => simp
      | none =>
          rw [← firstMatch?, ← ih later]
          refine Option.bind_congr fun spot found => ?_
          obtain ⟨branch, member, found⟩ := List.exists_of_findSome?_eq_some found
          have absent : groupName index ∉ spot.names := by
            intro reported
            have its := (names_of_matchAt found _ reported).resolve_right (by simp [Spot.start])
            exact first branch member (List.mem_cons_self ..) its
          simp [absent]

theorem compile_ok {library : RegexLibrary} {name : String} {definitions : List TokenDefinition}
    {mode : LexMode} (built : compile library name definitions = .ok mode) :
    mode.name = name ∧ mode.definitions = definitions ∧
      library (patternText definitions) = .ok mode.regex := by
  unfold compile at built
  split at built
  · rename_i regex read
    cases built
    exact ⟨rfl, rfl, read⟩
  · cases built

theorem library_ok {text : String} {regex : Regex} (read : library text = .ok regex) :
    ∃ pattern, ofText text.toList = .ok pattern ∧ regex = pattern.captures := by
  unfold library at read
  split at read
  · rename_i pattern same
    cases read
    exact ⟨pattern, same, rfl⟩
  · cases read

/-- A mode reports the first of its definitions whose own pattern matches, and what that matches. -/
theorem reported?_eq {name : String} {definitions : List TokenDefinition} {mode : LexMode}
    (built : compile library name definitions = .ok mode)
    (standalone : ∀ definition ∈ definitions,
      ∃ pattern, Standalone definition.pattern.toList pattern) (text : List Char) :
    mode.reported? text = firstMatch? definitions text := by
  obtain ⟨_, same, compiled⟩ := compile_ok built
  obtain ⟨whole, read, captures⟩ := library_ok compiled
  cases definitions with
  | nil => simp [reported?, chosen?, same, firstMatch?]
  | cons definition definitions =>
      obtain ⟨patterns, each⟩ := exists_forall₂ standalone
      obtain ⟨pattern, apart⟩ := ofText_patternText each (by simp) read
      have present : branches 0 patterns ≠ [] := by
        cases each
        simp [branches]
      rw [← branches_report each apart, reported?, captures, Pattern.captures, pattern,
        search_anchored, matchAt_choice present, Option.bind_map]
      simp only [chosen?, same, Option.map_map]
      rfl

end LexMode
end TokenGrammar
