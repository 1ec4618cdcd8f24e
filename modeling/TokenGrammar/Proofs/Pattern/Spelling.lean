import Mathlib.Data.List.Basic
import TokenGrammar.Proofs.Pattern.Runs

namespace TokenGrammar

/-! The texts that patterns stand for, whichever of them a match would take. -/

namespace CharSet

/-- The class of some characters, which are written one by one. -/
def listed (members : List Char) : CharSet :=
  members.foldl (fun set c => .union set (.one c)) .none

theorem listed_contains {members : List Char} {c : Char} :
    (listed members).contains c = true ↔ c ∈ members := by
  suffices folded : ∀ set : CharSet,
      (members.foldl (fun set c => .union set (.one c)) set).contains c = true ↔
        set.contains c = true ∨ c ∈ members from (folded .none).trans (by simp [contains])
  induction members with
  | nil => simp
  | cons d members ih =>
      intro set
      rw [List.foldl_cons, ih]
      simp only [contains, contains_one, Bool.or_eq_true, beq_iff_eq, List.mem_cons, or_assoc,
        eq_comm (a := d)]

/-- The class of the ASCII digits. -/
def decimal : CharSet := .union .none (.range 48 57)

theorem decimal_contains (c : Char) : decimal.contains c = c.isDigit := by
  rw [Bool.eq_iff_iff, Char.isDigit_iff_toNat]
  simp [decimal, contains]

end CharSet

namespace Pattern

/-- A pattern stands for a text. Anchors stand for no text, and whether they hold is left open. -/
def Spells : Pattern → List Char → Prop
  | empty, text => text = []
  | one set, text => ∃ c, set.contains c = true ∧ text = [c]
  | anchor _, text => text = []
  | seq first second, text =>
    ∃ left right, first.Spells left ∧ second.Spells right ∧ text = left ++ right
  | either left right, text => left.Spells text ∨ right.Spells text
  | named _ body, text => body.Spells text
  | repeated _ min max body, text => ∃ parts : List (List Char), min ≤ parts.length ∧
      (∀ most, max = some most → parts.length ≤ most) ∧
      (∀ part ∈ parts, body.Spells part) ∧ text = parts.flatten

variable {text : List Char} {body first second : Pattern} {set : CharSet}

@[simp] theorem spells_one : (one set).Spells text ↔ ∃ c, set.contains c = true ∧ text = [c] :=
  Iff.rfl

@[simp] theorem spells_seq : (seq first second).Spells text ↔
    ∃ left right, first.Spells left ∧ second.Spells right ∧ text = left ++ right := Iff.rfl

@[simp] theorem spells_either :
    (either first second).Spells text ↔ first.Spells text ∨ second.Spells text := Iff.rfl

theorem spells_any {greedy : Bool} : (repeated greedy 0 none body).Spells text ↔
    ∃ parts : List (List Char), (∀ part ∈ parts, body.Spells part) ∧ text = parts.flatten := by
  simp [Spells]

theorem spells_word {characters : List Char} :
    (word characters).Spells text ↔ text = characters := by
  have single (c : Char) (text : List Char) : (one (.one c)).Spells text ↔ text = [c] := by
    simp [CharSet.contains_one]
  induction characters generalizing text with
  | nil => rfl
  | cons c characters ih =>
      cases characters with
      | nil => exact single c text
      | cons d characters =>
          have whole : word (c :: d :: characters) =
              seq (one (.one c)) (word (d :: characters)) := rfl
          simp only [whole, spells_seq, single, ih]
          simp

theorem spells_optional {greedy : Bool} :
    (repeated greedy 0 (some 1) body).Spells text ↔ text = [] ∨ body.Spells text := by
  constructor
  · rintro ⟨parts, -, few, each, rfl⟩
    match parts, few 1 rfl with
    | [], _ => exact .inl rfl
    | [part], _ => exact .inr (by simpa using each)
  · rintro (rfl | once)
    · exact ⟨[], by simp⟩
    · exact ⟨[text], by simpa using once⟩

theorem spells_run {greedy : Bool} : (repeated greedy 1 none (one set)).Spells text ↔
    text ≠ [] ∧ ∀ c ∈ text, set.contains c = true := by
  constructor
  · rintro ⟨parts, some, -, each, rfl⟩
    cases parts with
    | nil => cases some
    | cons part parts =>
        obtain ⟨c, _, rfl⟩ := each part (by simp)
        refine ⟨by simp, fun d member => ?_⟩
        obtain ⟨part, among, inside⟩ := List.mem_flatten.mp member
        obtain ⟨d, held, rfl⟩ := each part among
        obtain rfl := List.mem_singleton.mp inside
        exact held
  · rintro ⟨present, all⟩
    refine ⟨text.map ([·]), ?_, nofun, fun part member => ?_, ?_⟩
    · simpa [List.length_pos_iff, Nat.one_le_iff_ne_zero] using present
    · obtain ⟨c, among, rfl⟩ := List.mem_map.mp member
      exact ⟨c, all c among, rfl⟩
    · rw [← List.flatMap_def, List.flatMap_singleton']

end Pattern
end TokenGrammar
