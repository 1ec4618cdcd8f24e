import TokenGrammar.Text.CaseFolding
import TokenGrammar.Text.Space
import TokenGrammar.Text.WordCharacter

namespace TokenGrammar

/-- A set of characters, as patterns write it. -/
inductive CharSet where
  | none
  | any
  | range (first last : Nat)
  | digit
  | space
  | word
  | union (left right : CharSet)
  | complement (set : CharSet)
  /-- The characters that differ from a member at most in case. -/
  | caseless (set : CharSet)
deriving DecidableEq, Repr

namespace CharSet

def contains : CharSet → Char → Bool
  | none, _ => false
  | any, _ => true
  | range first last, c => decide (first ≤ c.toNat ∧ c.toNat ≤ last)
  | digit, c => Text.isDecimalDigit c
  | space, c => Text.isSpace c
  | word, c => Text.isWordCharacter c
  | union left right, c => left.contains c || right.contains c
  | complement set, c => !set.contains c
  | caseless set, c => (Text.caseVariants c.toNat).any fun code => set.contains (Char.ofNat code)

def one (c : Char) : CharSet := range c.toNat c.toNat

theorem contains_one (c d : Char) : (one c).contains d = (c == d) := by
  have same : c.toNat ≤ d.toNat ∧ d.toNat ≤ c.toNat ↔ c = d := by
    rw [← Nat.le_antisymm_iff, Char.toNat_inj]
  rw [Bool.eq_iff_iff, beq_iff_eq, ← same]
  simp [one, contains]

end CharSet
end TokenGrammar
