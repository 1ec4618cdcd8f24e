import TokenGrammar.Tree

namespace TokenGrammar

/-! Whether two trees are the same can be computed, so that a run can be compared with what it
should yield. -/

mutual

def Tree.same : Tree → Tree → Bool
  | .token left, .token right => decide (left = right)
  | .mark, .mark => true
  | .node rule slots, .node other others => decide (rule = other) && Slot.allSame slots others
  | _, _ => false

def Slot.same : Slot → Slot → Bool
  | .mk name cardinality values, .mk other otherCardinality others =>
    decide (name = other) && decide (cardinality = otherCardinality) && Tree.allSame values others

def Tree.allSame : List Tree → List Tree → Bool
  | [], [] => true
  | tree :: trees, other :: others => tree.same other && Tree.allSame trees others
  | _, _ => false

def Slot.allSame : List Slot → List Slot → Bool
  | [], [] => true
  | slot :: slots, other :: others => slot.same other && Slot.allSame slots others
  | _, _ => false

end

mutual

theorem Tree.same_iff : ∀ left right : Tree, left.same right = true ↔ left = right
  | .token left, .token right => by simp [Tree.same]
  | .mark, .mark => by simp [Tree.same]
  | .node rule slots, .node other others => by simp [Tree.same, Slot.allSame_iff slots others]
  | .token _, .mark | .token _, .node _ _ | .mark, .token _ => by simp [Tree.same]
  | .mark, .node _ _ | .node _ _, .token _ | .node _ _, .mark => by simp [Tree.same]

theorem Slot.same_iff : ∀ left right : Slot, left.same right = true ↔ left = right
  | .mk name cardinality values, .mk other otherCardinality others => by
      simp [Slot.same, Tree.allSame_iff values others, and_assoc]

theorem Tree.allSame_iff : ∀ left right : List Tree, Tree.allSame left right = true ↔ left = right
  | [], [] => by simp [Tree.allSame]
  | tree :: trees, other :: others => by
      simp [Tree.allSame, Tree.same_iff tree other, Tree.allSame_iff trees others]
  | [], _ :: _ | _ :: _, [] => by simp [Tree.allSame]

theorem Slot.allSame_iff : ∀ left right : List Slot, Slot.allSame left right = true ↔ left = right
  | [], [] => by simp [Slot.allSame]
  | slot :: slots, other :: others => by
      simp [Slot.allSame, Slot.same_iff slot other, Slot.allSame_iff slots others]
  | [], _ :: _ | _ :: _, [] => by simp [Slot.allSame]

end

instance : DecidableEq Tree := fun left right =>
  decidable_of_iff (left.same right = true) (Tree.same_iff left right)

end TokenGrammar
