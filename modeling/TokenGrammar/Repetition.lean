namespace TokenGrammar

/-- How often a repeated field occurs: at least `min` times, and at most `max` times if there is
a maximum. -/
structure Repetition where
  min : Nat
  max : Option Nat
deriving DecidableEq, Repr

namespace Repetition

def unbounded : Repetition := ⟨0, none⟩

/-- Whether one more repetition may follow `count` of them. -/
def allowsMore (repetition : Repetition) (count : Nat) : Bool :=
  repetition.max.all fun max => decide (count < max)

def describe (repetition : Repetition) : String :=
  toString repetition.min ++ match repetition.max with
    | none => ".."
    | some max => "..=" ++ toString max

@[simp] theorem allowsMore_unbounded (min count : Nat) : allowsMore ⟨min, none⟩ count = true := rfl

@[simp] theorem allowsMore_bounded (min max count : Nat) :
    allowsMore ⟨min, some max⟩ count = decide (count < max) := rfl

end Repetition
end TokenGrammar
