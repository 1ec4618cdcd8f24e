namespace TokenGrammar

/-- A number of the IEEE format binary64. A finite one is `mantissa * 2 ^ exponent`, with the
smallest exponent from -1074 on for which the mantissa is below `2 ^ 53`. -/
inductive Binary64 where
  | finite (negative : Bool) (mantissa : Nat) (exponent : Int)
  | infinite (negative : Bool)
  | notANumber
deriving DecidableEq, Repr

namespace Binary64

def minExponent : Int := -1074

def maxExponent : Int := 971

def zero (negative : Bool) : Binary64 := finite negative 0 minExponent

/-- The quotient rounded to the nearest natural number, a tie to the even one. -/
def roundQuotient (num den : Nat) : Nat :=
  let quotient := num / den
  let rest := num % den
  if 2 * rest < den then quotient
  else if den < 2 * rest then quotient + 1
  else quotient + quotient % 2

/-- The quotient of `num` and `den * 2 ^ exponent`, rounded. -/
def scaledQuotient (num den : Nat) (exponent : Int) : Nat :=
  roundQuotient (num * Nat.pow 2 (-exponent).toNat) (den * Nat.pow 2 exponent.toNat)

/-- Whether `2 ^ 52 * 2 ^ exponent` is at most `num / den`. -/
def reachesTop (num den : Nat) (exponent : Int) : Bool :=
  decide (Nat.pow 2 52 * (den * Nat.pow 2 exponent.toNat) ≤ num * Nat.pow 2 (-exponent).toNat)

/-- The exponent that gives a quotient a mantissa of 53 bits, or the smallest exponent. -/
def exponentFor (num den : Nat) : Int :=
  let estimate : Int := (num.log2 : Int) - den.log2 - 52
  max minExponent (if reachesTop num den estimate then estimate else estimate - 1)

/-- The number nearest to a quotient, a tie going to the even mantissa. -/
def ofQuotient (negative : Bool) (num den : Nat) : Binary64 :=
  let exponent := exponentFor num den
  let mantissa := scaledQuotient num den exponent
  let (mantissa, exponent) :=
    if mantissa = Nat.pow 2 53 then (Nat.pow 2 52, exponent + 1) else (mantissa, exponent)
  if mantissa = 0 then zero negative
  else if maxExponent < exponent then infinite negative
  else finite negative mantissa exponent

/-- The number nearest to `digits * 10 ^ scale`. Scales far outside the range of the format are
decided by the number of digits. -/
def ofDecimal (negative : Bool) (digits : Nat) (scale : Int) : Binary64 :=
  if digits = 0 then zero negative
  else
    let magnitude := scale + ((Nat.toDigits 10 digits).length : Int)
    if 400 < magnitude then infinite negative
    else if magnitude < -400 then zero negative
    else ofQuotient negative (digits * Nat.pow 10 scale.toNat) (Nat.pow 10 (-scale).toNat)

theorem ofQuotient_ne_notANumber (negative : Bool) (num den : Nat) :
    ofQuotient negative num den ≠ notANumber := by
  unfold ofQuotient zero
  grind

/-- Every decimal has a number nearest to it, be it infinity. -/
theorem ofDecimal_ne_notANumber (negative : Bool) (digits : Nat) (scale : Int) :
    ofDecimal negative digits scale ≠ notANumber := by
  have rounded := ofQuotient_ne_notANumber negative (digits * Nat.pow 10 scale.toNat)
    (Nat.pow 10 (-scale).toNat)
  unfold ofDecimal zero
  grind

def isZero : Binary64 → Bool
  | finite _ mantissa _ => mantissa == 0
  | _ => false

end Binary64
end TokenGrammar
