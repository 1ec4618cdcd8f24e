import TokenGrammar.Number.Binary64

namespace TokenGrammar.Binary64

/-! The shortest decimal that reads back as a given number.

The decimals that round to a number form an interval around it, with its ends if the mantissa is
even. The coarsest power of ten that has a multiple in the interval gives the fewest digits, and
of two multiples the nearer one is taken. -/

/-- An interval scaled to integers: its ends, the number itself, and one step of the decimal
grid. -/
structure Grid where
  low : Nat
  value : Nat
  high : Nat
  step : Nat
  closed : Bool

/-- The interval of a number on the grid of multiples of `10 ^ power`. A mantissa that is the
smallest of its exponent is nearer to its lower neighbour. -/
def grid (mantissa : Nat) (exponent power : Int) : Grid :=
  let quarter := Nat.pow 2 (exponent - 2).toNat * Nat.pow 10 (-power).toNat
  let below := if mantissa = Nat.pow 2 52 ∧ minExponent < exponent then 1 else 2
  { low := (4 * mantissa - below) * quarter
    value := 4 * mantissa * quarter
    high := (4 * mantissa + 2) * quarter
    step := Nat.pow 2 (2 - exponent).toNat * Nat.pow 10 power.toNat
    closed := mantissa % 2 == 0 }

namespace Grid

def holds (grid : Grid) (multiple : Nat) : Bool :=
  let point := multiple * grid.step
  if grid.closed then decide (grid.low ≤ point ∧ point ≤ grid.high)
  else decide (grid.low < point ∧ point < grid.high)

/-- The multiple of the step that lies in the interval, the nearest of them. -/
def nearest? (grid : Grid) : Option Nat :=
  let below := grid.value / grid.step
  match grid.holds below, grid.holds (below + 1) with
  | true, false => some below
  | false, true => some (below + 1)
  | false, false => none
  | true, true =>
    let low := grid.value - below * grid.step
    let high := (below + 1) * grid.step - grid.value
    some (if low < high ∨ (low = high ∧ below % 2 = 0) then below else below + 1)

end Grid

/-- The digits and the power of ten of the shortest decimal, from a power on downwards. -/
def shortestFrom (mantissa : Nat) (exponent : Int) : Nat → Int → Nat × Int
  | 0, power => (mantissa, power)
  | steps + 1, power =>
    match (grid mantissa exponent power).nearest? with
    | some digits => (digits, power)
    | none => shortestFrom mantissa exponent steps (power - 1)

/-- A power of ten above the number. -/
def powerAbove (mantissa : Nat) (exponent : Int) : Int :=
  ((mantissa.log2 : Int) + exponent) * 1233 / 4096 + 2

/-- The shortest decimal of a finite number other than zero: its digits as a number, and the
power of ten of the last one. -/
def shortest (mantissa : Nat) (exponent : Int) : Nat × Int :=
  shortestFrom mantissa exponent 25 (powerAbove mantissa exponent)

end TokenGrammar.Binary64
