import ShaderScript.Number.Binary64

/-!
# Shortest decimals

`Decimal.shortest` gives the decimal with the fewest digits that rounds back to a given double,
and among those the one nearest to it.  `Decimal.places` rounds the exact value to a fixed number
of decimal places.  Both work in exact natural arithmetic.
-/

namespace ShaderScript

/-- The number `digits · 10 ^ exponent`. -/
structure Decimal where
  digits : Nat
  exponent : Int
  deriving Repr, DecidableEq

namespace Decimal

/-- The decimal digits of the coefficient, most significant first. -/
def digitList (d : Decimal) : List Char := Nat.toDigits 10 d.digits

/-- The exponent of the leading digit: the value is `x.xxx · 10 ^ leading`. -/
def leading (d : Decimal) : Int := d.exponent + (d.digitList.length - 1 : Nat)

/-- Drops trailing zeros of a digit list, most significant digit first, into the exponent. -/
def stripZeros : Nat → Nat → Int → Decimal
  | 0, digits, exponent => ⟨digits, exponent⟩
  | fuel + 1, digits, exponent =>
    if digits ≠ 0 ∧ digits % 10 = 0 then stripZeros fuel (digits / 10) (exponent + 1)
    else ⟨digits, exponent⟩

/-- `num / den` scaled by `10 ^ shift`, as a ratio of naturals. -/
def scaleTen (num den : Nat) (shift : Int) : Nat × Nat :=
  if 0 ≤ shift then (num * Nat.pow 10 shift.toNat, den) else (num, den * Nat.pow 10 (-shift).toNat)

/-- The `k` with `10 ^ (k - 1) ≤ num / den < 10 ^ k`. -/
def magnitude (num den : Nat) : Int :=
  if den ≤ num then (Nat.toDigits 10 (num / den)).length
  else
    let guess : Int := 1 - (Nat.toDigits 10 (den / num)).length
    let scaled := scaleTen num den (-guess)
    if scaled.2 ≤ scaled.1 then guess + 1 else guess

/-- The reals that round to one double: a value with the ends of its rounding interval, all above
one denominator.  The ends belong to the interval when the mantissa is even. -/
structure Interval where
  low : Nat
  value : Nat
  high : Nat
  den : Nat
  closed : Bool

/-- The rounding interval of `mantissa · 2 ^ exponent`.  Below a power of two the neighbour is
only half as far away. -/
def Interval.of (mantissa : Nat) (exponent : Int) : Interval :=
  let below :=
    if mantissa = Binary64.hiddenBit ∧ Binary64.lowestExponent < exponent then 1 else 2
  let up := Nat.pow 2 (exponent - 2).toNat
  let down := Nat.pow 2 (2 - exponent).toNat
  { low := (4 * mantissa - below) * up
    value := 4 * mantissa * up
    high := (4 * mantissa + 2) * up
    den := down
    closed := mantissa % 2 = 0 }

/-- Whether the point `num / den` of a decimal grid lies in the interval. -/
def Interval.contains (i : Interval) (num den : Nat) : Bool :=
  let point := num * i.den
  if i.closed then decide (i.low * den ≤ point ∧ point ≤ i.high * den)
  else decide (i.low * den < point ∧ point < i.high * den)

/-- The point of the grid of multiples of `10 ^ unit` that reads back as the value and is nearest
to it, if the grid has one; a tie goes to the even point. -/
def Interval.onGrid? (i : Interval) (unit : Int) : Option Decimal :=
  -- `grid / scale` is the width of one step.
  let (grid, scale) := scaleTen 1 1 unit
  let (num, den) := (i.value * scale, i.den * grid)
  let under := num / den
  let above := under + 1
  let underIn := i.contains (under * grid) scale
  let aboveIn := i.contains (above * grid) scale
  if underIn && aboveIn then some ⟨Binary64.divideToEven num den, unit⟩
  else if underIn then some ⟨under, unit⟩
  else if aboveIn then some ⟨above, unit⟩
  else none

/-- The fewest digits that read back as `mantissa · 2 ^ exponent`.  Seventeen always do. -/
def shortest (mantissa : Nat) (exponent : Int) : Decimal :=
  if mantissa = 0 then ⟨0, 0⟩
  else
    let i := Interval.of mantissa exponent
    let k := magnitude i.value i.den
    let found := (List.range 17).findSome? fun (n : Nat) => i.onGrid? (k - 1 - (n : Int))
    match found with
    | some d => stripZeros 20 d.digits d.exponent
    | none => ⟨i.value, 0⟩

/-- `mantissa · 2 ^ exponent` in units of `10 ^ unit`, to the nearest; a half goes to the even. -/
def inUnits (mantissa : Nat) (exponent : Int) (unit : Int) : Nat :=
  let binary := Binary64.scaleRatio mantissa 1 exponent
  let scaled := scaleTen binary.1 binary.2 (-unit)
  Binary64.divideToEven scaled.1 scaled.2

/-- `mantissa · 2 ^ exponent` to the given number of significant digits. -/
def significant (mantissa : Nat) (exponent : Int) (count : Nat) : Decimal :=
  if mantissa = 0 then ⟨0, 0⟩
  else
    let binary := Binary64.scaleRatio mantissa 1 exponent
    let unit := magnitude binary.1 binary.2 - count
    let digits := inUnits mantissa exponent unit
    -- Rounding up may reach the next power of ten.
    if Nat.pow 10 count ≤ digits then ⟨digits / 10, unit + 1⟩ else ⟨digits, unit⟩

end Decimal

end ShaderScript
