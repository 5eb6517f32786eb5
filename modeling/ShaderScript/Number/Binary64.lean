/-!
# Binary64 numbers as exact values

A `Float` is its bit pattern.  This module takes the pattern apart into an exact value
(`Binary64.ofFloat`), and rounds an exact ratio of naturals to the nearest pattern
(`Binary64.round`).  All number text of the library goes through these two.  Cutting a number
toward zero (`truncate`) clears the bits of the pattern that stand behind the binary point.

The sign is kept apart from the magnitude, so negative zero stays distinct from zero.
-/

namespace ShaderScript

/-- What a double stands for: no number, an infinity, or `± mantissa · 2 ^ exponent`. -/
inductive Binary64
  | nan
  | infinite (negative : Bool)
  | finite (negative : Bool) (mantissa : Nat) (exponent : Int)
  deriving Repr, DecidableEq

namespace Binary64

/-- Bits of the fraction field. -/
def fractionBits : Nat := 52

/-- The unit of the exponent field, `2 ^ fractionBits`. -/
def hiddenBit : Nat := 4503599627370496

/-- The sign bit, `2 ^ 63`. -/
def signBit : Nat := 9223372036854775808

/-- The exponent of the least positive double, `2 ^ lowestExponent`. -/
def lowestExponent : Int := -1074

/-- The exponent field of a pattern. -/
def exponentField (bits : UInt64) : Nat := bits.toNat / hiddenBit % 2048

def ofBits (bits : UInt64) : Binary64 :=
  let word := bits.toNat
  let negative := decide (word / signBit = 1)
  let field := exponentField bits
  let fraction := word % hiddenBit
  if field = 2047 then
    if fraction = 0 then .infinite negative else .nan
  else if field = 0 then
    .finite negative fraction lowestExponent
  else
    .finite negative (hiddenBit + fraction) (lowestExponent + (field - 1 : Nat))

def ofFloat (x : Float) : Binary64 := ofBits x.toBits

/-- `num / den` to the nearest integer; a half goes to the even neighbour. -/
def divideToEven (num den : Nat) : Nat :=
  let quotient := num / den
  let twice := 2 * (num % den)
  if twice < den then quotient
  else if den < twice then quotient + 1
  else if quotient % 2 = 0 then quotient else quotient + 1

/-- The ratio scaled by `2 ^ shift`, as a ratio of naturals. -/
def scaleRatio (num den : Nat) (shift : Int) : Nat × Nat :=
  if 0 ≤ shift then (num * Nat.pow 2 shift.toNat, den) else (num, den * Nat.pow 2 (-shift).toNat)

/-- The exponent at which `num / den` has 53 bits before the point, or the lowest one. -/
def exponentFor (num den : Nat) : Int :=
  let guess : Int := (Nat.log2 num : Int) - Nat.log2 den - fractionBits
  let scaled := scaleRatio num den (-guess)
  let exponent := if scaled.1 < scaled.2 * hiddenBit then guess - 1 else guess
  max exponent lowestExponent

/-- The pattern nearest to `num / den`, a half going to the even one; `none` past the largest
finite double.  The denominator must not be zero. -/
def round (negative : Bool) (num den : Nat) : Option UInt64 :=
  let sign : Nat := if negative then signBit else 0
  if num = 0 then some (UInt64.ofNat sign)
  else
    let exponent := exponentFor num den
    let scaled := scaleRatio num den (-exponent)
    let mantissa := divideToEven scaled.1 scaled.2
    -- Adding the field to the mantissa lets a carry out of the fraction move the exponent up.
    let field := (exponent - lowestExponent).toNat
    let magnitude := field * hiddenBit + mantissa
    if magnitude < 2047 * hiddenBit then some (UInt64.ofNat (sign + magnitude)) else none

/-- The exponent field as the format of doubles has it. -/
theorem toNat_unpackExponent (bits : UInt64) :
    (@Float.Model.UnpackedFloat.unpackExponent .binary64 bits.toBitVec).toNat =
      exponentField bits := by
  simp only [Float.Model.UnpackedFloat.unpackExponent, BitVec.toNat_cast, BitVec.extractLsb_toNat,
    Nat.shiftRight_eq_div_pow, exponentField, hiddenBit]
  rfl

/-- A pattern with the exponent field of a finite number is the pattern of a double. -/
theorem valid_of_exponentField {bits : UInt64} (h : exponentField bits ≠ 2047) :
    Float.Model.Format.binary64.Valid bits.toBitVec := by
  refine ⟨fun hexp => ?_⟩
  have hfield := toNat_unpackExponent bits
  rw [hexp] at hfield
  exact absurd hfield.symm h

/-- The double with a pattern. -/
def toFloat (bits : UInt64) (h : exponentField bits ≠ 2047) : Float :=
  .ofModel ⟨bits, valid_of_exponentField h⟩

/-- What the bits of a pattern from the binary point on are worth; the sign bit if the point
stands before all others. -/
def pointUnit (bits : UInt64) : Nat :=
  if exponentField bits < 1023 then signBit else Nat.pow 2 (1075 - exponentField bits)

/-- The pattern with the bits behind the binary point cleared. -/
def truncateBits (bits : UInt64) : UInt64 :=
  UInt64.ofNat (bits.toNat / pointUnit bits * pointUnit bits)

/-- The integer part of a double, toward zero; `none` for infinities and for no number. -/
def truncate? : Binary64 → Option Int
  | .finite negative mantissa exponent =>
    let magnitude : Nat :=
      if 0 ≤ exponent then mantissa * Nat.pow 2 exponent.toNat
      else mantissa / Nat.pow 2 (-exponent).toNat
    some (if negative then -(magnitude : Int) else magnitude)
  | _ => none

end Binary64

/-- The number of 64-bit words, `2 ^ 64`. -/
def wordCount : Nat := 18446744073709551616

/-- The least 64-bit signed integer, `-2 ^ 63`. -/
def leastInt64 : Int := -9223372036854775808

/-- The range of 64-bit signed integers. -/
def fitsInt64 (i : Int) : Bool := decide (leastInt64 ≤ i ∧ i < -leastInt64)

/-- The 64-bit signed integer with the same lowest 64 bits. -/
def wrap64 (i : Int) : Int := Int.bmod i wordCount

/-- The double cut to a 64-bit integer toward zero, if there is one. -/
def truncateToInt64? (x : Float) : Option Int :=
  match (Binary64.ofFloat x).truncate? with
  | some i => if fitsInt64 i then some i else none
  | none => none

/-- The integral part of `x` toward zero; infinities and no number stay. -/
def truncate (x : Float) : Float :=
  if h : Binary64.exponentField (Binary64.truncateBits x.toBits) ≠ 2047 then
    Binary64.toFloat (Binary64.truncateBits x.toBits) h
  else x

end ShaderScript
