import ShaderScript.Value.Basic

/-!
# Cutting numbers

`truncate` clears the bits of a pattern behind the binary point.  Clearing them leaves the exponent
field of a number of magnitude one or more as it was, and brings a smaller number to zero, so the
point stands where it stood (`pointUnit_truncateBits`) and there is nothing left to clear.  Zeros of
either sign are cut to the integer zero (`truncateToInt64?_of_beq_zero`).

Components of vectors are brought to their kind by `ComponentKind.normalize`; the components of a
vector that was built are already of their kind (`ComponentKind.normalize_normalize`).
-/

namespace ShaderScript

namespace Binary64

@[simp] theorem toBits_toFloat (bits : UInt64) (h : exponentField bits ≠ 2047) :
    (toFloat bits h).toBits = bits := rfl

theorem pointUnit_pos (bits : UInt64) : 0 < pointUnit bits := by
  unfold pointUnit
  split
  · decide
  · exact Nat.two_pow_pos _

/-- Clearing bits does not leave the range of patterns. -/
theorem toNat_truncateBits (bits : UInt64) :
    (truncateBits bits).toNat = bits.toNat / pointUnit bits * pointUnit bits := by
  have hle : bits.toNat / pointUnit bits * pointUnit bits ≤ bits.toNat := Nat.div_mul_le_self _ _
  have hlt : bits.toNat < 2 ^ 64 := bits.toNat_lt
  unfold truncateBits
  rw [UInt64.toNat_ofNat', Nat.mod_eq_of_lt (by omega)]

/-- Below one, all that is left is the sign. -/
theorem exponentField_truncateBits_of_lt {bits : UInt64} (h : exponentField bits < 1023) :
    exponentField (truncateBits bits) = 0 := by
  have hunit : pointUnit bits = signBit := if_pos h
  have hsplit : signBit = 2048 * hiddenBit := rfl
  rw [exponentField, toNat_truncateBits, hunit, hsplit]
  rw [show bits.toNat / (2048 * hiddenBit) * (2048 * hiddenBit) =
      bits.toNat / (2048 * hiddenBit) * 2048 * hiddenBit by rw [Nat.mul_assoc]]
  rw [Nat.mul_div_cancel _ (by decide), Nat.mul_mod_left]

/-- From one on, the exponent field stays: the bits that are cleared stand below it. -/
theorem exponentField_truncateBits_of_le {bits : UInt64} (h : 1023 ≤ exponentField bits) :
    exponentField (truncateBits bits) = exponentField bits := by
  have hunit : pointUnit bits = 2 ^ (1075 - exponentField bits) := if_neg (by omega)
  -- The unit divides that of the exponent field.
  have hfactor : hiddenBit =
      2 ^ (1075 - exponentField bits) * 2 ^ (52 - (1075 - exponentField bits)) := by
    rw [← Nat.pow_add, show 1075 - exponentField bits + (52 - (1075 - exponentField bits)) = 52 by
      omega]
    rfl
  have hpos : 0 < 2 ^ (1075 - exponentField bits) := Nat.two_pow_pos _
  have hdiv : bits.toNat / pointUnit bits * pointUnit bits / hiddenBit =
      bits.toNat / hiddenBit := by
    rw [hunit, hfactor, ← Nat.div_div_eq_div_mul, ← Nat.div_div_eq_div_mul,
      Nat.mul_div_cancel _ hpos]
  unfold exponentField at hdiv ⊢
  rw [toNat_truncateBits, hdiv]

/-- Clearing the bits behind the binary point does not move the point. -/
theorem pointUnit_truncateBits (bits : UInt64) :
    pointUnit (truncateBits bits) = pointUnit bits := by
  by_cases h : exponentField bits < 1023
  · have hzero := exponentField_truncateBits_of_lt h
    simp only [pointUnit, hzero, h, ↓reduceIte, Nat.zero_lt_succ]
  · have hsame := exponentField_truncateBits_of_le (Nat.le_of_not_lt h)
    simp only [pointUnit, hsame]

theorem truncateBits_truncateBits (bits : UInt64) :
    truncateBits (truncateBits bits) = truncateBits bits := by
  have hpos := pointUnit_pos bits
  apply UInt64.toNat_inj.mp
  rw [toNat_truncateBits, pointUnit_truncateBits, toNat_truncateBits, Nat.mul_div_cancel _ hpos]

end Binary64

/-- Cutting a number toward zero twice is cutting it once. -/
theorem truncate_truncate (x : Float) : truncate (truncate x) = truncate x := by
  by_cases h : Binary64.exponentField (Binary64.truncateBits x.toBits) ≠ 2047
  · have hcut : truncate x = Binary64.toFloat (Binary64.truncateBits x.toBits) h := dif_pos h
    rw [hcut]
    unfold truncate
    simp only [Binary64.toBits_toFloat, Binary64.truncateBits_truncateBits, dif_pos h]
  · -- Infinities and no number are returned as they came.
    have hsame : truncate x = x := dif_neg h
    rw [hsame, hsame]

/-! ## Zero -/

namespace Binary64

open Float.Model (UnpackedFloat)

/-- The fraction field as the format of doubles has it. -/
theorem toNat_unpackMantissa (bits : UInt64) :
    (@UnpackedFloat.unpackMantissa .binary64 bits.toBitVec).toNat = bits.toNat % hiddenBit := by
  simp only [UnpackedFloat.unpackMantissa, BitVec.toNat_cast, BitVec.extractLsb_toNat,
    Nat.shiftRight_zero, hiddenBit]
  rfl

/-- Only zeros are unpacked to zero: both fields of the pattern are zero. -/
theorem fields_of_unpack_eq_zero {bits : UInt64} {sign : UnpackedFloat.Sign}
    (h : UnpackedFloat.unpack .binary64 bits.toBitVec = .zero sign) :
    exponentField bits = 0 ∧ bits.toNat % hiddenBit = 0 := by
  delta UnpackedFloat.unpack at h
  dsimp only at h
  by_cases hones : @UnpackedFloat.unpackExponent .binary64 bits.toBitVec = -1#_
  · rw [if_pos hones] at h
    split at h <;> cases h
  · rw [if_neg hones] at h
    by_cases hexponent : @UnpackedFloat.unpackExponent .binary64 bits.toBitVec = 0#_
    · rw [if_pos hexponent] at h
      by_cases hmantissa : @UnpackedFloat.unpackMantissa .binary64 bits.toBitVec = 0#_
      · rw [← toNat_unpackExponent, ← toNat_unpackMantissa, hexponent, hmantissa]
        exact ⟨rfl, rfl⟩
      · rw [dif_neg hmantissa] at h
        cases h
    · rw [if_neg hexponent] at h
      cases h

/-- A number that equals zero is a zero, of either sign. -/
theorem unpack_of_beq_zero {x : Float} (h : (x == 0) = true) :
    ∃ sign, x.toModel.unpack = .zero sign := by
  have hzero : (Float.toModel 0).unpack = .zero .positive := rfl
  have hcompare : x.toModel.unpack.beq (Float.toModel 0).unpack = true := h
  rw [hzero] at hcompare
  revert hcompare
  rcases x.toModel.unpack with sign | _ | sign | ⟨sign, _, _, _⟩
  · cases sign <;> exact fun h => nomatch h
  · exact fun h => nomatch h
  · exact fun _ => ⟨sign, rfl⟩
  · cases sign <;> exact fun h => nomatch h

end Binary64

/-- Zero of either sign is cut to zero. -/
theorem truncateToInt64?_of_beq_zero {x : Float} (h : (x == 0) = true) :
    truncateToInt64? x = some 0 := by
  obtain ⟨sign, hsign⟩ := Binary64.unpack_of_beq_zero h
  obtain ⟨hfield, hfraction⟩ := Binary64.fields_of_unpack_eq_zero hsign
  have hvalue : Binary64.ofFloat x = .finite (decide (x.toBits.toNat / Binary64.signBit = 1)) 0
      Binary64.lowestExponent := by
    change Binary64.exponentField x.toBits = 0 at hfield
    change x.toBits.toNat % Binary64.hiddenBit = 0 at hfraction
    simp [Binary64.ofFloat, Binary64.ofBits, hfield, hfraction]
  rw [truncateToInt64?, hvalue]
  generalize decide (x.toBits.toNat / Binary64.signBit = 1) = negative
  cases negative <;> decide +kernel

namespace ComponentKind

/-- A component that was brought to its kind is of its kind. -/
@[simp] theorem normalize_normalize (kind : ComponentKind) (x : Float) :
    kind.normalize (kind.normalize x) = kind.normalize x := by
  cases kind with
  | float => rfl
  | int => exact truncate_truncate x
  | bool =>
    simp only [normalize]
    split
    · decide
    · decide

/-- Truth is kept when a number is brought to a truth value. -/
theorem normalize_bool_bne_zero (x : Float) :
    (ComponentKind.bool.normalize x != 0) = (x != 0) := by
  simp only [normalize]
  cases hx : x != 0 with
  | true | false => decide

end ComponentKind

end ShaderScript
