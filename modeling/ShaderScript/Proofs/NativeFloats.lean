import Mathlib
import ShaderScript.Proofs.NearestInteger

/-!
# Floats and their exact values

The arithmetic of `Float` is defined on unpacked floats: a sign, a mantissa and an exponent.
`Binary64.ofUnpacked` reads an exact value off those, and agrees with the value of the pattern
(`Binary64.ofBits_eq_ofUnpacked`).  Packing keeps the floats that were unpacked, so a pattern keeps
its value when it is made a `Float` (`Binary64.ofFloat_ofBits`).

Products are rounded by shifting the mantissa right and by keeping track of the bits that are
shifted out; this is division to even (`Binary64.roundedMantissa_shiftRight`).
-/

namespace ShaderScript

namespace Binary64

open Float.Model (UnpackedFloat Format)
open Float.Model.UnpackedFloat

/-! ## Patterns -/

/-- Whether a sign is negative. -/
def isNegative : Sign → Bool
  | .negative => true
  | .positive => false

/-- The exact value of an unpacked float. -/
def ofUnpacked : UnpackedFloat → Binary64
  | .notANumber => .nan
  | .infinity sign => .infinite (isNegative sign)
  | .zero sign => .finite (isNegative sign) 0 lowestExponent
  | .finite sign mantissa exponent _ => .finite (isNegative sign) mantissa exponent

theorem isNegative_unpackSign (bits : UInt64) :
    isNegative (Sign.ofBitVec (@unpackSign .binary64 bits.toBitVec)) =
      decide (bits.toNat / signBit = 1) := by
  have hlt : bits.toNat < 2 ^ 64 := bits.toNat_lt
  have hsign : (@unpackSign .binary64 bits.toBitVec).toNat = bits.toNat / signBit := by
    simp only [unpackSign, BitVec.toNat_cast, BitVec.extractLsb_toNat, Nat.shiftRight_eq_div_pow,
      signBit]
    show bits.toNat / 2 ^ 63 % 2 ^ 1 = bits.toNat / 9223372036854775808
    omega
  have hcases : bits.toNat / signBit = 0 ∨ bits.toNat / signBit = 1 := by
    unfold signBit
    omega
  unfold Sign.ofBitVec
  rcases hcases with hzero | hone
  · have hvec : @unpackSign .binary64 bits.toBitVec = 0#1 :=
      BitVec.eq_of_toNat_eq (by rw [hsign, hzero]; rfl)
    simp [hvec, hzero, isNegative]
  · have hvec : @unpackSign .binary64 bits.toBitVec ≠ 0#1 := by
      intro hvec
      rw [hvec, hone] at hsign
      cases hsign
    simp [hvec, hone, isNegative]

theorem toNat_append_one (fraction : BitVec 52) :
    (1#1 ++ fraction).toNat = hiddenBit + fraction.toNat := by
  rw [BitVec.toNat_append, ← Nat.shiftLeft_add_eq_or_of_lt fraction.isLt]
  rfl

/-- The value of a pattern is that of the unpacked float. -/
theorem ofBits_eq_ofUnpacked (bits : UInt64) :
    ofBits bits = ofUnpacked (unpack .binary64 bits.toBitVec) := by
  have hexponent := toNat_unpackExponent bits
  have hfraction := toNat_unpackMantissa bits
  have hsign := isNegative_unpackSign bits
  -- The fields of the pattern are the vectors that are unpacked, so both sides split alike.
  have hones : @unpackExponent .binary64 bits.toBitVec = -1#_ ↔ exponentField bits = 2047 := by
    rw [← hexponent, ← BitVec.toNat_inj]
    rfl
  have hzeros : @unpackExponent .binary64 bits.toBitVec = 0#_ ↔ exponentField bits = 0 := by
    rw [← hexponent, ← BitVec.toNat_inj]
    rfl
  have hnone : @unpackMantissa .binary64 bits.toBitVec = 0#_ ↔ bits.toNat % hiddenBit = 0 := by
    rw [← hfraction, ← BitVec.toNat_inj]
    rfl
  unfold ofBits
  delta unpack
  dsimp only
  by_cases hfield : exponentField bits = 2047
  · rw [if_pos hfield, if_pos (hones.2 hfield)]
    by_cases hempty : bits.toNat % hiddenBit = 0
    · rw [if_pos hempty, if_pos (hnone.2 hempty), ofUnpacked, hsign]
    · rw [if_neg hempty, if_neg (mt hnone.1 hempty), ofUnpacked]
  · rw [if_neg hfield, if_neg (mt hones.1 hfield)]
    by_cases hsmall : exponentField bits = 0
    · rw [if_pos hsmall, if_pos (hzeros.2 hsmall)]
      by_cases hempty : bits.toNat % hiddenBit = 0
      · rw [dif_pos (hnone.2 hempty), ofUnpacked, hsign, hempty]
      · rw [dif_neg (mt hnone.1 hempty), ofUnpacked, hsign, hfraction, hexponent, hsmall]
        rfl
    · rw [if_neg hsmall, if_neg (mt hzeros.1 hsmall), ofUnpacked, hsign, toNat_append_one,
        hfraction, hexponent]
      congr 1
      unfold lowestExponent
      show -1074 + ((exponentField bits - 1 : Nat) : Int) = (exponentField bits : Int) - (1023 + 52)
      omega

/-! ## Packing -/

/-- The unpacked floats that have a pattern: a mantissa of 53 bits, or a shorter one at the lowest
exponent. -/
def Canonical : UnpackedFloat → Prop
  | .finite _ mantissa exponent _ =>
    mantissa < 2 * hiddenBit ∧ lowestExponent ≤ exponent ∧ exponent ≤ 971 ∧
      (hiddenBit ≤ mantissa ∨ exponent = lowestExponent)
  | _ => True

theorem ofNat_ne_zero {w n : Nat} (hlt : n < 2 ^ w) (hn : n ≠ 0) : BitVec.ofNat w n ≠ 0#w := by
  intro hvec
  have hnat := congrArg BitVec.toNat hvec
  rw [BitVec.toNat_ofNat, Nat.mod_eq_of_lt hlt] at hnat
  exact hn hnat

/-- Packing loses nothing of a float that has a pattern. -/
theorem unpack_pack {u : UnpackedFloat} (h : Canonical u) :
    unpack .binary64 (pack .binary64 u) = u := by
  cases u with
  | notANumber => rfl
  | infinity sign | zero sign => cases sign <;> rfl
  | finite sign mantissa exponent hpos =>
    obtain ⟨hbits, hlow, hhigh, hnormal⟩ := h
    have hhidden : hiddenBit = 2 ^ 52 := rfl
    unfold lowestExponent at hlow hnormal
    obtain ⟨field, hfield⟩ : ∃ field : Nat, exponent + 1075 = field :=
      Int.eq_ofNat_of_zero_le (by omega)
    have hbiased : (exponent + (Format.binary64.exponentBias : Int) +
        (Format.binary64.mantissaBitsWithoutImplicit : Int)).toNat = field := by
      show (exponent + 1023 + 52).toNat = field
      omega
    have hfinite : ¬ 2 ^ Format.binary64.exponentBits ≤ field + 1 := by
      show ¬ 2 ^ 11 ≤ field + 1
      omega
    have htoNat : (BitVec.ofNat 11 field).toNat = field := by
      rw [BitVec.toNat_ofNat, Nat.mod_eq_of_lt (by omega)]
    have hones : BitVec.ofNat 11 field ≠ -1#_ := by
      intro hvec
      have hnat := congrArg BitVec.toNat hvec
      rw [htoNat] at hnat
      have : (-1#11).toNat = 2047 := rfl
      omega
    simp only [pack, hbiased, if_neg hfinite]
    by_cases hlong : hiddenBit ≤ mantissa
    · -- The leading bit of a long mantissa is left out, and put back by the exponent field.
      have hlog : mantissa.log2 = 52 :=
        (Nat.log2_eq_iff (by omega)).2 ⟨by omega, by omega⟩
      have hzeros : BitVec.ofNat 11 field ≠ 0#_ := ofNat_ne_zero (by omega) (by omega)
      have hmantissa : (1#1 ++ BitVec.ofNat 52 mantissa).toNat = mantissa := by
        rw [toNat_append_one, BitVec.toNat_ofNat]
        omega
      rw [if_pos (show mantissa.log2 + 1 = Format.binary64.mantissaBits by rw [hlog]; rfl)]
      simp only [unpack, unpackExponent_packComponents, unpackMantissa_packComponents,
        unpackSign_packComponents, Sign.ofBitVec_toBitVec, hones, hzeros, htoNat, hmantissa,
        ↓reduceIte]
      congr 1
      show (field : Int) - (1023 + 52) = exponent
      omega
    · -- A shorter mantissa has the exponent field zero.
      have hshort : mantissa.log2 < 52 := (Nat.log2_lt (by omega)).2 (by omega)
      have hmantissa : (BitVec.ofNat 52 mantissa).toNat = mantissa := by
        rw [BitVec.toNat_ofNat, Nat.mod_eq_of_lt (by omega)]
      have hnonzero : BitVec.ofNat 52 mantissa ≠ 0#_ := ofNat_ne_zero (by omega) (by omega)
      have hones' : (0#11 : BitVec 11) ≠ -1#_ := by decide
      have hnot : ¬ mantissa.log2 + 1 = Format.binary64.mantissaBits := by
        show ¬ mantissa.log2 + 1 = 53
        omega
      rw [if_neg hnot]
      simp only [unpack, unpackExponent_packComponents, unpackMantissa_packComponents,
        unpackSign_packComponents, Sign.ofBitVec_toBitVec, hones', hnonzero, hmantissa, ↓reduceIte,
        ↓reduceDIte]
      congr 1
      show ((0 : Nat) : Int) - (1023 + 52) + 1 = exponent
      omega

/-- Patterns are unpacked to floats that have a pattern. -/
theorem canonical_unpack (bits : UInt64) : Canonical (unpack .binary64 bits.toBitVec) := by
  have hlt : (@unpackExponent .binary64 bits.toBitVec).toNat < 2 ^ 11 := BitVec.isLt _
  have hfraction : (@unpackMantissa .binary64 bits.toBitVec).toNat < 2 ^ 52 := BitVec.isLt _
  delta unpack
  dsimp only
  split
  · split <;> trivial
  · rename_i hones
    have hfinite : (@unpackExponent .binary64 bits.toBitVec).toNat ≠ 2047 :=
      fun hnat => hones (BitVec.eq_of_toNat_eq hnat)
    split
    · rename_i hzeros
      split
      · trivial
      · refine ⟨by unfold hiddenBit; omega, ?_, ?_, .inr ?_⟩ <;> rw [hzeros] <;> decide
    · rename_i hzeros
      have hpositive : (@unpackExponent .binary64 bits.toBitVec).toNat ≠ 0 :=
        fun hnat => hzeros (BitVec.eq_of_toNat_eq hnat)
      have hmantissa := toNat_append_one (@unpackMantissa .binary64 bits.toBitVec)
      -- Stated for numbers, so that the arithmetic does not meet the vectors.
      have hbounds : ∀ mantissa field : Nat, mantissa = hiddenBit +
          (@unpackMantissa .binary64 bits.toBitVec).toNat → field < 2047 → field ≠ 0 →
          mantissa < 2 * hiddenBit ∧ lowestExponent ≤ (field : Int) - 1075 ∧
            (field : Int) - 1075 ≤ 971 ∧
            (hiddenBit ≤ mantissa ∨ (field : Int) - 1075 = lowestExponent) := by
        intro mantissa field hmantissa hbelow habove
        unfold hiddenBit lowestExponent at *
        omega
      exact hbounds _ _ hmantissa (by omega) hpositive

theorem ofFloat_pack {u : UnpackedFloat} (h : Canonical u) :
    ofFloat (.ofModel (.pack u)) = ofUnpacked u := by
  show ofBits (UInt64.ofBitVec (pack .binary64 u)) = _
  rw [ofBits_eq_ofUnpacked, UInt64.toBitVec_ofBitVec, unpack_pack h]

theorem ofFloat_ofBits (bits : UInt64) : ofFloat (Float.ofBits bits) = ofBits bits := by
  rw [ofBits_eq_ofUnpacked]
  exact ofFloat_pack (canonical_unpack bits)

/-! ## Rounding -/

/-- What shifting leaves of a mantissa: the quotient, whether at least a half was shifted out, and
whether anything besides that half was. -/
theorem shiftRight_eq (mantissa shift : Nat) :
    (⟨mantissa, false, false⟩ : ExtendedMantissa) >>> shift =
      ⟨mantissa / 2 ^ shift, decide (2 ^ shift ≤ 2 * (mantissa % 2 ^ shift)),
        decide (2 * (mantissa % 2 ^ shift) % 2 ^ shift ≠ 0)⟩ := by
  induction shift with
  | zero => simp [HShiftRight.hShiftRight, Nat.repeat, Nat.mod_one]
  | succ k ih =>
    have hstep : (⟨mantissa, false, false⟩ : ExtendedMantissa) >>> (k + 1) =
      ((⟨mantissa, false, false⟩ : ExtendedMantissa) >>> k).shiftRightOne := rfl
    have hpos : 0 < 2 ^ k := Nat.two_pow_pos k
    have hrest : mantissa % 2 ^ k < 2 ^ k := Nat.mod_lt _ hpos
    have hdouble : 2 ^ (k + 1) = 2 * 2 ^ k := by rw [Nat.pow_succ, Nat.mul_comm]
    -- The bit that is shifted out now stands before those shifted out so far.
    have hsplit : mantissa % (2 * 2 ^ k) = mantissa % 2 ^ k + 2 ^ k * (mantissa / 2 ^ k % 2) := by
      rw [Nat.mul_comm 2, Nat.mod_mul]
    have hquotient : mantissa / 2 ^ k / 2 = mantissa / (2 * 2 ^ k) := by
      rw [Nat.div_div_eq_div_mul, Nat.mul_comm 2]
    rw [hstep, ih, hdouble]
    simp only [ExtendedMantissa.shiftRightOne, hquotient, hsplit]
    -- From here on only the remainder and its bound count.
    generalize 2 ^ k = unit at *
    generalize mantissa % unit = rest at *
    have hsticky : (decide (unit ≤ 2 * rest) || decide (2 * rest % unit ≠ 0)) =
        decide (2 * rest ≠ 0) := by
      rcases Nat.lt_or_ge (2 * rest) unit with hless | hmore
      · rw [Nat.mod_eq_of_lt hless, decide_eq_false (Nat.not_le.2 hless), Bool.false_or]
      · rw [decide_eq_true hmore, Bool.true_or, decide_eq_true (by omega)]
    have hbit : (mantissa / unit % 2 != 0) =
        decide (2 * unit ≤ 2 * (rest + unit * (mantissa / unit % 2))) := by
      rcases Nat.mod_two_eq_zero_or_one (mantissa / unit) with hzero | hone
      · rw [hzero, Nat.mul_zero, decide_eq_false (by omega)]
        rfl
      · rw [hone, Nat.mul_one, decide_eq_true (by omega)]
        rfl
    have hmod : 2 * (rest + unit * (mantissa / unit % 2)) % (2 * unit) = 2 * rest := by
      rw [Nat.mul_mod_mul_left, Nat.add_mul_mod_self_left, Nat.mod_eq_of_lt hrest]
    rw [hsticky, hbit, hmod]

/-- Shifting and then rounding is division to even. -/
theorem roundedMantissa_shiftRight (mantissa shift : Nat) :
    ((⟨mantissa, false, false⟩ : ExtendedMantissa) >>> shift).roundedMantissa =
      divideToEven mantissa (2 ^ shift) := by
  have hpos : 0 < 2 ^ shift := Nat.two_pow_pos shift
  have hrest : mantissa % 2 ^ shift < 2 ^ shift := Nat.mod_lt _ hpos
  have hcases := divideToEven_cases mantissa (2 ^ shift)
  rw [shiftRight_eq]
  generalize 2 ^ shift = unit at *
  generalize mantissa % unit = rest at *
  -- Below a half the first of the two marks is not set; at a half only the second is not.
  rcases hcases with ⟨hless, hvalue⟩ | ⟨hmore, hvalue⟩ | ⟨hhalf, hvalue⟩
  · rw [hvalue, decide_eq_false (by omega), Nat.mod_eq_of_lt hless]
    by_cases hzero : 2 * rest = 0
    · rw [hzero]
      rfl
    · rw [decide_eq_true hzero]
      rfl
  · have hmod : 2 * rest % unit ≠ 0 := by
      rw [Nat.mod_eq_sub_mod (by omega), Nat.mod_eq_of_lt (by omega)]
      omega
    rw [hvalue, decide_eq_true (by omega), decide_eq_true hmod]
    rfl
  · rw [hvalue, hhalf, Nat.mod_self, decide_eq_true (Nat.le_refl unit)]
    rfl

section

variable {n : Nat} (shift : Nat)

theorem log2_mul_two_pow (hn : n ≠ 0) : (n * 2 ^ shift).log2 = n.log2 + shift := by
  have hmul : n * 2 ^ shift ≠ 0 := Nat.mul_ne_zero hn (Nat.two_pow_pos shift).ne'
  have hlow := Nat.mul_le_mul_right (2 ^ shift) (Nat.log2_self_le hn)
  have hhigh := Nat.mul_lt_mul_of_pos_right (@Nat.lt_log2_self n) (Nat.two_pow_pos shift)
  rw [← Nat.pow_add] at hlow hhigh
  rw [show n.log2 + 1 + shift = n.log2 + shift + 1 by omega] at hhigh
  exact (Nat.log2_eq_iff hmul).2 ⟨hlow, hhigh⟩

/-- Zeros behind a number do not count in its significand. -/
theorem divideToEven_two_pow (h : 52 ≤ n.log2 + shift) :
    divideToEven (n * 2 ^ shift) (2 ^ (n.log2 + shift - 52)) = significand n := by
  unfold significand leading unit
  by_cases hshort : n.log2 ≤ 52
  · rw [Nat.sub_eq_zero_of_le hshort, Nat.pow_zero]
    have hsplit : 2 ^ shift = 2 ^ (52 - n.log2) * 2 ^ (n.log2 + shift - 52) := by
      rw [← Nat.pow_add]
      congr 1
      omega
    rw [divideToEven_one, hsplit, ← Nat.mul_assoc, divideToEven_cancel _ (Nat.two_pow_pos _)]
  · rw [Nat.sub_eq_zero_of_le (by omega : 52 ≤ n.log2), Nat.pow_zero, Nat.mul_one,
      show n.log2 + shift - 52 = n.log2 - 52 + shift by omega, Nat.pow_add,
      divideToEven_mul _ _ (Nat.two_pow_pos shift)]

/-- Above the lowest exponents a mantissa is shifted to 53 bits. -/
theorem shiftToTargetExponent_eq (mantissa : Nat) (exponent : Int)
    (h : -1022 ≤ (mantissa.log2 : Int) + exponent) :
    shiftToTargetExponent .binary64 mantissa exponent .exact =
      ((⟨mantissa, false, false⟩ : ExtendedMantissa) >>> (mantissa.log2 - 52),
        exponent + (mantissa.log2 - 52 : Nat)) := by
  have htarget : Format.binary64.targetExponent (Float.Model.totalExponent mantissa exponent) =
      (mantissa.log2 : Int) + exponent - 52 := by
    show max ((mantissa.log2 : Int) + 1 + exponent - 53) (-1074) = _
    omega
  have hshift : ((mantissa.log2 : Int) + exponent - 52 - exponent).toNat = mantissa.log2 - 52 := by
    omega
  rw [shiftToTargetExponent, htarget, shiftToExponent, hshift]
  rfl

/-- The unpacked float of the normal form of a number. -/
def normalFloat (sign : Sign) (n : Nat) (hn : n ≠ 0) : UnpackedFloat :=
  .finite sign (normalForm n).1 (normalForm n).2
    (Nat.lt_of_lt_of_le (by decide : 0 < hiddenBit) (normalForm_bounds hn).1)

/-- A product that stands for an integer is rounded to its normal form. -/
theorem roundWithAccuracy_eq (sign : Sign) (hn : n ≠ 0) (h : 52 ≤ n.log2 + shift) :
    roundWithAccuracy .binary64 sign (n * 2 ^ shift) (-(shift : Int)) .exact =
      normalFloat sign n hn := by
  have hhidden : hiddenBit = 2 ^ 52 := rfl
  obtain ⟨hlow, hhigh⟩ := significand_bounds hn
  obtain ⟨hnormal, -⟩ := normalForm_bounds hn
  have hlog := log2_mul_two_pow shift hn
  have hexponent : -(shift : Int) + ((n.log2 + shift - 52 : Nat) : Int) = (n.log2 : Int) - 52 := by
    omega
  have hpos : 0 < (normalForm n).1 := by omega
  have hfinish : ∀ (mantissa : Nat) (exponent : Int), (mantissa, exponent) = normalForm n →
      (if h : mantissa = 0 then UnpackedFloat.zero sign
        else .finite sign mantissa exponent (Nat.pos_of_ne_zero h)) = normalFloat sign n hn := by
    intro mantissa exponent hform
    rw [dif_neg (by rw [← hform] at hpos; exact hpos.ne')]
    simp only [normalFloat, ← hform]
  unfold roundWithAccuracy
  rw [shiftToTargetExponent_eq _ _ (by omega), hlog, hexponent]
  dsimp only
  rw [roundedMantissa_shiftRight, divideToEven_two_pow shift h]
  -- The second shift takes away the bit that rounding up may have added.
  by_cases hsmall : significand n < 2 * hiddenBit
  · have hlength : (significand n).log2 = 52 :=
      (Nat.log2_eq_iff (by omega)).2 ⟨hlow, by omega⟩
    rw [shiftToTargetExponent_eq _ _ (by omega), hlength, shiftRight_eq]
    apply hfinish
    rw [normalForm, if_pos hsmall]
    simp
  · have hfull : significand n = 2 ^ 53 := by omega
    rw [hfull, shiftToTargetExponent_eq _ _ (by rw [Nat.log2_two_pow]; omega), Nat.log2_two_pow,
      shiftRight_eq]
    apply hfinish
    rw [normalForm, if_neg hsmall]
    rfl

end

/-! ## Integers -/

section

variable {n : Nat}

/-- The normal form of a number of up to 1023 bits has a pattern. -/
theorem canonical_normalFloat (sign : Sign) (hn : n ≠ 0) (hlog : n.log2 ≤ 1022) :
    Canonical (normalFloat sign n hn) := by
  obtain ⟨hlow, hhigh⟩ := normalForm_bounds hn
  have hexponent : (n.log2 : Int) - 52 ≤ (normalForm n).2 ∧
      (normalForm n).2 ≤ (n.log2 : Int) - 51 := by
    unfold normalForm
    split
    · exact ⟨Int.le_refl _, by omega⟩
    · exact ⟨by omega, by omega⟩
  unfold normalFloat Canonical lowestExponent
  exact ⟨hhigh, by omega, by omega, .inl hlow⟩

/-- A number of up to 53 bits gets zeros behind it. -/
theorem normalForm_of_log2_le (h : n.log2 ≤ 52) :
    normalForm n = (n * 2 ^ (52 - n.log2), (n.log2 : Int) - 52) := by
  have hbelow : n * 2 ^ (52 - n.log2) < 2 * hiddenBit := by
    have hhigh := Nat.mul_lt_mul_of_pos_right (@Nat.lt_log2_self n) (Nat.two_pow_pos (52 - n.log2))
    rwa [← Nat.pow_add, show n.log2 + 1 + (52 - n.log2) = 53 by omega] at hhigh
  rw [normalForm, significand, leading_of_log2_le h, if_pos hbelow]

/-- A number of up to 53 bits is converted by putting zeros behind it. -/
theorem toFloat_eq (hn : n ≠ 0) (h : n < 2 ^ 53) :
    n.toUInt64.toFloat = .ofModel (.pack (normalFloat .positive n hn)) := by
  have hlog : n.log2 < 53 := (Nat.log2_lt hn).2 h
  have hword : n.toUInt64.toNat = n := by
    show (UInt64.ofNat n).toNat = n
    rw [UInt64.toNat_ofNat', Nat.mod_eq_of_lt (by omega)]
  have hcompare : compare (n : Int) 0 = .gt := by
    rw [Int.compare_eq_gt]
    omega
  have htarget : Format.binary64.targetExponent (Float.Model.totalExponent n 0) =
      (n.log2 : Int) - 52 := by
    show max ((n.log2 : Int) + 1 + 0 - 53) (-1074) = _
    omega
  have hshift : (0 - ((n.log2 : Int) - 52)).toNat = 52 - n.log2 := by omega
  have hround : UnpackedFloat.round .binary64 .positive n 0 = normalFloat .positive n hn := by
    rw [← roundWithAccuracy_eq (52 - n.log2) .positive hn (by omega), UnpackedFloat.round, htarget,
      decreaseExponent, hshift]
    simp only [Nat.shiftLeft_eq, Int.zero_sub]
  show Float.ofModel (.pack (normalize .binary64 (n.toUInt64.toNat : Int) 0 .positive)) = _
  rw [hword, UnpackedFloat.normalize, hcompare, ← hround]
  rfl

/-- Multiplying by one puts more zeros behind a number, which are shifted out again. -/
theorem mul_one_eq (hn : n ≠ 0) (h : n.log2 ≤ 52) (hone : 0 < hiddenBit) :
    mul .binary64 (normalFloat .positive n hn) (.finite .positive hiddenBit (-52) hone) =
      normalFloat .positive n hn := by
  have hmantissa : n * 2 ^ (52 - n.log2) * hiddenBit = n * 2 ^ (104 - n.log2) := by
    rw [Nat.mul_assoc, show hiddenBit = 2 ^ 52 from rfl, ← Nat.pow_add,
      show 52 - n.log2 + 52 = 104 - n.log2 by omega]
  have hexponent : (n.log2 : Int) - 52 + -52 = -((104 - n.log2 : Nat) : Int) := by omega
  have hproduct := roundWithAccuracy_eq (104 - n.log2) .positive hn (by omega)
  rw [← hmantissa, ← hexponent] at hproduct
  refine Eq.trans ?_ hproduct
  show roundWithAccuracy .binary64 .positive ((normalForm n).1 * hiddenBit)
    ((normalForm n).2 + -52) .exact = _
  rw [normalForm_of_log2_le h]

/-- A number becomes the float of its normal form. -/
theorem ofNat_eq (hn : n ≠ 0) :
    Float.ofNat n = .ofModel (.pack (normalFloat .positive n hn)) := by
  show Float.ofScientific n false 0 = _
  by_cases hsmall : n < 2 ^ 53
  · -- A small number is converted, and then multiplied by one.
    have hlog : n.log2 < 53 := (Nat.log2_lt hn).2 hsmall
    have hfloat : Float.ofScientific n false 0 =
        n.toUInt64.toFloat * Float.ofBits 0x3FF0000000000000 := by
      rw [Float.ofScientific, dif_pos ⟨hsmall, by decide⟩]
      rfl
    have hpos : 0 < hiddenBit := by decide
    have hone : (Float.ofBits 0x3FF0000000000000).toModel.unpack =
        .finite .positive hiddenBit (-52) hpos := rfl
    rw [hfloat, toFloat_eq hn hsmall]
    show Float.ofModel (.pack (mul .binary64
      (unpack .binary64 (pack .binary64 (normalFloat .positive n hn)))
      (Float.ofBits 0x3FF0000000000000).toModel.unpack)) = _
    rw [unpack_pack (canonical_normalFloat .positive hn (by omega)), hone,
      mul_one_eq hn (by omega)]
  · -- A large number is rounded with zeros behind it.
    have hrange : ¬ (0 : Int) < -((2 ^ Format.binary64.exponentBits : Int) + n.log2) := by
      show ¬ (0 : Int) < -(2 ^ 11 + (n.log2 : Int))
      omega
    rw [Float.ofScientific, dif_neg (by omega)]
    show Float.ofModel (.pack (ofScientific .binary64 n 0)) = _
    rw [ofScientific, dif_neg hn, if_neg (by decide), if_neg hrange, if_pos (by decide),
      ← roundWithAccuracy_eq 53 .positive hn (by omega)]
    show Float.ofModel (.pack (roundWithAccuracy .binary64 .positive (n <<< 53 * 1) (-53 + 0)
      .exact)) = _
    rw [Nat.shiftLeft_eq, Nat.mul_one]
    rfl

end

/-- An integer of up to 1023 bits becomes the double of its nearest integer. -/
theorem holds_ofInt (i : Int) (h : i.natAbs.log2 ≤ 1022) :
    Holds (ofFloat (Float.ofInt i)) (decide (i < 0)) (rounded i.natAbs) := by
  cases i with
  | ofNat n =>
    show Holds (ofFloat (Float.ofNat n)) false (rounded n)
    by_cases hn : n = 0
    · subst hn
      exact ⟨0, lowestExponent, by decide +kernel,
        by rw [rounded_of_log2_le (by decide), Nat.zero_mul, Nat.zero_mul]⟩
    · rw [ofNat_eq hn, ofFloat_pack (canonical_normalFloat .positive hn h)]
      exact holds_normalForm false hn
  | negSucc n =>
    -- The float of the magnitude is unpacked, negated and packed again.
    have hn : n + 1 ≠ 0 := Nat.succ_ne_zero n
    have hneg : decide (Int.negSucc n < 0) = true := decide_eq_true (Int.negSucc_lt_zero n)
    rw [hneg]
    show Holds (ofFloat (Float.neg (Float.ofNat (n + 1)))) true (rounded (n + 1))
    rw [ofNat_eq hn]
    show Holds (ofFloat (.ofModel (.pack
      (unpack .binary64 (pack .binary64 (normalFloat .positive (n + 1) hn))).neg))) true _
    rw [unpack_pack (canonical_normalFloat .positive hn h)]
    show Holds (ofFloat (.ofModel (.pack (normalFloat .negative (n + 1) hn)))) true _
    rw [ofFloat_pack (canonical_normalFloat .negative hn h)]
    exact holds_normalForm true hn

/-! ## Cutting integers -/

/-- The fields of the pattern of a finite number. -/
theorem fields_of_ofBits_eq {bits : UInt64} {negative : Bool} {mantissa : Nat} {exponent : Int}
    (h : ofBits bits = .finite negative mantissa exponent) :
    exponentField bits ≠ 2047 ∧
      (exponentField bits = 0 ∧ mantissa = bits.toNat % hiddenBit ∧ exponent = lowestExponent ∨
        exponentField bits ≠ 0 ∧ mantissa = hiddenBit + bits.toNat % hiddenBit ∧
          exponent = (exponentField bits : Int) - 1075) := by
  unfold ofBits at h
  dsimp only at h
  split at h
  · split at h <;> cases h
  · rename_i hfinite
    refine ⟨hfinite, ?_⟩
    split at h
    · rename_i hzero
      injection h with _ hmantissa hexponent
      exact .inl ⟨hzero, hmantissa.symm, hexponent.symm⟩
    · rename_i hnonzero
      injection h with _ hmantissa hexponent
      refine .inr ⟨hnonzero, hmantissa.symm, ?_⟩
      unfold lowestExponent at hexponent
      omega

/-- The bits of an integer behind the binary point are zero. -/
theorem pointUnit_dvd_of_holds {bits : UInt64} {negative : Bool} {n : Nat}
    (h : Holds (ofBits bits) negative n) : pointUnit bits ∣ bits.toNat := by
  obtain ⟨mantissa, exponent, hvalue, hmul⟩ := h
  obtain ⟨hfinite, hfields⟩ := fields_of_ofBits_eq hvalue
  have hfraction : bits.toNat % hiddenBit < hiddenBit := Nat.mod_lt _ (by decide)
  have hhidden : hiddenBit = 2 ^ 52 := rfl
  -- The only integer below one is zero.
  have hsmall : exponent ≤ -53 → mantissa = 0 := by
    intro hexponent
    rw [show exponent.toNat = 0 by omega, Nat.pow_zero, Nat.mul_one] at hmul
    have hpow : 2 ^ 53 ≤ 2 ^ (-exponent).toNat := Nat.pow_le_pow_right Nat.two_pos (by omega)
    by_cases hn : n = 0
    · rw [hmul, hn, Nat.zero_mul]
    · have hlarge := Nat.mul_le_mul (Nat.pos_of_ne_zero hn) hpow
      omega
  rcases hfields with ⟨hfield, hmantissa, hexponent⟩ | ⟨hfield, hmantissa, hexponent⟩
  · -- The exponent is the lowest, so the number is zero, and no bit but the sign is set.
    have hzero : bits.toNat % hiddenBit = 0 := by
      rw [← hmantissa]
      exact hsmall (by rw [hexponent]; decide)
    have hunit : pointUnit bits = signBit := if_pos (by omega)
    rw [hunit]
    apply Nat.dvd_of_mod_eq_zero
    unfold exponentField hiddenBit at hfield
    unfold hiddenBit at hzero
    unfold signBit
    omega
  · -- The unit divides the mantissa and the place of the hidden bit, hence the fraction too.
    have hpoint : ¬ exponentField bits < 1023 := by
      intro hbelow
      have := hsmall (by omega)
      omega
    have hunit : pointUnit bits = 2 ^ (1075 - exponentField bits) := if_neg hpoint
    have hdvdMantissa : 2 ^ (1075 - exponentField bits) ∣ mantissa := by
      by_cases hbefore : 0 ≤ exponent
      · rw [show 1075 - exponentField bits = 0 by omega]
        exact Nat.one_dvd mantissa
      · rw [show exponent.toNat = 0 by omega, Nat.pow_zero, Nat.mul_one,
          show (-exponent).toNat = 1075 - exponentField bits by omega] at hmul
        exact Dvd.intro_left n hmul.symm
    have hdvdHidden : 2 ^ (1075 - exponentField bits) ∣ hiddenBit := by
      rw [hhidden]
      exact Nat.pow_dvd_pow 2 (by omega)
    rw [hunit, ← Nat.div_add_mod bits.toNat hiddenBit]
    refine Dvd.dvd.add (hdvdHidden.mul_right _) ?_
    rw [hmantissa] at hdvdMantissa
    exact (Nat.dvd_add_right hdvdHidden).1 hdvdMantissa

end Binary64

section

variable {x : Float} {negative : Bool} {n : Nat}

/-- An integer is its own integer part. -/
theorem truncateToInt64?_of_holds (h : (Binary64.ofFloat x).Holds negative n) :
    truncateToInt64? x =
      if fitsInt64 (signed negative n) then some (signed negative n) else none := by
  obtain ⟨mantissa, exponent, hvalue, hmul⟩ := h
  have hmagnitude : (if 0 ≤ exponent then mantissa * Nat.pow 2 exponent.toNat
      else mantissa / Nat.pow 2 (-exponent).toNat) = n := by
    by_cases hexponent : 0 ≤ exponent
    · rw [show (-exponent).toNat = 0 by omega, Nat.pow_zero, Nat.mul_one] at hmul
      rw [if_pos hexponent]
      exact hmul
    · rw [show exponent.toNat = 0 by omega, Nat.pow_zero, Nat.mul_one] at hmul
      rw [if_neg hexponent, hmul]
      exact Nat.mul_div_cancel n (Nat.two_pow_pos _)
  have hpart : (Binary64.ofFloat x).truncate? = some (signed negative n) := by
    rw [hvalue, Binary64.truncate?, hmagnitude]
    rfl
  rw [truncateToInt64?, hpart]

/-- There is nothing behind the point of an integer. -/
theorem truncate_of_holds (h : (Binary64.ofFloat x).Holds negative n) : truncate x = x := by
  have hfinite : Binary64.exponentField x.toBits ≠ 2047 := by
    obtain ⟨mantissa, exponent, hvalue, -⟩ := h
    exact (Binary64.fields_of_ofBits_eq hvalue).1
  have hsame : Binary64.truncateBits x.toBits = x.toBits := by
    apply UInt64.toNat_inj.mp
    rw [Binary64.toNat_truncateBits]
    exact Nat.div_mul_cancel (Binary64.pointUnit_dvd_of_holds h)
  unfold truncate
  simp only [hsame, dif_pos hfinite]
  rfl

/-- An integer equals itself. -/
theorem beq_self_of_holds (h : (Binary64.ofFloat x).Holds negative n) : (x == x) = true := by
  show x.toModel.unpack.beq x.toModel.unpack = true
  obtain ⟨mantissa, exponent, hvalue, -⟩ := h
  have hunpacked : Binary64.ofUnpacked x.toModel.unpack = .finite negative mantissa exponent := by
    rw [← hvalue]
    exact (Binary64.ofBits_eq_ofUnpacked x.toBits).symm
  generalize x.toModel.unpack = u at hunpacked ⊢
  cases u with
  | notANumber | infinity sign => cases hunpacked
  | zero sign => rfl
  | finite sign mantissa exponent hpos =>
    cases sign <;> simp [Float.Model.UnpackedFloat.beq, Float.Model.UnpackedFloat.compare]

end

/-! ## Nearest doubles -/

/-- The double is the integer of 53 leading bits nearest to an integer. -/
def IsNearest (x : Float) (n : Int) : Prop :=
  ∃ negative m, n = signed negative m ∧
    (Binary64.ofFloat x).Holds negative (Binary64.rounded m)

namespace IsNearest

variable {x : Float} {n : Int}

theorem ofInt (h : n.natAbs.log2 ≤ 1022) : IsNearest (Float.ofInt n) n := by
  refine ⟨decide (n < 0), n.natAbs, ?_, Binary64.holds_ofInt n h⟩
  unfold signed
  split
  · rename_i hneg
    have : n < 0 := of_decide_eq_true hneg
    omega
  · rename_i hneg
    have : ¬ n < 0 := fun hlt => hneg (decide_eq_true hlt)
    omega

/-- The integer part of the nearest double is the nearest integer. -/
theorem truncateToInt64?_eq (h : IsNearest x n) :
    truncateToInt64? x =
      if fitsInt64 (nearestInteger n) then some (nearestInteger n) else none := by
  obtain ⟨negative, m, rfl, hholds⟩ := h
  rw [truncateToInt64?_of_holds hholds, nearestInteger_signed]

/-- The nearest double has no fractional part. -/
theorem bne_truncate (h : IsNearest x n) : (x != truncate x) = false := by
  obtain ⟨negative, m, -, hholds⟩ := h
  rw [truncate_of_holds hholds, bne, beq_self_of_holds hholds]
  rfl

end IsNearest

end ShaderScript
