import Mathlib.Tactic.Positivity
import Mathlib.Tactic.Ring
import ShaderScript.Proofs.Truncation

/-!
# Integers as doubles

A double holds 53 bits of an integer.  `nearestInteger` is the integer with so many bits that is
nearest to a given one, a half going to the even one.
-/

namespace ShaderScript

namespace Binary64

variable {n : Nat}

/-! ## Division to even -/

theorem divideToEven_mul (a b : Nat) {c : Nat} (hc : 0 < c) :
    divideToEven (a * c) (b * c) = divideToEven a b := by
  have hlt : ∀ x y : Nat, x * c < y * c ↔ x < y := fun x y => Nat.mul_lt_mul_right hc
  unfold divideToEven
  rw [Nat.mul_div_mul_right _ _ hc, Nat.mul_mod_mul_right, ← Nat.mul_assoc]
  simp only [hlt]

theorem divideToEven_cancel (a : Nat) {b : Nat} (hb : 0 < b) : divideToEven (a * b) b = a := by
  simp [divideToEven, hb]

theorem divideToEven_one (a : Nat) : divideToEven a 1 = a := by
  simpa using divideToEven_cancel a Nat.one_pos

/-- Less than a half is left out, more counts as one, and a half makes the quotient even. -/
theorem divideToEven_cases (a b : Nat) :
    (2 * (a % b) < b ∧ divideToEven a b = a / b) ∨
      (b < 2 * (a % b) ∧ divideToEven a b = a / b + 1) ∨
        (2 * (a % b) = b ∧ divideToEven a b = a / b + a / b % 2) := by
  unfold divideToEven
  dsimp only
  split
  · left
    exact ⟨by assumption, rfl⟩
  · right
    split
    · left
      exact ⟨by assumption, rfl⟩
    · right
      refine ⟨by omega, ?_⟩
      split <;> omega

theorem divideToEven_bounds (a b : Nat) :
    a / b ≤ divideToEven a b ∧ divideToEven a b ≤ a / b + 1 := by
  have hcases := divideToEven_cases a b
  omega

/-- Only a multiple is not changed by going to the nearest one. -/
theorem divideToEven_mul_eq_self_iff (a : Nat) {b : Nat} (hb : 0 < b) :
    divideToEven a b * b = a ↔ b ∣ a := by
  constructor
  · intro h
    exact Dvd.intro_left _ h
  · rintro ⟨k, rfl⟩
    rw [Nat.mul_comm b k, divideToEven_cancel k hb]

/-! ## The nearest integer -/

/-- What the last of the 53 leading bits of a number is worth. -/
def unit (n : Nat) : Nat := 2 ^ (n.log2 - 52)

/-- The 53 leading bits of a number, rounded to even. -/
def leading (n : Nat) : Nat := divideToEven n (unit n)

theorem unit_pos (n : Nat) : 0 < unit n := Nat.two_pow_pos _

theorem unit_of_log2_le (h : n.log2 ≤ 52) : unit n = 1 := by
  rw [unit, Nat.sub_eq_zero_of_le h, Nat.pow_zero]

theorem leading_of_log2_le (h : n.log2 ≤ 52) : leading n = n := by
  rw [leading, unit_of_log2_le h, divideToEven_one]

/-- A number of 53 bits or more has 53 leading ones, or just one more by rounding up. -/
theorem leading_bounds (h : 52 ≤ n.log2) : 2 ^ 52 ≤ leading n ∧ leading n ≤ 2 ^ 53 := by
  have hn : n ≠ 0 := by
    rintro rfl
    simp at h
  have hlow : 2 ^ 52 ≤ n / unit n := by
    rw [Nat.le_div_iff_mul_le (unit_pos n), unit, ← Nat.pow_add, Nat.add_sub_cancel' h]
    exact Nat.log2_self_le hn
  have hhigh : n / unit n < 2 ^ 53 := by
    rw [Nat.div_lt_iff_lt_mul (unit_pos n), unit, ← Nat.pow_add,
      show 53 + (n.log2 - 52) = n.log2 + 1 by omega]
    exact Nat.lt_log2_self
  obtain ⟨hle, hge⟩ := divideToEven_bounds n (unit n)
  unfold leading
  omega

/-- The 53 leading bits of a number, with zeros behind those of a shorter one. -/
def significand (n : Nat) : Nat := leading n * 2 ^ (52 - n.log2)

/-- A significand has 53 bits, or it is just one more by rounding up. -/
theorem significand_bounds (hn : n ≠ 0) : 2 ^ 52 ≤ significand n ∧ significand n ≤ 2 ^ 53 := by
  unfold significand
  rcases Nat.lt_or_ge n.log2 52 with hshort | hlong
  · -- A short number is not rounded, only moved up to its place.
    have hlow := Nat.mul_le_mul_right (2 ^ (52 - n.log2)) (Nat.log2_self_le hn)
    have hhigh := Nat.mul_lt_mul_of_pos_right (@Nat.lt_log2_self n) (Nat.two_pow_pos (52 - n.log2))
    rw [← Nat.pow_add] at hlow hhigh
    rw [show n.log2 + (52 - n.log2) = 52 by omega] at hlow
    rw [show n.log2 + 1 + (52 - n.log2) = 53 by omega] at hhigh
    rw [leading_of_log2_le (Nat.le_of_lt hshort)]
    exact ⟨hlow, Nat.le_of_lt hhigh⟩
  · rw [Nat.sub_eq_zero_of_le hlong, Nat.pow_zero, Nat.mul_one]
    exact leading_bounds hlong

/-- The integer that the 53 leading bits of a number stand for. -/
def rounded (n : Nat) : Nat := leading n * unit n

/-- Rounding does not lead past a power of two. -/
theorem rounded_bounds (h : 52 ≤ n.log2) :
    2 ^ n.log2 ≤ rounded n ∧ rounded n ≤ 2 ^ (n.log2 + 1) := by
  obtain ⟨hlow, hhigh⟩ := leading_bounds h
  have hmulLow := Nat.mul_le_mul_right (unit n) hlow
  have hmulHigh := Nat.mul_le_mul_right (unit n) hhigh
  rw [unit, ← Nat.pow_add, Nat.add_sub_cancel' h] at hmulLow
  rw [unit, ← Nat.pow_add, show 53 + (n.log2 - 52) = n.log2 + 1 by omega] at hmulHigh
  exact ⟨hmulLow, hmulHigh⟩

theorem rounded_of_log2_le (h : n.log2 ≤ 52) : rounded n = n := by
  rw [rounded, leading_of_log2_le h, unit_of_log2_le h, Nat.mul_one]

/-- The numbers that are rounded to 63 bits, and to one more than those. -/
theorem rounded_range (n : Nat) :
    (rounded n < 2 ^ 63 ↔ n < 2 ^ 63 - 512) ∧ (rounded n ≤ 2 ^ 63 ↔ n ≤ 2 ^ 63 + 1024) := by
  by_cases hn : n = 0
  · subst hn
    decide
  have hlow := Nat.log2_self_le hn
  have hhigh := @Nat.lt_log2_self n
  rcases Nat.lt_or_ge n.log2 62 with hshort | hlong
  · -- Both the number and the rounded one lie far below.
    have hbelow : n < 2 ^ 62 :=
      Nat.lt_of_lt_of_le hhigh (Nat.pow_le_pow_right Nat.two_pos (by omega))
    have hrounded : rounded n ≤ 2 ^ 62 := by
      rcases Nat.lt_or_ge n.log2 52 with hexact | hcut
      · rw [rounded_of_log2_le (Nat.le_of_lt hexact)]
        exact Nat.le_of_lt hbelow
      · exact (rounded_bounds hcut).2.trans (Nat.pow_le_pow_right Nat.two_pos (by omega))
    omega
  · rcases Nat.lt_or_ge n.log2 64 with hnear | hfar
    · -- The unit is known, and the rounded number is one of two multiples of it.
      rcases (by omega : n.log2 = 62 ∨ n.log2 = 63) with hlog | hlog
      · have hunit : unit n = 1024 := by norm_num [unit, hlog]
        have hcases := divideToEven_cases n 1024
        rw [hlog] at hlow hhigh
        rw [rounded, leading, hunit]
        omega
      · have hunit : unit n = 2048 := by norm_num [unit, hlog]
        have hcases := divideToEven_cases n 2048
        rw [hlog] at hlow hhigh
        rw [rounded, leading, hunit]
        omega
    · have habove : 2 ^ 64 ≤ n := (Nat.pow_le_pow_right Nat.two_pos hfar).trans hlow
      have hrounded : 2 ^ 64 ≤ rounded n :=
        (Nat.pow_le_pow_right Nat.two_pos hfar).trans (rounded_bounds (by omega)).1
      omega

/-- The number `± n` as an exact value. -/
def Holds (b : Binary64) (negative : Bool) (n : Nat) : Prop :=
  ∃ mantissa exponent, b = .finite negative mantissa exponent ∧
    mantissa * 2 ^ exponent.toNat = n * 2 ^ (-exponent).toNat

/-- A significand with the exponent of its number stands for the rounded number. -/
theorem significand_mul (n : Nat) :
    significand n * 2 ^ ((n.log2 : Int) - 52).toNat =
      rounded n * 2 ^ (-((n.log2 : Int) - 52)).toNat := by
  have hup : ((n.log2 : Int) - 52).toNat = n.log2 - 52 := by omega
  have hdown : (-((n.log2 : Int) - 52)).toNat = 52 - n.log2 := by omega
  rw [hup, hdown, significand, rounded, unit]
  ring

/-- A factor of two may go to the exponent. -/
theorem mul_two_pow_succ {mantissa r : Nat} {exponent : Int}
    (h : 2 * mantissa * 2 ^ exponent.toNat = r * 2 ^ (-exponent).toNat) :
    mantissa * 2 ^ (exponent + 1).toNat = r * 2 ^ (-(exponent + 1)).toNat := by
  by_cases hexponent : 0 ≤ exponent
  · rw [show (-exponent).toNat = 0 by omega] at h
    rw [show (-(exponent + 1)).toNat = 0 by omega,
      show (exponent + 1).toNat = exponent.toNat + 1 by omega, Nat.pow_succ, ← h]
    ring
  · rw [show exponent.toNat = 0 by omega,
      show (-exponent).toNat = (-(exponent + 1)).toNat + 1 by omega, Nat.pow_succ,
      ← Nat.mul_assoc] at h
    rw [show (exponent + 1).toNat = 0 by omega]
    omega

/-- The mantissa of 53 bits and the exponent of a number that is rounded.  If rounding up has filled
the significand, its leading bit alone is left, one place up. -/
def normalForm (n : Nat) : Nat × Int :=
  if significand n < 2 * hiddenBit then (significand n, (n.log2 : Int) - 52)
  else (hiddenBit, (n.log2 : Int) - 52 + 1)

/-- The mantissa of the normal form has 53 bits. -/
theorem normalForm_bounds (hn : n ≠ 0) :
    hiddenBit ≤ (normalForm n).1 ∧ (normalForm n).1 < 2 * hiddenBit := by
  have hhidden : hiddenBit = 2 ^ 52 := rfl
  obtain ⟨hlow, hhigh⟩ := significand_bounds hn
  unfold normalForm
  split
  · exact ⟨by omega, by assumption⟩
  · exact ⟨Nat.le_refl _, by omega⟩

/-- The normal form of a number stands for the rounded number. -/
theorem holds_normalForm (negative : Bool) (hn : n ≠ 0) :
    Holds (.finite negative (normalForm n).1 (normalForm n).2) negative (rounded n) := by
  have hhidden : hiddenBit = 2 ^ 52 := rfl
  obtain ⟨-, hhigh⟩ := significand_bounds hn
  have hvalue := significand_mul n
  unfold normalForm
  split
  · exact ⟨_, _, rfl, hvalue⟩
  · have hfull : significand n = 2 * hiddenBit := by omega
    rw [hfull] at hvalue
    exact ⟨_, _, rfl, mul_two_pow_succ hvalue⟩

/-! ## Patterns -/

/-- The pattern of a sign, an exponent field and a significand: the leading bit of the significand
counts the field up by one. -/
def assemble (negative : Bool) (field mantissa : Nat) : UInt64 :=
  UInt64.ofNat ((if negative then signBit else 0) + (field * hiddenBit + mantissa))

section

variable {negative : Bool} {field mantissa : Nat}

theorem toNat_assemble (h : field * hiddenBit + mantissa < 2047 * hiddenBit) :
    (assemble negative field mantissa).toNat =
      (if negative then signBit else 0) + (field * hiddenBit + mantissa) := by
  rw [assemble, UInt64.toNat_ofNat']
  apply Nat.mod_eq_of_lt
  unfold hiddenBit at *
  unfold signBit
  split <;> omega

/-- The value of a pattern that was put together. -/
theorem ofBits_assemble (hlow : hiddenBit ≤ mantissa) (hhigh : mantissa < 2 * hiddenBit)
    (h : field * hiddenBit + mantissa < 2047 * hiddenBit) :
    ofBits (assemble negative field mantissa) =
      .finite negative mantissa (lowestExponent + (field : Int)) := by
  have hword := @toNat_assemble negative field mantissa h
  -- The leading bit of the mantissa carries into the exponent field.
  have hfield : exponentField (assemble negative field mantissa) = field + 1 := by
    rw [exponentField, hword]
    unfold hiddenBit at *
    unfold signBit
    split <;> omega
  have hfraction : (assemble negative field mantissa).toNat % hiddenBit = mantissa - hiddenBit := by
    rw [hword]
    unfold hiddenBit at *
    unfold signBit
    split <;> omega
  have hsign : decide ((assemble negative field mantissa).toNat / signBit = 1) = negative := by
    rw [hword]
    unfold hiddenBit at *
    unfold signBit
    cases negative <;> simp <;> omega
  have hbelow : field + 1 < 2047 := by
    unfold hiddenBit at *
    omega
  rw [ofBits, hsign, hfield, hfraction]
  simp only [Nat.ne_of_lt hbelow, Nat.succ_ne_zero, ↓reduceIte, Nat.add_sub_cancel' hlow]
  rfl

end

/-! ## Rounding integral ratios -/

section

variable {n den : Nat}

/-- A product has as many bits as its factors, or one bit less. -/
theorem log2_mul (hn : n ≠ 0) (hden : den ≠ 0) :
    (n * den).log2 = n.log2 + den.log2 ∨ (n * den).log2 = n.log2 + den.log2 + 1 := by
  have hmul : n * den ≠ 0 := Nat.mul_ne_zero hn hden
  have hlow : n.log2 + den.log2 ≤ (n * den).log2 := by
    rw [Nat.le_log2 hmul, Nat.pow_add]
    exact Nat.mul_le_mul (Nat.log2_self_le hn) (Nat.log2_self_le hden)
  have hhigh : (n * den).log2 < n.log2 + den.log2 + 2 := by
    rw [Nat.log2_lt hmul, show n.log2 + den.log2 + 2 = (n.log2 + 1) + (den.log2 + 1) by omega,
      Nat.pow_add]
    exact Nat.mul_lt_mul_of_lt_of_lt Nat.lt_log2_self Nat.lt_log2_self
  omega

/-- An integral ratio that is scaled lies below 53 bits if its quotient does. -/
theorem scaleRatio_lt_iff (hden : 0 < den) (shift : Int) :
    (scaleRatio (n * den) den shift).1 < (scaleRatio (n * den) den shift).2 * hiddenBit ↔
      n * 2 ^ shift.toNat < 2 ^ (52 + (-shift).toNat) := by
  have hhidden : hiddenBit = 2 ^ 52 := rfl
  unfold scaleRatio
  rw [hhidden]
  by_cases hshift : 0 ≤ shift
  · rw [if_pos hshift, show (-shift).toNat = 0 by omega, Nat.add_zero]
    show n * den * 2 ^ shift.toNat < den * 2 ^ 52 ↔ _
    rw [Nat.mul_right_comm, Nat.mul_comm den, Nat.mul_lt_mul_right hden]
  · rw [if_neg hshift, show shift.toNat = 0 by omega, Nat.pow_zero, Nat.mul_one, Nat.pow_add]
    show n * den < den * 2 ^ (-shift).toNat * 2 ^ 52 ↔ _
    rw [Nat.mul_assoc, Nat.mul_comm den, Nat.mul_lt_mul_right hden, Nat.mul_comm (2 ^ 52)]

/-- The exponent of an integral ratio is that of its quotient. -/
theorem exponentFor_mul (hn : n ≠ 0) (hden : den ≠ 0) :
    exponentFor (n * den) den = (n.log2 : Int) - 52 := by
  have hlow := Nat.log2_self_le hn
  have hhigh := @Nat.lt_log2_self n
  unfold exponentFor
  simp only [scaleRatio_lt_iff (Nat.pos_of_ne_zero hden), lowestExponent, fractionBits]
  -- The exponent is guessed from the lengths of the ratio.  The guess is right, or one too high,
  -- and then the scaled ratio lies below 53 bits.
  rcases log2_mul hn hden with hlog | hlog
  · have hguess : ((n * den).log2 : Int) - den.log2 - (52 : Nat) = (n.log2 : Int) - 52 := by omega
    have hnot : ¬ n * 2 ^ (-((n.log2 : Int) - 52)).toNat <
        2 ^ (52 + (-(-((n.log2 : Int) - 52))).toNat) := by
      rw [show 52 + (-(-((n.log2 : Int) - 52))).toNat =
        n.log2 + (-((n.log2 : Int) - 52)).toNat by omega, Nat.pow_add]
      exact Nat.not_lt.mpr (Nat.mul_le_mul_right _ hlow)
    rw [hguess, if_neg hnot]
    omega
  · have hguess : ((n * den).log2 : Int) - den.log2 - (52 : Nat) = (n.log2 : Int) - 51 := by omega
    have hbelow : n * 2 ^ (-((n.log2 : Int) - 51)).toNat <
        2 ^ (52 + (-(-((n.log2 : Int) - 51))).toNat) := by
      rw [show 52 + (-(-((n.log2 : Int) - 51))).toNat =
        n.log2 + 1 + (-((n.log2 : Int) - 51)).toNat by omega, Nat.pow_add]
      exact Nat.mul_lt_mul_of_pos_right hhigh (Nat.two_pow_pos _)
    rw [hguess, if_pos hbelow]
    omega

/-- The mantissa of an integral ratio is the significand of its quotient. -/
theorem divideToEven_scaleRatio (hden : 0 < den) :
    divideToEven (scaleRatio (n * den) den (-((n.log2 : Int) - 52))).1
      (scaleRatio (n * den) den (-((n.log2 : Int) - 52))).2 = significand n := by
  unfold scaleRatio significand leading unit
  by_cases hshort : n.log2 ≤ 52
  · -- Nothing is cut off: the division is exact.
    rw [if_pos (by omega), show (-((n.log2 : Int) - 52)).toNat = 52 - n.log2 by omega,
      Nat.sub_eq_zero_of_le hshort]
    show divideToEven (n * den * 2 ^ (52 - n.log2)) den = divideToEven n 1 * 2 ^ (52 - n.log2)
    rw [divideToEven_one, Nat.mul_right_comm, divideToEven_cancel _ hden]
  · rw [if_neg (by omega), show (-(-((n.log2 : Int) - 52))).toNat = n.log2 - 52 by omega,
      Nat.sub_eq_zero_of_le (by omega : 52 ≤ n.log2), Nat.pow_zero, Nat.mul_one]
    show divideToEven (n * den) (den * 2 ^ (n.log2 - 52)) = _
    rw [Nat.mul_comm den, divideToEven_mul _ _ hden]

/-- Rounding an integral ratio puts the significand of its quotient together. -/
theorem round_mul (negative : Bool) (hn : n ≠ 0) (hden : 0 < den) :
    round negative (n * den) den =
      if (n.log2 + 1022) * hiddenBit + significand n < 2047 * hiddenBit then
        some (assemble negative (n.log2 + 1022) (significand n))
      else none := by
  have hmul : n * den ≠ 0 := Nat.mul_ne_zero hn (Nat.ne_of_gt hden)
  have hfield : ((n.log2 : Int) - 52 - lowestExponent).toNat = n.log2 + 1022 := by
    unfold lowestExponent
    omega
  unfold round
  simp only [if_neg hmul, exponentFor_mul hn (Nat.ne_of_gt hden), divideToEven_scaleRatio hden,
    hfield]
  rfl

/-- The pattern of a number's significand has the value of its normal form. -/
theorem ofBits_assemble_significand (negative : Bool) (hn : n ≠ 0)
    (h : (n.log2 + 1022) * hiddenBit + significand n < 2047 * hiddenBit) :
    ofBits (assemble negative (n.log2 + 1022) (significand n)) =
      .finite negative (normalForm n).1 (normalForm n).2 := by
  have hhidden : hiddenBit = 2 ^ 52 := rfl
  obtain ⟨hlow, hhigh⟩ := significand_bounds hn
  unfold normalForm
  split
  · rename_i hsmall
    have hexponent : lowestExponent + ((n.log2 + 1022 : Nat) : Int) = (n.log2 : Int) - 52 := by
      unfold lowestExponent
      omega
    rw [ofBits_assemble (by omega) hsmall h, hexponent]
  · -- Rounding up has filled the significand.  The pattern is also that of its leading bit, with
    -- the next field.
    have hfull : significand n = 2 * hiddenBit := by omega
    have hcarry : (n.log2 + 1022) * hiddenBit + 2 * hiddenBit =
        (n.log2 + 1023) * hiddenBit + hiddenBit := by ring
    have hsame : assemble negative (n.log2 + 1022) (significand n) =
        assemble negative (n.log2 + 1023) hiddenBit := by
      rw [assemble, assemble, hfull, hcarry]
    rw [hfull, hcarry] at h
    have hexponent : lowestExponent + ((n.log2 + 1023 : Nat) : Int) = (n.log2 : Int) - 52 + 1 := by
      unfold lowestExponent
      omega
    rw [hsame, ofBits_assemble (Nat.le_refl hiddenBit) (by omega) h, hexponent]

/-- A pattern that an integral ratio is rounded to stands for the rounded quotient. -/
theorem holds_of_round {negative : Bool} (hden : 0 < den) {bits : UInt64}
    (h : round negative (n * den) den = some bits) : Holds (ofBits bits) negative (rounded n) := by
  by_cases hn : n = 0
  · subst hn
    have hbits : bits = UInt64.ofNat (if negative then signBit else 0) := by
      simpa [round] using h.symm
    refine ⟨0, lowestExponent, ?_, by simp [rounded, leading, divideToEven]⟩
    rw [hbits]
    cases negative <;> decide
  · rw [round_mul negative hn hden] at h
    split at h
    · rename_i hrange
      rw [← Option.some.inj h, ofBits_assemble_significand negative hn hrange]
      exact holds_normalForm negative hn
    · cases h

/-- Only an integer of 1024 bits or more is past the largest double. -/
theorem le_log2_of_round_eq_none {negative : Bool} (hden : 0 < den)
    (h : round negative (n * den) den = none) : 1023 ≤ n.log2 := by
  have hhidden : hiddenBit = 2 ^ 52 := rfl
  have hn : n ≠ 0 := by
    rintro rfl
    simp [round] at h
  obtain ⟨-, hhigh⟩ := significand_bounds hn
  rw [round_mul negative hn hden, hhidden] at h
  split at h
  · cases h
  · omega

end

end Binary64

/-! ## Signed integers -/

/-- The integer of a sign and a magnitude. -/
def signed (negative : Bool) (n : Nat) : Int := if negative then -(n : Int) else n

/-- The integer of 53 leading bits nearest to an integer, a half going to the even one. -/
def nearestInteger (n : Int) : Int := n.sign * Binary64.rounded n.natAbs

theorem nearestInteger_signed (negative : Bool) (n : Nat) :
    nearestInteger (signed negative n) = signed negative (Binary64.rounded n) := by
  by_cases hn : n = 0
  · subst hn
    cases negative <;> decide
  · have hsign : (n : Int).sign = 1 := Int.sign_eq_one_of_pos (by omega)
    cases negative <;> simp [nearestInteger, signed, hsign]

/-- Exactly the integers whose bits behind the 53 leading ones are zero are their own nearest. -/
theorem nearestInteger_eq_self_iff (n : Int) :
    nearestInteger n = n ↔ Binary64.unit n.natAbs ∣ n.natAbs := by
  rw [← Binary64.divideToEven_mul_eq_self_iff _ (Binary64.unit_pos _)]
  show n.sign * (Binary64.rounded n.natAbs : Int) = n ↔ Binary64.rounded n.natAbs = n.natAbs
  by_cases hn : n = 0
  · subst hn
    decide
  · have hself : n.sign * (n.natAbs : Int) = n := Int.sign_mul_natAbs n
    constructor
    · intro h
      have hmul := h.trans hself.symm
      exact_mod_cast mul_left_cancel₀ (by simpa using hn) hmul
    · intro h
      rw [h, hself]

/-- The integers whose nearest integers have 64 bits. -/
theorem fitsInt64_nearestInteger (n : Int) :
    fitsInt64 (nearestInteger n) = true ↔ leastInt64 - 1024 ≤ n ∧ n < -leastInt64 - 512 := by
  obtain ⟨hpositive, hnegative⟩ := Binary64.rounded_range n.natAbs
  unfold fitsInt64 leastInt64
  rw [decide_eq_true_iff]
  rcases Int.lt_trichotomy n 0 with hlt | rfl | hgt
  · have hnearest : nearestInteger n = -(Binary64.rounded n.natAbs : Int) := by
      rw [nearestInteger, Int.sign_eq_neg_one_of_neg hlt]
      ring
    rw [hnearest]
    omega
  · decide
  · have hnearest : nearestInteger n = Binary64.rounded n.natAbs := by
      rw [nearestInteger, Int.sign_eq_one_of_pos hgt]
      ring
    rw [hnearest]
    omega

end ShaderScript
