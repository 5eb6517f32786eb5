import Mathlib.Tactic.Positivity
import Mathlib.Tactic.Ring
import ShaderScript.Document.MessagePack
import ShaderScript.Number.Binary64

/-!
# Integers in MessagePack

An integer may be written in several ways: in a single byte if it is small, or in any form that
holds it.  `MessagePack.Packs` relates an integer to all of its encodings, and `value_of_packs` says
that each of them is read as the integer.
-/

namespace ShaderScript

variable {n : Int}

/-! ## Forms -/

/-- The number of bytes of a form. -/
def IntegerForm.width : IntegerForm → Nat
  | .int8 | .uint8 => 1
  | .int16 | .uint16 => 2
  | .int32 | .uint32 => 4
  | .int64 | .uint64 => 8

/-- Whether a form has negative integers. -/
def IntegerForm.isSigned : IntegerForm → Bool
  | .int8 | .int16 | .int32 | .int64 => true
  | .uint8 | .uint16 | .uint32 | .uint64 => false

/-- The integers of a form. -/
def IntegerForm.Holds (form : IntegerForm) (n : Int) : Prop :=
  if form.isSigned = true then -256 ^ form.width ≤ 2 * n ∧ 2 * n < 256 ^ form.width
  else 0 ≤ n ∧ n < 256 ^ form.width

theorem IntegerForm.Holds.bounds {form : IntegerForm} (h : form.Holds n) :
    leastInt64 ≤ n ∧ n < wordCount := by
  unfold leastInt64 wordCount
  cases form <;> simp only [Holds, isSigned, width, if_true, Bool.false_eq_true, if_false] at h <;>
    omega

namespace MessagePack

variable {width : Nat}

/-! ## Words -/

theorem bigEndian_concat (bytes : List UInt8) (b : UInt8) :
    bigEndian (bytes ++ [b]) = 256 * bigEndian bytes + b.toNat := by
  rw [bigEndian, List.foldl_append]
  rfl

theorem length_toBytes (width n : Nat) : (toBytes width n).length = width := by
  induction width generalizing n with
  | zero => rfl
  | succ width ih => rw [toBytes, List.length_append, ih]; rfl

theorem bigEndian_toBytes {n : Nat} (h : n < 256 ^ width) : bigEndian (toBytes width n) = n := by
  induction width generalizing n with
  | zero =>
    obtain rfl : n = 0 := by omega
    rfl
  | succ width ih =>
    have hn : n / 256 < 256 ^ width := by
      rw [Nat.pow_succ] at h
      exact Nat.div_lt_of_lt_mul (by rwa [Nat.mul_comm])
    rw [toBytes, bigEndian_concat, ih hn, UInt8.toNat_ofNat']
    exact Nat.div_add_mod n 256

theorem unsigned_toBytes {n : Nat} (h : n < 256 ^ width) (rest : List UInt8) :
    unsigned width (toBytes width n ++ rest) = some (n, rest) := by
  have hlength := length_toBytes width n
  have hsplit : split width (toBytes width n ++ rest) = some (toBytes width n, rest) := by
    rw [split, List.take_left' hlength, List.drop_left' hlength, if_pos hlength]
  rw [unsigned, hsplit, Option.map_some]
  exact congrArg (fun m => some (m, rest)) (bigEndian_toBytes h)

/-- The bytes of an integer in a width: those of its remainder. -/
def word (width : Nat) (n : Int) : List UInt8 :=
  toBytes width (n % (Nat.pow 256 width : Nat)).toNat

theorem unsigned_word (width : Nat) (n : Int) (rest : List UInt8) :
    unsigned width (word width n ++ rest) = some ((n % (256 ^ width : Nat)).toNat, rest) := by
  have hpos : (0 : Int) < (256 ^ width : Nat) := by positivity
  have hlow := Int.emod_nonneg n hpos.ne'
  have hhigh := Int.emod_lt_of_pos n hpos
  have hword : word width n = toBytes width (n % (256 ^ width : Nat)).toNat := rfl
  rw [hword, unsigned_toBytes (by omega)]

theorem unsignedNumber_word (form : IntegerForm) (hlow : 0 ≤ n) (hhigh : n < 256 ^ width)
    (rest : List UInt8) :
    unsignedNumber width form (word width n ++ rest) = some (.number (.integer form n), rest) := by
  have hn : (n % (256 ^ width : Nat)).toNat = n := by
    rw [Int.emod_eq_of_lt hlow (by exact_mod_cast hhigh)]
    omega
  rw [unsignedNumber, unsigned_word, Option.map_some]
  exact congrArg (fun i => some (Document.number (.integer form i), rest)) hn

theorem signedNumber_word (form : IntegerForm) (hlow : -256 ^ width ≤ 2 * n)
    (hhigh : 2 * n < 256 ^ width) (rest : List UInt8) :
    signedNumber width form (word width n ++ rest) = some (.number (.integer form n), rest) := by
  have hpos : (0 : Int) < (256 ^ width : Nat) := by positivity
  have hnonneg := Int.emod_nonneg n hpos.ne'
  have hn : Int.bmod (n % (256 ^ width : Nat)).toNat (256 ^ width) = n := by
    -- In two's complement an integer that fits is its own balanced remainder.
    rw [Int.toNat_of_nonneg hnonneg, Int.emod_bmod]
    exact Int.bmod_eq_of_le_mul_two (by push_cast; omega) (by push_cast; omega)
  rw [signedNumber, signed, unsigned_word, Option.map_some, Option.map_some]
  exact congrArg (fun i => some (Document.number (.integer form i), rest)) hn

/-! ## Encodings -/

/-- The bytes that stand for an integer: one byte for a small one, or a form that holds it. -/
inductive Packs : List UInt8 → Int → Prop
  | small {b : UInt8} (h : b < 0x80) : Packs [b] b.toNat
  | smallNegative {b : UInt8} (h : 0xE0 ≤ b) : Packs [b] (b.toNat - 256)
  | sized {form : IntegerForm} {n : Int} (h : form.Holds n) : Packs (writeInteger form n) n

/-- The byte that announces a form. -/
def mark : IntegerForm → UInt8
  | .uint8 => 0xCC
  | .uint16 => 0xCD
  | .uint32 => 0xCE
  | .uint64 => 0xCF
  | .int8 => 0xD0
  | .int16 => 0xD1
  | .int32 => 0xD2
  | .int64 => 0xD3

theorem writeInteger_eq (form : IntegerForm) (n : Int) :
    writeInteger form n = mark form :: word form.width n := by
  cases form <;> rfl

theorem value_mark (form : IntegerForm) (fuel : Nat) (bytes : List UInt8) :
    value (fuel + 1) (mark form :: bytes) =
      if form.isSigned = true then signedNumber form.width form bytes
      else unsignedNumber form.width form bytes := by
  cases form <;> (rw [value]; rfl)

/-- The bytes of an integer are read as the integer. -/
theorem value_of_packs {bytes : List UInt8} (h : Packs bytes n) :
    (leastInt64 ≤ n ∧ n < wordCount) ∧ ∃ form, ∀ fuel rest,
      value (fuel + 1) (bytes ++ rest) = some (.number (.integer form n), rest) := by
  cases h with
  | @small b h =>
    have hb := b.toNat_lt
    refine ⟨by unfold leastInt64 wordCount; omega, .int8, fun fuel rest => ?_⟩
    rw [List.singleton_append, value, if_pos h]
  | @smallNegative b h =>
    have hb := b.toNat_lt
    have h' : 0xE0 ≤ b.toNat := UInt8.le_iff_toNat_le.1 h
    -- None of the ranges before applies.
    have hno : ∀ k : UInt8, k.toNat ≤ 0xC0 → ¬ b < k := fun k hk hlt => by
      have := UInt8.lt_iff_toNat_lt.1 hlt
      omega
    refine ⟨by unfold leastInt64 wordCount; omega, .int8, fun fuel rest => ?_⟩
    rw [List.singleton_append, value, if_neg (hno _ (by decide)), if_neg (hno _ (by decide)),
      if_neg (hno _ (by decide)), if_neg (hno _ (by decide)), if_pos h]
  | @sized form n h =>
    refine ⟨h.bounds, form, fun fuel rest => ?_⟩
    rw [writeInteger_eq, List.cons_append, value_mark]
    unfold IntegerForm.Holds at h
    by_cases hsigned : form.isSigned = true
    · rw [if_pos hsigned] at h ⊢
      exact signedNumber_word form h.1 h.2 rest
    · rw [if_neg hsigned] at h ⊢
      exact unsignedNumber_word form h.1 h.2 rest

end MessagePack

end ShaderScript
