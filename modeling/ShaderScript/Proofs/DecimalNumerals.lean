import Mathlib.Tactic.IntervalCases
import ShaderScript.Number.Numeral
import ShaderScript.Proofs.NativeFloats

/-!
# Decimal numerals

A decimal numeral has digits with a point among them, after a sign and before an exponent, where all
but the digits may be left out.  `Numeral.Spelling` is the syntax of numerals, `Spelling.text` the
text of one, and `Spelling.Denotes` the integer it stands for, if it stands for one.
-/

namespace ShaderScript

namespace Numeral

variable {c : Char} {cs : List Char}

/-! ## Syntax -/

/-- A run of decimal digits. -/
structure Digits where
  chars : List Char
  isDigit : ∀ c ∈ chars, c.isDigit = true

/-- The number that digits stand for. -/
def Digits.value (ds : Digits) : Nat := Nat.ofDigitChars 10 ds.chars 0

/-- The text of an optional sign; the sign is negative or not. -/
def signText : Option Bool → List Char
  | none => []
  | some true => ['-']
  | some false => ['+']

/-- An exponent of up to five digits; leading zeros do not count. -/
structure Exponent where
  mark : Char
  mark_eq : mark = 'e' ∨ mark = 'E'
  sign : Option Bool
  digits : Digits
  digits_ne : digits.chars ≠ []
  value_lt : digits.value < 100000

namespace Exponent

def chars (e : Exponent) : List Char := e.mark :: (signText e.sign ++ e.digits.chars)

def value (e : Exponent) : Int := signed (e.sign = some true) e.digits.value

end Exponent

/-- A decimal numeral. -/
structure Spelling where
  sign : Option Bool
  whole : Digits
  fraction : Option Digits
  exponent : Option Exponent
  /-- There is a digit before the point or behind it. -/
  digits_ne : whole.chars ++ (fraction.map Digits.chars).getD [] ≠ []

namespace Spelling

/-- The digits behind the point. -/
def places (d : Spelling) : List Char := (d.fraction.map Digits.chars).getD []

/-- The point with the digits behind it. -/
def fractionText (d : Spelling) : List Char :=
  match d.fraction with
  | some ds => '.' :: ds.chars
  | none => []

def exponentText (d : Spelling) : List Char := (d.exponent.map Exponent.chars).getD []

/-- The numeral without its sign. -/
def unsigned (d : Spelling) : List Char := d.whole.chars ++ (d.fractionText ++ d.exponentText)

/-- The text of the numeral. -/
def text (d : Spelling) : String := String.ofList (signText d.sign ++ d.unsigned)

def negative (d : Spelling) : Bool := d.sign = some true

/-- All digits of the numeral as one number. -/
def value (d : Spelling) : Nat := Nat.ofDigitChars 10 (d.whole.chars ++ d.places) 0

/-- The power of ten that the number is to be multiplied by. -/
def scale (d : Spelling) : Int := (d.exponent.map Exponent.value).getD 0 - d.places.length

/-- The integer that the numeral stands for. -/
def Denotes (d : Spelling) (n : Int) : Prop :=
  ∃ m : Nat, n = signed d.negative m ∧
    d.value * 10 ^ d.scale.toNat = m * 10 ^ (-d.scale).toNat

end Spelling

/-! ## Characters -/

/-- The decimal digits. -/
def digitChars : List Char := ['0', '1', '2', '3', '4', '5', '6', '7', '8', '9']

/-- The characters of numerals. -/
def alphabet : List Char := digitChars ++ ['.', 'e', 'E', '+', '-']

theorem mem_digitChars (h : c.isDigit = true) : c ∈ digitChars := by
  have hself : c = Char.ofNat c.toNat := (Char.ofNat_toNat c).symm
  have hrange : 48 ≤ c.toNat ∧ c.toNat ≤ 57 := by
    simpa [Char.isDigit, UInt32.le_iff_toNat_le] using h
  -- A character is given by its code, and ten codes are left.
  generalize c.toNat = code at hself hrange
  obtain ⟨hlow, hhigh⟩ := hrange
  subst hself
  interval_cases code <;> decide

/-- What holds of ten characters holds of every digit. -/
theorem of_isDigit {P : Char → Prop} [DecidablePred P]
    (hall : digitChars.all (fun c => decide (P c)) = true) {c : Char} (h : c.isDigit = true) :
    P c :=
  of_decide_eq_true (List.all_eq_true.1 hall c (mem_digitChars h))

theorem digitValue?_of_isDigit (h : c.isDigit = true) :
    digitValue? 10 c = some (c.toNat - '0'.toNat) :=
  @of_isDigit (fun c => digitValue? 10 c = some (c.toNat - '0'.toNat)) _ (by decide) c h

theorem ne_of_isDigit (h : c.isDigit = true) : c ≠ '_' ∧ c ≠ '.' ∧ c ≠ '+' ∧ c ≠ '-' :=
  @of_isDigit (fun c => c ≠ '_' ∧ c ≠ '.' ∧ c ≠ '+' ∧ c ≠ '-') _ (by decide) c h

/-- No character of a numeral is an underscore, marks another base or begins a name. -/
theorem ne_of_mem_alphabet (h : c ∈ alphabet) :
    c ≠ '_' ∧ c ≠ 'x' ∧ c ≠ 'X' ∧ c.toLower ≠ 'i' ∧ c.toLower ≠ 'n' := by
  have hall : alphabet.all (fun c => decide (c ≠ '_' ∧ c ≠ 'x' ∧ c ≠ 'X' ∧ c.toLower ≠ 'i' ∧
      c.toLower ≠ 'n')) = true := by decide
  exact of_decide_eq_true (List.all_eq_true.1 hall c h)

/-! ## Reading digits -/

/-- The mantissa after more digits. -/
def Mantissa.append (m : Mantissa) (cs : List Char) : Mantissa :=
  { m with
    value := Nat.ofDigitChars 10 cs m.value
    places := if m.sawPoint then m.places + cs.length else m.places
    sawDigit := m.sawDigit || !cs.isEmpty }

theorem readMantissa_append (h : ∀ c ∈ cs, c.isDigit = true) (rest : List Char) (m : Mantissa) :
    readMantissa 10 (cs ++ rest) m = readMantissa 10 rest (m.append cs) := by
  induction cs generalizing m with
  | nil =>
    have hsame : m.append [] = m := by
      obtain ⟨value, places, sawDigit, sawPoint⟩ := m
      simp [Mantissa.append]
    rw [hsame, List.nil_append]
  | cons c cs ih =>
    have hdigit : c.isDigit = true := h c List.mem_cons_self
    obtain ⟨hunderscore, hpoint, -, -⟩ := ne_of_isDigit hdigit
    rw [List.cons_append, readMantissa, if_neg hunderscore, if_neg hpoint,
      digitValue?_of_isDigit hdigit]
    dsimp only
    rw [ih fun c' hc' => h c' (List.mem_cons_of_mem c hc')]
    congr 1
    simp only [Mantissa.append, Nat.ofDigitChars_cons, Mantissa.mk.injEq]
    refine ⟨by rw [Nat.mul_comm], ?_, by simp, trivial⟩
    split
    · rw [List.length_cons]
      omega
    · rfl

theorem le_ofDigitChars (cs : List Char) (e : Nat) : e ≤ Nat.ofDigitChars 10 cs e := by
  rw [Nat.ofDigitChars_eq_ofDigitChars_zero]
  exact (Nat.le_mul_of_pos_left e (Nat.pow_pos (by decide))).trans (Nat.le_add_right _ _)

/-- All digits of an exponent count if there are no more than five. -/
theorem readExponentDigits_eq (h : ∀ c ∈ cs, c.isDigit = true) {e : Nat}
    (hlt : Nat.ofDigitChars 10 cs e < 100000) :
    readExponentDigits cs e = (Nat.ofDigitChars 10 cs e, []) := by
  induction cs generalizing e with
  | nil => rfl
  | cons c cs ih =>
    have hdigit : c.isDigit = true := h c List.mem_cons_self
    rw [Nat.ofDigitChars_cons] at hlt ⊢
    -- What was read so far has one digit less, so the cap is not reached.
    have hle := le_ofDigitChars cs (10 * e + (c.toNat - '0'.toNat))
    have hcap : e < exponentCap := by
      unfold exponentCap
      omega
    rw [readExponentDigits, if_neg (ne_of_isDigit hdigit).1, digitValue?_of_isDigit hdigit]
    dsimp only
    rw [if_pos hcap, Nat.mul_comm e 10]
    exact ih (fun c' hc' => h c' (List.mem_cons_of_mem c hc')) hlt

theorem readExponentSize_eq (h : ∀ c ∈ cs, c.isDigit = true) (hne : cs ≠ [])
    (hlt : Nat.ofDigitChars 10 cs 0 < 100000) :
    readExponentSize cs = some (Nat.ofDigitChars 10 cs 0, []) := by
  cases cs with
  | nil => exact absurd rfl hne
  | cons c cs =>
    rw [readExponentSize, digitValue?_of_isDigit (h c List.mem_cons_self),
      readExponentDigits_eq h hlt]
    rfl

/-- An exponent is read as its value. -/
theorem readExponent_eq (e : Exponent) :
    readExponent (signText e.sign ++ e.digits.chars) = some (e.value, []) := by
  have hsize := readExponentSize_eq e.digits.isDigit e.digits_ne e.value_lt
  unfold Exponent.value
  cases hsign : e.sign with
  | none =>
    -- The first digit is no sign.
    obtain ⟨c, cs, hcs⟩ := List.exists_cons_of_ne_nil e.digits_ne
    have hdigit : c.isDigit = true := e.digits.isDigit c (by simp [hcs])
    obtain ⟨-, -, hplus, hminus⟩ := ne_of_isDigit hdigit
    rw [signText, List.nil_append, hcs]
    rw [hcs] at hsize
    unfold readExponent
    split
    · rename_i heq
      exact absurd (List.cons.inj heq).1 hminus
    · rename_i heq
      exact absurd (List.cons.inj heq).1 hplus
    · rw [hsize]
      simp [signed, Digits.value, hcs]
  | some minus =>
    cases minus with
    | true | false =>
      rw [signText, List.cons_append, List.nil_append, readExponent, hsize]
      rfl

/-! ## Reading numerals -/

theorem mem_alphabet_of_isDigit (h : c.isDigit = true) : c ∈ alphabet :=
  List.mem_append_left _ (mem_digitChars h)

theorem mem_alphabet_of_mem_unsigned {d : Spelling} (h : c ∈ d.unsigned) : c ∈ alphabet := by
  have hsign : ∀ (sign : Option Bool), c ∈ signText sign → c ∈ alphabet := by
    intro sign hc
    cases sign with
    | none => cases hc
    | some minus =>
      cases minus <;> rw [List.mem_singleton.1 hc] <;> decide
  simp only [Spelling.unsigned, List.mem_append] at h
  rcases h with hwhole | hfraction | hexponent
  · exact mem_alphabet_of_isDigit (d.whole.isDigit c hwhole)
  · unfold Spelling.fractionText at hfraction
    split at hfraction
    · rename_i ds _
      rcases List.mem_cons.1 hfraction with rfl | hc
      · decide
      · exact mem_alphabet_of_isDigit (ds.isDigit c hc)
    · cases hfraction
  · unfold Spelling.exponentText at hexponent
    cases he : d.exponent with
    | none => simp [he] at hexponent
    | some e =>
      simp only [he, Option.map_some, Option.getD_some, Exponent.chars, List.mem_cons,
        List.mem_append] at hexponent
      rcases hexponent with rfl | hc | hc
      · rcases e.mark_eq with hmark | hmark <;> rw [hmark] <;> decide
      · exact hsign e.sign hc
      · exact mem_alphabet_of_isDigit (e.digits.isDigit c hc)

/-- A text without underscores has none in a wrong place. -/
theorem underscoresOk_of_forall (h : ∀ c ∈ cs, c ≠ '_') {hex : Bool} {before : Before}
    (hbefore : before ≠ .underscore) : underscoresOk hex cs before = true := by
  induction cs generalizing before with
  | nil => simpa [underscoresOk] using hbefore
  | cons c cs ih =>
    have hrest : ∀ c' ∈ cs, c' ≠ '_' := fun c' hc' => h c' (List.mem_cons_of_mem c hc')
    have hdigit : underscoresOk hex cs .digit = true := ih hrest (by decide)
    have hother : underscoresOk hex cs .other = true := ih hrest (by decide)
    rw [underscoresOk, if_neg (h c List.mem_cons_self), hdigit, hother]
    simp [hbefore]

/-- Digits end at an exponent. -/
theorem readMantissa_exponentText (d : Spelling) (m : Mantissa) :
    readMantissa 10 d.exponentText m = (m, d.exponentText) := by
  unfold Spelling.exponentText
  cases d.exponent with
  | none => rfl
  | some e =>
    rw [Option.map_some, Option.getD_some, Exponent.chars, readMantissa]
    rcases e.mark_eq with hmark | hmark <;> rw [hmark] <;> rfl

/-- The digits of a numeral are read up to its exponent. -/
theorem readMantissa_unsigned (d : Spelling) :
    ∃ sawPoint, readMantissa 10 d.unsigned {} =
      (⟨d.value, d.places.length, true, sawPoint⟩, d.exponentText) := by
  have hne := d.digits_ne
  unfold Spelling.unsigned Spelling.fractionText Spelling.value Spelling.places
  rw [readMantissa_append d.whole.isDigit]
  cases hfraction : d.fraction with
  | none =>
    rw [hfraction] at hne
    simp only [Option.map_none, Option.getD_none, List.append_nil, List.nil_append] at hne ⊢
    rw [readMantissa_exponentText]
    exact ⟨false, by simp [Mantissa.append, hne]⟩
  | some ds =>
    rw [hfraction] at hne
    simp only [Option.map_some, Option.getD_some, List.cons_append] at hne ⊢
    -- The point is the first one, and the digits behind it are counted as places.
    rw [readMantissa, if_neg (by decide), if_pos rfl, if_neg (by simp [Mantissa.append]),
      readMantissa_append ds.isDigit, readMantissa_exponentText]
    refine ⟨true, ?_⟩
    have hsaw : (!d.whole.chars.isEmpty || !ds.chars.isEmpty) = true := by
      simpa [imp_iff_not_or] using hne
    simp [Mantissa.append, Nat.ofDigitChars_append, hsaw]

theorem readDecimal_unsigned (d : Spelling) (negative : Bool) :
    readDecimal negative d.unsigned = nearestDecimal negative d.value d.scale := by
  have hunderscores : underscoresOk false d.unsigned .start = true :=
    underscoresOk_of_forall (fun c hc => (ne_of_mem_alphabet (mem_alphabet_of_mem_unsigned hc)).1)
      (by decide)
  obtain ⟨sawPoint, hmantissa⟩ := readMantissa_unsigned d
  unfold readDecimal
  rw [hmantissa, hunderscores]
  unfold Spelling.exponentText Spelling.scale
  cases d.exponent with
  | none => simp
  | some e =>
    simp only [Option.map_some, Option.getD_some, Exponent.chars, if_pos e.mark_eq, readExponent_eq,
      Bool.not_true, Bool.or_false, Bool.false_eq_true, if_false]

theorem readUnsigned_unsigned (d : Spelling) (negative : Bool) :
    readUnsigned negative d.unsigned = readDecimal negative d.unsigned := by
  have hbase : ∀ mark, mark = 'x' ∨ mark = 'X' → ∀ rest, d.unsigned ≠ '0' :: mark :: rest := by
    intro mark hmark rest heq
    have hmem : mark ∈ d.unsigned := by simp [heq]
    obtain ⟨-, hx, hX, -, -⟩ := ne_of_mem_alphabet (mem_alphabet_of_mem_unsigned hmem)
    rcases hmark with rfl | rfl
    · exact hx rfl
    · exact hX rfl
  unfold readUnsigned
  split
  · rename_i rest heq
    exact absurd heq (hbase 'x' (.inl rfl) rest)
  · rename_i rest heq
    exact absurd heq (hbase 'X' (.inr rfl) rest)
  · rfl

/-- A numeral is no name. -/
theorem lower_unsigned_ne (d : Spelling) (name : List Char) (h : 'i' ∈ name ∨ 'n' ∈ name) :
    lower d.unsigned ≠ name := by
  rintro rfl
  rcases h with h | h
  · obtain ⟨c, hc, hlower⟩ := List.mem_map.1 h
    exact (ne_of_mem_alphabet (mem_alphabet_of_mem_unsigned hc)).2.2.2.1 hlower
  · obtain ⟨c, hc, hlower⟩ := List.mem_map.1 h
    exact (ne_of_mem_alphabet (mem_alphabet_of_mem_unsigned hc)).2.2.2.2 hlower

/-- A numeral without sign does not start with one. -/
theorem unsigned_ne_sign (d : Spelling) (rest : List Char) :
    d.unsigned ≠ '-' :: rest ∧ d.unsigned ≠ '+' :: rest := by
  have hne := d.digits_ne
  unfold Spelling.unsigned Spelling.fractionText
  cases hwhole : d.whole.chars with
  | cons c cs =>
    obtain ⟨-, -, hplus, hminus⟩ := ne_of_isDigit (d.whole.isDigit c (by simp [hwhole]))
    simp [hplus, hminus]
  | nil =>
    cases hfraction : d.fraction with
    | none => simp [hwhole, hfraction] at hne
    | some ds => simp

/-- A numeral is read as its digits and its power of ten. -/
theorem read_text (d : Spelling) :
    read d.text = nearestDecimal d.negative d.value d.scale := by
  have hunsigned : ∀ negative,
      readUnsigned negative d.unsigned = nearestDecimal negative d.value d.scale :=
    fun negative => (readUnsigned_unsigned d negative).trans (readDecimal_unsigned d negative)
  have hinfinity : isInfinityName d.unsigned = false := by
    have hshort := lower_unsigned_ne d "inf".toList (by decide)
    have hlong := lower_unsigned_ne d "infinity".toList (by decide)
    rw [isInfinityName, decide_eq_false hshort, decide_eq_false hlong, Bool.or_false]
  have hnan : lower d.unsigned ≠ "nan".toList := lower_unsigned_ne d _ (by decide)
  unfold read Spelling.text Spelling.negative
  rw [String.toList_ofList]
  cases d.sign with
  | none =>
    rw [signText, List.nil_append]
    -- The digits, or the point, are not taken for a sign.
    split
    · rename_i cs heq
      exact absurd heq (unsigned_ne_sign d cs).1
    · rename_i cs heq
      exact absurd heq (unsigned_ne_sign d cs).2
    · rw [hinfinity, if_neg Bool.false_ne_true, if_neg hnan, hunsigned]
      simp only [reduceCtorEq, decide_false]
  | some minus =>
    cases minus with
    | true =>
      simp only [signText, List.cons_append, List.nil_append, hinfinity, hunsigned,
        Bool.false_eq_true, if_false, decide_true]
    | false =>
      simp only [signText, List.cons_append, List.nil_append, hinfinity, hunsigned,
        Bool.false_eq_true, if_false, Option.some.injEq, decide_false]

/-! ## Numerals of integers -/

/-- An integral ratio is rounded to the nearest double, unless it is out of range. -/
theorem nearest_mul (negative : Bool) (m : Nat) {den : Nat} (hden : 0 < den) :
    (∃ x, nearest negative (m * den) den = .ok x ∧ IsNearest x (signed negative m)) ∨
      nearest negative (m * den) den = .error .outOfRange ∧ 1023 ≤ m.log2 := by
  unfold nearest
  cases hround : Binary64.round negative (m * den) den with
  | some bits =>
    refine .inl ⟨Float.ofBits bits, rfl, negative, m, rfl, ?_⟩
    rw [Binary64.ofFloat_ofBits]
    exact Binary64.holds_of_round hden hround
  | none => exact .inr ⟨rfl, Binary64.le_log2_of_round_eq_none hden hround⟩

/-- A number and its count of digits. -/
theorem toDigits_bounds {value : Nat} (h : value ≠ 0) :
    10 ^ ((Nat.toDigits 10 value).length - 1) ≤ value ∧
      value < 10 ^ (Nat.toDigits 10 value).length := by
  refine ⟨?_, (Nat.length_toDigits_le_iff (by decide) Nat.length_toDigits_pos).1 (Nat.le_refl _)⟩
  rcases Nat.eq_zero_or_pos ((Nat.toDigits 10 value).length - 1) with hone | hmore
  · rw [hone]
    exact Nat.pos_of_ne_zero h
  · have hiff := @Nat.length_toDigits_le_iff 10 value _ (by decide) hmore
    omega

/-- A decimal digit is worth more than three binary ones. -/
theorem two_pow_mul_le (count : Nat) : 2 ^ (3 * count) ≤ 10 ^ count := by
  rw [Nat.pow_mul]
  exact Nat.pow_le_pow_left (by decide) count

/-- A number of 400 decimal digits has many more than 1023 binary ones. -/
theorem le_log2_of_ten_pow_le {m : Nat} (h : 10 ^ 400 ≤ m) : 1023 ≤ m.log2 := by
  have hm : m ≠ 0 := (Nat.lt_of_lt_of_le (Nat.pow_pos (by decide)) h).ne'
  rw [Nat.le_log2 hm]
  calc 2 ^ 1023 ≤ 2 ^ (3 * 400) := Nat.pow_le_pow_right (by decide) (by decide)
    _ ≤ 10 ^ 400 := two_pow_mul_le 400
    _ ≤ m := h

/-- A decimal that stands for an integer is rounded to the nearest double. -/
theorem nearestDecimal_of_mul (negative : Bool) {value m : Nat} {exponent : Int}
    (h : value * 10 ^ exponent.toNat = m * 10 ^ (-exponent).toNat) :
    (∃ x, nearestDecimal negative value exponent = .ok x ∧ IsNearest x (signed negative m)) ∨
      nearestDecimal negative value exponent = .error .outOfRange ∧ 1023 ≤ m.log2 := by
  have hpow : 0 < 10 ^ (-exponent).toNat := Nat.pow_pos (by decide)
  unfold nearestDecimal
  by_cases hvalue : value = 0
  · have hm : m = 0 := by
      rw [hvalue, Nat.zero_mul] at h
      exact (Nat.mul_eq_zero.1 h.symm).resolve_right hpow.ne'
    rw [if_pos hvalue, hm]
    exact nearest_mul negative 0 Nat.one_pos
  · -- The tests on the size use the number of digits only.
    obtain ⟨hlow, hhigh⟩ := toDigits_bounds hvalue
    have hm : 0 < m := by
      apply Nat.pos_of_ne_zero
      rintro rfl
      rw [Nat.zero_mul] at h
      exact Nat.mul_ne_zero hvalue (Nat.pow_pos (by decide)).ne' h
    rw [if_neg hvalue]
    dsimp only
    generalize (Nat.toDigits 10 value).length = count at hlow hhigh ⊢
    by_cases hlarge : 400 < exponent + (count : Int)
    · rw [if_pos hlarge]
      refine .inr ⟨rfl, ?_⟩
      have hscaled : 10 ^ 400 * 10 ^ (-exponent).toNat ≤ m * 10 ^ (-exponent).toNat := by
        rw [← h, ← Nat.pow_add]
        calc 10 ^ (400 + (-exponent).toNat) ≤ 10 ^ (count - 1 + exponent.toNat) :=
              Nat.pow_le_pow_right (by decide) (by omega)
          _ = 10 ^ (count - 1) * 10 ^ exponent.toNat := Nat.pow_add _ _ _
          _ ≤ value * 10 ^ exponent.toNat := Nat.mul_le_mul_right _ hlow
      exact le_log2_of_ten_pow_le (Nat.le_of_mul_le_mul_right hscaled hpow)
    · -- An integer that is not zero is not below one.
      have hone : 10 ^ (-exponent).toNat < 10 ^ (count + exponent.toNat) := by
        calc 10 ^ (-exponent).toNat ≤ m * 10 ^ (-exponent).toNat := Nat.le_mul_of_pos_left _ hm
          _ = value * 10 ^ exponent.toNat := h.symm
          _ < 10 ^ count * 10 ^ exponent.toNat :=
            Nat.mul_lt_mul_of_pos_right hhigh (Nat.pow_pos (by decide))
          _ = 10 ^ (count + exponent.toNat) := (Nat.pow_add _ _ _).symm
      have hsmall : ¬ exponent + (count : Int) < -400 := by
        have hexponents := (Nat.pow_lt_pow_iff_right (by decide)).1 hone
        omega
      rw [if_neg hlarge, if_neg hsmall]
      by_cases hexponent : 0 ≤ exponent
      · rw [show (-exponent).toNat = 0 by omega, Nat.pow_zero] at h
        rw [if_pos hexponent]
        show (∃ x, nearest negative (value * 10 ^ exponent.toNat) 1 = .ok x ∧ _) ∨
          nearest negative (value * 10 ^ exponent.toNat) 1 = _ ∧ _
        rw [h]
        exact nearest_mul negative m Nat.one_pos
      · rw [show exponent.toNat = 0 by omega, Nat.pow_zero, Nat.mul_one] at h
        rw [if_neg hexponent, h]
        exact nearest_mul negative m hpow

/-- A numeral of an integer is read as the nearest double, unless it is out of range. -/
theorem read_of_denotes {d : Spelling} {n : Int} (h : d.Denotes n) :
    (∃ x, read d.text = .ok x ∧ IsNearest x n) ∨
      read d.text = .error .outOfRange ∧ 1023 ≤ n.natAbs.log2 := by
  obtain ⟨m, rfl, hmul⟩ := h
  have habs : (signed d.negative m).natAbs = m := by
    unfold signed
    split <;> omega
  rw [read_text, habs]
  exact nearestDecimal_of_mul d.negative hmul

end Numeral

end ShaderScript
