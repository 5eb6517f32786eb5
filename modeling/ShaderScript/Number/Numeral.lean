import ShaderScript.Number.Binary64

/-!
# Reading numbers

The number syntax of descriptors whose numbers come as text: decimal and hexadecimal floating
point, `inf`, `infinity` and `nan` in any case.  A decimal is rounded to the nearest double; one
past the largest is out of range.
-/

namespace ShaderScript

/-- Why a text is not a number. -/
inductive NumeralError
  | malformed
  | outOfRange
  deriving Repr, DecidableEq

namespace Numeral

/-- The value of a digit in a base up to 16. -/
def digitValue? (base : Nat) (c : Char) : Option Nat :=
  let value :=
    if '0' ≤ c ∧ c ≤ '9' then some (c.toNat - '0'.toNat)
    else if 'a' ≤ c ∧ c ≤ 'f' then some (c.toNat - 'a'.toNat + 10)
    else if 'A' ≤ c ∧ c ≤ 'F' then some (c.toNat - 'A'.toNat + 10)
    else none
  value.filter (· < base)

/-- The digits read so far: their value, how many follow the point, and what was met. -/
structure Mantissa where
  value : Nat := 0
  places : Nat := 0
  sawDigit : Bool := false
  sawPoint : Bool := false

/-- Reads digits with at most one point.  Underscores are passed over here and checked by
`underscoresOk`. -/
def readMantissa (base : Nat) : List Char → Mantissa → Mantissa × List Char
  | [], m => (m, [])
  | c :: rest, m =>
    if c = '_' then readMantissa base rest m
    else if c = '.' then
      if m.sawPoint then (m, c :: rest)
      else readMantissa base rest { m with sawPoint := true }
    else
      match digitValue? base c with
      | some d =>
        readMantissa base rest
          { m with
            value := m.value * base + d
            places := if m.sawPoint then m.places + 1 else m.places
            sawDigit := true }
      | none => (m, c :: rest)

/-- From here on the digits of an exponent do not count: the number is far out of range or zero. -/
def exponentCap : Nat := 10000

/-- Reads the decimal digits of an exponent, passing over underscores. -/
def readExponentDigits : List Char → Nat → Nat × List Char
  | [], e => (e, [])
  | c :: rest, e =>
    if c = '_' then readExponentDigits rest e
    else
      match digitValue? 10 c with
      | some d => readExponentDigits rest (if e < exponentCap then e * 10 + d else e)
      | none => (e, c :: rest)

/-- Reads an exponent without its sign; it starts with a digit. -/
def readExponentSize : List Char → Option (Nat × List Char)
  | c :: rest => if (digitValue? 10 c).isSome then some (readExponentDigits (c :: rest) 0) else none
  | [] => none

/-- Reads an exponent part after its mark: an optional sign and at least one digit. -/
def readExponent : List Char → Option (Int × List Char)
  | '-' :: rest => (readExponentSize rest).map fun (e, rest) => (-(e : Int), rest)
  | '+' :: rest => (readExponentSize rest).map fun (e, rest) => ((e : Int), rest)
  | rest => (readExponentSize rest).map fun (e, rest) => ((e : Int), rest)

/-- What stands to the left of a character when underscores are checked. -/
inductive Before
  | start
  | digit
  | underscore
  | other
  deriving DecidableEq

/-- Underscores stand only between digits; the base mark counts as a digit. -/
def underscoresOk (hex : Bool) : List Char → Before → Bool
  | [], before => before ≠ .underscore
  | c :: rest, before =>
    if (digitValue? (if hex then 16 else 10) c).isSome then underscoresOk hex rest .digit
    else if c = '_' then before = .digit && underscoresOk hex rest .underscore
    else before ≠ .underscore && underscoresOk hex rest .other

/-- `num / den` as a double. -/
def nearest (negative : Bool) (num den : Nat) : Except NumeralError Float :=
  match Binary64.round negative num den with
  | some bits => .ok (Float.ofBits bits)
  | none => .error .outOfRange

/-- The double nearest to `value · 10 ^ exponent`.  The tests on the size keep the power small. -/
def nearestDecimal (negative : Bool) (value : Nat) (exponent : Int) : Except NumeralError Float :=
  if value = 0 then nearest negative 0 1
  else
    let leading : Int := exponent + (Nat.toDigits 10 value).length
    if 400 < leading then .error .outOfRange
    else if leading < -400 then nearest negative 0 1
    else if 0 ≤ exponent then nearest negative (value * Nat.pow 10 exponent.toNat) 1
    else nearest negative value (Nat.pow 10 (-exponent).toNat)

/-- The double nearest to `value · 2 ^ exponent`. -/
def nearestBinary (negative : Bool) (value : Nat) (exponent : Int) : Except NumeralError Float :=
  if value = 0 then nearest negative 0 1
  else
    let leading : Int := exponent + Nat.log2 value
    if 1100 < leading then .error .outOfRange
    else if leading < -1200 then nearest negative 0 1
    else if 0 ≤ exponent then nearest negative (value * Nat.pow 2 exponent.toNat) 1
    else nearest negative value (Nat.pow 2 (-exponent).toNat)

/-- A decimal number without its sign. -/
def readDecimal (negative : Bool) (cs : List Char) : Except NumeralError Float :=
  let (m, rest) := readMantissa 10 cs {}
  if !m.sawDigit || !underscoresOk false cs .start then .error .malformed
  else
    match rest with
    | [] => nearestDecimal negative m.value (-(m.places : Int))
    | mark :: rest =>
      if mark = 'e' ∨ mark = 'E' then
        match readExponent rest with
        | some (e, []) => nearestDecimal negative m.value (e - m.places)
        | _ => .error .malformed
      else .error .malformed

/-- A hexadecimal number after its `0x`; the binary exponent is required. -/
def readHex (negative : Bool) (cs : List Char) : Except NumeralError Float :=
  let (m, rest) := readMantissa 16 cs {}
  if !m.sawDigit || !underscoresOk true cs .digit then .error .malformed
  else
    match rest with
    | mark :: rest =>
      if mark = 'p' ∨ mark = 'P' then
        match readExponent rest with
        | some (e, []) => nearestBinary negative m.value (e - 4 * m.places)
        | _ => .error .malformed
      else .error .malformed
    | [] => .error .malformed

/-- The ASCII letters of a text in lower case. -/
def lower (cs : List Char) : List Char := cs.map Char.toLower

/-- An infinity by name. -/
def isInfinityName (cs : List Char) : Bool :=
  lower cs = "inf".toList || lower cs = "infinity".toList

/-- A number after its sign. -/
def readUnsigned (negative : Bool) (cs : List Char) : Except NumeralError Float :=
  match cs with
  | '0' :: 'x' :: rest => readHex negative rest
  | '0' :: 'X' :: rest => readHex negative rest
  | _ => readDecimal negative cs

/-- The infinity of a sign. -/
def infinity (negative : Bool) : Float :=
  Float.ofBits (if negative then 0xFFF0000000000000 else 0x7FF0000000000000)

def read (text : String) : Except NumeralError Float :=
  match text.toList with
  | '-' :: cs => if isInfinityName cs then .ok (infinity true) else readUnsigned true cs
  | '+' :: cs => if isInfinityName cs then .ok (infinity false) else readUnsigned false cs
  | cs =>
    if isInfinityName cs then .ok (infinity false)
    else if lower cs = "nan".toList then .ok (Float.ofBits 0x7FF8000000000001)
    else readUnsigned false cs

end Numeral

end ShaderScript
