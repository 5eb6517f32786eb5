/-!
# Bytes and characters

Files are bytes and names are text.  `decodeLossy` reads UTF-8 and puts U+FFFD in place of every
byte that does not belong to a well-formed sequence.
-/

namespace ShaderScript.Text

/-- The character that stands for a malformed byte. -/
def replacement : Char := '�'

/-- Whether a byte continues a sequence. -/
def isContinuation (b : UInt8) : Bool := 0x80 ≤ b && b < 0xC0

/-- The low six bits of a continuation byte. -/
def continuationBits (b : UInt8) : Nat := b.toNat % 64

/-- The character at the start of a byte list, if a well-formed sequence starts there, with the
number of bytes after the first that it takes. -/
def wellFormedAt (b : UInt8) (rest : List UInt8) : Option (Char × Nat) :=
  if b < 0x80 then some (Char.ofNat b.toNat, 0)
  else if 0xC2 ≤ b ∧ b < 0xE0 then
    match rest with
    | c :: _ =>
      if isContinuation c then
        some (Char.ofNat (b.toNat % 32 * 64 + continuationBits c), 1)
      else none
    | [] => none
  else if 0xE0 ≤ b ∧ b < 0xF0 then
    match rest with
    | c :: d :: _ =>
      let n := b.toNat % 16 * 4096 + continuationBits c * 64 + continuationBits d
      if isContinuation c && isContinuation d && decide (0x800 ≤ n)
          && !decide (0xD800 ≤ n ∧ n < 0xE000) then
        some (Char.ofNat n, 2)
      else none
    | _ => none
  else if 0xF0 ≤ b ∧ b < 0xF5 then
    match rest with
    | c :: d :: e :: _ =>
      let n := b.toNat % 8 * 262144 + continuationBits c * 4096 + continuationBits d * 64
        + continuationBits e
      if isContinuation c && isContinuation d && isContinuation e && decide (0x10000 ≤ n)
          && decide (n < 0x110000) then
        some (Char.ofNat n, 3)
      else none
    | _ => none
  else none

/-- Reads UTF-8; the counter skips the bytes of the last character. -/
def decodeBytes : Nat → List UInt8 → List Char
  | _, [] => []
  | skip + 1, _ :: rest => decodeBytes skip rest
  | 0, b :: rest =>
    match wellFormedAt b rest with
    | some (c, taken) => c :: decodeBytes taken rest
    | none => replacement :: decodeBytes 0 rest

/-- The characters of a byte list. -/
def decodeLossy (bytes : List UInt8) : List Char := decodeBytes 0 bytes

def bytesOf (s : String) : List UInt8 := s.toUTF8.toList

end ShaderScript.Text
