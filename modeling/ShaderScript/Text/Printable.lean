import ShaderScript.Text.Letter

/-!
# Printable characters

Letters, marks, numbers, punctuation and symbols of Unicode 15, and the blank.  Quoted text keeps
these as they are and escapes the rest.
-/

namespace ShaderScript.Text

/-- The runs of printable characters that are not only characters of names. -/
def printableRanges : CodePoints := .ofLines [
    "A1-B 2-2C7 9 6-1 71-93 D1-30 3-2 2F-8 2D-1 12-15 2-B7 A-2F E9-3 5-1 31-E 20 2A DC-C 82-B 79",
    "7A-1 7F-7 79-A 7D-D CB 9-6 12-9 7B 4B-1C A6-3C 48 39-E 2-C 70-55 5C 265-1C 14-9 67-26E 2D-1",
    "4F-2 48-1 9E-7 15-9 7-A 136 4-1 99-21 1F-1 81-D 11 9C-24 7E-3 3C-4 3F-1 41-7 C 2EA-4 C-2 E-12",
    "E-1 12-17 9-2E 12 4-1A 12-20 1D-7 1C-8B 5-296 1A-A 16-713 3-1F 2-153 F-6 71 90-5D 23-19 2-58",
    "D-D5 1B-B 6-3E 61-5B 95-53 1D-1E 2-1BDF 5691-36 38-111 61-87 9-8A 9E-3 5-9 3B-3 57-1 29-37 30",
    "62-C 11-1 7D-1D 65-13 6A-10 80 4F3E 89-10 17C-11 80 2D-1D 17-22 2-12 2-3 96-64 7B-6 2-6 E-1",
    "103-2 5-2C 4-57 2-C 4 30-2C E5-1A 25-3 7C 31 19F 2E8-28 28-8 4C-20 4 20 7D-13 3-2D 41-8 8-8",
    "25-22 29 23-B 43-6 19-7 19-7 1A-3 D-6 14B-5 161-1E 2F 70-9 2B-8 2D-3 3C-6 7C-6 5-13 56-1 2-3",
    "7F-3 31-1 50-1A 2-13 44-5 6C 1A2-10 2 69 FB-16 6A-2 1D-C 4D 81-5 FC AF-8 52-2 9C 5D-7 54-8",
    "5E-9 138-4 15-12 4-1 286-1 4B-C 71-31 E 471-4 B7D-1 3A7C-1 86 42-E 16-6 31F-1A 148 4CBA-3",
    "12B1-73 3D-F5 B-26 3-43 17-67 16-45 7B-13 D-13 D-56 A-18 349-102 3D-28B 6C4 1B0 5C8-8 8F-1",
    "312-43 4D-3C 1B3-1 10F-2B 5-63 D-E 3-E 2-E 2-24 B-AD 39-1C E-2B 5-8 8-1 F-5 9B-3D7 5-10 4-C",
    "4-76 5-5E 7-B 5 10-B 5-37 9-9 7-27 9-1D 3-1 4F-153 D-D 3-C 4-8 8-2D 2-6 9-D 5-8 8-8 8-92 2-36"]

/-- Whether quoted text shows a character as it is. -/
def isPrintable (c : Char) : Bool :=
  if c.toNat < 127 then decide (32 ≤ c.toNat)
  else printableRanges.contains c.toNat || letterRanges.contains c.toNat ||
    -- The joiners may be in a name but show nothing.
    (c.toNat != 0x200C && c.toNat != 0x200D && continues c.toNat)

end ShaderScript.Text
