import ShaderScript.Text.CodePoints

/-!
# Letters in names

The characters that may continue a name in the two script languages: both take ASCII letters,
digits and the underscore, and differ past ASCII.
-/

namespace ShaderScript.Text

def letterRanges : CodePoints := .ofLines [
    "AA B 5 6-16 2-1E 2-1C9 5-B F-4 8 2 82-4 2-1 3-3 2 7 2-2 2 2-13 2-52 2-8A 9-A5 2-25 3 7-28",
    "48-1A 5-3 2E-2A 24-1 2-62 2 10-1 8-1 B-2 3 11 2-1D 1E-58 C 19-20 A-1 5 6-15 5 A 4 18-18 8-A",
    "6-17 2-5 12-29 3B-35 4 13 8-9 10-F 5-7 3-1 3-15 2-6 2 4-3 4 11 E-1 2-2 F-1 B 9-5 5-1 3-15 2-6",
    "2-1 2-1 2-1 20-3 2 14-2 11-8 2-2 2-15 2-6 2-1 2-4 4 13 10-1 18 C-7 3-1 3-15 2-6 2-1 2-4 4 1F-1",
    "2-2 10 12 2-5 4-2 2-3 4-1 2 2-1 4-1 4-2 4-B 17 35-7 2-2 2-16 2-F 4 1B-2 3 3-1 1F 5-7 2-2 2-16",
    "2-9 2-4 4 20-1 2-1 10-1 12-8 2-2 2-28 3 11 6-2 9-2 19-5 6-11 4-17 2-8 2 3-6 3B-2F 2-1 D-6 3B-1",
    "2 2-4 2-17 2 2-9 2-1 A 3-4 2 16-3 21 40-7 2-23 1C-4 74-2A 15 11-5 5-3 4 4-1 8-2 5-C D 12-25 2",
    "6 3-2A 2-14C 2-3 3-6 2 2-3 3-28 2-3 3-20 2-3 3-6 2 2-3 3-E 2-38 2-3 3-42 26-F 11-55 3-5 4-26B",
    "3-10 2-19 6-4A 7-7 8-11 E-12 F-11 F-C 2-2 10-33 24 5 44-58 8-4 3-21 2 6-45 B-1E 32-1D 3-4 C-2B",
    "5-19 37-16 A-34 53 5E-2E 12-7 37-1D E-1 B-2B 1B-23 2A-2 B-23 3-8 8-2A 3-2 2A-3 2-5 2-1 4 6-BF",
    "41-115 3-5 3-25 3-5 3-7 2 2 2 2-1E 3-34 2-6 2 4-2 2-6 4-3 3-5 5-C 6-2 2-6 75 E 11-C 66 5 3-9 2",
    "4-4 7 2 2 2-3 2-A 3-3 6-4 5 35-1 A7C-E4 7-3 4-1 D-25 2 6 3-37 8 11-16 A-6 2-6 2-6 2-6 2-6 2-6",
    "2-6 2-6 51 1D6-1 2B-4 6-1 5-55 7-2 2-59 2-3 6-2A 2-5D 12-1F 31-F 201-19BF 41-568C 44-2D 3-10C",
    "4-F B-1 15-2E 11-1E 3-45 32-8 3-66 3-3F 6-1 2 2-4 19-F 2-2 2-3 2-16 1E-33 F-31 3F-5 4 2-1 C-1B",
    "B-16 1A-1C 8-2E 1D 11-4 2-9 B-4 2-28 18-2 2-7 15-16 4 4-31 2 4-1 3-4 3 2 19-2 3-A 8-2 D-5 3-5",
    "3-5 A-6 2-6 2-2A 2-D 7-72 1E-2BA3 D-16 5-30 2105-16D 3-69 27-6 D-4 6 2-9 2-C 2-4 2 2-1 2-1",
    "2-6B 22-16A 13-3F 3-35 29-B 75-4 2-86 25-19 7-19 C-58 4-5 3-5 3-5 3-2 24-B 2-19 2-12 2-1 2-E",
    "3-D 23-7A 186-1C 4-30 30-1F E-13 2-7 7-25 B-1D 3-23 5-7 31-9D 13-23 5-23 5-27 9-33 D-A 2-E 2-6",
    "2-1 2-A 2-E 2-6 2-1 44-136 A-15 B-7 19-5 2-29 2-8 46-5 3 2-2B 2-1 4 3-16 B-16 A-1E 42-12 2-1",
    "B-15 B-19 47-37 7-1 41 10-3 2-2 2-1C 2B-1C 4-1C 24-7 2-1B 1C-35 B-15 B-12 E-11 6F-48 38-32",
    "E-32 E-23 15D-29 7-1 4F-1C B 9-15 2B-11 2F-14 1C-16 D-34 3A-1 3 E-2C 21-18 1B-23 1E 3 9-22 4",
    "D-2F F-3 16 2 24-11 2-18 14-1 40-6 2 2-3 2-E 2-9 8-2E 27-7 3-1 3-15 2-6 2-1 2-4 4 13 D-4 9F-34",
    "13-3 15-2 1F-2F 15-1 2 B9-2E 2A-3 25-2F 15 3C-2A E 48-1A 26-6 BA-2B 75-3F 20-7 3 3-7 2-1 2-17",
    "10 2 5F-7 3-26 11 2 1D B-27 8 16 C-2D 14 13-48 108-8 2-24 12 32-1D 71-6 2-1 2-25 16 1A-5 2-1",
    "2-1F F 148-12 10 2-C 2-21 7D 50-399 E7-C3 A4D-60 10-42F 12-5 FBA-246 21BA-238 8-1E 12-4E 12-1D",
    "13-2F 11-3 20-14 6-12 2B1-3F 81-4A 6 43-C 41-1 2 1D-17F7 9-4D5 2B-8 22E8-3 2-6 2-1 2-122 10",
    "1E-2 3 F-3 9-18B 905-6A 6-C 4-8 8-9 1767-54 2-46 2-1 3 3-1 3-3 2-B 2 2-6 2-40 2-3 3-7 2-6 2-1B",
    "2-3 2-4 2 4-6 2-153 3-18 2-18 2-1E 2-18 2-1E 2-18 2-1E 2-18 2-1E 2-18 2-7 735-1E 7-5 106-3D",
    "93-2C B-6 11 142-1D 13-2B 1E5-1B 2F5-6 2-3 2-1 2-E 2-C4 3C-43 8 4B5-3 2-1A 2-1 2 3 2-9 2-3 2 2",
    "7 5 2 2 2-2 2-1 2 3 2 2 2 2 2-1 2 3-3 2-6 2-3 2-3 2 2-9 2-10 6-2 2-4 2-10 1145-A6DF 21-1039",
    "7-DD 3-1681 F-1D30 C20-21D 5E3-134A 6-105F"]

/-- The marks that attach to the character before them and may be in a name. -/
def markRanges : CodePoints := .ofLines [
    "300-6F 114-4 10A-2C 2 2-1 2-1 2 49-A 31-14 11 66-6 3-5 3-1 2-3 24 1F-1A 5C-A 3B-8 A 19-3 2-8",
    "2-2 2-4 2C-2 3D-7 2B-17 2-1F 38 2 5-7 5 4-6 B-1 1E 3B 5-3 9 15-1 1B 3-1 3A 5-1 5-1 3-2 4 1F-1",
    "4 C-1 3A 5-4 2-1 5 15-1 17-5 2 3B 3 2-3 9 8-1 C-1 1F 3E D 33 4 38 2-2 6-2 2-3 8-1 C-1 1E 3B 3",
    "7 6-1 15-1 1D-1 3A-1 5-3 9 15-1 1E 49 8-2 2 5B 3-6 D-7 63 3-8 C-6 4A-1 1C 2 2 38-D 2-4 2-1",
    "6-A 2-23 A 67-3 2-5 2-1 3-1 1A-1 5-2 11-3 E 3-1 7 10 2C0-2 3B3-2 1E-1 1F-1 1F-1 41-1 2-6 9",
    "3-A A 2E-2 2 76-1 23 77-2 5-1 A 7-2 DC-1 3 3B 2-6 2 2 3-7 7-9 3 31-D 2-F 32-3 31 2-4 2 6 29-8",
    "D-1 21-3 3-1 2-2 39 2-1 4 2-2 3B-7 3-1 99-2 2-C 2-6 5 7 4-1 C7-3F 20D-1 C3-C 5 4-B BFF-2 8E",
    "61-1F 22B-3 6C-1 75D5 5-9 21-1 51-1 111 4 5 1A-1 6 98-1 1B-11 E 27-7 1A-A 2F-2 31 3-3 3-1 28",
    "44-5 3-1 3-1 D 9 30 34 2-2 3-1 6-1 2 2B-1 9 EF 3 5 4F31 2E2-F 11-F 3CE E3 96-4 687-2 2-1 6-3",
    "29-2 5 A6-1 23E-3 184-1 51-2 47-A 32-3 7C 37-E 2A 3-1 B-2 32-3 3-1 8 3E-2 25-4 2-7 3F D-1",
    "35-8 B-3 3 60-2 3 2-1 7 3 9E 4-7 16-1 3A-1 4 26-6 4-4 C4-7 3-2 2 18 55-5 2 5-1 2-1 EF-3 7-1",
    "2-1 1C-1 56-7 3 2-1 6B 2 3-5 2 66-2 3-3 2-4 104-8 2-1 101-1 2 5 91-3 3-1 5 21-9 29-5 3-3 9",
    "A-5 3-2 2F-C 2-1 197-6 2-5 2 53-15 3-6 2-1 2-1 7B-5 4 2-1 2-6 2 49-1 4 2 15C-1 C-1 35-4 6 2",
    "14FE 7-E 369B-4 3C-6 419 40-3 52 4CB9-1 1262-2D 3-16 221-2 12-7 3-6 1F-3 95-2 7BC-36 5-31 9 F",
    "17-4 2-E 551-6 2-10 3-6 2-1 2-4 65 A1-6 178 3E-3 1FD-3 3E1-6 6E-6 C17B6-EF"]

/-- The digits and other characters past ASCII that may be in a name, together with letters and
marks that stand between them. -/
def continuingRanges : CodePoints := .ofLines [
    "B7 2D0 2D9-9 87-9 C7-9 13A-4C 17-9 13-1 3B-2 7-1 3-1 B F-9 14 3B-2 26-9 14 3B-2 9 2-1 1A-9",
    "13-1 3B-2 7-1 3-1 B F-9 4F-4 4-2 2-2 B F-9 12-2 3E-3 22-9 13-1 3B-6 3-1 2-1 A-1 10-9 4 F-1",
    "3B-2 6-2 2-2 B F-9 13-1 4C-2 7-7 7-9 3-1 5D-9 77-9 47-9 15-1 40 AC-1E D-46 2CD-8 37D-2 25 1F",
    "82-12 18-9 27-9 10A-8 5-8 E-9 81-A 3F-1 3B-2 A-11 E-9 7-9 6B-40 C-9 29-71 31-11 B-9 7-9 88-16",
    "348-1 14 C4 16 32-28 E7F 1A-E 9-2 61-1 7584-9 BD-9 134-4 59-43 D-9 27-9 49-1 30-3D 10-9 17-9",
    "36-5 19 3-9 22-2 6E-4 6 EE-7 2 4-9 523A-1 19-2 C1-9 26 201-34 1CD-9 87-4 CB-9 887-9 2C7-2",
    "64-9 13-36 38-9 33 A-9 6-1 3C-3E E-B 53-9 AB-2 E-9 9-1 3B-6 3-1 3-2 A B-1 D2-10 B-9 57-11 F-9",
    "D6-2 7-6 72-E 12-9 53-A A-9 57-6 A-9 F3-C A8-9 47-5 2-1 5-5 E-9 78-2 9-3 5 55 1E-40 198 F",
    "12-9 50-B 9C-9 31-4 5-3 A-9 14C-1 D 31-1 9-3 F-9 4A7-6E 45F2-9 57-9 87-9 3F8-36 69-1 6174-1",
    "7-5 65C-31 941-9 1A7-9 1F7-9 457-9 1297-9"]

/-- Whether a code point is in one of these runs. -/
def continues (n : Nat) : Bool := markRanges.contains n || continuingRanges.contains n

/-- ASCII letters, digits and the underscore. -/
def isPlainNameChar (c : Char) : Bool := c.isAlphanum || c = '_'

/-- Characters of a Python name. -/
def isPythonNameChar (c : Char) : Bool :=
  if c.toNat < 128 then isPlainNameChar c else letterRanges.contains c.toNat

/-- Characters of a JavaScript name.  The vertical tilde is a letter that is kept for syntax. -/
def isScriptNameChar (c : Char) : Bool :=
  if c.toNat < 128 then isPlainNameChar c || c = '$'
  else (c.toNat != 0x2E2F && letterRanges.contains c.toNat) || continues c.toNat

end ShaderScript.Text
