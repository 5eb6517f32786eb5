import ShaderScript.Text.Letter

/-!
# Terminal cells

How many cells of a terminal line a text takes: wide characters take two, marks and format
characters none, all others one.
-/

namespace ShaderScript.Text

def wideRanges : CodePoints := .ofLines [
    "1100-5F 11BB-1 E-1 BF-3 4 3 20A-1 16-1 33-B 2C 14 E 9-1 12-1 6-1 9 6 16 8-1 2 5 3 8 5-1 1D 24",
    "2 5-2 2 3E-2 19 F 35C-1 34 5 32B-19 2-58 D-D5 1B-B 5-3E 3-55 3-66 6-2A 2-5D 2-53 D-2E 2-27",
    "9-1B6F 41-568C 4-36 49A-1C 284-2BA3 215D-1FF 311-9 17-22 2-12 2-3 96-5F 80-6 6FFA-4 C-1 F-17F7",
    "9-4D5 2B-8 22E8-3 2-6 2-1 2-122 10 1E-2 3 F-3 9-18B 3D09 CB BF 3-9 66-2 E-2B 5-8 8-1 F-5 9B-20",
    "D-8 2-45 2-15 D-2A 5-4 D-10 4 4-46 2 2-BA 3-3E E-3 2-17 13 1B-1 E 57-54 31-45 7 4-2 3-2 5-3",
    "C-1 8-8 E4-B 5 11C-2E 2-9 2-B8 71-C 4-8 8-2D 2-6 9-D 5-8 8-8 508-FFFD 3-FFFD"]

/-- What attaches to the character before it, besides the marks of names. -/
def attachedRanges : CodePoints := .ofLines [
    "488-1 177-5 17 C1 32 181-1 51 87E-9F 60F 2B0 54D 3-1 1B-4 32-4 2-9 6E-3 2-2 858C-2 588D FA-2",
    "10C2 10 2363-F 8861-3 14D0-7 C2E87 1F-5F"]

def charCells (c : Char) : Nat :=
  let n := c.toNat
  if n < 32 ∨ (127 ≤ n ∧ n < 160) ∨ n = 173 then 0
  else if n < 768 then 1
  else if markRanges.contains n || attachedRanges.contains n then 0
  else if wideRanges.contains n then 2
  else 1

def cells (s : String) : Nat := s.toList.foldl (fun total c => total + charCells c) 0

/-- The longest start of a text that fits into `width` cells. -/
def takeCells : Nat → List Char → List Char
  | _, [] => []
  | width, c :: rest =>
    if charCells c ≤ width then c :: takeCells (width - charCells c) rest else []

/-- A text cut to `width` cells, the last of them being `tail` when something was cut off. -/
def truncateCells (s : String) (width : Nat) (tail : String) : String :=
  if cells s ≤ width then s
  else String.ofList (takeCells (width - cells tail) s.toList) ++ tail

end ShaderScript.Text
