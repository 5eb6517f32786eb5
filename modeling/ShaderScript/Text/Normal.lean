import ShaderScript.Text.CodePoints
import ShaderScript.Text.Normal.Data

/-!
# Composed normal form

Names that differ only in how accents are spelled are the same name.  `compose` decomposes a text
canonically, sorts marks by combining class, and composes again.
-/

namespace ShaderScript.Text.Normal

/-- The characters of a text, two by two. -/
def pairsOf : List Char → List (List Nat)
  | a :: b :: rest => [a.toNat, b.toNat] :: pairsOf rest
  | _ => []

/-- What the code points of an entry decompose to. -/
def partsOf : List Char → List (List Nat)
  | '=' :: cs => pairsOf cs
  | cs => cs.tail.map fun c => [c.toNat]

/-- The decompositions that entries tell of, from the code point `next` on. -/
def decompositionsFrom : Nat → List (List Char) → List (Nat × Nat × List Nat)
  | _, [] => []
  | next, entry :: rest =>
    let (distance, told) := entry.span fun c => c ≠ '=' ∧ c ≠ ':'
    let first := next + hexNumber distance
    (partsOf told).mapIdx (fun i parts => (first + i, first + i, parts)) ++
      decompositionsFrom (first + (partsOf told).length) rest

/-- One step of canonical decomposition. -/
def decompositions : RangeTable (List Nat) :=
  (decompositionsFrom 0 (entriesOf decompositionLines)).toArray

/-- Combining classes other than zero, which are decimal numbers. -/
def classes : RangeTable Nat :=
  .ofLines (fun value => value.foldl (fun n c => 10 * n + hexDigit c) 0) classLines

/-- The combining class; zero for a character that starts a new group. -/
def combiningClass (n : Nat) : Nat :=
  if n < 0x300 then 0 else (classes.find? n).getD 0

/-- Characters that decompose and are not composed again. -/
def excluded : CodePoints := .ofLines excludedLines

/-- The place of a pair of code points in the order of pairs. -/
def pairKey (a b : Nat) : Nat := 0x110000 * a + b

/-- The pairs that compose, each with its result. -/
def compositions : RangeTable Nat :=
  let pairs := decompositions.toList.filterMap fun (n, _, parts) =>
    match parts with
    | [a, b] => if excluded.contains n then none else some (pairKey a b, pairKey a b, n)
    | _ => none
  (pairs.mergeSort fun x y => x.1 ≤ y.1).toArray

/-! ## Hangul syllables -/

/-- First syllable, leading consonant, vowel, and the place before the first final consonant. -/
def syllableBase : Nat := 0xAC00
def leadBase : Nat := 0x1100
def vowelBase : Nat := 0x1161
def tailBase : Nat := 0x11A7
def leadCount : Nat := 19
def vowelCount : Nat := 21
def tailCount : Nat := 28

/-- The jamo of a syllable. -/
def syllableParts? (n : Nat) : Option (List Nat) :=
  if syllableBase ≤ n ∧ n < syllableBase + leadCount * vowelCount * tailCount then
    let index := n - syllableBase
    let lead := leadBase + index / (vowelCount * tailCount)
    let vowel := vowelBase + index % (vowelCount * tailCount) / tailCount
    let tail := tailBase + index % tailCount
    some (if tail = tailBase then [lead, vowel] else [lead, vowel, tail])
  else none

/-- The syllable of two jamo, or of a syllable without final consonant and one. -/
def composeSyllable? (a b : Nat) : Option Nat :=
  if leadBase ≤ a ∧ a < leadBase + leadCount ∧ vowelBase ≤ b ∧ b < vowelBase + vowelCount then
    some (syllableBase + ((a - leadBase) * vowelCount + (b - vowelBase)) * tailCount)
  else if syllableBase ≤ a ∧ a < syllableBase + leadCount * vowelCount * tailCount
      ∧ (a - syllableBase) % tailCount = 0 ∧ tailBase < b ∧ b < tailBase + tailCount then
    some (a + (b - tailBase))
  else none

/-! ## The three steps -/

/-- The full decomposition of a character, given what each one decomposes to in one step. -/
def decomposeWith (parts? : Nat → Option (List Nat)) : Nat → Nat → List Nat
  | 0, n => [n]
  | fuel + 1, n =>
    if n < 0xC0 then [n]
    else match syllableParts? n with
      | some parts => parts
      | none =>
        match parts? n with
        | some parts => parts.flatMap (decomposeWith parts? fuel)
        | none => [n]

/-- The full canonical decomposition of a character.  Decompositions nest at most four deep. -/
def decomposeChar (n : Nat) : List Nat := decomposeWith decompositions.find? 5 n

/-- Inserts a mark behind the marks before it of the same or a lower class. -/
def insertMark (mark : Nat × Nat) : List (Nat × Nat) → List (Nat × Nat)
  | [] => [mark]
  | m :: rest => if mark.2 < m.2 then mark :: m :: rest else m :: insertMark mark rest

/-- Sorts the marks of every group by class, keeping the order of equal ones.  `marks` are those of
the current group. -/
def sortMarks : List (Nat × Nat) → List (Nat × Nat) → List (Nat × Nat)
  | marks, [] => marks
  | marks, c :: rest =>
    if c.2 = 0 then marks ++ c :: sortMarks [] rest
    else sortMarks (insertMark c marks) rest

def composePair? (a b : Nat) : Option Nat :=
  match composeSyllable? a b with
  | some s => some s
  | none => compositions.find? (pairKey a b)

/-- Composes a group: `starter` takes every following mark that is not blocked by one of the same
or a higher class kept before it (`kept`, in reverse). -/
def composeFrom (starter : Nat) : List Nat → Option Nat → List (Nat × Nat) → List Nat
  | kept, _, [] => starter :: kept.reverse
  | kept, last, (c, k) :: rest =>
    -- `last` is the class of the character directly before, if one was kept.
    let open? := match last with
      | none => true
      | some before => before < k
    match (if open? then composePair? starter c else none) with
    | some composed => composeFrom composed kept last rest
    | none =>
      if k = 0 then starter :: kept.reverse ++ composeFrom c [] none rest
      else composeFrom starter (c :: kept) (some k) rest
  termination_by _ _ rest => rest.length

/-- Composes a decomposed, sorted text. -/
def composeAll : List (Nat × Nat) → List Nat
  | [] => []
  | (c, k) :: rest =>
    if k = 0 then composeFrom c [] none rest else c :: composeAll rest

/-- The composed normal form of any text. -/
def composeSlow (s : String) : String :=
  let points := s.toList.flatMap fun c => decomposeChar c.toNat
  let marked := points.map fun n => (n, combiningClass n)
  String.ofList ((composeAll (sortMarks [] marked)).map Char.ofNat)

end ShaderScript.Text.Normal

namespace ShaderScript.Text

/-- The composed normal form.  Below U+0300 no character combines, so such a text is its own. -/
def compose (s : String) : String :=
  if s.toList.all (fun c => c.toNat < 0x300) then s else Normal.composeSlow s

end ShaderScript.Text

namespace ShaderScript

/-- The normal form that names are brought to.  What holds for every choice of it does not depend on
the tables of a version of Unicode. -/
class NormalForm where
  /-- The form of a text, the same for all spellings of a name. -/
  normal : String → String

instance : NormalForm := ⟨Text.compose⟩

end ShaderScript
