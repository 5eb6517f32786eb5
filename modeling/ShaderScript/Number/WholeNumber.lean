import ShaderScript.Number.Numeral

/-!
# Whole numbers of 64 bits

A whole number is decimal, or in another base after `0b`, `0o`, `0x` or a plain `0` (octal).  Single
underscores may stand between digits and after the base.
-/

namespace ShaderScript

namespace WholeNumber

/-- The base of a numeral without sign, and its digits. -/
def base (cs : List Char) : Nat × List Char :=
  match cs with
  | '0' :: mark :: c :: rest =>
    if mark.toLower = 'b' then (2, c :: rest)
    else if mark.toLower = 'o' then (8, c :: rest)
    else if mark.toLower = 'x' then (16, c :: rest)
    else (8, mark :: c :: rest)
  | '0' :: rest => (8, rest)
  | _ => (10, cs)

/-- The value of digits, with underscores skipped; it has to stay below 2 ^ 64. -/
def magnitude (base : Nat) : List Char → Nat → Except NumeralError Nat
  | [], n => .ok n
  | c :: rest, n =>
    if c = '_' then magnitude base rest n
    else
      match Numeral.digitValue? base c with
      | none => .error .malformed
      | some d =>
        let n := n * base + d
        if n < wordCount then magnitude base rest n else .error .outOfRange

/-- Whether underscores stand where they may. -/
def underscoresOk (cs : List Char) : Bool :=
  match cs with
  | '0' :: mark :: rest =>
    if ['b', 'o', 'x'].contains mark.toLower then
      Numeral.underscoresOk (mark.toLower = 'x') rest .digit
    else Numeral.underscoresOk false cs .start
  | _ => Numeral.underscoresOk false cs .start

/-- Reads a whole number without sign. -/
def readUnsigned (cs : List Char) : Except NumeralError Nat := do
  let (b, digits) := base cs
  let n ← if cs.isEmpty then throw .malformed else magnitude b digits 0
  if underscoresOk cs then return n else throw .malformed

/-- Reads a whole number of 64 bits. -/
def read (text : String) : Except NumeralError Int := do
  let (negative, cs) := match text.toList with
    | '-' :: cs => (true, cs)
    | '+' :: cs => (false, cs)
    | cs => (false, cs)
  let n ← readUnsigned cs
  let i : Int := if negative then -n else n
  if fitsInt64 i then return i else throw .outOfRange

end WholeNumber

end ShaderScript
