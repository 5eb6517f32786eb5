import ShaderScript.Number.Numeral
import ShaderScript.Toml.Basic

/-!
# Numbers and dates in TOML

A number may have single underscores between its digits and no leading zeros.  Dates and times are
recognized, not kept.
-/

namespace ShaderScript.Toml

/-- Every underscore follows a digit, and a digit comes last. -/
def underscoresFit : List Char → Bool → Bool
  | [], afterDigit => afterDigit
  | '_' :: rest, afterDigit => afterDigit && underscoresFit rest false
  | c :: rest, _ => underscoresFit rest (Numeral.digitValue? 16 c).isSome

/-- Whether a number starts with a zero that it could do without. -/
def hasLeadingZero : List Char → Bool
  | '0' :: c :: _ => !(c = 'b' || c = 'o' || c = 'x')
  | '-' :: '0' :: _ :: _ => true
  | '+' :: '0' :: _ :: _ => true
  | _ => false

/-- The number that digits of a base denote. -/
def digitsValue (base : Nat) (cs : List Char) : Nat :=
  cs.foldl (fun n c => n * base + (Numeral.digitValue? base c).getD 0) 0

/-- The integer that a numeral without underscores denotes. -/
def integerValue : List Char → Int
  | '0' :: 'x' :: ds => digitsValue 16 ds
  | '0' :: 'o' :: ds => digitsValue 8 ds
  | '0' :: 'b' :: ds => digitsValue 2 ds
  | '-' :: ds => -(digitsValue 10 ds : Int)
  | '+' :: ds => digitsValue 10 ds
  | ds => digitsValue 10 ds

/-- An integer; it has to fit into 64 bits. -/
def integer? (cs : List Char) : Option Value :=
  if underscoresFit cs false && !hasLeadingZero cs then
    let i := integerValue (cs.filter (· ≠ '_'))
    if fitsInt64 i then some (.integer i) else none
  else none

/-- Whether a character divides the parts of a float. -/
def dividesFloat (c : Char) : Bool := c = '.' || c = 'e' || c = 'E'

/-- The parts of a float between points and exponent marks, without empty ones. -/
def floatParts : List Char → List Char → List (List Char)
  | [], part => if part.isEmpty then [] else [part.reverse]
  | c :: rest, part =>
    if dividesFloat c then
      (if part.isEmpty then [] else [part.reverse]) ++ floatParts rest []
    else floatParts rest (c :: part)

/-- A digit follows every point. -/
def pointsFit : List Char → Bool
  | [] => true
  | '.' :: c :: rest => c.isDigit && pointsFit (c :: rest)
  | ['.'] => false
  | _ :: rest => pointsFit rest

def float? (cs : List Char) : Option Value :=
  let parts := floatParts cs []
  if parts.all (underscoresFit · false) && !hasLeadingZero (parts.headD []) && pointsFit cs then
    match Numeral.read (String.ofList (cs.filter (· ≠ '_'))) with
    | .ok x => some (.float x)
    | .error _ => none
  else none

/-- A float by name; the sign of not-a-number is lost. -/
def namedFloat? : List Char → Option (Value × List Char)
  | 'i' :: 'n' :: 'f' :: rest => some (.float (Numeral.infinity false), rest)
  | '+' :: 'i' :: 'n' :: 'f' :: rest => some (.float (Numeral.infinity false), rest)
  | '-' :: 'i' :: 'n' :: 'f' :: rest => some (.float (Numeral.infinity true), rest)
  | 'n' :: 'a' :: 'n' :: rest => some (.float (Float.ofBits 0x7FF8000000000001), rest)
  | '+' :: 'n' :: 'a' :: 'n' :: rest => some (.float (Float.ofBits 0x7FF8000000000001), rest)
  | '-' :: 'n' :: 'a' :: 'n' :: rest => some (.float (Float.ofBits 0x7FF8000000000001), rest)
  | _ => none

/-! ## Dates and times -/

/-- The value of two digits, and the rest. -/
def twoDigits? : List Char → Option (Nat × List Char)
  | a :: b :: rest => if a.isDigit && b.isDigit then some (digitsValue 10 [a, b], rest) else none
  | _ => none

/-- The rest after a fixed character. -/
def after? (c : Char) : List Char → Option (List Char)
  | d :: rest => if c = d then some rest else none
  | [] => none

/-- The days of a month. -/
def daysIn (year month : Nat) : Nat :=
  if month = 2 then
    if year % 4 = 0 ∧ (year % 100 ≠ 0 ∨ year % 400 = 0) then 29 else 28
  else if month = 4 ∨ month = 6 ∨ month = 9 ∨ month = 11 then 30
  else 31

/-- The rest after a date. -/
def date? (cs : List Char) : Option (List Char) := do
  let (century, cs) ← twoDigits? cs
  let (rest, cs) ← twoDigits? cs
  let (month, cs) ← twoDigits? (← after? '-' cs)
  let (day, cs) ← twoDigits? (← after? '-' cs)
  let year := 100 * century + rest
  if 1 ≤ month ∧ month ≤ 12 ∧ 1 ≤ day ∧ day ≤ daysIn year month then some cs else none

/-- The hour, which may have one digit. -/
def hour? (cs : List Char) : Option (Nat × List Char) :=
  match twoDigits? cs with
  | some found => some found
  | none =>
    match cs with
    | c :: rest => if c.isDigit then some (digitsValue 10 [c], rest) else none
    | [] => none

/-- The rest after a fraction of a second, if there is one. -/
def fractionOfSecond : List Char → List Char
  | '.' :: c :: rest => if c.isDigit then rest.dropWhile Char.isDigit else '.' :: c :: rest
  | cs => cs

/-- The rest after a time of day. -/
def time? (cs : List Char) : Option (List Char) := do
  let (hour, cs) ← hour? cs
  let (minute, cs) ← twoDigits? (← after? ':' cs)
  let (second, cs) ← twoDigits? (← after? ':' cs)
  if hour < 24 ∧ minute < 60 ∧ second < 60 then some (fractionOfSecond cs) else none

/-- Whether a text is empty, or an offset from universal time. -/
def isOffset : List Char → Bool
  | [] => true
  | ['Z'] => true
  | sign :: cs =>
    match twoDigits? cs with
    | some (hour, ':' :: cs) =>
      match twoDigits? cs with
      | some (minute, []) => (sign = '+' || sign = '-') && hour ≤ 24 && minute ≤ 60
      | _ => false
    | _ => false

/-- A date, a time, or a date and a time with or without an offset; a blank or a small `t` may stand
for the `T` between them. -/
def isInstant (cs : List Char) : Bool :=
  let cs := cs.map fun c => if c = 'z' then 'Z' else if c = 't' ∨ c = ' ' then 'T' else c
  match date? cs with
  | some [] => true
  | some ('T' :: rest) =>
    match time? rest with
    | some rest => isOffset rest
    | none => false
  | some _ => false
  | none => time? cs = some []

/-! ## Tokens -/

/-- The characters of dates and times. -/
def isInstantChar (c : Char) : Bool := c.isDigit || "-:Tt .Zz+".toList.contains c

/-- The characters of floats after the first digits. -/
def isFloatChar (c : Char) : Bool := c.isDigit || "_.-+eE".toList.contains c

/-- A text without blanks at its end. -/
def dropBlankEnd (cs : List Char) : List Char := (cs.reverse.dropWhile (· = ' ')).reverse

/-- An integer or a float: digits and underscores, and what follows a point or an exponent mark. -/
def decimal? (cs : List Char) : Option (Value × List Char) :=
  let sign := cs.takeWhile fun c => c = '+' || c = '-'
  let rest := cs.drop sign.length
  let isPart (c : Char) : Bool := c.isDigit || c = '_'
  let whole := rest.takeWhile isPart
  let rest := rest.dropWhile isPart
  if 1 < sign.length || !(whole.headD '_').isDigit then none
  else if dividesFloat (rest.headD ' ') then
    (float? (sign ++ whole ++ rest.takeWhile isFloatChar)).map (·, rest.dropWhile isFloatChar)
  else (integer? (sign ++ whole)).map (·, rest)

/-- An integer after `0x`, `0o` or `0b`. -/
def based? (base : Nat) (mark : Char) (cs : List Char) : Option (Value × List Char) :=
  let isPart (c : Char) : Bool := (Numeral.digitValue? base c).isSome || c = '_'
  match cs with
  | c :: _ =>
    if c = '_' then none
    else (integer? ('0' :: mark :: cs.takeWhile isPart)).map (·, cs.dropWhile isPart)
  | [] => none

/-- A number or a date. -/
def numberOrInstant? (cs : List Char) : Option (Value × List Char) :=
  match cs with
  | '0' :: 'x' :: rest => based? 16 'x' rest
  | '0' :: 'o' :: rest => based? 8 'o' rest
  | '0' :: 'b' :: rest => based? 2 'b' rest
  | _ =>
    let digits := cs.takeWhile Char.isDigit
    let next := (cs.drop digits.length).headD ' '
    if (next = '-' || next = ':') && !digits.isEmpty && digits ≠ ['0'] then
      if isInstant (dropBlankEnd (cs.takeWhile isInstantChar)) then
        some (.instant, cs.dropWhile isInstantChar)
      else none
    else decimal? cs

end ShaderScript.Toml
