import ShaderScript.Number.Decimal

/-!
# Number text

How a double is written.  `FloatLayout` holds the decisions of one format: which exponents are
written positionally and how wide the exponent is.  `general` is the format of values, messages and
literals; `plain` is the one of JSON documents.  `fixed` and `scientific` write a set number of
digits.
-/

namespace ShaderScript

/-- `text` filled with `fill` on the left up to `width` characters. -/
def padLeft (width : Nat) (fill : Char) (text : String) : String :=
  String.ofList (List.replicate (width - text.length) fill) ++ text

/-- `text` filled with blanks on the right up to `width` characters. -/
def padRight (width : Nat) (text : String) : String :=
  text ++ String.ofList (List.replicate (width - text.length) ' ')

def intText (i : Int) : String :=
  if i < 0 then "-" ++ String.ofList (Nat.toDigits 10 i.natAbs)
  else String.ofList (Nat.toDigits 10 i.natAbs)

def natText (n : Nat) : String := String.ofList (Nat.toDigits 10 n)

/-- The decisions of a shortest-digits format. -/
structure FloatLayout where
  /-- The least exponent that is written positionally. -/
  least : Int
  /-- From this exponent on the number has an exponent part. -/
  beyond : Int
  /-- The exponent part has at least this many digits. -/
  exponentWidth : Nat

namespace FloatLayout

/-- Values, messages and literals: positional from `1e-4` up to `999999`. -/
def general : FloatLayout := ⟨-4, 6, 2⟩

/-- JSON documents: positional from `1e-6` up to `1e21`. -/
def plain : FloatLayout := ⟨-6, 21, 1⟩

/-- `d.ddd` with its exponent part. -/
def exponentForm (width : Nat) (digits : List Char) (leading : Int) : String :=
  let head := String.ofList (digits.take 1)
  let tail := digits.drop 1
  let fraction := if tail.isEmpty then "" else "." ++ String.ofList tail
  let sign := if leading < 0 then "-" else "+"
  head ++ fraction ++ "e" ++ sign ++ padLeft width '0' (natText leading.natAbs)

/-- The digits with a decimal point after the one of weight one. -/
def positionalForm (digits : List Char) (leading : Int) : String :=
  if leading < 0 then
    "0." ++ String.ofList (List.replicate (leading.natAbs - 1) '0') ++ String.ofList digits
  else
    let whole := leading.toNat + 1
    let ones := digits.take whole ++ List.replicate (whole - digits.length) '0'
    let tail := digits.drop whole
    String.ofList ones ++ (if tail.isEmpty then "" else "." ++ String.ofList tail)

/-- The text of a decimal without its sign. -/
def magnitudeText (layout : FloatLayout) (d : Decimal) : String :=
  if d.digits = 0 then "0"
  else
    let leading := d.leading
    if leading < layout.least ∨ layout.beyond ≤ leading then
      exponentForm layout.exponentWidth d.digitList leading
    else positionalForm d.digitList leading

def textOf (layout : FloatLayout) : Binary64 → String
  | .nan => "NaN"
  | .infinite negative => if negative then "-Inf" else "+Inf"
  | .finite negative mantissa exponent =>
    (if negative then "-" else "") ++ layout.magnitudeText (Decimal.shortest mantissa exponent)

def text (layout : FloatLayout) (x : Float) : String := layout.textOf (Binary64.ofFloat x)

end FloatLayout

/-- The text of a double in values, messages and literals. -/
def floatText (x : Float) : String := FloatLayout.general.text x

/-- The double with a fixed number of decimal places; a half goes to the even digit. -/
def fixedText (places : Nat) (x : Float) : String :=
  match Binary64.ofFloat x with
  | .nan => "NaN"
  | .infinite negative => if negative then "-Inf" else "+Inf"
  | .finite negative mantissa exponent =>
    let units := Decimal.inUnits mantissa exponent (-(places : Int))
    let digits := padLeft (places + 1) '0' (natText units)
    let whole := (digits.take (digits.length - places)).toString
    let fraction := (digits.drop (digits.length - places)).toString
    (if negative then "-" else "") ++ whole ++ (if places = 0 then "" else "." ++ fraction)

/-- The double with `places` digits after the point of its leading digit. -/
def scientificText (places : Nat) (x : Float) : String :=
  match Binary64.ofFloat x with
  | .nan => "NaN"
  | .infinite negative => if negative then "-Inf" else "+Inf"
  | .finite negative mantissa exponent =>
    let d := Decimal.significant mantissa exponent (places + 1)
    let digits :=
      if d.digits = 0 then List.replicate (places + 1) '0' else d.digitList
    let leading := if d.digits = 0 then 0 else d.leading
    (if negative then "-" else "") ++ FloatLayout.exponentForm 2 digits leading

end ShaderScript
