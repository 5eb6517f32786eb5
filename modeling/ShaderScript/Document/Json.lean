import ShaderScript.Document.Basic
import ShaderScript.Text.Utf8

/-!
# Reading JSON

`Json.read` reads the first JSON value of a text and leaves the rest alone.  Numbers keep their
text.  A surrogate escape without its partner reads as U+FFFD.
-/

namespace ShaderScript.Json

/-- Blank characters between tokens. -/
def isBlank (c : Char) : Bool := c = ' ' || c = '\t' || c = '\n' || c = '\r'

/-- The text after its leading blanks. -/
def skipBlanks (cs : List Char) : List Char := cs.dropWhile isBlank

/-- Values nested deeper than this are refused. -/
def depthLimit : Nat := 10000

/-- The rest of a text after a fixed word. -/
def afterWord : List Char → List Char → Option (List Char)
  | [], cs => some cs
  | w :: ws, c :: cs => if w = c then afterWord ws cs else none
  | _ :: _, [] => none

/-- The digits at the start of a text, and the rest. -/
def digits (cs : List Char) : List Char × List Char :=
  (cs.takeWhile Char.isDigit, cs.dropWhile Char.isDigit)

/-- The whole part of a number: one digit, or several that do not start with zero. -/
def wholePart (cs : List Char) : Option (List Char × List Char) :=
  match cs with
  | '0' :: rest => some (['0'], rest)
  | _ =>
    match digits cs with
    | ([], _) => none
    | found => some found

/-- An optional fraction: a point and at least one digit. -/
def fractionPart (cs : List Char) : Option (List Char × List Char) :=
  match cs with
  | '.' :: rest =>
    match digits rest with
    | ([], _) => none
    | (ds, rest) => some ('.' :: ds, rest)
  | _ => some ([], cs)

/-- An optional exponent: a mark, an optional sign and at least one digit. -/
def exponentPart (cs : List Char) : Option (List Char × List Char) :=
  match cs with
  | mark :: rest =>
    if mark = 'e' ∨ mark = 'E' then
      let (sign, rest) := match rest with
        | '+' :: rest => (['+'], rest)
        | '-' :: rest => (['-'], rest)
        | _ => ([], rest)
      match digits rest with
      | ([], _) => none
      | (ds, rest) => some (mark :: sign ++ ds, rest)
    else some ([], cs)
  | [] => some ([], [])

/-- A number without its sign. -/
def unsignedNumber (cs : List Char) : Option (List Char × List Char) := do
  let (whole, cs) ← wholePart cs
  let (fraction, cs) ← fractionPart cs
  let (exponent, cs) ← exponentPart cs
  return (whole ++ fraction ++ exponent, cs)

def number (cs : List Char) : Option (Document × List Char) :=
  match cs with
  | '-' :: rest =>
    (unsignedNumber rest).map fun (text, rest) =>
      (.number (.decimal (String.ofList ('-' :: text))), rest)
  | _ => (unsignedNumber cs).map fun (text, rest) => (.number (.decimal (String.ofList text)), rest)

/-- The value of four hexadecimal digits. -/
def fourHex (cs : List Char) : Option (Nat × List Char) :=
  match cs with
  | a :: b :: c :: d :: rest =>
    if [a, b, c, d].all (fun x => (Numeral.digitValue? 16 x).isSome) then
      some (Text.hexNumber [a, b, c, d], rest)
    else none
  | _ => none

/-- Whether a code unit is the first, or the second, half of a surrogate pair. -/
def isHighHalf (n : Nat) : Bool := 0xD800 ≤ n && n < 0xDC00
def isLowHalf (n : Nat) : Bool := 0xDC00 ≤ n && n < 0xE000

/-- The character of a `\u` escape whose four digits were read, with the text after it. -/
def unicodeEscape (n : Nat) (rest : List Char) : Char × List Char :=
  if isHighHalf n then
    match rest with
    | '\\' :: 'u' :: more =>
      match fourHex more with
      | some (low, after) =>
        if isLowHalf low then
          (Char.ofNat (0x10000 + (n - 0xD800) * 1024 + (low - 0xDC00)), after)
        else (Text.replacement, rest)
      | none => (Text.replacement, rest)
    | _ => (Text.replacement, rest)
  else if isLowHalf n then (Text.replacement, rest)
  else (Char.ofNat n, rest)

/-- The character of a one-letter escape. -/
def letterEscape? (c : Char) : Option Char :=
  match c with
  | '"' => some '"'
  | '\\' => some '\\'
  | '/' => some '/'
  | 'b' => some (Char.ofNat 8)
  | 'f' => some (Char.ofNat 12)
  | 'n' => some '\n'
  | 'r' => some '\r'
  | 't' => some '\t'
  | _ => none

/-- The characters of a string after its opening quote, in reverse, and the text after the closing
one. -/
def stringBody : Nat → List Char → List Char → Option (List Char × List Char)
  | 0, _, _ => none
  | _ + 1, _, [] => none
  | fuel + 1, done, c :: rest =>
    if c = '"' then some (done, rest)
    else if c.toNat < 32 then none
    else if c = '\\' then
      match rest with
      | 'u' :: more =>
        match fourHex more with
        | some (n, after) =>
          let (c, after) := unicodeEscape n after
          stringBody fuel (c :: done) after
        | none => none
      | e :: more =>
        match letterEscape? e with
        | some c => stringBody fuel (c :: done) more
        | none => none
      | [] => none
    else stringBody fuel (c :: done) rest

/-- A string after its opening quote. -/
def string (cs : List Char) : Option (String × List Char) :=
  (stringBody (cs.length + 1) [] cs).map fun (done, rest) => (String.ofList done.reverse, rest)

mutual

/-- A value.  The fuel bounds the number of characters read, `depth` the values around it. -/
def value : Nat → Nat → List Char → Option (Document × List Char)
  | 0, _, _ => none
  | fuel + 1, depth, cs =>
    match skipBlanks cs with
    | '"' :: rest => (string rest).map fun (s, rest) => (.text s, rest)
    | '[' :: rest =>
      if depthLimit ≤ depth then none
      else match skipBlanks rest with
        | ']' :: rest => some (.list [], rest)
        | rest => (elements fuel (depth + 1) rest).map fun (ds, rest) => (.list ds, rest)
    | '\x7b' :: rest =>
      if depthLimit ≤ depth then none
      else match skipBlanks rest with
        | '\x7d' :: rest => some (.table [], rest)
        | rest => (entries fuel (depth + 1) rest).map fun (es, rest) => (.table es, rest)
    | 't' :: rest => (afterWord ['r', 'u', 'e'] rest).map fun rest => (.bool true, rest)
    | 'f' :: rest => (afterWord ['a', 'l', 's', 'e'] rest).map fun rest => (.bool false, rest)
    | 'n' :: rest => (afterWord ['u', 'l', 'l'] rest).map fun rest => (.null, rest)
    | rest => number rest

/-- The elements of a list up to its closing bracket. -/
def elements : Nat → Nat → List Char → Option (List Document × List Char)
  | 0, _, _ => none
  | fuel + 1, depth, cs =>
    match value fuel depth cs with
    | none => none
    | some (d, rest) =>
      match skipBlanks rest with
      | ',' :: rest => (elements fuel depth rest).map fun (ds, rest) => (d :: ds, rest)
      | ']' :: rest => some ([d], rest)
      | _ => none

/-- The entries of a table up to its closing brace. -/
def entries : Nat → Nat → List Char → Option (List (String × Document) × List Char)
  | 0, _, _ => none
  | fuel + 1, depth, cs =>
    match skipBlanks cs with
    | '"' :: rest =>
      match string rest with
      | none => none
      | some (key, rest) =>
        match skipBlanks rest with
        | ':' :: rest =>
          match value fuel depth rest with
          | none => none
          | some (d, rest) =>
            match skipBlanks rest with
            | ',' :: rest => (entries fuel depth rest).map fun (es, rest) => ((key, d) :: es, rest)
            | '\x7d' :: rest => some ([(key, d)], rest)
            | _ => none
        | _ => none
    | _ => none

end

def read (cs : List Char) : Option Document := (value (cs.length + 1) 0 cs).map (·.1)

end ShaderScript.Json
