import ShaderScript.Text.Printable

/-!
# Quoted text

How messages and documents quote a text.  `quoted` is the form of messages: double quotes, letter
escapes for the usual control characters, and code-point escapes for everything that is not
printable.  `jsonQuoted` is the form of JSON documents that may be embedded in a page: angle
brackets, the ampersand and the two line separators are escaped too.
-/

namespace ShaderScript.Text

/-- A number in hexadecimal with at least `width` digits. -/
def hexText (width n : Nat) : List Char :=
  let digits := Nat.toDigits 16 n
  List.replicate (width - digits.length) '0' ++ digits

/-- One character inside a quoted text whose quotes are `quote`. -/
def quotedChar (quote : Char) (c : Char) : List Char :=
  if c = quote ∨ c = '\\' then ['\\', c]
  else if isPrintable c then [c]
  else match c.toNat with
    | 7 => ['\\', 'a']
    | 8 => ['\\', 'b']
    | 9 => ['\\', 't']
    | 10 => ['\\', 'n']
    | 11 => ['\\', 'v']
    | 12 => ['\\', 'f']
    | 13 => ['\\', 'r']
    | n =>
      if n < 32 ∨ n = 127 then '\\' :: 'x' :: hexText 2 n
      else if n < 65536 then '\\' :: 'u' :: hexText 4 n
      else '\\' :: 'U' :: hexText 8 n

/-- A text in double quotes, as messages show it. -/
def quoted (s : String) : String :=
  "\"" ++ String.ofList (s.toList.flatMap (quotedChar '"')) ++ "\""

/-- A character in single quotes, as messages show it. -/
def quotedCharacter (c : Char) : String :=
  "'" ++ String.ofList (quotedChar '\'' c) ++ "'"

/-- One character of a JSON string. -/
def jsonChar (c : Char) : List Char :=
  if c = '"' ∨ c = '\\' then ['\\', c]
  else match c.toNat with
    | 8 => ['\\', 'b']
    | 9 => ['\\', 't']
    | 10 => ['\\', 'n']
    | 12 => ['\\', 'f']
    | 13 => ['\\', 'r']
    | n =>
      if n < 32 ∨ c = '<' ∨ c = '>' ∨ c = '&' ∨ n = 0x2028 ∨ n = 0x2029 then
        '\\' :: 'u' :: hexText 4 n
      else [c]

def jsonQuoted (s : String) : String :=
  "\"" ++ String.ofList (s.toList.flatMap jsonChar) ++ "\""

end ShaderScript.Text
