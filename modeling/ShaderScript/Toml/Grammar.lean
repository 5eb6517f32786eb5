import ShaderScript.Text.Utf8
import ShaderScript.Toml.Scalar

/-!
# The grammar of TOML

A file is a list of statements: table headers, element headers and assignments.  `statements?`
reads them; what they mean together is settled when the document is built.
-/

namespace ShaderScript.Toml

/-- A value as it is written. -/
inductive Expr
  | scalar (value : Value)
  | list (items : List Expr)
  | table (entries : List (Key × Expr))

/-- A statement. -/
inductive Statement
  /-- `[key]` -/
  | table (key : Key)
  /-- `[[key]]` -/
  | element (key : Key)
  /-- `key = value` -/
  | assign (key : Key) (value : Expr)

/-! ## Characters -/

/-- Blanks within a line. -/
def isBlank (c : Char) : Bool := c = ' ' || c = '\t'

def isBreak (c : Char) : Bool := c = '\n' || c = '\r'

def skipBlanks (cs : List Char) : List Char := cs.dropWhile isBlank

/-- A file holds no control characters except tabs and line ends. -/
def isClean : List Char → Bool
  | [] => true
  | '\r' :: '\n' :: rest => isClean rest
  | c :: rest => (c = '\t' || c = '\n' || (32 ≤ c.toNat && c.toNat ≠ 127)) && isClean rest

/-- The rest of a text after a comment; the line end stays. -/
def skipComment (cs : List Char) : List Char := cs.dropWhile fun c => !isBreak c

/-- Skips blanks, line ends and comments. -/
def skipLines : Nat → List Char → List Char
  | 0, cs => cs
  | fuel + 1, cs =>
    match cs with
    | '#' :: rest => skipLines fuel (skipComment rest)
    | c :: rest => if isBlank c || isBreak c then skipLines fuel rest else cs
    | [] => []

/-- The rest after the end of a statement: blanks, a comment, and a line end or the end. -/
def statementEnd? (cs : List Char) : Option (List Char) :=
  match skipBlanks cs with
  | [] => some []
  | '#' :: rest => some (skipComment rest)
  | c :: rest => if isBreak c then some rest else none

/-! ## Strings -/

/-- The character with a number, unless it is a surrogate or too large. -/
def scalarChar? (n : Nat) : Option Char := if n.isValidChar then some (Char.ofNat n) else none

/-- The character of an escape with hexadecimal digits. -/
def hexEscape? (width : Nat) (cs : List Char) : Option (Char × List Char) :=
  let digits := cs.take width
  if digits.length = width ∧ digits.all (fun c => (Numeral.digitValue? 16 c).isSome) then
    (scalarChar? (digitsValue 16 digits)).map (·, cs.drop width)
  else none

/-- The character of an escape after its backslash. -/
def escape? : List Char → Option (Char × List Char)
  | 'b' :: rest => some (Char.ofNat 8, rest)
  | 't' :: rest => some ('\t', rest)
  | 'n' :: rest => some ('\n', rest)
  | 'f' :: rest => some (Char.ofNat 12, rest)
  | 'r' :: rest => some ('\r', rest)
  | '"' :: rest => some ('"', rest)
  | '\\' :: rest => some ('\\', rest)
  | 'u' :: rest => hexEscape? 4 rest
  | 'U' :: rest => hexEscape? 8 rest
  | _ => none

/-- The characters of a string in reverse, and the rest after its closing quote. -/
def basicBody : Nat → List Char → List Char → Option (List Char × List Char)
  | 0, _, _ => none
  | fuel + 1, done, cs =>
    match cs with
    | [] => none
    | '"' :: rest => some (done, rest)
    | '\\' :: rest =>
      match escape? rest with
      | some (c, rest) => basicBody fuel (c :: done) rest
      | none => none
    | c :: rest => if isBreak c then none else basicBody fuel (c :: done) rest

/-- A string in double quotes, after the first. -/
def basicString? (cs : List Char) : Option (String × List Char) :=
  (basicBody (cs.length + 1) [] cs).map fun (done, rest) => (String.ofList done.reverse, rest)

/-- A string in single quotes, after the first; nothing is escaped. -/
def rawString? (cs : List Char) : Option (String × List Char) :=
  let inside (c : Char) : Bool := c ≠ '\'' && !isBreak c
  match cs.dropWhile inside with
  | '\'' :: rest => some (String.ofList (cs.takeWhile inside), rest)
  | _ => none

/-- The text after a line end that directly follows three opening quotes. -/
def skipFirstBreak : List Char → List Char
  | '\n' :: rest => rest
  | '\r' :: '\n' :: rest => rest
  | cs => cs

/-- The characters of a string in three double quotes, in reverse, and the rest after it.  A
backslash at the end of a line joins it with the next word.  Two quotes may stand before the closing
three, and after an escaped backslash one more. -/
def longBody : Nat → Bool → List Char → List Char → Option (List Char × List Char)
  | 0, _, _, _ => none
  | fuel + 1, afterBackslash, done, cs =>
    match cs with
    | [] => none
    | '\\' :: rest =>
      let isGap (c : Char) : Bool := isBlank c || isBreak c
      let gap := rest.takeWhile isGap
      if gap.isEmpty then
        match escape? rest with
        | some (c, rest) => longBody fuel (c = '\\') (c :: done) rest
        | none => none
      else if gap.contains '\n' then longBody fuel false done (rest.dropWhile isGap)
      else none
    | '"' :: rest =>
      let count := (rest.takeWhile (· = '"')).length + 1
      let rest := rest.dropWhile (· = '"')
      if count < 3 then longBody fuel false (List.replicate count '"' ++ done) rest
      else if count ≤ 5 ∨ (count = 6 ∧ afterBackslash) then
        some (List.replicate (count - 3) '"' ++ done, rest)
      else none
    | c :: rest => longBody fuel false (c :: done) rest

/-- A string in three double quotes, after the first three. -/
def longString? (cs : List Char) : Option (String × List Char) :=
  (longBody (cs.length + 1) false [] (skipFirstBreak cs)).map fun (done, rest) =>
    (String.ofList done.reverse, rest)

/-- The characters of a string in three single quotes, in reverse, and the rest after it. -/
def longRawBody : Nat → List Char → List Char → Option (List Char × List Char)
  | 0, _, _ => none
  | fuel + 1, done, cs =>
    match cs with
    | [] => none
    | '\'' :: rest =>
      let count := (rest.takeWhile (· = '\'')).length + 1
      let rest := rest.dropWhile (· = '\'')
      if count < 3 then longRawBody fuel (List.replicate count '\'' ++ done) rest
      else if count ≤ 5 then some (List.replicate (count - 3) '\'' ++ done, rest)
      else none
    | c :: rest => longRawBody fuel (c :: done) rest

/-- A string in three single quotes, after the first three. -/
def longRawString? (cs : List Char) : Option (String × List Char) :=
  (longRawBody (cs.length + 1) [] (skipFirstBreak cs)).map fun (done, rest) =>
    (String.ofList done.reverse, rest)

def string? : List Char → Option (String × List Char)
  | '"' :: '"' :: '"' :: rest => longString? rest
  | '"' :: rest => basicString? rest
  | '\'' :: '\'' :: '\'' :: rest => longRawString? rest
  | '\'' :: rest => rawString? rest
  | _ => none

/-! ## Keys -/

def name? : List Char → Option (String × List Char)
  | '"' :: rest => basicString? rest
  | '\'' :: rest => rawString? rest
  | cs =>
    match cs.takeWhile isBareChar with
    | [] => none
    | name => some (String.ofList name, cs.dropWhile isBareChar)

/-- A key: names with points between them. -/
def key? : Nat → List Char → Option (Key × List Char)
  | 0, _ => none
  | fuel + 1, cs =>
    match name? (skipBlanks cs) with
    | none => none
    | some (name, rest) =>
      match skipBlanks rest with
      | '.' :: rest => (key? fuel rest).map fun (names, rest) => (name :: names, rest)
      | rest => some ([name], rest)

/-! ## Values -/

/-- A value that is not a list or a table. -/
def scalar? (cs : List Char) : Option (Value × List Char) :=
  match cs with
  | '"' :: _ => (string? cs).map fun (s, rest) => (.text s, rest)
  | '\'' :: _ => (string? cs).map fun (s, rest) => (.text s, rest)
  | 't' :: 'r' :: 'u' :: 'e' :: rest => some (.bool true, rest)
  | 'f' :: 'a' :: 'l' :: 's' :: 'e' :: rest => some (.bool false, rest)
  | _ =>
    match namedFloat? cs with
    | some found => some found
    | none => numberOrInstant? cs

mutual

def value? : Nat → List Char → Option (Expr × List Char)
  | 0, _ => none
  | fuel + 1, cs =>
    match skipBlanks cs with
    | '[' :: rest => (items? fuel rest).map fun (es, rest) => (.list es, rest)
    | '\x7b' :: rest =>
      match skipBlanks rest with
      | '\x7d' :: rest => some (.table [], rest)
      | rest => (entries? fuel rest).map fun (es, rest) => (.table es, rest)
    | rest => (scalar? rest).map fun (v, rest) => (.scalar v, rest)

/-- The items of a list up to its closing bracket; a comma may follow the last. -/
def items? : Nat → List Char → Option (List Expr × List Char)
  | 0, _ => none
  | fuel + 1, cs =>
    match skipLines cs.length cs with
    | ']' :: rest => some ([], rest)
    | cs =>
      match value? fuel cs with
      | none => none
      | some (e, rest) =>
        match skipLines rest.length rest with
        | ',' :: rest => (items? fuel rest).map fun (es, rest) => (e :: es, rest)
        | ']' :: rest => some ([e], rest)
        | _ => none

/-- The entries of a table up to its closing brace, on one line. -/
def entries? : Nat → List Char → Option (List (Key × Expr) × List Char)
  | 0, _ => none
  | fuel + 1, cs =>
    match key? (cs.length + 1) cs with
    | some (key, '=' :: rest) =>
      match value? fuel rest with
      | none => none
      | some (e, rest) =>
        match skipBlanks rest with
        | ',' :: rest => (entries? fuel rest).map fun (es, rest) => ((key, e) :: es, rest)
        | '\x7d' :: rest => some ([(key, e)], rest)
        | _ => none
    | _ => none

end

/-! ## Statements -/

/-- One statement and the rest after its end. -/
def statement? (cs : List Char) : Option (Statement × List Char) :=
  let fuel := cs.length + 1
  match cs with
  | '[' :: '[' :: rest =>
    match key? fuel rest with
    | some (key, ']' :: ']' :: rest) => (statementEnd? rest).map (.element key, ·)
    | _ => none
  | '[' :: rest =>
    match key? fuel rest with
    | some (key, ']' :: rest) => (statementEnd? rest).map (.table key, ·)
    | _ => none
  | _ =>
    match key? fuel cs with
    | some (key, '=' :: rest) =>
      match value? fuel rest with
      | some (e, rest) => (statementEnd? rest).map (.assign key e, ·)
      | none => none
    | _ => none

def statementList : Nat → List Char → Option (List Statement)
  | 0, _ => none
  | fuel + 1, cs =>
    match skipLines cs.length cs with
    | [] => some []
    | cs =>
      match statement? cs with
      | some (s, rest) => (statementList fuel rest).map (s :: ·)
      | none => none

/-- The bytes after a byte order mark. -/
def skipByteOrderMark : List UInt8 → List UInt8
  | 0xEF :: 0xBB :: 0xBF :: rest => rest
  | 0xFF :: 0xFE :: rest => rest
  | 0xFE :: 0xFF :: rest => rest
  | bytes => bytes

/-- The text of a file, unless its bytes are no UTF-8. -/
def fileText? (bytes : List UInt8) : Option (List Char) :=
  let bytes := skipByteOrderMark bytes
  let cs := Text.decodeLossy bytes
  if Text.bytesOf (String.ofList cs) = bytes then some cs else none

def statements? (bytes : List UInt8) : Option (List Statement) :=
  match fileText? bytes with
  | some cs => if isClean cs then statementList (cs.length + 1) cs else none
  | none => none

end ShaderScript.Toml
