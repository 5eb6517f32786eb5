import ShaderScript.Number.Layout
import ShaderScript.Number.WholeNumber
import ShaderScript.Text.Quoted
import ShaderScript.Text.Terminal

/-!
# Flags

The flags of a command line: `--name value`, `--name=value`, `-n value`, `-nvalue`, `-n=value`.  A
toggle needs no value.  Flags and arguments may be mixed; after `--` there are arguments only.
-/

namespace ShaderScript

open Text

/-- What a flag takes. -/
inductive FlagKind
  | text
  | number
  | duration
  /-- Yes if no value is given. -/
  | toggle
  deriving Repr, DecidableEq

/-- A flag. -/
structure Flag where
  name : String
  short : Option Char := none
  kind : FlagKind := .text
  default : String := ""
  usage : String
  deriving Repr, DecidableEq

/-- Why a command line has no meaning. -/
inductive FlagError
  | badSyntax (argument : String)
  | unknown (name : String)
  | unknownShort (short : Char) (group : String)
  | needsValue (argument : String)
  | shortNeedsValue (short : Char) (group : String)
  | badValue (flag : Flag) (value reason : String)
  deriving Repr, DecidableEq

namespace Flag

/-- The flag as messages show it. -/
def shown (f : Flag) : String :=
  match f.short with
  | some c => "-" ++ c.toString ++ ", --" ++ f.name
  | none => "--" ++ f.name

end Flag

/-- The text for a command line that has no meaning. -/
def FlagError.message : FlagError → String
  | badSyntax argument => "bad flag syntax: " ++ argument
  | unknown name => "unknown flag: --" ++ name
  | unknownShort short group =>
    "unknown shorthand flag: " ++ quotedCharacter short ++ " in -" ++ group
  | needsValue argument => "flag needs an argument: " ++ argument
  | shortNeedsValue short group =>
    "flag needs an argument: " ++ quotedCharacter short ++ " in -" ++ group
  | badValue flag value reason =>
    "invalid argument " ++ quoted value ++ " for " ++ quoted flag.shown ++ " flag: " ++ reason

/-! ## Values -/

/-- The truth value that a text stands for. -/
def truthOfText? (s : String) : Option Bool :=
  if ["1", "t", "T", "TRUE", "true", "True"].contains s then some true
  else if ["0", "f", "F", "FALSE", "false", "False"].contains s then some false
  else none

/-- The number of a numeric flag. -/
def numberOfText (s : String) : Int :=
  match WholeNumber.read s with
  | .ok i => i
  | .error _ => 0

/-- The nanoseconds of a unit of time. -/
def unitNanoseconds? (unit : String) : Option Nat :=
  [("ns", 1), ("us", 1000), ("µs", 1000), ("μs", 1000), ("ms", 1000000), ("s", 1000000000),
    ("m", 60000000000), ("h", 3600000000000)].lookup unit

/-- A text in quotes in messages about durations. -/
def durationQuoted (s : String) : String :=
  let shown (c : Char) : List Char :=
    if c = '"' ∨ c = '\\' then ['\\', c]
    else if 32 ≤ c.toNat ∧ c.toNat < 128 then [c]
    else c.toString.toUTF8.toList.flatMap fun b => '\\' :: 'x' :: hexText 2 b.toNat
  "\"" ++ String.ofList (s.toList.flatMap shown) ++ "\""

/-- What is wrong with the parts of a duration, each a number and a unit. -/
def durationFault (whole : String) : Nat → List Char → Option String
  | 0, _ => none
  | fuel + 1, cs =>
    if cs.isEmpty then none
    else
      let digits := cs.takeWhile Char.isDigit
      let rest := cs.dropWhile Char.isDigit
      let (fraction, rest) := match rest with
        | '.' :: more => (more.takeWhile Char.isDigit, more.dropWhile Char.isDigit)
        | _ => ([], rest)
      let isUnitChar (c : Char) : Bool := c ≠ '.' && !c.isDigit
      let unit := String.ofList (rest.takeWhile isUnitChar)
      if digits.isEmpty && fraction.isEmpty then
        some ("time: invalid duration " ++ durationQuoted whole)
      else if unit.isEmpty then some ("time: missing unit in duration " ++ durationQuoted whole)
      else if (unitNanoseconds? unit).isNone then
        some ("time: unknown unit " ++ durationQuoted unit ++ " in duration " ++ durationQuoted whole)
      else durationFault whole fuel (rest.dropWhile isUnitChar)

/-- What is wrong with a duration. -/
def durationFault? (s : String) : Option String :=
  let unsigned := match s.toList with
    | '-' :: cs => cs
    | '+' :: cs => cs
    | cs => cs
  if unsigned = ['0'] then none
  else if unsigned.isEmpty then some ("time: invalid duration " ++ durationQuoted s)
  else durationFault s (unsigned.length + 1) unsigned

/-- What is wrong with a value for a flag. -/
def FlagKind.fault? (kind : FlagKind) (value : String) : Option String :=
  match kind with
  | .text => none
  | .toggle =>
    if (truthOfText? value).isSome then none
    else some ("strconv.ParseBool: parsing " ++ quoted value ++ ": invalid syntax")
  | .number =>
    match WholeNumber.read value with
    | .ok _ => none
    | .error .malformed => some ("strconv.ParseInt: parsing " ++ quoted value ++ ": invalid syntax")
    | .error .outOfRange =>
      some ("strconv.ParseInt: parsing " ++ quoted value ++ ": value out of range")
  | .duration => durationFault? value

/-! ## Parsing -/

/-- The flags and arguments of a command line. -/
structure Parsed where
  /-- The values that were given, the last one first. -/
  given : List (String × String) := []
  arguments : List String := []
  deriving Repr, DecidableEq, Inhabited

namespace Parsed

def isGiven (p : Parsed) (name : String) : Bool := (p.given.lookup name).isSome

/-- The value of a flag, or another where it was not given. -/
def text (p : Parsed) (name : String) (default : String := "") : String :=
  (p.given.lookup name).getD default

def isOn (p : Parsed) (name : String) : Bool := (truthOfText? (p.text name)).getD false

/-- The number of a flag, or another where it was not given. -/
def number (p : Parsed) (name : String) (default : Int := 0) : Int :=
  ((p.given.lookup name).map numberOfText).getD default

/-- Gives a flag a value. -/
def give (p : Parsed) (f : Flag) (value : String) : Except FlagError Parsed :=
  match f.kind.fault? value with
  | some reason => .error (.badValue f value reason)
  | none => .ok { p with given := (f.name, value) :: p.given }

/-- One more argument. -/
def push (p : Parsed) (argument : String) : Parsed :=
  { p with arguments := p.arguments ++ [argument] }

end Parsed

def longFlag? (flags : List Flag) (name : String) : Option Flag := flags.find? (·.name == name)

def shortFlag? (flags : List Flag) (c : Char) : Option Flag := flags.find? (·.short == some c)

/-- Reads `--name` or `--name=value`, and gives back the arguments that are left. -/
def parseLong (flags : List Flag) (p : Parsed) (argument : String) (rest : List String) :
    Except FlagError (Parsed × List String) := do
  let body := argument.toList.drop 2
  let name := String.ofList (body.takeWhile (· ≠ '='))
  if name.isEmpty || body.head? = some '-' then throw (.badSyntax argument)
  match longFlag? flags name with
  | none => throw (.unknown name)
  | some f =>
    match body.dropWhile (· ≠ '=') with
    | _ :: value => return (← p.give f (String.ofList value), rest)
    | [] =>
      if f.kind = .toggle then return (← p.give f "true", rest)
      else match rest with
        | value :: rest => return (← p.give f value, rest)
        | [] => throw (.needsValue argument)

/-- Reads letters after a single dash, and gives back the arguments that are left. -/
def parseShorts (flags : List Flag) (p : Parsed) (rest : List String) :
    List Char → Except FlagError (Parsed × List String)
  | [] => .ok (p, rest)
  | c :: more => do
    let group := String.ofList (c :: more)
    match shortFlag? flags c with
    | none => throw (.unknownShort c group)
    | some f =>
      match more with
      | '=' :: v :: value => return (← p.give f (String.ofList (v :: value)), rest)
      | _ =>
        if f.kind = .toggle then
          let p ← p.give f "true"
          parseShorts flags p rest more
        else if !more.isEmpty then return (← p.give f (String.ofList more), rest)
        else match rest with
          | value :: rest => return (← p.give f value, rest)
          | [] => throw (.shortNeedsValue c group)

/-- Reads a command line.  The fuel bounds the number of arguments. -/
def parseWith (flags : List Flag) : Nat → Parsed → List String → Except FlagError Parsed
  | 0, p, _ => .ok p
  | _ + 1, p, [] => .ok p
  | fuel + 1, p, argument :: rest =>
    if argument = "--" then .ok { p with arguments := p.arguments ++ rest }
    else if argument = "-" || !argument.startsWith "-" then
      parseWith flags fuel (p.push argument) rest
    else do
      let (p, rest) ←
        if argument.startsWith "--" then parseLong flags p argument rest
        else parseShorts flags p rest (argument.toList.drop 1)
      parseWith flags fuel p rest

def parseFlags (flags : List Flag) (arguments : List String) : Except FlagError Parsed :=
  parseWith flags (arguments.length + 1) {} arguments

/-! ## Usage -/

/-- The word for a flag's value. -/
def FlagKind.valueWord : FlagKind → String
  | .text => "string"
  | .number => "int"
  | .duration => "duration"
  | .toggle => ""

/-- Whether a default goes without saying. -/
def Flag.defaultIsPlain (f : Flag) : Bool :=
  match f.kind with
  | .text => f.default.isEmpty
  | .number => f.default = "0"
  | .duration => f.default = "0s"
  | .toggle => f.default ≠ "true"

/-- The name column of a flag. -/
def Flag.column (f : Flag) : String :=
  let head := match f.short with
    | some c => "  -" ++ c.toString ++ ", --" ++ f.name
    | none => "      --" ++ f.name
  if f.kind.valueWord.isEmpty then head else head ++ " " ++ f.kind.valueWord

/-- What a flag does, and its default. -/
def Flag.description (f : Flag) : String :=
  if f.defaultIsPlain then f.usage
  else if f.kind = .text then f.usage ++ " (default " ++ quoted f.default ++ ")"
  else f.usage ++ " (default " ++ f.default ++ ")"

/-- Flags as an aligned list, in the order of their names. -/
def flagUsages (flags : List Flag) : String :=
  let flags := flags.mergeSort fun a b => decide (a.name ≤ b.name)
  let width := widest (flags.map Flag.column)
  "\n".intercalate (flags.map fun f => padRight width f.column ++ "   " ++ f.description)

end ShaderScript
