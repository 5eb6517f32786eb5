import ShaderScript.Syntax.Tag
import ShaderScript.Text.Space

/-!
# Diagnostics

A diagnostic is one finding about a shader: how severe it is, a numbered code, where it stands and
what it says.  Its line form is `warning CG1001 3:5 message`.
-/

namespace ShaderScript

/-- How severe a diagnostic is.  Only the first three have names of their own. -/
inductive Severity
  | info
  | warning
  | error
  | unnamed (rank : Nat)
  deriving Repr, DecidableEq, Inhabited

namespace Severity

/-- The rank of a severity; a greater one is worse. -/
def rank : Severity → Nat
  | info => 0
  | warning => 1
  | error => 2
  | unnamed rank => rank

def ofRank : Nat → Severity
  | 0 => info
  | 1 => warning
  | 2 => error
  | n => unnamed n

def name : Severity → String
  | info => "INFO"
  | warning => "WARNING"
  | error => "ERROR"
  | unnamed _ => "UNKNOWN"

/-- The word for a severity in line form. -/
def label : Severity → String
  | error => "error"
  | warning => "warning"
  | _ => "info"

end Severity

/-- The number of a kind of diagnostic. -/
structure Code where
  number : Nat
  deriving Repr, DecidableEq, Inhabited

namespace Code

def unsupportedOperator : Code := ⟨1001⟩
def unsupportedNode : Code := ⟨1002⟩
def globalRedeclared : Code := ⟨1004⟩
def globalParameter : Code := ⟨1005⟩
def assignInExpression : Code := ⟨1006⟩
def compileFailed : Code := ⟨2001⟩
def loadError : Code := ⟨3001⟩
def decodeError : Code := ⟨3002⟩
def cacheError : Code := ⟨3003⟩
def writeError : Code := ⟨3005⟩
def outputConflict : Code := ⟨3006⟩

/-- The letters and digits by which a code is known: the letters tell its range. -/
def id (c : Code) : String :=
  if 1000 ≤ c.number ∧ c.number < 2000 then "CG" ++ natText c.number
  else if 2000 ≤ c.number ∧ c.number < 3000 then "HOST" ++ natText c.number
  else if 3000 ≤ c.number ∧ c.number < 4000 then "IO" ++ natText c.number
  else "E0000"

/-- What a code stands for. -/
def titles : List (Nat × String) :=
  [(1000, "Code generation information"),
   (1001, "Operator has no runtime mapping"),
   (1002, "Node kind not supported by the translator"),
   (1003, "Assignment target shape not supported"),
   (1004, "Local declaration of a global name"),
   (1005, "Parameter named after a global"),
   (1006, "Assignment used as a value"),
   (2000, "Host information"),
   (2001, "Generated code failed to compile"),
   (2002, "Shader failed at run time"),
   (2003, "Shader invocation discarded"),
   (3000, "Input information"),
   (3001, "Cannot read input file"),
   (3002, "Malformed shader descriptor"),
   (3003, "Artifact cache failure"),
   (3004, "Invalid configuration"),
   (3005, "Cannot write output file"),
   (3006, "Two inputs share an output file")]

def title (c : Code) : String := (titles.lookup c.number).getD "Unknown error"

/-- A code with its title. -/
def text (c : Code) : String := "[" ++ c.id ++ "]: " ++ c.title

end Code

/-- A remark that belongs to a diagnostic. -/
structure Note where
  pos : Position
  message : String
  deriving Repr, DecidableEq, Inhabited

/-- One finding about a shader. -/
structure Diagnostic where
  severity : Severity
  code : Code
  pos : Position
  message : String
  notes : List Note := []
  deriving Repr, DecidableEq, Inhabited

/-- Line breaks of any kind as single blanks. -/
def joinLines : List Char → List Char
  | [] => []
  | '\r' :: '\n' :: rest => ' ' :: joinLines rest
  | c :: rest => (if c = '\r' ∨ c = '\n' then ' ' else c) :: joinLines rest

/-- A message on one line, without blanks at its ends. -/
def oneLine (message : String) : String := Text.trim (String.ofList (joinLines message.toList))

namespace Diagnostic

def error (code : Code) (pos : Position) (message : String) : Diagnostic :=
  ⟨.error, code, pos, message, []⟩

def warning (code : Code) (pos : Position) (message : String) : Diagnostic :=
  ⟨.warning, code, pos, message, []⟩

/-- Whether the diagnostic is an error, or worse. -/
def isError (d : Diagnostic) : Bool := 2 ≤ d.severity.rank

/-- Whether the diagnostic is a warning, or worse. -/
def isWarning (d : Diagnostic) : Bool := 1 ≤ d.severity.rank

/-- The line form. -/
def text (d : Diagnostic) : String :=
  d.severity.label ++ " " ++ d.code.id ++ " " ++ d.pos.text ++ " " ++ oneLine d.message

/-- Whether two diagnostics say the same at the same place, notes aside. -/
def sameFinding (d e : Diagnostic) : Bool :=
  d.code == e.code && d.severity == e.severity && d.pos == e.pos && d.message == e.message

end Diagnostic

end ShaderScript
