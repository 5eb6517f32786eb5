import ShaderScript.Number.Layout
import ShaderScript.Text.Quoted

/-!
# What goes wrong in a computation

A `Fault` is a failure of a catalog function, with its cause.  Every cause belongs to one of seven
numbered classes (`Cause.code`), and has one text (`Cause.message`).  A `Failure` is a fault, or
the failure of something outside the catalog such as a texture unit.  A computation that asks for
a place past the end of a list, or compares what has no equality, breaks off with a failure of its
own (`Failure.isCrash`).
-/

namespace ShaderScript

open Text

/-- The class of a fault; the numbers are fixed. -/
inductive FaultCode
  | dimension
  | type
  | domain
  | range
  | arity
  | selection
  | unknown
  deriving Repr, DecidableEq

namespace FaultCode

def number : FaultCode → Nat
  | dimension => 1001
  | type => 1002
  | domain => 1003
  | range => 1004
  | arity => 1005
  | selection => 1006
  | unknown => 1007

/-- The text of a class number. -/
def nameOfNumber (n : Int) : String := "RT" ++ intText n

/-- The name of a class, such as `RT1001`. -/
def name (c : FaultCode) : String := nameOfNumber c.number

end FaultCode

/-- What a function wanted where it got something else. -/
inductive Expectation
  | scalarOrVector
  | vectorOf (size : Nat)
  | float
  | sampler2D
  | samplerCube
  | coordinate
  | direction
  deriving Repr, DecidableEq

def Expectation.words : Expectation → String
  | scalarOrVector => "scalar or vector"
  | vectorOf size => natText size ++ "-component vector"
  | float => "float"
  | sampler2D => "sampler2D"
  | samplerCube => "samplerCube"
  | coordinate => "vector coordinate"
  | direction => "vec3 direction"

/-- The operand of a logical operator. -/
inductive OperandSide
  | left
  | right
  | only
  deriving Repr, DecidableEq

def OperandSide.words : OperandSide → String
  | left => "left operand"
  | right => "right operand"
  | only => "operand"

/-- Why a function failed.  Types are given by name. -/
inductive Cause
  -- operands of different size
  | unlikeSizes (left right : String)
  | assignedSize (source : String) (count : Nat)
  | coordinateSize (coordinate : String)
  -- operands of the wrong type
  | argument (position : Nat) (expected : Expectation) (got : String)
  | badSelector (got : String)
  | cannotSelect (field base : String)
  | cannotAssignField (field base : String)
  | cannotIndex (base : String)
  | cannotAssignColumn (source matrix : String)
  | cannotAssign (source : String) (count : Nat)
  | cannotCombine (left right : String)
  | notScalars (left right : String)
  | badOperand (side : OperandSide) (got : String)
  | notCondition (got : String)
  | cannotConstructFrom (position : Option Nat) (got : String)
  | notMatrices (left right : String)
  | notBoolVector (got : String)
  -- arguments outside the domain
  | notInteger (x : Float)
  | zeroModulus
  | negativeShift
  | crossedBounds (low high : Float)
  | notThreeComponents (left right : String)
  -- places that are not there
  | noComponent (letter : Char) (size : Nat)
  | noIndex (index : Float) (size : Nat)
  -- numbers of arguments
  | wrongCount (wanted got : Nat)
  | tooFew (least got : Nat)
  | tooMany (most got : Nat)
  | unusedArgument (position : Nat)
  | tooFewComponents (wanted got : Nat)
  | noArguments
  | missingValue
  | missingBase
  | missingBaseAndValue
  -- malformed selections
  | badSelection (selection : String)
  | mixedSelection (selection : String)
  | repeatedComponent (selection : String) (letter : Char)
  -- names
  | unknownFunction

namespace Cause

def code : Cause → FaultCode
  | unlikeSizes .. | assignedSize .. | coordinateSize .. => .dimension
  | argument .. | badSelector .. | cannotSelect .. | cannotAssignField .. | cannotIndex ..
  | cannotAssignColumn .. | cannotAssign .. | cannotCombine .. | notScalars .. | badOperand ..
  | notCondition .. | cannotConstructFrom .. | notMatrices .. | notBoolVector .. => .type
  | notInteger .. | zeroModulus | negativeShift | crossedBounds .. | notThreeComponents .. => .domain
  | noComponent .. | noIndex .. => .range
  | wrongCount .. | tooFew .. | tooMany .. | unusedArgument .. | tooFewComponents .. | noArguments
  | missingValue | missingBase | missingBaseAndValue => .arity
  | badSelection .. | mixedSelection .. | repeatedComponent .. => .selection
  | unknownFunction => .unknown

def message : Cause → String
  | unlikeSizes left right => "dimension mismatch: " ++ left ++ " and " ++ right
  | assignedSize source count =>
    "dimension mismatch: assigning " ++ source ++ " to " ++ natText count ++ " components"
  | coordinateSize coordinate => "coordinate " ++ coordinate ++ " has the wrong dimension"
  | argument position expected got =>
    "argument " ++ natText position ++ ": expected " ++ expected.words ++ ", got " ++ got
  | badSelector got => "selector must be a number or a field name, got " ++ got
  | cannotSelect field base => "cannot select ." ++ field ++ " from " ++ base
  | cannotAssignField field base => "cannot assign ." ++ field ++ " of " ++ base
  | cannotIndex base => "cannot index " ++ base
  | cannotAssignColumn source matrix => "cannot assign " ++ source ++ " to a column of " ++ matrix
  | cannotAssign source count =>
    "cannot assign " ++ source ++ " to " ++ natText count ++ " components"
  | cannotCombine left right => "cannot combine " ++ left ++ " with " ++ right
  | notScalars left right => "expected scalar operands, got " ++ left ++ " and " ++ right
  | badOperand side got => side.words ++ ": " ++ got
  | notCondition got => "cannot use " ++ got ++ " as a condition"
  | cannotConstructFrom (some position) got =>
    "argument " ++ natText position ++ ": cannot construct from " ++ got
  | cannotConstructFrom none got => "cannot construct from " ++ got
  | notMatrices left right => "expected matrices, got " ++ left ++ " and " ++ right
  | notBoolVector got => "expected boolean vector, got " ++ got
  | notInteger x => floatText x ++ " is not representable as an integer"
  | zeroModulus => "integer modulo by zero"
  | negativeShift => "negative shift count"
  | crossedBounds low high =>
    "minVal " ++ floatText low ++ " is greater than maxVal " ++ floatText high
  | notThreeComponents left right =>
    "parameters must be 3-component vectors, got " ++ left ++ " and " ++ right
  | noComponent letter size =>
    "component " ++ quotedCharacter letter ++ " out of range for a " ++ natText size ++
      "-component vector"
  | noIndex index size =>
    "index " ++ floatText index ++ " out of range [0, " ++ natText size ++ ")"
  | wrongCount wanted got =>
    "expected " ++ natText wanted ++ " arguments, got " ++ natText got
  | tooFew least got =>
    "expected at least " ++ natText least ++ " arguments, got " ++ natText got
  | tooMany most got =>
    "expected at most " ++ natText most ++ " arguments, got " ++ natText got
  | unusedArgument position =>
    "too many arguments: argument " ++ natText position ++ " is unused"
  | tooFewComponents wanted got =>
    "not enough components: need " ++ natText wanted ++ ", got " ++ natText got
  | noArguments => "expected at least 1 argument"
  | missingValue => "missing value"
  | missingBase => "missing base"
  | missingBaseAndValue => "expected base and value"
  | badSelection selection => "invalid selection " ++ quoted selection
  | mixedSelection selection => "selection " ++ quoted selection ++ " mixes component sets"
  | repeatedComponent selection letter =>
    "selection " ++ quoted selection ++ " repeats component " ++ quotedCharacter letter
  | unknownFunction => "no such runtime function"

end Cause

/-- A failure of the catalog function `function`. -/
structure Fault where
  function : String
  cause : Cause

namespace Fault

def code (f : Fault) : FaultCode := f.cause.code

def message (f : Fault) : String := f.code.name ++ " " ++ f.function ++ ": " ++ f.cause.message

end Fault

/-- Why a computation gave no value: a fault, or a failure from outside the catalog. -/
inductive Failure
  | fault (f : Fault)
  | outside (message : String)
  /-- A place past the end of a list was asked for. -/
  | overrun
  /-- Two things were compared whose type has no equality. -/
  | incomparable (type : String)

namespace Failure

/-- Whether a computation breaks off with this failure, in place of answering with it. -/
def isCrash : Failure → Bool
  | overrun | incomparable _ => true
  | fault _ | outside _ => false

def message : Failure → String
  | fault f => f.message
  | outside text => text
  | overrun => "index out of range"
  | incomparable type => "comparing uncomparable type " ++ type

end Failure

/-- The result of a computation. -/
abbrev Outcome (α : Type) := Except Failure α

/-- A computation that fails with a fault of `function`. -/
def faultOf {α : Type} (function : String) (cause : Cause) : Outcome α :=
  .error (.fault ⟨function, cause⟩)

end ShaderScript
