import ShaderScript.Value.Place

/-!
# Componentwise functions

A function on numbers extends to vectors componentwise (`broadcast`): scalars stand for every
component, vectors must agree in size, and the result takes the kind of the first vector.
-/

namespace ShaderScript

/-- A function on the matching components of every operand. -/
abbrev ScalarFunction := List Float → Outcome Float

namespace ScalarFunction

def unary (f : Float → Float) : ScalarFunction := fun xs => do return f (← fetch xs 0)

def binary (f : Float → Float → Float) : ScalarFunction :=
  fun xs => do return f (← fetch xs 0) (← fetch xs 1)

def ternary (f : Float → Float → Float → Float) : ScalarFunction :=
  fun xs => do return f (← fetch xs 0) (← fetch xs 1) (← fetch xs 2)

/-- A test of two numbers, as 1 or 0. -/
def test (f : Float → Float → Bool) : ScalarFunction :=
  binary fun x y => if f x y then 1 else 0

end ScalarFunction

/-- The shape of a list of operands: the first vector among them, if any. -/
def commonShapeFrom (name : String) : Nat → Option Vec → List Value → Outcome (Option Vec)
  | _, first, [] => .ok first
  | position, first, .vector v :: rest =>
    match first with
    | none => commonShapeFrom name (position + 1) (some v) rest
    | some f =>
      if v.size = f.size then commonShapeFrom name (position + 1) first rest
      else faultOf name (.unlikeSizes f.typeName v.typeName)
  | position, first, a :: rest =>
    if a.scalar?.isSome then commonShapeFrom name (position + 1) first rest
    else faultOf name (.argument position .scalarOrVector a.typeName)

/-- The first vector among the operands.  Operands must be scalars and vectors of one size; the
earliest that is not decides the fault.  Vectors without components count as scalars. -/
def commonShape (name : String) (args : List Value) : Outcome (Option Vec) := do
  return (← commonShapeFrom name 1 none args).filter fun first => 0 < first.size

/-- What a scalar operand contributes to every component. -/
def scalarOperand (a : Value) : Float := a.scalar?.getD 0

/-- What an operand contributes to component `i`. -/
def operandAt (i : Nat) : Value → Outcome Float
  | .vector v => fetch v.components i
  | a => .ok (scalarOperand a)

/-- The results for the components from `i` on; the first that fails decides. -/
def mapComponents (f : ScalarFunction) (args : List Value) : List Nat → Outcome (List Float)
  | [] => .ok []
  | i :: rest => do
    let x ← f (← collect (operandAt i) args)
    let xs ← mapComponents f args rest
    pure (x :: xs)

/-- Applies `f` to scalars, or to every component of the vectors among the operands. -/
def broadcast (name : String) (f : ScalarFunction) (args : List Value) : Outcome Value := do
  match ← commonShape name args with
  | none => return .number (← f (args.map scalarOperand))
  | some first =>
    return .vector (.of first.kind (← mapComponents f args (List.range first.size)))

/-- Like `broadcast` for tests: the result is a truth value or a vector of them. -/
def broadcastTest (name : String) (f : ScalarFunction) (args : List Value) : Outcome Value := do
  match ← commonShape name args with
  | none => return .bool ((← f (args.map scalarOperand)) != 0)
  | some first => return .vector (.of .bool (← mapComponents f args (List.range first.size)))

/-- Checks the number of arguments; `most = none` sets no upper bound. -/
def checkCount (name : String) (args : List Value) (least : Nat) (most : Option Nat) :
    Outcome Unit :=
  if args.length < least then
    if most = some least then faultOf name (.wrongCount least args.length)
    else faultOf name (.tooFew least args.length)
  else
    match most with
    | none => .ok ()
    | some m => if m < args.length then faultOf name (.tooMany m args.length) else .ok ()

end ShaderScript
