import ShaderScript.Value.Texture

/-!
# Built-in functions

The functions of the shading language: angles and trigonometry, exponentials, common functions,
geometry, matrices and tests on vectors.
-/

namespace ShaderScript

/-- A componentwise function of a fixed number of arguments. -/
def componentwise (name : String) (count : Nat) (f : ScalarFunction) : Function := fun args => do
  checkCount name args count (some count)
  broadcast name f args

/-- A componentwise test of two arguments. -/
def componentwiseTest (name : String) (f : Float → Float → Bool) : Function := fun args => do
  checkCount name args 2 (some 2)
  broadcastTest name (.test f) args

/-! ## Numbers -/

/-- The circle constant. -/
def pi : Float := 3.14159265358979323846

/-- The sign of a number. -/
def signOf (x : Float) : Float := if x > 0 then 1 else if x < 0 then -1 else 0

def signBit (x : Float) : Bool := x.toBits >>> 63 == 1

/-- The lesser number.  Minus infinity is least even beside no number, and -0 is less than 0. -/
def lesser (x y : Float) : Float :=
  if x == -1.0 / 0 then x
  else if y == -1.0 / 0 then y
  else if x.isNaN then x
  else if y.isNaN then y
  else if x == 0 && y == 0 then (if signBit x then x else y)
  else if x < y then x else y

/-- The greater number.  Infinity is greatest even beside no number, and 0 is greater than -0. -/
def greater (x y : Float) : Float :=
  if x == 1.0 / 0 then x
  else if y == 1.0 / 0 then y
  else if x.isNaN then x
  else if y.isNaN then y
  else if x == 0 && y == 0 then (if signBit x then y else x)
  else if x > y then x else y

/-- `x` held between two bounds. -/
def clampTo (x low high : Float) : Float := lesser (greater x low) high

/-- The clamp function: the bounds must not be crossed. -/
def clampFunction : ScalarFunction := fun xs => do
  let x ← fetch xs 0
  let low ← fetch xs 1
  let high ← fetch xs 2
  if low > high then faultOf "clamp" (.crossedBounds low high)
  else return clampTo x low high

def smoothStep (e0 e1 x : Float) : Float :=
  let t := clampTo ((x - e0) / (e1 - e0)) 0 1
  t * t * (3 - 2 * t)

/-- The arc tangent of one number, or of a ratio of two. -/
def arcTangent : Function := fun args => do
  checkCount "atan" args 1 (some 2)
  if args.length = 2 then broadcast "atan" (.binary Float.atan2) args
  else broadcast "atan" (.unary Float.atan) args

/-! ## Geometry -/

/-- The components of an operand; a scalar is its own only component. -/
def coordinates : Value → List Float
  | .vector v => v.components
  | a => [a.scalar?.getD 0]

/-- Among operands of which one is a vector, none may be a scalar. -/
def requireVectors (name : String) (size : Nat) : Nat → List Value → Outcome Unit
  | _, [] => .ok ()
  | position, .vector _ :: rest => requireVectors name size (position + 1) rest
  | position, a :: _ => faultOf name (.argument position (.vectorOf size) a.typeName)

/-- The coordinates of operands that are all scalars or all vectors of one size. -/
def geometric (name : String) (args : List Value) : Outcome (List (List Float)) := do
  match ← commonShape name args with
  | none => pure ()
  | some first => requireVectors name first.size 1 args
  return args.map coordinates

/-- One coordinate is a scalar, more are a vector. -/
def ofCoordinates : List Float → Value
  | [x] => .number x
  | xs => .vector (.ofFloats xs)

/-- A geometric function of a fixed number of operands. -/
def geometricFunction (name : String) (count : Nat) (f : List (List Float) → Outcome Value) :
    Function := fun args => do
  checkCount name args count (some count)
  f (← geometric name args)

def lengthOf (xs : List Float) : Outcome Float := do return (← dotProduct xs xs).sqrt

def distanceOf (xs ys : List Float) : Outcome Float := do lengthOf (← combine (· - ·) xs ys)

/-- The vector of length 1 in the same direction; zero stays zero. -/
def normalized (xs : List Float) : Outcome (List Float) := do
  let length ← lengthOf xs
  return xs.map fun x => if length != 0 then x / length else 0

/-- `n`, turned away from `i` by the side of `reference`. -/
def faceForward (n i reference : List Float) : Outcome (List Float) := do
  return if (← dotProduct reference i) < 0 then n else n.map fun x => -x

/-- `i` reflected at the surface with normal `n`. -/
def reflected (i n : List Float) : Outcome (List Float) := do
  let d := 2 * (← dotProduct n i)
  combine (fun x y => x - d * y) i n

/-- `i` refracted at the surface with normal `n` and ratio `eta`; zero if it is all reflected. -/
def refracted (eta : Float) (i n : List Float) : Outcome (List Float) := do
  let d ← dotProduct n i
  let k := 1 - eta * eta * (1 - d * d)
  if k ≥ 0 then
    let f := eta * d + k.sqrt
    combine (fun x y => eta * x - f * y) i n
  else return i.map fun _ => 0

def refractFunction : Function := fun args => do
  checkCount "refract" args 3 (some 3)
  let ratio ← fetch args 2
  match ratio.scalar? with
  | none => faultOf "refract" (.argument 3 .float ratio.typeName)
  | some eta =>
    let operands ← geometric "refract" (args.take 2)
    return ofCoordinates (← refracted eta (← fetch operands 0) (← fetch operands 1))

def crossFunction : Function := fun args => do
  checkCount "cross" args 2 (some 2)
  match args with
  | [.vector ⟨_, [a0, a1, a2]⟩, .vector ⟨_, [b0, b1, b2]⟩] =>
    return .vector (.ofFloats [a1 * b2 - a2 * b1, a2 * b0 - a0 * b2, a0 * b1 - a1 * b0])
  | _ =>
    faultOf "cross"
      (.notThreeComponents (← fetch args 0).typeName (← fetch args 1).typeName)

def matrixProduct : Function := fun args => do
  checkCount "matrixCompMult" args 2 (some 2)
  match args with
  | [.matrix a, .matrix b] =>
    matrixComponentwise "matrixCompMult" (· * ·) (.matrix a) (.matrix b)
  | _ =>
    faultOf "matrixCompMult" (.notMatrices (← fetch args 0).typeName (← fetch args 1).typeName)

/-! ## Tests on vectors -/

def vectorFunction (name : String) (f : Vec → Value) : Function := fun args => do
  checkCount name args 1 (some 1)
  match ← fetch args 0 with
  | .vector v => return f v
  | a => faultOf name (.notBoolVector a.typeName)

def Vec.anyTrue (v : Vec) : Bool := v.components.any (· != 0)

/-- Whether no component is zero. -/
def Vec.allTrue (v : Vec) : Bool := v.components.all (· != 0)

/-- The components negated. -/
def Vec.negated (v : Vec) : Vec := .of .bool (v.components.map fun x => if x == 0 then 1 else 0)

def builtins : List (String × Function) :=
  [("radians", componentwise "radians" 1 (.unary fun x => x / 180 * pi)),
   ("degrees", componentwise "degrees" 1 (.unary fun x => x / pi * 180)),
   ("sin", componentwise "sin" 1 (.unary Float.sin)),
   ("cos", componentwise "cos" 1 (.unary Float.cos)),
   ("tan", componentwise "tan" 1 (.unary Float.tan)),
   ("asin", componentwise "asin" 1 (.unary Float.asin)),
   ("acos", componentwise "acos" 1 (.unary Float.acos)),
   ("atan", arcTangent),
   ("pow", componentwise "pow" 2 (.binary Float.pow)),
   ("exp", componentwise "exp" 1 (.unary Float.exp)),
   ("log", componentwise "log" 1 (.unary Float.log)),
   ("exp2", componentwise "exp2" 1 (.unary Float.exp2)),
   ("log2", componentwise "log2" 1 (.unary Float.log2)),
   ("sqrt", componentwise "sqrt" 1 (.unary Float.sqrt)),
   ("inversesqrt", componentwise "inversesqrt" 1 (.unary fun x => 1 / x.sqrt)),
   ("abs", componentwise "abs" 1 (.unary Float.abs)),
   ("sign", componentwise "sign" 1 (.unary signOf)),
   ("floor", componentwise "floor" 1 (.unary Float.floor)),
   ("ceil", componentwise "ceil" 1 (.unary Float.ceil)),
   ("fract", componentwise "fract" 1 (.unary fun x => x - x.floor)),
   ("mod", componentwise "mod" 2 (.binary fun x y => x - y * (x / y).floor)),
   ("min", componentwise "min" 2 (.binary lesser)),
   ("max", componentwise "max" 2 (.binary greater)),
   ("clamp", componentwise "clamp" 3 clampFunction),
   ("mix", componentwise "mix" 3 (.ternary fun x y a => x * (1 - a) + y * a)),
   ("step", componentwise "step" 2 (.binary fun edge x => if x < edge then 0 else 1)),
   ("smoothstep", componentwise "smoothstep" 3 (.ternary smoothStep)),
   ("length", geometricFunction "length" 1 fun xs => do
      return .number (← lengthOf (← fetch xs 0))),
   ("distance", geometricFunction "distance" 2 fun xs => do
      return .number (← distanceOf (← fetch xs 0) (← fetch xs 1))),
   ("dot", geometricFunction "dot" 2 fun xs => do
      return .number (← dotProduct (← fetch xs 0) (← fetch xs 1))),
   ("cross", crossFunction),
   ("normalize", geometricFunction "normalize" 1 fun xs => do
      return ofCoordinates (← normalized (← fetch xs 0))),
   ("faceforward", geometricFunction "faceforward" 3 fun xs => do
      return ofCoordinates (← faceForward (← fetch xs 0) (← fetch xs 1) (← fetch xs 2))),
   ("reflect", geometricFunction "reflect" 2 fun xs => do
      return ofCoordinates (← reflected (← fetch xs 0) (← fetch xs 1))),
   ("refract", refractFunction),
   ("matrixCompMult", matrixProduct),
   ("lessThan", componentwiseTest "lessThan" (· < ·)),
   ("lessThanEqual", componentwiseTest "lessThanEqual" (· ≤ ·)),
   ("greaterThan", componentwiseTest "greaterThan" (· > ·)),
   ("greaterThanEqual", componentwiseTest "greaterThanEqual" (· ≥ ·)),
   ("equal", componentwiseTest "equal" (· == ·)),
   ("notEqual", componentwiseTest "notEqual" (· != ·)),
   ("any", vectorFunction "any" fun v => .bool v.anyTrue),
   ("all", vectorFunction "all" fun v => .bool v.allTrue),
   ("not", vectorFunction "not" fun v => .vector v.negated)] ++ textureFunctions

end ShaderScript
