import ShaderScript.Value.Broadcast

/-!
# Operators

The operators of the shading language as catalog functions: arithmetic on scalars, vectors and
matrices, integer operators on whole numbers, relations, equality and logic.
-/

namespace ShaderScript

/-- A catalog function without effects. -/
abbrev Function := List Value → Outcome Value

/-- Whether a scalar counts as true. -/
def truth (v : Value) : Outcome Bool :=
  match v with
  | .bool b => .ok b
  | _ =>
    match v.scalar? with
    | some x => .ok (x != 0)
    | none => faultOf "bool" (.notCondition v.typeName)

/-! ## Arithmetic -/

/-- `f` on the entries of a matrix and a matrix of the same size, or a matrix and a scalar. -/
def matrixComponentwise (name : String) (f : Float → Float → Float) : Value → Value → Outcome Value
  | .matrix a, .matrix b =>
    if a.size = b.size then do return .matrix ⟨a.size, ← combine f a.entries b.entries⟩
    else faultOf name (.unlikeSizes a.typeName b.typeName)
  | .matrix a, b =>
    match b.scalar? with
    | some s => .ok (.matrix ⟨a.size, a.entries.map fun x => f x s⟩)
    | none => faultOf name (.cannotCombine a.typeName b.typeName)
  | a, .matrix b =>
    match a.scalar? with
    | some s => .ok (.matrix ⟨b.size, b.entries.map fun x => f s x⟩)
    | none => faultOf name (.cannotCombine a.typeName b.typeName)
  | a, b => faultOf name (.cannotCombine a.typeName b.typeName)

def Value.isMatrix : Value → Bool
  | .matrix _ => true
  | _ => false

/-- An arithmetic operator, componentwise also on matrices. -/
def arithmetic (name : String) (f : Float → Float → Float) : Function := fun args => do
  checkCount name args 2 (some 2)
  match args with
  | [a, b] =>
    if a.isMatrix || b.isMatrix then matrixComponentwise name f a b
    else broadcast name (.binary f) args
  | _ => broadcast name (.binary f) args

/-- The sum of the products of matching numbers, from the first on. -/
def dotProduct (xs ys : List Float) : Outcome Float := do
  return (← combine (· * ·) xs ys).foldl (· + ·) 0

/-- The sum of `n` terms, added up from the first on. -/
def accumulate (n : Nat) (term : Nat → Outcome Float) : Outcome Float :=
  (List.range n).foldlM (fun sum k => do return sum + (← term k)) 0

def Mat.timesColumn (m : Mat) (column : List Float) : Outcome (List Float) :=
  collect (fun row => accumulate m.size fun k => do
    return (← m.entry k row) * (← fetch column k)) (List.range m.size)

def Mat.rowTimes (row : List Float) (m : Mat) : Outcome (List Float) :=
  collect (fun column => accumulate m.size fun k => do
    return (← fetch row k) * (← m.entry column k)) (List.range m.size)

def Mat.times (a b : Mat) : Outcome Mat := do
  let columns ← collect (fun column =>
    collect (fun row => accumulate a.size fun k => do
      return (← a.entry k row) * (← b.entry column k)) (List.range a.size)) (List.range a.size)
  return ⟨a.size, columns.flatten⟩

/-- Multiplication: the products of linear algebra, and componentwise otherwise. -/
def multiply : Function := fun args => do
  checkCount "op_mul" args 2 (some 2)
  match args with
  | [.matrix a, .matrix b] =>
    if a.size = b.size then return .matrix (← a.times b)
    else faultOf "op_mul" (.unlikeSizes a.typeName b.typeName)
  | [.matrix a, .vector v] =>
    if a.size = v.size then return .vector (.ofFloats (← a.timesColumn v.components))
    else faultOf "op_mul" (.unlikeSizes a.typeName v.typeName)
  | [.vector v, .matrix b] =>
    if v.size = b.size then return .vector (.ofFloats (← b.rowTimes v.components))
    else faultOf "op_mul" (.unlikeSizes v.typeName b.typeName)
  | [.matrix a, s] => matrixComponentwise "op_mul" (· * ·) (.matrix a) s
  | [s, .matrix b] => matrixComponentwise "op_mul" (· * ·) s (.matrix b)
  | _ => broadcast "op_mul" (.binary (· * ·)) args

/-! ## Integers -/

/-- A component as an integer; fractions are cut. -/
def toInteger (name : String) (x : Float) : Outcome Int :=
  match truncateToInt64? x with
  | some i => .ok i
  | none => faultOf name (.notInteger x)

/-- An integer operator on 64-bit integers. -/
def integerOperator (name : String) (f : Int → Int → Except Cause Int) : Function := fun args => do
  checkCount name args 2 (some 2)
  let scalar : ScalarFunction := fun xs => do
    let a ← toInteger name (← fetch xs 0)
    let b ← toInteger name (← fetch xs 1)
    match f a b with
    | .ok r => pure (Float.ofInt r)
    | .error cause => faultOf name cause
  broadcast name scalar args

/-- The remainder, with the sign of the dividend. -/
def remainder (a b : Int) : Except Cause Int :=
  if b = 0 then .error .zeroModulus else .ok (Int.tmod a b)

/-- Shift to the left; bits past the 64th are lost. -/
def shiftLeft (a b : Int) : Except Cause Int :=
  if b < 0 then .error .negativeShift
  else .ok (if 64 ≤ b then 0 else wrap64 (a * (Nat.pow 2 b.toNat : Nat)))

/-- Shift to the right; the sign fills from the left. -/
def shiftRight (a b : Int) : Except Cause Int :=
  if b < 0 then .error .negativeShift
  else .ok (if 64 ≤ b then (if a < 0 then -1 else 0) else a >>> b.toNat)

/-- A bitwise operator on the two's complement patterns. -/
def bitwise (f : BitVec 64 → BitVec 64 → BitVec 64) (a b : Int) : Except Cause Int :=
  .ok (f (BitVec.ofInt 64 a) (BitVec.ofInt 64 b)).toInt

/-! ## Relations, equality, logic -/

def relation (name : String) (f : Float → Float → Bool) : Function := fun args => do
  checkCount name args 2 (some 2)
  let a ← fetch args 0
  let b ← fetch args 1
  match a.scalar?, b.scalar? with
  | some x, some y => return .bool (f x y)
  | _, _ => faultOf name (.notScalars a.typeName b.typeName)

/-- Equality of any two values, or its negation. -/
def equality (name : String) (negated : Bool) : Function := fun args => do
  checkCount name args 2 (some 2)
  let equal ← (← fetch args 0).same (← fetch args 1)
  return .bool (equal != negated)

/-- The truth of an operand of a logical operator. -/
def operandTruth (name : String) (side : OperandSide) (v : Value) : Outcome Bool :=
  match truth v with
  | .ok b => .ok b
  | .error _ => faultOf name (.badOperand side v.typeName)

/-- A logical operator; both operands are evaluated. -/
def logical (name : String) (f : Bool → Bool → Bool) : Function := fun args => do
  checkCount name args 2 (some 2)
  let a ← operandTruth name .left (← fetch args 0)
  let b ← operandTruth name .right (← fetch args 1)
  return .bool (f a b)

/-! ## One operand -/

def plus : Function := fun args => do
  checkCount "op_pos" args 1 (some 1)
  match args with
  | [.matrix m] => return .matrix m
  | _ => broadcast "op_pos" (.unary id) args

def negate : Function := fun args => do
  checkCount "op_neg" args 1 (some 1)
  match args with
  | [.matrix m] => return .matrix ⟨m.size, m.entries.map fun x => -x⟩
  | _ => broadcast "op_neg" (.unary fun x => -x) args

def complement : Function := fun args => do
  checkCount "op_bnot" args 1 (some 1)
  broadcast "op_bnot"
    (fun xs => do return Float.ofInt (-(← toInteger "op_bnot" (← fetch xs 0)) - 1)) args

def logicalNot : Function := fun args => do
  checkCount "op_lnot" args 1 (some 1)
  return .bool (!(← operandTruth "op_lnot" .only (← fetch args 0)))

def operators : List (String × Function) :=
  [("op_add", arithmetic "op_add" (· + ·)),
   ("op_sub", arithmetic "op_sub" (· - ·)),
   ("op_div", arithmetic "op_div" (· / ·)),
   ("op_mul", multiply),
   ("op_mod", integerOperator "op_mod" remainder),
   ("op_shl", integerOperator "op_shl" shiftLeft),
   ("op_shr", integerOperator "op_shr" shiftRight),
   ("op_band", integerOperator "op_band" (bitwise (· &&& ·))),
   ("op_bor", integerOperator "op_bor" (bitwise (· ||| ·))),
   ("op_bxor", integerOperator "op_bxor" (bitwise (· ^^^ ·))),
   ("op_lt", relation "op_lt" (· < ·)),
   ("op_gt", relation "op_gt" (· > ·)),
   ("op_le", relation "op_le" (· ≤ ·)),
   ("op_ge", relation "op_ge" (· ≥ ·)),
   ("op_eq", equality "op_eq" false),
   ("op_neq", equality "op_neq" true),
   ("op_land", logical "op_land" (· && ·)),
   ("op_lor", logical "op_lor" (· || ·)),
   ("op_lxor", logical "op_lxor" (· != ·)),
   ("op_pos", plus),
   ("op_neg", negate),
   ("op_bnot", complement),
   ("op_lnot", logicalNot)]

end ShaderScript
