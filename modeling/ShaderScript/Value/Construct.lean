import ShaderScript.Value.Operator

/-!
# Constructors

Vectors and matrices from numbers, vectors and matrices.  One scalar fills a vector or the diagonal
of a matrix, one matrix is cut or extended to the size wanted, and any other list of arguments is
read component by component.
-/

namespace ShaderScript

/-- The components of the arguments from `position` on, after those in `taken`.  No argument may
start once `wanted` components are there. -/
def gatherFrom (name : String) (wanted : Nat) : Nat → List Float → List Value → Outcome (List Float)
  | _, taken, [] => .ok taken
  | position, taken, a :: rest =>
    if wanted ≤ taken.length then faultOf name (.unusedArgument position)
    else
      match a with
      | .vector v => gatherFrom name wanted (position + 1) (taken ++ v.components) rest
      | .matrix m => gatherFrom name wanted (position + 1) (taken ++ m.entries) rest
      | _ =>
        match a.scalar? with
        | some x => gatherFrom name wanted (position + 1) (taken ++ [x]) rest
        | none => faultOf name (.cannotConstructFrom (some position) a.typeName)

/-- The first `wanted` components of the arguments in order. -/
def gather (name : String) (wanted : Nat) (args : List Value) : Outcome (List Float) := do
  let taken ← gatherFrom name wanted 1 [] args
  if taken.length < wanted then faultOf name (.tooFewComponents wanted taken.length)
  else return taken.take wanted

def constructVector (name : String) (kind : ComponentKind) (size : Nat) : Function := fun args =>
  match args with
  | [] => faultOf name .noArguments
  | [a] =>
    match a.scalar? with
    | some x => .ok (.vector (.of kind (List.replicate size x)))
    | none => do return .vector (.of kind (← gather name size args))
  | _ => do return .vector (.of kind (← gather name size args))

/-- A matrix cut to a size, or extended by the identity. -/
def Mat.resize (m : Mat) (size : Nat) : Outcome Mat := do
  let entries ← collect
    (fun (column, row) =>
      if column < m.size ∧ row < m.size then m.entry column row
      else .ok (if column = row then 1 else 0))
    (Mat.places size)
  return ⟨size, entries⟩

def constructMatrix (name : String) (size : Nat) : Function := fun args =>
  match args with
  | [] => faultOf name .noArguments
  | [.matrix m] => do return .matrix (← m.resize size)
  | [a] =>
    match a.scalar? with
    | some x => .ok (.matrix (.diagonal size x))
    | none => do return .matrix (.of size (← gather name (size * size) args))
  | _ => do return .matrix (.of size (← gather name (size * size) args))

/-- A scalar constructor: converts a scalar, or the first component of a vector or matrix. -/
def constructScalar (name : String) (convert : Float → Value) : Function := fun args => do
  checkCount name args 1 (some 1)
  match ← fetch args 0 with
  | .vector v => return convert (← fetch v.components 0)
  | .matrix m => return convert (← fetch m.entries 0)
  | a =>
    match a.scalar? with
    | some x => return convert x
    | none => faultOf name (.cannotConstructFrom none a.typeName)

/-- The constructors: the type they make, the name of the catalog function, the function. -/
def constructors : List (String × String × Function) :=
  [("vec2", "Vec2", constructVector "vec2" .float 2),
   ("vec3", "Vec3", constructVector "vec3" .float 3),
   ("vec4", "Vec4", constructVector "vec4" .float 4),
   ("ivec2", "IVec2", constructVector "ivec2" .int 2),
   ("ivec3", "IVec3", constructVector "ivec3" .int 3),
   ("ivec4", "IVec4", constructVector "ivec4" .int 4),
   ("bvec2", "BVec2", constructVector "bvec2" .bool 2),
   ("bvec3", "BVec3", constructVector "bvec3" .bool 3),
   ("bvec4", "BVec4", constructVector "bvec4" .bool 4),
   ("mat2", "Mat2", constructMatrix "mat2" 2),
   ("mat3", "Mat3", constructMatrix "mat3" 3),
   ("mat4", "Mat4", constructMatrix "mat4" 4),
   ("float", "Float", constructScalar "float" .number),
   ("int", "Int", constructScalar "int" fun x => .number (truncate x)),
   ("bool", "Bool", constructScalar "bool" fun x => .bool (x != 0))]

/-- The catalog function that constructs a type. -/
def constructorName? (type : String) : Option String :=
  (constructors.lookup type).map Prod.fst

end ShaderScript
