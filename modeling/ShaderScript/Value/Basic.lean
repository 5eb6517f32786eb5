import ShaderScript.Number.Binary64

/-!
# Shader values

What a shader program computes with: nothing, booleans, numbers, text (field names), vectors of
two to four components, square matrices, arrays and samplers.

Numbers are doubles.  An environment may also hold numbers of another width (`HostNumber`); they
compute like doubles (`Value.scalar?`) and differ only in how a script engine tests them.
-/

namespace ShaderScript

/-- The component type of a vector. -/
inductive ComponentKind
  | float
  | int
  | bool
  deriving Repr, DecidableEq

namespace ComponentKind

/-- The letter before `vec` in the name of a vector type. -/
def letter : ComponentKind → String
  | float => ""
  | int => "i"
  | bool => "b"

/-- A number as a component of this kind: integers are cut toward zero, booleans are 0 or 1. -/
def normalize : ComponentKind → Float → Float
  | float, x => x
  | int, x => truncate x
  | bool, x => if x != 0 then 1 else 0

end ComponentKind

/-- A vector. -/
structure Vec where
  kind : ComponentKind
  components : List Float

namespace Vec

/-- The vector with the given components, brought to their kind. -/
def of (kind : ComponentKind) (components : List Float) : Vec :=
  ⟨kind, components.map kind.normalize⟩

def ofFloats (components : List Float) : Vec := of .float components

def size (v : Vec) : Nat := v.components.length

/-- The name of the vector's type, such as `ivec3`. -/
def typeName (v : Vec) : String := v.kind.letter ++ "vec" ++ toString v.size

/-- Same kind, same size, equal components. -/
def same (v w : Vec) : Bool :=
  v.kind == w.kind && v.components.length == w.components.length &&
    (v.components.zip w.components).all fun (x, y) => x == y

end Vec

/-- A square matrix; the entries stand column by column. -/
structure Mat where
  size : Nat
  entries : List Float

namespace Mat

/-- The matrix with the given entries; missing ones are zero. -/
def of (size : Nat) (entries : List Float) : Mat :=
  ⟨size, (entries ++ List.replicate (size * size - entries.length) 0).take (size * size)⟩

/-- The places of a matrix, each by column and row, column by column. -/
def places (size : Nat) : List (Nat × Nat) :=
  (List.range size).flatMap fun column => (List.range size).map fun row => (column, row)

/-- `x` along the diagonal. -/
def diagonal (size : Nat) (x : Float) : Mat :=
  ⟨size, (places size).map fun (column, row) => if column = row then x else 0⟩

def identity (size : Nat) : Mat := diagonal size 1

def columns (m : Mat) : List Vec :=
  (List.range m.size).map fun i => Vec.ofFloats ((m.entries.drop (i * m.size)).take m.size)

/-- The name of the matrix's type, such as `mat3`. -/
def typeName (m : Mat) : String := "mat" ++ toString m.size

end Mat

/-- A texture unit.  `plane` looks up a flat texture by `s`, `t` and level of detail, `cube` a cube
map by direction and level of detail; a look-up may fail with a message.  A unit with neither stands
for any other thing that comes from outside. -/
structure Sampler where
  /-- Tells one unit from another. -/
  identity : Nat
  /-- How the unit prints; one without look-ups is also typed by it. -/
  label : String
  plane : Option (Float → Float → Float → Except String Vec)
  cube : Option (Float → Float → Float → Float → Except String Vec)
  /-- The unit's type, where that type has no equality. -/
  incomparable : Option String := none

namespace Sampler

/-- The name of the unit's type; one that serves both look-ups is a cube map. -/
def typeName (s : Sampler) : String :=
  if s.cube.isSome then "samplerCube" else if s.plane.isSome then "sampler2D" else s.label

end Sampler

/-- The widths of numbers, other than doubles, that an environment may hold. -/
inductive HostNumber
  | single
  | word
  | int32
  | int64
  deriving Repr, DecidableEq

/-- A value of a shader program. -/
inductive Value
  | void
  | bool (b : Bool)
  | number (x : Float)
  | host (form : HostNumber) (x : Float)
  | text (s : String)
  | vector (v : Vec)
  | matrix (m : Mat)
  | array (elements : List Value)
  | sampler (s : Sampler)

namespace Value

instance : Inhabited Value := ⟨.void⟩

/-- The number a scalar stands for: true is 1, false is 0. -/
def scalar? : Value → Option Float
  | bool b => some (if b then 1 else 0)
  | number x => some x
  | host _ x => some x
  | _ => none

def typeName : Value → String
  | void => "void"
  | bool _ => "bool"
  | number _ => "float"
  | host _ _ => "float"
  | text _ => "string"
  | vector v => v.typeName
  | matrix m => m.typeName
  | array elements => "array[" ++ toString elements.length ++ "]"
  | sampler s => s.typeName

end Value

end ShaderScript
