import ShaderScript.Number.Layout
import ShaderScript.Value.Basic

/-!
# Values as text

How values print: numbers by their shortest digits, vectors and matrices as constructor calls,
arrays in brackets.
-/

namespace ShaderScript

namespace Value

def boolText (b : Bool) : String := if b then "true" else "false"

end Value

namespace Vec

def componentText (kind : ComponentKind) (x : Float) : String :=
  match kind with
  | .bool => Value.boolText (x != 0)
  | _ => floatText x

/-- The vector as a constructor call. -/
def toText (v : Vec) : String :=
  v.typeName ++ "(" ++ ", ".intercalate (v.components.map (componentText v.kind)) ++ ")"

end Vec

namespace Mat

/-- The matrix as a constructor call on its columns. -/
def toText (m : Mat) : String :=
  m.typeName ++ "(" ++ ", ".intercalate (m.columns.map Vec.toText) ++ ")"

end Mat

namespace Sampler

/-- A unit that gives the same texel everywhere, and prints as that texel in braces. -/
def solid (identity : Nat) (color : Vec) : Sampler where
  identity
  label := "&\x7b" ++ color.toText ++ "\x7d"
  plane := some fun _ _ _ => .ok color
  cube := some fun _ _ _ _ => .ok color

end Sampler

namespace Value

mutual

def toText : Value → String
  | void => "void"
  | bool b => boolText b
  | number x => floatText x
  | host _ x => floatText x
  | text s => s
  | vector v => v.toText
  | matrix m => m.toText
  | array elements => "[" ++ ", ".intercalate (allTexts elements) ++ "]"
  | sampler s => s.label

/-- The texts of all values. -/
def allTexts : List Value → List String
  | [] => []
  | v :: vs => toText v :: allTexts vs

end

end Value

end ShaderScript
