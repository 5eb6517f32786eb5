import ShaderScript.Value.Operator

/-!
# Texture look-up

Look-ups of flat textures and of cube maps, with an optional level of detail as the last argument.
-/

namespace ShaderScript

/-- The level of detail; 0 when none is given. -/
def levelOfDetail (name : String) (args : List Value) : Outcome Float :=
  match args[2]? with
  | none => .ok 0
  | some level =>
    match level.scalar? with
    | some x => .ok x
    | none => faultOf name (.argument 3 .float level.typeName)

/-- A texel, or the failure of the texture unit. -/
def texelOf : Except String Vec → Outcome Value
  | .ok texel => .ok (.vector texel)
  | .error message => .error (.outside message)

/-- The look-up of a flat texture.  A projecting one divides by the last coordinate. -/
def lookupPlane (name : String) (project explicitLevel : Bool) : Function := fun args => do
  checkCount name args (if explicitLevel then 3 else 2) (some 3)
  let unit ← fetch args 0
  let plane ←
    match unit with
    | .sampler { plane := some plane, .. } => pure plane
    | _ => faultOf name (.argument 1 .sampler2D unit.typeName)
  let place ← fetch args 1
  match place with
  | .vector v =>
    if (if project then v.size < 3 else v.size ≠ 2) then
      faultOf name (.coordinateSize v.typeName)
    else
      let s ← fetch v.components 0
      let t ← fetch v.components 1
      let level ← levelOfDetail name args
      if project then
        let q ← fetch v.components (v.size - 1)
        texelOf (plane (s / q) (t / q) level)
      else texelOf (plane s t level)
  | _ => faultOf name (.argument 2 .coordinate place.typeName)

def lookupCube (name : String) (explicitLevel : Bool) : Function := fun args => do
  checkCount name args (if explicitLevel then 3 else 2) (some 3)
  let unit ← fetch args 0
  let cube ←
    match unit with
    | .sampler { cube := some cube, .. } => pure cube
    | _ => faultOf name (.argument 1 .samplerCube unit.typeName)
  let place ← fetch args 1
  match place with
  | .vector ⟨_, [x, y, z]⟩ => do
    let level ← levelOfDetail name args
    texelOf (cube x y z level)
  | _ => faultOf name (.argument 2 .direction place.typeName)

def textureFunctions : List (String × Function) :=
  [("texture2D", lookupPlane "texture2D" false false),
   ("texture2DProj", lookupPlane "texture2DProj" true false),
   ("texture2DLod", lookupPlane "texture2DLod" false true),
   ("texture2DProjLod", lookupPlane "texture2DProjLod" true true),
   ("textureCube", lookupCube "textureCube" false),
   ("textureCubeLod", lookupCube "textureCubeLod" true)]

end ShaderScript
