import ShaderScript.Syntax.Node

/-!
# Shaders

A shader is a syntax tree with the lists of its global variables.
-/

namespace ShaderScript

/-- A global variable of a shader.  The type may be left out. -/
structure Variable where
  name : String
  type : String := ""
  deriving Repr, DecidableEq

/-- What a descriptor describes. -/
structure Shader where
  tree : Node
  uniforms : List Variable := []
  varyings : List Variable := []
  attributes : List Variable := []
  /-- Whether to stop in a debugger before the shader runs. -/
  debugTrap : Bool := false

namespace Shader

/-- The names of all global variables, in the order of the lists. -/
def globalNames (s : Shader) : List String :=
  (s.uniforms ++ s.varyings ++ s.attributes).map Variable.name

/-- Whether a name is one of a global variable. -/
def isGlobal (s : Shader) (name : String) : Bool := s.globalNames.contains name

end Shader

end ShaderScript
