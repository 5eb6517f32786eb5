import ShaderScript.Text.Case
import ShaderScript.Text.Quoted

/-!
# Output styles

A script comes out in one of two dialects.  A style is a dialect with the name by which users and
script engines know it, and the extension of files that hold such scripts.
-/

namespace ShaderScript

/-- The language of a script. -/
inductive Dialect
  | javaScript
  | python
  deriving Repr, DecidableEq, Inhabited

namespace Dialect

def terminator : Dialect → String
  | javaScript => ";"
  | python => ""

/-- What opens the binding of a new local variable. -/
def binding : Dialect → String
  | javaScript => "var "
  | python => ""

def boolText : Dialect → Bool → String
  | javaScript, b => if b then "true" else "false"
  | python, b => if b then "True" else "False"

/-- Whether an assignment may stand inside an expression. -/
def assignsInExpressions : Dialect → Bool
  | javaScript => true
  | python => false

/-- The catalog members whose names are words of the dialect. -/
def reserved : Dialect → List String
  | javaScript => []
  | python => ["not"]

/-- The name under which a script reaches a catalog function. -/
def member (d : Dialect) (name : String) : String :=
  if d.reserved.contains name then name ++ "_" else name

end Dialect

/-- An output style. -/
structure Style where
  name : String
  extension : String
  dialect : Dialect
  deriving Repr, DecidableEq, Inhabited

namespace Style

def javaScript : Style := ⟨"js", ".js", .javaScript⟩

/-- The style for engines of a Python dialect. -/
def python : Style := ⟨"py", ".py", .python⟩

/-- The style with a name, in any case. -/
def ofName? (name : String) : Option Style :=
  let lower := Text.lowerCase name
  if ["js", "javascript"].contains lower then some javaScript
  else if ["py", "python", "starlark"].contains lower then some python
  else none

/-- The text for a name that no style has. -/
def unknownName (name : String) : String :=
  "unknown output style " ++ Text.quoted name ++ " (expected: js|py)"

end Style

end ShaderScript
