import ShaderScript.Text.Quoted
import ShaderScript.Value.Text

/-!
# Environments

An environment holds the values of a shader's globals, and a record of every access to them.
-/

namespace ShaderScript

/-- One access to a global.  A read that failed has no value. -/
inductive Access
  | get (name : String) (value : Option Value)
  | set (name : String) (value : Value)

namespace Access

def word : Access → String
  | get .. => "get"
  | set .. => "set"

def name : Access → String
  | get name _ => name
  | set name _ => name

/-- The value read or written; nothing was read by a read that failed. -/
def value : Access → Value
  | get _ value => value.getD .void
  | set _ value => value

def text (a : Access) : String := a.word ++ " " ++ a.name ++ " " ++ a.value.toText

end Access

/-- The globals of a shader and the record of accesses, the first one first. -/
structure Environment where
  values : List (String × Value) := []
  accesses : List Access := []

instance : Inhabited Environment := ⟨{}⟩

namespace Environment

/-- The environment with the given values and an empty record. -/
def ofValues (values : List (String × Value)) : Environment := { values }

/-- The value of a global. -/
def find? (e : Environment) (name : String) : Option Value := e.values.lookup name

/-- The text for a global without a value. -/
def undefinedText (name : String) : String := "undefined global " ++ Text.quoted name

def get (e : Environment) (name : String) : Option Value × Environment :=
  let value := e.find? name
  (value, { e with accesses := e.accesses ++ [.get name value] })

/-- The values with one replaced, or added at the end. -/
def put (name : String) (value : Value) : List (String × Value) → List (String × Value)
  | [] => [(name, value)]
  | (n, v) :: rest => if n = name then (name, value) :: rest else (n, v) :: put name value rest

def set (e : Environment) (name : String) (value : Value) : Environment :=
  { values := put name value e.values, accesses := e.accesses ++ [.set name value] }

/-- The globals with a value, in order. -/
def names (e : Environment) : List String :=
  (e.values.map Prod.fst).mergeSort fun a b => decide (a ≤ b)

/-- The record, one access a line. -/
def transcript (e : Environment) : String := "\n".intercalate (e.accesses.map Access.text)

end Environment

end ShaderScript
