import ShaderScript.Script.Style

/-!
# Scripts

The programs that shaders are lowered to.  A script is a tree; `Script.Layout` writes it in a
dialect, and `Script.Run` says what it does.

Expressions may be blank: a place of the shader that has no value yields one, and it is written as
nothing at all.
-/

namespace ShaderScript

/-- A variable of a script: a binding of the script itself, or a global of the environment. -/
inductive Slot
  | binding (name : String)
  | global (name : String)
  deriving Repr, DecidableEq, Inhabited

/-- An expression. -/
inductive Expr
  /-- Nothing. -/
  | blank
  | read (slot : Slot)
  | integer (i : Int)
  | float (x : Float)
  /-- A literal subscript of an assignment target. -/
  | index (x : Float)
  | bool (b : Bool)
  /-- A field name. -/
  | field (selection : String)
  /-- An operator that stands alone. -/
  | bare (token : String)
  /-- A call of a catalog function. -/
  | invoke (member : String) (arguments : List Expr)
  /-- A call of what a variable holds. -/
  | call (callee : Slot) (arguments : List Expr)
  | choose (condition whenTrue whenFalse : Expr)
  /-- The value of `operand`, with an operator that has no meaning shown beside it. -/
  | inert (token : String) (operand : Expr)
  /-- The assignment of a variable. -/
  | write (slot : Slot) (value : Expr)

namespace Expr

instance : Inhabited Expr := ⟨.blank⟩

def isBlank : Expr → Bool
  | blank => true
  | _ => false

end Expr

/-- A statement. -/
inductive Stmt
  | eval (e : Expr)
  /-- A new binding; without an initial value it is undefined. -/
  | declare (name : String) (initial : Expr)
  | ret (value : Expr)
  | leave
  | next
  | branch (condition : Expr) (body : List Stmt) (otherwise : Option (List Stmt))
  /-- A loop with the test before its body. -/
  | loop (condition : Expr) (body : List Stmt)
  /-- A loop with the test after its body. -/
  | doLoop (condition : Expr) (body : List Stmt)
  | function (name : String) (parameters : List Expr) (body : List Stmt)

/-- A whole script: a function of the catalog and an environment. -/
structure Script where
  body : List Stmt
  /-- Whether to stop in a debugger before the entry point is called. -/
  trap : Bool
  /-- The call of the entry point. -/
  entry : Expr

end ShaderScript
