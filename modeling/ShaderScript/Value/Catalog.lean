import ShaderScript.Value.Builtin
import ShaderScript.Value.Construct
import ShaderScript.Value.Select
import ShaderScript.Value.Text

/-!
# The catalog

Every function a generated script may call, by name.  Most are plain functions of values; four act
on the invocation: `print` writes a line, `breakpoint` calls the debugger, `discard` ends the
invocation, and all else leaves it alone.
-/

namespace ShaderScript

/-- What happens at a breakpoint. -/
inductive BreakpointPolicy
  | ignore
  | count
  | stop
  deriving Repr, DecidableEq

/-- The side of an invocation that the catalog acts on. -/
structure Console where
  /-- Whether printed lines are kept. -/
  listening : Bool := true
  breakpoints : BreakpointPolicy := .ignore
  /-- What has been printed. -/
  output : String := ""
  /-- How many breakpoints were reached. -/
  hits : Nat := 0

/-- Why an invocation ended early. -/
inductive Interrupt
  | failed (failure : Failure)
  | discarded
  | stopped

/-- What a catalog name stands for. -/
inductive CatalogEntry
  | computes (f : Function)
  | prints
  | discards
  | breaks

namespace Catalog

def functions : List (String × Function) :=
  builtins ++ operators ++ constructors.map (fun (_, name, f) => (name, f)) ++
    [("get", getFunction), ("set", setFunction)]

def entries : List (String × CatalogEntry) :=
  functions.map (fun (name, f) => (name, .computes f)) ++
    [("print", .prints), ("discard", .discards), ("breakpoint", .breaks)]

def find? (name : String) : Option CatalogEntry := entries.lookup name

/-- Every name in the catalog, in order. -/
def names : List String := (entries.map Prod.fst).mergeSort fun a b => decide (a ≤ b)

/-- Whether a name is a built-in function of the shading language. -/
def isBuiltin (name : String) : Bool := name == "print" || (builtins.lookup name).isSome

def isOperator (name : String) : Bool := (operators.lookup name).isSome

/-- The console after one more printed line. -/
def printLine (console : Console) (args : List Value) : Console :=
  if console.listening then
    { console with output := console.output ++ " ".intercalate (Value.allTexts args) ++ "\n" }
  else console

/-- What happens when a breakpoint is reached. -/
def reachBreakpoint (console : Console) : Except Interrupt Value × Console :=
  match console.breakpoints with
  | .ignore => (.ok .void, console)
  | .count => (.ok .void, { console with hits := console.hits + 1 })
  | .stop => (.error .stopped, { console with hits := console.hits + 1 })

/-- What an entry does with its arguments. -/
def CatalogEntry.apply (entry : CatalogEntry) (args : List Value) (console : Console) :
    Except Interrupt Value × Console :=
  match entry with
  | .computes f =>
    match f args with
    | .ok v => (.ok v, console)
    | .error failure => (.error (.failed failure), console)
  | .prints => (.ok (args.headD .void), printLine console args)
  | .discards => (.error .discarded, console)
  | .breaks => reachBreakpoint console

def call (name : String) (args : List Value) (console : Console) :
    Except Interrupt Value × Console :=
  match find? name with
  | some entry => CatalogEntry.apply entry args console
  | none => (.error (.failed (.fault ⟨name, .unknownFunction⟩)), console)

end Catalog

end ShaderScript
