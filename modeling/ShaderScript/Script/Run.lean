import ShaderScript.Environment
import ShaderScript.Script.Loading
import ShaderScript.Value.Catalog

/-!
# Running scripts

What a script does when an engine of its dialect runs it.  The dialects share one evaluator and
part where the languages do: what counts as true, how names are found, what assignments and missing
arguments mean, and where `continue` goes in a loop with the test at its end.

Runs are bounded by a depth (`fuel`); a run that hits the bound is told apart from all others.
-/

namespace ShaderScript

/-- A function of a script, with the activations around it. -/
structure Closure where
  parameters : List Expr
  body : List Stmt
  /-- The activations that its names are looked up in, the innermost first. -/
  scope : List Nat

/-- What a variable of a script holds. -/
inductive Datum
  | value (v : Value)
  | function (f : Closure)

instance : Inhabited Datum := ⟨.value .void⟩

/-- The variables of an activation; one that was never assigned has no datum. -/
abbrev Activation := List (String × Option Datum)

/-- The state of a run. -/
structure World where
  environment : Environment := {}
  console : Console := {}
  /-- Every activation there was; the first holds names that nothing declares. -/
  activations : Array Activation := #[]

/-- Why a run ended early. -/
inductive Halt
  | interrupt (i : Interrupt)
  | undefinedGlobal (name : String)
  /-- The script itself went wrong: an unknown name, a call of what is no function. -/
  | scriptError
  /-- The bound was hit. -/
  | exhausted

/-- A step of a run. -/
abbrev Running := ExceptT Halt (StateM World)

/-- How a statement ended. -/
inductive Flow
  | normal
  | returned (d : Datum)
  | left
  | next

/-- An argument of a call, by place or by name. -/
structure Argument where
  name : Option String := none
  datum : Datum

namespace Dialect

/-- Whether a datum counts as true. -/
def isTrue (d : Dialect) : Datum → Bool
  | .function _ => true
  | .value v =>
    match v with
    | .void => false
    | .bool b => b
    | .number x =>
      match d with
      | .javaScript => x != 0 && !x.isNaN
      | .python => x != 0
    | .text s => !s.isEmpty
    | _ => true

/-- A value as the script sees it.  Numbers become doubles; in Python only those of 64 bits do. -/
def incoming (d : Dialect) (v : Value) : Datum :=
  match v with
  | .host form x =>
    match d with
    | .javaScript => .value (.number x)
    | .python => if form = .int64 then .value (.number x) else .value v
  | _ => .value v

/-- The type of functions as the catalog sees them. -/
def functionType : String := "func(goja.FunctionCall) goja.Value"

/-- A datum as the catalog and the environment see it; functions have no equality there. -/
def outgoing (d : Dialect) : Datum → Except Halt Value
  | .value v => .ok v
  | .function _ =>
    match d with
    | .javaScript => .ok (.sampler ⟨0, functionType, none, none, some functionType⟩)
    | .python => .error .scriptError

/-- The value of a number literal written with a point. -/
def floatValue (d : Dialect) (x : Float) : Except Halt Float :=
  match d with
  | .javaScript => if x.isInf then .error .scriptError else .ok x
  | .python => if x.isFinite then .ok x else .error .scriptError

/-- The value of a literal subscript; Python has no negative zero among integers. -/
def indexValue (d : Dialect) (x : Float) : Except Halt Float :=
  match d with
  | .javaScript => d.floatValue x
  | .python => if x == 0 then .ok 0 else d.floatValue x

end Dialect

/-- What stands behind the comments in front of an expression. -/
def Expr.pastComments : Expr → Expr
  | .inert _ operand => operand.pastComments
  | e => e

namespace Running

/-! ## Variables -/

/-- The place of a name: the innermost activation that has it. -/
def findActivation (w : World) (name : String) : List Nat → Option Nat
  | [] => none
  | i :: rest =>
    if ((w.activations.getD i []).lookup name).isSome then some i
    else findActivation w name rest

/-- An activation with one variable assigned. -/
def assignIn (name : String) (datum : Datum) : Activation → Activation
  | [] => [(name, some datum)]
  | (n, old) :: rest =>
    if n = name then (n, some datum) :: rest else (n, old) :: assignIn name datum rest

def readVariable (scope : List Nat) (name : String) : Running Datum := do
  let w ← get
  match findActivation w name scope with
  | none => throw .scriptError
  | some i =>
    match (w.activations.getD i []).lookup name with
    | some (some datum) => pure datum
    | _ => throw .scriptError

/-- Assigns a variable of the script; one that nothing declares is declared outermost. -/
def writeVariable (scope : List Nat) (name : String) (datum : Datum) : Running Unit :=
  modify fun w =>
    let i := (findActivation w name scope).getD 0
    { w with activations := w.activations.modify i (assignIn name datum) }

def readGlobal (d : Dialect) (name : String) : Running Datum := do
  let w ← get
  let (value, environment) := w.environment.get name
  set { w with environment }
  match value with
  | some v => pure (d.incoming v)
  | none => throw (.undefinedGlobal name)

def writeGlobal (d : Dialect) (name : String) (datum : Datum) : Running Unit := do
  let value ← d.outgoing datum
  modify fun w => { w with environment := w.environment.set name value }

def readSlot (d : Dialect) (scope : List Nat) : Slot → Running Datum
  | .binding name => readVariable scope name
  | .global name => readGlobal d name

/-! ## Calls -/

/-- Reads what is to be called.  In JavaScript a name that nothing declares only fails when it is
called, after the arguments: until then it stands for no value. -/
def readCallee (d : Dialect) (scope : List Nat) (callee : Slot) : Running Datum := do
  match d, callee with
  | .javaScript, .binding name =>
    if (findActivation (← get) name scope).isNone then pure (.value .void)
    else readVariable scope name
  | _, _ => readSlot d scope callee

def callCatalog (d : Dialect) (member : String) (args : List Argument) : Running Datum := do
  if args.any fun a => a.name.isSome then throw .scriptError
  let values ← args.mapM fun a => (liftExcept (d.outgoing a.datum) : Running Value)
  let w ← get
  let (result, console) := Catalog.call member values w.console
  set { w with console }
  match result with
  | .ok v => pure (d.incoming v)
  | .error i => throw (.interrupt i)
where
  liftExcept {α : Type} (r : Except Halt α) : Running α :=
    match r with
    | .ok a => pure a
    | .error e => throw e

/-- The parameters with their arguments, where arguments are taken in order: missing ones are
undefined, and of two parameters with one name the last counts. -/
def bindInOrder : List String → List Argument → Activation → Activation
  | [], _, a => a
  | p :: ps, args, a =>
    let datum := (args.head?.map Argument.datum).getD (.value .void)
    bindInOrder ps (args.drop 1) (assignIn p datum a)

/-- The parameters with their arguments, where every parameter takes one, by place or by name. -/
def bindExactly (parameters : List String) (args : List Argument) (a : Activation) :
    Option Activation :=
  let (plain, named) := args.span fun x => x.name.isNone
  if parameters.length < plain.length then none
  else
    let a := (parameters.zip plain).foldl (fun a (p, x) => assignIn p x.datum a) a
    let unfilled := parameters.drop plain.length
    if named.all (fun x => unfilled.any fun p => x.name == some p) &&
        named.length == unfilled.length then
      some (named.foldl (fun a x => assignIn (x.name.getD "") x.datum a) a)
    else none

/-- The activation of a function at its start: every name bound in it, with the parameters
assigned. -/
def activation (d : Dialect) (f : Closure) (args : List Argument) : Option Activation := do
  let parameters ← Stmt.parameterNames? d f.parameters
  let names := (parameters ++ Stmt.allBound d f.body).eraseDups
  match d with
  | .javaScript =>
    some (bindInOrder parameters args (names.map fun n => (n, some (.value .void))))
  | .python => bindExactly parameters args (names.map fun n => (n, none))

/-- Adds an activation and gives its number. -/
def enter (a : Activation) : Running Nat :=
  modifyGet fun w => (w.activations.size, { w with activations := w.activations.push a })

end Running

open Running

mutual

def evaluate (d : Dialect) : Nat → List Nat → Expr → Running Datum
  | 0, _, _ => throw .exhausted
  | fuel + 1, scope, e =>
    match e with
    | .blank => throw .scriptError
    | .read slot => readSlot d scope slot
    | .integer i => pure (.value (.number (Float.ofInt i)))
    | .float x => do
      match d.floatValue x with
      | .ok x => pure (.value (.number x))
      | .error h => throw h
    | .index x => do
      match d.indexValue x with
      | .ok x => pure (.value (.number x))
      | .error h => throw h
    | .bool b => pure (.value (.bool b))
    | .field s => pure (.value (.text s))
    | .bare _ => throw .scriptError
    | .invoke member args => do
      callCatalog d member (← evaluateArguments d fuel scope (Expr.givenArguments d args))
    | .call callee args => do
      let f ← readCallee d scope callee
      let args ← evaluateArguments d fuel scope (Expr.givenArguments d args)
      apply d fuel f args
    | .choose condition whenTrue whenFalse => do
      match d, condition.pastComments with
      | .javaScript, .write (.binding name) value =>
        -- The assignment takes the whole choice as its value.
        evaluate d fuel scope (.write (.binding name) (.choose value whenTrue whenFalse))
      | _, _ =>
        if d.isTrue (← evaluate d fuel scope condition) then evaluate d fuel scope whenTrue
        else evaluate d fuel scope whenFalse
    | .inert _ operand => evaluate d fuel scope operand
    | .write (.binding name) value => do
      let datum ← evaluate d fuel scope value
      writeVariable scope name datum
      pure datum
    | .write (.global name) value => do
      let args ← evaluateArguments d fuel scope (Expr.givenArguments d [value])
      match d, args with
      | .javaScript, args =>
        let datum := (args.head?.map Argument.datum).getD (.value .void)
        writeGlobal d name datum
        pure datum
      | .python, [⟨none, datum⟩] =>
        writeGlobal d name datum
        pure (.value .void)
      | .python, _ => throw .scriptError

/-- Evaluates arguments in order.  Where assignments are statements, one names its argument. -/
def evaluateArguments (d : Dialect) : Nat → List Nat → List Expr → Running (List Argument)
  | 0, _, _ => throw .exhausted
  | _ + 1, _, [] => pure []
  | fuel + 1, scope, e :: rest => do
    let first ←
      match d, e with
      | .python, .write (.binding name) value =>
        pure { name := some name, datum := ← evaluate d fuel scope value }
      | _, _ => pure { datum := ← evaluate d fuel scope e }
    let others ← evaluateArguments d fuel scope rest
    pure (first :: others)

def apply (d : Dialect) : Nat → Datum → List Argument → Running Datum
  | 0, _, _ => throw .exhausted
  | _ + 1, .value _, _ => throw .scriptError
  | fuel + 1, .function f, args => do
    match activation d f args with
    | none => throw .scriptError
    | some a =>
      let i ← enter a
      match ← executeAll d fuel (i :: f.scope) f.body with
      | .returned datum => pure datum
      | _ => pure (.value .void)

def execute (d : Dialect) : Nat → List Nat → Stmt → Running Flow
  | 0, _, _ => throw .exhausted
  | fuel + 1, scope, s =>
    match s with
    | .eval e => do
      if e.isVoid d then pure .normal
      else
        let _ ← evaluate d fuel scope e
        pure .normal
    | .declare name initial => do
      if initial.isBlank then
        match d with
        | .javaScript => pure .normal
        | .python =>
          writeVariable scope name (.value .void)
          pure .normal
      else
        writeVariable scope name (← evaluate d fuel scope initial)
        pure .normal
    | .ret value => do
      if value.returnsNothing d then pure (.returned (.value .void))
      else pure (.returned (← evaluate d fuel scope value))
    | .leave => pure .left
    | .next => pure .next
    | .branch condition body otherwise => do
      if d.isTrue (← evaluate d fuel scope condition) then executeAll d fuel scope body
      else
        match otherwise with
        | none => pure .normal
        | some other => executeAll d fuel scope other
    | .loop condition body => repeatWhile d fuel scope condition body
    | .doLoop condition body => repeatUntil d fuel scope condition body
    | .function name parameters body => do
      writeVariable scope name (.function ⟨parameters, body, scope⟩)
      pure .normal

/-- Executes statements up to the first that jumps. -/
def executeAll (d : Dialect) : Nat → List Nat → List Stmt → Running Flow
  | 0, _, _ => throw .exhausted
  | _ + 1, _, [] => pure .normal
  | fuel + 1, scope, s :: rest => do
    match ← execute d fuel scope s with
    | .normal => executeAll d fuel scope rest
    | flow => pure flow

/-- Runs a loop with the test before its body. -/
def repeatWhile (d : Dialect) : Nat → List Nat → Expr → List Stmt → Running Flow
  | 0, _, _, _ => throw .exhausted
  | fuel + 1, scope, condition, body => do
    if d.isTrue (← evaluate d fuel scope condition) then
      match ← executeAll d fuel scope body with
      | .returned datum => pure (.returned datum)
      | .left => pure .normal
      | _ => repeatWhile d fuel scope condition body
    else pure .normal

/-- Runs a loop with the test after its body.  In Python `continue` goes past the test. -/
def repeatUntil (d : Dialect) : Nat → List Nat → Expr → List Stmt → Running Flow
  | 0, _, _, _ => throw .exhausted
  | fuel + 1, scope, condition, body => do
    match ← executeAll d fuel scope body with
    | .returned datum => pure (.returned datum)
    | .left => pure .normal
    | flow =>
      match d, flow with
      | .python, .next => repeatUntil d fuel scope condition body
      | _, _ =>
        if condition.isBlank then pure .normal
        else if d.isTrue (← evaluate d fuel scope condition) then
          repeatUntil d fuel scope condition body
        else pure .normal

end

namespace Script

/-- The bound on the depth of a run. -/
def runFuel : Nat := 100000000

/-- Runs a script: its statements, the trap if there is one, and the entry point. -/
def execute (d : Dialect) (s : Script) : Running Unit := do
  let start := match d with
    | .javaScript => some (Datum.value .void)
    | .python => none
  let i ← enter ((Stmt.allBound d s.body).eraseDups.map fun n => (n, start))
  let scope := [i, 0]
  match ← executeAll d runFuel scope s.body with
  | .returned _ => pure ()
  | _ =>
    if s.trap then
      let _ ← callCatalog d "breakpoint" []
    let _ ← evaluate d runFuel scope s.entry
    pure ()

/-- The outcome of a run, and the world it leaves. -/
def run (d : Dialect) (s : Script) (environment : Environment) (console : Console) :
    Except Halt Unit × World :=
  execute d s { environment, console, activations := #[[]] }

end Script

end ShaderScript
