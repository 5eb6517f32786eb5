import ShaderScript.Number.Binary64
import ShaderScript.Script.Layout
import ShaderScript.Text.Letter

/-!
# Which scripts load

A script is loaded before it is run.  `Script.loads` tells whether an engine of its dialect accepts
it: no blank where an expression must stand, names and quoted texts that stay whole, jumps inside
loops, and in the Python dialect, where assignments are statements and names are resolved before
anything runs, an assignment to every name that is read.
-/

namespace ShaderScript

open Text

namespace Dialect

/-- Whether a local name is a name of the dialect. -/
def isName (d : Dialect) (name : String) : Bool :=
  match d with
  | .javaScript => name.toList.all isScriptNameChar
  | .python => name.toList.all isPythonNameChar

/-- Whether a text may stand between single quotes as it is. -/
def isQuotable (name : String) : Bool :=
  name.toList.all fun c => c ≠ '\'' ∧ c ≠ '\\' ∧ c ≠ '\n' ∧ c ≠ '\r'

/-- Whether a list of characters holds the end of a comment. -/
def holdsCommentEnd : List Char → Bool
  | '*' :: '/' :: _ => true
  | _ :: rest => holdsCommentEnd rest
  | [] => false

/-- Whether an operator without meaning stays in its comment or text. -/
def keepsToken (d : Dialect) (token : String) : Bool :=
  match d with
  | .javaScript => !holdsCommentEnd (cleanToken token).toList
  | .python => isQuotable (cleanToken token)

/-- Whether a number literal can be read: names of numbers that are none can only be looked up. -/
def readsNumber (d : Dialect) (x : Float) : Bool :=
  match d with
  | .javaScript => true
  | .python => x.isFinite

end Dialect

namespace Expr

/-- Whether an expression is nothing to an engine: blank, or blank behind a comment. -/
def isVoid (d : Dialect) : Expr → Bool
  | blank => true
  | inert token operand =>
    match d with
    | .javaScript => d.keepsToken token && isVoid d operand
    | .python => false
  | _ => false

/-- Whether a comment in front of an expression goes over the end of a line. -/
def breaksLine : Expr → Bool
  | inert token operand =>
    (cleanToken token).toList.any (fun c => c = '\r' ∨ c = '\n' ∨ c = '\u2028' ∨ c = '\u2029') ||
      breaksLine operand
  | _ => false

/-- Whether `return` gives nothing in front of an expression.  In JavaScript the statement ends with
its line, and what stands on the next one is not reached. -/
def returnsNothing (d : Dialect) (value : Expr) : Bool :=
  match d with
  | .javaScript => value.isVoid d || value.breaksLine
  | .python => value.isVoid d

/-- The arguments of a call without the blank after a last comma. -/
def givenArguments (d : Dialect) (args : List Expr) : List Expr :=
  match args.getLast? with
  | some last => if isVoid d last then args.dropLast else args
  | none => []

/-- Whether a variable can be named. -/
def slotLoads (d : Dialect) (known : List String) : Slot → Bool
  | .binding name =>
    match d with
    | .javaScript => d.isName name
    | .python => d.isName name && known.contains name
  | .global name => Dialect.isQuotable name

mutual

/-- Whether an expression loads, given the names that can be resolved. -/
def loads (d : Dialect) (known : List String) : Expr → Bool
  | blank => false
  | read slot => slotLoads d known slot
  | integer _ => true
  | float x => d.readsNumber x
  | index x => d.readsNumber x
  | bool _ => true
  | field selection => Dialect.isQuotable selection
  | bare _ => false
  | invoke _ args => argumentsLoad d known [] args
  | call callee args => slotLoads d known callee && argumentsLoad d known [] args
  | choose condition whenTrue whenFalse =>
    loads d known condition && loads d known whenTrue && loads d known whenFalse
  | inert token operand => d.keepsToken token && loads d known operand
  | write (.binding name) value =>
    d.assignsInExpressions && d.isName name && loads d known value
  | write (.global name) (.write (.binding inner) value) =>
    Dialect.isQuotable name && d.isName inner && loads d known value
  | write (.global name) value =>
    Dialect.isQuotable name && (isVoid d value || loads d known value)

/-- Whether arguments load.  A blank may stand last.  Where assignments are statements, one among
arguments names its argument: no plain argument follows, and no name comes twice. -/
def argumentsLoad (d : Dialect) (known : List String) (named : List String) : List Expr → Bool
  | [] => true
  | .write (.binding name) value :: rest =>
    match d with
    | .javaScript =>
      d.isName name && loads d known value && argumentsLoad d known named rest
    | .python =>
      d.isName name && !named.contains name && loads d known value &&
        argumentsLoad d known (name :: named) rest
  | e :: rest =>
    if isVoid d e then rest.isEmpty
    else named.isEmpty && loads d known e && argumentsLoad d known named rest

end

/-- The name that a parameter binds. -/
def parameterName? (d : Dialect) : Expr → Option String
  | read (.binding name) => if d.isName name then some name else none
  | inert token operand =>
    match d with
    | .javaScript => if d.keepsToken token then parameterName? d operand else none
    | .python => none
  | _ => none

end Expr

namespace Stmt

mutual

/-- The names that a statement binds in its function. -/
def bound (d : Dialect) : Stmt → List String
  | eval (.write (.binding name) _) => if d.assignsInExpressions then [] else [name]
  | declare name _ => [name]
  | branch _ body otherwise =>
    allBound d body ++
      (match otherwise with
      | none => []
      | some other => allBound d other)
  | loop _ body => allBound d body
  | doLoop _ body => allBound d body
  | function name _ _ => [name]
  | _ => []

/-- The names that statements bind in their function. -/
def allBound (d : Dialect) : List Stmt → List String
  | [] => []
  | s :: rest => bound d s ++ allBound d rest

end

/-- The parameters of a function, if they are names the dialect takes. -/
def parameterNames? (d : Dialect) (parameters : List Expr) : Option (List String) := do
  let names ← parameters.mapM (Expr.parameterName? d)
  match d with
  | .javaScript => some names
  | .python => if decide names.Nodup then some names else none

mutual

/-- Whether a statement loads; `looping` tells whether it stands in a loop. -/
def loads (d : Dialect) (known : List String) (looping : Bool) : Stmt → Bool
  | eval (.write (.binding name) value) => d.isName name && value.loads d known
  | eval e => e.isVoid d || e.loads d known
  | declare name initial => d.isName name && (initial.isBlank || initial.loads d known)
  | ret value => value.isVoid d || value.loads d known
  | leave => looping
  | next => looping
  | branch condition body otherwise =>
    condition.loads d known && allLoad d known looping body &&
      (match otherwise with
      | none => true
      | some other => allLoad d known looping other)
  | loop condition body => condition.loads d known && allLoad d known true body
  | doLoop condition body =>
    (match d with
      | .javaScript => condition.loads d known
      | .python => condition.isBlank || condition.loads d known) &&
      allLoad d known true body
  | function name parameters body =>
    d.isName name &&
      match parameterNames? d parameters with
      | none => false
      | some names => allLoad d (names ++ allBound d body ++ known) false body

/-- Whether statements load. -/
def allLoad (d : Dialect) (known : List String) (looping : Bool) : List Stmt → Bool
  | [] => true
  | s :: rest => loads d known looping s && allLoad d known looping rest

end

end Stmt

namespace Script

/-- Whether an engine of a dialect accepts a script. -/
def loads (d : Dialect) (s : Script) : Bool :=
  let known := Stmt.allBound d s.body
  Stmt.allLoad d known false s.body && s.entry.loads d known

end Script

end ShaderScript
