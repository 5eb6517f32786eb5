import ShaderScript.Diagnostic.Basic
import ShaderScript.Script.Layout
import ShaderScript.Script.Target
import ShaderScript.Syntax.Shader
import ShaderScript.Value.Catalog

/-!
# From shaders to scripts

A shader's syntax tree is lowered by visiting it once.  A visit yields the expression for a node,
and appends the statements of the node to the block that is open at that moment: nothing keeps
statement nodes out of expression places, and there their statements come first.

The state of a visit is a `Draft`.  It holds the lines that have been written, and tells how many
blocks are open, whether the node at hand stands directly as a statement, and what has been
reported.  Lines are written as the visit goes along, each at the depth of that moment; a statement
with a body is written line by line, and known as a whole only when its body is.
-/

namespace ShaderScript

open Text

/-- Where the node at hand stands. -/
inductive Standing
  | statement
  | operand
  deriving Repr, DecidableEq, Inhabited

/-- The state of a visit. -/
structure Draft where
  /-- The dialect that lines are written in. -/
  dialect : Dialect := .javaScript
  /-- The statements of the innermost open block. -/
  block : List Stmt := []
  /-- The lines that have been written. -/
  lines : List Line := []
  /-- How many blocks are open: the depth of the next line. -/
  depth : Nat := 0
  standing : Standing := .operand
  /-- What has been reported, in order. -/
  reports : List Diagnostic := []

instance : Inhabited Draft := ⟨{}⟩

/-- A step of lowering: a draft is left also when the step fails. -/
abbrev Lowering := ExceptT LoweringError (StateM Draft)

namespace Lowering

/-- Writes lines at the depth of the moment. -/
def write (texts : List String) : Lowering Unit :=
  modify fun d => { d with lines := d.lines ++ linesAt d.depth texts }

/-- Adds a statement to the open block. -/
def keep (s : Stmt) : Lowering Unit := modify fun d => { d with block := d.block ++ [s] }

/-- Writes a statement that is one line. -/
def emit (s : Stmt) : Lowering Unit := do
  write [s.firstLine (← get).dialect]
  keep s

def report (x : Diagnostic) : Lowering Unit := modify fun d => { d with reports := d.reports ++ [x] }

/-- Runs `body` in a block of its own and gives the block's statements.  A block that got no line is
filled.  The block around it is open again afterwards, also on failure. -/
def nested (body : Lowering Unit) : Lowering (List Stmt) := fun outer =>
  let (result, inner) := body { outer with block := [], depth := outer.depth + 1 }
  let filling :=
    if result.isOk && inner.lines.length == outer.lines.length then inner.dialect.emptyBody else []
  (result.map fun _ => inner.block,
    { inner with
      block := outer.block
      lines := inner.lines ++ linesAt inner.depth filling
      depth := inner.depth - 1 })

/-- Writes a line, and runs `body` in a block of its own behind it. -/
def block (line : String) (body : Lowering Unit) : Lowering (List Stmt) := do
  write [line]
  nested body

/-- Writes a statement around the block of `body`. -/
def enclosed (f : Frame) (body : Lowering Unit) : Lowering Unit := do
  let d := (← get).dialect
  let inner ← block ((f.around []).firstLine d) do
    body
    write (f.bodyEnd d)
  write (f.close d)
  keep (f.around inner)

/-- Writes a branch with two blocks. -/
def choice (test : Expr) (body other : Lowering Unit) : Lowering Unit := do
  let d := (← get).dialect
  let inner ← block (d.branchOpen (test.text d)) body
  let otherwise ← block d.otherwiseOpen other
  write d.blockClose
  keep (.branch test inner (some otherwise))

/-- Runs `step` for a node that stands as given. -/
def standing {α : Type} (s : Standing) (step : Lowering α) : Lowering α := fun outer =>
  let (result, inner) := step { outer with standing := s }
  (result, { inner with standing := outer.standing })

/-- Lowers a node as a statement: an expression that it yields becomes a statement of its own. -/
def asStatement (visit : Lowering Expr) : Lowering Unit := do
  let e ← standing .statement visit
  if e.isBlank then pure () else emit (.eval e)

def asOperand (visit : Lowering Expr) : Lowering Expr := standing .operand visit

/-- Lowers a condition; a missing one is true. -/
def asCondition (condition : Node) (visit : Lowering Expr) : Lowering Expr :=
  if condition.isAbsent then pure (.bool true) else asOperand visit

end Lowering

/-! ## Operators -/

def binaryOperators : List (String × String) :=
  [("==", "op_eq"), ("!=", "op_neq"), ("*", "op_mul"), ("/", "op_div"), ("%", "op_mod"),
   ("+", "op_add"), ("-", "op_sub"), ("<<", "op_shl"), (">>", "op_shr"), ("<", "op_lt"),
   (">", "op_gt"), ("<=", "op_le"), (">=", "op_ge"), ("&", "op_band"), ("^", "op_bxor"),
   ("|", "op_bor"), ("&&", "op_land"), ("^^", "op_lxor"), ("||", "op_lor")]

/-- The assignments, each with the catalog function that is applied before the store. -/
def assignmentOperators : List (String × Option String) :=
  [("=", none), ("+=", some "op_add"), ("-=", some "op_sub"), ("*=", some "op_mul"),
   ("/=", some "op_div"), ("%=", some "op_mod"), ("<<=", some "op_shl"), (">>=", some "op_shr"),
   ("&=", some "op_band"), ("^=", some "op_bxor"), ("|=", some "op_bor")]

def unaryOperators : List (String × String) :=
  [("+", "op_pos"), ("-", "op_neg"), ("~", "op_bnot"), ("!", "op_lnot")]

def stepOperators : List (String × String) := [("++", "op_add"), ("--", "op_sub")]

/-! ## Names -/

/-- What a lowering depends on besides the tree: the style, and which names are global. -/
structure Surroundings where
  style : Style
  isGlobal : String → Bool

namespace Surroundings

/-- The variable that a name stands for.  Local declarations never hide a global. -/
def slot (s : Surroundings) (name : String) : Slot :=
  if s.isGlobal name then .global name else .binding name

/-- A call by name: built-ins first, then operators, constructors and variables. -/
def call (s : Surroundings) (name : String) (args : List Expr) : Expr :=
  if Catalog.isBuiltin name || Catalog.isOperator name then .invoke name args
  else
    match constructorName? name with
    | some member => .invoke member args
    | none => .call (s.slot name) args

end Surroundings

namespace Lowering

/-- Reports an assignment below statement level where the dialect has none. -/
def checkAssignment (s : Surroundings) (pos : Position) (token : String) : Lowering Unit := do
  if s.style.dialect.assignsInExpressions || (← get).standing = .statement then pure ()
  else
    report (.error .assignInExpression pos
      (quoted token ++ " is used as a value; the " ++ s.style.name ++
        " style only supports it as a statement"))

/-- The value of `operand`, with a warning that the operator has no meaning. -/
def inert (token : String) (pos : Position) (operand : Expr) : Lowering Expr := do
  report (.warning .unsupportedOperator pos ("operator " ++ quoted token ++ " has no runtime mapping"))
  pure (.inert token operand)

/-- A selector of a chain as an argument. -/
def selectorArgument : ChainSelector Expr → Expr
  | .index x => .index x
  | .field s => .field s
  | .code e => e

/-- The code that stores `value` into a target.  With `operator`, the value is first combined with
the current one.  A target with selectors is rebuilt and written back to its base. -/
def assign (s : Surroundings) (chain : Chain Expr) (operator : Option String) (value : Expr) :
    Expr :=
  let base := Expr.read (s.slot chain.base)
  let selectors := chain.selectors.map selectorArgument
  let value :=
    match operator with
    | none => value
    | some op =>
      let current := if selectors.isEmpty then base else .invoke "get" (base :: selectors)
      .invoke op [current, value]
  if selectors.isEmpty then .write (s.slot chain.base) value
  else .write (s.slot chain.base) (.invoke "set" (base :: selectors ++ [value]))

/-- Warns of parameters named after globals. -/
def warnGlobalParameters (s : Surroundings) (function : String) : List Node → Lowering Unit
  | [] => pure ()
  | .parameter pos _ name _ _ _ _ :: rest => do
    if s.isGlobal name then
      report (.warning .globalParameter pos
        ("parameter " ++ quoted name ++ " of " ++ function ++
          " is named after a global; reads of it resolve to the environment"))
    warnGlobalParameters s function rest
  | _ :: rest => warnGlobalParameters s function rest

def declare (s : Surroundings) (pos : Position) (name : String) (initial : Expr) :
    Lowering Unit := do
  if s.isGlobal name then
    report (.warning .globalRedeclared pos
      ("local declaration of global " ++ quoted name ++ " stores into the environment"))
    if initial.isBlank then pure () else emit (.eval (.write (.global name) initial))
  else emit (.declare name initial)

end Lowering

/-! ## Visits -/

open Lowering

mutual

/-- Visits a node.  `inside` tells whether it stands in a function. -/
def visit (s : Surroundings) (inside : Bool) : Node → Lowering Expr
  | .absent => pure .blank
  -- statements
  | .program _ statements => do visitStatements s inside statements; pure .blank
  | .scope _ statements => do visitStatements s inside statements; pure .blank
  | .functionDeclaration _ name _ parameters body => do
    let parameterCodes ← visitOperands s true parameters
    warnGlobalParameters s name parameters
    enclosed (.function name (parameterCodes.filter fun p => !p.isBlank))
      (asStatement (visit s true body))
    pure .blank
  | .parameter _ _ name _ _ _ _ => pure (.read (.binding name))
  | .ifStatement _ condition body otherwise => do
    let test ← asCondition condition (visit s inside condition)
    if otherwise.isAbsent then enclosed (.branch test) (asStatement (visit s inside body))
    else
      choice test (asStatement (visit s inside body)) (asStatement (visit s inside otherwise))
    pure .blank
  | .whileStatement _ condition body => do
    let test ← asCondition condition (visit s inside condition)
    enclosed (.loop test) (asStatement (visit s inside body))
    pure .blank
  | .forStatement _ initializer condition increment body => do
    asStatement (visit s inside initializer)
    let test ← asCondition condition (visit s inside condition)
    enclosed (.loop test) do
      asStatement (visit s inside body)
      asStatement (visit s inside increment)
    pure .blank
  | .doStatement _ condition body => do
    let test ← asCondition condition (visit s inside condition)
    enclosed (.doLoop test) (asStatement (visit s inside body))
    pure .blank
  | .returnStatement _ value => do
    emit (.ret (← asOperand (visit s inside value)))
    pure .blank
  | .continueStatement _ => do emit .next; pure .blank
  | .breakStatement _ => do emit .leave; pure .blank
  | .discardStatement _ => do emit (.eval (.invoke "discard" [])); pure .blank
  | .expressionStatement _ e => do asStatement (visit s inside e); pure .blank
  | .declarator _ _ items => do
    if inside then visitStatements s inside items
    pure .blank
  | .declaratorItem pos name initializer => do
    if inside then
      match name with
      | .identifier _ id => declare s pos id (← asOperand (visit s inside initializer))
      | _ => throw (.declaratorName pos name.kindName)
    pure .blank
  -- expressions
  | .functionCall _ name arguments => do
    return s.call name (← visitOperands s inside arguments)
  | .identifier _ name => pure (.read (s.slot name))
  | .integerLiteral _ v => pure (.integer v)
  | .floatLiteral _ x => pure (.float x)
  | .booleanLiteral _ b => pure (.bool b)
  | .operator op => pure (if op.text.isEmpty then .blank else .bare op.text)
  | .ternaryExpression _ condition whenTrue whenFalse => do
    let c ← asOperand (visit s inside condition)
    let t ← asOperand (visit s inside whenTrue)
    let f ← asOperand (visit s inside whenFalse)
    pure (.choose c t f)
  | .binaryExpression pos op left right => do
    match assignmentOperators.lookup op.text with
    | some operator =>
      checkAssignment s pos op.text
      let value ← asOperand (visit s inside right)
      let chain ← Target.resolveSteps left (visitTarget s inside left) (some id)
      pure (assign s chain operator value)
    | none =>
      let l ← asOperand (visit s inside left)
      let r ← asOperand (visit s inside right)
      match binaryOperators.lookup op.text with
      | some member => pure (.invoke member [l, r])
      | none => inert op.text pos r
  | .unaryExpression pos op e => do
    match stepOperators.lookup op.text with
    | some operator =>
      checkAssignment s pos op.text
      let chain ← Target.resolveSteps e (visitTarget s inside e) (some id)
      pure (assign s chain (some operator) (.float 1))
    | none =>
      let operand ← asOperand (visit s inside e)
      match unaryOperators.lookup op.text with
      | some member => pure (.invoke member [operand])
      | none => inert op.text pos operand
  | .postfixExpression _ (.selector _ selector) e => do
    let base ← asOperand (visit s inside e)
    let argument ← visitSelector s inside selector
    pure (.invoke "get" [base, argument])
  | .postfixExpression pos (.token _ token) e => do
    match stepOperators.lookup token with
    | some operator =>
      checkAssignment s pos token
      let chain ← Target.resolveSteps e (visitTarget s inside e) (some id)
      pure (assign s chain (some operator) (.float 1))
    | none =>
      let operand ← asOperand (visit s inside e)
      inert token pos operand
  -- what a script has no use for
  | .preprocessor .. | .macroCall .. | .functionPrototype .. | .invariant .. | .precision ..
  | .structDefinition .. | .type .. | .indexSelector .. | .fieldSelector .. => pure .blank

def visitStatements (s : Surroundings) (inside : Bool) : List Node → Lowering Unit
  | [] => pure ()
  | n :: rest => do
    asStatement (visit s inside n)
    visitStatements s inside rest

def visitOperands (s : Surroundings) (inside : Bool) : List Node → Lowering (List Expr)
  | [] => pure []
  | n :: rest => do
    let e ← asOperand (visit s inside n)
    let es ← visitOperands s inside rest
    pure (e :: es)

def visitSelector (s : Surroundings) (inside : Bool) : Node → Lowering Expr
  | .fieldSelector _ selection => pure (.field selection)
  | .indexSelector pos index =>
    if index.isAbsent then throw (.noSubscript pos) else asOperand (visit s inside index)
  | n => throw (.notSelector n.tagName n.pos)

/-- The steps of an assignment target, with the visits of its computed subscripts. -/
def visitTarget (s : Surroundings) (inside : Bool) : Node → List (TargetStep (Lowering Expr))
  | .absent => []
  | .identifier _ name => [.base name]
  | .postfixExpression _ (.selector _ selector) e =>
    visitTarget s inside e ++ visitTarget s inside selector
  | .postfixExpression _ (.token _ _) e => visitTarget s inside e
  | .operator (.selector _ selector) => visitTarget s inside selector
  | .operator (.token _ _) => []
  | .indexSelector pos index =>
    [Target.subscriptStep pos index (asOperand (visit s inside index))]
  | .fieldSelector _ selection => [.field selection]
  | .integerLiteral _ v => [.index (Float.ofInt v)]
  | .floatLiteral _ x => [.index x]
  | n => [.bad (.unsupported n.tagName n.pos)]

end

/-- Nothing is no statement. -/
theorem asStatement_absent (s : Surroundings) (inside : Bool) :
    asStatement (visit s inside .absent) = pure () := by
  rw [visit]
  rfl

/-! ## Generators -/

/-- A generator lowers shaders one after the other.  Its draft is what the last one left. -/
structure Generator where
  style : Style
  draft : Draft := {}

/-- What a generator made of a shader. -/
structure Generation where
  result : Except LoweringError Script
  /-- The text that was written, if lowering did not fail. -/
  source : String
  /-- What was reported, in order. -/
  reports : List Diagnostic

namespace Generator

def lower (s : Surroundings) (shader : Shader) : Lowering Script := do
  let d := s.style.dialect
  let entry := s.call "main" []
  let body ← block d.scriptOpen do
    write (Script.opening d)
    asStatement (visit s false shader.tree)
    write (Script.ending d shader.debugTrap entry)
  write d.blockClose
  pure ⟨body, shader.debugTrap, entry⟩

/-- The draft that a shader starts from: that of the last one, cleared. -/
def start (g : Generator) : Draft :=
  { g.draft with dialect := g.style.dialect, block := [], lines := [], depth := 0, reports := [] }

/-- Lowers a shader, on the draft that the last one left. -/
def generate (g : Generator) (shader : Option Shader) : Generation × Generator :=
  match shader with
  | none => (⟨.error .noTree, "", []⟩, g)
  | some shader =>
    if shader.tree.isAbsent then (⟨.error .noTree, "", []⟩, g)
    else
      let (result, draft) := lower ⟨g.style, shader.isGlobal⟩ shader g.start
      let source := if result.isOk then Line.joined draft.lines else ""
      (⟨result, source, draft.reports⟩, { g with draft })

/-- Lowers shaders in order with one generator. -/
def generateAll (g : Generator) : List (Option Shader) → List Generation
  | [] => []
  | shader :: rest =>
    let (generation, next) := g.generate shader
    generation :: next.generateAll rest

end Generator

/-- What a fresh generator makes of a shader. -/
def generate (style : Style) (shader : Option Shader) : Generation :=
  (Generator.generate { style } shader).1

end ShaderScript
