import ShaderScript.Syntax.Dispatch
import ShaderScript.Text.Quoted

/-!
# Assignment targets

A target such as `m[1].yxz` is a base variable with selectors.  `Target.resolve` walks a target and
makes a chain of it: one base, and selectors in order.  Computed subscripts are handed to the caller
as they are met.  `Target.steps` are the steps of such a walk, in order, and `Target.follow` takes
them.
-/

namespace ShaderScript

open Text

/-- Why a node is no assignment target. -/
inductive TargetError
  | emptyTarget
  | unsupported (tag : String) (pos : Position)
  | noBase (tag : String) (pos : Position)
  | secondBase (name first : String)
  | noSubscript (pos : Position)
  | computedSubscript (pos : Position)
  deriving Repr, DecidableEq

/-- Why a shader cannot be lowered. -/
inductive LoweringError
  | noTree
  | declaratorName (pos : Position) (kind : String)
  | noSubscript (pos : Position)
  | notSelector (tag : String) (pos : Position)
  | target (error : TargetError)
  /-- A target whose subscript holds a node that cannot be a target. -/
  | within (error : LoweringError)
  /-- A failure of the caller's own. -/
  | outside (message : String)
  deriving Repr, DecidableEq

namespace TargetError

def detail : TargetError → String
  | emptyTarget => "empty target"
  | unsupported tag pos => unsupportedNodeText "lvalue" tag pos
  | noBase tag pos => tag ++ " at " ++ pos.text ++ " has no base variable"
  | secondBase name first => "second base " ++ quoted name ++ " after " ++ quoted first
  | noSubscript pos => "subscript without index at " ++ pos.text
  | computedSubscript pos => "computed subscript at " ++ pos.text

end TargetError

namespace LoweringError

def message : LoweringError → String
  | noTree => "codegen: shader has no syntax tree"
  | declaratorName pos kind =>
    "codegen: declarator at " ++ pos.text ++ ": name is " ++ kind ++ ", want identifier"
  | noSubscript pos => "codegen: subscript without index at " ++ pos.text
  | notSelector tag pos => "codegen: " ++ tag ++ " at " ++ pos.text ++ " is not a selector"
  | target error => "unsupported assignment target: " ++ error.detail
  | within error => "unsupported assignment target: " ++ error.message
  | outside text => text

/-- Whether the error is about an assignment target. -/
def isTarget : LoweringError → Bool
  | target _ => true
  | within _ => true
  | _ => false

/-- Whether the error comes from a node that there is no rule for. -/
def isUnsupportedNode : LoweringError → Bool
  | target (.unsupported _ _) => true
  | within error => error.isUnsupportedNode
  | _ => false

/-- The error as seen by the target whose subscript raised it. -/
def inTarget (error : LoweringError) : LoweringError :=
  if error.isUnsupportedNode then within error else error

end LoweringError

/-- A step of a flattened target.  `β` is what is kept of a computed subscript. -/
inductive TargetStep (β : Type)
  | base (name : String)
  | index (x : Float)
  | field (selection : String)
  | computed (pos : Position) (subscript : β)
  | bad (error : TargetError)

/-- A selector of a chain.  `γ` is the code of a computed subscript. -/
inductive ChainSelector (γ : Type)
  | index (x : Float)
  | field (selection : String)
  | code (code : γ)

/-- A resolved target: a variable and the selectors applied to it, from the first on. -/
structure Chain (γ : Type) where
  base : String
  selectors : List (ChainSelector γ)

namespace Target

/-- The step of an index selector, whose computed subscript is kept as `kept`. -/
def subscriptStep {β : Type} (pos : Position) (index : Node) (kept : β) : TargetStep β :=
  match index with
  | .integerLiteral _ v => .index (Float.ofInt v)
  | .floatLiteral _ x => .index x
  | .absent => .bad (.noSubscript pos)
  | _ => .computed pos kept

def steps : Node → List (TargetStep Node)
  | .absent => []
  | .identifier _ name => [.base name]
  | .postfixExpression _ (.selector _ selector) e => steps e ++ steps selector
  | .postfixExpression _ (.token _ _) e => steps e
  | .operator (.selector _ selector) => steps selector
  | .operator (.token _ _) => []
  | .indexSelector pos index => [subscriptStep pos index index]
  | .fieldSelector _ selection => [.field selection]
  | .integerLiteral _ v => [.index (Float.ofInt v)]
  | .floatLiteral _ x => [.index x]
  | n => [.bad (.unsupported n.tagName n.pos)]

/-- A chain in the making: the base if it was met, and the selectors so far. -/
structure Partial (γ : Type) where
  base : Option String := none
  selectors : List (ChainSelector γ) := []

section

variable {m : Type → Type} [Monad m] [MonadExceptOf LoweringError m] {β γ : Type}

/-- Takes one step.  Without `emit`, a computed subscript is an error. -/
def advance (emit : Option (β → m γ)) (chain : Partial γ) : TargetStep β → m (Partial γ)
  | .base name =>
    match chain.base with
    | some first => throw (.target (.secondBase name first))
    | none => pure { chain with base := some name }
  | .index x => pure { chain with selectors := chain.selectors ++ [.index x] }
  | .field s => pure { chain with selectors := chain.selectors ++ [.field s] }
  | .bad error => throw (.target error)
  | .computed pos subscript =>
    match emit with
    | none => throw (.target (.computedSubscript pos))
    | some emit => do
      let code ← tryCatch (emit subscript) fun e => throw e.inTarget
      pure { chain with selectors := chain.selectors ++ [.code code] }

/-- Takes the steps in order. -/
def follow (emit : Option (β → m γ)) : List (TargetStep β) → Partial γ → m (Partial γ)
  | [], chain => pure chain
  | step :: rest, chain => do follow emit rest (← advance emit chain step)

/-- Walks a target, with the chain in the making. -/
def walk (emit : Option (Node → m γ)) : Node → Partial γ → m (Partial γ)
  | .absent, chain => pure chain
  | .identifier _ name, chain => advance emit chain (.base name)
  | .postfixExpression _ (.selector _ selector) e, chain => do
    let chain ← walk emit e chain
    walk emit selector chain
  | .postfixExpression _ (.token _ _) e, chain => walk emit e chain
  | .operator (.selector _ selector), chain => walk emit selector chain
  | .operator (.token _ _), chain => pure chain
  | .indexSelector pos index, chain => advance emit chain (subscriptStep pos index index)
  | .fieldSelector _ selection, chain => advance emit chain (.field selection)
  | .integerLiteral _ v, chain => advance emit chain (.index (Float.ofInt v))
  | .floatLiteral _ x, chain => advance emit chain (.index x)
  | n, _ => throw (.target (.unsupported n.tagName n.pos))

/-- The chain when a target was walked. -/
def complete (target : Node) (chain : Partial γ) : m (Chain γ) :=
  match chain.base with
  | some base => pure ⟨base, chain.selectors⟩
  | none => throw (.target (.noBase target.tagName target.pos))

/-- The chain of a target, given its steps. -/
def resolveSteps (target : Node) (steps : List (TargetStep β)) (emit : Option (β → m γ)) :
    m (Chain γ) := do
  if target.isAbsent then throw (.target .emptyTarget)
  else complete target (← follow emit steps {})

def resolve (target : Node) (emit : Option (Node → m γ)) : m (Chain γ) := do
  if target.isAbsent then throw (.target .emptyTarget)
  else complete target (← walk emit target {})

end

end Target

end ShaderScript
