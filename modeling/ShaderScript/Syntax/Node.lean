import ShaderScript.Syntax.Tag

/-!
# Shader syntax trees

A tree comes from an outside parser and nothing constrains which node stands where, so every child
place holds a node of any kind, or `Node.absent`.
-/

namespace ShaderScript

mutual

/-- A node of a shader's syntax tree. -/
inductive Node
  /-- The node of an empty child place. -/
  | absent
  | program (pos : Position) (statements : List Node)
  | preprocessor (pos : Position) (directive identifier : String) (parameters : List String)
      (value : String) (guarded : List Node)
  | macroCall (pos : Position) (name : String) (parameters : List String)
  /-- A call of a user function, a built-in or a constructor. -/
  | functionCall (pos : Position) (name : String) (arguments : List Node)
  | functionPrototype (pos : Position) (name : String) (returnType : Node)
      (parameters : List Node)
  | functionDeclaration (pos : Position) (name : String) (returnType : Node)
      (parameters : List Node) (body : Node)
  | scope (pos : Position) (statements : List Node)
  | ifStatement (pos : Position) (condition body otherwise : Node)
  | forStatement (pos : Position) (initializer condition increment body : Node)
  | whileStatement (pos : Position) (condition body : Node)
  | doStatement (pos : Position) (condition body : Node)
  | returnStatement (pos : Position) (value : Node)
  | continueStatement (pos : Position)
  | breakStatement (pos : Position)
  | discardStatement (pos : Position)
  | expressionStatement (pos : Position) (expression : Node)
  /-- One or more variables declared with one type. -/
  | declarator (pos : Position) (type : Node) (items : List Node)
  | declaratorItem (pos : Position) (name initializer : Node)
  | invariant (pos : Position) (identifiers : List Node)
  | precision (pos : Position) (precision typeName : String)
  | parameter (pos : Position)
      (typeName name typeQualifier parameterQualifier precision : String) (arraySize : Node)
  | structDefinition (pos : Position) (qualifier name : String) (members declarators : List Node)
  | type (pos : Position) (name precision qualifier : String)
  | integerLiteral (pos : Position) (value : Int)
  | floatLiteral (pos : Position) (value : Float)
  | booleanLiteral (pos : Position) (value : Bool)
  | identifier (pos : Position) (name : String)
  | operator (operator : Operator)
  /-- `expr++`, `expr--`, `expr[i]` or `expr.sel`. -/
  | postfixExpression (pos : Position) (operator : Operator) (expression : Node)
  | unaryExpression (pos : Position) (operator : Operator) (expression : Node)
  /-- Plain and compound assignments included. -/
  | binaryExpression (pos : Position) (operator : Operator) (left right : Node)
  | ternaryExpression (pos : Position) (condition whenTrue whenFalse : Node)
  | indexSelector (pos : Position) (index : Node)
  /-- A field or a swizzle such as `xyz`. -/
  | fieldSelector (pos : Position) (selection : String)

/-- An operator: a token such as `+` or `*=`, or a selector behind an expression. -/
inductive Operator
  | token (pos : Position) (text : String)
  | selector (pos : Position) (node : Node)

end

instance : Inhabited Node := ⟨.absent⟩

namespace Operator

def pos : Operator → Position
  | .token pos _ => pos
  | .selector pos _ => pos

/-- The token text; empty for a selector. -/
def text : Operator → String
  | .token _ text => text
  | .selector _ _ => ""

end Operator

namespace Node

def isAbsent : Node → Bool
  | .absent => true
  | _ => false

/-- The tag of a node; an empty place has none. -/
def tag? : Node → Option Tag
  | .absent => none
  | .program .. => some .program
  | .preprocessor .. => some .preprocessor
  | .macroCall .. => some .macroCall
  | .functionCall .. => some .functionCall
  | .functionPrototype .. => some .functionPrototype
  | .functionDeclaration .. => some .functionDeclaration
  | .scope .. => some .scope
  | .ifStatement .. => some .ifStatement
  | .forStatement .. => some .forStatement
  | .whileStatement .. => some .whileStatement
  | .doStatement .. => some .doStatement
  | .returnStatement .. => some .returnStatement
  | .continueStatement .. => some .continueStatement
  | .breakStatement .. => some .breakStatement
  | .discardStatement .. => some .discardStatement
  | .expressionStatement .. => some .expressionStatement
  | .declarator .. => some .declarator
  | .declaratorItem .. => some .declaratorItem
  | .invariant .. => some .invariant
  | .precision .. => some .precision
  | .parameter .. => some .parameter
  | .structDefinition .. => some .structDefinition
  | .type .. => some .type
  | .integerLiteral .. => some .integerLiteral
  | .floatLiteral .. => some .floatLiteral
  | .booleanLiteral .. => some .booleanLiteral
  | .identifier .. => some .identifier
  | .operator .. => some .operator
  | .postfixExpression .. => some .postfixExpression
  | .unaryExpression .. => some .unaryExpression
  | .binaryExpression .. => some .binaryExpression
  | .ternaryExpression .. => some .ternaryExpression
  | .indexSelector .. => some .indexSelector
  | .fieldSelector .. => some .fieldSelector

def tagName (n : Node) : String :=
  match n.tag? with
  | some t => t.name
  | none => "Invalid"

/-- The position of a node; an empty place has none. -/
def pos : Node → Position
  | .absent => .unknown
  | .program p _ => p
  | .preprocessor p .. => p
  | .macroCall p .. => p
  | .functionCall p .. => p
  | .functionPrototype p .. => p
  | .functionDeclaration p .. => p
  | .scope p _ => p
  | .ifStatement p .. => p
  | .forStatement p .. => p
  | .whileStatement p .. => p
  | .doStatement p .. => p
  | .returnStatement p _ => p
  | .continueStatement p => p
  | .breakStatement p => p
  | .discardStatement p => p
  | .expressionStatement p _ => p
  | .declarator p .. => p
  | .declaratorItem p .. => p
  | .invariant p _ => p
  | .precision p .. => p
  | .parameter p .. => p
  | .structDefinition p .. => p
  | .type p .. => p
  | .integerLiteral p _ => p
  | .floatLiteral p _ => p
  | .booleanLiteral p _ => p
  | .identifier p _ => p
  | .operator op => op.pos
  | .postfixExpression p .. => p
  | .unaryExpression p .. => p
  | .binaryExpression p .. => p
  | .ternaryExpression p .. => p
  | .indexSelector p _ => p
  | .fieldSelector p _ => p

/-- The name of a node's kind in messages. -/
def kindName (n : Node) : String :=
  match n.tag? with
  | some t => "*ast." ++ t.name
  | none => "<nil>"

end Node

end ShaderScript
