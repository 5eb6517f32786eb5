import ShaderScript.Number.Layout

/-!
# Node tags and positions

Every node of a shader's syntax tree has a tag, by which a descriptor names it, and a position,
which a parser may leave out.
-/

namespace ShaderScript

/-- Where a node stands in the shader's source.  A line that is not positive means "unknown". -/
structure Position where
  line : Int := 0
  col : Int := 0
  deriving Repr, DecidableEq, Inhabited

namespace Position

/-- No position. -/
def unknown : Position := {}

/-- Whether the parser gave the position. -/
def isKnown (p : Position) : Bool := 0 < p.line

/-- `line:col`, or a hyphen. -/
def text (p : Position) : String :=
  if p.isKnown then intText p.line ++ ":" ++ intText p.col else "-"

end Position

/-- The kinds of syntax tree nodes. -/
inductive Tag
  | program
  | preprocessor
  | macroCall
  | functionCall
  | functionPrototype
  | functionDeclaration
  | scope
  | ifStatement
  | forStatement
  | whileStatement
  | doStatement
  | returnStatement
  | continueStatement
  | breakStatement
  | discardStatement
  | expressionStatement
  | declarator
  | declaratorItem
  | invariant
  | precision
  | parameter
  | structDefinition
  | type
  | integerLiteral
  | floatLiteral
  | booleanLiteral
  | identifier
  | operator
  | postfixExpression
  | unaryExpression
  | binaryExpression
  | ternaryExpression
  | indexSelector
  | fieldSelector
  deriving Repr, DecidableEq, Inhabited

namespace Tag

/-- Every tag in order. -/
def all : List Tag :=
  [.program, .preprocessor, .macroCall, .functionCall, .functionPrototype,
   .functionDeclaration, .scope, .ifStatement, .forStatement, .whileStatement, .doStatement,
   .returnStatement, .continueStatement, .breakStatement, .discardStatement,
   .expressionStatement, .declarator, .declaratorItem, .invariant, .precision, .parameter,
   .structDefinition, .type, .integerLiteral, .floatLiteral, .booleanLiteral, .identifier,
   .operator, .postfixExpression, .unaryExpression, .binaryExpression, .ternaryExpression,
   .indexSelector, .fieldSelector]

/-- The name by which descriptors call a tag. -/
def name : Tag → String
  | .program => "Program"
  | .preprocessor => "Preprocessor"
  | .macroCall => "MacroCall"
  | .functionCall => "FunctionCall"
  | .functionPrototype => "FunctionPrototype"
  | .functionDeclaration => "FunctionDeclaration"
  | .scope => "Scope"
  | .ifStatement => "IfStatement"
  | .forStatement => "ForStatement"
  | .whileStatement => "WhileStatement"
  | .doStatement => "DoStatement"
  | .returnStatement => "ReturnStatement"
  | .continueStatement => "ContinueStatement"
  | .breakStatement => "BreakStatement"
  | .discardStatement => "DiscardStatement"
  | .expressionStatement => "ExpressionStatement"
  | .declarator => "Declarator"
  | .declaratorItem => "DeclaratorItem"
  | .invariant => "Invariant"
  | .precision => "Precision"
  | .parameter => "Parameter"
  | .structDefinition => "StructDefinition"
  | .type => "Type"
  | .integerLiteral => "IntegerLiteral"
  | .floatLiteral => "FloatLiteral"
  | .booleanLiteral => "BooleanLiteral"
  | .identifier => "Identifier"
  | .operator => "Operator"
  | .postfixExpression => "PostfixExpression"
  | .unaryExpression => "UnaryExpression"
  | .binaryExpression => "BinaryExpression"
  | .ternaryExpression => "TernaryExpression"
  | .indexSelector => "IndexSelector"
  | .fieldSelector => "FieldSelector"

def ofName? (name : String) : Option Tag := all.find? fun t => t.name = name

/-- The number of a tag, counted from one. -/
def number (t : Tag) : Nat := all.idxOf t + 1

/-- The name shown for a tag number; zero is the number of no tag. -/
def nameOfNumber (n : Nat) : String :=
  if n = 0 then "Invalid"
  else match all[n - 1]? with
    | some t => t.name
    | none => "Tag(" ++ natText n ++ ")"

end Tag

end ShaderScript
