import ShaderScript.Script.Lowering

/-!
# Trees without positions

Positions are carried along for reports and errors only.  `Node.unplaced` takes all positions out of
a tree; errors and reports have a form without positions too.
-/

namespace ShaderScript

mutual

/-- A tree without positions. -/
def Node.unplaced : Node → Node
  | .absent => .absent
  | .program _ statements => .program .unknown (Node.allUnplaced statements)
  | .preprocessor _ directive identifier parameters value guarded =>
    .preprocessor .unknown directive identifier parameters value (Node.allUnplaced guarded)
  | .macroCall _ name parameters => .macroCall .unknown name parameters
  | .functionCall _ name arguments => .functionCall .unknown name (Node.allUnplaced arguments)
  | .functionPrototype _ name returnType parameters =>
    .functionPrototype .unknown name returnType.unplaced (Node.allUnplaced parameters)
  | .functionDeclaration _ name returnType parameters body =>
    .functionDeclaration .unknown name returnType.unplaced (Node.allUnplaced parameters)
      body.unplaced
  | .scope _ statements => .scope .unknown (Node.allUnplaced statements)
  | .ifStatement _ condition body otherwise =>
    .ifStatement .unknown condition.unplaced body.unplaced otherwise.unplaced
  | .forStatement _ initializer condition increment body =>
    .forStatement .unknown initializer.unplaced condition.unplaced increment.unplaced body.unplaced
  | .whileStatement _ condition body => .whileStatement .unknown condition.unplaced body.unplaced
  | .doStatement _ condition body => .doStatement .unknown condition.unplaced body.unplaced
  | .returnStatement _ value => .returnStatement .unknown value.unplaced
  | .continueStatement _ => .continueStatement .unknown
  | .breakStatement _ => .breakStatement .unknown
  | .discardStatement _ => .discardStatement .unknown
  | .expressionStatement _ e => .expressionStatement .unknown e.unplaced
  | .declarator _ type items => .declarator .unknown type.unplaced (Node.allUnplaced items)
  | .declaratorItem _ name initializer =>
    .declaratorItem .unknown name.unplaced initializer.unplaced
  | .invariant _ identifiers => .invariant .unknown (Node.allUnplaced identifiers)
  | .precision _ precision typeName => .precision .unknown precision typeName
  | .parameter _ typeName name typeQualifier parameterQualifier precision arraySize =>
    .parameter .unknown typeName name typeQualifier parameterQualifier precision arraySize.unplaced
  | .structDefinition _ qualifier name members declarators =>
    .structDefinition .unknown qualifier name (Node.allUnplaced members)
      (Node.allUnplaced declarators)
  | .type _ name precision qualifier => .type .unknown name precision qualifier
  | .integerLiteral _ v => .integerLiteral .unknown v
  | .floatLiteral _ x => .floatLiteral .unknown x
  | .booleanLiteral _ b => .booleanLiteral .unknown b
  | .identifier _ name => .identifier .unknown name
  | .operator op => .operator op.unplaced
  | .postfixExpression _ op e => .postfixExpression .unknown op.unplaced e.unplaced
  | .unaryExpression _ op e => .unaryExpression .unknown op.unplaced e.unplaced
  | .binaryExpression _ op left right =>
    .binaryExpression .unknown op.unplaced left.unplaced right.unplaced
  | .ternaryExpression _ condition whenTrue whenFalse =>
    .ternaryExpression .unknown condition.unplaced whenTrue.unplaced whenFalse.unplaced
  | .indexSelector _ index => .indexSelector .unknown index.unplaced
  | .fieldSelector _ selection => .fieldSelector .unknown selection

/-- An operator without positions. -/
def Operator.unplaced : Operator → Operator
  | .token _ text => .token .unknown text
  | .selector _ n => .selector .unknown n.unplaced

/-- Trees without positions. -/
def Node.allUnplaced : List Node → List Node
  | [] => []
  | n :: rest => n.unplaced :: Node.allUnplaced rest

end

/-- A shader without positions. -/
def Shader.unplaced (shader : Shader) : Shader := { shader with tree := shader.tree.unplaced }

/-- A target's error without its position. -/
def TargetError.unplaced : TargetError → TargetError
  | .emptyTarget => .emptyTarget
  | .unsupported tag _ => .unsupported tag .unknown
  | .noBase tag _ => .noBase tag .unknown
  | .secondBase name first => .secondBase name first
  | .noSubscript _ => .noSubscript .unknown
  | .computedSubscript _ => .computedSubscript .unknown

/-- An error without its position. -/
def LoweringError.unplaced : LoweringError → LoweringError
  | .noTree => .noTree
  | .declaratorName _ kind => .declaratorName .unknown kind
  | .noSubscript _ => .noSubscript .unknown
  | .notSelector tag _ => .notSelector tag .unknown
  | .target error => .target error.unplaced
  | .within error => .within error.unplaced
  | .outside message => .outside message

/-- A diagnostic without positions: its severity, code and message, and the messages of its
notes. -/
def Diagnostic.unplaced (d : Diagnostic) : Diagnostic :=
  { d with pos := .unknown, notes := d.notes.map fun note => { note with pos := .unknown } }

/-- What a generator made of a shader, without the positions. -/
def Generation.unplaced (made : Generation) : Generation where
  result := made.result.mapError LoweringError.unplaced
  source := made.source
  reports := made.reports.map Diagnostic.unplaced

@[simp] theorem Node.isAbsent_unplaced (n : Node) : n.unplaced.isAbsent = n.isAbsent := by
  cases n <;> simp only [Node.unplaced, Node.isAbsent]

@[simp] theorem Node.tag?_unplaced (n : Node) : n.unplaced.tag? = n.tag? := by
  cases n <;> simp only [Node.unplaced, Node.tag?]

@[simp] theorem Node.tagName_unplaced (n : Node) : n.unplaced.tagName = n.tagName := by
  simp only [Node.tagName, Node.tag?_unplaced]

@[simp] theorem Operator.text_unplaced (op : Operator) : op.unplaced.text = op.text := by
  cases op <;> simp only [Operator.unplaced, Operator.text]

@[simp] theorem Node.pos_unplaced (n : Node) : n.unplaced.pos = .unknown := by
  cases n with
  | operator op => cases op <;> simp only [Node.unplaced, Operator.unplaced, Node.pos, Operator.pos]
  | _ => simp only [Node.unplaced, Node.pos]

theorem LoweringError.isUnsupportedNode_unplaced (e : LoweringError) :
    e.unplaced.isUnsupportedNode = e.isUnsupportedNode := by
  induction e with
  | target error => cases error <;> rfl
  | within error ih => exact ih
  | _ => rfl

theorem LoweringError.unplaced_inTarget (e : LoweringError) :
    e.inTarget.unplaced = e.unplaced.inTarget := by
  unfold LoweringError.inTarget
  rw [LoweringError.isUnsupportedNode_unplaced]
  split <;> rfl

end ShaderScript
