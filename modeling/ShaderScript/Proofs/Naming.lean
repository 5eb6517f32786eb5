import ShaderScript.Script.Lowering

/-!
# New names

A naming gives new names to the variables of a tree.  Functions keep theirs, and calls are by the
names of functions.  A naming suits the surroundings of a tree if globals keep their names and other
names do not become global.
-/

namespace ShaderScript

/-- New names for variables. -/
abbrev Naming := String → String

/-! ## Trees -/

/-- The name in a declaration, renamed.  Only an identifier is one. -/
def Node.renameName (f : String → String) : Node → Node
  | .identifier pos name => .identifier pos (f name)
  | n => n

mutual

/-- A tree renamed. -/
def Node.rename (ν : Naming) : Node → Node
  | .absent => .absent
  | .program pos statements => .program pos (Node.renameAll ν statements)
  | .preprocessor pos directive identifier parameters value guarded =>
    .preprocessor pos directive identifier parameters value guarded
  | .macroCall pos name parameters => .macroCall pos name parameters
  | .functionCall pos name arguments => .functionCall pos name (Node.renameAll ν arguments)
  | .functionPrototype pos name returnType parameters =>
    .functionPrototype pos name returnType parameters
  | .functionDeclaration pos name returnType parameters body =>
    .functionDeclaration pos name returnType (Node.renameAll ν parameters) (body.rename ν)
  | .scope pos statements => .scope pos (Node.renameAll ν statements)
  | .ifStatement pos condition body otherwise =>
    .ifStatement pos (condition.rename ν) (body.rename ν) (otherwise.rename ν)
  | .forStatement pos initializer condition increment body =>
    .forStatement pos (initializer.rename ν) (condition.rename ν) (increment.rename ν)
      (body.rename ν)
  | .whileStatement pos condition body => .whileStatement pos (condition.rename ν) (body.rename ν)
  | .doStatement pos condition body => .doStatement pos (condition.rename ν) (body.rename ν)
  | .returnStatement pos value => .returnStatement pos (value.rename ν)
  | .continueStatement pos => .continueStatement pos
  | .breakStatement pos => .breakStatement pos
  | .discardStatement pos => .discardStatement pos
  | .expressionStatement pos e => .expressionStatement pos (e.rename ν)
  | .declarator pos type items => .declarator pos type (Node.renameAll ν items)
  | .declaratorItem pos name initializer =>
    .declaratorItem pos (name.renameName ν) (initializer.rename ν)
  | .invariant pos identifiers => .invariant pos identifiers
  | .precision pos precision typeName => .precision pos precision typeName
  | .parameter pos typeName name typeQualifier parameterQualifier precision arraySize =>
    .parameter pos typeName (ν name) typeQualifier parameterQualifier precision arraySize
  | .structDefinition pos qualifier name members declarators =>
    .structDefinition pos qualifier name members declarators
  | .type pos name precision qualifier => .type pos name precision qualifier
  | .integerLiteral pos v => .integerLiteral pos v
  | .floatLiteral pos x => .floatLiteral pos x
  | .booleanLiteral pos b => .booleanLiteral pos b
  | .identifier pos name => .identifier pos (ν name)
  | .operator op => .operator (op.rename ν)
  | .postfixExpression pos op e => .postfixExpression pos (op.rename ν) (e.rename ν)
  | .unaryExpression pos op e => .unaryExpression pos (op.rename ν) (e.rename ν)
  | .binaryExpression pos op left right =>
    .binaryExpression pos (op.rename ν) (left.rename ν) (right.rename ν)
  | .ternaryExpression pos condition whenTrue whenFalse =>
    .ternaryExpression pos (condition.rename ν) (whenTrue.rename ν) (whenFalse.rename ν)
  | .indexSelector pos index => .indexSelector pos (index.rename ν)
  | .fieldSelector pos selection => .fieldSelector pos selection

/-- An operator renamed. -/
def Operator.rename (ν : Naming) : Operator → Operator
  | .token pos text => .token pos text
  | .selector pos n => .selector pos (n.rename ν)

/-- Trees renamed. -/
def Node.renameAll (ν : Naming) : List Node → List Node
  | [] => []
  | n :: rest => n.rename ν :: Node.renameAll ν rest

end

theorem Node.isAbsent_rename (ν : Naming) (n : Node) : (n.rename ν).isAbsent = n.isAbsent := by
  cases n <;> simp only [Node.rename, Node.isAbsent]

theorem Operator.text_rename (ν : Naming) (op : Operator) : (op.rename ν).text = op.text := by
  cases op <;> simp only [Operator.rename, Operator.text]

theorem Node.rename_id : ∀ n : Node, n.rename id = n := by
  apply @Node.rec (fun n => n.rename id = n) (fun op => op.rename id = op)
    (fun ns => Node.renameAll id ns = ns)
  case declaratorItem =>
    intro pos name initializer _ ih
    rw [Node.rename, ih]
    cases name <;> rfl
  all_goals
    intros
    simp_all only [Node.rename, Operator.rename, Node.renameAll, id_eq]

/-! ## Scripts -/

/-- A variable renamed. -/
def Slot.rename (ν : Naming) : Slot → Slot
  | .binding name => .binding (ν name)
  | .global name => .global name

mutual

/-- An expression renamed. -/
def Expr.rename (ν : Naming) : Expr → Expr
  | .blank => .blank
  | .read slot => .read (slot.rename ν)
  | .integer i => .integer i
  | .float x => .float x
  | .index x => .index x
  | .bool b => .bool b
  | .field selection => .field selection
  | .bare token => .bare token
  | .invoke member args => .invoke member (Expr.renameAll ν args)
  | .call callee args => .call callee (Expr.renameAll ν args)
  | .choose condition whenTrue whenFalse =>
    .choose (condition.rename ν) (whenTrue.rename ν) (whenFalse.rename ν)
  | .inert token operand => .inert token (operand.rename ν)
  | .write slot value => .write (slot.rename ν) (value.rename ν)

/-- Expressions renamed. -/
def Expr.renameAll (ν : Naming) : List Expr → List Expr
  | [] => []
  | e :: rest => e.rename ν :: Expr.renameAll ν rest

end

mutual

/-- A statement renamed. -/
def Stmt.rename (ν : Naming) : Stmt → Stmt
  | .eval e => .eval (e.rename ν)
  | .declare name initial => .declare (ν name) (initial.rename ν)
  | .ret value => .ret (value.rename ν)
  | .leave => .leave
  | .next => .next
  | .branch condition body none =>
    .branch (condition.rename ν) (Stmt.renameAll ν body) none
  | .branch condition body (some other) =>
    .branch (condition.rename ν) (Stmt.renameAll ν body) (some (Stmt.renameAll ν other))
  | .loop condition body => .loop (condition.rename ν) (Stmt.renameAll ν body)
  | .doLoop condition body => .doLoop (condition.rename ν) (Stmt.renameAll ν body)
  | .function name parameters body =>
    .function name (Expr.renameAll ν parameters) (Stmt.renameAll ν body)

/-- Statements renamed. -/
def Stmt.renameAll (ν : Naming) : List Stmt → List Stmt
  | [] => []
  | s :: rest => s.rename ν :: Stmt.renameAll ν rest

end

theorem Expr.renameAll_eq_map (ν : Naming) (es : List Expr) :
    Expr.renameAll ν es = es.map (Expr.rename ν) := by
  induction es with
  | nil => rfl
  | cons e es ih => rw [Expr.renameAll, ih, List.map_cons]

theorem Stmt.renameAll_eq_map (ν : Naming) (stmts : List Stmt) :
    Stmt.renameAll ν stmts = stmts.map (Stmt.rename ν) := by
  induction stmts with
  | nil => rfl
  | cons s stmts ih => rw [Stmt.renameAll, ih, List.map_cons]

theorem Stmt.renameAll_append (ν : Naming) (first second : List Stmt) :
    Stmt.renameAll ν (first ++ second) = Stmt.renameAll ν first ++ Stmt.renameAll ν second := by
  simp only [Stmt.renameAll_eq_map, List.map_append]

theorem Expr.isBlank_rename (ν : Naming) (e : Expr) :
    (e.rename ν).isBlank = e.isBlank := by
  cases e <;> rfl

/-- Renaming nothing changes nothing. -/
theorem Expr.rename_id :
    (∀ e : Expr, e.rename id = e) ∧ ∀ es : List Expr, Expr.renameAll id es = es := by
  have hslot : ∀ slot : Slot, slot.rename id = slot := by
    intro slot
    cases slot <;> rfl
  refine Expr.rename.mutual_induct _ _ ?blank ?read ?integer ?float ?index ?bool ?field ?bare
    ?invoke ?call ?choose ?inert ?write ?nil ?cons
  all_goals
    intros
    simp_all only [Expr.rename, Expr.renameAll]

theorem Stmt.renameAll_id (stmts : List Stmt) : Stmt.renameAll id stmts = stmts := by
  refine (Stmt.rename.mutual_induct (fun s => s.rename id = s)
    (fun stmts => Stmt.renameAll id stmts = stmts) ?_ ?_ ?_ ?_ ?_ ?_ ?_ ?_ ?_ ?_ ?_ ?_).2 stmts
  all_goals
    intros
    simp_all only [Stmt.rename, Stmt.renameAll, Expr.rename_id, id_eq]

/-! ## Names in their surroundings -/

/-- A naming suits the surroundings of a tree: globals keep their names, and other names do not
become global. -/
structure Naming.Suits (ν : Naming) (s : Surroundings) : Prop where
  keeps : ∀ n, s.isGlobal n = true → ν n = n
  binding : ∀ n, s.isGlobal n = false → s.isGlobal (ν n) = false

theorem Naming.suits_id (s : Surroundings) : Naming.Suits id s := ⟨fun _ _ => rfl, fun _ hn => hn⟩

/-- A call by a name is by the same name afterwards. -/
theorem Surroundings.call_rename (s : Surroundings) (ν : Naming) (name : String)
    (args : List Expr) : s.call name (Expr.renameAll ν args) = (s.call name args).rename ν := by
  unfold Surroundings.call
  split
  · rfl
  · split <;> rfl

namespace Naming.Suits

variable {ν : Naming} {s : Surroundings} (h : ν.Suits s)

include h

theorem isGlobal_eq (n : String) : s.isGlobal (ν n) = s.isGlobal n := by
  cases hn : s.isGlobal n with
  | true => rw [h.keeps n hn, hn]
  | false => exact h.binding n hn

theorem slot_eq (n : String) : s.slot (ν n) = (s.slot n).rename ν := by
  unfold Surroundings.slot
  rw [h.isGlobal_eq]
  split
  · rename_i hn
    rw [h.keeps n hn]
    rfl
  · rfl

end Naming.Suits

namespace Lowering

/-- A selector of a chain renamed. -/
def renameSelector (ν : Naming) : ChainSelector Expr → ChainSelector Expr
  | .index x => .index x
  | .field selection => .field selection
  | .code e => .code (e.rename ν)

/-- The code that stores into a renamed target is the renamed code. -/
theorem assign_rename {s : Surroundings} {ν : Naming} (hν : ν.Suits s) (chain : Chain Expr)
    (operator : Option String) (value : Expr) :
    assign s ⟨ν chain.base, chain.selectors.map (renameSelector ν)⟩ operator
      (value.rename ν) = (assign s chain operator value).rename ν := by
  have hselectors : (chain.selectors.map (renameSelector ν)).map selectorArgument =
      Expr.renameAll ν (chain.selectors.map selectorArgument) := by
    rw [Expr.renameAll_eq_map, List.map_map, List.map_map]
    refine List.map_congr_left fun selector _ => ?_
    cases selector <;> rfl
  have hempty : ∀ es : List Expr, (Expr.renameAll ν es).isEmpty = es.isEmpty := by
    intro es
    cases es <;> rfl
  unfold assign
  dsimp only
  rw [hselectors, hν.slot_eq, hempty]
  cases hnone : (chain.selectors.map selectorArgument).isEmpty with
  | true => cases operator <;> rfl
  | false =>
    cases operator <;>
      simp [Expr.rename, Expr.renameAll, Expr.renameAll_eq_map]

end Lowering

end ShaderScript
