import ShaderScript.Script.Lowering

/-!
# Loops with a start and a step are sugar

`for (start; test; step) body` is another way to write `{ start; while (test) { body; step } }`.
`Node.desugared` writes every such loop of a tree out where it stands as a statement, however deep.
Lowering does not tell the difference: a block of its own has no statement of its own, and what a
loop is made of stands as a statement on both sides.

A loop that stands as an operand stays, as it emits its statements there and yields nothing.  What
stands as a statement inside of it is written out.
-/

namespace ShaderScript

open Lowering

/-! ## Loops written out -/

/-- The nodes that are there. -/
def Node.present (ns : List Node) : List Node := ns.filter fun n => !n.isAbsent

/-- The loop `for (initializer; condition; increment) body` written out.  Missing parts are left
out, and a missing condition stays missing. -/
def forAsWhile (pos : Position) (initializer condition increment body : Node) : Node :=
  .scope pos (Node.present [initializer,
    .whileStatement pos condition (.scope pos (Node.present [body, increment]))])

mutual

/-- The tree with every `for` written out that stands as a statement.  `st` tells how the tree
itself stands, and `mark` gives the positions of the new nodes. -/
def Node.desugared (mark : Position → Position) (st : Standing) : Node → Node
  | .absent => .absent
  | .program pos statements => .program pos (Node.allDesugared mark .statement statements)
  | .preprocessor pos directive identifier parameters value guarded =>
    .preprocessor pos directive identifier parameters value
      (Node.allDesugared mark .statement guarded)
  | .macroCall pos name parameters => .macroCall pos name parameters
  | .functionCall pos name arguments =>
    .functionCall pos name (Node.allDesugared mark .operand arguments)
  | .functionPrototype pos name returnType parameters =>
    .functionPrototype pos name (Node.desugared mark .operand returnType)
      (Node.allDesugared mark .operand parameters)
  | .functionDeclaration pos name returnType parameters body =>
    .functionDeclaration pos name (Node.desugared mark .operand returnType)
      (Node.allDesugared mark .operand parameters) (Node.desugared mark .statement body)
  | .scope pos statements => .scope pos (Node.allDesugared mark .statement statements)
  | .ifStatement pos condition body otherwise =>
    .ifStatement pos (Node.desugared mark .operand condition) (Node.desugared mark .statement body)
      (Node.desugared mark .statement otherwise)
  | .forStatement pos initializer condition increment body =>
    match st with
    | .statement =>
      forAsWhile (mark pos) (Node.desugared mark .statement initializer)
        (Node.desugared mark .operand condition) (Node.desugared mark .statement increment)
        (Node.desugared mark .statement body)
    | .operand =>
      .forStatement pos (Node.desugared mark .statement initializer)
        (Node.desugared mark .operand condition) (Node.desugared mark .statement increment)
        (Node.desugared mark .statement body)
  | .whileStatement pos condition body =>
    .whileStatement pos (Node.desugared mark .operand condition)
      (Node.desugared mark .statement body)
  | .doStatement pos condition body =>
    .doStatement pos (Node.desugared mark .operand condition) (Node.desugared mark .statement body)
  | .returnStatement pos value => .returnStatement pos (Node.desugared mark .operand value)
  | .continueStatement pos => .continueStatement pos
  | .breakStatement pos => .breakStatement pos
  | .discardStatement pos => .discardStatement pos
  | .expressionStatement pos e => .expressionStatement pos (Node.desugared mark .statement e)
  | .declarator pos type items =>
    .declarator pos (Node.desugared mark .operand type) (Node.allDesugared mark .statement items)
  | .declaratorItem pos name initializer =>
    .declaratorItem pos (Node.desugared mark .operand name)
      (Node.desugared mark .operand initializer)
  | .invariant pos identifiers => .invariant pos (Node.allDesugared mark .operand identifiers)
  | .precision pos precision typeName => .precision pos precision typeName
  | .parameter pos typeName name typeQualifier parameterQualifier precision arraySize =>
    .parameter pos typeName name typeQualifier parameterQualifier precision
      (Node.desugared mark .operand arraySize)
  | .structDefinition pos qualifier name members declarators =>
    .structDefinition pos qualifier name (Node.allDesugared mark .operand members)
      (Node.allDesugared mark .operand declarators)
  | .type pos name precision qualifier => .type pos name precision qualifier
  | .integerLiteral pos v => .integerLiteral pos v
  | .floatLiteral pos x => .floatLiteral pos x
  | .booleanLiteral pos b => .booleanLiteral pos b
  | .identifier pos name => .identifier pos name
  | .operator op => .operator (Operator.desugared mark op)
  | .postfixExpression pos op e =>
    .postfixExpression pos (Operator.desugared mark op) (Node.desugared mark .operand e)
  | .unaryExpression pos op e =>
    .unaryExpression pos (Operator.desugared mark op) (Node.desugared mark .operand e)
  | .binaryExpression pos op left right =>
    .binaryExpression pos (Operator.desugared mark op) (Node.desugared mark .operand left)
      (Node.desugared mark .operand right)
  | .ternaryExpression pos condition whenTrue whenFalse =>
    .ternaryExpression pos (Node.desugared mark .operand condition)
      (Node.desugared mark .operand whenTrue) (Node.desugared mark .operand whenFalse)
  | .indexSelector pos index => .indexSelector pos (Node.desugared mark .operand index)
  | .fieldSelector pos selection => .fieldSelector pos selection

/-- The operator with the loops of its selector written out. -/
def Operator.desugared (mark : Position → Position) : Operator → Operator
  | .token pos text => .token pos text
  | .selector pos node => .selector pos (Node.desugared mark .operand node)

/-- Trees that stand alike, with their loops written out. -/
def Node.allDesugared (mark : Position → Position) (st : Standing) : List Node → List Node
  | [] => []
  | n :: rest => Node.desugared mark st n :: Node.allDesugared mark st rest

end

/-- The shader with the loops of its tree written out. -/
def Shader.desugared (mark : Position → Position) (shader : Shader) : Shader :=
  { shader with tree := shader.tree.desugared mark .statement }

variable (mark : Position → Position)

@[simp] theorem Node.isAbsent_desugared (st : Standing) (n : Node) :
    (n.desugared mark st).isAbsent = n.isAbsent := by
  cases n with
  | forStatement => cases st <;> simp only [Node.desugared, forAsWhile, Node.isAbsent]
  | _ => simp only [Node.desugared, Node.isAbsent]

@[simp] theorem Node.tag?_desugared (n : Node) : (n.desugared mark .operand).tag? = n.tag? := by
  cases n <;> simp only [Node.desugared, Node.tag?]

@[simp] theorem Operator.pos_desugared (op : Operator) : (op.desugared mark).pos = op.pos := by
  cases op <;> simp only [Operator.desugared, Operator.pos]

@[simp] theorem Operator.text_desugared (op : Operator) : (op.desugared mark).text = op.text := by
  cases op <;> simp only [Operator.desugared, Operator.text]

@[simp] theorem Node.pos_desugared (n : Node) : (n.desugared mark .operand).pos = n.pos := by
  cases n <;> simp only [Node.desugared, Node.pos, Operator.pos_desugared]

@[simp] theorem Node.tagName_desugared (n : Node) :
    (n.desugared mark .operand).tagName = n.tagName := by
  simp only [Node.tagName, Node.tag?_desugared]

/-! ## Steps that look at no standing -/

namespace Lowering

variable {α β : Type}

/-- A step that neither depends on how the node at hand stands nor changes it. -/
def StandingFree (m : Lowering α) : Prop := ∀ st, standing st m = m

namespace StandingFree

theorem pure (a : α) : StandingFree (Pure.pure a : Lowering α) := fun _ => rfl

theorem emit (s : Stmt) : StandingFree (emit s) := fun _ => rfl

theorem standing (st : Standing) (m : Lowering α) : StandingFree (standing st m) := fun _ => rfl

theorem bind {m : Lowering α} {f : α → Lowering β} (h : StandingFree m)
    (hf : ∀ a, StandingFree (f a)) : StandingFree (m >>= f) := by
  intro st
  funext d
  have hright : (m >>= f) d =
      ExceptT.bindCont f (Lowering.standing st m d).1 (Lowering.standing st m d).2 := by
    rw [h st]
    rfl
  have hleft : Lowering.standing st (m >>= f) d =
      ((ExceptT.bindCont f (m { d with standing := st }).1 (m { d with standing := st }).2).1,
        { (ExceptT.bindCont f (m { d with standing := st }).1
            (m { d with standing := st }).2).2 with standing := d.standing }) := rfl
  have hfirst : Lowering.standing st m d = ((m { d with standing := st }).1,
      { (m { d with standing := st }).2 with standing := d.standing }) := rfl
  rw [hright, hleft, hfirst]
  rcases m { d with standing := st } with ⟨e | a, between⟩
  · rfl
  · -- The second step may find the node standing otherwise, and makes no difference of it.
    exact congrFun (hf a between.standing) { between with standing := d.standing }

theorem nested {body : Lowering Unit} (h : StandingFree body) : StandingFree (nested body) := by
  intro st
  calc Lowering.standing st (Lowering.nested body)
      = Lowering.nested (Lowering.standing st body) := rfl
    _ = Lowering.nested body := by rw [h st]

theorem write (texts : List String) : StandingFree (write texts) := fun _ => rfl

theorem keep (s : Stmt) : StandingFree (keep s) := fun _ => rfl

/-- A statement with a body finds the dialect in the draft, which is no standing either. -/
theorem enclosed (f : Frame) {body : Lowering Unit} (h : StandingFree body) :
    StandingFree (enclosed f body) := by
  intro st
  funext outer
  have hbody := nested (bind h fun _ => write (f.bodyEnd outer.dialect))
  have hblock := bind (write [(f.around []).firstLine outer.dialect]) fun _ => hbody
  have hrest := bind hblock fun inner =>
    bind (write (f.close outer.dialect)) fun _ => keep (f.around inner)
  exact congrFun (hrest st) outer

theorem asOperand (visit : Lowering Expr) : StandingFree (asOperand visit) :=
  standing .operand visit

theorem asStatement (visit : Lowering Expr) : StandingFree (asStatement visit) := by
  refine bind (standing .statement visit) fun e => ?_
  split
  · exact pure ()
  · exact emit (.eval e)

theorem asCondition (condition : Node) (visit : Lowering Expr) :
    StandingFree (asCondition condition visit) := by
  unfold Lowering.asCondition
  split
  · exact pure _
  · exact asOperand visit

/-- A step that looks at no standing and yields nothing is the same as a statement. -/
theorem asStatement_eq {visit : Lowering Expr} {m : Lowering Unit} (h : StandingFree m)
    (hvisit : visit = do m; Pure.pure Expr.blank) : Lowering.asStatement visit = m := by
  have hfree : StandingFree (do m; Pure.pure Expr.blank) := bind h fun _ => pure _
  unfold Lowering.asStatement
  rw [hvisit, hfree .statement, bind_assoc]
  simp only [pure_bind, Expr.isBlank, if_true]
  exact bind_pure m

end StandingFree

end Lowering

variable (s : Surroundings) (inside : Bool)

theorem standingFree_visitStatements (ns : List Node) :
    StandingFree (visitStatements s inside ns) := by
  induction ns with
  | nil => simp only [visitStatements]; exact StandingFree.pure ()
  | cons n rest ih =>
    simp only [visitStatements]
    exact .bind (.asStatement _) fun _ => ih

theorem asStatement_scope (pos : Position) (ns : List Node) :
    asStatement (visit s inside (.scope pos ns)) = visitStatements s inside ns :=
  (standingFree_visitStatements s inside ns).asStatement_eq (by rw [visit])

theorem visitStatements_present (ns : List Node) :
    visitStatements s inside (Node.present ns) = visitStatements s inside ns := by
  induction ns with
  | nil => rfl
  | cons n rest ih =>
    cases n with
    | absent =>
      have hskip : visitStatements s inside (.absent :: rest) = visitStatements s inside rest := by
        rw [visitStatements, asStatement_absent, pure_bind]
      rw [hskip, ← ih]
      rfl
    | _ =>
      have hkeep : ∀ {n : Node}, n.isAbsent = false →
          Node.present (n :: rest) = n :: Node.present rest := by
        intro n hn
        simp [Node.present, hn]
      rw [hkeep rfl, visitStatements, visitStatements, ih]

/-! ## Loops -/

theorem asStatement_whileStatement (pos : Position) (condition body : Node) :
    asStatement (visit s inside (.whileStatement pos condition body)) = (do
      let test ← asCondition condition (visit s inside condition)
      enclosed (.loop test) (asStatement (visit s inside body))) := by
  refine StandingFree.asStatement_eq ?_ (by simp only [visit, bind_assoc])
  exact .bind (.asCondition condition _) fun test => .enclosed _ (.asStatement _)

theorem asStatement_forStatement (pos : Position) (initializer condition increment body : Node) :
    asStatement (visit s inside (.forStatement pos initializer condition increment body)) = (do
      asStatement (visit s inside initializer)
      let test ← asCondition condition (visit s inside condition)
      enclosed (.loop test) do
        asStatement (visit s inside body)
        asStatement (visit s inside increment)) := by
  refine StandingFree.asStatement_eq ?_ (by simp only [visit, bind_assoc])
  have hbody := StandingFree.bind (.asStatement (visit s inside body)) fun _ =>
    .asStatement (visit s inside increment)
  refine .bind (.asStatement _) fun _ => ?_
  exact .bind (.asCondition condition _) fun test => .enclosed _ hbody

theorem visitStatements_pair (first second : Node) :
    visitStatements s inside [first, second] = (do
      asStatement (visit s inside first)
      asStatement (visit s inside second)) := by
  simp only [visitStatements, bind_pure_unit]

/-- A loop written out is lowered to the same loop. -/
theorem asStatement_forAsWhile (pos pos' : Position)
    (initializer condition increment body : Node) :
    asStatement (visit s inside (forAsWhile pos initializer condition increment body)) =
      asStatement (visit s inside
        (.forStatement pos' initializer condition increment body)) := by
  rw [forAsWhile, asStatement_scope, visitStatements_present, visitStatements_pair,
    asStatement_whileStatement, asStatement_scope, visitStatements_present, visitStatements_pair,
    asStatement_forStatement]

/-! ## Visits -/

/-- Writing out the loops of a node makes no difference to lowering, however it stands. -/
structure LoweredAlike (n : Node) : Prop where
  operand : visit s inside (n.desugared mark .operand) = visit s inside n
  statement : asStatement (visit s inside (n.desugared mark .statement)) =
    asStatement (visit s inside n)

namespace LoweredAlike

variable {mark s inside} {n : Node}

/-- Nodes other than loops do not depend on how they stand. -/
theorem of_operand (hsame : n.desugared mark .statement = n.desugared mark .operand)
    (h : visit s inside (n.desugared mark .operand) = visit s inside n) :
    LoweredAlike mark s inside n :=
  ⟨h, by rw [hsame, h]⟩

end LoweredAlike

theorem asCondition_desugared (condition : Node) (visit : Lowering Expr) :
    asCondition (condition.desugared mark .operand) visit = asCondition condition visit := by
  unfold asCondition
  rw [Node.isAbsent_desugared]

theorem warnGlobalParameters_desugared (function : String) (parameters : List Node) :
    warnGlobalParameters s function (Node.allDesugared mark .operand parameters) =
      warnGlobalParameters s function parameters := by
  induction parameters with
  | nil => rfl
  | cons p rest ih =>
    cases p with
    | parameter => simp only [Node.allDesugared, Node.desugared, warnGlobalParameters, ih]
    | _ => simp only [Node.allDesugared, Node.desugared, warnGlobalParameters, ih]

theorem resolveSteps_desugared (target : Node) (steps : List (TargetStep (Lowering Expr))) :
    Target.resolveSteps (target.desugared mark .operand) steps (some id) =
      Target.resolveSteps target steps (some id) := by
  unfold Target.resolveSteps Target.complete
  rw [Node.isAbsent_desugared, Node.tagName_desugared, Node.pos_desugared]

theorem subscriptStep_desugared {β : Type} (pos : Position) (index : Node) (kept : β) :
    Target.subscriptStep pos (index.desugared mark .operand) kept =
      Target.subscriptStep pos index kept := by
  cases index <;> simp only [Node.desugared, Target.subscriptStep]

/-- Lowering does not tell a tree from the one whose loops are written out. -/
theorem visit_desugared :
    (∀ inside n, LoweredAlike mark s inside n) ∧
    (∀ inside n, visitSelector s inside (n.desugared mark .operand) = visitSelector s inside n) ∧
    (∀ inside n, visitTarget s inside (n.desugared mark .operand) = visitTarget s inside n) ∧
    (∀ inside ns, visitOperands s inside (Node.allDesugared mark .operand ns) =
      visitOperands s inside ns) ∧
    (∀ inside ns, visitStatements s inside (Node.allDesugared mark .statement ns) =
      visitStatements s inside ns) := by
  -- One case for each clause of the five functions, in their order.
  refine visit.mutual_induct _ _ _ _ _ ?absent ?program ?scope ?functionDeclaration ?parameter
    ?ifStatement ?whileStatement ?forStatement ?doStatement ?returnStatement ?continueStatement
    ?breakStatement ?discardStatement ?expressionStatement ?declarator ?declaratorOutside
    ?declaratorItem ?declaratorItemName ?declaratorItemOutside ?functionCall ?identifier
    ?integerLiteral ?floatLiteral ?booleanLiteral ?operator ?ternaryExpression ?assignment
    ?binaryExpression ?step ?unaryExpression ?selection ?postfixStep ?postfixToken ?preprocessor
    ?macroCall ?functionPrototype ?invariant ?precision ?structDefinition ?type ?indexSelector
    ?fieldSelector ?readField ?readNothing ?readIndex ?readOther ?targetAbsent ?targetIdentifier
    ?targetSelection ?targetToken ?targetOperator ?targetOperatorToken ?targetIndex ?targetField
    ?targetInteger ?targetFloat ?targetOther ?noOperands ?operands ?noStatements ?statements
  -- All nodes but loops are visited by their parts, which are lowered alike.
  case absent | preprocessor | macroCall | functionPrototype | invariant | precision
      | structDefinition | type | indexSelector | fieldSelector | parameter | identifier
      | integerLiteral | floatLiteral | booleanLiteral | continueStatement | breakStatement
      | discardStatement | operator | program | scope | functionDeclaration | ifStatement
      | whileStatement | doStatement | returnStatement | expressionStatement | declarator
      | declaratorOutside | declaratorItemOutside | declaratorItem | functionCall
      | ternaryExpression | assignment | binaryExpression | step | unaryExpression | selection
      | postfixStep | postfixToken =>
    intros
    refine .of_operand ?_ ?_ <;>
      simp_all only [Node.desugared, Operator.desugared, visit, Operator.text_desugared,
        Node.isAbsent_desugared, LoweredAlike.operand, LoweredAlike.statement,
        asCondition_desugared, warnGlobalParameters_desugared, resolveSteps_desugared,
        Bool.false_eq_true, if_false]
  case forStatement =>
    intro inside pos initializer condition increment body ihi ihc ihb ihs
    have hparts : visit s inside (.forStatement pos (initializer.desugared mark .statement)
        (condition.desugared mark .operand) (increment.desugared mark .statement)
        (body.desugared mark .statement)) =
        visit s inside (.forStatement pos initializer condition increment body) := by
      simp only [visit, ihi.statement, asCondition_desugared, ihc.operand, ihb.statement,
        ihs.statement]
    refine ⟨?_, ?_⟩
    · simp only [Node.desugared, hparts]
    · simp only [Node.desugared]
      rw [asStatement_forAsWhile s inside (mark pos) pos, hparts]
  case declaratorItemName =>
    intro pos name initializer hname
    refine .of_operand (by simp only [Node.desugared]) ?_
    cases name with
    | identifier pos' id => exact absurd rfl (hname pos' id)
    | _ => simp only [Node.desugared, visit, Node.kindName, Node.tag?]
  -- Selectors that are read.
  case readField =>
    intros
    simp only [Node.desugared]
  case readNothing =>
    intro inside pos index habsent
    simp only [Node.desugared, visitSelector, Node.isAbsent_desugared, if_pos habsent]
  case readIndex =>
    intro inside pos index habsent ih
    simp only [Node.desugared, visitSelector, Node.isAbsent_desugared, if_neg habsent, ih.operand]
  case readOther =>
    intro inside n hfield hindex
    cases n with
    | fieldSelector pos selection => exact absurd rfl (hfield pos selection)
    | indexSelector pos index => exact absurd rfl (hindex pos index)
    | _ =>
      simp only [Node.desugared, visitSelector, Node.tagName, Node.tag?, Node.pos,
        Operator.pos_desugared]
  -- Targets.
  case targetAbsent | targetIdentifier | targetField | targetInteger | targetFloat =>
    intros
    simp only [Node.desugared]
  case targetOperatorToken =>
    intros
    simp only [Node.desugared, Operator.desugared]
  case targetSelection =>
    intro inside pos pos' selector e ihe ihs
    simp only [Node.desugared, Operator.desugared, visitTarget, ihe, ihs]
  case targetToken =>
    intro inside pos pos' text e ih
    simp only [Node.desugared, Operator.desugared, visitTarget, ih]
  case targetOperator =>
    intro inside pos selector ih
    simp only [Node.desugared, Operator.desugared, visitTarget, ih]
  case targetIndex =>
    intro inside pos index ih
    simp only [Node.desugared, visitTarget, ih.operand, subscriptStep_desugared]
  case targetOther =>
    intro inside n habsent hidentifier hselection htoken hoperator hoperatorToken hindex hfield
      hinteger hfloat
    cases n with
    | postfixExpression _ op _ | operator op => cases op <;> exact absurd rfl (by solve_by_elim)
    | _ =>
      first
      | exact absurd rfl (by solve_by_elim)
      | simp only [Node.desugared, visitTarget, Node.tagName, Node.tag?, Node.pos]
  -- Lists of nodes.
  case noOperands | noStatements =>
    intro inside
    simp only [Node.allDesugared]
  case operands =>
    intro inside n rest ihn ihr
    simp only [Node.allDesugared, visitOperands, ihn.operand, ihr]
  case statements =>
    intro inside n rest ihn ihr
    simp only [Node.allDesugared, visitStatements, ihn.statement, ihr]

/-! ## Whole shaders -/

/-- Loops with a start and a step are pure sugar.  For every generator, of any style and whatever it
lowered before, and every shader: writing out all `for` statements that stand as statements,
anywhere in the tree, changes neither the script, and so the source, nor the error, nor what is
reported, nor what the generator is left with. -/
theorem for_loops_are_sugar (g : Generator) (shader : Option Shader) :
    g.generate (shader.map (Shader.desugared mark)) = g.generate shader := by
  cases shader with
  | none => rfl
  | some shader =>
    have habsent : (shader.desugared mark).tree.isAbsent = shader.tree.isAbsent :=
      shader.tree.isAbsent_desugared mark .statement
    have hlower : Generator.lower ⟨g.style, (shader.desugared mark).isGlobal⟩
        (shader.desugared mark) = Generator.lower ⟨g.style, shader.isGlobal⟩ shader := by
      have htree :=
        ((visit_desugared mark ⟨g.style, shader.isGlobal⟩).1 false shader.tree).statement
      have hglobal : (shader.desugared mark).isGlobal = shader.isGlobal := rfl
      have hroot : (shader.desugared mark).tree = shader.tree.desugared mark .statement := rfl
      rw [Generator.lower, hglobal, hroot, htree]
      rfl
    simp only [Option.map_some, Generator.generate, habsent, hlower]

end ShaderScript
