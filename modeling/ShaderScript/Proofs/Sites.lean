import ShaderScript.Script.Lowering

/-!
# The way through a tree

Lowering goes through a tree in one order, whatever the style.  `Node.sites` lists the places on its
way where something is decided: assignments, operators without a meaning, parameters, declared
names, selectors that are read, and assignment targets.  A site may have a fault, which ends
lowering, and it may be worth a report.

What comes up at the sites, reports and failures, is a story (`Site.story`).  It is told up to the
first failure.
-/

namespace ShaderScript

open Lowering

/-! ## Sites -/

/-- A place where lowering decides something. -/
inductive Site
  /-- An assignment or a step, with its token. -/
  | assignment (pos : Position) (token : String) (standing : Standing)
  /-- An operator that the catalog has no function for. -/
  | inert (pos : Position) (token : String)
  /-- A parameter of a function. -/
  | parameter (pos : Position) (name function : String)
  /-- What stands for the name in a declaration. -/
  | item (pos : Position) (node : Node)
  /-- A declared variable, behind its initial value. -/
  | declared (pos : Position) (name : String)
  /-- A selector that is read. -/
  | selector (node : Node)
  /-- An assignment target, behind the subscripts that are computed for it. -/
  | target (node : Node)
  /-- A site in a computed subscript of a target. -/
  | subscript (site : Site)

namespace Target

/-- Why a target is refused although all its subscripts can be computed, if it is. -/
def refusal (target : Node) : Option LoweringError :=
  match (resolve target (some fun _ => pure ()) : Except LoweringError (Chain Unit)) with
  | .ok _ => none
  | .error e => some e

/-- The computed subscripts that are met before a target is refused.  The variable is the base if it
was met before. -/
def handedOut {β : Type} : List (TargetStep β) → Option String → List β
  | [], _ => []
  | .base _ :: _, some _ => []
  | .base name :: rest, none => handedOut rest (some name)
  | .index _ :: rest, base => handedOut rest base
  | .field _ :: rest, base => handedOut rest base
  | .computed _ subscript :: rest, base => subscript :: handedOut rest base
  | .bad _ :: _, _ => []

end Target

/-- What is reported of an assignment. -/
def Lowering.assignmentReports (s : Surroundings) (st : Standing) (pos : Position)
    (token : String) : List Diagnostic :=
  if s.style.dialect.assignsInExpressions || st = .statement then []
  else
    [.error .assignInExpression pos
      (Text.quoted token ++ " is used as a value; the " ++ s.style.name ++
        " style only supports it as a statement")]

namespace Site

/-- Why lowering cannot go on at a site. -/
def fault : Site → Option LoweringError
  | .item _ (.identifier ..) => none
  | .item pos node => some (.declaratorName pos node.kindName)
  | .selector (.fieldSelector ..) => none
  | .selector (.indexSelector pos index) =>
    if index.isAbsent then some (.noSubscript pos) else none
  | .selector node => some (.notSelector node.tagName node.pos)
  | .target node => Target.refusal node
  | .subscript site => site.fault.map LoweringError.inTarget
  | .assignment .. | .inert .. | .parameter .. | .declared .. => none

/-- What lowering reports at a site. -/
def reports (s : Surroundings) : Site → List Diagnostic
  | .assignment pos token standing => assignmentReports s standing pos token
  | .inert pos token =>
    [.warning .unsupportedOperator pos
      ("operator " ++ Text.quoted token ++ " has no runtime mapping")]
  | .parameter pos name function =>
    if s.isGlobal name then
      [.warning .globalParameter pos
        ("parameter " ++ Text.quoted name ++ " of " ++ function ++
          " is named after a global; reads of it resolve to the environment")]
    else []
  | .declared pos name =>
    if s.isGlobal name then
      [.warning .globalRedeclared pos
        ("local declaration of global " ++ Text.quoted name ++ " stores into the environment")]
    else []
  | .subscript site => site.reports s
  | .item .. | .selector _ | .target _ => []

/-- The site of a parameter; other nodes among parameters are passed over. -/
def ofParameter? (function : String) : Node → Option Site
  | .parameter pos _ name _ _ _ _ => some (.parameter pos name function)
  | _ => none

/-- The sites of a target, given those of its computed subscripts. -/
def ofTarget (target : Node) (steps : List (TargetStep (List Site))) : List Site :=
  (Target.handedOut steps none).flatten.map .subscript ++ [.target target]

end Site

mutual

/-- The sites of a node, in the order in which lowering comes by them.  What stands outside of
functions declares nothing, and some kinds of nodes are not entered at all. -/
def Node.sites (inside : Bool) (st : Standing) : Node → List Site
  | .program _ statements => Node.statementSites inside statements
  | .scope _ statements => Node.statementSites inside statements
  | .functionDeclaration _ name _ parameters body =>
    Node.operandSites true parameters ++ parameters.filterMap (Site.ofParameter? name) ++
      body.sites true .statement
  | .ifStatement _ condition body otherwise =>
    condition.sites inside .operand ++ body.sites inside .statement ++
      otherwise.sites inside .statement
  | .whileStatement _ condition body =>
    condition.sites inside .operand ++ body.sites inside .statement
  | .forStatement _ initializer condition increment body =>
    initializer.sites inside .statement ++ condition.sites inside .operand ++
      body.sites inside .statement ++ increment.sites inside .statement
  | .doStatement _ condition body =>
    condition.sites inside .operand ++ body.sites inside .statement
  | .returnStatement _ value => value.sites inside .operand
  | .expressionStatement _ e => e.sites inside .statement
  | .declarator _ _ items => if inside then Node.statementSites inside items else []
  | .declaratorItem pos name initializer =>
    if inside then
      match name with
      | .identifier _ id =>
        .item pos name :: initializer.sites inside .operand ++ [.declared pos id]
      | _ => [.item pos name]
    else []
  | .functionCall _ _ arguments => Node.operandSites inside arguments
  | .ternaryExpression _ condition whenTrue whenFalse =>
    condition.sites inside .operand ++ whenTrue.sites inside .operand ++
      whenFalse.sites inside .operand
  | .binaryExpression pos op left right =>
    match assignmentOperators.lookup op.text with
    | some _ =>
      .assignment pos op.text st :: right.sites inside .operand ++
        Site.ofTarget left (left.targetSites inside)
    | none =>
      left.sites inside .operand ++ right.sites inside .operand ++
        match binaryOperators.lookup op.text with
        | some _ => []
        | none => [.inert pos op.text]
  | .unaryExpression pos op e =>
    match stepOperators.lookup op.text with
    | some _ => .assignment pos op.text st :: Site.ofTarget e (e.targetSites inside)
    | none =>
      e.sites inside .operand ++
        match unaryOperators.lookup op.text with
        | some _ => []
        | none => [.inert pos op.text]
  | .postfixExpression _ (.selector _ selector) e =>
    e.sites inside .operand ++ .selector selector :: selector.selectorSites inside
  | .postfixExpression pos (.token _ token) e =>
    match stepOperators.lookup token with
    | some _ => .assignment pos token st :: Site.ofTarget e (e.targetSites inside)
    | none => e.sites inside .operand ++ [.inert pos token]
  | .absent | .parameter .. | .continueStatement _ | .breakStatement _ | .discardStatement _
  | .identifier .. | .integerLiteral .. | .floatLiteral .. | .booleanLiteral .. | .operator _
  | .preprocessor .. | .macroCall .. | .functionPrototype .. | .invariant .. | .precision ..
  | .structDefinition .. | .type .. | .indexSelector .. | .fieldSelector .. => []

/-- The sites of nodes that stand as statements. -/
def Node.statementSites (inside : Bool) : List Node → List Site
  | [] => []
  | n :: rest => n.sites inside .statement ++ Node.statementSites inside rest

/-- The sites of nodes that stand as operands. -/
def Node.operandSites (inside : Bool) : List Node → List Site
  | [] => []
  | n :: rest => n.sites inside .operand ++ Node.operandSites inside rest

/-- The sites in a selector that is read. -/
def Node.selectorSites (inside : Bool) : Node → List Site
  | .indexSelector _ index => index.sites inside .operand
  | _ => []

/-- The steps of a target, with the sites of its computed subscripts. -/
def Node.targetSites (inside : Bool) : Node → List (TargetStep (List Site))
  | .absent => []
  | .identifier _ name => [.base name]
  | .postfixExpression _ (.selector _ selector) e =>
    e.targetSites inside ++ selector.targetSites inside
  | .postfixExpression _ (.token _ _) e => e.targetSites inside
  | .operator (.selector _ selector) => selector.targetSites inside
  | .operator (.token _ _) => []
  | .indexSelector pos index => [Target.subscriptStep pos index (index.sites inside .operand)]
  | .fieldSelector _ selection => [.field selection]
  | .integerLiteral _ v => [.index (Float.ofInt v)]
  | .floatLiteral _ x => [.index x]
  | n => [.bad (.unsupported n.tagName n.pos)]

end

theorem Node.eq_absent_of_isAbsent {n : Node} (h : n.isAbsent = true) : n = .absent := by
  cases n with
  | absent => rfl
  | _ => cases h

/-! ## What comes up -/

/-- Something that comes up while a tree is lowered. -/
inductive Occurrence
  | report (d : Diagnostic)
  | failure (e : LoweringError)

namespace Occurrence

/-- What is reported before the first failure. -/
def reportsIn : List Occurrence → List Diagnostic
  | [] => []
  | .report d :: rest => d :: reportsIn rest
  | .failure _ :: _ => []

/-- The first failure. -/
def failureIn : List Occurrence → Option LoweringError
  | [] => none
  | .report _ :: rest => failureIn rest
  | .failure e :: _ => some e

/-- The occurrence as seen by the target from whose subscript it comes. -/
def inTarget : Occurrence → Occurrence
  | .report d => .report d
  | .failure e => .failure e.inTarget

theorem failureIn_append (first second : List Occurrence) :
    failureIn (first ++ second) = (failureIn first).or (failureIn second) := by
  induction first with
  | nil => simp [failureIn]
  | cons o rest ih => cases o <;> simp [failureIn, ih]

theorem reportsIn_append_of_none {first : List Occurrence} (h : failureIn first = none)
    (second : List Occurrence) :
    reportsIn (first ++ second) = reportsIn first ++ reportsIn second := by
  induction first with
  | nil => rfl
  | cons o rest ih =>
    cases o with
    | report d => simp [reportsIn, ih h]
    | failure e => simp [failureIn] at h

/-- Nothing is reported behind a failure. -/
theorem reportsIn_append_of_some {first : List Occurrence} {e : LoweringError}
    (h : failureIn first = some e) (second : List Occurrence) :
    reportsIn (first ++ second) = reportsIn first := by
  induction first with
  | nil => simp [failureIn] at h
  | cons o rest ih =>
    cases o with
    | report d => simp [reportsIn, ih h]
    | failure e => rfl

theorem failureIn_map_inTarget (os : List Occurrence) :
    failureIn (os.map inTarget) = (failureIn os).map LoweringError.inTarget := by
  induction os with
  | nil => rfl
  | cons o rest ih => cases o <;> simp [failureIn, inTarget, ih]

theorem reportsIn_map_inTarget (os : List Occurrence) :
    reportsIn (os.map inTarget) = reportsIn os := by
  induction os with
  | nil => rfl
  | cons o rest ih => cases o <;> simp [reportsIn, inTarget, ih]

end Occurrence

/-- The error of a result. -/
def failureOf {ε α : Type} : Except ε α → Option ε
  | .ok _ => none
  | .error e => some e

/-- What comes up at a site. -/
def Site.occurrences (s : Surroundings) (site : Site) : List Occurrence :=
  (site.reports s).map .report ++ site.fault.toList.map .failure

/-- What comes up at sites. -/
def Site.story (s : Surroundings) (sites : List Site) : List Occurrence :=
  sites.flatMap (Site.occurrences s)

namespace Lowering

open Occurrence

section

variable (s : Surroundings)

theorem story_append (first second : List Site) :
    Site.story s (first ++ second) = Site.story s first ++ Site.story s second :=
  List.flatMap_append

theorem story_cons (site : Site) (rest : List Site) :
    Site.story s (site :: rest) = site.occurrences s ++ Site.story s rest :=
  List.flatMap_cons

theorem story_singleton (site : Site) : Site.story s [site] = site.occurrences s := by
  rw [story_cons]
  exact List.append_nil _

/-- In a subscript everything is as the target sees it. -/
theorem story_subscript (sites : List Site) :
    Site.story s (sites.map .subscript) = (Site.story s sites).map Occurrence.inTarget := by
  have hsite : ∀ site : Site,
      (Site.subscript site).occurrences s = (site.occurrences s).map Occurrence.inTarget := by
    intro site
    simp only [Site.occurrences, Site.reports, Site.fault, List.map_append, List.map_map]
    cases site.fault <;> rfl
  induction sites with
  | nil => rfl
  | cons site rest ih => rw [List.map_cons, story_cons, story_cons, List.map_append, hsite, ih]

theorem reportsIn_map_report (ds : List Diagnostic) : reportsIn (ds.map .report) = ds := by
  induction ds with
  | nil => rfl
  | cons d rest ih => simp [reportsIn, ih]

theorem failureIn_map_report (ds : List Diagnostic) : failureIn (ds.map .report) = none := by
  induction ds with
  | nil => rfl
  | cons d rest ih => simpa [failureIn] using ih

end

end Lowering

namespace Site

open Occurrence

variable (s : Surroundings)

theorem failureIn_occurrences (site : Site) : failureIn (site.occurrences s) = site.fault := by
  rw [occurrences, failureIn_append, failureIn_map_report, Option.none_or]
  cases site.fault <;> rfl

/-- The first failure is the first fault. -/
theorem failureIn_story (sites : List Site) :
    failureIn (story s sites) = sites.findSome? fault := by
  induction sites with
  | nil => rfl
  | cons site rest ih =>
    rw [story_cons, failureIn_append, failureIn_occurrences, ih, List.findSome?_cons]
    cases site.fault <;> rfl

end Site

/-! ## Targets -/

variable {e : LoweringError}

/-- The step with another form of its computed subscript. -/
def TargetStep.map {β γ : Type} (f : β → γ) : TargetStep β → TargetStep γ
  | .base name => .base name
  | .index x => .index x
  | .field selection => .field selection
  | .computed pos subscript => .computed pos (f subscript)
  | .bad error => .bad error

namespace Target

/-- Why a target is refused at one of the steps that are left, or behind them.  The variable is the
base if it was met before. -/
def refusalFrom {β : Type} (target : Node) :
    List (TargetStep β) → Option String → Option LoweringError
  | [], some _ => none
  | [], none => some (.target (.noBase target.tagName target.pos))
  | .base name :: _, some first => some (.target (.secondBase name first))
  | .base name :: rest, none => refusalFrom target rest (some name)
  | .index _ :: rest, base => refusalFrom target rest base
  | .field _ :: rest, base => refusalFrom target rest base
  | .computed _ _ :: rest, base => refusalFrom target rest base
  | .bad error :: _, _ => some (.target error)

section Walk

variable {m : Type → Type} [Monad m] [MonadExceptOf LoweringError m] [LawfulMonad m] {β γ : Type}

theorem follow_append (emit : Option (β → m γ)) (first second : List (TargetStep β))
    (chain : Partial γ) :
    follow emit (first ++ second) chain = follow emit first chain >>= follow emit second := by
  induction first generalizing chain with
  | nil => rw [List.nil_append, follow, pure_bind]
  | cons step rest ih => simp only [List.cons_append, follow, ih, bind_assoc]

theorem follow_singleton (emit : Option (β → m γ)) (step : TargetStep β) (chain : Partial γ) :
    follow emit [step] chain = advance emit chain step := by
  simp only [follow, bind_pure]

/-- To walk a target is to take its steps. -/
theorem walk_eq (emit : Option (Node → m γ)) (n : Node) (chain : Partial γ) :
    walk emit n chain = follow emit (steps n) chain := by
  fun_induction steps n generalizing chain with
  | case3 pos pos' selector e ihe ihs => rw [walk, follow_append, ihe, funext ihs]
  | case4 pos pos' token e ih => rw [walk, ih]
  | case5 pos selector ih => rw [walk, ih]
  | case11 =>
    rw [walk, follow_singleton]
    · rfl
    all_goals assumption
  | case1 | case6 => rw [walk, follow]
  | _ => rw [walk, follow_singleton]

theorem resolve_eq (emit : Option (Node → m γ)) (target : Node) :
    resolve target emit = resolveSteps target (steps target) emit := by
  simp only [resolve, resolveSteps, walk_eq]

end Walk

/-- If all subscripts can be computed, a target is refused for what its steps are. -/
theorem failureOf_follow {β : Type} (target : Node) (steps : List (TargetStep β))
    (chain : Partial Unit) :
    failureOf (follow (some fun _ => pure ()) steps chain >>= complete target :
      Except LoweringError (Chain Unit)) = refusalFrom target steps chain.base := by
  induction steps generalizing chain with
  | nil =>
    obtain ⟨base, selectors⟩ := chain
    cases base <;> rfl
  | cons step rest ih =>
    cases step with
    | base name =>
      obtain ⟨base, selectors⟩ := chain
      cases base with
      | some first => rfl
      | none => exact ih ⟨some name, selectors⟩
    | index x | field selection | computed pos subscript => exact ih _
    | bad error => rfl

/-- Computed indices may stand for themselves, or for what emits them. -/
theorem follow_map {σ γ : Type} (g : Node → ExceptT LoweringError (StateM σ) γ)
    (steps : List (TargetStep Node)) (chain : Partial γ) :
    follow (some id) (steps.map (TargetStep.map g)) chain = follow (some g) steps chain := by
  induction steps generalizing chain with
  | nil => rfl
  | cons step rest ih =>
    cases step with
    | base name =>
      obtain ⟨base, selectors⟩ := chain
      cases base with
      | none => exact ih ⟨some name, selectors⟩
      | some first => rfl
    | index x | field selection => exact ih _
    | bad error => rfl
    | computed pos index => exact congrArg (Bind.bind _) (funext fun code => ih _)

theorem eq_target_of_refusalFrom {β : Type} {target : Node} {steps : List (TargetStep β)}
    {base : Option String} (h : refusalFrom target steps base = some e) :
    ∃ error, e = .target error := by
  fun_induction refusalFrom target steps base with
  | case1 => cases h
  | case2 => exact ⟨_, (Option.some.inj h).symm⟩
  | case3 => exact ⟨_, (Option.some.inj h).symm⟩
  | case8 => exact ⟨_, (Option.some.inj h).symm⟩
  | _ => rename_i ih; exact ih h

theorem refusal_eq (target : Node) :
    refusal target =
      if target.isAbsent then some (.target .emptyTarget)
      else refusalFrom target (steps target) none := by
  have hfailure : refusal target = failureOf (resolve target (some fun _ => pure ()) :
      Except LoweringError (Chain Unit)) := by
    unfold refusal
    split
    · rename_i h
      rw [h]
      rfl
    · rename_i h
      rw [h]
      rfl
  rw [hfailure, resolve_eq, resolveSteps]
  split
  · rfl
  · exact failureOf_follow target (steps target) {}

/-- What a target is refused for is an error about the target. -/
theorem eq_target_of_refusal {target : Node} (h : refusal target = some e) :
    ∃ error, e = .target error := by
  rw [refusal_eq] at h
  split at h
  · exact ⟨_, (Option.some.inj h).symm⟩
  · exact eq_target_of_refusalFrom h

end Target

/-- The sites of a target are those of its computed subscripts. -/
theorem Node.targetSites_eq (inside : Bool) (n : Node) :
    n.targetSites inside =
      (Target.steps n).map (TargetStep.map fun index => index.sites inside .operand) := by
  fun_induction Target.steps n with
  | case3 pos pos' selector e ihe ihs => rw [Node.targetSites, ihe, ihs, List.map_append]
  | case4 pos pos' token e ih => rw [Node.targetSites, ih]
  | case5 pos selector ih => rw [Node.targetSites, ih]
  | case7 pos index =>
    rw [Node.targetSites]
    unfold Target.subscriptStep
    split <;> rfl
  | case11 =>
    rw [Node.targetSites]
    · rfl
    all_goals assumption
  | _ => simp [Node.targetSites, TargetStep.map]

/-- The steps of a target, with the visits of its computed subscripts. -/
theorem visitTarget_eq (s : Surroundings) (inside : Bool) (n : Node) :
    visitTarget s inside n =
      (Target.steps n).map (TargetStep.map fun index => asOperand (visit s inside index)) := by
  fun_induction Target.steps n with
  | case3 pos pos' selector e ihe ihs => rw [visitTarget, ihe, ihs, List.map_append]
  | case4 pos pos' token e ih => rw [visitTarget, ih]
  | case5 pos selector ih => rw [visitTarget, ih]
  | case7 pos index =>
    rw [visitTarget]
    unfold Target.subscriptStep
    split <;> rfl
  | case11 =>
    rw [visitTarget]
    · rfl
    all_goals assumption
  | _ => simp [visitTarget, TargetStep.map]

end ShaderScript
