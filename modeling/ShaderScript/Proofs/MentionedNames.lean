import ShaderScript.Script.Lowering

/-!
# Names that matter

A shader says of its global variables no more to lowering than which names are global, and lowering
asks that of few names: those of the identifiers, parameters and calls of the tree
(`Node.mentioned`), and of the entry point.  Two shaders with one tree that agree on these names are
lowered to the same script (`generation_depends_on_mentioned`).
-/

namespace ShaderScript

open Lowering

mutual

/-- The names of the identifiers, parameters and calls of a tree, as far as it is lowered. -/
def Node.mentioned : Node → List String
  | .program _ statements | .scope _ statements | .declarator _ _ statements =>
    Node.allMentioned statements
  | .functionDeclaration _ _ _ parameters body => Node.allMentioned parameters ++ body.mentioned
  | .parameter _ _ name _ _ _ _ | .identifier _ name => [name]
  | .functionCall _ name arguments => name :: Node.allMentioned arguments
  | .ifStatement _ a b c | .ternaryExpression _ a b c => a.mentioned ++ (b.mentioned ++ c.mentioned)
  | .forStatement _ a b c d => a.mentioned ++ (b.mentioned ++ (c.mentioned ++ d.mentioned))
  | .whileStatement _ a b | .doStatement _ a b | .declaratorItem _ a b | .binaryExpression _ _ a b =>
    a.mentioned ++ b.mentioned
  | .returnStatement _ e | .expressionStatement _ e | .unaryExpression _ _ e
  | .indexSelector _ e => e.mentioned
  | .operator op => op.mentioned
  | .postfixExpression _ op e => op.mentioned ++ e.mentioned
  | _ => []

/-- The names in the selector of an operator. -/
def Operator.mentioned : Operator → List String
  | .token _ _ => []
  | .selector _ n => n.mentioned

/-- The names in trees. -/
def Node.allMentioned : List Node → List String
  | [] => []
  | n :: rest => n.mentioned ++ Node.allMentioned rest

end

variable (s t : Surroundings)

/-- Two surroundings agree on a name. -/
def Surroundings.AgreeOn (name : String) : Prop := s.isGlobal name = t.isGlobal name

theorem slot_agree {name : String} (h : s.AgreeOn t name) : s.slot name = t.slot name := by
  rw [Surroundings.slot, Surroundings.slot, h]

theorem call_agree {name : String} (h : s.AgreeOn t name) (args : List Expr) :
    s.call name args = t.call name args := by
  rw [Surroundings.call, Surroundings.call, slot_agree s t h]

theorem declare_agree {name : String} (h : s.AgreeOn t name) (pos : Position) (initial : Expr) :
    declare s pos name initial = declare t pos name initial := by
  rw [declare, declare, h]

theorem checkAssignment_agree (h : s.style = t.style) (pos : Position) (token : String) :
    checkAssignment s pos token = checkAssignment t pos token := by
  rw [checkAssignment, checkAssignment, h]

theorem warnGlobalParameters_agree (function : String) {parameters : List Node}
    (h : ∀ name ∈ Node.allMentioned parameters, s.AgreeOn t name) :
    warnGlobalParameters s function parameters = warnGlobalParameters t function parameters := by
  induction parameters with
  | nil => rfl
  | cons p rest ih =>
    simp only [Node.allMentioned, List.forall_mem_append] at h
    cases p with
    | parameter pos _ name _ _ _ _ =>
      have hname : s.isGlobal name = t.isGlobal name := h.1 name (by simp [Node.mentioned])
      simp only [warnGlobalParameters, hname, ih h.2]
    | _ => simp only [warnGlobalParameters, ih h.2]

/-- What comes after the steps of a target may depend on the bases among them. -/
theorem follow_bind_congr {P : String → Prop} {next next' : Target.Partial Expr → Lowering Expr}
    {steps : List (TargetStep (Lowering Expr))} (hsteps : ∀ name, .base name ∈ steps → P name)
    (h : ∀ chain, (∀ base ∈ chain.base, P base) → next chain = next' chain)
    {chain : Target.Partial Expr} (hchain : ∀ base ∈ chain.base, P base) :
    (Target.follow (some id) steps chain >>= next) =
      (Target.follow (some id) steps chain >>= next') := by
  induction steps generalizing chain with
  | nil => simp only [Target.follow, pure_bind, h chain hchain]
  | cons step rest ih =>
    replace ih := @ih fun name hn => hsteps name (List.mem_cons_of_mem _ hn)
    simp only [Target.follow, bind_assoc]
    cases step with
    | base name =>
      simp only [Target.advance]
      -- A chain keeps its first base.
      cases hbase : chain.base with
      | some first => rfl
      | none =>
        refine ih fun base hb => ?_
        obtain rfl := Option.some.inj hb
        exact hsteps name List.mem_cons_self
    | index | field => exact ih hchain
    | bad => rfl
    | computed pos subscript =>
      simp only [Target.advance, bind_assoc, pure_bind]
      exact bind_congr fun code => ih hchain

/-- The code that stores into a target depends on the bases among its steps. -/
theorem store_agree {steps : List (TargetStep (Lowering Expr))}
    (h : ∀ name, .base name ∈ steps → s.AgreeOn t name) (target : Node)
    (operator : Option String) (value : Expr) :
    (do pure (assign s (← Target.resolveSteps target steps (some id)) operator value)) =
      (do pure (assign t (← Target.resolveSteps target steps (some id)) operator value)) := by
  unfold Target.resolveSteps
  split
  · rfl
  · simp only [bind_assoc]
    refine follow_bind_congr h (fun chain hchain => ?_) (fun _ hb => absurd hb (by simp))
    unfold Target.complete
    cases hbase : chain.base with
    | none => rfl
    | some base => simp only [pure_bind, assign, slot_agree s t (hchain base hbase)]

theorem base_ne_subscriptStep {β : Type} (pos : Position) (index : Node) (kept : β)
    (name : String) : .base name ≠ Target.subscriptStep pos index kept := by
  unfold Target.subscriptStep
  split <;> simp

/-! ## Visits with surroundings that agree on the names of a tree -/

mutual

theorem visit_agree (hstyle : s.style = t.style) (inside : Bool) :
    (n : Node) → (∀ name ∈ n.mentioned, s.AgreeOn t name) → visit s inside n = visit t inside n
  | .program _ statements, h | .scope _ statements, h => by
    rw [visit, visit, visitStatements_agree hstyle inside statements h]
  | .functionDeclaration _ name _ parameters body, h => by
    rw [Node.mentioned, List.forall_mem_append] at h
    rw [visit, visit, visitOperands_agree hstyle true parameters h.1,
      warnGlobalParameters_agree s t name h.1, visit_agree hstyle true body h.2]
  | .ifStatement _ condition body otherwise, h => by
    simp only [Node.mentioned, List.forall_mem_append] at h
    rw [visit, visit, visit_agree hstyle inside condition h.1, visit_agree hstyle inside body h.2.1,
      visit_agree hstyle inside otherwise h.2.2]
  | .whileStatement _ condition body, h | .doStatement _ condition body, h => by
    rw [Node.mentioned, List.forall_mem_append] at h
    rw [visit, visit, visit_agree hstyle inside condition h.1, visit_agree hstyle inside body h.2]
  | .forStatement _ initializer condition increment body, h => by
    simp only [Node.mentioned, List.forall_mem_append] at h
    rw [visit, visit, visit_agree hstyle inside initializer h.1,
      visit_agree hstyle inside condition h.2.1, visit_agree hstyle inside increment h.2.2.1,
      visit_agree hstyle inside body h.2.2.2]
  | .returnStatement _ e, h | .expressionStatement _ e, h => by
    rw [visit, visit, visit_agree hstyle inside e h]
  | .declarator _ _ items, h => by rw [visit, visit, visitStatements_agree hstyle inside items h]
  | .declaratorItem pos name initializer, h => by
    rw [Node.mentioned, List.forall_mem_append] at h
    have hinitializer := visit_agree hstyle inside initializer h.2
    cases name with
    | identifier _ id =>
      rw [visit, visit, hinitializer]
      simp only [declare_agree s t (h.1 id (by simp [Node.mentioned]))]
    | _ => simp only [visit]
  | .functionCall _ name arguments, h => by
    rw [Node.mentioned, List.forall_mem_cons] at h
    rw [visit, visit, visitOperands_agree hstyle inside arguments h.2]
    simp only [call_agree s t h.1]
  | .identifier _ name, h => by
    rw [visit, visit, slot_agree s t (h name (by simp [Node.mentioned]))]
  | .ternaryExpression _ condition whenTrue whenFalse, h => by
    simp only [Node.mentioned, List.forall_mem_append] at h
    rw [visit, visit, visit_agree hstyle inside condition h.1,
      visit_agree hstyle inside whenTrue h.2.1, visit_agree hstyle inside whenFalse h.2.2]
  | .binaryExpression pos op left right, h => by
    rw [Node.mentioned, List.forall_mem_append] at h
    obtain ⟨htarget, hbases⟩ := visitTarget_agree hstyle inside left h.1
    rw [visit, visit, visit_agree hstyle inside left h.1, visit_agree hstyle inside right h.2,
      htarget, checkAssignment_agree s t hstyle]
    simp only [store_agree s t hbases]
  | .unaryExpression pos op e, h => by
    obtain ⟨htarget, hbases⟩ := visitTarget_agree hstyle inside e h
    rw [visit, visit, visit_agree hstyle inside e h, htarget, checkAssignment_agree s t hstyle]
    simp only [store_agree s t hbases]
  | .postfixExpression _ (.selector _ selector) e, h => by
    rw [Node.mentioned, List.forall_mem_append] at h
    rw [visit, visit, visit_agree hstyle inside e h.2,
      visitSelector_agree hstyle inside selector h.1]
  | .postfixExpression pos (.token _ token) e, h => by
    obtain ⟨htarget, hbases⟩ := visitTarget_agree hstyle inside e h
    rw [visit, visit, visit_agree hstyle inside e h, htarget, checkAssignment_agree s t hstyle]
    simp only [store_agree s t hbases]
  -- The other nodes are the same in all surroundings.
  | .absent, _ | .parameter .., _ | .continueStatement _, _ | .breakStatement _, _
  | .discardStatement _, _ | .integerLiteral .., _ | .floatLiteral .., _ | .booleanLiteral .., _
  | .operator _, _ | .preprocessor .., _ | .macroCall .., _ | .functionPrototype .., _
  | .invariant .., _ | .precision .., _ | .structDefinition .., _ | .type .., _
  | .indexSelector .., _ | .fieldSelector .., _ => by rw [visit, visit]

theorem visitStatements_agree (hstyle : s.style = t.style) (inside : Bool) :
    (ns : List Node) → (∀ name ∈ Node.allMentioned ns, s.AgreeOn t name) →
      visitStatements s inside ns = visitStatements t inside ns
  | [], _ => rfl
  | n :: rest, h => by
    rw [Node.allMentioned, List.forall_mem_append] at h
    rw [visitStatements, visitStatements, visit_agree hstyle inside n h.1,
      visitStatements_agree hstyle inside rest h.2]

theorem visitOperands_agree (hstyle : s.style = t.style) (inside : Bool) :
    (ns : List Node) → (∀ name ∈ Node.allMentioned ns, s.AgreeOn t name) →
      visitOperands s inside ns = visitOperands t inside ns
  | [], _ => rfl
  | n :: rest, h => by
    rw [Node.allMentioned, List.forall_mem_append] at h
    rw [visitOperands, visitOperands, visit_agree hstyle inside n h.1,
      visitOperands_agree hstyle inside rest h.2]

theorem visitSelector_agree (hstyle : s.style = t.style) (inside : Bool) :
    (n : Node) → (∀ name ∈ n.mentioned, s.AgreeOn t name) →
      visitSelector s inside n = visitSelector t inside n
  | .indexSelector _ index, h => by
    rw [visitSelector, visitSelector, visit_agree hstyle inside index h]
  | .absent, _ | .program .., _ | .preprocessor .., _ | .macroCall .., _ | .functionCall .., _
  | .functionPrototype .., _ | .functionDeclaration .., _ | .scope .., _ | .ifStatement .., _
  | .forStatement .., _ | .whileStatement .., _ | .doStatement .., _ | .returnStatement .., _
  | .continueStatement _, _ | .breakStatement _, _ | .discardStatement _, _
  | .expressionStatement .., _ | .declarator .., _ | .declaratorItem .., _ | .invariant .., _
  | .precision .., _ | .parameter .., _ | .structDefinition .., _ | .type .., _
  | .integerLiteral .., _ | .floatLiteral .., _ | .booleanLiteral .., _ | .identifier .., _
  | .operator _, _ | .postfixExpression .., _ | .unaryExpression .., _ | .binaryExpression .., _
  | .ternaryExpression .., _ | .fieldSelector .., _ => rfl

/-- A target has no other steps, and its base is a name of the tree. -/
theorem visitTarget_agree (hstyle : s.style = t.style) (inside : Bool) :
    (n : Node) → (∀ name ∈ n.mentioned, s.AgreeOn t name) →
      visitTarget s inside n = visitTarget t inside n ∧
        ∀ name, .base name ∈ visitTarget t inside n → s.AgreeOn t name
  | .identifier _ name, h => by
    refine ⟨rfl, fun base hbase => ?_⟩
    cases List.mem_singleton.1 hbase
    exact h name (by simp [Node.mentioned])
  | .postfixExpression _ (.selector _ selector) e, h => by
    rw [Node.mentioned, List.forall_mem_append] at h
    obtain ⟨he, hbases⟩ := visitTarget_agree hstyle inside e h.2
    obtain ⟨hselector, hbases'⟩ := visitTarget_agree hstyle inside selector h.1
    rw [visitTarget, visitTarget, he, hselector]
    refine ⟨rfl, fun name hname => ?_⟩
    exact (List.mem_append.1 hname).elim (hbases name) (hbases' name)
  | .postfixExpression _ (.token _ _) e, h => visitTarget_agree hstyle inside e h
  | .operator (.selector _ selector), h => visitTarget_agree hstyle inside selector h
  | .indexSelector pos index, h => by
    rw [visitTarget, visitTarget, visit_agree hstyle inside index h]
    refine ⟨rfl, fun name hname => ?_⟩
    exact absurd (List.mem_singleton.1 hname) (base_ne_subscriptStep _ _ _ _)
  | .absent, _ | .program .., _ | .preprocessor .., _ | .macroCall .., _ | .functionCall .., _
  | .functionPrototype .., _ | .functionDeclaration .., _ | .scope .., _ | .ifStatement .., _
  | .forStatement .., _ | .whileStatement .., _ | .doStatement .., _ | .returnStatement .., _
  | .continueStatement _, _ | .breakStatement _, _ | .discardStatement _, _
  | .expressionStatement .., _ | .declarator .., _ | .declaratorItem .., _ | .invariant .., _
  | .precision .., _ | .parameter .., _ | .structDefinition .., _ | .type .., _
  | .integerLiteral .., _ | .floatLiteral .., _ | .booleanLiteral .., _
  | .operator (.token _ _), _ | .unaryExpression .., _ | .binaryExpression .., _
  | .ternaryExpression .., _ | .fieldSelector .., _ =>
    ⟨rfl, fun name hname => by simp [visitTarget] at hname⟩

end

/-- Only the names that a shader mentions matter.  Take any two shaders with one tree, and any
generator, of whatever style and whatever it lowered before.  If of the names in the tree, and of
the entry point's, the same are global in both, then both have the same script or error and the same
reports, and leave the generator alike; a trap is a matter of its own.  The lists of variables may
differ in their order, repeats and types, in which of them has a name, and in all other names. -/
theorem generation_depends_on_mentioned (g : Generator) (first second : Shader)
    (htree : second.tree = first.tree)
    (hnames : ∀ name ∈ "main" :: first.tree.mentioned,
      name ∈ second.globalNames ↔ name ∈ first.globalNames) :
    g.generate (some second) = g.generate (some { first with debugTrap := second.debugTrap }) ∧
    (second.debugTrap = first.debugTrap → g.generate (some second) = g.generate (some first)) := by
  let s : Surroundings := ⟨g.style, second.isGlobal⟩
  let t : Surroundings := ⟨g.style, first.isGlobal⟩
  have hagree : ∀ name ∈ "main" :: first.tree.mentioned, s.AgreeOn t name := by
    intro name hname
    show second.globalNames.contains name = first.globalNames.contains name
    rw [Bool.eq_iff_iff, List.contains_iff_mem, List.contains_iff_mem]
    exact hnames name hname
  rw [List.forall_mem_cons] at hagree
  have hlower : Generator.lower s second =
      Generator.lower t { first with debugTrap := second.debugTrap } := by
    simp only [Generator.lower, htree, visit_agree s t rfl false _ hagree.2,
      call_agree s t hagree.1]
    rfl
  have hsame : g.generate (some second) =
      g.generate (some { first with debugTrap := second.debugTrap }) := by
    simp only [Generator.generate, htree]
    split
    · rfl
    · rw [hlower]
      rfl
  exact ⟨hsame, fun htrap => by rw [hsame, htrap]⟩

/-- A uniform that moves to the attributes, repeated and with a type, beside a name that the tree
does not have. -/
theorem generation_depends_on_mentioned_moved :
    let tree : Node := .program {} [.expressionStatement {} (.identifier {} "color")]
    let first : Shader := { tree, uniforms := [⟨"color", ""⟩] }
    let second : Shader :=
      { tree, attributes := [⟨"other", ""⟩, ⟨"color", "vec4"⟩, ⟨"color", ""⟩] }
    (generate .javaScript (some second)).result = (generate .javaScript (some first)).result :=
  congrArg (·.1.result) ((generation_depends_on_mentioned _ _ _ rfl (by decide)).2 rfl)

end ShaderScript
