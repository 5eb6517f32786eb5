import Mathlib.Data.List.Forall2
import ShaderScript.Proofs.StyleAgreement
import ShaderScript.Proofs.Traversal

/-!
# How often an assignment evaluates its target

The code of an assignment to a part of a variable rebuilds the variable with `set`.  A compound
assignment or a step reads the part with `get` first, and the selectors stand in both calls.
-/

namespace ShaderScript

open Lowering Running

/-! ## Lowering a target -/

namespace Target

/-- A step that gives a selector. -/
def isSelector {β : Type} : TargetStep β → Bool
  | .base _ => false
  | _ => true

/-- The subscripts and fields of a target in order. -/
def selectors (target : Node) : List (TargetStep Node) :=
  (steps target).filter isSelector

end Target

/-- The code of a node as an operand. -/
def Codes (s : Surroundings) (inside : Bool) (n : Node) (code : Expr) : Prop :=
  ∃ before after, asOperand (visit s inside n) before = (.ok code, after)

/-- The code of a selector.  Literals are kept, and computed subscripts are lowered as operands. -/
inductive SelectorCode (s : Surroundings) (inside : Bool) : TargetStep Node → Expr → Prop
  | index (x : Float) : SelectorCode s inside (.index x) (.index x)
  | field (selection : String) : SelectorCode s inside (.field selection) (.field selection)
  | computed (pos : Position) {subscript : Node} {code : Expr} (h : Codes s inside subscript code) :
      SelectorCode s inside (.computed pos subscript) code

namespace Lowering

/-- What a step after another yields, if it yields something. -/
theorem bind_eq_ok {α β : Type} {m : Lowering α} {f : α → Lowering β} {b : β}
    {before after : Draft} (h : (m >>= f) before = (.ok b, after)) :
    ∃ a between, m before = (.ok a, between) ∧ f a between = (.ok b, after) := by
  have hrun : (m >>= f) before = ExceptT.bindCont f (m before).1 (m before).2 := rfl
  rw [hrun] at h
  rcases hm : m before with ⟨_ | a, between⟩ <;> rw [hm] at h
  · cases h
  · exact ⟨a, between, rfl, h⟩

end Lowering

/-- Taking the steps of a target adds the code of each selector to the chain. -/
theorem selectors_of_follow (s : Surroundings) (inside : Bool) (steps : List (TargetStep Node))
    {chain chain' : Target.Partial Expr} {before after : Draft}
    (h : Target.follow (some id) (steps.map (TargetStep.map fun index =>
      asOperand (visit s inside index))) chain before = (.ok chain', after)) :
    ∃ codes, chain'.selectors.map selectorArgument =
        chain.selectors.map selectorArgument ++ codes ∧
      List.Forall₂ (SelectorCode s inside) (steps.filter Target.isSelector) codes := by
  induction steps generalizing chain before with
  | nil =>
    cases h
    exact ⟨[], (List.append_nil _).symm, .nil⟩
  | cons step rest ih =>
    -- A selector is added behind those of the chain, ahead of those of the other steps.
    have hadd : ∀ {selector : ChainSelector Expr} {between : Draft},
        SelectorCode s inside step (selectorArgument selector) → Target.isSelector step = true →
        Target.follow (some id)
          (rest.map (TargetStep.map fun index => asOperand (visit s inside index)))
          ⟨chain.base, chain.selectors ++ [selector]⟩ between = (.ok chain', after) →
        ∃ codes, chain'.selectors.map selectorArgument =
            chain.selectors.map selectorArgument ++ codes ∧
          List.Forall₂ (SelectorCode s inside) ((step :: rest).filter Target.isSelector) codes := by
      intro selector between hcode hselector hrest
      obtain ⟨codes, hchain, hcodes⟩ := ih hrest
      refine ⟨selectorArgument selector :: codes, ?_, ?_⟩
      · rw [hchain, List.map_append, List.append_assoc]
        rfl
      · rw [List.filter_cons_of_pos hselector]
        exact .cons hcode hcodes
    cases step with
    | base name =>
      rw [List.filter_cons_of_neg (by simp [Target.isSelector])]
      obtain ⟨base, selectors⟩ := chain
      cases base with
      | some first => cases h
      | none =>
        obtain ⟨codes, hchain, hcodes⟩ := ih h
        exact ⟨codes, hchain, hcodes⟩
    | index x => exact hadd (.index x) rfl h
    | field selection => exact hadd (.field selection) rfl h
    | bad error => cases h
    | computed pos subscript =>
      simp only [List.map_cons, TargetStep.map, Target.follow, Target.advance, bind_assoc,
        pure_bind] at h
      obtain ⟨code, between, hcode, hrest⟩ := Lowering.bind_eq_ok h
      rw [tryCatch_eq] at hcode
      split at hcode
      · rename_i hvisit
        cases hcode
        have hselector : SelectorCode s inside (.computed pos subscript)
            (selectorArgument (.code code)) := .computed pos ⟨_, _, hvisit⟩
        exact hadd hselector rfl hrest
      · cases hcode

/-- A target that is resolved has the codes of its selectors. -/
theorem selectors_of_resolveSteps {s : Surroundings} {inside : Bool} {target : Node}
    {chain : Chain Expr} {before after : Draft}
    (h : Target.resolveSteps target (visitTarget s inside target) (some id) before =
      (.ok chain, after)) :
    List.Forall₂ (SelectorCode s inside) (Target.selectors target)
      (chain.selectors.map selectorArgument) := by
  rw [visitTarget_eq] at h
  unfold Target.resolveSteps at h
  split at h
  · cases h
  · obtain ⟨chain', between, hfollow, hchain⟩ := Lowering.bind_eq_ok h
    obtain ⟨codes, hselectors, hcodes⟩ := selectors_of_follow s inside _ hfollow
    obtain ⟨base, selectors⟩ := chain'
    cases base with
    | none => cases hchain
    | some base =>
      cases hchain
      rw [show selectors.map selectorArgument = codes from hselectors]
      exact hcodes

/-! ## Running arguments -/

namespace Running

/-- Assigns a variable.  In Python the assignment of a global has no value. -/
def writeSlot (d : Dialect) (scope : List Nat) (slot : Slot) (datum : Datum) : Running Datum :=
  match slot with
  | .binding name => do
    writeVariable scope name datum
    pure datum
  | .global name => do
    writeGlobal d name datum
    match d with
    | .javaScript => pure datum
    | .python => pure (.value .void)

end Running

/-- How deep the value of an assignment stands in it. -/
def Slot.depth : Slot → Nat
  | .binding _ => 1
  | .global _ => 2

variable {d : Dialect} {scope : List Nat}

/-- The arguments of two lists are those of the first and then those of the second. -/
theorem evaluateArguments_append (fuel : Nat) (first second : List Expr) :
    evaluateArguments d (fuel + first.length) scope (first ++ second) = (do
      let args ← evaluateArguments d (fuel + first.length) scope first
      let others ← evaluateArguments d fuel scope second
      pure (args ++ others)) := by
  induction first with
  | nil =>
    cases fuel with
    | zero => simp only [List.length_nil, evaluateArguments]; rfl
    | succ fuel => simp [evaluateArguments]
  | cons e rest ih =>
    rw [List.length_cons, List.cons_append, ← Nat.add_assoc]
    simp only [evaluateArguments, ih]
    split <;> simp only [bind_assoc, pure_bind, List.cons_append]

theorem evaluate_invoke (fuel : Nat) (member : String) (args : List Expr) :
    evaluate d (fuel + 1) scope (.invoke member args) =
      (evaluateArguments d fuel scope (Expr.givenArguments d args) >>= callCatalog d member) := by
  rw [evaluate]

/-- The assignment of what a catalog function gives. -/
theorem evaluate_write (fuel : Nat) (slot : Slot) (member : String) (args : List Expr) :
    evaluate d (fuel + 1 + slot.depth) scope (.write slot (.invoke member args)) = (do
      let datum ← evaluate d (fuel + 1) scope (.invoke member args)
      writeSlot d scope slot datum) := by
  cases slot with
  | binding name => rw [Slot.depth, evaluate]; rfl
  | global name =>
    have hgiven : Expr.givenArguments d [.invoke member args] = [.invoke member args] := rfl
    have hargs := evaluateArguments_cons d (fuel + 1) scope
      (fun name value => (Expr.noConfusion : Expr.invoke member args ≠ _)) []
    conv_lhs => rw [Slot.depth, evaluate, hgiven, hargs]
    cases d <;> simp [evaluateArguments, writeSlot]

/-! ## Void arguments -/

namespace Running

variable {α β : Type}

/-- A step that yields nothing, whatever the world. -/
def Fails (m : Running α) : Prop := ∀ w, ∃ halt after, m w = (.error halt, after)

theorem Fails.throw (halt : Halt) : Fails (throw halt : Running α) :=
  fun w => ⟨halt, w, rfl⟩

theorem Fails.after {f : α → Running β} (h : ∀ a, Fails (f a)) (m : Running α) :
    Fails (m >>= f) := by
  intro w
  rw [bind_apply]
  rcases m w with ⟨halt | a, after⟩
  · exact ⟨halt, after, rfl⟩
  · exact h a after

theorem Fails.before {m : Running α} (h : Fails m) (f : α → Running β) : Fails (m >>= f) := by
  intro w
  obtain ⟨halt, after, hm⟩ := h w
  exact ⟨halt, after, by rw [bind_apply, hm]⟩

/-- What would follow a step that yields nothing makes no difference. -/
theorem Fails.bind_eq {m : Running α} (h : Fails m) (f g : α → Running β) :
    m >>= f = m >>= g := by
  funext w
  obtain ⟨halt, after, hm⟩ := h w
  rw [bind_apply, bind_apply, hm]

end Running

/-- What is void yields nothing. -/
theorem fails_of_isVoid {e : Expr} (h : e.isVoid d = true) (fuel : Nat) :
    Fails (evaluate d fuel scope e) := by
  induction fuel generalizing e with
  | zero =>
    rw [evaluate]
    exact .throw _
  | succ fuel ih =>
    cases e with
    | blank =>
      rw [evaluate]
      exact .throw _
    | inert token operand =>
      rw [evaluate]
      cases d with
      | javaScript =>
        rw [Expr.isVoid, Bool.and_eq_true] at h
        exact ih h.2
      | python => cases h
    | _ => cases h

/-- Arguments that end with a void one cannot be evaluated. -/
theorem fails_of_last_isVoid {last : Expr} (h : last.isVoid d = true) (front : List Expr)
    (fuel : Nat) : Fails (evaluateArguments d fuel scope (front ++ [last])) := by
  induction front generalizing fuel with
  | nil =>
    cases fuel with
    | zero =>
      rw [evaluateArguments]
      exact .throw _
    | succ fuel =>
      have hwrite : ∀ name value, last ≠ .write (.binding name) value := by
        rintro name value rfl
        cases h
      rw [List.nil_append, evaluateArguments_cons d fuel scope hwrite]
      exact (fails_of_isVoid h fuel).before _
  | cons e front ih =>
    cases fuel with
    | zero =>
      rw [evaluateArguments]
      exact .throw _
    | succ fuel =>
      simp only [List.cons_append, evaluateArguments]
      split
      · exact .after (fun _ => (ih fuel).before _) _
      · exact .after (fun _ => (ih fuel).before _) _

/-! ## Running assignments -/

namespace Running

/-- Reads a variable, evaluates selectors and a value, and assigns the variable rebuilt with the
value in place of the part at the selectors. -/
def rebuildPart (d : Dialect) (scope : List Nat) (slot : Slot)
    (selectors value : Running (List Argument)) : Running Datum := do
  let base ← readSlot d scope slot
  let path ← selectors
  let part ← value
  let rebuilt ← callCatalog d "set" ({ datum := base } :: (path ++ part))
  writeSlot d scope slot rebuilt

/-- Reads a variable, evaluates selectors and an operand, and applies an operator to the part at the
selectors and the operand. -/
def combinePart (d : Dialect) (scope : List Nat) (slot : Slot) (operator : String)
    (selectors operand : Running (List Argument)) : Running (List Argument) := do
  let base ← readSlot d scope slot
  let path ← selectors
  let current ← callCatalog d "get" ({ datum := base } :: path)
  let operands ← operand
  let datum ← callCatalog d operator ({ datum := current } :: operands)
  pure [{ datum }]

/-- If the selectors yield nothing, it makes no difference what would be put there. -/
theorem Fails.rebuildPart_eq {selectors : Running (List Argument)} (h : Fails selectors)
    (slot : Slot) (value value' : Running (List Argument)) :
    rebuildPart d scope slot selectors value = rebuildPart d scope slot selectors value' := by
  unfold rebuildPart
  congr 1
  funext base
  exact h.bind_eq _ _

end Running

theorem givenArguments_append (front : List Expr) (last : Expr) :
    Expr.givenArguments d (front ++ [last]) = front ++ Expr.givenArguments d [last] := by
  simp only [Expr.givenArguments, List.getLast?_concat, List.dropLast_concat,
    List.getLast?_singleton, List.dropLast_singleton]
  split <;> simp

/-- Arguments that begin with a variable. -/
theorem evaluateArguments_read (fuel : Nat) (slot : Slot) (rest : List Expr) :
    evaluateArguments d (fuel + 2) scope (.read slot :: rest) = (do
      let datum ← readSlot d scope slot
      let others ← evaluateArguments d (fuel + 1) scope rest
      pure ({ datum } :: others)) := by
  rw [evaluateArguments_cons d (fuel + 1) scope (fun name value => Expr.noConfusion), evaluate]

/-- Running code that puts a part. -/
theorem evaluate_set (slot : Slot) (selectors : List Expr) (value : Expr) (fuel : Nat) :
    evaluate d (fuel + selectors.length + 3 + slot.depth) scope
        (.write slot (.invoke "set" (.read slot :: selectors ++ [value]))) =
      rebuildPart d scope slot (evaluateArguments d (fuel + selectors.length + 1) scope selectors)
        (evaluateArguments d (fuel + 1) scope (Expr.givenArguments d [value])) := by
  have happend := @evaluateArguments_append d scope (fuel + 1) selectors
    (Expr.givenArguments d [value])
  rw [Nat.add_right_comm] at happend
  rw [evaluate_write, evaluate_invoke, givenArguments_append, List.cons_append,
    evaluateArguments_read, happend]
  simp only [rebuildPart, bind_assoc, pure_bind]

/-- Running code that gets a part and combines it. -/
theorem evaluateArguments_get (slot : Slot) (operator : String) {selectors : List Expr}
    (hgiven : Expr.givenArguments d (.read slot :: selectors) = .read slot :: selectors)
    (value : Expr) (fuel : Nat) :
    evaluateArguments d (fuel + 6) scope
        [.invoke operator [.invoke "get" (.read slot :: selectors), value]] =
      combinePart d scope slot operator (evaluateArguments d (fuel + 1) scope selectors)
        (evaluateArguments d (fuel + 3) scope (Expr.givenArguments d [value])) := by
  have hoperands : Expr.givenArguments d [.invoke "get" (.read slot :: selectors), value] =
      .invoke "get" (.read slot :: selectors) :: Expr.givenArguments d [value] :=
    givenArguments_append [_] value
  rw [evaluateArguments_cons d (fuel + 5) scope (fun name value => Expr.noConfusion),
    evaluate_invoke, hoperands,
    evaluateArguments_cons d (fuel + 3) scope (fun name value => Expr.noConfusion),
    evaluate_invoke, hgiven, evaluateArguments_read]
  simp only [combinePart, evaluateArguments, bind_assoc, pure_bind]

section

variable (s : Surroundings) (chain : Chain Expr)

/-- Running a plain assignment to a part evaluates the selectors once. -/
theorem evaluate_assign_plain (hselectors : chain.selectors ≠ []) (value : Expr) (fuel : Nat) :
    let selectors := chain.selectors.map selectorArgument
    let slot := s.slot chain.base
    evaluate d (fuel + selectors.length + 3 + slot.depth) scope (assign s chain none value) =
      rebuildPart d scope slot (evaluateArguments d (fuel + selectors.length + 1) scope selectors)
        (evaluateArguments d (fuel + 1) scope (Expr.givenArguments d [value])) := by
  have hcode : assign s chain none value = .write (s.slot chain.base) (.invoke "set"
      (.read (s.slot chain.base) :: chain.selectors.map selectorArgument ++ [value])) := by
    simp [assign, hselectors]
  rw [hcode]
  exact evaluate_set _ _ _ _

/-- Running a compound assignment to a part evaluates the selectors twice. -/
theorem evaluate_assign_compound (hselectors : chain.selectors ≠ []) (operator : String)
    (value : Expr) (fuel : Nat) :
    let selectors := chain.selectors.map selectorArgument
    let slot := s.slot chain.base
    evaluate d (fuel + selectors.length + 8 + slot.depth) scope
        (assign s chain (some operator) value) =
      rebuildPart d scope slot (evaluateArguments d (fuel + selectors.length + 6) scope selectors)
        (combinePart d scope slot operator (evaluateArguments d (fuel + 1) scope selectors)
          (evaluateArguments d (fuel + 3) scope (Expr.givenArguments d [value]))) := by
  intro selectors slot
  have hcode : assign s chain (some operator) value = .write slot (.invoke "set"
      (.read slot :: selectors ++
        [.invoke operator [.invoke "get" (.read slot :: selectors), value]])) := by
    simp [assign, hselectors, selectors, slot]
  have hdepth : fuel + selectors.length + 8 + slot.depth =
      (fuel + 5) + selectors.length + 3 + slot.depth := by omega
  have hfirst : fuel + selectors.length + 6 = fuel + 5 + selectors.length + 1 := by omega
  rw [hcode, hdepth, hfirst, evaluate_set]
  obtain ⟨front, last, hlast⟩ : ∃ front last, selectors = front ++ [last] :=
    (List.eq_nil_or_concat' selectors).resolve_left (by simpa [selectors] using hselectors)
  by_cases hvoid : last.isVoid d = true
  · -- A void selector is left out of `get`, but it does not come to that.
    rw [hlast]
    exact (fails_of_last_isVoid hvoid front _).rebuildPart_eq _ _ _
  · have hgiven : Expr.givenArguments d (.read slot :: selectors) = .read slot :: selectors := by
      rw [hlast, ← List.cons_append, givenArguments_append]
      simp [Expr.givenArguments, hvoid]
    congr 1
    exact evaluateArguments_get slot operator hgiven value fuel

end

/-! ## Nodes -/

/-- What a node assigns, if it does: the operator that is applied before the store, the target, and
the right side.  A step is by one. -/
def Node.stores? : Node → Option (Option String × Node × Node)
  | .binaryExpression _ op left right =>
    (assignmentOperators.lookup op.text).map fun operator => (operator, left, right)
  | .unaryExpression _ op e =>
    (stepOperators.lookup op.text).map fun operator => (some operator, e, .floatLiteral .unknown 1)
  | .postfixExpression _ (.token _ token) e =>
    (stepOperators.lookup token).map fun operator => (some operator, e, .floatLiteral .unknown 1)
  | _ => none

section

variable {s : Surroundings} {inside : Bool} {n target right : Node} {operator : Option String}
  {before after : Draft} {e : Expr}

theorem codes_one : Codes s inside (.floatLiteral .unknown 1) (.float 1) :=
  ⟨{}, {}, by simp only [visit]; rfl⟩

/-- A step is lowered to the assignment of its target. -/
theorem assign_of_step {operator : String} {pos : Position} {token : String}
    (h : (do
      checkAssignment s pos token
      let chain ← Target.resolveSteps target (visitTarget s inside target) (some id)
      pure (assign s chain (some operator) (.float 1)) : Lowering Expr) before = (.ok e, after)) :
    ∃ chain, e = assign s chain (some operator) (.float 1) ∧
      List.Forall₂ (SelectorCode s inside) (Target.selectors target)
        (chain.selectors.map selectorArgument) := by
  obtain ⟨_, checked, _, h⟩ := Lowering.bind_eq_ok h
  obtain ⟨chain, resolved, hchain, h⟩ := Lowering.bind_eq_ok h
  cases h
  exact ⟨chain, rfl, selectors_of_resolveSteps hchain⟩

/-- What assigns is lowered to the assignment of its target. -/
theorem assign_of_visit (hn : n.stores? = some (operator, target, right))
    (h : visit s inside n before = (.ok e, after)) :
    ∃ chain value, e = assign s chain operator value ∧ Codes s inside right value ∧
      List.Forall₂ (SelectorCode s inside) (Target.selectors target)
        (chain.selectors.map selectorArgument) := by
  cases n with
  | binaryExpression pos op left right' =>
    obtain ⟨operator', hlookup, heq⟩ := Option.map_eq_some_iff.mp hn
    cases heq
    rw [visit, hlookup] at h
    obtain ⟨_, checked, _, h⟩ := Lowering.bind_eq_ok h
    obtain ⟨value, valued, hvalue, h⟩ := Lowering.bind_eq_ok h
    obtain ⟨chain, resolved, hchain, h⟩ := Lowering.bind_eq_ok h
    cases h
    exact ⟨chain, value, rfl, ⟨checked, valued, hvalue⟩, selectors_of_resolveSteps hchain⟩
  | unaryExpression pos op operand =>
    -- A step has no right side in the tree; its code adds the number one.
    obtain ⟨operator', hlookup, heq⟩ := Option.map_eq_some_iff.mp hn
    cases heq
    rw [visit, hlookup] at h
    obtain ⟨chain, he, hselectors⟩ := assign_of_step h
    exact ⟨chain, _, he, codes_one, hselectors⟩
  | postfixExpression pos op operand =>
    cases op with
    | selector => cases hn
    | token pos' token =>
      obtain ⟨operator', hlookup, heq⟩ := Option.map_eq_some_iff.mp hn
      cases heq
      rw [visit, hlookup] at h
      obtain ⟨chain, he, hselectors⟩ := assign_of_step h
      exact ⟨chain, _, he, codes_one, hselectors⟩
  | _ => cases hn

/-- Running an assignment as a statement. -/
theorem execute_assign (chain : Chain Expr) (operator : Option String) (value : Expr) (fuel : Nat) :
    execute d (fuel + 1) scope (.eval (assign s chain operator value)) = (do
      let _ ← evaluate d fuel scope (assign s chain operator value)
      pure .normal) := by
  have hvoid : (assign s chain operator value).isVoid d = false := by
    unfold assign
    dsimp only
    split <;> rfl
  rw [execute, hvoid]
  rfl

/-- What the code of a compound assignment or a step to a part of a variable does: it reads the
variable, evaluates all selectors of the target, reads the variable again, evaluates all selectors
again for the current value, and then the right side.  A plain assignment evaluates the selectors
once.  The selectors are the target's own, each computed subscript lowered once; the numbers bound
the depths of the parts of a run. -/
theorem subscripts_evaluated_twice (hn : n.stores? = some (operator, target, right))
    (hpart : Target.selectors target ≠ []) (h : visit s inside n before = (.ok e, after)) :
    ∃ slot selectors value,
      List.Forall₂ (SelectorCode s inside) (Target.selectors target) selectors ∧
      Codes s inside right value ∧
      (∀ d fuel scope, execute d (fuel + 1) scope (.eval e) = (do
        let _ ← evaluate d fuel scope e
        pure .normal)) ∧
      (∀ member, operator = some member → ∀ d fuel scope,
        evaluate d (fuel + selectors.length + 8 + slot.depth) scope e =
          rebuildPart d scope slot
            (evaluateArguments d (fuel + selectors.length + 6) scope selectors)
            (combinePart d scope slot member (evaluateArguments d (fuel + 1) scope selectors)
              (evaluateArguments d (fuel + 3) scope (Expr.givenArguments d [value])))) ∧
      (operator = none → ∀ d fuel scope,
        evaluate d (fuel + selectors.length + 3 + slot.depth) scope e =
          rebuildPart d scope slot
            (evaluateArguments d (fuel + selectors.length + 1) scope selectors)
            (evaluateArguments d (fuel + 1) scope (Expr.givenArguments d [value]))) := by
  obtain ⟨chain, value, rfl, hvalue, hselectors⟩ := assign_of_visit hn h
  have hchain : chain.selectors ≠ [] := by
    intro hnil
    rw [hnil] at hselectors
    exact hpart (List.forall₂_nil_right_iff.mp hselectors)
  refine ⟨s.slot chain.base, chain.selectors.map selectorArgument, value, hselectors, hvalue,
    fun d fuel scope => execute_assign chain operator value fuel, ?_, ?_⟩
  · rintro member rfl d fuel scope
    exact evaluate_assign_compound s chain hchain member value fuel
  · rintro rfl d fuel scope
    exact evaluate_assign_plain s chain hchain value fuel

end

/-- The code of `a[i] += 1` for a global `i`, in the style of assignments as expressions. -/
theorem subscripts_evaluated_twice_index :
    let s : Surroundings := ⟨.javaScript, fun name => name == "i"⟩
    let target : Node := .postfixExpression .unknown
      (.selector .unknown (.indexSelector .unknown (.identifier .unknown "i")))
      (.identifier .unknown "a")
    let n : Node := .binaryExpression .unknown (.token .unknown "+=") target
      (.floatLiteral .unknown 1)
    let code : Expr := .write (.binding "a") (.invoke "set" [.read (.binding "a"),
      .read (.global "i"), .invoke "op_add" [.invoke "get" [.read (.binding "a"),
        .read (.global "i")], .float 1]])
    visit s true n {} = (.ok code, {}) ∧
      ∃ slot selectors value,
        List.Forall₂ (SelectorCode s true) (Target.selectors target) selectors ∧
        ∀ d fuel scope, evaluate d (fuel + selectors.length + 8 + slot.depth) scope code =
          rebuildPart d scope slot
            (evaluateArguments d (fuel + selectors.length + 6) scope selectors)
            (combinePart d scope slot "op_add" (evaluateArguments d (fuel + 1) scope selectors)
              (evaluateArguments d (fuel + 3) scope (Expr.givenArguments d [value]))) := by
  intro s target n code
  have hvisit : visit s true n {} = (.ok code, {}) := by
    simp only [visit, n, target, s, code]
    rfl
  have hn : n.stores? = some (some "op_add", target, .floatLiteral .unknown 1) := rfl
  have hpart : Target.selectors target ≠ [] := by
    simp [target, Target.selectors, Target.steps, Target.subscriptStep, Target.isSelector]
  obtain ⟨slot, selectors, value, hselectors, _, _, htwice, _⟩ :=
    subscripts_evaluated_twice hn hpart hvisit
  exact ⟨hvisit, slot, selectors, value, hselectors, htwice "op_add" rfl⟩

/-- Adds one to the component of a vector that a function picks, which counts its calls. -/
def pickingShader : Shader where
  tree := .program .unknown
    [.functionDeclaration .unknown "pick" (.type .unknown "float" "" "") []
      (.scope .unknown
        [.expressionStatement .unknown
          (.unaryExpression .unknown (.token .unknown "++") (.identifier .unknown "calls")),
         .returnStatement .unknown
          (.binaryExpression .unknown (.token .unknown "-") (.identifier .unknown "calls")
            (.floatLiteral .unknown 1))]),
     .functionDeclaration .unknown "main" (.type .unknown "void" "" "") []
      (.scope .unknown
        [.declarator .unknown (.type .unknown "vec2" "" "")
          [.declaratorItem .unknown (.identifier .unknown "v")
            (.functionCall .unknown "vec2" [.floatLiteral .unknown 10, .floatLiteral .unknown 20])],
         .expressionStatement .unknown
          (.binaryExpression .unknown (.token .unknown "+=")
            (.postfixExpression .unknown
              (.selector .unknown (.indexSelector .unknown (.functionCall .unknown "pick" [])))
              (.identifier .unknown "v"))
            (.floatLiteral .unknown 1)),
         .expressionStatement .unknown
          (.binaryExpression .unknown (.token .unknown "=") (.identifier .unknown "picked")
            (.identifier .unknown "v"))])]
  varyings := [⟨"calls", ""⟩, ⟨"picked", ""⟩]

/-- In both styles the subscript of one compound assignment calls its function twice.  The component
that is read is then another one than the component that is written: the first becomes 21 and not
11. -/
theorem subscript_called_twice :
    let environment : Environment := { values := [("calls", .number 0)] }
    let transcript := "\n".intercalate ["get calls 0", "set calls 1", "get calls 1", "get calls 1",
      "set calls 2", "get calls 2", "set picked vec2(21, 20)"]
    ∃ js py : Program, Style.javaScript.Loads (some pickingShader) js ∧
      Style.python.Loads (some pickingShader) py ∧
      (js.run 0 environment {} .off).2.1.environment.transcript = transcript ∧
      (py.run 0 environment {} .off).2.1.environment.transcript = transcript := by
  have hok : (generate .python (some pickingShader)).result.isOk = true := by decide +kernel
  refine ⟨⟨.javaScript, loweredScript pickingShader⟩, ⟨.python, loweredScript pickingShader⟩,
    loads_of_lowered rfl hok ?_ ?_, loads_of_lowered rfl hok ?_ ?_, ?_, ?_⟩
  all_goals decide +kernel

end ShaderScript
