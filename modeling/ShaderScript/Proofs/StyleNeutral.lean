import ShaderScript.Proofs.Traversal

/-!
# What the style does not decide

The style decides how a script is written.  It does not decide which shaders can be lowered, nor
what is reported of them: only assignments that are used as values are reported in one style and
not in the other.  The decisions on the way are about places that yield nothing, and those are the
same for both styles: what a visit yields is written as nothing in one dialect if and only if it is
in the other (`visit_yields_text`).
-/

namespace ShaderScript

open Lowering

/-! ## Texts that are not empty -/

theorem ofList_ne_empty {cs : List Char} (h : cs ≠ []) : String.ofList cs ≠ "" := by
  intro hempty
  exact h (String.ofList_eq_empty_iff.mp hempty)

theorem intText_ne_empty (i : Int) : intText i ≠ "" := by
  have hdigits : String.ofList (Nat.toDigits 10 i.natAbs) ≠ "" :=
    ofList_ne_empty Nat.toDigits_ne_nil
  unfold intText
  split
  · simp [String.append_eq_empty_iff]
  · exact hdigits

namespace FloatLayout

theorem positionalForm_ne_empty (digits : List Char) (leading : Int) :
    positionalForm digits leading ≠ "" := by
  unfold positionalForm
  split
  · simp [String.append_eq_empty_iff]
  · -- There is at least one digit before the point, and a zero if there is none to put there.
    have hones : digits.take (leading.toNat + 1) ++
        List.replicate (leading.toNat + 1 - digits.length) '0' ≠ [] := by
      intro h
      have hlength := congrArg List.length h
      simp only [List.length_append, List.length_take, List.length_replicate,
        List.length_nil] at hlength
      omega
    dsimp only
    rw [Ne, String.append_eq_empty_iff, not_and]
    exact fun h => absurd h (ofList_ne_empty hones)

theorem magnitudeText_ne_empty (layout : FloatLayout) (d : Decimal) :
    layout.magnitudeText d ≠ "" := by
  unfold magnitudeText
  split
  · decide
  · dsimp only
    split
    · simp [exponentForm, String.append_eq_empty_iff]
    · exact positionalForm_ne_empty _ _

end FloatLayout

theorem floatText_ne_empty (x : Float) : floatText x ≠ "" := by
  unfold floatText FloatLayout.text FloatLayout.textOf
  split
  · decide
  · split <;> decide
  · rw [Ne, String.append_eq_empty_iff, not_and]
    exact fun _ => FloatLayout.magnitudeText_ne_empty _ _

theorem floatLiteral_ne_empty (x : Float) : floatLiteral x ≠ "" := by
  unfold floatLiteral
  dsimp only
  split
  · exact floatText_ne_empty x
  · simp [String.append_eq_empty_iff]

theorem Slot.text_ne_empty (slot : Slot) : slot.text ≠ "" := by
  cases slot <;> simp [Slot.text, localName, String.append_eq_empty_iff]

/-- An expression other than an operator without a token is written as nothing if and only if it is
blank. -/
theorem Expr.text_eq_empty_iff {e : Expr} (h : e ≠ .bare "") (d : Dialect) :
    e.text d = "" ↔ e.isBlank = true := by
  cases e with
  | blank => simp [text, isBlank]
  | bare token =>
    have htoken : token ≠ "" := fun hempty => h (congrArg _ hempty)
    simp [text, isBlank, htoken]
  | read slot => simp [text, isBlank, slot.text_ne_empty]
  | integer i => simp [text, isBlank, intText_ne_empty i]
  | float x => simp [text, isBlank, floatLiteral_ne_empty x]
  | index x => simp [text, isBlank, floatText_ne_empty x]
  | bool b => cases d <;> cases b <;> simp [text, isBlank, Dialect.boolText]
  | field selection | invoke member arguments | call callee arguments =>
    simp [text, isBlank, String.append_eq_empty_iff]
  | choose condition whenTrue whenFalse =>
    cases d <;> simp [text, isBlank, String.append_eq_empty_iff]
  | inert token operand => cases d <;> simp [text, isBlank, String.append_eq_empty_iff]
  | write slot value =>
    cases slot <;> simp [text, isBlank, Slot.assignment, String.append_eq_empty_iff]

/-! ## What visits yield -/

namespace Lowering

variable {α β : Type}

/-- A step only has results of a kind. -/
def Yields (m : Lowering α) (P : α → Prop) : Prop := ∀ d d' a, m d = (.ok a, d') → P a

/-- The last step decides what is yielded. -/
theorem Yields.bind {P : β → Prop} {m : Lowering α} {f : α → Lowering β}
    (h : ∀ a, Yields (f a) P) : Yields (m >>= f) P := by
  intro d d' b hb
  change ExceptT.bindCont f (m d).1 (m d).2 = _ at hb
  generalize m d = r at hb
  obtain ⟨r, after⟩ := r
  cases r with
  | error e => cases hb
  | ok a => exact h a after d' b hb

theorem Yields.pure {P : α → Prop} {a : α} (h : P a) : Yields (Pure.pure a) P := by
  rintro d d' b ⟨rfl⟩
  exact h

end Lowering

theorem call_ne_bare (s : Surroundings) (name : String) (args : List Expr) :
    s.call name args ≠ .bare "" := by
  unfold Surroundings.call
  split
  · exact Expr.noConfusion
  · split <;> exact Expr.noConfusion

theorem assign_ne_bare (s : Surroundings) (chain : Chain Expr) (operator : Option String)
    (value : Expr) : assign s chain operator value ≠ .bare "" := by
  unfold assign
  dsimp only
  split <;> exact Expr.noConfusion

/-- No visit yields an operator without a token. -/
theorem visit_yields_ne_bare (s : Surroundings) (inside : Bool) (n : Node) :
    Yields (visit s inside n) fun e => e ≠ .bare "" := by
  have hblank : Yields (pure Expr.blank) fun e => e ≠ .bare "" := .pure Expr.noConfusion
  have hinert : ∀ token pos operand, Yields (inert token pos operand) fun e => e ≠ .bare "" :=
    fun _ _ _ => .bind fun _ => .pure Expr.noConfusion
  have hstore : ∀ target steps operator value,
      Yields (Target.resolveSteps target steps (some id) >>= fun chain =>
        pure (assign s chain operator value)) fun e => e ≠ .bare "" :=
    fun _ _ _ _ => .bind fun _ => .pure (assign_ne_bare s _ _ _)
  cases n with
  -- The only node that yields an operator yields nothing if the token is empty.
  | operator op =>
    simp only [visit]
    apply Yields.pure
    split
    · exact Expr.noConfusion
    · rename_i htoken
      intro hbare
      exact htoken (by rw [Expr.bare.inj hbare]; rfl)
  -- Expressions yield values.
  | functionCall pos name arguments =>
    simp only [visit]
    exact .bind fun args => .pure (call_ne_bare s name args)
  | identifier | integerLiteral | floatLiteral | booleanLiteral | parameter =>
    simp only [visit]
    exact .pure Expr.noConfusion
  | ternaryExpression =>
    simp only [visit]
    exact .bind fun _ => .bind fun _ => .bind fun _ => .pure Expr.noConfusion
  | binaryExpression pos op left right =>
    simp only [visit]
    split
    · exact .bind fun _ => .bind fun _ => hstore _ _ _ _
    · refine .bind fun _ => .bind fun r => ?_
      split
      · exact .pure Expr.noConfusion
      · exact hinert _ _ _
  | unaryExpression pos op e =>
    simp only [visit]
    split
    · exact .bind fun _ => hstore _ _ _ _
    · refine .bind fun operand => ?_
      split
      · exact .pure Expr.noConfusion
      · exact hinert _ _ _
  | postfixExpression pos op e =>
    cases op with
    | selector pos' selector =>
      simp only [visit]
      exact .bind fun _ => .bind fun _ => .pure Expr.noConfusion
    | token pos' token =>
      simp only [visit]
      split
      · exact .bind fun _ => hstore _ _ _ _
      · exact .bind fun _ => hinert _ _ _
  -- Statements yield nothing.
  | declarator =>
    simp only [visit]
    split
    · exact .bind fun _ => hblank
    · exact hblank
  | declaratorItem =>
    simp only [visit]
    split
    · split
      · exact .bind fun _ => .bind fun _ => hblank
      · exact .bind fun _ => hblank
    · exact hblank
  | ifStatement =>
    simp only [visit]
    refine .bind fun _ => ?_
    split <;> exact .bind fun _ => hblank
  | functionDeclaration | forStatement =>
    simp only [visit]
    exact .bind fun _ => .bind fun _ => .bind fun _ => hblank
  | whileStatement | doStatement | returnStatement =>
    simp only [visit]
    exact .bind fun _ => .bind fun _ => hblank
  | program | scope | continueStatement | breakStatement | discardStatement
  | expressionStatement =>
    simp only [visit]
    exact .bind fun _ => hblank
  | _ =>
    simp only [visit]
    exact hblank

/-- What a visit yields is written as nothing if and only if it is blank. -/
theorem visit_yields_text (s : Surroundings) (inside : Bool) (n : Node) :
    Yields (visit s inside n) fun e => ∀ d : Dialect, e.text d = "" ↔ e.isBlank = true :=
  fun d d' e he => Expr.text_eq_empty_iff (visit_yields_ne_bare s inside n d d' e he)

/-! ## Reports -/

namespace Site

/-- In an expression an assignment is reported with a code of its own, if at all. -/
theorem code_of_mem_assignmentReports {s : Surroundings} {st : Standing} {pos : Position}
    {token : String} {d : Diagnostic} (h : d ∈ assignmentReports s st pos token) :
    d.code = .assignInExpression := by
  unfold assignmentReports at h
  split at h
  · cases h
  · rw [List.mem_singleton.mp h]
    rfl

/-- Up to assignments used as values, a site is worth the same reports in all styles. -/
theorem reports_styleFree (style style' : Style) (isGlobal : String → Bool) (site : Site) :
    (site.reports ⟨style, isGlobal⟩).filter (·.code ≠ .assignInExpression) =
      (site.reports ⟨style', isGlobal⟩).filter (·.code ≠ .assignInExpression) := by
  induction site with
  | assignment pos token st =>
    have hnone : ∀ s : Surroundings,
        (assignmentReports s st pos token).filter (·.code ≠ .assignInExpression) = [] := by
      intro s
      rw [List.filter_eq_nil_iff]
      intro d hd
      simp [code_of_mem_assignmentReports hd]
    rw [reports, reports, hnone, hnone]
  | subscript site ih => exact ih
  | _ => rfl

end Site

/-- Up to assignments used as values, all styles report the same of a shader. -/
theorem reports_styleFree (style style' : Style) (shader : Option Shader) :
    (generate style shader).reports.filter (·.code ≠ .assignInExpression) =
      (generate style' shader).reports.filter (·.code ≠ .assignInExpression) := by
  -- Both styles tell of the same sites, since these do not depend on the style.
  rw [(generate_tells style shader).1, (generate_tells style' shader).1, List.filter_flatMap,
    List.filter_flatMap]
  exact List.flatMap_congr fun site _ => Site.reports_styleFree style style' _ site

/-- A style whose dialect has assignments in expressions reports none. -/
theorem code_ne_of_mem_generate_reports {style : Style}
    (hstyle : style.dialect.assignsInExpressions = true) {shader : Option Shader} {d : Diagnostic}
    (h : d ∈ (generate style shader).reports) : d.code ≠ .assignInExpression := by
  rcases kind_of_mem_reports h with ⟨-, hcode⟩ | ⟨-, -, hshort⟩
  · rintro hassign
    rw [hassign] at hcode
    exact absurd hcode (by decide)
  · rw [hstyle] at hshort
    cases hshort

/-- Both styles lower a shader to the same script or fail with the same error.  JavaScript reports
what Python does without the assignments used as values, of which it reports none.  Whether a place
yields nothing, on which lowering decides, is the same in both dialects. -/
theorem verdict_style_neutral (shader : Option Shader) :
    (generate .javaScript shader).result = (generate .python shader).result ∧
    (generate .javaScript shader).reports =
      (generate .python shader).reports.filter (·.code ≠ .assignInExpression) ∧
    (∀ d ∈ (generate .javaScript shader).reports, d.code ≠ .assignInExpression) ∧
    (∀ style inside n d d' e, visit (surroundingsOf style shader) inside n d = (.ok e, d') →
      ∀ dialect : Dialect, e.text dialect = "" ↔ e.isBlank = true) := by
  have hnone : ∀ d ∈ (generate .javaScript shader).reports, d.code ≠ .assignInExpression :=
    fun d hd => code_ne_of_mem_generate_reports rfl hd
  refine ⟨(generate_alike .javaScript .python shader).1, ?_, hnone, ?_⟩
  · rw [← reports_styleFree .javaScript .python, eq_comm, List.filter_eq_self]
    intro d hd
    exact decide_eq_true (hnone d hd)
  · intro style inside n d d' e he
    exact visit_yields_text _ inside n d d' e he

end ShaderScript
