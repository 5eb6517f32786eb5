import ShaderScript.Proofs.CompoundAssignment

/-!
# What a test takes for true

The catalog has its own notion of truth (`truth`): a number is true unless it is zero.  A script
tests its conditions itself, by the rules of its dialect and on the value as the script sees it
(`Dialect.isTrue`, `Dialect.incoming`).  The two differ on few numbers (`Misjudged`): JavaScript
takes NaN for false, and a Python script takes every number for true that is neither a double nor
an integer of 64 bits, zero among them.

A script tests in four constructs.  Three are statements (`Stmt.test?`): `if`, `while` and `do`.
Each evaluates its condition and goes on in one of two ways (`Stmt.execute_eq`).  The fourth is the
choice between two expressions, which may stand wherever an expression does (`evaluate_choose`).
-/

namespace ShaderScript

open Lowering Running

/-! ## Numbers taken for true or false -/

/-- NaN is not zero. -/
theorem bne_zero_of_isNaN {x : Float} (h : x.isNaN = true) : (x != 0) = true := by
  have h : x.toModel.unpack.isNaN = true := h
  show (!x.toModel.unpack.beq (0 : Float).toModel.unpack) = true
  cases hunpacked : x.toModel.unpack with
  | notANumber => rfl
  | _ => rw [hunpacked] at h; cases h

/-- The test of JavaScript differs from that of the catalog on NaN. -/
theorem and_not_isNaN (x : Float) :
    (¬ x.isNaN = true → (x != 0 && !x.isNaN) = (x != 0)) ∧
      (x.isNaN = true → (x != 0 && !x.isNaN) = !(x != 0)) := by
  cases hnan : x.isNaN with
  | false => exact ⟨fun _ => Bool.and_true _, fun h => absurd h Bool.false_ne_true⟩
  | true =>
    rw [bne_zero_of_isNaN hnan]
    decide

/-- The values on which the tests of a script and the catalog differ. -/
def Misjudged : Dialect → Value → Prop
  | .javaScript, .number x => x.isNaN = true
  | .javaScript, .host _ x => x.isNaN = true
  | .python, .host form x => form ≠ .int64 ∧ (x == 0) = true
  | _, _ => False

section

variable {d : Dialect} {v : Value} {b : Bool}

/-- What the catalog takes for true does not depend on how a script sees a value. -/
theorem exists_incoming (h : truth v = .ok b) :
    ∃ u, d.incoming v = .value u ∧ truth u = .ok b := by
  unfold Dialect.incoming
  repeat' split
  all_goals exact ⟨_, rfl, h⟩

/-- A script takes a scalar for what the catalog takes it for, unless it is misjudged: then for the
opposite. -/
theorem isTrue_incoming (h : truth v = .ok b) :
    (¬ Misjudged d v → d.isTrue (d.incoming v) = b) ∧
      (Misjudged d v → d.isTrue (d.incoming v) = !b) := by
  cases v with
  | bool c =>
    cases h
    exact ⟨fun _ => rfl, fun hwrong => by cases d <;> exact hwrong.elim⟩
  | number x =>
    cases h
    cases d with
    | javaScript => exact and_not_isNaN x
    | python => exact ⟨fun _ => rfl, fun hwrong => hwrong.elim⟩
  | host form x =>
    cases h
    cases d with
    | javaScript => exact and_not_isNaN x
    | python =>
      by_cases hform : form = .int64
      · subst hform
        exact ⟨fun _ => rfl, fun hwrong => absurd rfl hwrong.1⟩
      · simp only [Misjudged, Dialect.incoming, Dialect.isTrue, if_neg hform, bne]
        cases x == 0 <;> simp [hform]
  | _ => cases h

end

/-! ## Conditions -/

/-- The world after a global was read. -/
def World.reading (w : World) (x : String) : World :=
  { w with environment := (w.environment.get x).2 }

section

variable {d : Dialect} {scope : List Nat} {fuel : Nat} {w w' : World} {x : String} {v : Value}
  {b : Bool} {e : Expr}

theorem evaluate_global (h : w.environment.find? x = some v) :
    evaluate d (fuel + 1) scope (.read (.global x)) w = (.ok (d.incoming v), w.reading x) := by
  rw [evaluate, readSlot, readGlobal, bind_apply, get_apply]
  simp only [World.reading, Environment.get, h]
  rw [bind_apply, set_apply]
  rfl

theorem logicalNot_eq (h : truth v = .ok b) : logicalNot [v] = .ok (.bool !b) := by
  show (do return .bool (!(← operandTruth "op_lnot" .only v)) : Outcome Value) = _
  rw [operandTruth, h]
  rfl

theorem find?_logicalNot : Catalog.find? "op_lnot" = some (.computes logicalNot) := rfl

/-- The negation of what evaluates to a scalar. -/
theorem evaluate_not {u : Value} (hwrite : ∀ slot value, e ≠ .write slot value)
    (hvoid : e.isVoid d = false) (h : evaluate d (fuel + 1) scope e w = (.ok (.value u), w'))
    (hu : truth u = .ok b) :
    evaluate d (fuel + 3) scope (.invoke "op_lnot" [e]) w = (.ok (.value (.bool !b)), w') := by
  have hgiven : Expr.givenArguments d [e] = [e] := by
    simp [Expr.givenArguments, hvoid]
  have hargs : evaluateArguments d (fuel + 2) scope [e] w = (.ok (unnamed [u]), w') := by
    rw [evaluateArguments_cons d (fuel + 1) scope (fun name value => hwrite _ value), bind_apply, h]
    dsimp only
    rw [bind_apply, evaluateArguments]
    rfl
  rw [evaluate_invoke, hgiven, bind_apply, hargs]
  dsimp only
  rw [callCatalog_unnamed, Catalog.call, find?_logicalNot]
  simp only [Catalog.CatalogEntry.apply, logicalNot_eq hu, answered, Dialect.incoming]

end

/-! ## Statements that test -/

namespace Stmt

/-- The condition that a branch or a loop tests. -/
def test? : Stmt → Option Expr
  | branch condition _ _ => some condition
  | loop condition _ => some condition
  | doLoop condition _ => some condition
  | _ => none

/-- The statement, executed in `w`, comes to its test in `w'`: at once, or where its body comes
first, when that has ended.  Where `continue` goes past the test, it does not come to it. -/
def Reaches (d : Dialect) (fuel : Nat) (scope : List Nat) (w w' : World) : Stmt → Prop
  | doLoop _ body => ∃ flow, executeAll d fuel scope body w = (.ok flow, w') ∧
      (flow = .normal ∨ flow = .next ∧ d = .javaScript)
  | _ => w' = w

/-- What a statement does after its test. -/
def goOn (d : Dialect) (fuel : Nat) (scope : List Nat) (b : Bool) : Stmt → Running Flow
  | branch _ body otherwise =>
    if b then executeAll d (fuel + 1) scope body
    else
      match otherwise with
      | none => pure .normal
      | some other => executeAll d (fuel + 1) scope other
  | loop condition body =>
    if b then do
      match ← executeAll d fuel scope body with
      | .returned datum => pure (.returned datum)
      | .left => pure .normal
      | _ => repeatWhile d fuel scope condition body
    else pure .normal
  | doLoop condition body =>
    if b then repeatUntil d fuel scope condition body else pure .normal
  | _ => pure .normal

variable {d : Dialect} {scope : List Nat} {fuel : Nat} {w w' after : World} {condition : Expr}
  {t : Stmt} {datum : Datum}

/-- A statement that tests goes on as the dialect takes the condition. -/
theorem execute_eq (htest : t.test? = some condition) (hreach : t.Reaches d fuel scope w w')
    (hblank : condition.isBlank = false)
    (heval : ∀ more, evaluate d (fuel + more) scope condition w' = (.ok datum, after)) :
    execute d (fuel + 2) scope t w = t.goOn d fuel scope (d.isTrue datum) after := by
  have hnow : evaluate d fuel scope condition w' = (.ok datum, after) := heval 0
  cases t with
  | branch _ body otherwise =>
    cases htest
    obtain rfl : w' = w := hreach
    cases otherwise <;> rw [execute, bind_apply, heval 1, goOn]
  | loop _ body =>
    cases htest
    obtain rfl : w' = w := hreach
    rw [execute, repeatWhile, bind_apply, hnow]
    rfl
  | doLoop _ body =>
    cases htest
    -- The body comes first, and in Python `continue` goes past the test.
    obtain ⟨flow, hbody, hflow⟩ := hreach
    rw [execute, repeatUntil, bind_apply, hbody, goOn]
    have hafter : (do
        if condition.isBlank then pure .normal
        else if d.isTrue (← evaluate d fuel scope condition) then
          repeatUntil d fuel scope condition body
        else pure .normal : Running Flow) w' =
        (if d.isTrue datum then repeatUntil d fuel scope condition body
          else pure .normal) after := by
      rw [hblank]
      show (evaluate d fuel scope condition >>= _) w' = _
      rw [bind_apply, hnow]
    rcases hflow with rfl | ⟨rfl, rfl⟩
    · cases d <;> exact hafter
    · exact hafter
  | _ => cases htest

end Stmt

/-! ## Tests of a global -/

/-- The node `!n`. -/
def Node.negated (pos : Position) (n : Node) : Node := .unaryExpression pos (.token pos "!") n

section

variable {s : Surroundings} {inside : Bool} {pos : Position} {x : String} {v : Value} {b : Bool}

/-- The code of a negation is the call of a catalog function. -/
theorem visit_negated {operand : Node} {code : Expr} (h : visit s inside operand = pure code) :
    visit s inside (operand.negated pos) = pure (.invoke "op_lnot" [code]) := by
  rw [Node.negated, visit, h]
  rfl

theorem visit_global (hx : s.isGlobal x = true) :
    visit s inside (.identifier pos x) = pure (.read (.global x)) := by
  rw [visit, Surroundings.slot, if_pos hx]

/-- Whatever tests `code`, which reads the global `x` once, goes on as for the truth value `b` if
`x` holds `v` there. -/
structure Follows (d : Dialect) (code : Expr) (x : String) (v : Value) (b : Bool) : Prop where
  statement : ∀ (t : Stmt) fuel scope w w', t.test? = some code → 5 ≤ fuel →
    t.Reaches d fuel scope w w' → w'.environment.find? x = some v →
    execute d (fuel + 2) scope t w = t.goOn d fuel scope b (w'.reading x)
  choice : ∀ whenTrue whenFalse fuel scope (w : World), 5 ≤ fuel →
    w.environment.find? x = some v →
    evaluate d (fuel + 1) scope (.choose code whenTrue whenFalse) w =
      evaluate d fuel scope (if b then whenTrue else whenFalse) (w.reading x)

/-- A test follows what the dialect takes the value of the code for. -/
theorem follows_of_evaluate {d : Dialect} {code : Expr} {datum : Datum}
    (hwrite : ∀ slot value, code.pastComments ≠ .write slot value) (hblank : code.isBlank = false)
    (heval : ∀ fuel scope w, 5 ≤ fuel → w.environment.find? x = some v →
      evaluate d fuel scope code w = (.ok datum, w.reading x))
    (htrue : d.isTrue datum = b) : Follows d code x v b := by
  constructor
  case statement =>
    intro t fuel scope w w' htest hfuel hreach hfind
    rw [Stmt.execute_eq htest hreach hblank
      (fun more => heval (fuel + more) scope w' (by omega) hfind), htrue]
  case choice =>
    intro whenTrue whenFalse fuel scope w hfuel hfind
    rw [evaluate_choose d fuel scope fun _ name => hwrite (.binding name), bind_apply,
      heval fuel scope w hfuel hfind]
    dsimp only
    rw [htrue]
    cases b <;> rfl

/-- A global negated twice is what the catalog takes it for. -/
theorem evaluate_not_not {d : Dialect} {scope : List Nat} {fuel : Nat} {w : World}
    (hv : truth v = .ok b) (h : w.environment.find? x = some v) (hfuel : 5 ≤ fuel) :
    evaluate d fuel scope (.invoke "op_lnot" [.invoke "op_lnot" [.read (.global x)]]) w =
      (.ok (.value (.bool b)), w.reading x) := by
  obtain ⟨fuel, rfl⟩ := Nat.exists_eq_add_of_le' hfuel
  obtain ⟨u, hu, htruth⟩ := @exists_incoming d v b hv
  have hread := @evaluate_global d scope fuel w x v h
  rw [hu] at hread
  have hnot := evaluate_not (fun _ _ => Expr.noConfusion) rfl hread htruth
  have hnotNot := @evaluate_not d scope (fuel + 2) w (w.reading x) (!b) _ (.bool !b)
    (fun _ _ => Expr.noConfusion) rfl hnot rfl
  rw [Bool.not_not] at hnotNot
  exact hnotNot

theorem exists_truth {n : Float} (h : v.scalar? = some n) : ∃ b, truth v = .ok b := by
  cases v with
  | bool c => exact ⟨c, rfl⟩
  | number x | host form x => exact ⟨x != 0, rfl⟩
  | _ => cases h

end

/-- What the tests that are generated for a global do if it holds a scalar: those of branches and
loops, and every choice between two expressions.  They go on as the catalog's truth of the scalar
says, or the other way if it is misjudged; where the global is negated twice, always as the truth
says. -/
theorem branches_follow_truth {s : Surroundings} {x : String} {v : Value} {n : Float}
    (hx : s.isGlobal x = true) (hv : v.scalar? = some n) :
    ∃ plain negated b, truth v = .ok b ∧
      (∀ inside pos, visit s inside (.identifier pos x) = pure plain ∧
        visit s inside (((Node.identifier pos x).negated pos).negated pos) = pure negated) ∧
      (¬ Misjudged s.style.dialect v → Follows s.style.dialect plain x v b) ∧
      (Misjudged s.style.dialect v → Follows s.style.dialect plain x v (!b)) ∧
      Follows s.style.dialect negated x v b := by
  obtain ⟨b, hb⟩ := exists_truth hv
  have hplain : ∀ c, s.style.dialect.isTrue (s.style.dialect.incoming v) = c →
      Follows s.style.dialect (.read (.global x)) x v c := by
    intro c hc
    refine follows_of_evaluate (fun _ _ => Expr.noConfusion) rfl
      (fun fuel scope w hfuel hfind => ?_) hc
    obtain ⟨fuel, rfl⟩ := Nat.exists_eq_add_of_le' (Nat.le_trans (by decide : 1 ≤ 5) hfuel)
    exact evaluate_global hfind
  refine ⟨_, _, b, hb, fun inside pos =>
    ⟨visit_global hx, visit_negated (visit_negated (visit_global hx))⟩,
    fun hfair => ?_, fun hwrong => ?_, ?_⟩
  · exact hplain b ((isTrue_incoming hb).1 hfair)
  · exact hplain (!b) ((isTrue_incoming hb).2 hwrong)
  · exact follows_of_evaluate (fun _ _ => Expr.noConfusion) rfl
      (fun fuel scope w hfuel hfind => evaluate_not_not hb hfind hfuel) rfl

/-- The integer zero of a machine word, in a script of the Python style. -/
theorem branches_follow_truth_word :
    let s : Surroundings := ⟨.python, fun name => name == "x"⟩
    let zero : Value := .host .word 0
    s.isGlobal "x" = true ∧ zero.scalar? = some 0 ∧ truth zero = .ok false ∧
      ∃ plain, visit s true (.identifier .unknown "x") = pure plain ∧
        Follows .python plain "x" zero true := by
  intro s zero
  have hfalse : truth zero = .ok false := rfl
  have hwrong : Misjudged s.style.dialect zero := ⟨by decide, rfl⟩
  obtain ⟨plain, negated, b, hb, hcode, -, hplain, -⟩ :=
    @branches_follow_truth s "x" zero 0 rfl rfl
  obtain rfl : false = b := Except.ok.inj (hfalse.symm.trans hb)
  exact ⟨rfl, rfl, hfalse, plain, (hcode true .unknown).1, hplain hwrong⟩

/-- Tests a global as it is and negated twice. -/
def testingShader : Shader where
  tree := .program .unknown
    [.functionDeclaration .unknown "main" (.type .unknown "void" "" "") []
      (.scope .unknown
        [.ifStatement .unknown (.identifier .unknown "x") (marks "plain" 1) (marks "plain" 2),
         .ifStatement .unknown
          (((Node.identifier .unknown "x").negated .unknown).negated .unknown)
          (marks "negated" 1) (marks "negated" 2)])]
  uniforms := [⟨"x", ""⟩]
  varyings := [⟨"plain", ""⟩, ⟨"negated", ""⟩]
where
  /-- Assigns a number to a global. -/
  marks (name : String) (mark : Float) : Node :=
    .expressionStatement .unknown (.binaryExpression .unknown (.token .unknown "=")
      (.identifier .unknown name) (.floatLiteral .unknown mark))

/-- The two tests part on a zero of a machine word: the plain one takes it for true. -/
theorem negated_twice_differs :
    ∃ py : Program, Style.python.Loads (some testingShader) py ∧
      (py.run 0 { values := [("x", .host .word 0)] } {} .off).2.1.environment.transcript =
        "get x 0\nset plain 1\nget x 0\nset negated 2" := by
  have hok : (generate .python (some testingShader)).result.isOk = true := by decide +kernel
  refine ⟨⟨.python, loweredScript testingShader⟩, loads_of_lowered rfl hok ?_ ?_, ?_⟩
  all_goals decide +kernel

end ShaderScript
