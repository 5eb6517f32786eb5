import ShaderScript.Proofs.AlikeWorlds

/-!
# Runs in both dialects

A shared script runs alike in both dialects as long as its run in Python is orderly and `continue`
only skips tests that would have been passed unseen.  `AgreesAt fuel` says so of every function of
the evaluator at a depth; each case of the evaluator is one step from a depth to the next, and
`agreesAt` puts them together by induction on the depth.  Both dialects use up the depth at the same
pace, so the bound is hit in both or in none.

A test that only JavaScript makes may be undone if it changed nothing.  That is why the statement
also says what a step in Python leaves as it was.
-/

namespace ShaderScript

open Running Value

/-! ## Tests and numbers -/

theorem Running.of_andThen {α : Type} {r : Except Halt α × World} {next : α → World → Bool}
    (h : andThen r next = true) {a : α} {w : World} (hr : r = (.ok a, w)) : next a w = true := by
  subst hr
  exact h

/-- A test of an orderly run that ended gave a truth value. -/
theorem Running.of_decides {r : Except Halt Datum × World} {next : Bool → World → Bool}
    (h : decides r next = true) {d : Datum} {w : World} (hr : r = (.ok d, w)) :
    ∃ b, d = .value (.bool b) ∧ next b w = true := by
  subst hr
  simp only [decides] at h
  split at h
  · rename_i b w heq
    cases heq
    exact ⟨b, rfl, h⟩
  · exact nomatch h
  · rename_i heq
    exact nomatch heq

theorem SameValue.eq_bool {d : Datum} {b : Bool} (h : SameValue d (.value (.bool b))) :
    d = .value (.bool b) := by
  cases h with
  | @intro v v' hv =>
    cases v <;> simp_all [Value.Alike, plain]

theorem isInf_of_isFinite {x : Float} (h : x.isFinite = true) : x.isInf = false := by
  change x.toModel.unpack.isFinite = true at h
  change x.toModel.unpack.isInf = false
  cases hx : x.toModel.unpack with
  | infinity sign =>
    rw [hx] at h
    exact nomatch h
  | _ => rfl

theorem floatValue_of_isFinite {x : Float} (h : x.isFinite = true) (d : Dialect) :
    d.floatValue x = .ok x := by
  cases d with
  | javaScript => simp [Dialect.floatValue, isInf_of_isFinite h]
  | python => simp [Dialect.floatValue, h]

/-- Literal subscripts differ in the sign of zero at most, and pick alike. -/
theorem index_alike {x : Float} (h : x.isFinite = true) (fuel : Nat) (scope scope' : List Nat)
    {P : Pairing} {w w' : World} (hw : w.Alike P w') :
    RunsAlike P [] (fun d d' => ∃ v v', d = .value v ∧ d' = .value v' ∧ v.PicksAlike v') w'
      (evaluate .javaScript fuel scope (.index x) w)
      (evaluate .python fuel scope' (.index x) w') := by
  cases fuel with
  | zero => exact .throw hw (.refl _)
  | succ fuel =>
    simp only [evaluate, Dialect.indexValue, floatValue_of_isFinite h]
    by_cases hzero : (x == 0) = true
    · rw [if_pos hzero]
      refine .pure hw ⟨_, _, rfl, rfl, .number ?_⟩
      rw [truncateToInt64?_of_beq_zero hzero]
      exact (truncateToInt64?_of_beq_zero (by decide)).symm
    · rw [if_neg hzero]
      exact .pure hw ⟨_, _, rfl, rfl, .alike rfl⟩

/-! ## The evaluator at a depth -/

/-- Two statements ended alike. -/
inductive FlowAlike : Flow → Flow → Prop
  | normal : FlowAlike .normal .normal
  | returned {d d' : Datum} (h : SameValue d d') : FlowAlike (.returned d) (.returned d')
  | left : FlowAlike .left .left
  | next : FlowAlike .next .next

/-- Two lists of arguments are the values of expressions, by place. -/
def GivenFor (es : List Expr) (args args' : List Argument) : Prop :=
  ∃ vs vs', args = unnamed vs ∧ args' = unnamed vs' ∧ Expr.ArgumentsFor es vs vs'

def ExpressionAgrees (fuel : Nat) : Prop :=
  ∀ {P scope scope' e w w'}, e.Shared → List.Forall₂ P scope scope' →
    World.Alike P w w' → orderly true fuel scope' e w' = true →
    RunsAlike P [] SameValue w' (evaluate .javaScript fuel scope e w)
      (evaluate .python fuel scope' e w')

def AssignmentAgrees (fuel : Nat) : Prop :=
  ∀ {P scope i' scope' slot value w w'}, value.Shared →
    List.Forall₂ P scope (i' :: scope') → World.Alike P w w' →
    w'.Binds i' (Stmt.bound .python (.eval (.write slot value))) →
    orderly true fuel (i' :: scope') (.write slot value) w' = true →
    RunsAlike P [i'] (fun _ _ => True) w' (evaluate .javaScript fuel scope (.write slot value) w)
      (evaluate .python fuel (i' :: scope') (.write slot value) w')

def ArgumentsAgree (fuel : Nat) : Prop :=
  ∀ {P scope scope' es w w'}, (∀ e ∈ es, e.Selects) → List.Forall₂ P scope scope' →
    World.Alike P w w' → orderlyArguments true fuel scope' es w' = true →
    RunsAlike P [] (GivenFor es) w' (evaluateArguments .javaScript fuel scope es w)
      (evaluateArguments .python fuel scope' es w')

def CallAgrees (fuel : Nat) : Prop :=
  ∀ {P f f' vs vs' w w'}, Datum.Alike P f f' → List.Forall₂ Value.Alike vs vs' →
    World.Alike P w w' → orderlyCall true fuel f' (unnamed vs') w' = true →
    RunsAlike P [] SameValue w' (apply .javaScript fuel f (unnamed vs) w)
      (apply .python fuel f' (unnamed vs') w')

def StatementAgrees (fuel : Nat) : Prop :=
  ∀ {P scope i' scope' s w w'}, s.Shared → List.Forall₂ P scope (i' :: scope') →
    World.Alike P w w' → w'.Binds i' (s.bound .python) →
    orderlyStep true fuel (i' :: scope') s w' = true →
    RunsAlike P [i'] FlowAlike w' (execute .javaScript fuel scope s w)
      (execute .python fuel (i' :: scope') s w')

def StatementsAgree (fuel : Nat) : Prop :=
  ∀ {P scope i' scope' body w w'}, (∀ s ∈ body, s.Shared) →
    List.Forall₂ P scope (i' :: scope') → World.Alike P w w' →
    w'.Binds i' (Stmt.allBound .python body) →
    orderlyAll true fuel (i' :: scope') body w' = true →
    RunsAlike P [i'] FlowAlike w' (executeAll .javaScript fuel scope body w)
      (executeAll .python fuel (i' :: scope') body w')

def WhileAgrees (fuel : Nat) : Prop :=
  ∀ {P scope i' scope' condition body w w'}, condition.Shared →
    (∀ s ∈ body, s.Shared) → List.Forall₂ P scope (i' :: scope') → World.Alike P w w' →
    w'.Binds i' (Stmt.allBound .python body) →
    orderlyWhile true fuel (i' :: scope') condition body w' = true →
    RunsAlike P [i'] FlowAlike w' (repeatWhile .javaScript fuel scope condition body w)
      (repeatWhile .python fuel (i' :: scope') condition body w')

def UntilAgrees (fuel : Nat) : Prop :=
  ∀ {P scope i' scope' condition body w w'}, condition.Shared →
    (∀ s ∈ body, s.Shared) → List.Forall₂ P scope (i' :: scope') → World.Alike P w w' →
    w'.Binds i' (Stmt.allBound .python body) →
    orderlyUntil true fuel (i' :: scope') condition body w' = true →
    RunsAlike P [i'] FlowAlike w' (repeatUntil .javaScript fuel scope condition body w)
      (repeatUntil .python fuel (i' :: scope') condition body w')

/-- At a depth, every function of the evaluator runs alike in both dialects on what is shared and
orderly, in scopes that belong together.  In Python an expression changes no activation; statements
change the innermost one at most, if it has the names that they bind. -/
structure AgreesAt (fuel : Nat) : Prop where
  expression : ExpressionAgrees fuel
  assignment : AssignmentAgrees fuel
  arguments : ArgumentsAgree fuel
  call : CallAgrees fuel
  statement : StatementAgrees fuel
  statements : StatementsAgree fuel
  whileLoop : WhileAgrees fuel
  untilLoop : UntilAgrees fuel

theorem agreesAt_zero : AgreesAt 0 where
  expression _ _ hw _ := .throw hw (.refl _)
  assignment _ _ hw _ _ := .throw hw (.refl _)
  arguments _ _ hw _ := .throw hw (.refl _)
  call _ _ hw _ := .throw hw (.refl _)
  statement _ _ hw _ _ := .throw hw (.refl _)
  statements _ _ hw _ _ := .throw hw (.refl _)
  whileLoop _ _ _ hw _ _ := .throw hw (.refl _)
  untilLoop _ _ _ hw _ _ := .throw hw (.refl _)

namespace AgreesAt

variable {fuel : Nat} (ih : AgreesAt fuel) {P : Pairing} {i' : Nat} {scope scope' : List Nat}
  {w w' : World}

include ih

variable {condition : Expr} {body : List Stmt}

/-- A test, and what follows it. -/
theorem test {α : Type} {own : List Nat} {R : α → α → Prop} (hc : condition.Shared)
    (hscope : List.Forall₂ P scope scope') (hw : w.Alike P w') {next : Bool → World → Bool}
    (horder : (orderly true fuel scope' condition w' && decides
      (evaluate .python fuel scope' condition w') next) = true) {yes yes' no no' : Running α}
    (hyes : ∀ {Q v v'}, P ≤ Q → World.Alike Q v v' → Kept own w' v' → next true v' = true →
      RunsAlike Q own R v' (yes v) (yes' v'))
    (hno : ∀ {Q v v'}, P ≤ Q → World.Alike Q v v' → Kept own w' v' → next false v' = true →
      RunsAlike Q own R v' (no v) (no' v')) :
    RunsAlike P own R w'
      ((evaluate .javaScript fuel scope condition >>= fun d =>
        if Dialect.isTrue .javaScript d then yes else no) w)
      ((evaluate .python fuel scope' condition >>= fun d =>
        if Dialect.isTrue .python d then yes' else no') w') := by
  rw [Bool.and_eq_true] at horder
  refine ((ih.expression hc hscope hw horder.1).within own).bind
    fun Q d d' v v' hPQ hd hv hkept heval => ?_
  obtain ⟨b, rfl, hnext⟩ := of_decides horder.2 heval
  cases hd.eq_bool
  cases b with
  | true => exact hyes hPQ hv hkept hnext
  | false => exact hno hPQ hv hkept hnext

theorem expression_succ : ExpressionAgrees (fuel + 1) := by
  intro P scope scope' e w w' he hscope hw horder
  cases e with
  | read slot =>
    cases slot with
    | binding name => exact readVariable_alike hw hscope horder
    | global name => exact readGlobal_alike hw name
  | integer i | bool b | field selection => exact .pure hw (.intro rfl)
  | float x =>
    cases he with
    | float h =>
      simp only [evaluate, floatValue_of_isFinite h]
      exact .pure hw (.intro rfl)
  | invoke member args =>
    obtain ⟨given, hgiven, hselects, halike⟩ := he.invoke_arguments
    simp only [orderly, hgiven] at horder
    simp only [evaluate, hgiven]
    refine (ih.arguments hselects hscope hw horder).bind fun Q as as' v v' hPQ has hv _ _ => ?_
    obtain ⟨vs, vs', rfl, rfl, hvs⟩ := has
    exact callCatalog_alike hv (halike vs vs' hvs)
  | call callee args =>
    cases he with
    | @call _ _ given hgiven hshared =>
      simp only [orderly, hgiven, Bool.and_eq_true] at horder
      simp only [evaluate, hgiven]
      refine (readCallee_alike hw hscope horder.1).bind fun Q f f' v v' hPQ hf hv _ hread => ?_
      -- The run goes on from where Python read the callee.
      rw [readCallee_python] at hread
      have hcall := of_andThen horder.2 hread
      rw [Bool.and_eq_true] at hcall
      have hselects : ∀ e ∈ given, e.Selects := fun e he => .inl (hshared e he)
      refine (ih.arguments hselects (scope_mono hPQ hscope) hv hcall.1).bind
        fun T as as' u u' hQT has hu _ hargs => ?_
      obtain ⟨vs, vs', rfl, rfl, hvs⟩ := has
      have halike := hvs.alike fun e he => (hshared e he).isIndex
      exact ih.call (hf.mono (hPQ.trans hQT)) halike hu (of_andThen hcall.2 hargs)
  | choose condition whenTrue whenFalse =>
    cases he with
    | choose hc ht hf =>
      have hwrite := fun name => hc.pastComments_ne_write (.binding name)
      rw [evaluate_choose _ _ _ fun _ => hwrite, evaluate_choose _ _ _ fun _ => hwrite]
      refine ih.test hc hscope hw horder (fun hPQ hv _ hnext => ?_) fun hPQ hv _ hnext => ?_
      · exact ih.expression ht (scope_mono hPQ hscope) hv hnext
      · exact ih.expression hf (scope_mono hPQ hscope) hv hnext
  | inert token operand =>
    cases he with
    | inert _ h => exact ih.expression h hscope hw horder
  | blank | index x | bare token | write slot value => cases he

/-- An assignment as a statement.  Its value is not used, and differs: where a global is written, a
call in Python gives none. -/
theorem assignment_succ : AssignmentAgrees (fuel + 1) := by
  intro P scope i' scope' slot value w w' hvalue hscope hw hbinds horder
  cases slot with
  | binding name =>
    simp only [orderly] at horder
    simp only [evaluate]
    refine ((ih.expression hvalue hscope hw horder).within [i']).bind
      fun Q d d' v v' hPQ hd hv hkept _ => ?_
    -- The name is still there, so the assignment does not fall through to an outer activation.
    have hname := hkept.binds hbinds name (List.mem_singleton.mpr rfl)
    refine (writeVariable_alike hv (scope_mono hPQ hscope) hname (hd.alike Q)).bind
      fun _ _ _ u u' _ _ hu _ _ => ?_
    exact .pure hu trivial
  | global name =>
    simp only [orderly, hvalue.givenArguments_singleton] at horder
    simp only [evaluate, hvalue.givenArguments_singleton]
    refine ((ih.arguments hvalue.selects_singleton hscope hw horder).within [i']).bind
      fun Q as as' v v' hPQ has hv _ _ => ?_
    obtain ⟨vs, vs', rfl, rfl, hvs⟩ := has
    cases hvs with
    | cons _ halike hrest =>
      cases hrest
      refine ((writeGlobal_alike hv name (.intro (halike hvalue.isIndex))).within [i']).bind
        fun _ _ _ u u' _ _ hu _ _ => ?_
      exact .pure hu trivial

theorem arguments_succ : ArgumentsAgree (fuel + 1) := by
  intro P scope scope' es w w' hes hscope hw horder
  cases es with
  | nil => exact .pure hw ⟨[], [], rfl, rfl, .nil⟩
  | cons e rest =>
    have he := hes e List.mem_cons_self
    simp only [orderlyArguments, Bool.and_eq_true] at horder
    rw [evaluateArguments_cons _ _ _ he.ne_write, evaluateArguments_cons _ _ _ he.ne_write]
    -- The value of the first argument, and why it is alike or picks alike.
    have hfirst : RunsAlike P [] (fun d d' => ∃ v v', d = .value v ∧ d' = .value v' ∧
        v.PicksAlike v' ∧ (e.isIndex = false → v.Alike v')) w'
        (evaluate .javaScript fuel scope e w) (evaluate .python fuel scope' e w') := by
      rcases he with hshared | ⟨x, rfl, hx⟩
      · refine (ih.expression hshared hscope hw horder.1).mono ?_
        rintro _ _ ⟨hv⟩
        exact ⟨_, _, rfl, rfl, .alike hv, fun _ => hv⟩
      · refine (index_alike hx fuel scope scope' hw).mono ?_
        rintro _ _ ⟨v, v', rfl, rfl, hpick⟩
        exact ⟨v, v', rfl, rfl, hpick, fun h => nomatch h⟩
    refine hfirst.bind fun Q d d' u u' hPQ hd hu _ heval => ?_
    obtain ⟨v, v', rfl, rfl, hpick, halike⟩ := hd
    have hrest := of_andThen horder.2 heval
    have hselects : ∀ e ∈ rest, e.Selects := fun e he => hes e (List.mem_cons_of_mem _ he)
    refine (ih.arguments hselects (scope_mono hPQ hscope) hu hrest).bind
      fun _ as as' t t' _ has ht _ _ => ?_
    obtain ⟨vs, vs', rfl, rfl, hvs⟩ := has
    exact .pure ht ⟨v :: vs, v' :: vs', rfl, rfl, .cons hpick halike hvs⟩

theorem call_succ : CallAgrees (fuel + 1) := by
  intro P f f' vs vs' w w' hf hvs hw horder
  cases hf with
  | value _ => exact .throw hw (.refl _)
  | @function f names hf scope hscope =>
    simp only [orderlyCall, Bool.and_eq_true, beq_iff_eq] at horder
    have hlength : vs'.length = f.parameters.length := by
      simpa [unnamed] using horder.1
    obtain ⟨a, a', ha, ha', halike, hnames⟩ := activation_alike P hf hvs hlength
    rw [ha'] at horder
    -- Where a function stands has no part in how it starts.
    have ha : activation .javaScript { f with scope } (unnamed vs) = some a := ha
    simp only [apply, ha, ha']
    refine enter_alike hw halike fun Q i i' v v' hPQ hpair hv hnew henter => ?_
    have hbinds : v'.Binds i' (Stmt.allBound .python f.body) := by
      intro n hn
      rw [hnew]
      exact hnames n hn
    have hbody := of_andThen horder.2 henter
    have hscopes : List.Forall₂ Q (i :: scope) (i' :: f.scope) :=
      .cons hpair (scope_mono hPQ hscope)
    refine (ih.statements hf.body hscopes hv hbinds hbody).bind
      fun _ flow flow' u u' _ hflow hu _ _ => ?_
    cases hflow with
    | returned hd => exact .pure hu hd
    | normal | left | next => exact .pure hu (.intro rfl)

theorem statement_succ : StatementAgrees (fuel + 1) := by
  intro P scope i' scope' s w w' hs hscope hw hbinds horder
  cases hs with
  | idle => exact .pure hw .normal
  | eval he =>
    simp only [orderlyStep] at horder
    simp only [execute, he.isVoid]
    refine ((ih.expression he hscope hw horder).within [i']).bind
      fun _ _ _ v v' _ _ hv _ _ => ?_
    exact .pure hv .normal
  | assign slot hvalue =>
    simp only [orderlyStep] at horder
    refine (ih.assignment hvalue hscope hw hbinds horder).bind
      fun _ _ _ v v' _ _ hv _ _ => ?_
    exact .pure hv .normal
  | declare name hinitial =>
    simp only [orderlyStep] at horder
    simp only [execute, hinitial.isBlank]
    refine ((ih.expression hinitial hscope hw horder).within [i']).bind
      fun Q d d' v v' hPQ hd hv hkept _ => ?_
    -- Evaluating keeps what the activation binds, so the name is still its own.
    have hname := hkept.binds hbinds name (List.mem_singleton.mpr rfl)
    refine (writeVariable_alike hv (scope_mono hPQ hscope) hname (hd.alike Q)).bind
      fun _ _ _ u u' _ _ hu _ _ => ?_
    exact .pure hu .normal
  | retNothing => exact .pure hw (.returned (.intro rfl))
  | ret hvalue =>
    simp only [orderlyStep, Bool.and_eq_true, Bool.not_eq_true'] at horder
    simp only [execute, Expr.returnsNothing, hvalue.isVoid, horder.1]
    refine ((ih.expression hvalue hscope hw horder.2).within [i']).bind
      fun _ d d' v v' _ hd hv _ _ => ?_
    exact .pure hv (.returned hd)
  | leave => exact .pure hw .left
  | next => exact .pure hw .next
  | @branch condition body otherwise hc hb ho =>
    refine ih.test hc hscope hw horder (fun hPQ hv hkept hnext => ?_) fun hPQ hv hkept hnext => ?_
    · refine ih.statements hb (scope_mono hPQ hscope) hv (hkept.binds fun n hn => hbinds n ?_) hnext
      cases otherwise <;> exact List.mem_append_left _ hn
    · cases otherwise with
      | none => exact .pure hv .normal
      | some other =>
        have hother := hkept.binds fun n hn => hbinds n (List.mem_append_right _ hn)
        exact ih.statements (ho other rfl) (scope_mono hPQ hscope) hv hother hnext
  | loop hc hb => exact ih.whileLoop hc hb hscope hw hbinds horder
  | doLoop hc hb => exact ih.untilLoop hc hb hscope hw hbinds horder
  | @function name parameters names body hnames hbound hb =>
    have hclosure : Closure.Shared ⟨parameters, body, i' :: scope'⟩ names := ⟨hnames, hbound, hb⟩
    have hname := hbinds name (List.mem_singleton.mpr rfl)
    refine (writeVariable_alike hw hscope hname (.function hclosure hscope)).bind
      fun _ _ _ v v' _ _ hv _ _ => ?_
    exact .pure hv .normal

theorem statements_succ : StatementsAgree (fuel + 1) := by
  intro P scope i' scope' body w w' hbody hscope hw hbinds horder
  cases body with
  | nil => exact .pure hw .normal
  | cons s rest =>
    simp only [orderlyAll, Bool.and_eq_true] at horder
    simp only [executeAll]
    have hs := hbody s List.mem_cons_self
    have hrest : ∀ s ∈ rest, s.Shared := fun s hs => hbody s (List.mem_cons_of_mem _ hs)
    have hfirst : w'.Binds i' (s.bound .python) := fun n hn => hbinds n (List.mem_append_left _ hn)
    refine (ih.statement hs hscope hw hfirst horder.1).bind
      fun Q flow flow' v v' hPQ hflow hv hkept hexec => ?_
    have hnext := of_andThen horder.2 hexec
    cases hflow with
    | normal =>
      have hothers := hkept.binds fun n hn => hbinds n (List.mem_append_right _ hn)
      exact ih.statements hrest (scope_mono hPQ hscope) hv hothers hnext
    | returned hd => exact .pure hv (.returned hd)
    | left => exact .pure hv .left
    | next => exact .pure hv .next

theorem whileLoop_succ : WhileAgrees (fuel + 1) := by
  intro P scope i' scope' condition body w w' hc hbody hscope hw hbinds horder
  refine ih.test hc hscope hw horder (fun hPQ hv hkept hnext => ?_) fun _ hv _ _ => .pure hv .normal
  rw [Bool.not_true, Bool.false_or, Bool.and_eq_true] at hnext
  have hscope := scope_mono hPQ hscope
  have hbinds := hkept.binds hbinds
  refine (ih.statements hbody hscope hv hbinds hnext.1).bind
    fun Q flow flow' u u' hPQ hflow hu hkept hexec => ?_
  have hagain := of_andThen hnext.2 hexec
  have hscope := scope_mono hPQ hscope
  cases hflow with
  | returned hd => exact .pure hu (.returned hd)
  | left => exact .pure hu .normal
  | normal | next => exact ih.whileLoop hc hbody hscope hu (hkept.binds hbinds) hagain

/-- A test that Python skips and JavaScript makes: if it would have been passed unseen, it is true
in JavaScript, and what follows may start from the world in which Python skipped it. -/
theorem skipped (hc : condition.Shared) (hscope : List.Forall₂ P scope scope') (hw : w.Alike P w')
    (horder : orderly true fuel scope' condition w' = true)
    (hunseen : passesUnseen w' (evaluate .python fuel scope' condition w') = true) :
    ∃ Q v, evaluate .javaScript fuel scope condition w = (.ok (.value (.bool true)), v) ∧ P ≤ Q ∧
      v.Alike Q w' := by
  have hrun := ih.expression hc hscope hw horder
  rcases htest : evaluate .python fuel scope' condition w' with ⟨r, after⟩
  rw [htest] at hrun hunseen
  unfold passesUnseen at hunseen
  split at hunseen
  · rename_i after' heq
    cases heq
    rw [Bool.and_eq_true, beq_iff_eq, decide_eq_true_eq] at hunseen
    -- Nothing was recorded, so the environment is the same.
    have henvironment : after.environment = w'.environment := by
      rcases hrun.kept.record with heq | hlonger
      · exact heq
      · exact absurd hunseen.1 (Nat.ne_of_gt hlonger)
    obtain ⟨Q, d, v, hjs, hPQ, hd, hv⟩ := hrun.of_ok
    cases hd.eq_bool
    obtain ⟨T, hPT, hworld⟩ := hw.rewind hPQ hv hrun.kept henvironment hunseen.2
    exact ⟨T, v, hjs, hPT, hworld⟩
  · exact nomatch hunseen

/-- After a pass of a loop with the test at its end.  Where the pass ended with `continue`, only
JavaScript makes the test. -/
theorem untilLoop_succ : UntilAgrees (fuel + 1) := by
  intro P scope i' scope' condition body w w' hc hbody hscope hw hbinds horder
  simp only [orderlyUntil, Bool.and_eq_true] at horder
  simp only [repeatUntil]
  refine (ih.statements hbody hscope hw hbinds horder.1).bind
    fun Q flow flow' v v' hPQ hflow hv hkept hexec => ?_
  have hnext := of_andThen horder.2 hexec
  have hscope := scope_mono hPQ hscope
  have hbinds := hkept.binds hbinds
  cases hflow with
  | returned hd => exact .pure hv (.returned hd)
  | left => exact .pure hv .normal
  | normal =>
    simp only [hc.isBlank]
    refine ih.test hc hscope hv hnext (fun hPQ hu hkept hagain => ?_)
      fun _ hu _ _ => .pure hu .normal
    exact ih.untilLoop hc hbody (scope_mono hPQ hscope) hu (hkept.binds hbinds) hagain
  | next =>
    simp only [Bool.not_true, Bool.false_or, Bool.and_eq_true] at hnext
    obtain ⟨⟨htest, hunseen⟩, hagain⟩ := hnext
    -- JavaScript makes a test here that Python leaves out, and nothing sees its effects.
    obtain ⟨T, u, hjs, hQT, hu⟩ := ih.skipped hc hscope hv htest hunseen
    simp only [hc.isBlank, Bool.false_eq_true, if_false]
    rw [bind_apply, hjs]
    exact (ih.untilLoop hc hbody (scope_mono hQT hscope) hu hbinds hagain).after hQT (.refl _ _)

end AgreesAt

/-- At every depth the evaluator runs alike in both dialects. -/
theorem agreesAt (fuel : Nat) : AgreesAt fuel := by
  induction fuel with
  | zero => exact agreesAt_zero
  | succ fuel ih =>
    exact ⟨ih.expression_succ, ih.assignment_succ, ih.arguments_succ, ih.call_succ,
      ih.statement_succ, ih.statements_succ, ih.whileLoop_succ, ih.untilLoop_succ⟩

end ShaderScript
