import ShaderScript.Proofs.SplitWorlds
import ShaderScript.Proofs.StyleAgreement

/-!
# Runs with a variable split in two

Code with two variables, of which every use is of the one that was written last, runs as it does
when the two are joined.  The proof goes by the depth of a run: at each depth every function of the
evaluator takes joined worlds to joined worlds, and what it knows to be written last is what the
flow rules say (`JoinsAt`).
-/

namespace ShaderScript

open Running

/-- Two statements ended alike, with what is known to be written last where the code goes on. -/
inductive FlowJoins (σ : Split) (r : Region) (left next c : LastWrite) (scope : List Nat)
    (ties : List Tie) : Flow → Flow → Prop
  | normal (h : Stands ties r c scope) : FlowJoins σ r left next c scope ties .normal .normal
  | returned {d d' : Datum} (h : d.Joins σ ties d') :
      FlowJoins σ r left next c scope ties (.returned d) (.returned d')
  | left (h : Stands ties r left scope) : FlowJoins σ r left next c scope ties .left .left
  | next (h : Stands ties r next scope) : FlowJoins σ r left next c scope ties .next .next

/-- Where ways meet behind a statement, less may be known. -/
theorem FlowJoins.leads {σ : Split} {r : Region} {left next c c' : LastWrite} {scope : List Nat}
    {ties : List Tie} {flow flow' : Flow} (h : FlowJoins σ r left next c scope ties flow flow')
    (hc : c.Leads c') : FlowJoins σ r left next c' scope ties flow flow' := by
  cases h with
  | normal h => exact .normal (h.leads hc)
  | returned h => exact .returned h
  | left h => exact .left h
  | next h => exact .next h

section Depth

variable (σ : Split) (fuel : Nat)

def ExpressionJoins : Prop :=
  ∀ {ties r c e c' scope w w'}, Expr.Flows σ r c e c' → Stands ties r c scope →
    World.Joins σ ties w w' →
    RunsJoined σ scope.head? ties (fun ties' d d' => d.Joins σ ties' d' ∧ Stands ties' r c' scope)
      (evaluate σ.dialect fuel scope e w) (evaluate σ.dialect fuel scope (e.rename σ.joined) w')

def AssignmentJoins : Prop :=
  ∀ {ties r c n value c₁ c' scope w w'}, Expr.Flows σ r c value c₁ → σ.Writes r c₁ n c' →
    Stands ties r c scope → World.Joins σ ties w w' →
    RunsJoined σ scope.head? ties (fun ties' d d' => d.Joins σ ties' d' ∧ Stands ties' r c' scope)
      (evaluate σ.dialect fuel scope (.write (.binding n) value) w)
      (evaluate σ.dialect fuel scope ((Expr.write (.binding n) value).rename σ.joined) w')

def ArgumentsJoin : Prop :=
  ∀ {ties r c es c' scope w w'}, Expr.AllFlow σ r c es c' → Stands ties r c scope →
    World.Joins σ ties w w' →
    RunsJoined σ scope.head? ties (fun ties' args args' =>
        List.Forall₂ (ArgumentJoins σ ties') args args' ∧ Stands ties' r c' scope)
      (evaluateArguments σ.dialect fuel scope es w)
      (evaluateArguments σ.dialect fuel scope (Expr.renameAll σ.joined es) w')

def CallJoins : Prop :=
  ∀ {ties f f' args args' w w'}, Datum.Joins σ ties f f' →
    List.Forall₂ (ArgumentJoins σ ties) args args' → World.Joins σ ties w w' →
    RunsJoined σ none ties (fun ties' => Datum.Joins σ ties') (apply σ.dialect fuel f args w)
      (apply σ.dialect fuel f' args' w')

def StatementJoins : Prop :=
  ∀ {ties r left next c s c' scope w w'}, Stmt.Flows σ r left next c s c' →
    Stands ties r c scope → World.Joins σ ties w w' →
    RunsJoined σ scope.head? ties (FlowJoins σ r left next c' scope)
      (execute σ.dialect fuel scope s w) (execute σ.dialect fuel scope (s.rename σ.joined) w')

def StatementsJoin : Prop :=
  ∀ {ties r left next c body c' scope w w'}, Stmt.AllFlow σ r left next c body c' →
    Stands ties r c scope → World.Joins σ ties w w' →
    RunsJoined σ scope.head? ties (FlowJoins σ r left next c' scope)
      (executeAll σ.dialect fuel scope body w)
      (executeAll σ.dialect fuel scope (Stmt.renameAll σ.joined body) w')

def WhileJoins : Prop :=
  ∀ {ties r left next head c₁ c₂ c' condition body scope w w'}, Expr.Flows σ r head condition c₁ →
    Stmt.AllFlow σ r c' head c₁ body c₂ → c₂.Leads head → c₁.Leads c' →
    Stands ties r head scope → World.Joins σ ties w w' →
    RunsJoined σ scope.head? ties (FlowJoins σ r left next c' scope)
      (repeatWhile σ.dialect fuel scope condition body w)
      (repeatWhile σ.dialect fuel scope (condition.rename σ.joined)
        (Stmt.renameAll σ.joined body) w')

def UntilJoins : Prop :=
  ∀ {ties r left next head test c₁ c₂ c' condition body scope w w'},
    Stmt.AllFlow σ r c' (σ.continues head test) head body c₁ → c₁.Leads test →
    Expr.Flows σ r test condition c₂ → c₂.Leads head → c₂.Leads c' →
    Stands ties r head scope → World.Joins σ ties w w' →
    RunsJoined σ scope.head? ties (FlowJoins σ r left next c' scope)
      (repeatUntil σ.dialect fuel scope condition body w)
      (repeatUntil σ.dialect fuel scope (condition.rename σ.joined)
        (Stmt.renameAll σ.joined body) w')

/-- At a depth, every function of the evaluator runs as it does when the names are joined. -/
structure JoinsAt : Prop where
  expression : ExpressionJoins σ fuel
  assignment : AssignmentJoins σ fuel
  arguments : ArgumentsJoin σ fuel
  call : CallJoins σ fuel
  statement : StatementJoins σ fuel
  statements : StatementsJoin σ fuel
  whileLoop : WhileJoins σ fuel
  untilLoop : UntilJoins σ fuel

end Depth

variable {σ : Split}

theorem joinsAt_zero : JoinsAt σ 0 where
  expression _ _ hw := .throw hw _
  assignment _ _ _ hw := .throw hw _
  arguments _ _ hw := .throw hw _
  call _ _ hw := .throw hw _
  statement _ _ hw := .throw hw _
  statements _ _ hw := .throw hw _
  whileLoop _ _ _ _ _ hw := .throw hw _
  untilLoop _ _ _ _ _ _ hw := .throw hw _

theorem isTrue_joined (dialect : Dialect) {ties : List Tie} {d d' : Datum} (h : d.Joins σ ties d') :
    dialect.isTrue d = dialect.isTrue d' := by
  cases h <;> rfl

/-- An assignment as the condition of a choice takes the whole choice as its value. -/
theorem evaluate_choose_assigned (fuel : Nat) (scope : List Nat) {condition : Expr} {n : String}
    {value : Expr} (h : condition.pastComments = .write (.binding n) value)
    (whenTrue whenFalse : Expr) :
    evaluate .javaScript (fuel + 1) scope (.choose condition whenTrue whenFalse) =
      evaluate .javaScript fuel scope
        (.write (.binding n) (.choose value whenTrue whenFalse)) := by
  simp only [evaluate, h]

theorem rename_ne_write {ν : Naming} {e : Expr} (h : ∀ n value, e ≠ .write (.binding n) value)
    (n : String) (value : Expr) : e.rename ν ≠ .write (.binding n) value := by
  cases e with
  | write slot inner =>
    cases slot with
    | binding name => exact absurd rfl (h name inner)
    | global name => exact fun heq => by cases heq
  | _ => exact fun heq => by cases heq

/-- Arguments are given by place, unless an assignment names one. -/
theorem evaluateArguments_placed (d : Dialect) (fuel : Nat) (scope : List Nat) {e : Expr}
    (h : d.assignsInExpressions = false → ∀ n value, e ≠ .write (.binding n) value)
    (rest : List Expr) :
    evaluateArguments d (fuel + 1) scope (e :: rest) = (do
      let datum ← evaluate d fuel scope e
      let others ← evaluateArguments d fuel scope rest
      pure ({ datum } :: others)) := by
  cases d with
  | javaScript => simp only [evaluateArguments, pure_bind]
  | python => exact evaluateArguments_cons .python fuel scope (h rfl) rest

theorem constant_joined {fuel : Nat} {ties : List Tie} {scope : List Nat} {w w' : World}
    {e : Expr} (he : e.isConstant = true) (hw : w.Joins σ ties w') :
    RunsJoined σ none ties (fun ties' => Datum.Joins σ ties')
      (evaluate σ.dialect (fuel + 1) scope e w)
      (evaluate σ.dialect (fuel + 1) scope (e.rename σ.joined) w') := by
  cases e with
  | read slot =>
    cases slot with
    | binding name => cases he
    | global name => exact readGlobal_joined hw _ name
  | integer i | bool b | field selection => exact .pure hw (.value _)
  | blank | bare token => exact .throw hw _
  | float x =>
    simp only [Expr.rename, evaluate]
    cases σ.dialect.floatValue x with
    | ok x => exact .pure hw (.value _)
    | error e => exact .throw hw _
  | index x =>
    simp only [Expr.rename, evaluate]
    cases σ.dialect.indexValue x with
    | ok x => exact .pure hw (.value _)
    | error e => exact .throw hw _
  | invoke member args | call callee args | choose condition whenTrue whenFalse
  | inert token operand | write slot value => cases he

/-- Writing a global, and what the write gives. -/
theorem store_joined {own : Option Nat} {ties : List Tie} {w w' : World} {r : Region}
    {c : LastWrite} {scope : List Nat} (hw : w.Joins σ ties w') (hscope : Stands ties r c scope)
    (dialect : Dialect) (name : String) {d d' u u' : Datum} (hd : d.Joins σ ties d')
    (hu : u.Joins σ ties u') :
    RunsJoined σ own ties (fun ties' u u' => u.Joins σ ties' u' ∧ Stands ties' r c scope)
      ((writeGlobal dialect name d >>= fun _ => pure u) w)
      ((writeGlobal dialect name d' >>= fun _ => pure u') w') := by
  refine ((writeGlobal_joined hw dialect name hd).of_none own).bind fun _ hv heq => ?_
  subst heq
  exact .pure hv ⟨hu, hscope⟩

namespace JoinsAt

variable {fuel : Nat} (ih : JoinsAt σ fuel) {ties : List Tie} {r : Region} {scope : List Nat}
  {w w' : World}

include ih

/-- A condition is taken alike, and what follows it goes on from there. -/
theorem test {α : Type} {R : List Tie → α → α → Prop} {condition : Expr} {c c' : LastWrite}
    (hc : condition.Flows σ r c c') (hscope : Stands ties r c scope) (hw : w.Joins σ ties w')
    {yes yes' no no' : Running α}
    (hyes : ∀ {ties' v v'}, Stands ties' r c' scope → World.Joins σ ties' v v' →
      RunsJoined σ scope.head? ties' R (yes v) (yes' v'))
    (hno : ∀ {ties' v v'}, Stands ties' r c' scope → World.Joins σ ties' v v' →
      RunsJoined σ scope.head? ties' R (no v) (no' v')) :
    RunsJoined σ scope.head? ties R
      ((evaluate σ.dialect fuel scope condition >>= fun d =>
        if σ.dialect.isTrue d then yes else no) w)
      ((evaluate σ.dialect fuel scope (condition.rename σ.joined) >>= fun d =>
        if σ.dialect.isTrue d then yes' else no') w') := by
  refine (ih.expression hc hscope hw).bind fun _ hv hd => ?_
  rw [isTrue_joined σ.dialect hd.1]
  split
  · exact hyes hd.2 hv
  · exact hno hd.2 hv

theorem assignment_succ : AssignmentJoins σ (fuel + 1) := by
  intro ties r c n value c₁ c' scope w w' h hn hscope hw
  simp only [Expr.rename, Slot.rename, evaluate]
  refine (ih.expression h hscope hw).bind fun _ hv hdatum => ?_
  refine (writeVariable_joined hv hn hdatum.2 hdatum.1).bind fun hkeeps hu hstands => ?_
  exact .pure hu ⟨hdatum.1.mono hkeeps, hstands⟩

theorem expression_succ : ExpressionJoins σ (fuel + 1) := by
  intro ties r c e c' scope w w' he hscope hw
  cases he with
  | constant h => exact (constant_joined h hw).standing hscope _
  | read h => exact (readVariable_joined hw h hscope).standing hscope _
  | invoke member h =>
    simp only [Expr.rename, evaluate, Expr.givenArguments_rename]
    refine (ih.arguments h hscope hw).bind fun _ hv hargs => ?_
    exact (callCatalog_joined hargs.1 hv σ.dialect member).standing hargs.2 _
  | call hcallee h =>
    simp only [Expr.rename, evaluate, Expr.givenArguments_rename]
    refine ((readCallee_joined hw hcallee hscope).standing hscope _).bind fun _ hv hf => ?_
    refine (ih.arguments h hf.2 hv).bind fun hkeeps hu hargs => ?_
    exact (ih.call (hf.1.mono hkeeps) hargs.1 hu).standing hargs.2 _
  | choose hplain hcondition htrue hfalse h₂ h₃ =>
    rw [Expr.rename, evaluate_choose _ _ _ hplain,
      evaluate_choose _ _ _ fun hd => Expr.pastComments_rename σ.joined _ ▸
        rename_ne_write (hplain hd)]
    refine ih.test hcondition hscope hw (fun hstands hv => ?_) fun hstands hv => ?_
    · exact (ih.expression htrue hstands hv).mono fun _ hd => ⟨hd.1, hd.2.leads h₂⟩
    · exact (ih.expression hfalse hstands hv).mono fun _ hd => ⟨hd.1, hd.2.leads h₃⟩
  | chooseAssigned hd hcondition h =>
    have hrun := ih.expression h hscope hw
    have hrenamed := (Expr.pastComments_rename σ.joined _).trans
      (congrArg (Expr.rename σ.joined) hcondition)
    rw [hd] at hrun ⊢
    rw [Expr.rename, evaluate_choose_assigned fuel scope hcondition,
      evaluate_choose_assigned fuel scope hrenamed]
    exact hrun
  | inert token h =>
    simp only [Expr.rename, evaluate]
    exact ih.expression h hscope hw
  | write hd h hn => exact ih.assignment_succ h hn hscope hw
  | @writeGlobal _ _ name value h =>
    have hgiven : Expr.givenArguments σ.dialect [value.rename σ.joined] =
        Expr.renameAll σ.joined (Expr.givenArguments σ.dialect [value]) :=
      Expr.givenArguments_rename σ.joined σ.dialect [value]
    simp only [Expr.rename, Slot.rename, evaluate, hgiven]
    refine (ih.arguments h hscope hw).bind fun _ hv hargs => ?_
    obtain ⟨hargs, hstands⟩ := hargs
    cases hd : σ.dialect with
    | javaScript =>
      -- A missing argument is undefined.
      cases hargs with
      | nil => exact store_joined hv hstands _ name (.value .void) (.value .void)
      | cons h _ => exact store_joined hv hstands _ name h.datum h.datum
    | python =>
      cases hargs with
      | nil => exact .throw hv _
      | @cons a a' _ _ h hrest =>
        obtain ⟨argument, datum⟩ := a
        obtain ⟨argument', datum'⟩ := a'
        obtain ⟨rfl, rfl, hdatum⟩ := h
        cases hrest with
        | cons _ _ => exact .throw hv _
        | nil => exact store_joined hv hstands _ name hdatum (.value .void)

theorem arguments_succ : ArgumentsJoin σ (fuel + 1) := by
  intro ties r c es c' scope w w' hes hscope hw
  cases hes with
  | nil => exact .pure hw ⟨.nil, hscope⟩
  | cons h hrest =>
    rw [Expr.renameAll, evaluateArguments_placed _ _ _ h.ne_write,
      evaluateArguments_placed _ _ _ fun hd => rename_ne_write (h.ne_write hd)]
    refine (ih.expression h hscope hw).bind fun _ hv hd => ?_
    refine (ih.arguments hrest hd.2 hv).bind fun hkeeps hu hargs => ?_
    exact .pure hu ⟨.cons ⟨rfl, rfl, hd.1.mono hkeeps⟩ hargs.1, hargs.2⟩

theorem call_succ : CallJoins σ (fuel + 1) := by
  intro ties f f' args args' w w' hf hargs hw
  cases hf with
  | value v => exact .throw hw _
  | @function r r₀ left next c₀ c₁ names f hparameters hbegins hbody hscope =>
    have hactivation := activation_joined hargs hparameters hbegins hbody
    simp only [apply]
    generalize activation σ.dialect f args = a at hactivation ⊢
    generalize activation σ.dialect { f with body := Stmt.renameAll σ.joined f.body } args' = a'
      at hactivation ⊢
    cases hactivation with
    | none => exact .throw hw _
    | some ha =>
      refine enter_joined hw ha fun hv => ?_
      refine (ih.statements hbody (hbegins.stands hscope) hv).bind fun _ hu hflow => ?_
      cases hflow with
      | returned h => exact .pure hu h
      | normal h => exact .pure hu (.value _)
      | left h => exact .pure hu (.value _)
      | next h => exact .pure hu (.value _)

theorem statement_succ : StatementJoins σ (fuel + 1) := by
  intro ties r left next c s c' scope w w' hs hscope hw
  cases hs with
  | void h =>
    simp only [Stmt.rename, execute, Expr.isVoid_rename, h, if_true]
    exact .pure hw (.normal hscope)
  | eval hvoid h =>
    simp only [Stmt.rename, execute, Expr.isVoid_rename, hvoid]
    exact (ih.expression h hscope hw).bind fun _ hv hd => .pure hv (.normal hd.2)
  | assign h hn =>
    exact (ih.assignment h hn hscope hw).bind fun _ hv hd => .pure hv (.normal hd.2)
  | declare hinitial h hn =>
    simp only [Stmt.rename, execute, Expr.isBlank_rename, hinitial]
    refine (ih.expression h hscope hw).bind fun _ hv hd => ?_
    exact (writeVariable_joined hv hn hd.2 hd.1).bind fun _ hu hstands => .pure hu (.normal hstands)
  | declareOnly hd hn =>
    simp only [Stmt.rename, execute, hd]
    exact .pure hw (.normal hscope)
  | declareNone hd hn =>
    simp only [Stmt.rename, execute, hd]
    exact (writeVariable_joined hw hn hscope (.value .void)).bind fun _ hu hstands =>
      .pure hu (.normal hstands)
  | @retNothing _ _ _ _ _ value h =>
    have hnothing : value.returnsNothing σ.dialect = true := by
      cases hd : σ.dialect <;> simp [Expr.returnsNothing, ← hd, h]
    simp only [Stmt.rename, execute, Expr.returnsNothing_rename, hnothing, if_true]
    exact .pure hw (.returned (.value .void))
  | ret h =>
    -- Whether anything is returned does not depend on names.
    simp only [Stmt.rename, execute, Expr.returnsNothing_rename]
    split
    · exact .pure hw (.returned (.value .void))
    · exact (ih.expression h hscope hw).bind fun _ hv hd => .pure hv (.returned hd.1)
  | leave h => exact .pure hw (.left (hscope.leads h))
  | next h => exact .pure hw (.next (hscope.leads h))
  | branch hcondition hbody h₁ h₂ =>
    simp only [Stmt.rename, execute]
    refine ih.test hcondition hscope hw (fun hstands hv => ?_) fun hstands hv => ?_
    · exact (ih.statements hbody hstands hv).mono fun _ hflow => hflow.leads h₂
    · exact .pure hv (.normal (hstands.leads h₁))
  | choice hcondition hbody hother h₂ h₃ =>
    simp only [Stmt.rename, execute]
    refine ih.test hcondition hscope hw (fun hstands hv => ?_) fun hstands hv => ?_
    · exact (ih.statements hbody hstands hv).mono fun _ hflow => hflow.leads h₂
    · exact (ih.statements hother hstands hv).mono fun _ hflow => hflow.leads h₃
  | loop h hcondition hbody hback hexit =>
    exact ih.whileLoop hcondition hbody hback hexit (hscope.leads h) hw
  | doLoop h hbody htest hcondition hback hexit =>
    exact ih.untilLoop hbody htest hcondition hback hexit (hscope.leads h) hw
  | @function _ r₀ _ _ _ _ _ c₀ c₁ name parameters names body hname hparameters hbegins hbody =>
    -- `y` is no parameter, so the parameters stay as they are.
    have hkept : Expr.renameAll σ.joined parameters = parameters := by
      refine Expr.renameAll_of_parameterNames _ _ hparameters fun n hn => Split.joined_of_ne ?_
      rintro rfl
      exact hbegins.y_notMem hn
    -- Outside of the region no activation of the scope holds the two apart.
    have hscopes : r = .elsewhere → ∀ i ∈ scope, ties[i]? = some .same := by
      rintro rfl
      cases hscope with
      | elsewhere h => exact h
    have hdatum : Datum.Joins σ ties (.function ⟨parameters, body, scope⟩)
        (.function ⟨parameters, Stmt.renameAll σ.joined body, scope⟩) :=
      .function hparameters hbegins hbody hscopes
    simp only [Stmt.rename, execute, hkept]
    refine ((writeVariable_kept hw hname hscope hdatum).of_none _).bind fun _ hu heq => ?_
    subst heq
    exact .pure hu (.normal hscope)

theorem statements_succ : StatementsJoin σ (fuel + 1) := by
  intro ties r left next c body c' scope w w' hbody hscope hw
  cases hbody with
  | nil => exact .pure hw (.normal hscope)
  | cons h hrest =>
    simp only [Stmt.renameAll, executeAll]
    refine (ih.statement h hscope hw).bind fun _ hv hflow => ?_
    cases hflow with
    | normal hstands => exact ih.statements hrest hstands hv
    | returned hd => exact .pure hv (.returned hd)
    | left hstands => exact .pure hv (.left hstands)
    | next hstands => exact .pure hv (.next hstands)

theorem whileLoop_succ : WhileJoins σ (fuel + 1) := by
  intro ties r left next head c₁ c₂ c' condition body scope w w' hcondition hbody hback hexit hscope
    hw
  simp only [repeatWhile]
  refine ih.test hcondition hscope hw (fun hstands hv => ?_) fun hstands hv => ?_
  · refine (ih.statements hbody hstands hv).bind fun _ hu hflow => ?_
    -- From the end of the body and from `continue` the loop goes back to its head.
    cases hflow with
    | returned hd => exact .pure hu (.returned hd)
    | left hstands => exact .pure hu (.normal hstands)
    | normal hstands => exact ih.whileLoop hcondition hbody hback hexit (hstands.leads hback) hu
    | next hstands => exact ih.whileLoop hcondition hbody hback hexit hstands hu
  · exact .pure hv (.normal (hstands.leads hexit))

theorem untilLoop_succ : UntilJoins σ (fuel + 1) := by
  intro ties r left next head test c₁ c₂ c' condition body scope w w' hbody htest hcondition hback
    hexit hscope hw
  have hafter : ∀ {ties' : List Tie} {v v' : World}, Stands ties' r test scope →
      World.Joins σ ties' v v' →
      RunsJoined σ scope.head? ties' (FlowJoins σ r left next c' scope)
        ((if condition.isBlank then pure .normal
          else do
            if σ.dialect.isTrue (← evaluate σ.dialect fuel scope condition) then
              repeatUntil σ.dialect fuel scope condition body
            else pure .normal : Running Flow) v)
        ((if condition.isBlank then pure .normal
          else do
            if σ.dialect.isTrue (← evaluate σ.dialect fuel scope (condition.rename σ.joined)) then
              repeatUntil σ.dialect fuel scope (condition.rename σ.joined)
                (Stmt.renameAll σ.joined body)
            else pure .normal : Running Flow) v') := by
    intro ties' v v' hstands hv
    cases hblank : condition.isBlank with
    | true =>
      -- Nothing is tested, and nothing is written.
      have hsame : c₂ = test := by
        cases hcondition with
        | constant _ => rfl
        | _ => cases hblank
      exact .pure hv (.normal (hstands.leads (hsame ▸ hexit)))
    | false =>
      refine ih.test hcondition hstands hv (fun hstands hv => ?_) fun hstands hv => ?_
      · exact ih.untilLoop hbody htest hcondition hback hexit (hstands.leads hback) hv
      · exact .pure hv (.normal (hstands.leads hexit))
  simp only [repeatUntil, Expr.isBlank_rename]
  refine (ih.statements hbody hscope hw).bind fun _ hu hflow => ?_
  cases hflow with
  | returned hd => exact .pure hu (.returned hd)
  | left hstands => exact .pure hu (.normal hstands)
  | normal hstands =>
    have hrun := hafter (hstands.leads htest) hu
    cases hd : σ.dialect <;> rw [hd] at hrun <;> exact hrun
  | next hstands =>
    cases hd : σ.dialect with
    | javaScript =>
      have hcontinues : σ.continues head test = test := by rw [Split.continues, hd]
      have hrun := hafter (hcontinues ▸ hstands) hu
      rw [hd] at hrun
      exact hrun
    | python =>
      -- `continue` goes past the test.
      have hcontinues : σ.continues head test = head := by rw [Split.continues, hd]
      have hrun := @ih.untilLoop _ _ left next _ _ _ _ _ _ _ _ _ _ hbody htest hcondition hback hexit
        (hcontinues ▸ hstands) hu
      rw [hd] at hrun
      exact hrun

end JoinsAt

/-- Runs are joined, however deep they may go. -/
theorem joinsAt (σ : Split) (fuel : Nat) : JoinsAt σ fuel := by
  induction fuel with
  | zero => exact joinsAt_zero
  | succ fuel ih =>
    exact ⟨ih.expression_succ, ih.assignment_succ, ih.arguments_succ, ih.call_succ,
      ih.statement_succ, ih.statements_succ, ih.whileLoop_succ, ih.untilLoop_succ⟩

/-! ## Whole scripts -/

/-- Nothing can be told apart outside of two runs. -/
structure SameRuns (r r' : Except Halt Unit × World) : Prop where
  outcome : r.1 = r'.1
  environment : r.2.environment = r'.2.environment
  console : r.2.console = r'.2.console

/-- Nobody outside can tell joined runs apart. -/
theorem RunsJoined.sameRuns {own : Option Nat} {ties : List Tie} {R : List Tie → Unit → Unit → Prop}
    {r r' : Except Halt Unit × World} (h : RunsJoined σ own ties R r r') : SameRuns r r' := by
  cases h with
  | ok _ hworld _ => exact ⟨rfl, hworld.environment, hworld.console⟩
  | error henvironment hconsole => exact ⟨rfl, henvironment, hconsole⟩

/-- The trap, and the call of the entry point. -/
theorem Script.Flows.finish {script : Script} (h : script.Flows σ) {ties : List Tie} {c : LastWrite}
    {scope : List Nat} (hscope : Stands ties .elsewhere c scope) {w w' : World}
    (hw : w.Joins σ ties w') :
    RunsJoined σ scope.head? ties (fun _ _ _ => True) (script.finish σ.dialect scope w)
      ((script.rename σ.joined).finish σ.dialect scope w') := by
  obtain ⟨c', hentry⟩ := h.entry
  have hcall : ∀ {ties : List Tie} {v v' : World}, Stands ties .elsewhere c scope →
      World.Joins σ ties v v' →
      RunsJoined σ scope.head? ties (fun _ _ _ => True)
        ((do let _ ← evaluate σ.dialect runFuel scope script.entry; pure () : Running Unit) v)
        ((do
          let _ ← evaluate σ.dialect runFuel scope (script.entry.rename σ.joined)
          pure () : Running Unit) v') := by
    intro ties v v' hstands hv
    -- Outside of the region it does not matter which name was written last.
    have hnone : Stands ties .elsewhere .none scope := by
      cases hstands with
      | elsewhere h => exact .elsewhere h
    exact ((joinsAt σ runFuel).expression hentry hnone hv).bind fun _ hu _ => .pure hu trivial
  unfold Script.finish
  cases htrap : script.trap with
  | false =>
    simp only [Script.rename, htrap, Bool.false_eq_true, if_false]
    exact hcall hscope hw
  | true =>
    simp only [Script.rename, htrap, if_true]
    refine ((callCatalog_joined .nil hw σ.dialect "breakpoint").standing hscope _).bind
      fun _ hv hd => ?_
    exact hcall hd.2 hv

/-- A script in which every use is of what was written last runs as it does when the names are
joined. -/
theorem Script.Flows.run {script : Script} (h : script.Flows σ) (environment : Environment)
    (console : Console) :
    SameRuns (script.run σ.dialect environment console)
      ((script.rename σ.joined).run σ.dialect environment console) := by
  obtain ⟨left, next, c, hbody⟩ := h.body
  -- At the start there is one activation, and it is empty.
  have hworld : World.Joins σ [.same] { environment, console, activations := #[[]] }
      { environment, console, activations := #[[]] } := by
    refine ⟨rfl, rfl, rfl, rfl, rfl, fun i tie htie => ?_⟩
    cases i with
    | zero =>
      cases htie
      exact fun _ => .none
    | succ i => cases htie
  have hbegins : σ.Begins [] script.body .elsewhere .elsewhere .none :=
    .elsewhere List.not_mem_nil
  refine RunsJoined.sameRuns (?_ : RunsJoined σ none [.same] (fun _ _ _ => True) _ _)
  refine enter_joined hworld (start_joined List.not_mem_nil hbegins hbody ?undefined) fun hv => ?_
  case undefined =>
    cases σ.dialect with
    | javaScript => exact .some (.value .void)
    | python => exact .none
  have hscope : ∀ i ∈ [0], [Tie.same][i]? = some .same := by simp
  refine ((joinsAt σ runFuel).statements hbody (hbegins.stands fun _ => hscope) hv).bind
    fun _ hu hflow => ?_
  cases hflow with
  | returned _ => exact .pure hu trivial
  | normal hstands => exact h.finish hstands hu
  | left hstands => exact h.finish hstands hu
  | next hstands => exact h.finish hstands hu

end ShaderScript
