import ShaderScript.Proofs.Rejection
import ShaderScript.Proofs.SplitChecking
import ShaderScript.Proofs.SplitRuns

/-!
# Renaming local variables

A local variable of a shader that is declared anew in an inner scope, or by a loop, may be given a
name of its own there.  For scopes that is a change of names only.  In a script all variables of a
function are in one scope, and the change makes two variables of one.  It changes no run if every
use comes after a write to the same name, with no write to the other in between
(`renaming_preserves_runs`); else it may, as where a declaration in an inner scope comes before a
use of the outer variable (`shadowing_reaches_outer`).
-/

namespace ShaderScript

open Running

/-! ## Scripts that load once the names are joined -/

/-- Names that are known where code stands, and once the two are joined: those that are kept are
known before, and the two are known where they are bound. -/
structure Split.Knows (σ : Split) (r : Region) (known known' : List String) : Prop where
  kept : ∀ n, σ.Free r n → n ∈ known' → n ∈ known
  owned : ∀ n, σ.Owns r n → n ∈ known

variable {σ : Split} {r : Region} {known known' : List String}

theorem isName_of_joined (hname : σ.dialect.isName σ.y = true) {n : String}
    (h : σ.dialect.isName (σ.joined n) = true) : σ.dialect.isName n = true := by
  by_cases hn : n = σ.y
  · rw [hn]
    exact hname
  · rwa [Split.joined_of_ne hn] at h

/-- A variable that may be used can be named. -/
theorem slotLoads_of_joined (hname : σ.dialect.isName σ.y = true) (hknows : σ.Knows r known known')
    {c : LastWrite} {n : String} (hn : σ.Reads r c n)
    (h : Expr.slotLoads σ.dialect known' (.binding (σ.joined n)) = true) :
    Expr.slotLoads σ.dialect known (.binding n) = true := by
  cases hd : σ.dialect with
  | javaScript =>
    rw [hd] at h
    have hisName := isName_of_joined hname (by rw [hd]; exact h)
    rwa [hd] at hisName
  | python =>
    rw [hd] at h
    simp only [Expr.slotLoads, Bool.and_eq_true, List.contains_iff_mem] at h ⊢
    have hisName := isName_of_joined hname (by rw [hd]; exact h.1)
    refine ⟨hd ▸ hisName, ?_⟩
    rcases hn with hfree | ⟨howns, -⟩
    · exact hknows.kept n hfree (hfree.joined_eq ▸ h.2)
    · exact hknows.owned n howns

namespace Expr

variable {e : Expr} {args : List Expr} {d : Dialect}

/-- The comments in front of an expression load or not, whatever its names are. -/
theorem loads_of_pastComments {ν : Naming} :
    (e : Expr) → (e.rename ν).loads d known' = true →
      (e.pastComments.rename ν).loads d known' = true ∧
        (e.pastComments.loads d known = true → e.loads d known = true)
  | .inert token operand, h => by
    rw [rename, loads, Bool.and_eq_true] at h
    obtain ⟨hpast, hback⟩ := loads_of_pastComments operand h.2
    refine ⟨hpast, fun hloads => ?_⟩
    rw [loads, h.1, hback hloads]
    rfl
  | .blank, h | .read _, h | .integer _, h | .float _, h | .index _, h | .bool _, h | .field _, h
  | .bare _, h | .invoke _ _, h | .call _ _, h | .choose _ _ _, h | .write _ _, h => ⟨h, id⟩

/-- An expression that is no assignment where these are statements, and loads if it does once the
names are joined. -/
structure Carries (σ : Split) (known known' : List String) (e : Expr) : Prop where
  plain : σ.dialect.assignsInExpressions = false → ∀ n value, e ≠ .write (.binding n) value
  loads : (e.rename σ.joined).loads σ.dialect known' = true → e.loads σ.dialect known = true

theorem loads_write (hd : d.assignsInExpressions = true) (n : String) (value : Expr) :
    (Expr.write (.binding n) value).loads d known = (d.isName n && value.loads d known) := by
  rw [loads, hd, Bool.true_and]

/-- What is written to a global is an argument. -/
theorem loads_writeGlobal
    (h : d.assignsInExpressions = false → ∀ n value, e ≠ .write (.binding n) value) (name : String) :
    (Expr.write (.global name) e).loads d known =
      (Dialect.isQuotable name && (e.isVoid d || e.loads d known)) := by
  cases e with
  | write slot value =>
    cases slot with
    | global inner => simp only [loads]
    | binding inner =>
      cases hd : d.assignsInExpressions with
      | true => simp only [loads, isVoid, hd, Bool.true_and, Bool.false_or, Bool.and_assoc]
      | false => exact absurd rfl (h hd inner value)
  | _ => simp only [loads]

theorem argumentsLoad_cons
    (h : d.assignsInExpressions = false → ∀ n value, e ≠ .write (.binding n) value)
    (rest : List Expr) :
    argumentsLoad d known [] (e :: rest) =
      if e.isVoid d then rest.isEmpty else e.loads d known && argumentsLoad d known [] rest := by
  cases e with
  | write slot value =>
    cases slot with
    | global name => simp only [argumentsLoad, List.isEmpty_nil, Bool.true_and]
    | binding name =>
      cases d with
      | javaScript =>
        simp only [argumentsLoad, isVoid, Bool.false_eq_true, if_false, loads,
          Dialect.assignsInExpressions, Bool.true_and]
      | python => exact absurd rfl (h rfl name value)
  | _ => simp only [argumentsLoad, List.isEmpty_nil, Bool.true_and]

/-- Arguments load if those that are given do. -/
theorem argumentsLoad_of_joined (h : ∀ e ∈ givenArguments σ.dialect args, e.Carries σ known known')
    (hload : argumentsLoad σ.dialect known' [] (renameAll σ.joined args) = true) :
    argumentsLoad σ.dialect known [] args = true := by
  induction args with
  | nil => rfl
  | cons e rest ih =>
    by_cases hlast : rest = [] ∧ e.isVoid σ.dialect = true
    · rw [argumentsLoad_cons fun _ => Stmt.ne_write_of_isVoid hlast.2, if_pos hlast.2, hlast.1]
      rfl
    · have hgiven := givenArguments_cons (d := σ.dialect) (e := e) rest (by
        rwa [not_and_or, Bool.not_eq_true] at hlast)
      rw [hgiven, List.forall_mem_cons] at h
      rw [renameAll, argumentsLoad_cons fun hd => rename_ne_write (h.1.plain hd),
        isVoid_rename] at hload
      rw [argumentsLoad_cons h.1.plain]
      split at hload
      · -- A blank that is not the last argument does not load.
        rename_i hvoid
        cases rest with
        | nil => exact absurd ⟨rfl, hvoid⟩ hlast
        | cons a rest => cases hload
      · rename_i hvoid
        rw [Bool.and_eq_true] at hload
        rw [if_neg hvoid, h.1.loads hload.1, ih h.2 hload.2]
        rfl

theorem carries_of_isConstant (h : e.isConstant = true) : e.Carries σ known known' := by
  refine ⟨fun _ n value heq => ?_, fun hload => ?_⟩
  · rw [heq] at h
    cases h
  · cases e with
    | read slot =>
      cases slot with
      | binding name => cases h
      | global name => exact hload
    | blank | integer i | float x | index x | bool b | field selection | bare token => exact hload
    | _ => cases h

/-- A store into a global loads if what is given for its value does. -/
theorem carries_writeGlobal (name : String)
    (h : ∀ e' ∈ givenArguments σ.dialect [e], e'.Carries σ known known') :
    (Expr.write (.global name) e).Carries σ known known' := by
  refine ⟨fun _ n value heq => (by cases heq), fun hload => ?_⟩
  -- A blank may be stored in a global, though it does not load.
  have hgiven : e.isVoid σ.dialect = true ∨ e.Carries σ known known' := by
    cases hvoid : e.isVoid σ.dialect with
    | true => exact .inl rfl
    | false =>
      rw [givenArguments_cons [] (.inr hvoid)] at h
      exact .inr (h e List.mem_cons_self)
  have hplain : σ.dialect.assignsInExpressions = false →
      ∀ n inner, e ≠ .write (.binding n) inner :=
    hgiven.elim (fun hvoid _ => Stmt.ne_write_of_isVoid hvoid) Carries.plain
  rw [rename, Slot.rename, loads_writeGlobal fun hd => rename_ne_write (hplain hd),
    Bool.and_eq_true, isVoid_rename] at hload
  rw [loads_writeGlobal hplain, hload.1, Bool.true_and]
  rcases hgiven with hvoid | hcarries
  · rw [hvoid, Bool.true_or]
  · rcases Bool.or_eq_true_iff.mp hload.2 with hvoid | hvalue
    · rw [hvoid, Bool.true_or]
    · rw [hcarries.loads hvalue, Bool.or_true]

mutual

theorem Flows.carries (hname : σ.dialect.isName σ.y = true) (hknows : σ.Knows r known known')
    {c c' : LastWrite} {e : Expr} : Flows σ r c e c' → e.Carries σ known known'
  | .constant h => carries_of_isConstant h
  | .read h =>
    ⟨fun _ _ _ => Expr.noConfusion, fun hload => slotLoads_of_joined hname hknows h hload⟩
  | .invoke member h =>
    ⟨fun _ _ _ => Expr.noConfusion, fun hload =>
      argumentsLoad_of_joined (h.carries hname hknows) hload⟩
  | .call hcallee h => by
    refine ⟨fun _ _ _ => Expr.noConfusion, fun hload => ?_⟩
    rw [rename, loads, Bool.and_eq_true] at hload
    rw [loads, argumentsLoad_of_joined (h.carries hname hknows) hload.2, Bool.and_true]
    rename_i callee _
    -- A callee is neither of the two names, so it is known as before.
    cases callee with
    | global name => exact hload.1
    | binding name =>
      have hfree := hcallee name rfl
      refine slotLoads_of_joined hname hknows (c := .none) (.inl hfree) ?_
      rw [hfree.joined_eq]
      exact hload.1
  | .choose _ hcondition htrue hfalse _ _ => by
    refine ⟨fun _ _ _ => Expr.noConfusion, fun hload => ?_⟩
    rw [rename, loads, Bool.and_eq_true, Bool.and_eq_true] at hload
    rw [loads, (hcondition.carries hname hknows).loads hload.1.1,
      (htrue.carries hname hknows).loads hload.1.2, (hfalse.carries hname hknows).loads hload.2]
    rfl
  | .chooseAssigned hd hcondition h => by
    refine ⟨fun _ _ _ => Expr.noConfusion, fun hload => ?_⟩
    have hcarries := (h.carries hname hknows).loads
    have hassigns : σ.dialect.assignsInExpressions = true := by rw [hd]; rfl
    rw [rename, loads, Bool.and_eq_true, Bool.and_eq_true] at hload
    -- The assignment stands behind comments, which load by themselves.
    obtain ⟨hwritten, hback⟩ := @loads_of_pastComments known known' _ _ _ hload.1.1
    rw [hcondition] at hwritten hback
    simp only [rename, Slot.rename, loads, hassigns, Bool.true_and, Bool.and_eq_true]
      at hwritten hback hcarries ⊢
    obtain ⟨hisName, hall⟩ := hcarries ⟨hwritten.1, ⟨hwritten.2, hload.1.2⟩, hload.2⟩
    exact ⟨⟨hback ⟨hisName, hall.1.1⟩, hall.1.2⟩, hall.2⟩
  | .inert token h => by
    refine ⟨fun _ _ _ => Expr.noConfusion, fun hload => ?_⟩
    rw [rename, loads, Bool.and_eq_true] at hload
    rw [loads, hload.1, (h.carries hname hknows).loads hload.2]
    rfl
  | .write hd h hn => by
    refine ⟨fun hnone => ?_, fun hload => ?_⟩
    · rw [hd] at hnone
      cases hnone
    · rw [rename, Slot.rename, loads_write hd, Bool.and_eq_true] at hload
      rw [loads_write hd, isName_of_joined hname hload.1, (h.carries hname hknows).loads hload.2]
      rfl
  | .writeGlobal name h => carries_writeGlobal name (h.carries hname hknows)

theorem AllFlow.carries (hname : σ.dialect.isName σ.y = true) (hknows : σ.Knows r known known')
    {c c' : LastWrite} {es : List Expr} :
    AllFlow σ r c es c' → ∀ e ∈ es, e.Carries σ known known'
  | .nil => List.forall_mem_nil _
  | .cons h hrest => List.forall_mem_cons.mpr ⟨h.carries hname hknows, hrest.carries hname hknows⟩

end

end Expr

namespace Stmt

theorem loads_eval {d : Dialect} {looping : Bool} {e : Expr} (hvoid : e.isVoid d = false)
    (h : d.assignsInExpressions = false → ∀ n value, e ≠ .write (.binding n) value) :
    loads d known looping (.eval e) = e.loads d known := by
  cases e with
  | write slot value =>
    cases slot with
    | global name => simp only [loads, Expr.isVoid, Bool.false_or]
    | binding name =>
      cases hd : d.assignsInExpressions with
      | true => simp only [loads, Expr.loads, hd, Bool.true_and]
      | false => exact absurd rfl (h hd name value)
  | _ => simp only [loads, hvoid, Bool.false_or]

theorem loads_of_isVoid {d : Dialect} {looping : Bool} {e : Expr} (h : e.isVoid d = true) :
    loads d known looping (.eval e) = true := by
  cases e with
  | write slot value => cases h
  | _ => simp only [loads, h, Bool.true_or]

/-- The names that are known in the body of a function. -/
theorem knows_body {names : List String} {body : List Stmt} {r r₀ : Region}
    {left next c₀ c₁ : LastWrite} (hbegins : σ.Begins names body r r₀ c₀)
    (hbody : AllFlow σ r₀ left next c₀ body c₁) (hknows : σ.Knows r known known') :
    σ.Knows r₀ (names ++ allBound σ.dialect body ++ known)
      (names ++ allBound σ.dialect (renameAll σ.joined body) ++ known') := by
  obtain ⟨hbound, hfree⟩ := hbody.bound_joined
  rw [hbound]
  have houter : ∀ n, σ.Free r₀ n → σ.Free r n := by
    intro n hn
    cases hbegins with
    | elsewhere _ => exact hn
    | within _ => exact hn.2
    | apart _ _ _ =>
      cases r with
      | elsewhere => exact hn.2
      | within own | apart => exact hn
  constructor
  · intro n hn hmem
    simp only [List.mem_append, List.mem_map] at hmem ⊢
    rcases hmem with (hparameter | ⟨m, hm, rfl⟩) | hmem
    · exact .inl (.inl hparameter)
    · refine .inl (.inr ?_)
      rcases hfree m hm with hkept | howns
      · rwa [hkept.joined_eq]
      · -- One of the two names is no name that is kept.
        rw [howns.joined_eq] at hn
        cases r₀ with
        | within own => exact absurd rfl hn.1
        | elsewhere | apart => exact howns.elim
    · exact .inr (hknows.kept n (houter n hn) hmem)
  · intro n howns
    cases hbegins with
    | within _ => exact List.mem_append_left _ howns.1
    | elsewhere _ | apart _ _ _ => exact howns.elim

mutual

theorem Flows.loads (hname : σ.dialect.isName σ.y = true) {r : Region} {known known' : List String}
    (hknows : σ.Knows r known known') {left next c c' : LastWrite} {s : Stmt} {looping : Bool} :
    Flows σ r left next c s c' → Stmt.loads σ.dialect known' looping (s.rename σ.joined) = true →
      Stmt.loads σ.dialect known looping s = true
  | .void h, _ => by
    exact loads_of_isVoid h
  | .eval hvoid h, hload => by
    have hcarries := h.carries hname hknows
    rw [rename, loads_eval (by rw [Expr.isVoid_rename, hvoid])
      fun hd => rename_ne_write (hcarries.plain hd)] at hload
    rw [loads_eval hvoid hcarries.plain, hcarries.loads hload]
  | .assign h hn, hload => by
    simp only [rename, Expr.rename, Slot.rename, Stmt.loads, Bool.and_eq_true] at hload ⊢
    exact ⟨isName_of_joined hname hload.1, (h.carries hname hknows).loads hload.2⟩
  | .declare hinitial h hn, hload => by
    simp only [rename, Stmt.loads, Expr.isBlank_rename, hinitial, Bool.false_or,
      Bool.and_eq_true] at hload ⊢
    exact ⟨isName_of_joined hname hload.1, (h.carries hname hknows).loads hload.2⟩
  | .declareOnly _ _, hload | .declareNone _ _, hload => by
    simp only [rename, Stmt.loads, Bool.and_eq_true] at hload ⊢
    exact ⟨isName_of_joined hname hload.1, rfl⟩
  | .retNothing h, _ => by
    rw [Stmt.loads, h]
    rfl
  | .ret h, hload => by
    simp only [rename, Stmt.loads, Expr.isVoid_rename, Bool.or_eq_true] at hload ⊢
    exact hload.imp_right (h.carries hname hknows).loads
  | .leave _, hload | .next _, hload => hload
  | .branch hcondition hbody _ _, hload => by
    simp only [rename, Stmt.loads, Bool.and_true, Bool.and_eq_true] at hload ⊢
    exact ⟨(hcondition.carries hname hknows).loads hload.1, hbody.loads hname hknows hload.2⟩
  | .choice hcondition hbody hother _ _, hload => by
    simp only [rename, Stmt.loads, Bool.and_eq_true] at hload ⊢
    exact ⟨⟨(hcondition.carries hname hknows).loads hload.1.1, hbody.loads hname hknows hload.1.2⟩,
      hother.loads hname hknows hload.2⟩
  | .loop _ hcondition hbody _ _, hload => by
    simp only [rename, Stmt.loads, Bool.and_eq_true] at hload ⊢
    exact ⟨(hcondition.carries hname hknows).loads hload.1, hbody.loads hname hknows hload.2⟩
  | .doLoop _ hbody _ hcondition _ _, hload => by
    have hcarries := (hcondition.carries hname hknows).loads
    simp only [rename, Stmt.loads, Bool.and_eq_true] at hload ⊢
    refine ⟨?_, hbody.loads hname hknows hload.2⟩
    -- Only Python takes a blank condition.
    cases hd : σ.dialect with
    | javaScript =>
      simp only [hd] at hload hcarries ⊢
      exact hcarries hload.1
    | python =>
      simp only [hd, Expr.isBlank_rename, Bool.or_eq_true] at hload hcarries ⊢
      exact hload.1.imp_right hcarries
  | .function hfree hparameters hbegins hbody, hload => by
    -- `y` is no parameter, so the function binds the same names.
    have hkept : ∀ n ∈ _, σ.joined n = n := fun n hn =>
      Split.joined_of_ne fun heq => hbegins.y_notMem (heq ▸ hn)
    simp only [rename, Stmt.loads, Expr.renameAll_of_parameterNames _ _ hparameters hkept,
      hparameters, Bool.and_eq_true] at hload ⊢
    exact ⟨hload.1, hbody.loads hname (knows_body hbegins hbody hknows) hload.2⟩

theorem AllFlow.loads (hname : σ.dialect.isName σ.y = true) {r : Region}
    {known known' : List String} (hknows : σ.Knows r known known') {left next c c' : LastWrite}
    {body : List Stmt} {looping : Bool} :
    AllFlow σ r left next c body c' →
      allLoad σ.dialect known' looping (renameAll σ.joined body) = true →
      allLoad σ.dialect known looping body = true
  | .nil, _ => rfl
  | .cons h hrest, hload => by
    rw [renameAll, allLoad, Bool.and_eq_true] at hload
    rw [allLoad, h.loads hname hknows hload.1, hrest.loads hname hknows hload.2]
    rfl

end

end Stmt

/-- A script loads if it does once the names are joined. -/
theorem Script.Flows.loads {script : Script} (h : script.Flows σ)
    (hname : σ.dialect.isName σ.y = true)
    (hload : (script.rename σ.joined).loads σ.dialect = true) : script.loads σ.dialect = true := by
  obtain ⟨⟨left, next, c, hbody⟩, c', hentry⟩ := h
  obtain ⟨hbound, hfree⟩ := hbody.bound_joined
  have hknows : σ.Knows .elsewhere (Stmt.allBound σ.dialect script.body)
      (Stmt.allBound σ.dialect (Stmt.renameAll σ.joined script.body)) := by
    rw [hbound]
    refine ⟨fun n _ hmem => ?_, fun n howns => howns.elim⟩
    obtain ⟨m, hm, rfl⟩ := List.mem_map.mp hmem
    rcases hfree m hm with hkept | howns
    · rwa [hkept.joined_eq]
    · exact howns.elim
  simp only [Script.loads, Script.rename, Bool.and_eq_true] at hload ⊢
  exact ⟨hbody.loads hname hknows hload.1, (hentry.carries hname hknows).loads hload.2⟩

/-! ## Shaders -/

/-- The naming that joins two names suits a shader without globals of these names. -/
theorem Split.joined_suits {s : Surroundings} (hx : s.isGlobal σ.x = false)
    (hy : s.isGlobal σ.y = false) : Naming.Suits σ.joined s := by
  refine ⟨fun n hn => joined_of_ne fun heq => ?_, fun n hn => ?_⟩
  · rw [heq, hy] at hn
    cases hn
  · by_cases heq : n = σ.y
    · rwa [joined, if_pos heq]
    · rwa [joined_of_ne heq]

/-- A shader with new names is lowered to the script with new names, and reports are as severe. -/
theorem generate_renamed (style : Style) (shader : Shader) {ν : Naming}
    (hν : ν.Suits ⟨style, shader.isGlobal⟩) :
    Matches (fun _ _ => True) (fun script script' => script' = script.rename ν)
        (generate style (some shader)).result (generate style (some (shader.rename ν))).result ∧
      (generate style (some shader)).reports.map Diagnostic.severity =
        (generate style (some (shader.rename ν))).reports.map Diagnostic.severity := by
  have habsent : (shader.rename ν).tree.isAbsent = shader.tree.isAbsent :=
    Node.isAbsent_rename ν shader.tree
  cases htree : shader.tree.isAbsent with
  | true => simp [generate, Generator.generate, habsent, htree, Matches.error]
  | false =>
    -- Both are compared with the shader with new names and without positions.
    obtain ⟨r, r', reports', hm, hm', hr, hreports, -, -⟩ :=
      lower_alike { style } { style } rfl shader hν
    obtain ⟨r₁, r₁', reports₁', hm₁, hm₁', hr₁, hreports₁, -, -⟩ :=
      lower_alike { style } { style } rfl (shader.rename ν) (Naming.suits_id _)
    rw [Shader.rename_id] at hm₁'
    obtain ⟨rfl, rfl⟩ := hm'.unique hm₁'
    obtain ⟨_, hgenerate, -⟩ := hm.generate_eq htree
    obtain ⟨_, hgenerate₁, -⟩ := hm₁.generate_eq (habsent.trans htree)
    rw [generate, generate, hgenerate, hgenerate₁]
    constructor
    · cases hr with
      | ok ha =>
        cases hr₁ with
        | ok ha₁ =>
          rw [Script.rename_id] at ha₁
          exact .ok (ha₁.symm.trans ha)
      | error _ =>
        cases hr₁ with
        | error _ => exact .error trivial
    · have hseverity {R : Diagnostic → Diagnostic → Prop}
          (hR : ∀ x x', R x x' → x.severity = x'.severity) {xs xs' : List Diagnostic}
          (h : List.Forall₂ R xs xs') : xs.map Diagnostic.severity = xs'.map Diagnostic.severity := by
        induction h with
        | nil => rfl
        | cons h _ ih => rw [List.map_cons, List.map_cons, hR _ _ h, ih]
      exact (hseverity (fun _ _ h => h.1) (hreports rfl)).trans
        (hseverity (fun _ _ h => h.1) (hreports₁ rfl)).symm

/-- A style that loads a shader has the engine of its dialect. -/
theorem Style.Loads.engine {style : Style} {shader : Option Shader} {program : Program}
    (h : style.Loads shader program) :
    ∃ name, Engine.ofStyle? style = some (.ofDialect name style.dialect) := by
  obtain ⟨options, parent, t, c, rfl, hnone, hcompile, hprogram⟩ := h
  obtain ⟨engine, script, hfound, _, _⟩ := program_of_compile hcompile hprogram
  rw [hnone] at hfound
  unfold Engine.ofStyle? at hfound ⊢
  split at hfound
  · rename_i hjs
    exact ⟨"goja", by rw [if_pos hjs, hjs]; rfl⟩
  · rename_i hjs
    split at hfound
    · rename_i hpy
      exact ⟨"starlark", by rw [if_neg hjs, if_pos hpy, hpy]; rfl⟩
    · cases hfound

/-- Without reports of errors a shader is loaded where its script loads. -/
theorem loads_of_generated {style : Style} {name : String} {d : Dialect}
    (hengine : Engine.ofStyle? style = some (.ofDialect name d)) {shader : Option Shader}
    {script : Script} (hresult : (generate style shader).result = .ok script)
    (hreports : ∀ r ∈ (generate style shader).reports, r.isError = false)
    (hload : script.loads d = true) : style.Loads shader ⟨d, script⟩ := by
  have herror : (CompileOptions.found { style } shader).bag.hasErrors = false := by
    rw [Bool.eq_false_iff]
    intro herrors
    obtain ⟨r, hr, herror⟩ := (hasErrors_found_iff _ shader).mp herrors
    rw [hreports r (mem_of_mem_distinctFindings (List.mem_of_mem_take hr))] at herror
    cases herror
  exact loads_of_found hengine hresult herror hload

/-- A shader calls a variable `y` in some of the places where another one calls it `x`, and in no
other place, and in its script all uses of the two are of what was written last. -/
structure Shader.Splits (style : Style) (x y : String) (shader shader' : Shader) : Prop where
  joined : shader'.rename (Split.joined ⟨style.dialect, x, y⟩) = shader
  flows : ∀ script, (generate style (some shader')).result = .ok script →
    script.Flows ⟨style.dialect, x, y⟩

/-- A declaration of a variable. -/
def declares (name : String) (initial : Node) : Node :=
  .declarator .unknown (.type .unknown "float" "" "")
    [.declaratorItem .unknown (.identifier .unknown name) initial]

/-- An assignment of a variable to another one. -/
def sets (target name : String) : Node :=
  .expressionStatement .unknown
    (.binaryExpression .unknown (.token .unknown "=") (.identifier .unknown target)
      (.identifier .unknown name))

/-- A loop over the numbers 0 and 1. -/
def countingLoop (counter : String) (body : List Node) : Node :=
  .forStatement .unknown (declares counter (.floatLiteral .unknown 0))
    (.binaryExpression .unknown (.token .unknown "<") (.identifier .unknown counter)
      (.floatLiteral .unknown 2))
    (.unaryExpression .unknown (.token .unknown "++") (.identifier .unknown counter))
    (.scope .unknown body)

/-- A shader that consists of `main`, with `g` in the environment. -/
def mainShader (body : List Node) : Shader where
  tree := .program .unknown
    [.functionDeclaration .unknown "main" (.type .unknown "void" "" "") [] (.scope .unknown body)]
  varyings := [⟨"g", ""⟩]

/-- Declares `x`.  In each pass of a loop `x` is assigned, and a variable in a scope takes its
value; then another loop counts. -/
def nestedShader (inner : String) : Shader :=
  mainShader
    [declares "x" (.floatLiteral .unknown 3),
     countingLoop "i"
      [sets "x" "i",
       .scope .unknown [declares inner (.identifier .unknown "x"), sets "g" inner]],
     countingLoop inner [sets "g" inner]]

/-- Declares `x`, another variable in a scope, and then uses `x`. -/
def shadowingShader (inner : String) : Shader :=
  mainShader
    [declares "x" (.floatLiteral .unknown 1),
     .scope .unknown [declares inner (.floatLiteral .unknown 2)], sets "g" "x"]

end ShaderScript
