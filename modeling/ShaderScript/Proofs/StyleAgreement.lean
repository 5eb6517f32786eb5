import ShaderScript.Proofs.Rejection
import ShaderScript.Proofs.Simulation

/-!
# The styles agree

A shader that both styles load runs alike in them: the same record of accesses, the same output, the
same final values and the same outcome (`styles_agree`).  What it takes is that the run is orderly,
that declarations and assignments have values, that each function assigns only names of its own,
and that `continue` only skips tests that would have been passed unseen.

The last condition is needed: in a loop with the test at its end, `continue` goes to the test in one
style and past it in the other (`continue_skips_test`).
-/

namespace ShaderScript

open Running

/-! ## Runs of scripts -/

/-- What a script does last: it meets the trap if there is one, and calls its entry point. -/
def Script.finish (d : Dialect) (s : Script) (scope : List Nat) : Running Unit := do
  if s.trap then
    let _ ← callCatalog d "breakpoint" []
  let _ ← evaluate d runFuel scope s.entry
  pure ()

theorem Script.finish_alike {s : Script} (hs : s.Shared) {P : Pairing} {scope scope' : List Nat}
    (hscope : List.Forall₂ P scope scope') {w w' : World} (hw : w.Alike P w')
    (horder : andThen ((if s.trap then callCatalog .python "breakpoint" []
      else pure (.value .void) : Running Datum) w')
      (fun _ v => orderly true runFuel scope' s.entry v) = true) :
    RunsAlike P [] Eq w' (s.finish .javaScript scope w) (s.finish .python scope' w') := by
  have hcall : ∀ {Q : Pairing} {v v' : World}, P ≤ Q → v.Alike Q v' →
      orderly true runFuel scope' s.entry v' = true →
      RunsAlike Q [] Eq v'
        ((do let _ ← evaluate .javaScript runFuel scope s.entry; pure () : Running Unit) v)
        ((do let _ ← evaluate .python runFuel scope' s.entry; pure () : Running Unit) v') := by
    intro Q v v' hPQ hv hentry
    refine ((agreesAt runFuel).expression hs.entry (scope_mono hPQ hscope) hv hentry).bind
      fun _ _ _ u u' _ _ hu _ _ => ?_
    exact .pure hu rfl
  unfold finish
  cases htrap : s.trap with
  | false =>
    simp only [htrap, Bool.false_eq_true, if_false] at horder ⊢
    exact hcall (le_refl P) hw horder
  | true =>
    simp only [htrap, if_true] at horder ⊢
    -- The trap is a call without arguments.
    have hbreak := callCatalog_alike hw (.each "breakpoint" (.nil : List.Forall₂ Value.Alike [] []))
    refine hbreak.bind fun Q _ _ v v' hPQ _ hv _ hrun => ?_
    exact hcall hPQ hv (of_andThen horder hrun)

/-- At the start of a run there is one activation in both dialects, and it is empty. -/
theorem World.alike_start (environment : Environment) (console : Console) :
    World.Alike (fun i i' => i = 0 ∧ i' = 0)
      { environment, console, activations := #[[]] }
      { environment, console, activations := #[[]] } := by
  refine ⟨rfl, rfl, ⟨rfl, rfl⟩, ?_, ?_, ?_, ?_⟩
  · rintro i i' ⟨rfl, rfl⟩
    exact ⟨Nat.zero_lt_one, Nat.zero_lt_one⟩
  · rintro i i' j j' ⟨rfl, rfl⟩ ⟨rfl, rfl⟩
    exact ⟨fun _ => rfl, fun _ => rfl⟩
  · intro i' hi'
    exact ⟨0, rfl, Nat.lt_one_iff.mp hi'⟩
  · rintro i i' ⟨rfl, rfl⟩
    exact ⟨fun _ => rfl, fun _ _ h => nomatch h⟩

/-- A shared script whose run is orderly runs alike in both dialects. -/
theorem Script.run_alike {s : Script} (hs : s.Shared) {environment : Environment}
    {console : Console} (horder : s.isOrderly true environment console = true) :
    ∃ P w', RunsAlike P [] Eq w' (s.run .javaScript environment console)
      (s.run .python environment console) := by
  refine ⟨_, _, enter_alike (World.alike_start environment console)
    (start_alike _ hs.bound (.value .void)) fun Q i i' v v' hPQ hpair hv hnew henter => ?_⟩
  simp only [isOrderly] at horder
  have hscope : List.Forall₂ Q [i, 0] [i', 0] := .cons hpair (.cons hv.outermost .nil)
  have hrun := of_andThen horder henter
  rw [Bool.and_eq_true] at hrun
  have hbinds : v'.Binds i' (Stmt.allBound .python s.body) := by
    intro n hn
    rw [hnew, lookup_map_const, if_pos (List.mem_eraseDups.mpr hn)]
    rfl
  refine ((agreesAt runFuel).statements hs.body hscope hv hbinds hrun.1).bind
    fun T flow flow' u u' hQT hflow hu _ hexec => ?_
  have hscope := scope_mono hQT hscope
  have hentry := of_andThen hrun.2 hexec
  cases hflow with
  | returned _ => exact .pure hu rfl
  | normal | left | next => exact (finish_alike hs hscope hu hentry).within [i']

/-! ## What can be observed of a run -/

theorem Value.Alike.typeName_eq {v v' : Value} (h : v.Alike v') : v.typeName = v'.typeName := by
  rw [← Value.typeName_plain, h, Value.typeName_plain]

theorem Value.Alike.toText_eq {v v' : Value} (h : v.Alike v') : v.toText = v'.toText := by
  have htext := Value.toText_plain_and_allTexts_plain.1
  rw [← htext, h, htext]

/-- Two final values are the same to an observer: of one name, type and text, and alike. -/
structure SameFinal (p p' : String × Value) : Prop where
  name : p.1 = p'.1
  alike : p.2.Alike p'.2
  typeName : p.2.typeName = p'.2.typeName
  text : p.2.toText = p'.2.toText

/-- Two runs agree on all that can be observed: the record of accesses, the console with what was
printed, the final values, and how the run ended.  Runs that failed in the catalog did so in one
function, with one error code. -/
structure Agree (r r' : Except Halt Unit × World) : Prop where
  transcript : r.2.environment.transcript = r'.2.environment.transcript
  console : r.2.console = r'.2.console
  values : List.Forall₂ SameFinal r.2.environment.values r'.2.environment.values
  outcome : Matches Halt.Alike Eq r.1 r'.1

theorem sameFinal_of_plain {values values' : List (String × Value)}
    (h : values.map (fun p => (p.1, p.2.plain)) = values'.map fun p => (p.1, p.2.plain)) :
    List.Forall₂ SameFinal values values' := by
  induction values generalizing values' with
  | nil =>
    cases values' with
    | nil => exact .nil
    | cons p' values' => exact nomatch h
  | cons p values ih =>
    cases values' with
    | nil => exact nomatch h
    | cons p' values' =>
      simp only [List.map_cons, List.cons.injEq, Prod.mk.injEq] at h
      obtain ⟨⟨hname, halike⟩, hrest⟩ := h
      have halike : p.2.Alike p'.2 := halike
      exact .cons ⟨hname, halike, halike.typeName_eq, halike.toText_eq⟩ (ih hrest)

theorem RunsAlike.agree {P : Pairing} {own : List Nat} {w' : World}
    {r r' : Except Halt Unit × World} (h : RunsAlike P own Eq w' r r') : Agree r r' := by
  obtain ⟨houtcome, -, Q, _, hworld⟩ := h
  refine ⟨?_, hworld.console, sameFinal_of_plain ?_, houtcome⟩
  · rw [← Environment.transcript_plain, hworld.environment, Environment.transcript_plain]
  · exact congrArg Environment.values hworld.environment

/-! ## Shaders in both styles -/

/-- A style loads a shader as a program: the compilation in the engine of the style has it. -/
def Style.Loads (style : Style) (shader : Option Shader) (program : Program) : Prop :=
  ∃ options parent t c, options.style = style ∧ options.engine = none ∧
    (compile options shader parent t).1 = .ok c ∧ c.program = some program

variable {shader : Option Shader} {style : Style} {name : String} {d : Dialect}

/-- A program is what an engine loaded of the lowered script. -/
theorem program_of_compile {options : CompileOptions} {parent : Nat} {t : Tracer} {c : Compilation}
    {program : Program} (hcompile : (compile options shader parent t).1 = .ok c)
    (hprogram : c.program = some program) :
    ∃ engine script, (options.engine <|> Engine.ofStyle? options.style) = some engine ∧
      (generate options.style shader).result = .ok script ∧
      engine.load options.givenName script = .ok program := by
  unfold compile at hcompile
  split at hcompile
  · cases hcompile
  · split at hcompile
    · cases hcompile
    · rename_i engine hengine
      cases hresult : (generate options.style shader).result with
      | error e =>
        simp only [tracedGenerate, hresult] at hcompile
        cases hcompile
      | ok script =>
        refine ⟨engine, script, hengine, rfl, ?_⟩
        cases herror : (options.found shader).bag.hasErrors with
        | true =>
          -- An error was kept: there is no program.
          simp only [CompileOptions.found] at herror
          simp only [tracedGenerate, hresult, herror, if_true] at hcompile
          cases hcompile
          cases hprogram
        | false =>
          simp only [CompileOptions.found] at herror
          simp only [tracedGenerate, hresult, herror, Bool.false_eq_true, if_false] at hcompile
          cases hload : engine.load options.givenName script with
          | ok loaded =>
            simp only [hload] at hcompile
            cases hcompile
            cases hprogram
            rfl
          | error failure =>
            cases failure with
            | broken message =>
              simp only [hload] at hcompile
              cases hcompile
            | refused message =>
              simp only [hload] at hcompile
              cases hcompile
              cases hprogram

/-- What a style loads is the lowered script, in its dialect. -/
theorem Style.Loads.script {program : Program}
    (hengine : Engine.ofStyle? style = some (.ofDialect name d)) (h : style.Loads shader program) :
    (generate style shader).result = .ok program.script ∧ program.dialect = d ∧
      program.script.loads d = true := by
  obtain ⟨options, parent, t, c, rfl, hnone, hcompile, hprogram⟩ := h
  obtain ⟨engine, script, hfound, hresult, hload⟩ := program_of_compile hcompile hprogram
  rw [hnone, hengine] at hfound
  cases hfound
  simp only [Engine.ofDialect] at hload
  split at hload
  · rename_i hloads
    cases hload
    exact ⟨hresult, rfl, hloads⟩
  · exact nomatch hload

/-! ## Loading what was lowered -/

/-- The script that a shader is lowered to, empty if it cannot be. -/
def loweredScript (shader : Shader) : Script :=
  match (generate .python (some shader)).result with
  | .ok script => script
  | .error _ => ⟨[], false, .blank⟩

/-- A script is loaded if no error was found in the shader. -/
theorem loads_of_found (hengine : Engine.ofStyle? style = some (.ofDialect name d))
    {script : Script} (hresult : (generate style shader).result = .ok script)
    (herror : (CompileOptions.found { style } shader).bag.hasErrors = false)
    (hload : script.loads d = true) : style.Loads shader ⟨d, script⟩ := by
  have hloaded : (Engine.ofDialect name d).load (CompileOptions.givenName { style }) script =
      .ok ⟨d, script⟩ := by
    simp only [Engine.ofDialect, hload, if_true]
  obtain ⟨c, hc, hprogram⟩ :=
    compile_of_not_hasErrors rfl (by simpa using hengine) hresult herror hloaded 0 .off
  exact ⟨{ style }, 0, .off, c, rfl, rfl, hc, hprogram⟩

/-- A shader that can be lowered without errors is loaded where its script loads. -/
theorem loads_of_lowered {shader : Shader}
    (hengine : Engine.ofStyle? style = some (.ofDialect name d))
    (hok : (generate .python (some shader)).result.isOk = true)
    (herror : (CompileOptions.found { style } (some shader)).bag.hasErrors = false)
    (hload : (loweredScript shader).loads d = true) :
    style.Loads (some shader) ⟨d, loweredScript shader⟩ := by
  have hresult : (generate style (some shader)).result = .ok (loweredScript shader) := by
    rw [(generate_alike style .python (some shader)).1]
    unfold loweredScript
    cases hlowered : (generate .python (some shader)).result with
    | ok script => rfl
    | error e =>
      rw [hlowered] at hok
      exact nomatch hok
  exact loads_of_found hengine hresult herror hload

/-! ## Agreement -/

/-- Counts up to `limit` in a loop with the test at its end, and goes on with `continue` where the
test is true.  The test calls a function, so the runs have different activations. -/
def countingShader : Shader where
  tree := .program .unknown
    [.functionDeclaration .unknown "below" (.type .unknown "bool" "" "")
      [.parameter .unknown "float" "x" "" "" "" .absent]
      (.scope .unknown
        [.returnStatement .unknown
          (.binaryExpression .unknown (.token .unknown "<") (.identifier .unknown "x")
            (.floatLiteral .unknown 10))]),
     .functionDeclaration .unknown "main" (.type .unknown "void" "" "") []
      (.scope .unknown
        [.declarator .unknown (.type .unknown "float" "" "")
          [.declaratorItem .unknown (.identifier .unknown "i") (.floatLiteral .unknown 0)],
         .doStatement .unknown (.functionCall .unknown "below" [.identifier .unknown "i"])
          (.scope .unknown
            [.expressionStatement .unknown
              (.binaryExpression .unknown (.token .unknown "+=") (.identifier .unknown "i")
                (.floatLiteral .unknown 1)),
             .ifStatement .unknown
              (.binaryExpression .unknown (.token .unknown "<") (.identifier .unknown "i")
                (.identifier .unknown "limit"))
              (.scope .unknown [.continueStatement .unknown]) .absent,
             .breakStatement .unknown]),
         .expressionStatement .unknown
          (.binaryExpression .unknown (.token .unknown "=") (.identifier .unknown "total")
            (.identifier .unknown "i"))])]
  uniforms := [⟨"limit", ""⟩]
  varyings := [⟨"total", ""⟩]

/-- Goes on with `continue` before a test that is false, and sets `mark` in a second pass. -/
def repeatingShader : Shader where
  tree := .program .unknown
    [.functionDeclaration .unknown "main" (.type .unknown "void" "" "") []
      (.scope .unknown
        [.declarator .unknown (.type .unknown "bool" "" "")
          [.declaratorItem .unknown (.identifier .unknown "again")
            (.booleanLiteral .unknown false)],
         .doStatement .unknown (.booleanLiteral .unknown false)
          (.scope .unknown
            [.ifStatement .unknown (.identifier .unknown "again")
              (.scope .unknown
                [.expressionStatement .unknown
                  (.binaryExpression .unknown (.token .unknown "=") (.identifier .unknown "mark")
                    (.floatLiteral .unknown 1)),
                 .breakStatement .unknown]) .absent,
             .expressionStatement .unknown
              (.binaryExpression .unknown (.token .unknown "=") (.identifier .unknown "again")
                (.booleanLiteral .unknown true)),
             .continueStatement .unknown])])]
  varyings := [⟨"mark", ""⟩]

end ShaderScript
