import ShaderScript.Compile
import ShaderScript.Proofs.Traversal

/-!
# Which shaders are refused before they are loaded

What lowering reports passes through a filter that lets each finding through once, into a bag of
limited capacity.  The bag ends up with the first distinct findings, as many as it has room for
(`items_reportAll`), and an error among these keeps the script from any engine.  An error that
comes after too many other findings is lost.

`refusedUnseen_iff` is the exact condition.
-/

namespace ShaderScript

variable {d : Diagnostic} {options : CompileOptions} {shader : Option Shader}

/-! ## What a bag keeps -/

/-- The reports without repetitions, each finding where it came first. -/
def distinctFindings : List Diagnostic → List Diagnostic
  | [] => []
  | d :: rest => d :: (distinctFindings rest).filter fun e => !d.sameFinding e

/-- The reports that a bag with the given limit keeps. -/
def keptReports (limit : Int) (reports : List Diagnostic) : List Diagnostic :=
  (distinctFindings reports).take (min limit.toNat Bag.maxCapacity)

theorem Diagnostic.sameFinding_trans {e f : Diagnostic} (hde : d.sameFinding e = true)
    (hef : e.sameFinding f = true) : d.sameFinding f = true := by
  simp only [Diagnostic.sameFinding, Bool.and_eq_true, beq_iff_eq] at hde hef ⊢
  obtain ⟨⟨⟨hcode, hseverity⟩, hpos⟩, hmessage⟩ := hde
  obtain ⟨⟨⟨hcode', hseverity'⟩, hpos'⟩, hmessage'⟩ := hef
  exact ⟨⟨⟨hcode.trans hcode', hseverity.trans hseverity'⟩, hpos.trans hpos'⟩,
    hmessage.trans hmessage'⟩

/-- Whether a finding was not seen before. -/
def unseen (seen : List Diagnostic) (d : Diagnostic) : Bool := !seen.any (·.sameFinding d)

theorem unseen_append (seen : List Diagnostic) (d e : Diagnostic) :
    unseen (seen ++ [d]) e = (unseen seen e && !d.sameFinding e) := by
  simp [unseen]

/-- A finding that was seen adds nothing, and neither do its repetitions. -/
theorem filter_unseen_of_seen {seen : List Diagnostic} (rest : List Diagnostic)
    (h : unseen seen d = false) :
    (distinctFindings (d :: rest)).filter (unseen seen) =
      (distinctFindings rest).filter (unseen seen) := by
  have hsame : ∀ e, (unseen seen e && !d.sameFinding e) = unseen seen e := by
    intro e
    cases hde : d.sameFinding e with
    | false => simp
    | true =>
      simp only [unseen, Bool.not_eq_eq_eq_not, Bool.not_false, List.any_eq_true] at h ⊢
      obtain ⟨f, hf, hfd⟩ := h
      have hseen : (seen.any fun x => x.sameFinding e) = true :=
        List.any_eq_true.mpr ⟨f, hf, Diagnostic.sameFinding_trans hfd hde⟩
      simp [hseen]
  rw [distinctFindings, List.filter_cons_of_neg (by simp [h]), List.filter_filter]
  exact List.filter_congr fun e _ => hsame e

/-- Reporting adds the new findings, as far as there is room. -/
theorem items_reportAll (r : DistinctBag) (reports : List Diagnostic) :
    (r.reportAll reports).bag.items = r.bag.items ++
      ((distinctFindings reports).filter (unseen r.seen)).take
        (r.bag.capacity - r.bag.items.length) := by
  induction reports generalizing r with
  | nil => simp [DistinctBag.reportAll, distinctFindings]
  | cons d rest ih =>
    have hstep : r.reportAll (d :: rest) = (r.report d).reportAll rest := rfl
    rw [hstep, ih, DistinctBag.report]
    split
    · rename_i hseen
      rw [filter_unseen_of_seen rest (by simp [unseen, hseen])]
    · rename_i hseen
      have hnew : unseen r.seen d = true := by simpa [unseen] using hseen
      -- What the bag has now seen is what the list leaves out behind `d`.
      have hrest : (distinctFindings rest).filter (unseen (r.seen ++ [d])) =
          ((distinctFindings rest).filter fun e => !d.sameFinding e).filter (unseen r.seen) := by
        rw [List.filter_filter]
        exact List.filter_congr fun e _ => unseen_append r.seen d e
      rw [distinctFindings, List.filter_cons_of_pos hnew]
      dsimp only
      rw [hrest, Bag.add]
      cases hfull : r.bag.isFull with
      | true =>
        have hroom : r.bag.capacity - r.bag.items.length = 0 := by
          simp only [Bag.isFull, decide_eq_true_eq] at hfull
          omega
        simp [hroom]
      | false =>
        have hroom : r.bag.capacity - r.bag.items.length =
            (r.bag.capacity - (r.bag.items.length + 1)) + 1 := by
          simp only [Bag.isFull, decide_eq_false_iff_not] at hfull
          omega
        rw [hroom]
        simp

/-- A fresh bag keeps the first distinct findings. -/
theorem items_reportAll_ofLimit (limit : Int) (reports : List Diagnostic) :
    (DistinctBag.reportAll { bag := .ofLimit limit } reports).bag.items =
      keptReports limit reports := by
  have hall : (distinctFindings reports).filter (unseen []) = distinctFindings reports :=
    List.filter_eq_self.mpr fun d _ => rfl
  rw [items_reportAll, hall]
  rfl

theorem mem_of_mem_distinctFindings {reports : List Diagnostic} (h : d ∈ distinctFindings reports) :
    d ∈ reports := by
  induction reports with
  | nil => exact h
  | cons e rest ih =>
    cases h with
    | head => exact List.mem_cons_self
    | tail _ h => exact List.mem_cons_of_mem e (ih (List.mem_filter.mp h).1)

/-! ## The diagnostic of a refusal -/

/-- An error has a text. -/
theorem firstError_ne_empty {items : List Diagnostic} (h : ∃ d ∈ items, d.severity = .error) :
    firstError items ≠ "" := by
  induction items with
  | nil =>
    obtain ⟨d, hd, _⟩ := h
    exact nomatch hd
  | cons e rest ih =>
    unfold firstError
    split
    · simp
    · rename_i hne
      refine ih ?_
      obtain ⟨d, hd, hseverity⟩ := h
      cases hd with
      | head => exact absurd hseverity hne
      | tail _ hd => exact ⟨d, hd, hseverity⟩

/-- A shader is refused before any engine sees its script: whatever the engine, the outcome is the
same, has no program, and says why. -/
def RefusedUnseen (options : CompileOptions) (shader : Option Shader) (parent : Nat) (t : Tracer) :
    Prop :=
  ∃ c t', (∀ engine, compile { options with engine := some engine } shader parent t = (.ok c, t')) ∧
    c.program = none ∧ c.diagnostic ≠ ""

/-- The filtered reports of a shader. -/
def CompileOptions.found (options : CompileOptions) (shader : Option Shader) : DistinctBag :=
  DistinctBag.reportAll { bag := .ofLimit options.givenLimit }
    (generate options.style shader).reports

section Outcome

variable {options : CompileOptions} {shader : Option Shader} {script : Script}
  (hactive : options.cancelled = false)

include hactive

/-- A tree that cannot be lowered ends the compilation with an error. -/
theorem compile_of_error {e : LoweringError}
    (hresult : (generate options.style shader).result = .error e) (engine : Engine) (parent : Nat)
    (t : Tracer) :
    (compile { options with engine := some engine } shader parent t).1 =
      .error (.lowering options.givenName e) := by
  simp only [compile, hactive, tracedGenerate, hresult]
  rfl

/-- An error that is kept ends the compilation before the engine is asked. -/
theorem compile_of_hasErrors (hresult : (generate options.style shader).result = .ok script)
    (herror : (options.found shader).bag.hasErrors = true) (engine engine' : Engine) (parent : Nat)
    (t : Tracer) :
    compile { options with engine := some engine } shader parent t =
        compile { options with engine := some engine' } shader parent t ∧
      ∃ c, (compile { options with engine := some engine } shader parent t).1 = .ok c ∧
        c.program = none ∧ c.diagnostic = firstError (options.found shader).bag.sort.items := by
  obtain ⟨style, name, _, limit, cancelled⟩ := options
  cases hactive
  simp only [CompileOptions.found, CompileOptions.givenLimit] at herror
  simp only [compile, tracedGenerate, hresult, CompileOptions.givenLimit, CompileOptions.givenName,
    CompileOptions.found, herror, Bool.false_eq_true, if_true, if_false]
  exact ⟨rfl, _, rfl, rfl, rfl⟩

/-- Without an error that is kept, the engine has the say. -/
theorem compile_of_not_hasErrors {engine : Engine}
    (hengine : (options.engine <|> Engine.ofStyle? options.style) = some engine)
    (hresult : (generate options.style shader).result = .ok script)
    (herror : (options.found shader).bag.hasErrors = false) {program : Program}
    (hload : engine.load options.givenName script = .ok program) (parent : Nat) (t : Tracer) :
    ∃ c, (compile options shader parent t).1 = .ok c ∧ c.program = some program := by
  simp only [CompileOptions.found] at herror
  simp only [compile, hactive, tracedGenerate, hengine, hresult, herror, Bool.false_eq_true,
    if_false, hload]
  exact ⟨_, rfl, rfl⟩

end Outcome

theorem hasErrors_found_iff (options : CompileOptions) (shader : Option Shader) :
    (options.found shader).bag.hasErrors = true ↔
      ∃ d ∈ keptReports options.givenLimit (generate options.style shader).reports,
        d.isError = true := by
  rw [Bag.hasErrors, CompileOptions.found, items_reportAll_ofLimit, List.any_eq_true]

/-- The text of a refusal is that of an error. -/
theorem firstError_found_ne_empty (h : (options.found shader).bag.hasErrors = true) :
    firstError (options.found shader).bag.sort.items ≠ "" := by
  obtain ⟨d, hd, herror⟩ := (hasErrors_found_iff options shader).mp h
  have hreport := mem_of_mem_distinctFindings (List.mem_of_mem_take hd)
  refine firstError_ne_empty ⟨d, ?_, (isError_iff_of_mem_reports hreport).mp herror⟩
  rw [Bag.sort, List.mem_mergeSort, CompileOptions.found, items_reportAll_ofLimit]
  exact hd

/-- A shader that is refused unseen was lowered, and an error was kept. -/
theorem RefusedUnseen.hasErrors {parent : Nat} {t : Tracer}
    (h : RefusedUnseen options shader parent t) :
    options.cancelled = false ∧ (∃ script, (generate options.style shader).result = .ok script) ∧
      (options.found shader).bag.hasErrors = true := by
  -- An engine that takes every script tells apart what no engine is asked for.
  let willing : Engine := ⟨"", fun _ script => .ok ⟨.javaScript, script⟩⟩
  obtain ⟨c, t', hall, hprogram, _⟩ := h
  have hfirst := congrArg Prod.fst (hall willing)
  cases hactive : options.cancelled with
  | true => simp [compile, hactive] at hfirst
  | false =>
    cases hresult : (generate options.style shader).result with
    | error e =>
      rw [compile_of_error hactive hresult] at hfirst
      exact nomatch hfirst
    | ok script =>
      refine ⟨rfl, ⟨script, rfl⟩, ?_⟩
      cases herror : (options.found shader).bag.hasErrors with
      | true => rfl
      | false =>
        obtain ⟨c', hc', hloaded⟩ :=
          @compile_of_not_hasErrors { options with engine := some willing } shader script hactive
            willing rfl hresult herror _ rfl parent t
        rw [hc'] at hfirst
        cases hfirst
        rw [hloaded] at hprogram
        exact nomatch hprogram

/-- A shader that was lowered with an error that is kept is refused unseen. -/
theorem refusedUnseen_of_hasErrors {script : Script} (hactive : options.cancelled = false)
    (hresult : (generate options.style shader).result = .ok script)
    (herror : (options.found shader).bag.hasErrors = true) (parent : Nat) (t : Tracer) :
    RefusedUnseen options shader parent t := by
  let any : Engine := ⟨"", fun _ script => .ok ⟨.javaScript, script⟩⟩
  have hrefused := compile_of_hasErrors hactive hresult herror
  obtain ⟨c, hc, hprogram, hdiagnostic⟩ := (hrefused any any parent t).2
  refine ⟨c, (compile { options with engine := some any } shader parent t).2, fun engine => ?_,
    hprogram, ?_⟩
  · rw [(hrefused engine any parent t).1, ← hc]
  · rw [hdiagnostic]
    exact firstError_found_ne_empty herror

/-- A shader is refused unseen exactly if it can be lowered and an error is among the first distinct
reports, up to the limit. -/
theorem refusedUnseen_iff (options : CompileOptions) (shader : Option Shader) (parent : Nat)
    (t : Tracer) :
    RefusedUnseen options shader parent t ↔
      options.cancelled = false ∧ (∃ script, (generate options.style shader).result = .ok script) ∧
        ∃ d ∈ keptReports options.givenLimit (generate options.style shader).reports,
          d.isError = true := by
  rw [← hasErrors_found_iff]
  constructor
  · exact RefusedUnseen.hasErrors
  · rintro ⟨hactive, ⟨script, hresult⟩, herror⟩
    exact refusedUnseen_of_hasErrors hactive hresult herror parent t

/-- An operator without meaning, and after it an assignment of an assignment. -/
def crowdedShader : Shader where
  tree := .program .unknown
    [.functionDeclaration .unknown "main" (.type .unknown "void" "" "") []
      (.scope .unknown
        [.expressionStatement .unknown
          (.binaryExpression .unknown (.token .unknown ",") (.floatLiteral .unknown 1)
            (.floatLiteral .unknown 2)),
         .expressionStatement .unknown
          (.binaryExpression .unknown (.token .unknown "=") (.identifier .unknown "g")
            (.binaryExpression .unknown (.token .unknown "=") (.identifier .unknown "h")
              (.floatLiteral .unknown 1)))])]
  varyings := [⟨"g", ""⟩, ⟨"h", ""⟩]

/-- With room for one report, the error behind a warning is lost and the script is loaded. -/
theorem not_refusedUnseen_crowdedShader :
    (∃ d ∈ (generate .python (some crowdedShader)).reports, d.isError = true) ∧
      ∀ parent t,
        ¬RefusedUnseen { style := .python, limit := 1 } (some crowdedShader) parent t := by
  have hreports : (generate .python (some crowdedShader)).reports.map Diagnostic.isError =
      [false, true] := by decide +kernel
  have hkept : (CompileOptions.found { style := .python, limit := 1 }
      (some crowdedShader)).bag.hasErrors = false := by decide +kernel
  refine ⟨?_, fun parent t h => ?_⟩
  · have hmem : true ∈ (generate .python (some crowdedShader)).reports.map Diagnostic.isError := by
      simp [hreports]
    exact List.mem_map.mp hmem
  · exact absurd h.hasErrors.2.2 (by simp [hkept])

end ShaderScript
