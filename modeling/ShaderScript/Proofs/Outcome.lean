import Mathlib.Data.Prod.Lex
import ShaderScript.Proofs.Rejection

/-!
# What comes of a shader

What comes of compiling a shader depends on what lowering makes of it and on what the engine says,
and on nothing else: the trace does not matter.  `CompileOutcome` lists the six ways it can go, and
every compilation goes one of them (`compile_outcome`).

The diagnostics come out sorted.  `StablySorted` says what that means, and that there is only one
such order (`StablySorted.eq`).
-/

namespace ShaderScript

variable {engine : Engine} {options : CompileOptions}

/-! ## Sorting -/

/-- A list in order of a key, in which the members with equal keys stand as they stood. -/
structure StablySorted {α κ : Type} [LinearOrder κ] (key : α → κ) (original sorted : List α) :
    Prop where
  ordered : sorted.Pairwise fun a b => key a ≤ key b
  stable : ∀ k, sorted.filter (key · = k) = original.filter (key · = k)

namespace StablySorted

variable {α κ : Type} [LinearOrder κ] {key : α → κ} {original sorted sorted' : List α}

theorem mem_iff_of_filter_eq (h : ∀ k, sorted.filter (key · = k) = sorted'.filter (key · = k))
    {a : α} : a ∈ sorted ↔ a ∈ sorted' := by
  have hfilter : a ∈ sorted.filter (key · = key a) ↔ a ∈ sorted'.filter (key · = key a) := by
    rw [h]
  simpa using hfilter

/-- Two ordered lists that agree on each key are the same. -/
theorem eq_of_filter_eq (h : sorted.Pairwise fun a b => key a ≤ key b)
    (h' : sorted'.Pairwise fun a b => key a ≤ key b)
    (hfilter : ∀ k, sorted.filter (key · = k) = sorted'.filter (key · = k)) :
    sorted = sorted' := by
  induction sorted generalizing sorted' with
  | nil =>
    refine (List.eq_nil_iff_forall_not_mem.mpr fun a ha => ?_).symm
    cases (mem_iff_of_filter_eq hfilter).mpr ha
  | cons a rest ih =>
    cases sorted' with
    | nil => cases (mem_iff_of_filter_eq hfilter).mp List.mem_cons_self
    | cons b rest' =>
      rw [List.pairwise_cons] at h h'
      -- Both heads have the least key, so both are the first that has it.
      have hle : key a ≤ key b := by
        rcases List.mem_cons.mp ((mem_iff_of_filter_eq hfilter).mpr List.mem_cons_self) with hb | hb
        · rw [hb]
        · exact h.1 b hb
      have hge : key b ≤ key a := by
        rcases List.mem_cons.mp ((mem_iff_of_filter_eq hfilter).mp List.mem_cons_self) with ha | ha
        · rw [ha]
        · exact h'.1 a ha
      have hkey : key b = key a := le_antisymm hge hle
      have hheads : a :: rest.filter (key · = key a) = b :: rest'.filter (key · = key a) := by
        simpa [hkey] using hfilter (key a)
      obtain ⟨rfl, -⟩ := List.cons.inj hheads
      -- Without the common head the lists still agree on each key.
      congr 1
      apply ih h.2 h'.2
      intro k
      have htails := hfilter k
      rw [List.filter_cons, List.filter_cons] at htails
      split at htails
      · exact (List.cons.inj htails).2
      · exact htails

theorem eq (h : StablySorted key original sorted) (h' : StablySorted key original sorted') :
    sorted = sorted' :=
  eq_of_filter_eq h.ordered h'.ordered fun k => (h.stable k).trans (h'.stable k).symm

end StablySorted

/-- What diagnostics are sorted by: the position, then the severity with the worst first, then the
code. -/
def Diagnostic.place (d : Diagnostic) : Int ×ₗ Int ×ₗ ℕᵒᵈ ×ₗ ℕ :=
  toLex (d.pos.line, toLex (d.pos.col, toLex (OrderDual.toDual d.severity.rank, d.code.number)))

theorem Bag.before_iff (d e : Diagnostic) : Bag.before d e = true ↔ d.place < e.place := by
  unfold Bag.before Diagnostic.place
  simp only [Prod.Lex.toLex_lt_toLex, OrderDual.toDual_lt_toDual, EmbeddingLike.apply_eq_iff_eq]
  grind

/-- Diagnostics in the order of a sorted bag. -/
def inOrder (ds : List Diagnostic) : List Diagnostic :=
  ds.mergeSort fun d e => !Bag.before e d

theorem Bag.items_sort (b : Bag) : b.sort.items = inOrder b.items := rfl

/-- Diagnostics are sorted by place, and equals keep their order. -/
theorem stablySorted_inOrder (ds : List Diagnostic) :
    StablySorted Diagnostic.place ds (inOrder ds) := by
  have hle : ∀ d e : Diagnostic, (!Bag.before e d) = true ↔ d.place ≤ e.place := by
    intro d e
    rw [Bool.not_eq_true', ← Bool.not_eq_true, Bag.before_iff, not_lt]
  have htrans : ∀ d e f : Diagnostic, (!Bag.before e d) = true → (!Bag.before f e) = true →
      (!Bag.before f d) = true := by
    simp only [hle]
    exact fun d e f => le_trans
  have htotal : ∀ d e : Diagnostic, ((!Bag.before e d) || !Bag.before d e) = true := by
    simp only [Bool.or_eq_true, hle]
    exact fun d e => le_total d.place e.place
  refine ⟨?_, fun k => ?_⟩
  · exact (List.pairwise_mergeSort htrans htotal ds).imp fun h => (hle _ _).mp h
  · -- The members with one key are in order, so sorting keeps them as they are.
    have hequal : (ds.filter (·.place = k)).Pairwise fun d e => (!Bag.before e d) = true := by
      apply List.pairwise_of_forall_mem_list
      intro d hd e he
      have hd : d.place = k := of_decide_eq_true (List.mem_filter.mp hd).2
      have he : e.place = k := of_decide_eq_true (List.mem_filter.mp he).2
      rw [hle, hd, he]
    have hsublist : (ds.filter (·.place = k)).Sublist (inOrder ds) :=
      List.sublist_mergeSort htrans htotal hequal List.filter_sublist
    have hperm : ((inOrder ds).filter (·.place = k)).Perm (ds.filter (·.place = k)) :=
      (List.mergeSort_perm ds _).filter _
    have hwithin : (ds.filter (·.place = k)).Sublist ((inOrder ds).filter (·.place = k)) := by
      simpa using hsublist.filter (·.place = k)
    exact (hwithin.eq_of_length hperm.length_eq.symm).symm

theorem eq_inOrder_iff (ds sorted : List Diagnostic) :
    sorted = inOrder ds ↔ StablySorted Diagnostic.place ds sorted := by
  constructor
  · rintro rfl
    exact stablySorted_inOrder ds
  · intro h
    exact h.eq (stablySorted_inOrder ds)

theorem mem_inOrder {ds : List Diagnostic} {d : Diagnostic} : d ∈ inOrder ds ↔ d ∈ ds :=
  List.mem_mergeSort

/-! ## The ways it can go -/

/-- The engine of a style does not look at the name of a script. -/
theorem Engine.load_ofStyle? {style : Style} (h : Engine.ofStyle? style = some engine)
    (name name' : String) (script : Script) : engine.load name script = engine.load name' script := by
  unfold Engine.ofStyle? at h
  split at h
  · cases h
    rfl
  · split at h <;> cases h
    rfl

namespace CompileOptions

/-- The engine to load in. -/
def chosenEngine (options : CompileOptions) : Option Engine :=
  options.engine <|> Engine.ofStyle? options.style

/-- The reports of lowering that are kept. -/
def kept (options : CompileOptions) (shader : Option Shader) : List Diagnostic :=
  keptReports options.givenLimit (generate options.style shader).reports

/-- What the engine says of a shader, with the engine.  It is not asked if there is no script, or if
an error was kept. -/
def answer (options : CompileOptions) (shader : Option Shader) :
    Option (Engine × Except LoadFailure Program) :=
  match options.chosenEngine, (generate options.style shader).result with
  | some engine, .ok script =>
    if (options.kept shader).any Diagnostic.isError then none
    else some (engine, engine.load options.givenName script)
  | _, _ => none

theorem answer_eq {shader : Option Shader} {script : Script}
    (hengine : options.chosenEngine = some engine)
    (hresult : (generate options.style shader).result = .ok script) :
    options.answer shader =
      if (options.kept shader).any Diagnostic.isError then none
      else some (engine, engine.load options.givenName script) := by
  simp only [answer, hengine, hresult]

/-- Whoever answers is the engine that was chosen, and it was shown the script. -/
theorem of_answer {shader : Option Shader} {reply : Except LoadFailure Program}
    (h : options.answer shader = some (engine, reply)) :
    options.chosenEngine = some engine ∧
      (∀ d ∈ options.kept shader, d.isError = false) ∧
      ∃ script, (generate options.style shader).result = .ok script ∧
        engine.load options.givenName script = reply := by
  unfold answer at h
  split at h
  · rename_i chosen script hengine hresult
    split at h
    · cases h
    · rename_i herror
      cases h
      refine ⟨hengine, fun d hd => ?_, script, hresult, rfl⟩
      exact Bool.eq_false_iff.mpr fun hd' => herror (List.any_eq_true.mpr ⟨d, hd, hd'⟩)
  · cases h

/-- What is reported of an engine that refuses a script. -/
def refusalReport (options : CompileOptions) (engine : Engine) (message : String) : Diagnostic :=
  .error .compileFailed .unknown (engine.name ++ ": " ++ options.givenName ++ ": " ++ message)

/-- What is reported of the engine's answer. -/
def answerReports (options : CompileOptions) (shader : Option Shader) : List Diagnostic :=
  match options.answer shader with
  | some (engine, .error (.refused message)) => [options.refusalReport engine message]
  | _ => []

theorem answerReports_eq_nil {shader : Option Shader}
    (h : ∀ engine message, options.answer shader ≠ some (engine, .error (.refused message))) :
    options.answerReports shader = [] := by
  unfold answerReports
  split
  · rename_i hanswer
    exact absurd hanswer (h _ _)
  · rfl

/-- So the name of a shader does not matter to the answer. -/
theorem answer_renamed (hengine : options.engine = none) (shader : Option Shader) (name : String) :
    ({ options with name } : CompileOptions).answer shader = options.answer shader := by
  have hsame : ({ options with name } : CompileOptions).chosenEngine = options.chosenEngine := rfl
  unfold answer
  rw [hsame]
  cases hchosen : options.chosenEngine with
  | none => rfl
  | some engine =>
    rw [chosenEngine, hengine] at hchosen
    cases (generate options.style shader).result with
    | error e => rfl
    | ok script =>
      dsimp only
      rw [Engine.load_ofStyle? hchosen _ options.givenName]
      rfl

end CompileOptions

/-- What can come of a shader. -/
inductive CompileOutcome (options : CompileOptions) (shader : Option Shader) :
    Except CompileError Compilation → Prop
  | noEngine (hengine : options.chosenEngine = none) :
      CompileOutcome options shader (.error (.noEngine options.style.name))
  | unlowered {engine : Engine} (hengine : options.chosenEngine = some engine) {e : LoweringError}
      (hresult : (generate options.style shader).result = .error e) :
      CompileOutcome options shader (.error (.lowering options.givenName e))
  /-- An error that was kept ends the compilation before the engine is asked. -/
  | rejected {engine : Engine} (hengine : options.chosenEngine = some engine) {script : Script}
      (hresult : (generate options.style shader).result = .ok script)
      (hanswer : options.answer shader = none)
      (herror : ∃ d ∈ options.kept shader, d.isError = true) (span : Nat) :
      CompileOutcome options shader (.ok ⟨options.style, script.source options.style.dialect, none,
        firstError (inOrder (options.kept shader)), inOrder (options.kept shader), span⟩)
  | loaded {script : Script} (hresult : (generate options.style shader).result = .ok script)
      {engine : Engine} {program : Program}
      (hanswer : options.answer shader = some (engine, .ok program)) (span : Nat) :
      CompileOutcome options shader (.ok ⟨options.style, script.source options.style.dialect,
        some program, "", inOrder (options.kept shader), span⟩)
  | broken {engine : Engine} {message : String}
      (hanswer : options.answer shader = some (engine, .error (.broken message))) :
      CompileOutcome options shader (.error (.engine options.givenName message))
  | refused {script : Script} (hresult : (generate options.style shader).result = .ok script)
      {engine : Engine} {message : String}
      (hanswer : options.answer shader = some (engine, .error (.refused message))) (span : Nat) :
      CompileOutcome options shader (.ok ⟨options.style, script.source options.style.dialect, none,
        message, inOrder (keptReports options.givenLimit ((generate options.style shader).reports ++
          [options.refusalReport engine message])), span⟩)

theorem DistinctBag.report_reportAll (r : DistinctBag) (ds : List Diagnostic) (d : Diagnostic) :
    (r.reportAll ds).report d = r.reportAll (ds ++ [d]) := by
  simp [DistinctBag.reportAll]

/-- A compilation goes one of these ways. -/
theorem compile_outcome (hactive : options.cancelled = false) (shader : Option Shader)
    (parent : Nat) (t : Tracer) :
    CompileOutcome options shader (compile options shader parent t).1 := by
  have hkept : (DistinctBag.reportAll { bag := .ofLimit options.givenLimit }
      (generate options.style shader).reports).bag.items = options.kept shader :=
    items_reportAll_ofLimit _ _
  simp only [compile, hactive, Bool.false_eq_true, if_false]
  -- The choices of a compilation in its order: the engine, the script, the errors that were kept, and
  -- what the engine says.
  split
  · rename_i hengine
    exact .noEngine hengine
  · rename_i engine hengine
    simp only [tracedGenerate]
    split
    · rename_i e hresult
      exact .unlowered hengine hresult
    · rename_i script hresult
      have hsource : (generate options.style shader).source = script.source options.style.dialect :=
        Generator.generate_source hresult
      simp only [Bag.items_sort, Bag.hasErrors, hkept, hsource]
      split
      · rename_i herror
        have hanswer : options.answer shader = none := by
          rw [CompileOptions.answer_eq hengine hresult, if_pos herror]
        exact .rejected hengine hresult hanswer (List.any_eq_true.mp herror) _
      · rename_i herror
        have hanswer : options.answer shader =
            some (engine, engine.load options.givenName script) := by
          rw [CompileOptions.answer_eq hengine hresult, if_neg herror]
        split
        · rename_i program hload
          exact .loaded hresult (hload ▸ hanswer) _
        · rename_i message hload
          exact .broken (hload ▸ hanswer)
        · rename_i message hload
          rw [DistinctBag.report_reportAll, items_reportAll_ofLimit]
          exact .refused hresult (hload ▸ hanswer) _

/-! ## What is documented -/

/-- An engine that says why it refuses a script. -/
def Engine.Explains (engine : Engine) : Prop :=
  ∀ name script message, engine.load name script = .error (.refused message) → message ≠ ""

theorem Engine.explains_of_ofStyle? {style : Style} (h : Engine.ofStyle? style = some engine) :
    engine.Explains := by
  have hdialect : ∀ name d, (Engine.ofDialect name d).Explains := by
    intro name d title script message hrefused
    simp only [Engine.ofDialect] at hrefused
    split at hrefused
    · cases hrefused
    · cases hrefused
      decide
  unfold Engine.ofStyle? at h
  split at h
  · cases h
    exact hdialect _ _
  · split at h
    · cases h
      exact hdialect _ _
    · cases h

/-- An engine that was chosen explains itself, if every engine that is given does. -/
theorem explains_of_chosenEngine (hgiven : ∀ engine, options.engine = some engine → engine.Explains)
    (h : options.chosenEngine = some engine) : engine.Explains := by
  unfold CompileOptions.chosenEngine at h
  cases hengine : options.engine with
  | some given =>
    rw [hengine] at h
    cases h
    exact hgiven _ hengine
  | none =>
    rw [hengine] at h
    exact Engine.explains_of_ofStyle? h

section

variable {options : CompileOptions} {shader : Option Shader}

variable {c : Compilation}

theorem chosenEngine_eq_none :
    options.chosenEngine = none ↔ options.engine = none ∧ Engine.ofStyle? options.style = none := by
  simp [CompileOptions.chosenEngine]

/-- When a compilation fails. -/
theorem CompileOutcome.error_iff {r : Except CompileError Compilation}
    (h : CompileOutcome options shader r) :
    (∃ e, r = .error e) ↔
      options.chosenEngine = none ∨ (∃ e, (generate options.style shader).result = .error e) ∨
        ∃ engine message, options.answer shader = some (engine, .error (.broken message)) := by
  cases h with
  | noEngine hengine => simp [hengine]
  | unlowered hengine hresult => simp [hresult]
  | broken hanswer => simp [hanswer]
  | rejected hengine hresult hanswer => simp [hengine, hresult, hanswer]
  | loaded hresult hanswer | refused hresult hanswer =>
    simp [(CompileOptions.of_answer hanswer).1, hresult, hanswer]

/-- An error that was kept gives the diagnostic a text. -/
theorem firstError_kept_ne_empty (h : ∃ d ∈ options.kept shader, d.isError = true) :
    firstError (inOrder (options.kept shader)) ≠ "" := by
  have hfound := firstError_found_ne_empty ((hasErrors_found_iff options shader).mpr h)
  rwa [Bag.items_sort, CompileOptions.found, items_reportAll_ofLimit] at hfound

/-- A compilation has a program or a diagnostic, and the program is the engine's. -/
theorem CompileOutcome.program_iff (h : CompileOutcome options shader (.ok c))
    (hgiven : ∀ engine, options.engine = some engine → engine.Explains) :
    (c.program = none ↔ c.diagnostic ≠ "") ∧
      ∀ program, c.program = some program ↔
        ∃ engine, options.answer shader = some (engine, .ok program) := by
  cases h with
  | rejected hengine hresult hanswer herror =>
    simp [hanswer, firstError_kept_ne_empty herror]
  | loaded hresult hanswer => simp [hanswer]
  | @refused script hresult engine message hanswer =>
    obtain ⟨hengine, -, script, -, hload⟩ := CompileOptions.of_answer hanswer
    have hmessage : message ≠ "" := explains_of_chosenEngine hgiven hengine _ _ _ hload
    simp [hanswer, hmessage]

/-- A shader whose script an engine refuses comes to nothing, which is no error. -/
theorem CompileOutcome.of_refused {r : Except CompileError Compilation}
    (h : CompileOutcome options shader r) {message : String}
    (hanswer : options.answer shader = some (engine, .error (.refused message))) :
    ∃ c, r = .ok c ∧ c.program = none := by
  obtain ⟨hengine, -, script, hresult, -⟩ := CompileOptions.of_answer hanswer
  cases h with
  | noEngine h => simp [h] at hengine
  | unlowered _ h => simp [h] at hresult
  | rejected _ _ h | loaded _ h | broken h => simp [h] at hanswer
  | refused => exact ⟨_, rfl, rfl⟩

theorem CompileOutcome.source_eq (h : CompileOutcome options shader (.ok c)) :
    ∃ script, (generate options.style shader).result = .ok script ∧
      c.source = script.source options.style.dialect := by
  cases h with
  | rejected _ hresult | loaded hresult | refused hresult => simp [hresult]

theorem CompileOutcome.diagnostics_eq (h : CompileOutcome options shader (.ok c)) :
    c.diagnostics = inOrder (keptReports options.givenLimit
      ((generate options.style shader).reports ++ options.answerReports shader)) := by
  cases h with
  | rejected hengine hresult hanswer =>
    simp [CompileOptions.answerReports, hanswer, CompileOptions.kept]
  | loaded hresult hanswer => simp [CompileOptions.answerReports, hanswer, CompileOptions.kept]
  | refused hresult hanswer => simp [CompileOptions.answerReports, hanswer]

/-! ## Refusals -/

/-- How many diagnostics a compilation keeps. -/
def CompileOptions.capacity (options : CompileOptions) : Nat :=
  min options.givenLimit.toNat Bag.maxCapacity

/-- A finding that is unlike all others comes last. -/
theorem distinctFindings_concat {d : Diagnostic} {reports : List Diagnostic}
    (h : ∀ e ∈ reports, e.code ≠ d.code) :
    distinctFindings (reports ++ [d]) = distinctFindings reports ++ [d] := by
  induction reports with
  | nil => rfl
  | cons e rest ih =>
    have hrest := ih fun e he => h e (List.mem_cons_of_mem _ he)
    have hcode : (e.code == d.code) = false := beq_false_of_ne (h e List.mem_cons_self)
    have hkeep : (!e.sameFinding d) = true := by simp [Diagnostic.sameFinding, hcode]
    rw [List.cons_append, distinctFindings, hrest, List.filter_append, distinctFindings]
    simp [hkeep]

/-- A finding unlike all others is kept if there is room for it; the others are not touched. -/
theorem keptReports_concat {d : Diagnostic} {limit : Int} {reports : List Diagnostic}
    (h : ∀ e ∈ reports, e.code ≠ d.code) :
    keptReports limit (reports ++ [d]) =
      if (distinctFindings reports).length < min limit.toNat Bag.maxCapacity then
        distinctFindings reports ++ [d]
      else keptReports limit reports := by
  rw [keptReports, distinctFindings_concat h]
  split
  · rename_i hroom
    apply List.take_of_length_le
    rw [List.length_append, List.length_singleton]
    omega
  · rename_i hfull
    exact List.take_append_of_le_length (by omega)

theorem code_ne_compileFailed {d : Diagnostic} (h : d ∈ (generate options.style shader).reports) :
    d.code ≠ .compileFailed := by
  rcases kind_of_mem_reports h with ⟨-, hcode⟩ | ⟨-, hcode, -⟩
  · intro heq
    rw [heq] at hcode
    exact absurd hcode (by decide)
  · rw [hcode]
    decide

theorem mem_kept {d : Diagnostic} (h : d ∈ options.kept shader) :
    d ∈ (generate options.style shader).reports :=
  mem_of_mem_distinctFindings (List.mem_of_mem_take h)

theorem isError_iff_of_mem_kept {d : Diagnostic} (h : d ∈ options.kept shader) :
    d.isError = true ↔ d.severity = .error :=
  isError_iff_of_mem_reports (mem_kept h)

/-- What is kept of lowering and of a refusal. -/
theorem CompileOutcome.diagnostics_of_refused (h : CompileOutcome options shader (.ok c))
    {engine : Engine} {message : String}
    (hanswer : options.answer shader = some (engine, .error (.refused message))) :
    c.diagnostics = inOrder
      (if (distinctFindings (generate options.style shader).reports).length < options.capacity then
        distinctFindings (generate options.style shader).reports ++
          [options.refusalReport engine message]
      else options.kept shader) := by
  have hother : ∀ d ∈ (generate options.style shader).reports,
      d.code ≠ (options.refusalReport engine message).code :=
    fun d hd => code_ne_compileFailed hd
  rw [h.diagnostics_eq, CompileOptions.answerReports, hanswer]
  dsimp only
  rw [keptReports_concat hother]
  rfl

/-- The refusal of an engine is shown exactly if there is room for it. -/
theorem CompileOutcome.refusalReport_mem_iff (h : CompileOutcome options shader (.ok c))
    {engine : Engine} {message : String}
    (hanswer : options.answer shader = some (engine, .error (.refused message))) :
    options.refusalReport engine message ∈ c.diagnostics ↔
      (distinctFindings (generate options.style shader).reports).length < options.capacity := by
  rw [h.diagnostics_of_refused hanswer, mem_inOrder]
  split
  · rename_i hroom
    simp [hroom]
  · rename_i hfull
    have hlost : options.refusalReport engine message ∉ options.kept shader :=
      fun hd => code_ne_compileFailed (mem_kept hd) rfl
    simp [hfull, hlost]

/-- The diagnostic of a compilation follows from what was kept and from the engine's answer. -/
theorem CompileOutcome.diagnostic_congr {options' : CompileOptions} {c' : Compilation}
    (h : CompileOutcome options shader (.ok c)) (h' : CompileOutcome options' shader (.ok c'))
    (hkept : options'.kept shader = options.kept shader)
    (hanswer : options'.answer shader = options.answer shader) : c'.diagnostic = c.diagnostic := by
  cases h <;> cases h' <;> simp_all

/-- What a shader is called shows only in a report of the engine's refusal: without one, compiling
under another name gives the same. -/
theorem CompileOutcome.of_renamed {name : String} {r : Except CompileError Compilation}
    (hengine : options.engine = none) (h : CompileOutcome options shader (.ok c))
    (hquiet : ∀ d ∈ c.diagnostics, d.code ≠ .compileFailed)
    (h' : CompileOutcome { options with name } shader r) :
    ∃ c', r = .ok c' ∧ c'.source = c.source ∧ c'.diagnostic = c.diagnostic ∧
      c'.diagnostics = c.diagnostics := by
  have hanswer : ({ options with name } : CompileOptions).answer shader = options.answer shader :=
    CompileOptions.answer_renamed hengine shader name
  cases r with
  | error e =>
    have hfailed := h'.error_iff.1 ⟨e, rfl⟩
    rw [hanswer] at hfailed
    obtain ⟨_, hok⟩ := h.error_iff.2 hfailed
    cases hok
  | ok c' =>
    obtain ⟨script, hresult, hsource⟩ := h.source_eq
    obtain ⟨script', hresult', hsource'⟩ := h'.source_eq
    obtain rfl : script = script' := Except.ok.inj (hresult.symm.trans hresult')
    refine ⟨c', rfl, hsource'.trans hsource.symm, h.diagnostic_congr h' rfl hanswer, ?_⟩
    by_cases hrefused : ∃ engine message,
        options.answer shader = some (engine, .error (.refused message))
    · -- There was no room for the report of the refusal.
      obtain ⟨engine, message, hrefused⟩ := hrefused
      have hfull : ¬(distinctFindings (generate options.style shader).reports).length <
          options.capacity := fun hroom =>
        hquiet _ ((h.refusalReport_mem_iff hrefused).2 hroom) rfl
      rw [h.diagnostics_of_refused hrefused, h'.diagnostics_of_refused (hanswer.trans hrefused),
        if_neg hfull]
      exact congrArg inOrder (if_neg hfull)
    · have hnone : options.answerReports shader = [] :=
        CompileOptions.answerReports_eq_nil fun engine message heq => hrefused ⟨engine, message, heq⟩
      have hnone' : ({ options with name } : CompileOptions).answerReports shader = [] :=
        CompileOptions.answerReports_eq_nil fun engine message heq =>
          hrefused ⟨engine, message, hanswer.symm.trans heq⟩
      rw [h.diagnostics_eq, h'.diagnostics_eq, hnone, hnone']
      rfl

end

/-- What comes of a shader follows from lowering and from the engine.  There is an error exactly if
there is no engine, the shader cannot be lowered, or the engine is asked and breaks down.
Otherwise the source is that of lowering; there is either a program, which is the one that the
engine made, or a diagnostic; and the diagnostics are the first distinct reports in order, those of
lowering before that of the engine. -/
theorem compile_determined (options : CompileOptions) (shader : Option Shader) (parent : Nat)
    (t : Tracer) (hactive : options.cancelled = false)
    (hgiven : ∀ engine, options.engine = some engine → engine.Explains) :
    ((∃ e, (compile options shader parent t).1 = .error e) ↔
      (options.engine = none ∧ Engine.ofStyle? options.style = none) ∨
      (∃ e, (generate options.style shader).result = .error e) ∨
      ∃ engine message, options.answer shader = some (engine, .error (.broken message))) ∧
    ∀ c, (compile options shader parent t).1 = .ok c →
      (∃ script, (generate options.style shader).result = .ok script ∧
        c.source = script.source options.style.dialect) ∧
      (c.program = none ↔ c.diagnostic ≠ "") ∧
      (∀ program, c.program = some program ↔
        ∃ engine, options.answer shader = some (engine, .ok program)) ∧
      ∀ sorted, sorted = c.diagnostics ↔
        StablySorted Diagnostic.place
          (keptReports options.givenLimit
            ((generate options.style shader).reports ++ options.answerReports shader)) sorted := by
  have houtcome := compile_outcome hactive shader parent t
  refine ⟨?_, fun c hc => ?_⟩
  · rw [houtcome.error_iff, chosenEngine_eq_none]
  · rw [hc] at houtcome
    obtain ⟨hexclusive, hprogram⟩ := houtcome.program_iff hgiven
    refine ⟨houtcome.source_eq, hexclusive, hprogram, fun sorted => ?_⟩
    rw [houtcome.diagnostics_eq, eq_inOrder_iff]

/-- An engine that refuses every script. -/
def refusingEngine : Engine := ⟨"fake", fun _ _ => .error (.refused "unexpected token")⟩

/-- Such an engine, and room for a number of diagnostics. -/
def refusingOptions (limit : Int) : CompileOptions := { engine := some refusingEngine, limit }

theorem refusingEngine_explains : refusingEngine.Explains := by
  rintro name script message ⟨rfl⟩
  decide

/-- The engine is asked for a shader that has only a warning. -/
theorem answer_crowdedShader (limit : Int) :
    (refusingOptions limit).answer (some crowdedShader) =
      some (refusingEngine, .error (.refused "unexpected token")) := by
  have hlowered : (generate .javaScript (some crowdedShader)).result.toBool = true := by
    decide +kernel
  have hreports : ∀ d ∈ (generate .javaScript (some crowdedShader)).reports,
      d.isError = false := by decide +kernel
  have hkept :
      ¬((refusingOptions limit).kept (some crowdedShader)).any Diagnostic.isError = true := by
    rw [List.any_eq_true]
    rintro ⟨d, hd, herror⟩
    rw [hreports d (mem_of_mem_distinctFindings (List.mem_of_mem_take hd))] at herror
    cases herror
  have hchosen : (refusingOptions limit).chosenEngine = some refusingEngine := rfl
  cases hresult : (generate .javaScript (some crowdedShader)).result with
  | error e => simp [hresult, Except.toBool] at hlowered
  | ok script =>
    rw [CompileOptions.answer_eq hchosen hresult, if_neg hkept]
    rfl

/-- The shader comes to nothing with that engine, which is no error. -/
theorem compile_refusingOptions (limit : Int) :
    ∃ c, (compile (refusingOptions limit) (some crowdedShader) 0 {}).1 = .ok c ∧
      c.program = none :=
  (compile_outcome rfl (some crowdedShader) 0 {}).of_refused (answer_crowdedShader limit)

/-- A shader with a warning and an engine that refuses it: there is a diagnostic and no program, and
the refusal, which has no position either but is worse, stands before the warning. -/
theorem compile_determined_refusingEngine :
    refusingEngine.Explains ∧
    ∃ c, (compile (refusingOptions 2) (some crowdedShader) 0 {}).1 = .ok c ∧
      c.program = none ∧ c.diagnostic ≠ "" ∧
      c.diagnostics =
        [.error .compileFailed .unknown "fake: shader: unexpected token",
         .warning .unsupportedOperator .unknown "operator \",\" has no runtime mapping"] := by
  obtain ⟨c, hc, hprogram⟩ := compile_refusingOptions 2
  obtain ⟨-, hexclusive, -, hsorted⟩ := (compile_determined (refusingOptions 2)
    (some crowdedShader) 0 {} rfl (by rintro engine ⟨rfl⟩; exact refusingEngine_explains)).2 c hc
  refine ⟨refusingEngine_explains, c, hc, hprogram, hexclusive.mp hprogram, ?_⟩
  have hkept : keptReports (refusingOptions 2).givenLimit
      ((generate (refusingOptions 2).style (some crowdedShader)).reports ++
        [(refusingOptions 2).refusalReport refusingEngine "unexpected token"]) =
      [.warning .unsupportedOperator .unknown "operator \",\" has no runtime mapping",
       .error .compileFailed .unknown "fake: shader: unexpected token"] := by decide +kernel
  have hanswer : (refusingOptions 2).answerReports (some crowdedShader) =
      [(refusingOptions 2).refusalReport refusingEngine "unexpected token"] := by
    rw [CompileOptions.answerReports, answer_crowdedShader]
  symm
  rw [hsorted, ← eq_inOrder_iff, hanswer, hkept]
  simp [inOrder, List.mergeSort, Bag.before, Diagnostic.warning, Diagnostic.error, Severity.rank]

end ShaderScript
