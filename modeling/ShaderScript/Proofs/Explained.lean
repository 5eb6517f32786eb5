import Mathlib.Data.List.Forall2
import ShaderScript.Proofs.CacheTransparency
import ShaderScript.Proofs.Outcome
import ShaderScript.Proofs.Reuse
import ShaderScript.Proofs.Traversal

/-!
# Failures that explain themselves

A shader that comes to nothing should have an error among its diagnostics.  Diagnostics are kept in
bags of limited capacity, and a full bag drops whatever comes next, errors too.  So a failure
explains itself exactly if there is room left for its error: in the bag of the compilation for an
engine that refuses a script, and in the bag of the file for what goes wrong in a batch.

The bag of a file takes findings in two ways.  Reports are added one by one, and the findings of a
compilation are taken over as a whole, which may leave the bag fuller than its capacity.
`Bag.Records` says what a bag then has to do with all that was found.
-/

namespace ShaderScript

variable {d e : Diagnostic}

/-! ## Compilations -/

/-- There is room for the reason that a shader has no program: an error of lowering was kept, or the
findings of lowering leave room for one more. -/
def CompileOptions.HasRoom (options : CompileOptions) (shader : Option Shader) : Prop :=
  (∃ d ∈ options.kept shader, d.severity = .error) ∨
    (distinctFindings (generate options.style shader).reports).length < options.capacity

section

variable {options : CompileOptions} {shader : Option Shader} {c : Compilation}

/-- A compilation without a program shows an error exactly if there was room for one. -/
theorem CompileOutcome.explained_iff (h : CompileOutcome options shader (.ok c))
    (hprogram : c.program = none) :
    (∃ d ∈ c.diagnostics, d.severity = .error) ↔ options.HasRoom shader := by
  have houtcome := h
  cases h with
  | loaded => cases hprogram
  | rejected hengine hresult hanswer herror =>
    obtain ⟨d, hd, hd'⟩ := herror
    have hseverity := (isError_iff_of_mem_kept hd).mp hd'
    exact ⟨fun _ => .inl ⟨d, hd, hseverity⟩, fun _ => ⟨d, mem_inOrder.mpr hd, hseverity⟩⟩
  | @refused script hresult engine message hanswer span =>
    -- The engine was asked, so no error was kept before.
    have hnone : ∀ d ∈ options.kept shader, d.severity ≠ .error := by
      intro d hd hseverity
      have hclean := (CompileOptions.of_answer hanswer).2.1 d hd
      rw [(isError_iff_of_mem_kept hd).mpr hseverity] at hclean
      cases hclean
    constructor
    · rintro ⟨d, hd, hseverity⟩
      by_contra hroom
      rw [CompileOptions.HasRoom, not_or] at hroom
      rw [houtcome.diagnostics_of_refused hanswer, if_neg hroom.2, mem_inOrder] at hd
      exact hnone d hd hseverity
    · rintro (⟨d, hd, hseverity⟩ | hroom)
      · exact absurd hseverity (hnone d hd)
      · exact ⟨_, (houtcome.refusalReport_mem_iff hanswer).mpr hroom, rfl⟩

end

/-! ## Findings and their codes -/

/-- The codes of the warnings that a file can have. -/
def warningCodes : List Code :=
  [.unsupportedOperator, .globalParameter, .globalRedeclared, .cacheError]

/-- The codes of the errors that a file can have before the batch gives it up. -/
def errorCodes : List Code := [.assignInExpression, .compileFailed]

/-- The codes of the failures that make a batch give a file up. -/
def failureCodes : List Code :=
  [.loadError, .decodeError, .unsupportedNode, .outputConflict, .writeError]

/-- A finding about a shader or about the cache: its code tells its severity. -/
def Diagnostic.Routine (d : Diagnostic) : Prop :=
  (d.severity = .warning ∧ d.code ∈ warningCodes) ∨ (d.severity = .error ∧ d.code ∈ errorCodes)

theorem Diagnostic.Routine.code_mem (h : d.Routine) :
    d.code ∈ warningCodes ++ errorCodes ++ failureCodes := by
  rcases h with ⟨-, h⟩ | ⟨-, h⟩ <;> simp [h]

theorem Diagnostic.Routine.code_not_mem (h : d.Routine) : d.code ∉ failureCodes := by
  have hwarning : ∀ c ∈ warningCodes, c ∉ failureCodes := by decide
  have herror : ∀ c ∈ errorCodes, c ∉ failureCodes := by decide
  rcases h with ⟨-, h⟩ | ⟨-, h⟩
  · exact hwarning _ h
  · exact herror _ h

/-- Routine findings with one code are equally severe. -/
theorem Diagnostic.Routine.severity_eq (hd : d.Routine) (he : e.Routine) (h : d.code = e.code) :
    d.severity = e.severity := by
  have hapart : ∀ c ∈ warningCodes, c ∉ errorCodes := by decide
  rcases hd with ⟨hd, hdcode⟩ | ⟨hd, hdcode⟩ <;> rcases he with ⟨he, hecode⟩ | ⟨he, hecode⟩
  · rw [hd, he]
  · exact absurd (h ▸ hecode) (hapart _ hdcode)
  · exact absurd (h ▸ hdcode) (hapart _ hecode)
  · rw [hd, he]

/-- What tells diagnostics apart begins with the code. -/
theorem code_eq_of_dedupKey_eq (hd : d.code ∈ warningCodes ++ errorCodes ++ failureCodes)
    (he : e.code ∈ warningCodes ++ errorCodes ++ failureCodes)
    (h : Bag.dedupKey d = Bag.dedupKey e) : d.code = e.code := by
  have hplain : ∀ c ∈ warningCodes ++ errorCodes ++ failureCodes, ':' ∉ c.id.toList := by
    decide +kernel
  have hdistinct : ∀ c ∈ warningCodes ++ errorCodes ++ failureCodes,
      ∀ c' ∈ warningCodes ++ errorCodes ++ failureCodes, c.id = c'.id → c = c' := by
    decide +kernel
  -- The code is what stands before the first colon.
  have hhead : ∀ x : Diagnostic, ':' ∉ x.code.id.toList →
      (Bag.dedupKey x).toList.takeWhile (· ≠ ':') = x.code.id.toList := by
    intro x hx
    have hall : ∀ c ∈ x.code.id.toList, decide (c ≠ ':') = true := by
      intro c hc
      rw [decide_eq_true_eq]
      rintro rfl
      exact hx hc
    simp only [Bag.dedupKey, String.toList_append, List.append_assoc]
    rw [List.takeWhile_append_of_pos hall]
    simp
  have hid : d.code.id.toList = e.code.id.toList := by
    rw [← hhead d (hplain _ hd), ← hhead e (hplain _ he), h]
  exact hdistinct _ hd _ he (String.toList_injective hid)

/-! ## Bags of findings -/

namespace Bag

theorem mem_of_mem_firstOfEach {items : List Diagnostic} {seen : List String}
    (h : d ∈ firstOfEach items seen) : d ∈ items := by
  induction items generalizing seen with
  | nil => exact h
  | cons e rest ih =>
    unfold firstOfEach at h
    split at h
    · exact List.mem_cons_of_mem _ (ih h)
    · cases h with
      | head => exact List.mem_cons_self
      | tail _ h => exact List.mem_cons_of_mem _ (ih h)

/-- Of each key that was not seen, one diagnostic is left. -/
theorem exists_mem_firstOfEach {items : List Diagnostic} {seen : List String} (h : d ∈ items)
    (hseen : dedupKey d ∉ seen) : ∃ e ∈ firstOfEach items seen, dedupKey e = dedupKey d := by
  induction items generalizing seen with
  | nil => cases h
  | cons e rest ih =>
    unfold firstOfEach
    -- The first diagnostic with the key is kept, and no later one.
    by_cases hkey : dedupKey e = dedupKey d
    · have hnew : ¬seen.contains (dedupKey e) = true := by simpa [hkey] using hseen
      rw [if_neg hnew]
      exact ⟨e, List.mem_cons_self, hkey⟩
    · have hd : d ∈ rest := by
        rcases List.mem_cons.mp h with rfl | hd
        · exact absurd rfl hkey
        · exact hd
      split
      · exact ih hd hseen
      · have hseen' : dedupKey d ∉ dedupKey e :: seen := by
          rw [List.mem_cons, not_or]
          exact ⟨Ne.symm hkey, hseen⟩
        obtain ⟨x, hx, hxkey⟩ := ih hd hseen'
        exact ⟨x, List.mem_cons_of_mem _ hx, hxkey⟩

/-- What a bag has to do with all that was found.  As long as there is room it holds everything, and
then it stays full; what it does not hold are warnings. -/
structure Records (b : Bag) (capacity : Nat) (found : List Diagnostic) : Prop where
  room : found.length < capacity → b.items = found ∧ b.capacity = capacity
  full : capacity ≤ found.length → b.capacity ≤ b.items.length
  subset : ∀ d ∈ b.items, d ∈ found
  errors : ∀ d ∈ found, d.severity = .error → d ∈ b.items

namespace Records

variable {b : Bag} {capacity : Nat} {found : List Diagnostic}

theorem ofLimit (limit : Int) :
    (Bag.ofLimit limit).Records (min limit.toNat maxCapacity) [] where
  room _ := ⟨rfl, rfl⟩
  full h := h
  subset _ h := h
  errors _ h := absurd h List.not_mem_nil

/-- Adding one more finding. -/
theorem items_add (h : b.Records capacity found) (d : Diagnostic) :
    b.add d = if found.length < capacity then { b with items := b.items ++ [d] } else b := by
  unfold Bag.add Bag.isFull
  by_cases hroom : found.length < capacity
  · obtain ⟨hitems, hcapacity⟩ := h.room hroom
    rw [if_pos hroom, if_neg]
    rw [hitems, hcapacity, decide_eq_true_eq]
    omega
  · have hfull := h.full (by omega)
    rw [if_neg hroom, if_pos (decide_eq_true hfull)]

theorem add (h : b.Records capacity found) (hd : d.severity = .warning) :
    (b.add d).Records capacity (found ++ [d]) := by
  rw [h.items_add d]
  by_cases hroom : found.length < capacity
  · obtain ⟨hitems, hcapacity⟩ := h.room hroom
    rw [if_pos hroom]
    constructor
    · intro _
      exact ⟨by rw [hitems], hcapacity⟩
    · intro hfull
      simp only [hitems, hcapacity]
      exact hfull
    · intro x hx
      rwa [← hitems]
    · intro x hx _
      simp only [hitems]
      exact hx
  · -- The finding is lost, but it is a warning, and only errors have to be kept.
    rw [if_neg hroom]
    constructor
    · intro hlt
      rw [List.length_append, List.length_singleton] at hlt
      omega
    · intro _
      exact h.full (by omega)
    · intro x hx
      exact List.mem_append_left _ (h.subset x hx)
    · intro x hx herror
      rcases List.mem_append.mp hx with hx | hx
      · exact h.errors x hx herror
      · rw [List.mem_singleton.mp hx, hd] at herror
        cases herror

theorem addAll (h : b.Records capacity found) {ds : List Diagnostic}
    (hds : ∀ d ∈ ds, d.severity = .warning) : (b.addAll ds).Records capacity (found ++ ds) := by
  induction ds generalizing b found with
  | nil => simpa [Bag.addAll] using h
  | cons d rest ih =>
    rw [List.forall_mem_cons] at hds
    have hrest := ih (h.add hds.1) hds.2
    rwa [List.append_assoc] at hrest

/-- Taking over the findings of a compilation. -/
theorem merge (h : b.Records capacity found) {ds : List Diagnostic}
    (hds : ds.length ≤ maxCapacity) :
    (b.merge ((Bag.ofLimit ds.length).addAll ds)).Records capacity (found ++ ds) := by
  have htaken : ((Bag.ofLimit ds.length).addAll ds).items = ds := by
    rw [Bag.items_addAll]
    simp [Bag.ofLimit, hds]
  unfold Bag.merge
  rw [htaken]
  constructor
  · intro hroom
    rw [List.length_append] at hroom
    obtain ⟨hitems, hcapacity⟩ := h.room (by omega)
    dsimp only
    rw [hitems, hcapacity, if_neg (by omega)]
    exact ⟨rfl, rfl⟩
  · intro hfull
    dsimp only
    rw [List.length_append]
    rw [List.length_append] at hfull
    split
    · -- The capacity is raised to what the bag then holds, so there is no room left.
      exact le_refl _
    · by_cases hroom : found.length < capacity
      · obtain ⟨hitems, hcapacity⟩ := h.room hroom
        rw [hitems, hcapacity]
        exact hfull
      · have hbefore := h.full (by omega)
        omega
  · intro x hx
    exact (List.mem_append.mp hx).elim (fun hx => List.mem_append_left _ (h.subset x hx))
      fun hx => List.mem_append_right _ hx
  · intro x hx herror
    exact (List.mem_append.mp hx).elim (fun hx => List.mem_append_left _ (h.errors x hx herror))
      fun hx => List.mem_append_right _ hx

/-- A failure is recorded exactly if there is room for it. -/
theorem mem_dedup_add_iff (h : b.Records capacity found) (hfound : ∀ d ∈ found, d.Routine)
    (he : e.code ∈ failureCodes) : e ∈ (b.add e).dedup.items ↔ found.length < capacity := by
  rw [h.items_add e]
  by_cases hroom : found.length < capacity
  · rw [if_pos hroom, iff_true_right hroom]
    have hmem : e ∈ b.items ++ [e] := List.mem_append_right _ List.mem_cons_self
    obtain ⟨x, hx, hkey⟩ : ∃ x ∈ firstOfEach (b.items ++ [e]) [], dedupKey x = dedupKey e :=
      exists_mem_firstOfEach hmem List.not_mem_nil
    -- What has the key of a failure is no routine finding.
    rcases List.mem_append.mp (mem_of_mem_firstOfEach hx) with hx' | hx'
    · have hroutine := hfound x (h.subset x hx')
      have hcode := code_eq_of_dedupKey_eq hroutine.code_mem (by simp [he]) hkey
      exact absurd (hcode ▸ he) hroutine.code_not_mem
    · rwa [List.mem_singleton.mp hx'] at hx
  · rw [if_neg hroom, iff_false_right hroom]
    intro hmem
    have hroutine := hfound e (h.subset e (mem_of_mem_firstOfEach hmem))
    exact hroutine.code_not_mem he

/-- No error is lost with the repetitions. -/
theorem dedup_error_iff (h : b.Records capacity found) (hfound : ∀ d ∈ found, d.Routine) :
    (∃ d ∈ b.dedup.items, d.severity = .error) ↔ ∃ d ∈ found, d.severity = .error := by
  constructor
  · rintro ⟨d, hd, herror⟩
    exact ⟨d, h.subset d (mem_of_mem_firstOfEach hd), herror⟩
  · rintro ⟨d, hd, herror⟩
    -- What stands for the error has its key, hence its code, hence its severity.
    obtain ⟨x, hx, hkey⟩ := exists_mem_firstOfEach (h.errors d hd herror) List.not_mem_nil
    have hroutine := hfound x (h.subset x (mem_of_mem_firstOfEach hx))
    have hcode := code_eq_of_dedupKey_eq hroutine.code_mem (hfound d hd).code_mem hkey
    exact ⟨x, hx, (hroutine.severity_eq (hfound d hd) hcode).trans herror⟩

end Records

end Bag

namespace Batch

open Bag

variable {tree : FileTree}

/-! ## What is compiled for a file -/

namespace Reading

/-- How the file is compiled. -/
def options (r : Reading) : CompileOptions :=
  { style := r.style, name := FilePath.base r.path, limit := r.limit }

/-- There is room for the reason that the file's script does not load. -/
def HasRoom (r : Reading) : Prop :=
  ∃ shader, Descriptor.ofFile r.path r.bytes = .ok shader ∧ r.options.HasRoom (some shader)

variable {r : Reading} {a : Artifact}

/-- What is kept of a compilation. -/
theorem of_outcome (h : r.outcome = .ok a) :
    ∃ shader c, Descriptor.ofFile r.path r.bytes = .ok shader ∧
      CompileOutcome r.options (some shader) (.ok c) ∧
      a.diagnostic = c.diagnostic ∧ a.diagnostics = c.diagnostics := by
  unfold outcome at h
  split at h
  · cases h
  · rename_i shader hshader
    dsimp only at h
    split at h
    · cases h
    · rename_i c hc
      have houtcome : CompileOutcome r.options (some shader) _ :=
        compile_outcome rfl (some shader) 0 {}
      rw [show (compile r.options (some shader) 0 {}).1 = .ok c from hc] at houtcome
      rw [← Except.ok.inj h]
      exact ⟨shader, c, hshader, houtcome, rfl, rfl⟩

theorem length_of_outcome (h : r.outcome = .ok a) : a.diagnostics.length ≤ maxCapacity := by
  obtain ⟨shader, c, -, houtcome, -, hdiagnostics⟩ := of_outcome h
  rw [hdiagnostics, houtcome.diagnostics_eq, inOrder, List.length_mergeSort, keptReports,
    List.length_take]
  omega

theorem routine_of_outcome (h : r.outcome = .ok a) : ∀ d ∈ a.diagnostics, d.Routine := by
  obtain ⟨shader, c, -, houtcome, -, hdiagnostics⟩ := of_outcome h
  intro d hd
  rw [hdiagnostics, houtcome.diagnostics_eq, mem_inOrder] at hd
  rcases List.mem_append.mp (mem_of_mem_distinctFindings (List.mem_of_mem_take hd)) with hd | hd
  · rcases kind_of_mem_reports hd with ⟨hseverity, hcode⟩ | ⟨hseverity, hcode, -⟩
    · exact .inl ⟨hseverity, List.mem_append_left [Code.cacheError] hcode⟩
    · exact .inr ⟨hseverity, by simp [hcode, errorCodes]⟩
  · unfold CompileOptions.answerReports at hd
    split at hd
    · rw [List.mem_singleton.mp hd]
      exact .inr ⟨rfl, by simp [CompileOptions.refusalReport, Diagnostic.error, errorCodes]⟩
    · cases hd

/-- A file whose script does not load shows an error exactly if there was room for one. -/
theorem explained_iff_of_outcome (h : r.outcome = .ok a) (hdiagnostic : a.diagnostic ≠ "") :
    (∃ d ∈ a.diagnostics, d.severity = .error) ↔ r.HasRoom := by
  obtain ⟨shader, c, hshader, houtcome, hsame, hdiagnostics⟩ := of_outcome h
  rw [hsame] at hdiagnostic
  have hgiven : ∀ engine, r.options.engine = some engine → engine.Explains :=
    fun _ hengine => absurd hengine (Option.some_ne_none _).symm
  have hprogram : c.program = none := (houtcome.program_iff hgiven).1.mpr hdiagnostic
  rw [hdiagnostics, houtcome.explained_iff hprogram]
  constructor
  · intro hroom
    exact ⟨shader, hshader, hroom⟩
  · rintro ⟨shader', hshader', hroom⟩
    rw [hshader, Except.ok.injEq] at hshader'
    rwa [hshader']

end Reading

/-! ## What is found of a file -/

/-- The artifact that the cache has under a key, and the warnings of the attempt to get it. -/
def lookedUp (cache : Option ArtifactCache) (tree : FileTree) (key : ArtifactKey) :
    Option Artifact × List Diagnostic :=
  match cache with
  | none => (none, [])
  | some c =>
    match c.get tree key with
    | .ok found => (found, [])
    | .error e => (none, [.warning .cacheError .unknown e.message])

/-- The warnings of the attempt to keep an artifact. -/
def keepingWarnings (cache : Option ArtifactCache) (tree : FileTree) (key : ArtifactKey)
    (a : Artifact) : List Diagnostic :=
  match cache with
  | none => []
  | some c =>
    match c.put tree key a with
    | .ok _ => []
    | .error e => [.warning .cacheError .unknown e.message]

/-- What is found of a file before its script is written, or before it is given up. -/
def Request.findings (request : Request) (tree : FileTree) (path : String) : List Diagnostic :=
  match tree.read path with
  | .error _ => []
  | .ok bytes =>
    let reading := request.reading path bytes
    match lookedUp request.cache tree reading.key with
    | (some a, _) => a.diagnostics
    | (none, warnings) =>
      match reading.outcome with
      | .error _ => warnings
      | .ok a =>
        warnings ++ a.diagnostics ++
          keepingWarnings request.cache tree reading.key { a with schema := 0 }

/-- How many diagnostics a file may have. -/
def Request.capacity (request : Request) : Nat :=
  min (if request.limit ≤ 0 then 256 else request.limit).toNat maxCapacity

/-- A file from which the script of the file at a path was compiled: that file itself, or any that
gives the artifact in the cache. -/
def Request.ComesFrom (request : Request) (tree : FileTree) (path : String) (reading : Reading) :
    Prop :=
  ∀ bytes, tree.read path = .ok bytes →
    match (lookedUp request.cache tree (request.reading path bytes).key).1 with
    | some a => reading.outcome = .ok a
    | none => reading = request.reading path bytes

/-- An attempt to get an artifact gives an artifact or warnings, not both. -/
theorem warnings_of_lookedUp {cache : Option ArtifactCache} {key : ArtifactKey}
    {found : Option Artifact} {warnings : List Diagnostic}
    (h : lookedUp cache tree key = (found, warnings)) :
    (∀ d ∈ warnings, d.severity = .warning ∧ d.code = .cacheError) ∧
      (found ≠ none → warnings = []) := by
  unfold lookedUp at h
  split at h
  · cases h
    exact ⟨List.forall_mem_nil _, fun _ => rfl⟩
  · split at h
    · cases h
      exact ⟨List.forall_mem_nil _, fun _ => rfl⟩
    · cases h
      refine ⟨fun d hd => ?_, fun hfound => absurd rfl hfound⟩
      rw [List.mem_singleton.mp hd]
      exact ⟨rfl, rfl⟩

theorem severity_of_mem_keepingWarnings {cache : Option ArtifactCache} {key : ArtifactKey}
    {a : Artifact} (h : d ∈ keepingWarnings cache tree key a) :
    d.severity = .warning ∧ d.code = .cacheError := by
  unfold keepingWarnings at h
  split at h
  · cases h
  · split at h
    · cases h
    · rw [List.mem_singleton.mp h]
      exact ⟨rfl, rfl⟩

theorem lookUp_eq (cache : Option ArtifactCache) (key : ArtifactKey) (p : Progression) :
    lookUp cache key p = ((lookedUp cache p.tree key).1,
      { p with bag := p.bag.addAll (lookedUp cache p.tree key).2 }) := by
  unfold lookUp lookedUp
  cases cache with
  | none => rfl
  | some c =>
    dsimp only
    cases c.get p.tree key with
    | ok found | error e => rfl

theorem bag_remember (cache : Option ArtifactCache) (key : ArtifactKey) (a : Artifact)
    (p : Progression) :
    (remember cache key a p).bag = p.bag.addAll (keepingWarnings cache p.tree key a) := by
  unfold remember keepingWarnings
  cases cache with
  | none => rfl
  | some c =>
    dsimp only
    cases c.put p.tree key a with
    | ok tree | error e => rfl

/-! ## How a file ends -/

/-- How a file ends that came as far as the bag `b`, with the diagnostic of its script. -/
inductive Ends (b : Bag) (diagnostic : String) (r : FileResult) : Prop
  | failed (f : Failure) (hfailure : r.failure = some f) (hdiagnostic : r.diagnostic = "")
      (hdiagnostics : r.diagnostics = (b.add (.error f.code .unknown f.message)).dedup.items)
  | done (hfailure : r.failure = none) (hdiagnostic : r.diagnostic = diagnostic)
      (hdiagnostics : r.diagnostics = b.dedup.items)

theorem store_ends (outDir : String) (target : Target) (p : Progression) {r : FileResult}
    (hr : r.failure = none) : Ends p.bag r.diagnostic (store outDir target p r).1 := by
  unfold store
  split
  · exact .done hr rfl rfl
  · rename_i hwanted
    have hdiagnostic : r.diagnostic = "" := by
      simp only [Bool.or_eq_true, not_or, Bool.not_eq_true', Bool.not_eq_false,
        String.isEmpty_iff] at hwanted
      exact hwanted.2
    -- Each way out gives the file up with the bag as it is, or finishes it.
    dsimp only
    split
    · exact .failed _ rfl hdiagnostic rfl
    · split
      · exact .failed _ rfl hdiagnostic rfl
      · split
        · exact .failed _ rfl hdiagnostic rfl
        · exact .done hr rfl rfl

/-- A file came to its end with a bag that records what was found of it. -/
structure Recorded (request : Request) (tree : FileTree) (path : String) (reading : Reading)
    (r : FileResult) : Prop where
  routine : ∀ d ∈ request.findings tree path, d.Routine
  ends : ∃ b diagnostic, b.Records request.capacity (request.findings tree path) ∧
    Ends b diagnostic r ∧
    (diagnostic ≠ "" →
      ((∃ d ∈ request.findings tree path, d.severity = .error) ↔ reading.HasRoom))

variable {request : Request} {target : Target} {path : String} {bytes : List UInt8}
  {reading : Reading} {p : Progression}

/-- A file that is compiled. -/
theorem translate_recorded (hread : p.tree.read path = .ok bytes) {warnings : List Diagnostic}
    (hmiss : lookedUp request.cache p.tree (request.reading path bytes).key = (none, warnings))
    (hbag : p.bag.Records request.capacity warnings) (span : Nat) :
    Recorded request p.tree path (request.reading path bytes)
      (translate request target span path bytes p).1 := by
  obtain ⟨q, htree, hqbag, htranslate⟩ := translate_eq request target span path bytes p
  have hwarnings := (warnings_of_lookedUp hmiss).1
  have hcache : ∀ d : Diagnostic, d.severity = .warning ∧ d.code = .cacheError → d.Routine :=
    fun d hd => .inl ⟨hd.1, by simp [hd.2, warningCodes]⟩
  rw [htranslate]
  cases houtcome : (request.reading path bytes).outcome with
  | error f =>
    have hfindings : request.findings p.tree path = warnings := by
      simp only [Request.findings, hread, hmiss, houtcome]
    refine ⟨?_, q.bag, "", ?_, .failed f rfl rfl rfl, fun h => absurd rfl h⟩
    · rw [hfindings]
      exact fun d hd => hcache d (hwarnings d hd)
    · rwa [hfindings, hqbag]
  | ok a =>
    have hfindings : request.findings p.tree path = warnings ++ a.diagnostics ++
        keepingWarnings request.cache p.tree (request.reading path bytes).key
          { a with schema := 0 } := by
      simp only [Request.findings, hread, hmiss, houtcome]
    have hkeeping : ∀ d ∈ keepingWarnings request.cache p.tree (request.reading path bytes).key
        { a with schema := 0 }, d.severity = .warning ∧ d.code = .cacheError :=
      fun d hd => severity_of_mem_keepingWarnings hd
    have hroutine := Reading.routine_of_outcome houtcome
    have hrecords := (hbag.merge (Reading.length_of_outcome houtcome)).addAll
      fun d hd => (hkeeping d hd).1
    dsimp only
    refine ⟨?_, _, _, ?_, store_ends _ _ _ rfl, fun hdiagnostic => ?_⟩
    · rw [hfindings]
      intro d hd
      simp only [List.mem_append] at hd
      rcases hd with (hd | hd) | hd
      · exact hcache d (hwarnings d hd)
      · exact hroutine d hd
      · exact hcache d (hkeeping d hd)
    · rw [hfindings, bag_remember]
      show (Bag.addAll (q.bag.merge _) _).Records _ _
      rw [hqbag, show (q.merge a.diagnostics).tree = p.tree from htree]
      exact hrecords
    · rw [← Reading.explained_iff_of_outcome houtcome hdiagnostic, hfindings]
      -- The warnings around the findings of the compilation are no errors.
      constructor
      · rintro ⟨d, hd, herror⟩
        simp only [List.mem_append] at hd
        rcases hd with (hd | hd) | hd
        · cases (hwarnings d hd).1.symm.trans herror
        · exact ⟨d, hd, herror⟩
        · cases (hkeeping d hd).1.symm.trans herror
      · rintro ⟨d, hd, herror⟩
        exact ⟨d, by simp [hd], herror⟩

/-- A file that is compiled, or whose artifact is in the cache. -/
theorem handle_recorded (hread : p.tree.read path = .ok bytes)
    (hfrom : request.ComesFrom p.tree path reading)
    (hbag : p.bag.Records request.capacity []) (span : Nat) :
    Recorded request p.tree path reading (handle request target span path bytes p).1 := by
  have hsource := hfrom bytes hread
  unfold handle
  rw [lookUp_eq]
  cases hlooked : lookedUp request.cache p.tree (request.reading path bytes).key with
  | mk found warnings =>
    have hkey : Artifact.key request.style.name bytes = (request.reading path bytes).key := rfl
    rw [hlooked] at hsource
    rw [hkey, hlooked]
    obtain ⟨hwarnings, hnone⟩ := warnings_of_lookedUp hlooked
    cases found with
    | none =>
      have hrecords : (p.bag.addAll warnings).Records request.capacity warnings :=
        hbag.addAll fun d hd => (hwarnings d hd).1
      dsimp only at hsource ⊢
      rw [hsource]
      exact translate_recorded (p := { p with bag := p.bag.addAll warnings }) hread hlooked
        hrecords span
    | some a =>
      -- What is found comes without warnings, so the bag is still empty.
      rw [hnone (Option.some_ne_none a)]
      have hfindings : request.findings p.tree path = a.diagnostics := by
        simp only [Request.findings, hread, hlooked]
      have hrecords := hbag.merge (Reading.length_of_outcome hsource)
      refine ⟨?_, _, _, ?_, store_ends _ _ _ rfl, fun hdiagnostic => ?_⟩
      · rw [hfindings]
        exact Reading.routine_of_outcome hsource
      · rw [hfindings]
        exact hrecords
      · rw [hfindings]
        exact Reading.explained_iff_of_outcome hsource hdiagnostic

theorem processFile_recorded (hfrom : request.ComesFrom tree path reading) (parent : Nat)
    (tracer : Tracer) :
    Recorded request tree path reading (processFile request target parent path tree tracer).1 := by
  obtain ⟨p, span, finish, rfl, hbag, hp⟩ := processFile_eq request target parent path tree tracer
  have hrecords : p.bag.Records request.capacity [] := by
    rw [hbag]
    exact Records.ofLimit _
  rw [hp]
  cases hread : p.tree.read path with
  | error e =>
    have hfindings : request.findings p.tree path = [] := by rw [Request.findings, hread]
    refine ⟨by simp [hfindings], p.bag, "", ?_, .failed _ rfl rfl rfl, fun h => absurd rfl h⟩
    rwa [hfindings]
  | ok bytes => exact handle_recorded hread hfrom hrecords span

theorem Failure.code_mem (f : Failure) : f.code ∈ failureCodes := by
  cases f <;> simp [Failure.code, failureCodes]

/-- A result says why there is no script, as far as there is room.  The failure of a file has an
entry exactly if what was found before leaves room for it; where the script of the file did not
load, there is an error exactly if the compilation had room for it. -/
structure Explained (request : Request) (tree : FileTree) (path : String) (reading : Reading)
    (r : FileResult) : Prop where
  failure : ∀ f, r.failure = some f →
    (Diagnostic.error f.code .unknown f.message ∈ r.diagnostics ↔
      (request.findings tree path).length < request.capacity)
  diagnostic : r.diagnostic ≠ "" →
    ((∃ d ∈ r.diagnostics, d.severity = .error) ↔ reading.HasRoom)

theorem Recorded.explained {r : FileResult} (h : Recorded request tree path reading r) :
    Explained request tree path reading r := by
  obtain ⟨hroutine, b, diagnostic, hrecords, hends, hroom⟩ := h
  cases hends with
  | failed f hfailure hdiagnostic hdiagnostics =>
    constructor
    · intro f' hf'
      rw [hfailure, Option.some.injEq] at hf'
      rw [hdiagnostics, hf']
      exact hrecords.mem_dedup_add_iff hroutine f'.code_mem
    · exact fun h => absurd hdiagnostic h
  | done hfailure hdiagnostic hdiagnostics =>
    constructor
    · intro f hf
      cases hfailure.symm.trans hf
    · intro hne
      rw [hdiagnostics, hrecords.dedup_error_iff hroutine]
      exact hroom (hdiagnostic ▸ hne)

/-! ## Whole runs -/

/-- The files that a run takes, each with the tree in which it finds it. -/
def visitsOf (request : Request) (parent : Nat) :
    List (String × Target) → RunState → List (String × FileTree)
  | [], _ => []
  | (path, target) :: rest, s =>
    (path, s.tree) :: visitsOf request parent rest (processAll request parent [(path, target)] s).2

/-- The files that a request takes. -/
def Request.visits (request : Request) (s : RunState) : List (String × FileTree) :=
  if request.files.isEmpty || request.cancelled then []
  else
    match request.withOutDir s.tree with
    | .error _ => []
    | .ok tree =>
      let (span, s) := request.begun s tree
      visitsOf request span.id (request.files.zip request.targets) s

theorem processAll_explained (parent : Nat) (work : List (String × Target)) (s : RunState) :
    List.Forall₂
      (fun visit r => ∀ reading, request.ComesFrom visit.2 visit.1 reading →
        Explained request visit.2 visit.1 reading r)
      (visitsOf request parent work s) (processAll request parent work s).1 := by
  induction work generalizing s with
  | nil => exact .nil
  | cons file rest ih =>
    obtain ⟨path, target⟩ := file
    -- Each file starts with a bag of its own, so nothing is carried along but the tree.
    refine .cons (fun reading hfrom => ?_) (ih _)
    exact (processFile_recorded hfrom parent s.tracer).explained

theorem run_explained {s : RunState} {results : List FileResult}
    (h : (run request s).1 = .ok results) :
    List.Forall₂
      (fun visit r => ∀ reading, request.ComesFrom visit.2 visit.1 reading →
        Explained request visit.2 visit.1 reading r)
      (request.visits s) results := by
  rw [run_eq] at h
  unfold Request.visits
  split at h
  · rename_i hfiles
    rw [if_pos (by simp [hfiles])]
    cases h
    exact .nil
  · rename_i hfiles
    cases hmade : request.withOutDir s.tree with
    | error e =>
      rw [hmade] at h
      cases h
    | ok tree =>
      rw [hmade] at h
      dsimp only at h
      split at h
      · cases h
      · rename_i hcancelled
        rw [if_neg (by simp [hfiles, hcancelled]), ← Except.ok.inj h]
        exact processAll_explained _ _ _

end Batch

/-- A failure explains itself exactly if there is room for its error.  A compilation without a
program has an error among its diagnostics exactly if one of lowering was kept or there is room for
the engine's refusal, and the refusal is there exactly in the second case.  In a batch, the failure
of a file has an entry with its text exactly if what was found of the file before leaves room for
it; and a file whose script did not load has an error exactly if the compilation that the script
comes from had room for one. -/
theorem explained_iff_room (options : CompileOptions) (shader : Option Shader) (parent : Nat)
    (t : Tracer) (request : Batch.Request) (s : Batch.RunState) :
    (∀ c, (compile options shader parent t).1 = .ok c → c.program = none →
      ((∃ d ∈ c.diagnostics, d.severity = .error) ↔ options.HasRoom shader) ∧
      ∀ engine message, options.answer shader = some (engine, .error (.refused message)) →
        (options.refusalReport engine message ∈ c.diagnostics ↔
          (distinctFindings (generate options.style shader).reports).length < options.capacity)) ∧
    (∀ results, (Batch.run request s).1 = .ok results →
      List.Forall₂
        (fun visit r => ∀ reading, request.ComesFrom visit.2 visit.1 reading →
          Batch.Explained request visit.2 visit.1 reading r)
        (request.visits s) results) := by
  constructor
  · intro c hc hprogram
    have hactive : options.cancelled = false := by
      rw [← Bool.not_eq_true]
      intro hcancelled
      simp [compile, hcancelled] at hc
    have houtcome := compile_outcome hactive shader parent t
    rw [hc] at houtcome
    exact ⟨houtcome.explained_iff hprogram, fun _ _ => houtcome.refusalReport_mem_iff⟩
  · intro results hrun
    exact Batch.run_explained hrun

/-- The bytes of a shader with an operator that has no meaning. -/
def warnedBytes : List UInt8 :=
  Text.bytesOf "\x7b\"ast\":\x7b\"type\":\"UnaryExpression\",\"operator\":\"?\"\x7d\x7d"

/-- Two files whose scripts have the same target.  The first is such a shader, and the second is no
descriptor in its format. -/
def rivals : Batch.RunState where
  tree := { entries := [(["a.json"], .file warnedBytes), (["a.mp"], .file warnedBytes)] }
  tracer := {}

/-- A run over both files with room for a number of diagnostics. -/
def rivalsRequest (limit : Int) : Batch.Request :=
  { files := ["a.json", "a.mp"], limit, outDir := "out" }

/-- With room for two diagnostics, the refusal of an engine is shown beside a warning, and so is in
a batch that a script could not be written. -/
theorem explained_iff_room_rivals :
    (∃ c, (compile (refusingOptions 2) (some crowdedShader) 0 {}).1 = .ok c ∧ c.program = none ∧
      ∃ d ∈ c.diagnostics, d.severity = .error) ∧
    ∃ r results, (Batch.run (rivalsRequest 2) rivals).1 = .ok (r :: results) ∧
      ∃ f, r.failure = some f ∧ .error f.code .unknown f.message ∈ r.diagnostics := by
  obtain ⟨hcompile, hrun⟩ := explained_iff_room (refusingOptions 2) (some crowdedShader) 0 {}
    (rivalsRequest 2) rivals
  constructor
  · obtain ⟨c, hc, hprogram⟩ := compile_refusingOptions 2
    have hroom : (refusingOptions 2).HasRoom (some crowdedShader) := .inr (by decide +kernel)
    exact ⟨c, hc, hprogram, (hcompile c hc hprogram).1.mpr hroom⟩
  -- Both files fail, and the first one has one finding.
  · have hfailed : (Batch.run (rivalsRequest 2) rivals).1.toOption.map
        (List.map fun r => r.failure.isSome) = some [true, true] := by decide +kernel
    have hvisit : ((rivalsRequest 2).visits rivals).head?.map
        (fun visit => ((visit.2.read visit.1).toOption,
          ((rivalsRequest 2).findings visit.2 visit.1).length)) = some (some warnedBytes, 1) := by
      decide +kernel
    cases hresults : (Batch.run (rivalsRequest 2) rivals).1 with
    | error e => simp [hresults, Except.toOption] at hfailed
    | ok results =>
      have hall := hrun _ hresults
      rw [hresults] at hfailed
      generalize (rivalsRequest 2).visits rivals = visits at hall hvisit
      cases hall with
      | nil => cases hvisit
      | @cons visit r visits results hfirst hrest =>
        simp only [Except.toOption, List.map_cons, Option.map_some, Option.some.injEq,
          List.cons.injEq, List.head?_cons, Prod.mk.injEq] at hfailed hvisit
        obtain ⟨f, hf⟩ := Option.isSome_iff_exists.mp hfailed.1
        have hfrom : (rivalsRequest 2).ComesFrom visit.2 visit.1
            ((rivalsRequest 2).reading visit.1 warnedBytes) := by
          intro bytes hbytes
          rw [hbytes] at hvisit
          rw [show warnedBytes = bytes from (Option.some.inj hvisit.1).symm]
          rfl
        have hroom : ((rivalsRequest 2).findings visit.2 visit.1).length <
            (rivalsRequest 2).capacity := by
          rw [hvisit.2]
          decide
        exact ⟨r, results, rfl, f, hf, ((hfirst _ hfrom).failure f hf).mpr hroom⟩

/-- With room for one diagnostic, a warning hides that the engine refused the script, and in a batch
that the script could not be written. -/
theorem full_bag_hides_failure :
    (∃ c, (compile (refusingOptions 1) (some crowdedShader) 0 {}).1 = .ok c ∧ c.program = none ∧
      ∀ d ∈ c.diagnostics, d.severity ≠ .error) ∧
    (Batch.run (rivalsRequest 1) rivals).1.toOption.map
        (List.map fun r => (r.failure.isSome, r.diagnostics.map Diagnostic.severity)) =
      some [(true, [.warning]), (true, [.error])] := by
  constructor
  · obtain ⟨c, hc, hprogram⟩ := compile_refusingOptions 1
    have houtcome := compile_outcome (show (refusingOptions 1).cancelled = false from rfl)
      (some crowdedShader) 0 {}
    rw [hc] at houtcome
    refine ⟨c, hc, hprogram, fun d hd hseverity => ?_⟩
    have hroom := (houtcome.explained_iff hprogram).mp ⟨d, hd, hseverity⟩
    have hnone : ∀ d ∈ (refusingOptions 1).kept (some crowdedShader), d.severity ≠ .error := by
      decide +kernel
    have hfull : ¬(distinctFindings (generate .javaScript (some crowdedShader)).reports).length <
        (refusingOptions 1).capacity := by decide +kernel
    exact hroom.elim (fun ⟨d, hd, hseverity⟩ => hnone d hd hseverity) hfull
  · decide +kernel

end ShaderScript
