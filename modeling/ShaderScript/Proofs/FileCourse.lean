import Mathlib.Data.List.Forall2
import ShaderScript.Proofs.CacheTransparency

/-!
# The course of a file

What can become of a file in a batch run, told by its result and its events.  A file is loaded; its
script is compiled, or taken from the cache; and then the script is written, unless it did not load
or is not wanted.  At each of these points the file can fail.
-/

namespace ShaderScript

namespace Batch

/-! ## Courses -/

/-- The event that a file is put in line. -/
def queued (file : String) : BatchEvent := { file, stage := .load, status := .queued }

/-- How a file ends that has a script, and the events that come with it. -/
inductive Ending (outDir : String) (target : Target) (r : FileResult) : List BatchEvent → Prop
  /-- There is nothing to write. -/
  | unwritten (h : outDir = "" ∨ r.diagnostic ≠ "") (houtput : r.output = "") (status : Status)
      (hstatus : status = .done ∨ status = .cached ∨ status = .error) :
      Ending outDir target r [⟨r.path, .translate, status, none⟩]
  /-- The script cannot be written, or must not be. -/
  | refused (hdir : outDir ≠ "") (hdiagnostic : r.diagnostic = "") (houtput : r.output = "")
      (message : String) :
      Ending outDir target r
        [⟨r.path, .store, .working, none⟩, ⟨r.path, .store, .error, some message⟩]
  | written (hdir : outDir ≠ "") (hdiagnostic : r.diagnostic = "") (hrivals : target.rivals = [])
      (houtput : r.output = target.path) (status : Status)
      (hstatus : status = .done ∨ status = .cached) :
      Ending outDir target r
        [⟨r.path, .store, .working, none⟩, ⟨r.path, .translate, status, none⟩]

/-- The course of a file, and the events that come with it. -/
inductive Course (outDir : String) (target : Target) (r : FileResult) : List BatchEvent → Prop
  /-- The file cannot be read, or is no descriptor. -/
  | unread (hcached : r.cached = false) (houtput : r.output = "") (message : String) :
      Course outDir target r
        [⟨r.path, .load, .working, none⟩, ⟨r.path, .load, .error, some message⟩]
  /-- The shader cannot be compiled. -/
  | uncompiled (hcached : r.cached = false) (houtput : r.output = "") (message : String) :
      Course outDir target r
        [⟨r.path, .load, .working, none⟩, ⟨r.path, .translate, .working, none⟩,
          ⟨r.path, .translate, .error, some message⟩]
  | compiled (hcached : r.cached = false) {ending : List BatchEvent}
      (h : Ending outDir target r ending) :
      Course outDir target r
        (⟨r.path, .load, .working, none⟩ :: ⟨r.path, .translate, .working, none⟩ :: ending)
  /-- The script comes from the cache, which is told at once. -/
  | found (hcached : r.cached = true) {ending : List BatchEvent}
      (h : Ending outDir target r ending) :
      Course outDir target r
        (⟨r.path, .load, .working, none⟩ :: ⟨r.path, .translate, .cached, none⟩ :: ending)

section Events

variable {outDir : String} {target : Target} {r : FileResult} {events : List BatchEvent}

/-- What is written of a file goes to its target, and only if no other file's script goes there. -/
theorem Ending.output (h : Ending outDir target r events) :
    r.output = "" ∨ r.output = target.path ∧ target.rivals = [] := by
  cases h with
  | unwritten _ houtput | refused _ _ houtput => exact .inl houtput
  | written _ _ hrivals houtput => exact .inr ⟨houtput, hrivals⟩

theorem Course.output (h : Course outDir target r events) :
    r.output = "" ∨ r.output = target.path ∧ target.rivals = [] := by
  cases h with
  | unread _ houtput | uncompiled _ houtput => exact .inl houtput
  | compiled _ h | found _ h => exact h.output

theorem Ending.file (h : Ending outDir target r events) : ∀ e ∈ events, e.file = r.path := by
  cases h <;> simp

/-- All events of a file are about it. -/
theorem Course.file (h : Course outDir target r events) : ∀ e ∈ events, e.file = r.path := by
  cases h with
  | unread | uncompiled => simp
  | compiled _ h | found _ h => simpa using h.file

end Events

/-! ## Handling a file -/

theorem events_lookUp (cache : Option ArtifactCache) (key : ArtifactKey) (p : Progression) :
    (lookUp cache key p).2.events = p.events := by
  unfold lookUp
  cases cache with
  | none => rfl
  | some c =>
    dsimp only
    cases c.get p.tree key with
    | ok found | error e => rfl

theorem events_remember (cache : Option ArtifactCache) (key : ArtifactKey) (a : Artifact)
    (p : Progression) : (remember cache key a p).events = p.events := by
  unfold remember
  cases cache with
  | none => rfl
  | some c =>
    dsimp only
    cases c.put p.tree key a with
    | ok tree | error e => rfl

section Results

variable (p : Progression) (r : FileResult) (f : Failure)

@[simp] theorem path_fail : (fail p r f).1.path = r.path := rfl

@[simp] theorem events_fail : (fail p r f).2.events =
    p.events ++ [⟨r.path, f.stage, .error, some f.message⟩] := rfl

@[simp] theorem events_tell (file : String) (stage : Stage) (status : Status)
    (failure : Option String) : (p.tell file stage status failure).events =
      p.events ++ [⟨file, stage, status, failure⟩] := rfl

/-- The last event of a file that has a script. -/
theorem events_succeed : ∃ status : Status,
    (status = .done ∨ status = .cached ∨ status = .error ∧ r.diagnostic ≠ "") ∧
      (succeed p r).2.events = p.events ++ [⟨r.path, .translate, status, none⟩] := by
  refine ⟨_, ?_, rfl⟩
  by_cases hdiagnostic : r.diagnostic = ""
  · cases r.cached
    · simp [hdiagnostic]
    · simp [hdiagnostic]
  · simp [hdiagnostic]

end Results

/-- What storing a script does to the result and the events of its file. -/
theorem store_ending (outDir : String) (target : Target) (p : Progression) {r : FileResult}
    (hr : r.output = "") : ∃ ending,
      (store outDir target p r).2.events = p.events ++ ending ∧
      Ending outDir target (store outDir target p r).1 ending ∧
      (store outDir target p r).1.path = r.path ∧
      (store outDir target p r).1.cached = r.cached := by
  unfold store
  split
  · rename_i hunwanted
    have hwhy : outDir = "" ∨ r.diagnostic ≠ "" := by simpa using hunwanted
    obtain ⟨status, hstatus, hevents⟩ := events_succeed p r
    refine ⟨_, hevents, .unwritten (r := (succeed p r).1) hwhy hr status ?_, rfl, rfl⟩
    exact hstatus.imp_right (Or.imp_right And.left)
  · rename_i hwanted
    have hwanted : outDir ≠ "" ∧ r.diagnostic = "" := by simpa using hwanted
    -- A failure is told after the event that the script is being written.
    have hrefused : ∀ (q : Progression) (f : Failure),
        q.events = p.events ++ [⟨r.path, .store, .working, none⟩] → f.stage = .store → ∃ ending,
          (fail q r f).2.events = p.events ++ ending ∧ Ending outDir target (fail q r f).1 ending ∧
          (fail q r f).1.path = r.path ∧ (fail q r f).1.cached = r.cached := by
      intro q f hq hstage
      refine ⟨_, ?_, .refused (r := (fail q r f).1) hwanted.1 hwanted.2 hr f.message, rfl, rfl⟩
      simp [hq, hstage]
    dsimp only
    split
    · exact hrefused _ _ rfl rfl
    · rename_i hrivals
      have hrivals : target.rivals = [] := by simpa using hrivals
      split
      · exact hrefused _ _ rfl rfl
      · split
        · exact hrefused _ _ rfl rfl
        · rename_i tree _
          obtain ⟨status, hstatus, hevents⟩ := events_succeed
            { p.tell r.path .store .working with tree } { r with output := target.path }
          refine ⟨[⟨r.path, .store, .working, none⟩, ⟨r.path, .translate, status, none⟩], ?_,
            .written (r := (succeed _ { r with output := target.path }).1) hwanted.1 hwanted.2
              hrivals rfl status ?_, rfl, rfl⟩
          · simpa using hevents
          · simpa [hwanted.2] using hstatus

/-- A script that is there leads its file to an end. -/
theorem store_course (outDir : String) (target : Target) {q : Progression} {r : FileResult}
    (hr : r.output = "")
    (hq : q.events = [⟨r.path, .load, .working, none⟩,
      ⟨r.path, .translate, if r.cached then .cached else .working, none⟩]) :
    (store outDir target q r).1.path = r.path ∧
      Course outDir target (store outDir target q r).1 (store outDir target q r).2.events := by
  obtain ⟨ending, hstored, hending, hpath, hcached⟩ := store_ending outDir target q hr
  generalize store outDir target q r = stored at hstored hending hpath hcached ⊢
  refine ⟨hpath, ?_⟩
  rw [hstored, hq, ← hpath, ← hcached]
  cases hfound : stored.1.cached with
  | false => exact .compiled hfound hending
  | true => exact .found hfound hending

/-- What compiling a file does to its result and its events. -/
theorem translate_course (request : Request) (target : Target) (span : Nat) (path : String)
    (bytes : List UInt8) {p : Progression} (hp : p.events = [⟨path, .load, .working, none⟩]) :
    (translate request target span path bytes p).1.path = path ∧
      Course request.outDir target (translate request target span path bytes p).1
        (translate request target span path bytes p).2.events := by
  unfold translate
  dsimp only
  split
  · rename_i e _
    refine ⟨rfl, ?_⟩
    rw [events_fail, hp]
    exact .unread (r := (fail p { path } (.decode e)).1) rfl rfl _
  · rename_i shader _
    -- Compiling tells nothing, so only its result matters.
    generalize compile _ (some shader) span _ = compiled
    obtain ⟨result, tracer⟩ := compiled
    cases result with
    | error e =>
      refine ⟨rfl, ?_⟩
      dsimp only
      rw [events_fail, events_tell, hp]
      exact .uncompiled (r := (fail _ { path } (.compile e)).1) rfl rfl _
    | ok c =>
      dsimp only
      generalize hq : remember _ _ _ _ = q
      have hevents : q.events =
          [⟨path, .load, .working, none⟩, ⟨path, .translate, .working, none⟩] := by
        rw [← hq, events_remember]
        simp [Progression.merge, hp]
      exact store_course request.outDir target
        (r := { path, source := c.source, diagnostic := c.diagnostic }) rfl hevents

theorem handle_course (request : Request) (target : Target) (span : Nat) (path : String)
    (bytes : List UInt8) {p : Progression} (hp : p.events = [⟨path, .load, .working, none⟩]) :
    (handle request target span path bytes p).1.path = path ∧
      Course request.outDir target (handle request target span path bytes p).1
        (handle request target span path bytes p).2.events := by
  have hlooked := events_lookUp request.cache (Artifact.key request.style.name bytes) p
  rw [hp] at hlooked
  unfold handle
  generalize lookUp request.cache (Artifact.key request.style.name bytes) p = looked at hlooked ⊢
  obtain ⟨found, q⟩ := looked
  dsimp only at hlooked ⊢
  cases found with
  | none =>
    dsimp only
    exact translate_course request target span path bytes hlooked
  | some a =>
    dsimp only
    generalize hq : Progression.tell _ path .translate .cached = q'
    have hevents : q'.events =
        [⟨path, .load, .working, none⟩, ⟨path, .translate, .cached, none⟩] := by
      rw [← hq]
      simp [Progression.merge, hlooked]
    exact store_course request.outDir target
      (r := { path, source := a.source, diagnostic := a.diagnostic, cached := true }) rfl hevents

/-- Handling a file takes one of the courses, whatever tree it is handled in. -/
theorem processFile_course (request : Request) (target : Target) (parent : Nat) (path : String)
    (tree : FileTree) (tracer : Tracer) :
    (processFile request target parent path tree tracer).1.path = path ∧
      Course request.outDir target (processFile request target parent path tree tracer).1
        (processFile request target parent path tree tracer).2.events := by
  unfold processFile
  dsimp only
  generalize hp : Progression.tell _ path .load .working = p
  have hevents : p.events = [⟨path, .load, .working, none⟩] := by rw [← hp]; rfl
  cases tree.read path with
  | error e =>
    refine ⟨rfl, ?_⟩
    dsimp only
    rw [events_fail, hevents]
    exact .unread (r := (fail p { path } (.load path e)).1) rfl rfl _
  | ok bytes => exact handle_course request target _ path bytes hevents

/-! ## Whole runs -/

/-- What a file of a run can come to: its result and its events, in whatever tree it is handled. -/
def Request.Yields (request : Request) (work : String × Target)
    (outcome : FileResult × List BatchEvent) : Prop :=
  ∃ parent tree tracer,
    outcome.1 = (processFile request work.2 parent work.1 tree tracer).1 ∧
      outcome.2 = (processFile request work.2 parent work.1 tree tracer).2.events

/-- What the files of a run come to, one by one.  Each file may meet another tree, as it does when
files are handled at the same time. -/
def Request.Handled (request : Request) (outcomes : List (FileResult × List BatchEvent)) : Prop :=
  List.Forall₂ request.Yields (request.files.zip request.targets) outcomes

theorem Request.Yields.course {request : Request} {work : String × Target}
    {outcome : FileResult × List BatchEvent} (h : request.Yields work outcome) :
    outcome.1.path = work.1 ∧ Course request.outDir work.2 outcome.1 outcome.2 := by
  obtain ⟨parent, tree, tracer, hresult, hevents⟩ := h
  rw [hresult, hevents]
  exact processFile_course request work.2 parent work.1 tree tracer

theorem length_targets (request : Request) : request.targets.length = request.files.length := by
  unfold Request.targets
  split
  · simp
  · simp [targets]

/-- Each outcome is the course of the file at its place in the list. -/
theorem Request.Handled.course {request : Request} {outcomes : List (FileResult × List BatchEvent)}
    (h : request.Handled outcomes) {i : Nat} {outcome : FileResult × List BatchEvent}
    (houtcome : outcomes[i]? = some outcome) : ∃ target,
      request.files[i]? = some outcome.1.path ∧ request.targets[i]? = some target ∧
        Course request.outDir target outcome.1 outcome.2 := by
  obtain ⟨hlength, hyields⟩ := List.forall₂_iff_get.1 h
  obtain ⟨hlt, rfl⟩ := List.getElem?_eq_some_iff.1 houtcome
  have hwork : (request.files.zip request.targets)[i]? =
      some ((request.files.zip request.targets).get ⟨i, hlength ▸ hlt⟩) :=
    List.getElem?_eq_getElem _
  have hcourse := (hyields i (hlength ▸ hlt) hlt).course
  generalize (request.files.zip request.targets).get _ = work at hwork hcourse
  obtain ⟨hfile, htarget⟩ := List.getElem?_zip_eq_some.1 hwork
  exact ⟨work.2, hcourse.1 ▸ hfile, htarget, hcourse.2⟩

theorem map_fst_zip_targets (request : Request) :
    (request.files.zip request.targets).map Prod.fst = request.files :=
  List.map_fst_zip (length_targets request).ge

theorem processAll_handled (request : Request) (parent : Nat) (work : List (String × Target))
    (s : RunState) : ∃ outcomes,
      List.Forall₂ request.Yields work outcomes ∧
      (processAll request parent work s).1 = outcomes.map Prod.fst ∧
      (processAll request parent work s).2.events =
        s.events ++ (outcomes.map Prod.snd).flatten := by
  induction work generalizing s with
  | nil => exact ⟨[], .nil, rfl, by simp [processAll]⟩
  | cons file rest ih =>
    obtain ⟨path, target⟩ := file
    have hyields : request.Yields (path, target)
        ((processFile request target parent path s.tree s.tracer).1,
          (processFile request target parent path s.tree s.tracer).2.events) :=
      ⟨parent, s.tree, s.tracer, rfl, rfl⟩
    -- The rest runs in the state that the first file leaves.
    obtain ⟨outcomes, hrest, hresults, hevents⟩ := ih
      { tree := (processFile request target parent path s.tree s.tracer).2.tree,
        tracer := (processFile request target parent path s.tree s.tracer).2.tracer,
        timing := s.timing.record path 0
          (processFile request target parent path s.tree s.tracer).1.note,
        events := s.events ++
          (processFile request target parent path s.tree s.tracer).2.events }
    refine ⟨_ :: outcomes, .cons hyields hrest, ?_, ?_⟩
    · rw [processAll, List.map_cons, ← hresults]
    · rw [processAll, List.map_cons, List.flatten_cons, ← List.append_assoc, ← hevents]

/-- A run that has results handles each of its files. -/
theorem run_handled {request : Request} {s s' : RunState} {results : List FileResult}
    (h : run request s = (.ok results, s')) : ∃ outcomes,
      request.Handled outcomes ∧ results = outcomes.map Prod.fst ∧
      s'.events = s.events ++ (request.files.map queued ++ (outcomes.map Prod.snd).flatten) := by
  rw [run_eq] at h
  split at h
  · rename_i hfiles
    obtain ⟨hresults, rfl⟩ := Prod.mk.inj h
    have hnone : request.files = [] := by simpa using hfiles
    refine ⟨[], ?_, (Except.ok.inj hresults).symm, by simp [hnone]⟩
    rw [Request.Handled, hnone]
    exact .nil
  · split at h
    · cases h
    · rename_i tree _
      dsimp only at h
      split at h
      · cases h
      · obtain ⟨outcomes, hhandled, hresults, hevents⟩ := processAll_handled request
          (request.begun s tree).1.id (request.files.zip request.targets) (request.begun s tree).2
        obtain ⟨hok, rfl⟩ := Prod.mk.inj h
        refine ⟨outcomes, hhandled, (Except.ok.inj hok).symm.trans hresults, ?_⟩
        dsimp only
        rw [hevents, ← List.append_assoc]
        rfl

end Batch

end ShaderScript
