import ShaderScript.Proofs.FileCourse
import ShaderScript.Proofs.Interleaving
import ShaderScript.Proofs.TraceForest

/-!
# The trace of a batch run

A batch run is traced under a span of its own, each of its files under one in there, and what is
compiled of a file under that.  A level may record the run and not its files.  The span of a file is
then not recorded, but it is still what the compilation is given as its parent, under the number 0.
So the spans are nested at any level, while the parents are wrong at that one as soon as a file is
compiled.

Where several workers handle files at the same time, the spans of a file get other numbers than they
would get otherwise, and events of other files come in between.  The events of each file are as they
are with one worker (`tasks_traced`).
-/

namespace ShaderScript

/-- An event says that a shader is being compiled. -/
def BatchEvent.Compiling (e : BatchEvent) : Prop := e.stage = .translate ∧ e.status = .working

namespace Batch

variable {request : Request} {s : RunState}

/-- Nothing is compiled: there is no engine for it, or no event tells of it. -/
def Request.CompilesNothing (request : Request) (told : List BatchEvent) : Prop :=
  Engine.ofStyle? request.style = none ∨ ∀ e ∈ told, ¬ e.Compiling

theorem Request.compilesNothing_append {told told' : List BatchEvent} :
    request.CompilesNothing (told ++ told') ↔
      request.CompilesNothing told ∧ request.CompilesNothing told' := by
  simp only [CompilesNothing, List.forall_mem_append, or_and_left]

theorem Ending.not_compiling {outDir : String} {target : Target} {r : FileResult}
    {events : List BatchEvent} (h : Ending outDir target r events) :
    ∀ e ∈ events, ¬ e.Compiling := by
  cases h with
  | unwritten _ _ status hstatus =>
    obtain rfl | rfl | rfl := hstatus <;> simp [BatchEvent.Compiling]
  | refused => simp [BatchEvent.Compiling]
  | written _ _ _ _ status hstatus =>
    obtain rfl | rfl := hstatus <;> simp [BatchEvent.Compiling]

/-! ## The tracer while a file is handled -/

theorem tracer_store (outDir : String) (target : Target) (p : Progression) (r : FileResult) :
    (store outDir target p r).2.tracer = p.tracer := by
  unfold store
  split
  · rfl
  · dsimp only
    split
    · rfl
    · split
      · rfl
      · split <;> rfl

theorem tracer_lookUp (cache : Option ArtifactCache) (key : ArtifactKey) (p : Progression) :
    (lookUp cache key p).2.tracer = p.tracer := by
  unfold lookUp
  split
  · rfl
  · split <;> rfl

theorem tracer_remember (cache : Option ArtifactCache) (key : ArtifactKey) (a : Artifact)
    (p : Progression) : (remember cache key a p).tracer = p.tracer := by
  unfold remember
  split
  · rfl
  · split <;> rfl

/-! ## Handling files -/

section Files

variable {request : Request} {target : Target} {span : Nat} {path : String} {bytes : List UInt8}
  {p : Progression}

theorem not_compiling_fail (hp : ∀ e ∈ p.events, ¬ e.Compiling) (r : FileResult) (f : Failure) :
    ∀ e ∈ (fail p r f).2.events, ¬ e.Compiling := by
  rw [events_fail]
  exact List.forall_mem_append.2 ⟨hp, by simp [BatchEvent.Compiling]⟩

theorem translate_traces (hpass : p.tracer.level.admits .pass = true)
    (hp : ∀ e ∈ p.events, ¬ e.Compiling) : ∃ es,
      p.tracer.Traces span es (translate request target span path bytes p).2.tracer ∧
      (es = [] ↔ request.CompilesNothing
        (translate request target span path bytes p).2.events) := by
  unfold translate
  dsimp only
  split
  · exact ⟨[], .refl _ _, iff_of_true rfl (.inr (not_compiling_fail hp _ _))⟩
  · rename_i shader _
    obtain ⟨es, htraces, hempty⟩ := compile_traces hpass
      { style := request.style, name := FilePath.base path, limit := request.limit } (some shader)
      span
    generalize hcompiled : compile _ (some shader) span p.tracer = compiled at htraces
    -- However it goes on, it was told that the file is compiled, and nothing more is traced.
    have hgoes : ∀ final : FileResult × Progression, final.2.tracer = compiled.2 →
        ⟨path, .translate, .working, none⟩ ∈ final.2.events → ∃ es,
          p.tracer.Traces span es final.2.tracer ∧
          (es = [] ↔ request.CompilesNothing final.2.events) := by
      intro final htracer htold
      refine ⟨es, htracer ▸ htraces, hempty.trans ?_⟩
      have hcompiling : ¬ ∀ e ∈ final.2.events, ¬ e.Compiling :=
        fun hnone => hnone _ htold ⟨rfl, rfl⟩
      simp [Request.CompilesNothing, hcompiling]
    rw [show (p.tell path .translate .working).tracer = p.tracer from rfl, hcompiled]
    obtain ⟨result, tracer⟩ := compiled
    cases result with
    | error e => exact hgoes _ rfl (by simp)
    | ok c =>
      dsimp only
      generalize hq : remember _ _ _ _ = q
      have htracer : q.tracer = tracer := by rw [← hq, tracer_remember]; rfl
      have hevents : q.events = p.events ++ [⟨path, .translate, .working, none⟩] := by
        rw [← hq, events_remember]
        rfl
      refine hgoes _ ((tracer_store _ _ _ _).trans htracer) ?_
      obtain ⟨ending, hstored, -⟩ := store_ending request.outDir target q
        (r := { path, source := c.source, diagnostic := c.diagnostic }) rfl
      rw [hstored, hevents]
      simp

theorem handle_traces (hpass : p.tracer.level.admits .pass = true)
    (hp : ∀ e ∈ p.events, ¬ e.Compiling) : ∃ es,
      p.tracer.Traces span es (handle request target span path bytes p).2.tracer ∧
      (es = [] ↔ request.CompilesNothing (handle request target span path bytes p).2.events) := by
  have htracer := tracer_lookUp request.cache (Artifact.key request.style.name bytes) p
  have hevents := events_lookUp request.cache (Artifact.key request.style.name bytes) p
  unfold handle
  generalize lookUp request.cache (Artifact.key request.style.name bytes) p = looked
    at htracer hevents ⊢
  obtain ⟨found, q⟩ := looked
  rw [← hevents] at hp
  rw [← htracer] at hpass ⊢
  cases found with
  | none =>
    dsimp only at hpass hp ⊢
    exact translate_traces hpass hp
  | some a =>
    -- A script from the cache is stored as it is: nothing is traced, and no event says compiling.
    dsimp only
    generalize hq' : Progression.tell _ path .translate .cached = q'
    have htracer' : q'.tracer = q.tracer := by rw [← hq']; rfl
    have hevents' : q'.events = q.events ++ [⟨path, .translate, .cached, none⟩] := by
      rw [← hq']
      rfl
    obtain ⟨ending, hstored, hending, -⟩ := store_ending request.outDir target q'
      (r := { path, source := a.source, diagnostic := a.diagnostic, cached := true }) rfl
    refine ⟨[], ?_, iff_of_true rfl (.inr ?_)⟩
    · rw [tracer_store, htracer']
      exact .refl _ _
    · rw [hstored, hevents']
      refine List.forall_mem_append.2 ⟨List.forall_mem_append.2 ⟨hp, ?_⟩, hending.not_compiling⟩
      simp [BatchEvent.Compiling]

/-- The parent that the events of a file name: the span of the run, if files are recorded. -/
def fileParent (level : TraceLevel) (parent : Nat) : Nat :=
  if level.admits .unit then parent else 0

/-- Handling a file records a forest.  Where files are not recorded, it is empty unless the file is
compiled. -/
theorem processFile_traces (request : Request) (target : Target) (path : String) {tracer : Tracer}
    (hpass : tracer.level.admits .pass = true) (parent : Nat) (tree : FileTree) : ∃ es,
      tracer.Traces (fileParent tracer.level parent) es
        (processFile request target parent path tree tracer).2.tracer ∧
      (tracer.level.admits .unit = false →
        (es = [] ↔ request.CompilesNothing
          (processFile request target parent path tree tracer).2.events)) := by
  unfold processFile
  dsimp only
  generalize hbegun : tracer.begin .unit (FilePath.base path) parent = begun
  generalize hp : Progression.tell _ path .load .working = p
  have hcalm : ∀ e ∈ p.events, ¬ e.Compiling := by
    rw [← hp]
    simp [BatchEvent.Compiling]
  have htracer : p.tracer = begun.2 := by rw [← hp]; rfl
  have hlevel : begun.2.level = tracer.level := by rw [← hbegun, Tracer.level_begin]
  have hpass' : p.tracer.level.admits .pass = true := by rwa [htracer, hlevel]
  -- The span of the file goes around what is recorded, or is not recorded itself.
  have hclosed : ∀ (done : FileResult × Progression) (es : List TraceEvent),
      p.tracer.Traces begun.1.id es done.2.tracer →
      (es = [] ↔ request.CompilesNothing done.2.events) → ∃ es,
        tracer.Traces (fileParent tracer.level parent) es (done.2.tracer.finish begun.1) ∧
        (tracer.level.admits .unit = false →
          (es = [] ↔ request.CompilesNothing done.2.events)) := by
    intro done es hwork hempty
    rw [htracer] at hwork
    subst hbegun
    unfold fileParent
    cases hunit : tracer.level.admits .unit with
    | false =>
      rw [Tracer.begin_of_not_admits hunit] at hwork ⊢
      exact ⟨es, hwork, fun _ => hempty⟩
    | true =>
      obtain ⟨b, e, htraces⟩ := hwork.span hunit (.refl _) ""
      exact ⟨_, htraces, fun hnot => absurd hnot (by decide)⟩
  cases tree.read path with
  | error e =>
    exact hclosed (fail p { path } (.load path e)) [] (.refl _ _)
      (iff_of_true rfl (.inr (not_compiling_fail hcalm _ _)))
  | ok bytes =>
    obtain ⟨es, hwork, hempty⟩ := handle_traces hpass' hcalm
    exact hclosed _ es hwork hempty

end Files

theorem processAll_traces (request : Request) (parent : Nat) (work : List (String × Target))
    (hpass : s.tracer.level.admits .pass = true) : ∃ es told,
      s.tracer.Traces (fileParent s.tracer.level parent) es
        (processAll request parent work s).2.tracer ∧
      (processAll request parent work s).2.events = s.events ++ told ∧
      (s.tracer.level.admits .unit = false → (es = [] ↔ request.CompilesNothing told)) := by
  induction work generalizing s with
  | nil =>
    exact ⟨[], [], .refl _ _, by simp [processAll], fun _ => by simp [Request.CompilesNothing]⟩
  | cons file rest ih =>
    obtain ⟨path, target⟩ := file
    obtain ⟨es, hfirst, hempty⟩ :=
      processFile_traces request target path hpass parent s.tree
    rw [processAll]
    generalize processFile request target parent path s.tree s.tracer = done at hfirst hempty ⊢
    obtain ⟨result, p⟩ := done
    dsimp only at hfirst hempty ⊢
    -- The rest is traced by the tracer that the first file leaves.
    obtain ⟨fs, told, hrest, htold, hnothing⟩ := ih
      (s := { tree := p.tree, tracer := p.tracer, timing := s.timing.record path 0 result.note,
              events := s.events ++ p.events }) (by rwa [hfirst.records.level])
    dsimp only at hrest htold hnothing
    rw [hfirst.records.level] at hrest hnothing
    refine ⟨es ++ fs, p.events ++ told, hfirst.trans hrest, ?_, fun hunit => ?_⟩
    · rw [htold, List.append_assoc]
    · rw [List.append_eq_nil_iff, hempty hunit, hnothing hunit, Request.compilesNothing_append]

/-! ## Whole runs -/

/-- The span of a run that the level records. -/
theorem Request.begun_traced (hlevel : s.tracer.level.admits .driver = true) (tree : FileTree) :
    (request.begun s tree).1.id = s.tracer.spans + 1 ∧
    (request.begun s tree).1.scope = .driver ∧
    (request.begun s tree).2.tracer.spans = s.tracer.spans + 1 ∧
    ∃ b, b.Begins (s.tracer.spans + 1) ∧ b.parent = 0 ∧ b.name = "batch" ∧
      s.tracer.Records [b] (request.begun s tree).2.tracer := by
  obtain ⟨hspan, hspans, hbegin⟩ := Tracer.begin_of_admits hlevel "batch" 0
  have hsame : (request.begun s tree).1.Same (s.tracer.begin .driver "batch" 0).1 :=
    ((Span.Same.refl _).withExtra _ _).withExtra _ _
  rw [hspan] at hsame
  exact ⟨hsame.id, hsame.scope, hspans, hbegin⟩

/-- A run under its span, from the begin of the span to its end. -/
theorem Request.begun_finish (hlevel : s.tracer.level.admits .driver = true) {tree : FileTree}
    {es : List TraceEvent} {t : Tracer}
    (hwork : (request.begun s tree).2.tracer.Traces (fileParent s.tracer.level (s.tracer.spans + 1))
      es t) :
    ∃ b e, s.tracer.Records (b :: (es ++ [e])) (t.finish (request.begun s tree).1) ∧
      (b.Begins (s.tracer.spans + 1) ∧ b.parent = 0 ∧ b.name = "batch") ∧
      (∀ x ∈ b :: (es ++ [e]), x.kind ≠ .point → Enclosed x.span (b :: (es ++ [e]))) ∧
      (ParentsRight (s.tracer.spans + 1) (b :: (es ++ [e])) ↔
        s.tracer.level.admits .unit = true ∨ es = []) := by
  obtain ⟨hid, hscope, hspans, b, hbegins, hparent, hname, hfirst⟩ := begun_traced hlevel tree
  have hlevel' : t.level = s.tracer.level := hwork.records.level.trans hfirst.level
  obtain ⟨-, e, hends, -, hlast⟩ := Tracer.finish_of_admits (t := t)
    (s := (request.begun s tree).1) (by rwa [hlevel', hscope]) (by simp [hid]) ""
  rw [hid] at hends
  have hforest := hwork.forest
  rw [hspans] at hforest
  have hpos : 0 < s.tracer.spans + 1 := Nat.succ_pos _
  refine ⟨b, e, (hfirst.trans hwork.records).trans hlast, ⟨hbegins, hparent, hname⟩,
    fun x => hforest.enclosed_around (Nat.le_refl _) hbegins hends hpos, ?_⟩
  rw [hforest.parentsRight_around_iff (Nat.le_refl _) hbegins hends hpos, or_comm, fileParent]
  cases s.tracer.level.admits .unit with
  | true | false => simp

/-- What a run records and tells: nothing if it does not begin, and otherwise what its files do
under its span. -/
theorem run_traces (request : Request) (s : RunState)
    (hlevel : s.tracer.level.admits .driver = true) :
    ((run request s).2.tracer = s.tracer ∧ (run request s).2.events = s.events) ∨
    ∃ tree t es told, (run request s).2.tracer = Tracer.finish t (request.begun s tree).1 ∧
      (run request s).2.events = s.events ++ told ∧
      (request.begun s tree).2.tracer.Traces
        (fileParent s.tracer.level (s.tracer.spans + 1)) es t ∧
      (s.tracer.level.admits .unit = false → (es = [] ↔ request.CompilesNothing told)) := by
  rw [run_eq]
  by_cases hfiles : request.files.isEmpty = true
  · rw [if_pos hfiles]
    exact .inl ⟨rfl, rfl⟩
  · rw [if_neg hfiles]
    cases request.withOutDir s.tree with
    | error e => exact .inl ⟨rfl, rfl⟩
    | ok tree =>
      obtain ⟨hid, -, -, b, -, -, -, hfirst⟩ := request.begun_traced hlevel tree
      have hqueued : request.CompilesNothing (request.files.map queued) :=
        .inr (by simp [queued, BatchEvent.Compiling])
      have hevents : (request.begun s tree).2.events = s.events ++ request.files.map queued := rfl
      -- The span is begun before the run looks whether it was called off.
      right
      dsimp only
      by_cases hcancelled : request.cancelled = true
      · rw [if_pos hcancelled]
        exact ⟨tree, _, [], _, rfl, hevents, .refl _ _, fun _ => iff_of_true rfl hqueued⟩
      · rw [if_neg hcancelled]
        obtain ⟨es, told, hwork, htold, hempty⟩ := processAll_traces request
          (request.begun s tree).1.id (request.files.zip request.targets)
          (s := (request.begun s tree).2)
          (by rw [hfirst.level]; exact TraceLevel.admits_pass hlevel)
        generalize processAll request (request.begun s tree).1.id
          (request.files.zip request.targets) (request.begun s tree).2 = done at hwork htold ⊢
        rw [hfirst.level, hid] at hwork
        rw [hfirst.level] at hempty
        refine ⟨tree, _, es, request.files.map queued ++ told, rfl, ?_, hwork,
          fun hunit => (hempty hunit).trans ?_⟩
        · rw [htold, hevents, List.append_assoc]
        · rw [Request.compilesNothing_append]
          exact (and_iff_right hqueued).symm

/-! ## Several workers -/

/-- A file that a worker takes up, and what it finds at that moment. -/
structure Task where
  path : String
  target : Target
  tree : FileTree
  tracer : Tracer

/-- What a worker does with a file under the span of the run. -/
def Task.handled (task : Task) (request : Request) (own : Nat) : FileResult × Progression :=
  processFile request task.target own task.path task.tree task.tracer

/-- The same events where other spans begin meanwhile: spans have other numbers, but for the span of
the run. -/
def Renumbers (own : Nat) (es es' : List TraceEvent) : Prop :=
  ∃ f : Nat → Nat, f.Injective ∧ f 0 = 0 ∧ f own = own ∧ es' = es.map (·.renumbered f)

/-- Two files have no span in common. -/
def Apart (es es' : List TraceEvent) : Prop :=
  ∀ x ∈ es, ∀ y ∈ es', x.kind ≠ .point → y.kind ≠ .point → x.span ≠ y.span

/-- The events of a file between the begin and the end of the run's span: no spans cross, and the
parents are right where files are recorded or the file is not compiled. -/
structure Task.Traced (task : Task) (request : Request) (own : Nat) (b e : TraceEvent)
    (es : List TraceEvent) : Prop where
  enclosed : ∀ x ∈ b :: (es ++ [e]), x.kind ≠ .point → Enclosed x.span (b :: (es ++ [e]))
  parents : ParentsRight own (b :: (es ++ [e])) ↔ task.tracer.level.admits .unit = true ∨
    request.CompilesNothing (task.handled request own).2.events

/-- What is recorded of one file. -/
theorem Task.exists_traced (request : Request) (task : Task) {own : Nat}
    (hlevel : task.tracer.level.admits .driver = true) (hpos : 0 < own)
    (hle : own ≤ task.tracer.spans) : ∃ es,
      task.tracer.Records es (task.handled request own).2.tracer ∧
      ∀ es', Renumbers own es es' →
        ∀ b e : TraceEvent, b.Begins own → b.parent = 0 → e.Ends own → e.parent = 0 →
          task.Traced request own b e es' := by
  obtain ⟨es, htraces, hempty⟩ := processFile_traces request task.target task.path
    (TraceLevel.admits_pass hlevel) own task.tree
  refine ⟨es, htraces.records, ?_⟩
  rintro _ ⟨f, hf, hzero, hown, rfl⟩ b e hbegins hbegin hends hend
  -- Around the file the numbers stay as they are.
  have hkept {x : TraceEvent} (hspan : x.span = own) (hparent : x.parent = 0) :
      x.renumbered f = x := by
    rw [TraceEvent.renumbered, hspan, hparent, hown, hzero, ← hspan, ← hparent]
  have hsame : b :: (es.map (·.renumbered f) ++ [e]) = (b :: (es ++ [e])).map (·.renumbered f) := by
    rw [List.map_cons, List.map_append, List.map_singleton, hkept hbegins.2 hbegin,
      hkept hends.2 hend]
  constructor
  · rw [hsame]
    intro x' hx' hkind
    obtain ⟨x, hx, rfl⟩ := List.mem_map.1 hx'
    exact (htraces.forest.enclosed_around hle hbegins hends hpos hx hkind).renumbered hf
  · have hright : ParentsRight own (b :: (es.map (·.renumbered f) ++ [e])) ↔
        ParentsRight own (b :: (es ++ [e])) := by
      rw [hsame]
      nth_rewrite 1 [← hown]
      exact parentsRight_renumbered hf
    rw [hright, htraces.forest.parentsRight_around_iff hle hbegins hends hpos, fileParent]
    cases hunit : task.tracer.level.admits .unit with
    | true => simp
    | false =>
      rw [hempty hunit]
      have hne : 0 ≠ own := Nat.ne_of_lt hpos
      simp [hne, Task.handled]

/-- Spans that begin and end once in their files do so in the whole. -/
theorem once_mixed {numbered : List (List TraceEvent)} {own : Nat} {b e : TraceEvent}
    {mixed : List TraceEvent} (hmixed : Interleaving numbered mixed)
    (hapart : numbered.Pairwise Apart) (hbegins : b.Begins own) (hends : e.Ends own)
    (honce : ∀ es ∈ numbered, ∀ x ∈ b :: (es ++ [e]), x.kind ≠ .point →
      Once x.span (b :: (es ++ [e]))) :
    ∀ x ∈ b :: (mixed ++ [e]), x.kind ≠ .point → Once x.span (b :: (mixed ++ [e])) := by
  have hcount (p : TraceEvent → Bool) (es : List TraceEvent) :
      (b :: (es ++ [e])).countP p = [b].countP p + es.countP p + [e].countP p := by
    rw [← List.singleton_append, List.countP_append, List.countP_append, Nat.add_assoc]
  have hb : b.kind ≠ .point := by rw [hbegins.1]; decide
  have hbegin : [b].countP (·.Begins own) = 1 ∧ [e].countP (·.Begins own) = 0 := by
    have he : ¬ e.Begins own := fun h => absurd (hends.1.symm.trans h.1) (by decide)
    simp [hbegins, he]
  have hend : [b].countP (·.Ends own) = 0 ∧ [e].countP (·.Ends own) = 1 := by
    have hb : ¬ b.Ends own := fun h => absurd (hbegins.1.symm.trans h.1) (by decide)
    simp [hends, hb]
  -- The span of the run is in no file.
  have hown : Once own (b :: (mixed ++ [e])) := by
    have hnone : ∀ es ∈ numbered, es.countP (·.Begins own) = 0 ∧ es.countP (·.Ends own) = 0 := by
      intro es hes
      have h := honce es hes b List.mem_cons_self hb
      rw [hbegins.2, Once, hcount, hcount] at h
      omega
    rw [Once, hcount, hcount, hmixed.countP_eq_zero fun es hes => (hnone es hes).1,
      hmixed.countP_eq_zero fun es hes => (hnone es hes).2]
    omega
  intro x hx hkind
  simp only [List.mem_cons, List.mem_append, List.not_mem_nil, or_false] at hx
  obtain rfl | hx | rfl := hx
  · rwa [hbegins.2]
  · obtain ⟨es, hes, hx⟩ := hmixed.mem hx
    have h := honce es hes x (by simp [hx]) hkind
    obtain ⟨front, back, hsplit⟩ := List.append_of_mem hes
    rw [hsplit, List.pairwise_append, List.pairwise_cons] at hapart
    -- No other file has the span.
    have hnone (p : TraceEvent → Bool) (hp : ∀ y, p y = true → y.kind ≠ .point ∧ y.span = x.span) :
        mixed.countP p = es.countP p := by
      refine hmixed.countP_eq hsplit fun fs hfs => List.countP_eq_zero.2 fun y hy hpy => ?_
      obtain ⟨hpoint, hspan⟩ := hp y hpy
      rcases List.mem_append.1 hfs with hfs | hfs
      · exact hapart.2.2 fs hfs es List.mem_cons_self y hy x hx hpoint hkind hspan
      · exact hapart.2.1.1 fs hfs x hx y hy hkind hpoint hspan.symm
    rw [Once, hcount, hcount] at h ⊢
    rw [hnone (·.Begins x.span), hnone (·.Ends x.span)]
    · exact h
    · intro y hy
      obtain ⟨hy, hspan⟩ := of_decide_eq_true hy
      exact ⟨by rw [hy]; decide, hspan⟩
    · intro y hy
      obtain ⟨hy, hspan⟩ := of_decide_eq_true hy
      exact ⟨by rw [hy]; decide, hspan⟩
  · rwa [hends.2]

/-- What is recorded of files, each for itself. -/
theorem exists_traces (request : Request) {tasks : List Task} {own : Nat} (hpos : 0 < own)
    (h : ∀ task ∈ tasks, task.tracer.level.admits .driver = true ∧ own ≤ task.tracer.spans) :
    ∃ traces, List.Forall₂ (fun (task : Task) es =>
      task.tracer.Records es (task.handled request own).2.tracer ∧
        ∀ es', Renumbers own es es' →
          ∀ b e : TraceEvent, b.Begins own → b.parent = 0 → e.Ends own → e.parent = 0 →
            task.Traced request own b e es') tasks traces := by
  induction tasks with
  | nil => exact ⟨[], .nil⟩
  | cons task tasks ih =>
    obtain ⟨⟨hlevel, hle⟩, hrest⟩ := List.forall_mem_cons.1 h
    obtain ⟨es, hes⟩ := task.exists_traced request hlevel hpos hle
    obtain ⟨traces, htraces⟩ := ih hrest
    exact ⟨es :: traces, .cons hes htraces⟩

/-- What is recorded of files that are handled at the same time.  Whatever the numbers of the spans
are, and however the events are mixed, each span begins and ends once, and the events of each file
are as they would be alone. -/
theorem tasks_traced (request : Request) {tasks : List Task} {own : Nat} (hpos : 0 < own)
    (h : ∀ task ∈ tasks, task.tracer.level.admits .driver = true ∧ own ≤ task.tracer.spans) :
    ∃ traces : List (List TraceEvent),
      List.Forall₂ (fun task es => task.tracer.Records es (task.handled request own).2.tracer)
        tasks traces ∧
      ∀ numbered, List.Forall₂ (Renumbers own) traces numbered → numbered.Pairwise Apart →
        ∀ b e : TraceEvent, b.Begins own → b.parent = 0 → e.Ends own → e.parent = 0 →
          ∀ mixed, Interleaving numbered mixed →
            (∀ x ∈ b :: (mixed ++ [e]), x.kind ≠ .point → Once x.span (b :: (mixed ++ [e]))) ∧
            List.Forall₂ (Task.Traced · request own b e) tasks numbered := by
  obtain ⟨traces, htraces⟩ := exists_traces request hpos h
  refine ⟨traces, htraces.imp fun _ _ h => h.1, ?_⟩
  intro numbered hnumbered hapart b e hbegins hbegin hends hend mixed hmixed
  have htraced : List.Forall₂ (Task.Traced · request own b e) tasks numbered := by
    clear hapart hmixed
    induction htraces generalizing numbered with
    | nil =>
      cases hnumbered
      exact .nil
    | cons hes _ ih =>
      cases hnumbered with
      | cons hfirst hrest =>
        exact .cons (hes.2 _ hfirst b e hbegins hbegin hends hend)
          (ih (fun task htask => h task (List.mem_cons_of_mem _ htask)) _ hrest)
  have honce : ∀ es ∈ numbered, ∀ x ∈ b :: (es ++ [e]), x.kind ≠ .point →
      Once x.span (b :: (es ++ [e])) := by
    intro es hes x hx hkind
    obtain ⟨hlength, hall⟩ := List.forall₂_iff_get.1 htraced
    obtain ⟨i, hi, rfl⟩ := List.mem_iff_getElem.1 hes
    exact ((hall i (hlength ▸ hi) hi).enclosed x hx hkind).once
  exact ⟨once_mixed hmixed hapart hbegins hends honce, htraced⟩

/-- **When the parents of a trace are right.**  At any level that records batch runs, the spans of a
run's trace each begin and end once and do not cross.  The first event begins the span of the run.
All other events name the innermost span around them if and only if the level records files as well,
or nothing is compiled.

With several workers the same holds of each file, whichever files they handle, whatever they find,
and however the events of the files are mixed. -/
theorem run_trace_tree_iff (request : Request) (s : RunState)
    (hlevel : s.tracer.level.admits .driver = true) :
    (∃ recorded told,
      s.tracer.Records recorded (run request s).2.tracer ∧
      (run request s).2.events = s.events ++ told ∧
      (∀ e ∈ recorded.head?, e.Begins (s.tracer.spans + 1) ∧ e.parent = 0 ∧ e.name = "batch") ∧
      (∀ e ∈ recorded, e.kind ≠ .point → Enclosed e.span recorded) ∧
      (ParentsRight (s.tracer.spans + 1) recorded ↔
        s.tracer.level.admits .unit = true ∨ request.CompilesNothing told)) ∧
    ∀ tasks : List Task, (∀ task ∈ tasks,
        task.tracer.level = s.tracer.level ∧ s.tracer.spans < task.tracer.spans) →
      ∃ traces : List (List TraceEvent),
        List.Forall₂ (fun task es => task.tracer.Records es
          (task.handled request (s.tracer.spans + 1)).2.tracer) tasks traces ∧
        ∀ numbered, List.Forall₂ (Renumbers (s.tracer.spans + 1)) traces numbered →
          numbered.Pairwise Apart →
          ∀ b e : TraceEvent, b.Begins (s.tracer.spans + 1) → b.parent = 0 →
            e.Ends (s.tracer.spans + 1) → e.parent = 0 →
            ∀ mixed, Interleaving numbered mixed →
              (∀ x ∈ b :: (mixed ++ [e]), x.kind ≠ .point → Once x.span (b :: (mixed ++ [e]))) ∧
              List.Forall₂ (Task.Traced · request (s.tracer.spans + 1) b e) tasks numbered := by
  refine ⟨?_, fun tasks htasks => ?_⟩
  -- Either nothing is recorded, or the span of the run encloses what is.
  · obtain ⟨htracer, hevents⟩ | ⟨tree, t, es, told, htracer, hevents, hwork, hempty⟩ :=
      run_traces request s hlevel
    · rw [htracer, hevents]
      exact ⟨[], [], .refl _, by simp, by simp, by simp,
        by simp [ParentsRight, Request.CompilesNothing]⟩
    · obtain ⟨b, e, hrecords, hbegin, henclosed, hright⟩ := request.begun_finish hlevel hwork
      refine ⟨_, told, htracer ▸ hrecords, hevents, ?_, henclosed, hright.trans ?_⟩
      · rintro x ⟨rfl⟩
        exact hbegin
      · cases hunit : s.tracer.level.admits .unit with
        | true => simp
        | false => rw [hempty hunit]
  · refine tasks_traced request (Nat.succ_pos _) fun task htask => ?_
    obtain ⟨hsame, hle⟩ := htasks task htask
    exact ⟨by rw [hsame, hlevel], hle⟩

/-- A file, and a tracer of a level. -/
def tracedFile (level : TraceLevel) : RunState where
  tree := { entries := [(["a.json"], .file blankBytes)] }
  tracer := .ringOf level

/-- What the ring holds after a run over the file. -/
def tracedEvents (level : TraceLevel) : List TraceEvent :=
  (run { files := ["a.json"] } (tracedFile level)).2.tracer.ring.elim [] (·.events)

/-- Where files are recorded, the compilation of a file lies in its span. -/
theorem run_trace_tree_iff_detail :
    (tracedFile .detail).tracer.level.admits .driver = true ∧
    (tracedEvents .detail).map (fun e => (e.name, e.span, e.parent)) =
      [("batch", 1, 0), ("a.json", 2, 1), ("translate", 3, 2), ("generate", 4, 3),
       ("generate", 4, 3), ("materialize", 5, 3), ("materialize", 5, 3), ("translate", 3, 2),
       ("a.json", 2, 1), ("batch", 1, 0)] ∧
    ∃ recorded, ParentsRight 1 recorded ∧ (tracedFile .detail).tracer.Records recorded
      (run { files := ["a.json"] } (tracedFile .detail)).2.tracer := by
  refine ⟨rfl, by decide +kernel, ?_⟩
  obtain ⟨recorded, told, hrecords, -, -, -, hright⟩ :=
    (run_trace_tree_iff { files := ["a.json"] } (tracedFile .detail) rfl).1
  exact ⟨recorded, hright.2 (.inl rfl), hrecords⟩

/-- Where the run is recorded and its files are not, the compilation of a file seems to lie in no
span at all, though that of the run is open around it. -/
theorem trace_loses_parent :
    (tracedEvents .phase).map (fun e => (e.name, e.span, e.parent)) =
      [("batch", 1, 0), ("translate", 2, 0), ("generate", 3, 2), ("generate", 3, 2),
       ("materialize", 4, 2), ("materialize", 4, 2), ("translate", 2, 0), ("batch", 1, 0)] ∧
    ¬ ParentsRight 1 (tracedEvents .phase) := by
  refine ⟨by decide +kernel, fun hright => ?_⟩
  -- The second event is the begin of the compilation.
  have hsplit : tracedEvents .phase = (tracedEvents .phase).take 1 ++
      (tracedEvents .phase).getD 1 default :: (tracedEvents .phase).drop 2 := by
    decide +kernel
  have hparent := hright _ _ _ hsplit (by decide +kernel)
  exact absurd hparent (by decide +kernel)

end Batch

end ShaderScript
