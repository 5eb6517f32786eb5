import ShaderScript.Batch.Run
import ShaderScript.Proofs.ArtifactStore
import ShaderScript.Proofs.Outcome

/-!
# Runs with a cache

A cache names artifacts by the style and the bytes of a file.  What a file gives depends on more:
the extension chooses the format, the name of the file appears in the message of an engine that
refuses the script, and the limit cuts the findings.  So a cache may show
(`cache_confuses_formats`).  It does not where files with equal bytes agree on these, as far as they
show: then a sequence of runs that share a cache gives what it gives without one
(`cache_transparent`).

The proof follows the two sequences side by side.  Their trees are alike outside the directory of
the artifacts, and every artifact in it is the one that compiling afresh would give.
-/

namespace ShaderScript

open FileTree

variable {path : String}

/-! ## Compiling does not depend on tracing -/

/-- What a batch takes over from a compilation. -/
def Compilation.findings (c : Compilation) : String × String × List Diagnostic :=
  (c.source, c.diagnostic, c.diagnostics)

theorem compile_findings (options : CompileOptions) (shader : Option Shader) (parent parent' : Nat)
    (t t' : Tracer) :
    (compile options shader parent t).1.map Compilation.findings =
      (compile options shader parent' t').1.map Compilation.findings := by
  unfold compile
  by_cases hcancelled : options.cancelled
  · rw [if_pos hcancelled, if_pos hcancelled]
  · rw [if_neg hcancelled, if_neg hcancelled]
    cases options.engine <|> Engine.ofStyle? options.style with
    | none => rfl
    | some engine =>
      simp only [tracedGenerate]
      -- The tracers differ, but nothing below looks at them.
      cases (generate options.style shader).result with
      | error e => rfl
      | ok script =>
        rcases Bool.eq_false_or_eq_true (DistinctBag.reportAll
            { bag := .ofLimit options.givenLimit }
            (generate options.style shader).reports).bag.hasErrors with herror | herror
        · simp only [herror, if_true]
          rfl
        · simp only [herror, Bool.false_eq_true, if_false]
          cases engine.load options.givenName script with
          | ok program => rfl
          | error failure => cases failure <;> rfl

/-- Only the limit in effect counts. -/
theorem compile_limit (style : Style) (name : String) {limit limit' : Int}
    (h : ({ limit } : CompileOptions).givenLimit =
      ({ limit := limit' } : CompileOptions).givenLimit) (shader : Option Shader) (parent : Nat)
    (t : Tracer) :
    compile { style, name, limit } shader parent t =
      compile { style, name, limit := limit' } shader parent t := by
  have hgiven : ({ style, name, limit } : CompileOptions).givenLimit =
      ({ style, name, limit := limit' } : CompileOptions).givenLimit := h
  unfold compile
  rw [hgiven]
  rfl

/-- Whether a file is taken for MessagePack, by its extension. -/
def Descriptor.isMessagePack (path : String) : Bool :=
  [".msgpack", ".mp"].contains (Text.lowerCase (FilePath.extension path))

theorem Descriptor.ofFile_congr {path' : String} (h : isMessagePack path = isMessagePack path')
    (bytes : List UInt8) : ofFile path bytes = ofFile path' bytes := by
  have hformat : ∀ path, ofFile path bytes =
      if isMessagePack path then ofMessagePack bytes else ofJson (Text.decodeLossy bytes) := by
    intro path
    simp [ofFile, isMessagePack]
  rw [hformat, hformat, h]

namespace Batch

variable {t u : FileTree} {request : Request} {s s' : RunState} {a : Artifact}
  {target : Target}

/-! ## Files as they are read -/

/-- A file that a run reads, with what the run wants of it. -/
structure Reading where
  style : Style
  limit : Int
  path : String
  bytes : List UInt8
  deriving DecidableEq

variable {r : Reading}

namespace Reading

/-- Where the cache keeps what comes of the file. -/
def key (r : Reading) : ArtifactKey := Artifact.key r.style.name r.bytes

/-- What comes of the file if it is compiled. -/
def outcome (r : Reading) : Except Failure Artifact :=
  match Descriptor.ofFile r.path r.bytes with
  | .error e => .error (.decode e)
  | .ok shader =>
    let name := FilePath.base r.path
    match (compile { style := r.style, name, limit := r.limit } (some shader) 0 {}).1 with
    | .error e => .error (.compile e)
    | .ok c => .ok
      { schema := Artifact.currentSchema, style := r.style.name, name, source := c.source,
        diagnostic := c.diagnostic, diagnostics := c.diagnostics }

/-- No message names the file: the engine refuses no script, or its refusal is not kept. -/
def Unnamed (r : Reading) : Prop :=
  ∀ a, r.outcome = .ok a → ∀ d ∈ a.diagnostics, d.code ≠ .compileFailed

/-- The limit cuts nothing: the largest one gives the same. -/
def Uncut (r : Reading) : Prop := { r with limit := Bag.maxCapacity }.outcome = r.outcome

/-- Files that are compiled alike if their bytes are the same.  The name counts where a message
shows it, and the limit where it cuts. -/
structure Akin (r r' : Reading) : Prop where
  style : r.style = r'.style
  format : Descriptor.isMessagePack r.path = Descriptor.isMessagePack r'.path
  name : FilePath.base r.path = FilePath.base r'.path ∨ r.Unnamed
  limit : ({ limit := r.limit } : CompileOptions).givenLimit =
    ({ limit := r'.limit } : CompileOptions).givenLimit ∨ r.Uncut ∧ r'.Uncut

theorem outcome_limit {limit : Int} (h : ({ limit := r.limit } : CompileOptions).givenLimit =
    ({ limit } : CompileOptions).givenLimit) : { r with limit }.outcome = r.outcome := by
  unfold Reading.outcome
  dsimp only
  cases Descriptor.ofFile r.path r.bytes with
  | error e => rfl
  | ok shader =>
    dsimp only
    rw [compile_limit _ _ h]

/-- The same file elsewhere, under a name that does not show or is the same. -/
theorem outcome_path (hformat : Descriptor.isMessagePack r.path = Descriptor.isMessagePack path)
    (hname : FilePath.base r.path = FilePath.base path ∨ r.Unnamed) (ha : r.outcome = .ok a) :
    { r with path }.outcome = .ok { a with name := FilePath.base path } := by
  have hquiet := hname.imp_right fun h => h a ha
  unfold Reading.outcome at ha ⊢
  dsimp only at ha ⊢
  rw [← Descriptor.ofFile_congr hformat]
  cases hdecoded : Descriptor.ofFile r.path r.bytes with
  | error e =>
    rw [hdecoded] at ha
    cases ha
  | ok shader =>
    rw [hdecoded] at ha
    dsimp only at ha ⊢
    -- Both names are compiled; where none shows, the compilations agree.
    have houtcome := @compile_outcome
      { style := r.style, name := FilePath.base r.path, limit := r.limit } rfl (some shader) 0 {}
    have houtcome' := @compile_outcome
      { style := r.style, name := FilePath.base path, limit := r.limit } rfl (some shader) 0 {}
    split at ha
    · cases ha
    · rename_i c hc
      rw [hc] at houtcome
      obtain rfl := Except.ok.inj ha
      rcases hquiet with hbase | hquiet
      · rw [← hbase, hc]
      · obtain ⟨c', hc', hsource, hdiagnostic, hdiagnostics⟩ :=
          houtcome.of_renamed rfl hquiet houtcome'
        simp only [hc', hsource, hdiagnostic, hdiagnostics]

/-- Of files that are akin and have the same bytes the same comes, but for the name. -/
theorem Akin.outcome {r' : Reading} (h : Akin r r') (hbytes : r.bytes = r'.bytes)
    (ha : r.outcome = .ok a) : ∃ name, r'.outcome = .ok { a with name } := by
  obtain ⟨style, limit, path, bytes⟩ := r
  obtain ⟨style', limit', path', bytes'⟩ := r'
  obtain ⟨rfl, hformat, hname, hlimit⟩ := h
  subst hbytes
  refine ⟨FilePath.base path', ?_⟩
  rcases hlimit with hlimit | ⟨hcut, hcut'⟩
  · rw [← outcome_path hformat hname ha]
    exact @outcome_limit ⟨style, limit, path', bytes⟩ _ hlimit
  · -- Under the largest limit the two are only called differently.
    unfold Uncut at hcut hcut'
    have hnamed : FilePath.base path = FilePath.base path' ∨
        (Reading.mk style Bag.maxCapacity path bytes).Unnamed :=
      hname.imp_right fun hquiet b hb => hquiet b (hcut.symm.trans hb)
    rw [← hcut']
    exact @outcome_path path' a ⟨style, Bag.maxCapacity, path, bytes⟩ hformat hnamed (hcut.trans ha)

theorem schema_of_outcome (h : r.outcome = .ok a) : a.schema = Artifact.currentSchema := by
  unfold Reading.outcome at h
  split at h
  · cases h
  · dsimp only at h
    split at h
    · cases h
    · rw [← Except.ok.inj h]

end Reading

/-- The file that a run reads at a path. -/
def Request.reading (request : Request) (path : String) (bytes : List UInt8) : Reading :=
  ⟨request.style, request.limit, path, bytes⟩

/-- Compiling a file in a run gives what comes of it, whatever is traced. -/
theorem translate_eq (request : Request) (target : Target) (span : Nat) (path : String)
    (bytes : List UInt8) (p : Progression) :
    ∃ q : Progression, q.tree = p.tree ∧ q.bag = p.bag ∧
      translate request target span path bytes p =
        match (request.reading path bytes).outcome with
        | .error f => fail q { path } f
        | .ok a =>
          store request.outDir target
            (remember request.cache (request.reading path bytes).key { a with schema := 0 }
              (q.merge a.diagnostics))
            { path, source := a.source, diagnostic := a.diagnostic } := by
  unfold translate Reading.outcome Request.reading
  dsimp only
  cases Descriptor.ofFile path bytes with
  | error e => exact ⟨p, rfl, rfl, rfl⟩
  | ok shader =>
    dsimp only
    generalize ({ style := request.style, name := FilePath.base path, limit := request.limit } :
      CompileOptions) = options
    -- The compilations are traced differently, which their findings do not depend on.
    have hfresh := compile_findings options (some shader) span 0
      (p.tell path .translate .working).tracer {}
    generalize compile options (some shader) span (p.tell path .translate .working).tracer = here
      at hfresh
    generalize compile options (some shader) 0 {} = there at hfresh
    obtain ⟨result, tracer⟩ := here
    obtain ⟨result', tracer'⟩ := there
    refine ⟨{ (p.tell path .translate .working) with tracer }, rfl, rfl, ?_⟩
    cases result with
    | error e =>
      cases result' with
      | error e' =>
        obtain rfl : e = e' := Except.error.inj hfresh
        rfl
      | ok c' => cases hfresh
    | ok c =>
      cases result' with
      | error e' => cases hfresh
      | ok c' =>
        have hfindings : c.findings = c'.findings := Except.ok.inj hfresh
        simp only [Compilation.findings, Prod.mk.injEq] at hfindings
        obtain ⟨hsource, hdiagnostic, hdiagnostics⟩ := hfindings
        simp only [hsource, hdiagnostic, hdiagnostics]
        rfl

/-! ## Handling a file in trees that are alike -/

/-- A result without the mark that it came from the cache. -/
def FileResult.unmarked (r : FileResult) : FileResult := { r with cached := false }

theorem FileResult.eq_of_unmarked {r s : FileResult} (h : r.unmarked = s.unmarked) :
    ∃ cached, r = { s with cached } := by
  cases r
  cases s
  simp only [FileResult.unmarked, FileResult.mk.injEq] at h
  obtain ⟨rfl, rfl, rfl, rfl, -, rfl, rfl, rfl⟩ := h
  exact ⟨_, rfl⟩

/-- Two runs at work on a file: what they found so far is the same, their trees are alike outside a
directory, and nothing in the directory was touched since the first run had the tree `t`. -/
structure Alongside (dir : Place) (t : FileTree) (p q : Progression) : Prop where
  outside : Outside dir p.tree q.tree
  grows : Grows dir t p.tree
  bag : p.bag = q.bag

/-- Two runs that are done with a file.  The results differ at most in the mark. -/
structure Agree (dir : Place) (t : FileTree) (x y : FileResult × Progression) : Prop where
  result : x.1.unmarked = y.1.unmarked
  outside : Outside dir x.2.tree y.2.tree
  grows : Grows dir t x.2.tree

section Agree

variable {dir : Place} {t : FileTree} {p q : Progression} {r s : FileResult}

theorem Alongside.tell (h : Alongside dir t p q) (file file' : String) (stage stage' : Stage)
    (status status' : Status) (failure failure' : Option String) :
    Alongside dir t (p.tell file stage status failure) (q.tell file' stage' status' failure') :=
  ⟨h.outside, h.grows, h.bag⟩

theorem Alongside.report (h : Alongside dir t p q) (d : Diagnostic) :
    Alongside dir t (p.report d) (q.report d) :=
  ⟨h.outside, h.grows, by rw [Progression.report, Progression.report, h.bag]⟩

theorem Alongside.merge (h : Alongside dir t p q) (ds : List Diagnostic) :
    Alongside dir t (p.merge ds) (q.merge ds) :=
  ⟨h.outside, h.grows, by rw [Progression.merge, Progression.merge, h.bag]⟩

theorem Alongside.withTree (h : Alongside dir t p q) {u' : FileTree} (hu : Outside dir u u')
    (hgrows : Grows dir p.tree u) : Alongside dir t { p with tree := u } { q with tree := u' } :=
  ⟨hu, h.grows.trans hgrows, h.bag⟩

theorem Alongside.collect (h : Alongside dir t p q) (hresult : r.unmarked = s.unmarked) :
    Agree dir t (collect p r) (collect q s) := by
  obtain ⟨cached, rfl⟩ := FileResult.eq_of_unmarked hresult
  refine ⟨?_, h.outside, h.grows⟩
  simp only [Batch.collect, FileResult.unmarked, h.bag]

theorem Alongside.fail (h : Alongside dir t p q) (hresult : r.unmarked = s.unmarked) (f : Failure) :
    Agree dir t (fail p r f) (fail q s f) := by
  obtain ⟨cached, rfl⟩ := FileResult.eq_of_unmarked hresult
  exact ((h.report _).tell _ _ _ _ _ _ _ _).collect rfl

theorem Alongside.succeed (h : Alongside dir t p q) (hresult : r.unmarked = s.unmarked) :
    Agree dir t (succeed p r) (succeed q s) :=
  (h.tell _ _ _ _ _ _ _ _).collect hresult

/-- Writing a script to a target that keeps clear of the directory. -/
theorem Alongside.store (h : Alongside dir t p q) (hresult : r.unmarked = s.unmarked)
    {outDir : String}
    (havoid : outDir = "" ∨ p.tree.Avoids dir target.path ∧
      p.tree.Avoids dir (FilePath.dir target.path)) :
    Agree dir t (store outDir target p r) (store outDir target q s) := by
  obtain ⟨cached, rfl⟩ := FileResult.eq_of_unmarked hresult
  unfold Batch.store
  by_cases hskip : (outDir.isEmpty || !s.diagnostic.isEmpty) = true
  · rw [if_pos hskip, if_pos hskip]
    exact h.succeed hresult
  · rw [if_neg hskip, if_neg hskip]
    have hout : outDir ≠ "" := by
      rintro rfl
      exact hskip rfl
    obtain ⟨hpath, hdir⟩ := havoid.resolve_left hout
    have htold := h.tell s.path s.path .store .store .working .working none none
    replace hdir : (p.tell s.path .store .working).tree.Avoids dir (FilePath.dir target.path) := hdir
    replace hpath : (p.tell s.path .store .working).tree.Avoids dir target.path := hpath
    dsimp only
    generalize p.tell s.path .store .working = p' at htold hdir hpath ⊢
    generalize q.tell s.path .store .working = q' at htold ⊢
    by_cases hrivals : (!target.rivals.isEmpty) = true
    · rw [if_pos hrivals, if_pos hrivals]
      exact htold.fail hresult _
    · rw [if_neg hrivals, if_neg hrivals]
      -- Both trees take the same two steps, outside the directory.
      have hmade := htold.outside.makeDirs hdir
      generalize p'.tree.makeDirs (FilePath.dir target.path) = made at hmade ⊢
      generalize q'.tree.makeDirs (FilePath.dir target.path) = made' at hmade ⊢
      cases hmade with
      | error failure => exact htold.fail hresult _
      | @ok u u' hmade hgrown =>
        have hstep := htold.withTree hmade hgrown
        have hwritten := hmade.write (hpath.congr hgrown.workingDir) (Text.bytesOf s.source)
        dsimp only
        generalize u.write target.path (Text.bytesOf s.source) = written at hwritten ⊢
        generalize u'.write target.path (Text.bytesOf s.source) = written' at hwritten ⊢
        cases hwritten with
        | error failure => exact hstep.fail hresult _
        | ok hdone hgrown' => exact (hstep.withTree hdone hgrown').succeed (by rfl)

end Agree

/-! ## Handling a file with a cache and without one -/

/-- The request without its cache. -/
def Request.uncached (request : Request) : Request := { request with cache := none }

/-- The artifacts that come of files, under their keys. -/
def Fresh (readings : List Reading) (key : ArtifactKey) (a : Artifact) : Prop :=
  ∃ r ∈ readings, r.key = key ∧ r.outcome = .ok a

/-- Files that a cache cannot confuse. -/
structure Cacheable (readings : List Reading) : Prop where
  /-- No two digests are the same by chance. -/
  digest : ∀ r ∈ readings, ∀ r' ∈ readings, r.key = r'.key →
    r.style.name = r'.style.name ∧ r.bytes = r'.bytes
  /-- Artifacts read back as they were written. -/
  readable : ∀ r ∈ readings, ∀ a, r.outcome = .ok a → Artifact.ofBytes? a.toBytes = some a
  /-- Equal bytes are compiled alike. -/
  akin : ∀ r ∈ readings, ∀ r' ∈ readings, r.style.name = r'.style.name → r.bytes = r'.bytes →
    r.Akin r'

variable {readings : List Reading} {c : ArtifactCache} {dir : Place}

/-- An artifact found under the key of a file is what comes of the file, but for the name. -/
theorem Cacheable.outcome_eq (h : Cacheable readings) (hr : r ∈ readings)
    (ha : Fresh readings r.key a) : ∃ name, r.outcome = .ok { a with name } := by
  obtain ⟨r', hr', hkey, houtcome⟩ := ha
  obtain ⟨hstyle, hbytes⟩ := h.digest r' hr' r hr hkey
  exact (h.akin r' hr' r hr hstyle hbytes).outcome hbytes houtcome

theorem Cacheable.readable_of_fresh (h : Cacheable readings) {key : ArtifactKey}
    (ha : Fresh readings key a) :
    Artifact.ofBytes? a.toBytes = some a ∧ a.schema = Artifact.currentSchema := by
  obtain ⟨r, hr, -, houtcome⟩ := ha
  exact ⟨h.readable r hr a houtcome, Reading.schema_of_outcome houtcome⟩

/-- A file was handled with a cache and without one, beginning with the tree `t` where there is a
cache.  The cache is still in order. -/
structure Matches (c : ArtifactCache) (dir : Place) (readings : List Reading) (t : FileTree)
    (x y : FileResult × Progression) : Prop where
  result : x.1.unmarked = y.1.unmarked
  outside : Outside dir x.2.tree y.2.tree
  stores : c.Stores dir (Fresh readings) x.2.tree
  workingDir : x.2.tree.workingDir = t.workingDir

theorem Agree.matches {x y : FileResult × Progression} (h : Agree dir u x y)
    (hstores : c.Stores dir (Fresh readings) u) (hdir : u.workingDir = t.workingDir) :
    Matches c dir readings t x y :=
  ⟨h.result, h.outside, hstores.grows h.grows, h.grows.workingDir.trans hdir⟩

/-- The targets of a request keep clear of a directory. -/
def Target.Clear (dir : Place) (t : FileTree) (outDir : String) (target : Target) : Prop :=
  outDir = "" ∨ t.Avoids dir target.path ∧ t.Avoids dir (FilePath.dir target.path)

instance (t : FileTree) (outDir : String) (target : Target) :
    Decidable (target.Clear dir t outDir) :=
  inferInstanceAs (Decidable (outDir = "" ∨ t.Avoids dir target.path ∧
    t.Avoids dir (FilePath.dir target.path)))

theorem Target.Clear.congr {outDir : String} (h : target.Clear dir t outDir)
    (hu : u.workingDir = t.workingDir) : target.Clear dir u outDir :=
  h.imp_right fun ⟨hpath, hdir⟩ => ⟨hpath.congr hu, hdir.congr hu⟩

/-- Keeping what came of a file. -/
theorem remember_stores {p : Progression} (hstores : c.Stores dir (Fresh readings) p.tree)
    (hr : r ∈ readings) (ha : r.outcome = .ok a) :
    ∃ u, remember (some c) r.key { a with schema := 0 } p = { p with tree := u } ∧
      c.Stores dir (Fresh readings) u ∧ Outside dir u p.tree := by
  have hkept : Fresh readings r.key
      { { a with schema := 0 } with schema := Artifact.currentSchema } := by
    refine ⟨r, hr, rfl, ?_⟩
    rw [ha, ← Reading.schema_of_outcome ha]
  have hnamed : r.key.Named := Artifact.named_key _ _
  generalize r.key = key at hkept hnamed
  obtain ⟨u, hput, hstores', houtside⟩ := hstores.put hnamed (a := { a with schema := 0 }) hkept
  refine ⟨u, ?_, hstores', houtside⟩
  unfold remember
  dsimp only
  rw [hput]

/-- A file is handled with a cache as it is without one. -/
theorem handle_matches (hreadings : Cacheable readings) (hcache : request.cache = some c)
    {bytes : List UInt8} (hread : request.reading path bytes ∈ readings) {p q : Progression}
    (houtside : Outside dir p.tree q.tree) (hbag : p.bag = q.bag)
    (hstores : c.Stores dir (Fresh readings) p.tree)
    (hclear : target.Clear dir p.tree request.outDir) (span span' : Nat) :
    Matches c dir readings p.tree (handle request target span path bytes p)
      (handle request.uncached target span' path bytes q) := by
  have hnamed : (request.reading path bytes).key.Named := Artifact.named_key _ _
  obtain ⟨p', hptree, hpbag, hp⟩ := translate_eq request target span path bytes p
  obtain ⟨q', hqtree, hqbag, hq⟩ := translate_eq request.uncached target span' path bytes q
  have hbase : Alongside dir p.tree p' q' :=
    ⟨by rw [hptree, hqtree]; exact houtside, by rw [hptree]; exact .refl dir p.tree,
      by rw [hpbag, hqbag, hbag]⟩
  have hnone : handle request.uncached target span' path bytes q =
      translate request.uncached target span' path bytes q := rfl
  have hsame : request.uncached.reading path bytes = request.reading path bytes := rfl
  have hkey : Artifact.key request.style.name bytes = (request.reading path bytes).key := rfl
  rw [hnone, hq, hsame]
  rcases hstores.get hnamed fun a => hreadings.readable_of_fresh with hmiss | ⟨a, hfresh, hhit⟩
  · -- Nothing is found: both compile, and one keeps what came of it.
    have hlookUp : lookUp request.cache (request.reading path bytes).key p = (none, p) := by
      rw [hcache, lookUp, hmiss]
    have hhandle : handle request target span path bytes p =
        translate request target span path bytes p := by
      unfold handle
      rw [hkey, hlookUp]
    rw [hhandle, hp]
    cases houtcome : (request.reading path bytes).outcome with
    | error f => exact (hbase.fail (by rfl) f).matches hstores rfl
    | ok a =>
      have hthere : c.Stores dir (Fresh readings) (p'.merge a.diagnostics).tree := hptree ▸ hstores
      obtain ⟨u, hremember, hstores', hout⟩ := remember_stores hthere hread houtcome
      have hmerged := hbase.merge a.diagnostics
      have hafter : Alongside dir u { p'.merge a.diagnostics with tree := u }
          (q'.merge a.diagnostics) := ⟨hout.trans hmerged.outside, .refl dir u, hmerged.bag⟩
      have hdir : u.workingDir = p.tree.workingDir := hout.workingDir.trans (congrArg _ hptree)
      rw [hcache]
      dsimp only
      rw [hremember]
      exact (hafter.store (by rfl) (hclear.congr hdir)).matches hstores' hdir
  · -- Something is found, and it is what compiling gives.
    obtain ⟨name, houtcome⟩ := hreadings.outcome_eq hread hfresh
    have hlookUp : lookUp request.cache (request.reading path bytes).key p = (some a, p) := by
      rw [hcache, lookUp, hhit]
    have hfound : Alongside dir p.tree ((p.merge a.diagnostics).tell path .translate .cached)
        (q'.merge a.diagnostics) := by
      refine ⟨hptree ▸ hbase.outside, .refl dir p.tree, ?_⟩
      show (p.merge a.diagnostics).bag = (q'.merge a.diagnostics).bag
      rw [Progression.merge, Progression.merge, hqbag, hbag]
    have hhandle : handle request target span path bytes p =
        store request.outDir target ((p.merge a.diagnostics).tell path .translate .cached)
          { path, source := a.source, diagnostic := a.diagnostic, cached := true } := by
      unfold handle
      rw [hkey, hlookUp]
    rw [houtcome, hhandle]
    exact (hfound.store (by rfl) hclear).matches hstores rfl

/-- Tracing apart, a file is loaded and then handled with an empty bag. -/
theorem processFile_eq (request : Request) (target : Target) (parent : Nat) (path : String)
    (t : FileTree) (tracer : Tracer) :
    ∃ (p : Progression) (span : Nat) (finish : Tracer → Tracer), p.tree = t ∧
      p.bag = .ofLimit (if request.limit ≤ 0 then 256 else request.limit) ∧
      processFile request target parent path t tracer =
        let done :=
          match t.read path with
          | .error e => fail p { path } (.load path e)
          | .ok bytes => handle request target span path bytes p
        (done.1, { done.2 with tracer := finish done.2.tracer }) :=
  ⟨_, _, fun tracer' => tracer'.finish (tracer.begin .unit (FilePath.base path) parent).1,
    rfl, rfl, rfl⟩

theorem processFile_matches (hreadings : Cacheable readings) (hcache : request.cache = some c)
    {t' : FileTree} (houtside : Outside dir t t') (hstores : c.Stores dir (Fresh readings) t)
    (hpath : t.Avoids dir path) (hclear : target.Clear dir t request.outDir)
    (hread : ∀ bytes, t'.read path = .ok bytes → request.reading path bytes ∈ readings)
    (parent parent' : Nat) (tracer tracer' : Tracer) :
    Matches c dir readings t (processFile request target parent path t tracer)
      (processFile request.uncached target parent' path t' tracer') := by
  obtain ⟨p, span, finish, rfl, hpbag, hp⟩ := processFile_eq request target parent path t tracer
  obtain ⟨q, span', finish', rfl, hqbag, hq⟩ :=
    processFile_eq request.uncached target parent' path t' tracer'
  have hbag : p.bag = q.bag := hpbag.trans hqbag.symm
  rw [hp, hq, ← houtside.read hpath]
  rw [← houtside.read hpath] at hread
  cases hbytes : p.tree.read path with
  | error e =>
    have hstart : Alongside dir p.tree p q := ⟨houtside, .refl dir p.tree, hbag⟩
    obtain ⟨hresult, hout, hgrows⟩ := hstart.fail (r := { path }) rfl (.load path e)
    exact ⟨hresult, hout, hstores.grows hgrows, hgrows.workingDir⟩
  | ok bytes =>
    have hhandled := handle_matches hreadings hcache (hread bytes hbytes) houtside hbag hstores hclear
      span span'
    dsimp only
    generalize handle request target span path bytes p = done at hhandled ⊢
    generalize handle request.uncached target span' path bytes q = done' at hhandled ⊢
    exact ⟨hhandled.result, hhandled.outside, hhandled.stores, hhandled.workingDir⟩

/-! ## Whole runs -/

/-- The files that a run reads, in order. -/
def readsOf (request : Request) (parent : Nat) : List (String × Target) → RunState → List Reading
  | [], _ => []
  | (path, target) :: rest, s =>
    (match s.tree.read path with
      | .ok bytes => [request.reading path bytes]
      | .error _ => []) ++
      readsOf request parent rest (processAll request parent [(path, target)] s).2

/-- A run with a cache and one without it, between files. -/
structure InStep (c : ArtifactCache) (dir : Place) (readings : List Reading) (t : FileTree)
    (s s' : RunState) : Prop where
  outside : Outside dir s.tree s'.tree
  stores : c.Stores dir (Fresh readings) s.tree
  workingDir : s.tree.workingDir = t.workingDir

theorem processAll_matches (hreadings : Cacheable readings) (hcache : request.cache = some c)
    (work : List (String × Target))
    (hwork : ∀ path target, (path, target) ∈ work → t.Avoids dir path ∧
      target.Clear dir t request.outDir) (h : InStep c dir readings t s s') (parent parent' : Nat)
    (hread : ∀ r ∈ readsOf request.uncached parent' work s', r ∈ readings) :
    (processAll request parent work s).1.map FileResult.unmarked =
        (processAll request.uncached parent' work s').1.map FileResult.unmarked ∧
      InStep c dir readings t (processAll request parent work s).2
        (processAll request.uncached parent' work s').2 := by
  induction work generalizing s s' with
  | nil => exact ⟨rfl, h⟩
  | cons file rest ih =>
    obtain ⟨path, target⟩ := file
    obtain ⟨hpath, hclear⟩ := hwork path target List.mem_cons_self
    have hfirst : ∀ bytes, s'.tree.read path = .ok bytes →
        request.reading path bytes ∈ readings := by
      intro bytes hbytes
      apply hread
      rw [readsOf, hbytes]
      exact List.mem_append_left _ List.mem_cons_self
    have hfile := processFile_matches hreadings hcache h.outside h.stores
      (hpath.congr h.workingDir) (hclear.congr h.workingDir) hfirst parent parent' s.tracer s'.tracer
    -- One file leaves the runs in step, and the rest is read from there.
    have hnext : InStep c dir readings t (processAll request parent [(path, target)] s).2
        (processAll request.uncached parent' [(path, target)] s').2 :=
      ⟨hfile.outside, hfile.stores, hfile.workingDir.trans h.workingDir⟩
    obtain ⟨hresults, hafter⟩ := ih (fun path target hmem => hwork path target (.tail _ hmem)) hnext
      fun r hr => hread r (by rw [readsOf]; exact List.mem_append_right _ hr)
    refine ⟨?_, hafter⟩
    show (processFile request target parent path s.tree s.tracer).1.unmarked :: _ = _ :: _
    rw [hfile.result]
    exact congrArg _ hresults

/-- A request whose paths keep clear of a directory. -/
structure Request.Clear (dir : Place) (t : FileTree) (request : Request) : Prop where
  files : ∀ path ∈ request.files, t.Avoids dir path
  outDir : request.outDir = "" ∨ t.Avoids dir request.outDir
  targets : ∀ target ∈ request.targets, target.Clear dir t request.outDir

/-- The tree with the directory for scripts. -/
def Request.withOutDir (request : Request) (t : FileTree) : Except FileFailure FileTree :=
  if request.outDir.isEmpty then .ok t else t.makeDirs request.outDir

/-- The span of a run, and the state in which it takes its first file. -/
def Request.begun (request : Request) (s : RunState) (tree : FileTree) : Span × RunState :=
  let (span, tracer) := s.tracer.begin .driver "batch" 0
  let span := (span.withExtra "files" (natText request.files.length)).withExtra "style"
    request.style.name
  let queued := request.files.map fun file : String =>
    { file, stage := .load, status := .queued : BatchEvent }
  (span, { s with tree, tracer, events := s.events ++ queued })

theorem run_eq (request : Request) (s : RunState) :
    run request s =
      if request.files.isEmpty then (.ok [], s)
      else
        match request.withOutDir s.tree with
        | .error e => (.error (.outDir e), s)
        | .ok tree =>
          let (span, s) := request.begun s tree
          if request.cancelled then (.error .cancelled, { s with tracer := s.tracer.finish span })
          else
            let (results, s) := processAll request span.id (request.files.zip request.targets) s
            (.ok results, { s with tracer := s.tracer.finish span }) := rfl

/-- The files that a run reads. -/
def Request.reads (request : Request) (s : RunState) : List Reading :=
  if request.files.isEmpty || request.cancelled then []
  else
    match request.withOutDir s.tree with
    | .error _ => []
    | .ok tree =>
      let (span, s) := request.begun s tree
      readsOf request span.id (request.files.zip request.targets) s

theorem InStep.grow {u' : FileTree} (h : InStep c dir readings t s s') (hu : Outside dir u u')
    (hgrows : Grows dir s.tree u) (request request' : Request) :
    InStep c dir readings t (request.begun s u).2 (request'.begun s' u').2 :=
  ⟨hu, h.stores.grows hgrows, hgrows.workingDir.trans h.workingDir⟩

/-- The results of a run without the marks of the cache. -/
def unmarked (outcome : Except RunError (List FileResult)) : Except RunError (List FileResult) :=
  outcome.map (List.map FileResult.unmarked)

theorem withOutDir_sameEnd (hclear : request.Clear dir t) (h : InStep c dir readings t s s') :
    SameEnd dir s.tree (request.withOutDir s.tree) (request.uncached.withOutDir s'.tree) := by
  have hsame : request.uncached.withOutDir s'.tree = request.withOutDir s'.tree := rfl
  rw [hsame, Request.withOutDir, Request.withOutDir]
  by_cases hout : request.outDir.isEmpty = true
  · rw [if_pos hout, if_pos hout]
    exact .ok h.outside (.refl dir s.tree)
  · rw [if_neg hout, if_neg hout]
    have hne : request.outDir ≠ "" := fun hempty => hout (by rw [hempty]; rfl)
    exact h.outside.makeDirs ((hclear.outDir.resolve_left hne).congr h.workingDir)

/-- A run with a cache gives what it gives without one. -/
theorem run_matches (hreadings : Cacheable readings) (hcache : request.cache = some c)
    (hclear : request.Clear dir t) (h : InStep c dir readings t s s')
    (hread : ∀ r ∈ request.uncached.reads s', r ∈ readings) :
    unmarked (run request s).1 = unmarked (run request.uncached s').1 ∧
      InStep c dir readings t (run request s).2 (run request.uncached s').2 := by
  have hmade := withOutDir_sameEnd hclear h
  rw [run_eq, run_eq]
  unfold Request.reads at hread
  by_cases hfiles : request.files.isEmpty = true
  · rw [if_pos hfiles, if_pos (show request.uncached.files.isEmpty = true from hfiles)]
    exact ⟨rfl, h⟩
  · rw [if_neg hfiles, if_neg (show ¬ request.uncached.files.isEmpty = true from hfiles)]
    generalize request.withOutDir s.tree = made at hmade ⊢
    generalize request.uncached.withOutDir s'.tree = made' at hmade hread ⊢
    cases hmade with
    | error failure => exact ⟨rfl, h⟩
    | @ok u u' hu hgrows =>
      -- The output directory is made in both trees, outside of the cache.
      have hbegun := h.grow hu hgrows request request.uncached
      dsimp only
      by_cases hcancelled : request.cancelled = true
      · rw [if_pos hcancelled, if_pos (show request.uncached.cancelled = true from hcancelled)]
        exact ⟨rfl, hbegun.outside, hbegun.stores, hbegun.workingDir⟩
      · rw [if_neg hcancelled,
          if_neg (show ¬ request.uncached.cancelled = true from hcancelled)]
        have hsome : ¬ (request.uncached.files.isEmpty || request.uncached.cancelled) = true := by
          rw [Bool.or_eq_true, not_or]
          exact ⟨hfiles, hcancelled⟩
        rw [if_neg hsome] at hread
        have hwork : ∀ path target, (path, target) ∈ request.files.zip request.targets →
            t.Avoids dir path ∧ target.Clear dir t request.outDir := by
          intro path target hmem
          obtain ⟨hpath, htarget⟩ := List.of_mem_zip hmem
          exact ⟨hclear.files path hpath, hclear.targets target htarget⟩
        obtain ⟨hresults, hafter⟩ := processAll_matches hreadings hcache _ hwork hbegun
          (request.begun s u).1.id (request.uncached.begun s' u').1.id hread
        exact ⟨congrArg Except.ok hresults, hafter.outside, hafter.stores, hafter.workingDir⟩

/-- Runs one after the other, each in the state that the one before left. -/
def runAll : List Request → RunState → List (Except RunError (List FileResult)) × RunState
  | [], s => ([], s)
  | request :: rest, s =>
    let (outcome, s) := run request s
    let (outcomes, s) := runAll rest s
    (outcome :: outcomes, s)

/-- The files that runs read. -/
def readsAll : List Request → RunState → List Reading
  | [], _ => []
  | request :: rest, s => request.reads s ++ readsAll rest (run request s).2

theorem runAll_matches (hreadings : Cacheable readings) (requests : List Request)
    (hcache : ∀ request ∈ requests, request.cache = some c)
    (hclear : ∀ request ∈ requests, request.Clear dir t) (h : InStep c dir readings t s s')
    (hread : ∀ r ∈ readsAll (requests.map Request.uncached) s', r ∈ readings) :
    (runAll requests s).1.map unmarked =
      (runAll (requests.map Request.uncached) s').1.map unmarked := by
  induction requests generalizing s s' with
  | nil => rfl
  | cons request rest ih =>
    rw [List.forall_mem_cons] at hcache hclear
    rw [List.map_cons, readsAll, List.forall_mem_append] at hread
    obtain ⟨houtcome, hafter⟩ := run_matches hreadings hcache.1 hclear.1 h hread.1
    have hrest := ih hcache.2 hclear.2 hafter hread.2
    show unmarked (run request s).1 :: _ = unmarked (run request.uncached s').1 :: _
    rw [houtcome]
    exact congrArg _ hrest

/-- A cache is transparent to files that it cannot confuse.  Requests share a cache that has no
artifacts yet, and none of their paths goes through its directory for artifacts.  Among the files
that are read, digests are equal only for equal styles and bytes, and artifacts read back as they
were written.  If, moreover, files with the same style and bytes have the same format, the same name
where a message shows it, and the same limit where one cuts, then running the requests gives the
results that it gives without a cache; only the mark that a result came from the cache differs. -/
theorem cache_transparent {c : ArtifactCache} {dir : Place} (requests : List Request) (s : RunState)
    (hcache : ∀ request ∈ requests, request.cache = some c)
    (hdir : s.tree.resolve c.artifactsDir = .ok dir)
    (hempty : ∀ place, dir <+: place → s.tree.find? place = none)
    (hclear : ∀ request ∈ requests, request.Clear dir s.tree)
    (hdigest : ∀ r ∈ readsAll (requests.map Request.uncached) s,
      ∀ r' ∈ readsAll (requests.map Request.uncached) s, r.key = r'.key →
        r.style.name = r'.style.name ∧ r.bytes = r'.bytes)
    (hreadable : ∀ r ∈ readsAll (requests.map Request.uncached) s,
      ∀ a, r.outcome = .ok a → Artifact.ofBytes? a.toBytes = some a)
    (hakin : ∀ r ∈ readsAll (requests.map Request.uncached) s,
      ∀ r' ∈ readsAll (requests.map Request.uncached) s,
        r.style.name = r'.style.name → r.bytes = r'.bytes → r.Akin r') :
    (runAll requests s).1.map unmarked =
      (runAll (requests.map Request.uncached) s).1.map unmarked := by
  have hstart : InStep c dir (readsAll (requests.map Request.uncached) s) s.tree s s := by
    refine ⟨.refl dir s.tree, ⟨hdir, .inl (hempty dir List.prefix_rfl), fun key => .inl ?_⟩, rfl⟩
    exact hempty _ (List.prefix_append dir _)
  exact runAll_matches ⟨hdigest, hreadable, hakin⟩ requests hcache hclear hstart fun r hr => hr

/-- The bytes of a shader without functions, in JSON. -/
def blankBytes : List UInt8 := Text.bytesOf "\x7b\"ast\":\x7b\"type\":\"Program\"\x7d\x7d"

/-- Three copies of a file, two of them under one name, and a directory for a cache. -/
def copies : RunState where
  tree :=
    { entries :=
        [(["x"], .directory), (["x", "a.json"], .file blankBytes), (["y"], .directory),
         (["y", "a.json"], .file blankBytes), (["y", "b.json"], .file blankBytes),
         (["cache"], .directory)] }
  tracer := {}

/-- A run over the copies under one name that writes their scripts. -/
def copiesRequest : Request where
  files := ["x/a.json", "y/a.json"]
  cache := some ⟨"cache"⟩
  outDir := "out"

/-- A run over the third copy, under another limit. -/
def renamedRequest : Request := { copiesRequest with files := ["y/b.json"], limit := 5 }

/-- All three copies. -/
def copyPaths : List String := ["x/a.json", "y/a.json", "y/b.json"]

/-- What comes of each copy. -/
def copiesArtifact (path : String) : Artifact where
  schema := 1
  style := "js"
  name := FilePath.base path
  source := "function(GLSL, env) \x7b\n\n    var RT = GLSL.Runtime;\n\n\n    V_main();\n\x7d\n"

/-- The second copy is taken from the cache, and nothing shows it; nor does it show that the third
copy has another name and is read under another limit. -/
theorem cache_transparent_copies :
    (run copiesRequest copies).1.toOption.map (List.map (·.cached)) = some [false, true] ∧
      (runAll [copiesRequest, renamedRequest] copies).1.map unmarked =
        (runAll ([copiesRequest, renamedRequest].map Request.uncached) copies).1.map unmarked := by
  have hread : ∀ r ∈ readsAll ([copiesRequest, renamedRequest].map Request.uncached) copies,
      ∃ limit ∈ [0, 5], ∃ path ∈ copyPaths,
        r = ⟨.javaScript, limit, path, blankBytes⟩ := by decide +kernel
  have hcompiled : ∀ limit ∈ [0, 5, (Bag.maxCapacity : Int)], ∀ path ∈ copyPaths,
      (Reading.mk .javaScript limit path blankBytes).outcome.toOption =
        some (copiesArtifact path) := by
    decide +kernel
  have houtcome : ∀ limit ∈ [0, 5, (Bag.maxCapacity : Int)], ∀ path ∈ copyPaths,
      (Reading.mk .javaScript limit path blankBytes).outcome = .ok (copiesArtifact path) := by
    intro limit hlimit path hpath
    have hsome := hcompiled limit hlimit path hpath
    generalize (Reading.mk .javaScript limit path blankBytes).outcome = result at hsome
    cases result with
    | error f => cases hsome
    | ok a => rw [Option.some.inj hsome]
  have hlimits : ∀ limit ∈ [0, 5], limit ∈ [0, 5, (Bag.maxCapacity : Int)] := by decide
  have hformat : ∀ path ∈ copyPaths, Descriptor.isMessagePack path = false := by
    decide +kernel
  have hwritten : ∀ path ∈ copyPaths,
      Artifact.ofBytes? (copiesArtifact path).toBytes = some (copiesArtifact path) := by
    decide +kernel
  have hclear : copiesRequest.Clear ["cache", "artifacts"] copies.tree ∧
      renamedRequest.Clear ["cache", "artifacts"] copies.tree := by
    constructor <;> constructor <;> decide +kernel
  have hdir : copies.tree.resolve (ArtifactCache.artifactsDir ⟨"cache"⟩) =
      .ok ["cache", "artifacts"] := by decide +kernel
  have hcached : (run copiesRequest copies).1.toOption.map (List.map (·.cached)) =
      some [false, true] := by decide +kernel
  refine ⟨hcached, cache_transparent [copiesRequest, renamedRequest] copies
    (by simp [copiesRequest, renamedRequest]) hdir ?_ (by simpa using hclear) ?_ ?_ ?_⟩
  · rintro place ⟨rest, rfl⟩
    rfl
  · intro r hr r' hr' _
    obtain ⟨limit, -, path, -, rfl⟩ := hread r hr
    obtain ⟨limit', -, path', -, rfl⟩ := hread r' hr'
    exact ⟨rfl, rfl⟩
  · intro r hr a ha
    obtain ⟨limit, hlimit, path, hpath, rfl⟩ := hread r hr
    rw [houtcome limit (hlimits limit hlimit) path hpath] at ha
    rw [← Except.ok.inj ha]
    exact hwritten path hpath
  · -- The names and the limits differ, but there is nothing to name and nothing to cut.
    have huncut : ∀ limit ∈ [0, 5], ∀ path ∈ copyPaths,
        (Reading.mk .javaScript limit path blankBytes).Uncut := fun limit hlimit path hpath =>
      (houtcome _ (by simp) path hpath).trans (houtcome limit (hlimits limit hlimit) path hpath).symm
    intro r hr r' hr' _ _
    obtain ⟨limit, hlimit, path, hpath, rfl⟩ := hread r hr
    obtain ⟨limit', hlimit', path', hpath', rfl⟩ := hread r' hr'
    refine ⟨rfl, (hformat path hpath).trans (hformat path' hpath').symm, .inr ?_,
      .inr ⟨huncut limit hlimit path hpath, huncut limit' hlimit' path' hpath'⟩⟩
    intro a ha d hd
    rw [houtcome limit (hlimits limit hlimit) path hpath] at ha
    rw [← Except.ok.inj ha] at hd
    cases hd

/-- Two files with the same bytes, of which one is named as MessagePack, and a directory for a
cache. -/
def twins : RunState where
  tree :=
    { entries :=
        [(["a.json"], .file blankBytes), (["a.mp"], .file blankBytes), (["cache"], .directory)] }
  tracer := {}

/-- A cache shows where equal bytes are read in different formats: the second file is no descriptor,
but it is given the script of the first. -/
theorem cache_confuses_formats :
    let request : Request := { files := ["a.json", "a.mp"], cache := some ⟨"cache"⟩ }
    (run request twins).1.toOption.map (List.map (·.failure.isSome)) = some [false, false] ∧
      (run request.uncached twins).1.toOption.map (List.map (·.failure.isSome)) =
        some [false, true] := by
  decide +kernel

end Batch

end ShaderScript
