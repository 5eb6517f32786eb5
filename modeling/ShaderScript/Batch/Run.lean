import ShaderScript.Artifact
import ShaderScript.Batch.Event
import ShaderScript.Batch.Target
import ShaderScript.Compile
import ShaderScript.Syntax.Descriptor
import ShaderScript.Timing

/-!
# Batch runs

A batch run takes shader files one by one: it loads each, compiles it or takes the artifact from the
cache, and writes the script.  What goes wrong with one file is kept in its result and does not
touch the others.
-/

namespace ShaderScript

namespace Batch

/-- What to run. -/
structure Request where
  files : List String
  style : Style := .javaScript
  /-- How many diagnostics a file may have; 256 unless positive. -/
  limit : Int := 0
  cache : Option ArtifactCache := none
  /-- Where scripts go, if they are wanted. -/
  outDir : String := ""
  /-- The directory that the files come from; if empty, the deepest one that holds them. -/
  root : String := ""
  /-- Whether the work was called off before it began. -/
  cancelled : Bool := false

/-- Why a file failed. -/
inductive Failure
  | load (path : String) (failure : FileFailure)
  | decode (error : Descriptor.FileError)
  | compile (error : CompileError)
  | conflict (target : Target)
  | write (path : String) (failure : FileFailure)

namespace Failure

def message : Failure → String
  | load path failure => "load " ++ path ++ ": " ++ failure.message
  | decode .notJson => "malformed JSON"
  | decode .notMessagePack => "malformed MessagePack"
  | decode (.decode error) => error.message
  | compile error => error.message
  | conflict target => target.conflict
  | write path failure => "write " ++ path ++ ": " ++ failure.message

def code : Failure → Code
  | load .. => .loadError
  | decode _ => .decodeError
  | compile _ => .unsupportedNode
  | conflict _ => .outputConflict
  | write .. => .writeError

def stage : Failure → Stage
  | load .. => .load
  | decode _ => .load
  | compile _ => .translate
  | conflict _ => .store
  | write .. => .store

end Failure

/-- What came of one file. -/
structure FileResult where
  path : String
  source : String := ""
  diagnostic : String := ""
  diagnostics : List Diagnostic := []
  cached : Bool := false
  warned : Bool := false
  output : String := ""
  failure : Option Failure := none

namespace FileResult

/-- Whether there is a script, and it loads. -/
def isOk (r : FileResult) : Bool := r.failure.isNone && r.diagnostic.isEmpty

/-- What the timings say about the file. -/
def note (r : FileResult) : String :=
  if r.failure.isSome then "error"
  else if r.cached then "cached"
  else if !r.diagnostic.isEmpty then "soft failure"
  else ""

end FileResult

/-- The state of a run while it handles a file. -/
structure Progression where
  tree : FileTree
  tracer : Tracer
  bag : Bag
  events : List BatchEvent := []

namespace Progression

/-- Tells about a file. -/
def tell (p : Progression) (file : String) (stage : Stage) (status : Status)
    (failure : Option String := none) : Progression :=
  { p with events := p.events ++ [{ file, stage, status, failure }] }

/-- Reports a finding. -/
def report (p : Progression) (d : Diagnostic) : Progression := { p with bag := p.bag.add d }

/-- Takes over findings from elsewhere. -/
def merge (p : Progression) (ds : List Diagnostic) : Progression :=
  { p with bag := p.bag.merge ((Bag.ofLimit ds.length).addAll ds) }

/-- Warns about the cache. -/
def warn (p : Progression) (e : CacheError) : Progression :=
  p.report (.warning .cacheError .unknown e.message)

end Progression

/-- The result with all findings, without repeats. -/
def collect (p : Progression) (r : FileResult) : FileResult × Progression :=
  let p := { p with bag := p.bag.dedup }
  ({ r with diagnostics := p.bag.items, warned := p.bag.hasWarnings }, p)

/-- The result of a failure. -/
def fail (p : Progression) (r : FileResult) (f : Failure) : FileResult × Progression :=
  let p := p.report (.error f.code .unknown f.message)
  collect (p.tell r.path f.stage .error (some f.message)) { r with failure := some f }

/-- The result of a file that was compiled, or whose script did not load. -/
def succeed (p : Progression) (r : FileResult) : FileResult × Progression :=
  let status : Status :=
    if !r.diagnostic.isEmpty then .error else if r.cached then .cached else .done
  collect (p.tell r.path .translate status) r

def store (outDir : String) (target : Target) (p : Progression) (r : FileResult) :
    FileResult × Progression :=
  if outDir.isEmpty || !r.diagnostic.isEmpty then succeed p r
  else
    let p := p.tell r.path .store .working
    if !target.rivals.isEmpty then fail p r (.conflict target)
    else
      match p.tree.makeDirs (FilePath.dir target.path) with
      | .error e => fail p r (.write target.path e)
      | .ok tree =>
        let p := { p with tree }
        match tree.write target.path (Text.bytesOf r.source) with
        | .error e => fail p r (.write target.path e)
        | .ok tree => succeed { p with tree } { r with output := target.path }

def lookUp (cache : Option ArtifactCache) (key : ArtifactKey) (p : Progression) :
    Option Artifact × Progression :=
  match cache with
  | none => (none, p)
  | some c =>
    match c.get p.tree key with
    | .ok found => (found, p)
    | .error e => (none, p.warn e)

def remember (cache : Option ArtifactCache) (key : ArtifactKey) (a : Artifact) (p : Progression) :
    Progression :=
  match cache with
  | none => p
  | some c =>
    match c.put p.tree key a with
    | .ok tree => { p with tree }
    | .error e => p.warn e

def translate (request : Request) (target : Target) (span : Nat) (path : String)
    (bytes : List UInt8) (p : Progression) : FileResult × Progression :=
  let r : FileResult := { path }
  match Descriptor.ofFile path bytes with
  | .error e => fail p r (.decode e)
  | .ok shader =>
    let p := p.tell path .translate .working
    let name := FilePath.base path
    let (result, tracer) :=
      compile { style := request.style, name, limit := request.limit } (some shader) span p.tracer
    let p := { p with tracer }
    match result with
    | .error e => fail p r (.compile e)
    | .ok c =>
      let p := p.merge c.diagnostics
      let p := remember request.cache (Artifact.key request.style.name bytes)
        { style := request.style.name, name, source := c.source, diagnostic := c.diagnostic,
          diagnostics := c.diagnostics } p
      store request.outDir target p { r with source := c.source, diagnostic := c.diagnostic }

/-- Handles the bytes of a file: from the cache, or afresh. -/
def handle (request : Request) (target : Target) (span : Nat) (path : String) (bytes : List UInt8)
    (p : Progression) : FileResult × Progression :=
  match lookUp request.cache (Artifact.key request.style.name bytes) p with
  | (some a, p) =>
    let p := (p.merge a.diagnostics).tell path .translate .cached
    store request.outDir target p
      { path, source := a.source, diagnostic := a.diagnostic, cached := true }
  | (none, p) => translate request target span path bytes p

/-- Handles one file under a span of its own. -/
def processFile (request : Request) (target : Target) (parent : Nat) (path : String)
    (tree : FileTree) (tracer : Tracer) : FileResult × Progression :=
  let (unit, tracer) := tracer.begin .unit (FilePath.base path) parent
  let limit := if request.limit ≤ 0 then 256 else request.limit
  let p : Progression := { tree, tracer, bag := .ofLimit limit }
  let p := p.tell path .load .working
  let (result, p) :=
    match tree.read path with
    | .error e => fail p { path } (.load path e)
    | .ok bytes => handle request target unit.id path bytes p
  (result, { p with tracer := p.tracer.finish unit })

/-- The state of a whole run. -/
structure RunState where
  tree : FileTree
  tracer : Tracer
  timing : Timing := {}
  events : List BatchEvent := []

def processAll (request : Request) (parent : Nat) :
    List (String × Target) → RunState → List FileResult × RunState
  | [], s => ([], s)
  | (path, target) :: rest, s =>
    let (result, p) := processFile request target parent path s.tree s.tracer
    let s : RunState :=
      { tree := p.tree, tracer := p.tracer, timing := s.timing.record path 0 result.note,
        events := s.events ++ p.events }
    let (results, s) := processAll request parent rest s
    (result :: results, s)

/-- Why there was no run. -/
inductive RunError
  | outDir (failure : FileFailure)
  | cancelled
  deriving Repr, DecidableEq

/-- The text for a run that did not happen. -/
def RunError.message : RunError → String
  | outDir failure => "batch: " ++ failure.message
  | cancelled => "context canceled"

/-- The targets of a request; without a directory for scripts there are none. -/
def Request.targets (request : Request) : List Target :=
  if request.outDir.isEmpty then request.files.map fun _ => { path := "" }
  else Batch.targets request.files request.outDir request.root request.style.extension

def run (request : Request) (s : RunState) : Except RunError (List FileResult) × RunState :=
  if request.files.isEmpty then (.ok [], s)
  else
    match if request.outDir.isEmpty then .ok s.tree else s.tree.makeDirs request.outDir with
    | .error e => (.error (.outDir e), s)
    | .ok tree =>
      let (span, tracer) := s.tracer.begin .driver "batch" 0
      let span := (span.withExtra "files" (natText request.files.length)).withExtra "style"
        request.style.name
      let queued := request.files.map fun file : String =>
        { file, stage := .load, status := .queued : BatchEvent }
      let s := { s with tree, tracer, events := s.events ++ queued }
      if request.cancelled then (.error .cancelled, { s with tracer := s.tracer.finish span })
      else
        let (results, s) := processAll request span.id (request.files.zip request.targets) s
        (.ok results, { s with tracer := s.tracer.finish span })

end Batch

end ShaderScript
