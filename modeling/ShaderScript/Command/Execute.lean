import ShaderScript.Command.Session

/-!
# Commands at work

Each command as steps in a session, and `execute`, which takes a command line from its arguments to
what was written and which files there are now.
-/

namespace ShaderScript

open Text

namespace Command

open Session

/-! ## Shaders -/

/-- The bytes of an input; `-` is the standard input. -/
def readInput (input : List UInt8) (path : String) : Working (List UInt8) := do
  if path = "-" then return input
  orFail (.load path) ((← get).tree.read path)

def loadShader (input : List UInt8) (path : String) : Working Shader := do
  let bytes ← readInput input path
  orFail (.decode path) (Descriptor.ofFile path bytes)

/-- Compiles a shader in the session's style, and traces it. -/
def compileShader (name : String) (shader : Shader) : Working Compilation := do
  let w ← get
  let options : CompileOptions :=
    { style := w.settings.givenStyle, name, limit := w.settings.maxDiagnostics }
  let (result, tracer) := compile options (some shader) 0 w.tracer
  modify fun w => { w with tracer }
  orFail .compile result

/-- Loads and compiles an input and reports what was found.  A script that did not load is shown,
and is a failure. -/
def compileInput (input : List UInt8) (flags : Parsed) (path : String) :
    Working (Compilation × Program) := do
  let shader ← timed "load" "" (loadShader input path)
  let settings := (← get).settings
  let shader :=
    if flags.isOn "debug-trap" || settings.debugTrap then { shader with debugTrap := true }
    else shader
  let name := displayName path
  let c ← timed "translate" settings.givenStyle.name (compileShader name shader)
  report [{ path := name, items := c.diagnostics }]
  match c.program with
  | some program => return (c, program)
  | none =>
    complain (refusedScript name c.source c.diagnostic)
    throw .refused

/-! ## Commands -/

/-- Prints the script of a shader, or writes it to a file. -/
def runTranslate (input : List UInt8) (flags : Parsed) (path : String) : Working Unit := do
  let (c, _) ← compileInput input flags path
  let out := flags.text "out"
  if out.isEmpty then print c.source
  else changeFiles (.write out) (·.write out (bytesOf c.source))

/-- Lines, each with its end. -/
def linesText (lines : List String) : String := String.join (lines.map (· ++ "\n"))

/-- The final values of globals, sorted by name. -/
def valueLines (e : Environment) : List String :=
  e.names.map fun name => name ++ " = " ++ ((e.find? name).getD .void).toText

/-- What a run leaves on the standard output. -/
def runOutput (flags : Parsed) (w : World) : String :=
  w.console.output ++
    (if flags.isOn "no-transcript" then "" else linesText (w.environment.accesses.map Access.text)) ++
    (if flags.isOn "values" then linesText (valueLines w.environment) else "")

def loadGlobals (flags : Parsed) : Working (List (String × Value)) := do
  let path := flags.text "env"
  if path.isEmpty then return []
  orFail .globals (Globals.load (← get).tree path)

def runProgram (span : Nat) (program : Program) (environment : Environment) (console : Console) :
    Working (Except Halt Unit × World) := do
  let (result, world, tracer) := program.run span environment console (← get).tracer
  modify fun w => { w with tracer }
  return (result, world)

/-- Runs a shader once.  A shader that discards its fragment has not failed. -/
def runRun (input : List UInt8) (flags : Parsed) (path : String) : Working Unit := do
  let globals ← loadGlobals flags
  let (c, program) ← compileInput input flags path
  let stops := flags.isOn "stop-at-trap"
  let console : Console := { breakpoints := if stops then .stop else .count }
  let (result, world) ← timed "execute" "" (runProgram c.span program (.ofValues globals) console)
  let color := (← get).color
  if !stops then
    complain (linesText (List.replicate world.console.hits (colored color 36 "debug trap reached")))
  print (runOutput flags world)
  match result with
  | .ok _ => return
  | .error (.interrupt .discarded) => complain (colored color 33 "discarded" ++ "\n")
  | .error halt => throw (.halted halt)

/-- How many files of a batch came out which way. -/
structure Tally where
  translated : Nat
  warned : Nat
  refused : Nat
  failed : Nat
  cached : Nat

namespace Tally

/-- Whether a file has a script that did not load. -/
def isRefused (r : Batch.FileResult) : Bool := r.failure.isNone && !r.diagnostic.isEmpty

def ofResults (results : List Batch.FileResult) : Tally where
  translated := results.countP (·.isOk)
  warned := results.countP fun r => r.isOk && r.warned
  refused := results.countP isRefused
  failed := results.countP (·.failure.isSome)
  cached := results.countP (·.cached)

def summary (t : Tally) : String :=
  natText t.translated ++ " translated (" ++ natText t.warned ++ " with warnings), " ++
    natText t.refused ++ " did not load, " ++ natText t.failed ++ " failed (" ++ natText t.cached ++
    " from cache)"

end Tally

/-- Reports on a batch.  One file that failed fails the batch. -/
def reportBatch (results : List Batch.FileResult) : Working Unit := do
  report (results.map fun r => { path := r.path, items := r.diagnostics })
  complain (linesText ((results.filter Tally.isRefused).map fun r => r.path ++ ": " ++ r.diagnostic))
  let tally := Tally.ofResults results
  let failed := tally.refused + tally.failed
  let color := (← get).color
  complain (colored color (if 0 < failed then 31 else 32) tally.summary ++ "\n")
  if 0 < failed then throw (.failedFiles failed results.length)

def openCache (home dir : String) (drop : Bool) : Working ArtifactCache := do
  let (cache, tree) ← orFail .cache (ArtifactCache.openIn (← get).tree home dir)
  modify fun w => { w with tree }
  if drop then changeFiles .cache cache.dropAll
  return cache

/-- Settings with what the flags of a batch say instead. -/
def batchSettings (flags : Parsed) (s : Settings) : Settings :=
  { s with
    outDir := flags.text "out" s.outDir
    cache := if flags.isGiven "cache" then flags.isOn "cache" else s.cache
    cacheDir := flags.text "cache-dir" s.cacheDir }

/-- Translates the shaders below a directory. -/
def runBatch (cacheHome : String) (flags : Parsed) (dir : String) : Working Unit := do
  let mode := flags.text "ui" "auto"
  if (ProgressMode.ofName? mode).isNone then throw (.progressMode mode)
  let settings := batchSettings flags (← get).settings
  let files ← orFail .list (Batch.listDescriptors (← get).tree dir)
  if files.isEmpty then
    complain ("no descriptors under " ++ dir ++ "\n")
    return
  let cache ←
    if settings.cache then
      some <$> openCache cacheHome settings.cacheDir (flags.isOn "drop-cache")
    else pure none
  let w ← get
  let request : Batch.Request :=
    { files, style := settings.givenStyle, limit := settings.maxDiagnostics, cache,
      outDir := settings.outDir, root := dir }
  let (result, s) :=
    Batch.run request { tree := w.tree, tracer := w.tracer, timing := w.timing }
  modify fun w => { w with tree := s.tree, tracer := s.tracer, timing := s.timing }
  reportBatch (← orFail .batch result)

def styleNames : List String := [Style.javaScript.name, Style.python.name]

/-- A text, or `unknown` for none. -/
def orUnknown (s : String) : String := if s.isEmpty then "unknown" else s

/-- What a build says about itself, for people. -/
def releaseText (color full : Bool) (r : Release) : String :=
  "glslgen " ++ r.colored color ++ " (styles: " ++ ", ".intercalate styleNames ++ ")\n" ++
    (if full then
      "commit: " ++ orUnknown r.shortCommit ++ "\nbuilt:  " ++ orUnknown r.date ++ "\n"
    else "")

/-- What a build says about itself, for tools. -/
def releaseDocument (full : Bool) (r : Release) : Document :=
  .table ([("tool", .text toolName), ("version", .text r.name),
      ("styles", .list (styleNames.map .text))] ++
    (if full then
      [("git_commit", .text (orUnknown r.commit)), ("build_date", .text (orUnknown r.date))]
    else []))

/-- Shows what a build says about itself. -/
def runVersion (release : Release) (flags : Parsed) : Working Unit := do
  let format := flags.text "format" "pretty"
  let full := flags.isOn "full"
  match lowerCase format with
  | "pretty" => print (releaseText (← get).color full release)
  | "json" => print ((releaseDocument full release).indented 0 ++ "\n")
  | _ => throw (.releaseFormat format)

def runHelp (topics : List String) : Working Unit :=
  match ofArguments topics with
  | .ok (command, _) => print command.helpText
  | .error _ =>
    print ("Unknown help topic [" ++ " ".intercalate (topics.map fun t => "`" ++ t ++ "`") ++ "]\n" ++
      root.usage)

/-! ## Command lines -/

/-- Whether a command takes the arguments that it was given. -/
def checkArguments (command : Command) (arguments : List String) : Except CommandError Unit :=
  match command, arguments with
  | translate, [_] | run, [_] | batch, [_] => .ok ()
  | translate, _ | run, _ | batch, _ => .error (.argumentCount 1 arguments.length)
  | version, argument :: _ => .error (.unexpectedArgument command argument)
  | _, _ => .ok ()

def perform (i : Invocation) (command : Command) (flags : Parsed) : Working Unit :=
  let argument := flags.arguments.headD ""
  match command with
  | translate => finishing flags (runTranslate i.input flags argument)
  | run => finishing flags (runRun i.input flags argument)
  | batch => finishing flags (runBatch i.cacheHome flags argument)
  | version => runVersion i.release flags
  | help => runHelp flags.arguments
  | root | completion => print command.helpText

def dispatch (i : Invocation) : Working Unit := do
  let (command, arguments) ← orFail .unknownCommand (ofArguments i.arguments)
  let flags ← orFail .flag (parseFlags command.flags arguments)
  if flags.isOn "help" then print command.helpText
  else if command = root ∧ flags.isOn "version" then
    print (toolName ++ " version " ++ i.release.name ++ "\n")
  else if !command.isRunnable then print command.helpText
  else
    orFail id (checkArguments command flags.arguments)
    prepare i.terminal command flags
    perform i command flags

/-- Carries out a command line: what came of it, and the session at its end. -/
def execute (i : Invocation) : Except CommandError Unit × Session :=
  (dispatch i).run.run { tree := i.tree }

end Command

end ShaderScript
