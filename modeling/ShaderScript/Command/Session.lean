import ShaderScript.Batch.Run
import ShaderScript.Command.Display
import ShaderScript.Command.Spec
import ShaderScript.Diagnostic.Report
import ShaderScript.Globals
import ShaderScript.Release
import ShaderScript.Settings

/-!
# Sessions

A command works in a session: the files, what it has written so far, the settings it goes by, the
tracer and the timings.  `prepare` sets a session up from flags and settings, and `finish` writes
what is only known at the end.  Both output and files are kept when a command fails.
-/

namespace ShaderScript

open Text

/-- Why a command failed. -/
inductive CommandError
  | unknownCommand (name : Command.UnknownCommand)
  | flag (error : FlagError)
  | unexpectedArgument (command : Command) (argument : String)
  | argumentCount (expected received : Nat)
  | settings (error : SettingsError)
  | setting (fault : SettingFault)
  | color (value : String)
  | reportFormat (value : String)
  | releaseFormat (value : String)
  | progressMode (value : String)
  | profile (kind : String) (failure : FileFailure)
  | traceMode (value : String)
  | traceOutput (failure : FileFailure)
  | globals (error : GlobalsError)
  | load (path : String) (failure : FileFailure)
  | decode (path : String) (error : Descriptor.FileError)
  | compile (error : CompileError)
  | refused
  | write (path : String) (failure : FileFailure)
  | halted (halt : Halt)
  | list (failure : FileFailure)
  | cache (error : CacheError)
  | batch (error : Batch.RunError)
  | failedFiles (failed total : Nat)

namespace CommandError

/-- The text for a file that is no descriptor. -/
def decodeMessage : Descriptor.FileError → String
  | .notJson => "malformed JSON"
  | .notMessagePack => "malformed MessagePack"
  | .decode error => error.message

/-- The text for a run that ended early; a fault of the catalog has its code in front. -/
def haltMessage : Halt → String
  | .interrupt (.failed (.fault f)) => "runtime error " ++ f.code.name ++ ": " ++ f.message
  | .interrupt .stopped => "stopped at debug trap"
  | h => h.message

/-- The text for a value that a flag does not take. -/
def unexpectedValue (flag value expected : String) : String :=
  "invalid --" ++ flag ++ " value " ++ quoted value ++ " (expected " ++ expected ++ ")"

def message : CommandError → String
  | unknownCommand name => name.message
  | flag error => error.message
  | unexpectedArgument command argument =>
    "unknown command " ++ quoted argument ++ " for " ++ quoted command.path
  | argumentCount expected received =>
    "accepts " ++ natText expected ++ " arg(s), received " ++ natText received
  | settings error => error.message
  | setting fault => fault.message
  | color value => unexpectedValue "color" value "auto|on|off"
  | reportFormat value => unexpectedValue "diagnostics-format" value "pretty|json"
  | releaseFormat value => "unsupported format " ++ quoted value ++ " (must be pretty or json)"
  | progressMode value => ProgressMode.unknownName value
  | profile kind failure => kind ++ ": " ++ failure.message
  | traceMode value => "invalid trace mode: " ++ TraceMode.unknownName value
  | traceOutput failure => "failed to create tracer: failed to open trace output: " ++ failure.message
  | globals error => error.message
  | load path failure => "load " ++ path ++ ": " ++ failure.message
  | decode path error => path ++ ": " ++ decodeMessage error
  | compile error => error.message
  | refused => "generated source did not load"
  | write path failure => "write " ++ path ++ ": " ++ failure.message
  | halted halt => haltMessage halt
  | list failure => failure.message
  | cache error => error.message
  | batch error => error.message
  | failedFiles failed total =>
    natText failed ++ " of " ++ natText total ++ " descriptors failed"

end CommandError

/-- What a command starts from. -/
structure Invocation where
  arguments : List String
  tree : FileTree := {}
  /-- What can be read from the standard input. -/
  input : List UInt8 := []
  /-- Whether people read the standard output. -/
  terminal : Bool := false
  /-- The directory that holds the tool's cache unless another is given. -/
  cacheHome : String := ""
  release : Release := {}

/-- How diagnostics are reported. -/
inductive ReportFormat
  | pretty
  | json
  deriving Repr, DecidableEq, Inhabited

def ReportFormat.ofName? (name : String) : Option ReportFormat :=
  if name = "pretty" then some pretty else if name = "json" then some json else none

/-- The state of a command. -/
structure Session where
  tree : FileTree := {}
  /-- What went to the standard output. -/
  output : String := ""
  /-- What went to the standard error. -/
  errors : String := ""
  /-- The trace that goes to the standard error as it is made. -/
  liveTrace : String := ""
  settings : Settings := {}
  color : Bool := false
  format : ReportFormat := .pretty
  tracer : Tracer := .off
  timing : Timing := {}

instance : Inhabited Session := ⟨{}⟩

/-- A step of a command.  A step that fails keeps the session. -/
abbrev Working := ExceptT CommandError (StateM Session)

namespace Session

def print (s : String) : Working Unit := modify fun w => { w with output := w.output ++ s }

def complain (s : String) : Working Unit := modify fun w => { w with errors := w.errors ++ s }

/-- A result, or the failure that stands in its place. -/
def orFail {α ε : Type} (wrap : ε → CommandError) : Except ε α → Working α
  | .ok a => pure a
  | .error e => throw (wrap e)

/-- Changes the files. -/
def changeFiles {ε : Type} (wrap : ε → CommandError) (f : FileTree → Except ε FileTree) :
    Working Unit := do
  let tree ← orFail wrap (f (← get).tree)
  modify fun w => { w with tree }

/-- Runs a step as a phase of its own. -/
def timed {α : Type} (phase note : String) (step : Working α) : Working α := do
  let (index, timing) := (← get).timing.begin phase
  modify fun w => { w with timing }
  let result ← tryCatch (Except.ok <$> step) fun e => pure (.error e)
  modify fun w => { w with timing := w.timing.finish index note }
  orFail id result

/-- Reports diagnostics.  A document is written even if there are none. -/
def report (files : List FileReport) : Working Unit := do
  let w ← get
  let options : ReportOptions := { color := w.color, notes := true, workingDir := w.tree.workingPath }
  match w.format with
  | .pretty => complain (options.pretty files)
  | .json => complain (options.json files)

/-! ## Setting up -/

/-- Whether output is coloured. -/
def colorOf (terminal : Bool) (value : String) : Except CommandError Bool :=
  let mode := lowerCase (trim value)
  if mode = "" ∨ mode = "auto" then .ok terminal
  else if mode = "on" then .ok true
  else if mode = "off" then .ok false
  else .error (.color value)

/-- Settings with what the flags say instead. -/
def overridden (flags : Parsed) (s : Settings) : Settings :=
  { s with
    style := flags.text "style" s.style
    traceLevel := flags.text "trace-level" s.traceLevel
    traceOutput := flags.text "trace" s.traceOutput
    traceFormat := flags.text "trace-format" s.traceFormat
    maxDiagnostics := flags.number "max-diagnostics" s.maxDiagnostics }

def settingsOf (flags : Parsed) (t : FileTree) : Except CommandError Settings := do
  let path := flags.text "config"
  let read := if path.isEmpty then Settings.discover t "." else Settings.load t path
  let s := overridden flags (← read.mapError .settings)
  match s.fault? with
  | some fault => throw (.setting fault)
  | none => return s

/-- Makes the file for a profile. -/
def startProfile (kind path : String) : Working Unit :=
  if path.isEmpty then pure () else changeFiles (.profile kind) (·.write path [])

/-- Whether the trace goes to the standard error. -/
def isLive (path : String) : Bool := path = "" || path = "-"

/-- The tracer that settings and flags ask for.  An output without a level traces the phases. -/
def startTrace (flags : Parsed) (s : Settings) : Working Unit := do
  let level := (TraceLevel.ofName? s.traceLevel).getD .off
  let level := if level = .off ∧ s.traceOutput ≠ "" then .phase else level
  if level = .off then return
  let name := flags.text "trace-mode" "stream"
  match TraceMode.ofName? name with
  | none => throw (.traceMode name)
  | some mode =>
    if mode ≠ .ring ∧ !isLive s.traceOutput then
      changeFiles .traceOutput (·.write s.traceOutput [])
    let format := (TraceFormat.ofName? s.traceFormat).getD .auto
    let tracer :=
      Tracer.new level mode format s.traceOutput (flags.number "trace-ring-size" 4096)
    modify fun w => { w with tracer }

/-- Writes the profile of the memory; a failure is a complaint. -/
def writeMemoryProfile (flags : Parsed) : Working Unit := do
  let path := flags.text "mem-profile"
  if path.isEmpty then return
  match (← get).tree.write path [] with
  | .ok tree => modify fun w => { w with tree }
  | .error failure => complain ("profiling: heap profile: " ++ failure.message ++ "\n")

/-- Sets up the session of a command. -/
def prepare (terminal : Bool) (command : Command) (flags : Parsed) : Working Unit := do
  let setColor : Working Unit := do
    let color ← orFail id (colorOf terminal (flags.text "color" "auto"))
    modify fun w => { w with color }
  if command = .version then setColor
  else
    let settings ← orFail id (settingsOf flags (← get).tree)
    setColor
    let name := flags.text "diagnostics-format" "pretty"
    match ReportFormat.ofName? name with
    | none => throw (.reportFormat name)
    | some format =>
      modify fun w => { w with settings, format }
      startProfile "cpu profile" (flags.text "cpu-profile")
      startProfile "runtime trace" (flags.text "runtime-trace")
      tryCatch (startTrace flags settings) fun e => do
        let errors := (← get).errors
        writeMemoryProfile flags
        modify fun w => { w with errors }
        throw e

/-! ## Finishing -/

/-- Writes what was traced: the stream to its file, or a ring alone to the standard error. -/
def finishTrace (s : Session) : Session :=
  let path := s.settings.traceOutput
  match s.tracer.stream, s.tracer.ring with
  | some stream, _ =>
    if isLive path then { s with liveTrace := s.liveTrace ++ stream.output }
    else { s with tree := (s.tree.write path (bytesOf stream.output)).toOption.getD s.tree }
  | none, some ring =>
    let format := (TraceFormat.ofName? s.settings.traceFormat).getD .auto
    { s with errors := s.errors ++ ring.dump format }
  | none, none => s

/-- Writes what is only known at the end of a command. -/
def finish (flags : Parsed) : Working Unit := do
  modify finishTrace
  writeMemoryProfile flags
  if flags.isOn "timings" then complain (← get).timing.summary

/-- Runs a step and finishes the session, whether or not the step fails. -/
def finishing (flags : Parsed) (step : Working Unit) : Working Unit := do
  let result ← tryCatch (Except.ok <$> step) fun e => pure (.error e)
  finish flags
  orFail id result

end Session

end ShaderScript
