import ShaderScript.FileTree
import ShaderScript.Script.Style
import ShaderScript.Toml.Document
import ShaderScript.Trace.Text

/-!
# Settings

The settings of the tool: how scripts are made, how batches run, what is traced.  They come from
`glslgen.toml` in the working directory or above it, over the defaults.
-/

namespace ShaderScript

open Text

/-- The settings. -/
structure Settings where
  style : String := "js"
  debugTrap : Bool := false
  maxDiagnostics : Int := 100
  jobs : Int := 0
  cache : Bool := false
  cacheDir : String := ""
  outDir : String := ""
  traceLevel : String := "off"
  traceOutput : String := ""
  traceFormat : String := "auto"
  /-- The file they come from, empty for the defaults. -/
  path : String := ""
  deriving Repr, DecidableEq, Inhabited

/-- A setting that has no meaning. -/
inductive SettingFault
  | style (name : String)
  | maxDiagnostics
  | jobs
  | traceLevel (name : String)
  | traceFormat (name : String)
  deriving Repr, DecidableEq

/-- The text for a setting that has no meaning. -/
def SettingFault.message : SettingFault → String
  | style name => "[translate] style: " ++ Style.unknownName name
  | maxDiagnostics => "[translate] max_diagnostics must not be negative"
  | jobs => "[batch] jobs must not be negative"
  | traceLevel name => "[trace] level: " ++ TraceLevel.unknownName name
  | traceFormat name => "[trace] format: " ++ TraceFormat.unknownName name

/-- Why there are no settings. -/
inductive SettingsError
  /-- The file is not there, is not TOML, or gives a setting a value of the wrong kind. -/
  | unreadable (path : String)
  | unknownKeys (path : String) (keys : List Toml.Key)
  | invalid (path : String) (fault : SettingFault)
  | unreachable (candidate : String) (failure : FileFailure)
  deriving Repr, DecidableEq

/-- The text for settings that cannot be had. -/
def SettingsError.message : SettingsError → String
  | unreadable path => path ++ ": failed to parse TOML"
  | unknownKeys path keys => path ++ ": unknown keys: " ++ ", ".intercalate (keys.map Toml.keyText)
  | invalid path fault => path ++ ": " ++ fault.message
  | unreachable candidate failure =>
    "failed to stat " ++ quoted candidate ++ ": " ++ failure.message

namespace Settings

/-- The first setting that has no meaning. -/
def fault? (s : Settings) : Option SettingFault :=
  if (Style.ofName? s.style).isNone then some (.style s.style)
  else if s.maxDiagnostics < 0 then some .maxDiagnostics
  else if s.jobs < 0 then some .jobs
  else if (TraceLevel.ofName? s.traceLevel).isNone then some (.traceLevel s.traceLevel)
  else if (TraceFormat.ofName? s.traceFormat).isNone then some (.traceFormat s.traceFormat)
  else none

/-- The style that the settings name. -/
def givenStyle (s : Settings) : Style := (Style.ofName? s.style).getD .javaScript

/-! ## Reading settings -/

/-- A character without regard to case.  The long s and the Kelvin sign are letters of ASCII but for
their case. -/
def foldChar (c : Char) : Char :=
  if c.toNat = 0x17F then 's' else if c.toNat = 0x212A then 'k' else c.toLower

/-- A name without regard to case. -/
def foldName (name : String) : String := String.ofList (name.toList.map foldChar)

/-- Reads one setting; an unknown name, or a value of the wrong kind, is none. -/
abbrev Reader := Settings → Toml.Value → Option Settings

def textSetting (f : Settings → String → Settings) : Reader
  | s, .text v => some (f s v)
  | _, _ => none

def boolSetting (f : Settings → Bool → Settings) : Reader
  | s, .bool v => some (f s v)
  | _, _ => none

def integerSetting (f : Settings → Int → Settings) : Reader
  | s, .integer v => some (f s v)
  | _, _ => none

/-- The settings by table and name. -/
def readers : List (String × List (String × Reader)) :=
  [("translate",
      [("style", textSetting fun s v => { s with style := v }),
       ("debug_trap", boolSetting fun s v => { s with debugTrap := v }),
       ("max_diagnostics", integerSetting fun s v => { s with maxDiagnostics := v })]),
   ("batch",
      [("jobs", integerSetting fun s v => { s with jobs := v }),
       ("cache", boolSetting fun s v => { s with cache := v }),
       ("cache_dir", textSetting fun s v => { s with cacheDir := v }),
       ("out_dir", textSetting fun s v => { s with outDir := v })]),
   ("trace",
      [("level", textSetting fun s v => { s with traceLevel := v }),
       ("output", textSetting fun s v => { s with traceOutput := v }),
       ("format", textSetting fun s v => { s with traceFormat := v })])]

/-- The entry with a name, in any case. -/
def named {α : Type} (name : String) (entries : List (String × α)) : Option α :=
  (entries.find? fun (k, _) => k == foldName name).map Prod.snd

def readTable (known : List (String × Reader)) (s : Settings) : Toml.Table → Option Settings
  | [] => some s
  | (name, v) :: rest =>
    match named name known with
    | none => readTable known s rest
    | some reader =>
      match reader s v with
      | some s => readTable known s rest
      | none => none

def readTables (s : Settings) : Toml.Table → Option Settings
  | [] => some s
  | (name, v) :: rest =>
    match named name readers, v with
    | none, _ => readTables s rest
    | some known, .table entries =>
      match readTable known s entries with
      | some s => readTables s rest
      | none => none
    | some _, _ => none

/-- Whether a key is that of a setting, or of a table of settings. -/
def isKnownKey : Toml.Key → Bool
  | [table] => (named table readers).isSome
  | [table, name] => ((named table readers).bind (named name)).isSome
  | _ => false

/-- A directory of the settings: relative ones start where their file is. -/
def rebased (file dir : String) : String :=
  if dir.isEmpty || FilePath.isAbsolute dir then dir else FilePath.join [FilePath.dir file, dir]

def ofBytes (path : String) (bytes : List UInt8) : Except SettingsError Settings :=
  match Toml.read? bytes with
  | none => .error (.unreadable path)
  | some document =>
    match readTables {} document.root with
    | none => .error (.unreadable path)
    | some s =>
      match document.keys.filter (!isKnownKey ·) with
      | [] =>
        match s.fault? with
        | some fault => .error (.invalid path fault)
        | none =>
          .ok { s with path, cacheDir := rebased path s.cacheDir, outDir := rebased path s.outDir }
      | unknown => .error (.unknownKeys path unknown)

def load (t : FileTree) (path : String) : Except SettingsError Settings :=
  match t.read path with
  | .error _ => .error (.unreadable path)
  | .ok bytes => ofBytes path bytes

/-! ## Finding settings -/

def fileName : String := "glslgen.toml"

/-- The nearest file of settings, from a directory upward. -/
def findFrom (t : FileTree) : Nat → String → Except SettingsError (Option String)
  | 0, _ => .ok none
  | fuel + 1, dir =>
    let candidate := FilePath.join [dir, fileName]
    match t.status "stat" candidate with
    | .ok _ => .ok (some candidate)
    | .error failure =>
      if failure.fault ≠ .missing then .error (.unreachable candidate failure)
      else
        let parent := FilePath.dir dir
        if parent = dir then .ok none else findFrom t fuel parent

/-- The settings for a directory: from the nearest file, or the defaults. -/
def discover (t : FileTree) (start : String) : Except SettingsError Settings := do
  let dir := FilePath.absolute t.workingPath (if start.isEmpty then "." else start)
  match ← findFrom t (dir.length + 1) dir with
  | none => return {}
  | some path => load t path

end Settings

end ShaderScript
