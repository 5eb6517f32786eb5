import ShaderScript.Command.Flag
import ShaderScript.Text.Case

/-!
# Commands and their help

What the tool can be asked to do, the flags of each command, and how a command line is matched with
a command.
-/

namespace ShaderScript

open Text

/-- What the tool can be asked to do. -/
inductive Command
  | root
  | translate
  | run
  | batch
  | version
  | help
  | completion
  deriving Repr, DecidableEq, Inhabited

namespace Command

def toolName : String := "glslgen"

/-- The commands below the root. -/
def all : List Command := [translate, run, batch, version, help, completion]

def name : Command → String
  | root => toolName
  | translate => "translate"
  | run => "run"
  | batch => "batch"
  | version => "version"
  | help => "help"
  | completion => "completion"

/-- The names that lead to a command. -/
def path (c : Command) : String := if c = root then toolName else toolName ++ " " ++ c.name

/-- What a command does, in one line. -/
def summary : Command → String
  | root => "Translate shader syntax trees into runnable JavaScript or Python"
  | translate => "Print the generated source for a shader descriptor"
  | run => "Translate a shader, run main once and print the environment traffic"
  | batch => "Translate every descriptor under a directory in parallel"
  | version => "Show build metadata"
  | help => "Help about any command"
  | completion => "Generate the autocompletion script for the specified shell"

def description : Command → String
  | root => "glslgen turns a parsed GLSL ES 1.0 shader into JavaScript or Python\n" ++
      "source that runs against a vector-math runtime, and materializes it through\n" ++
      "an embedded interpreter."
  | help => "Help provides help for any command in the application.\n" ++
      "Simply type glslgen help [path to command] for full details."
  | completion => "Generate the autocompletion script for glslgen for the specified shell.\n" ++
      "See each sub-command's help for details on how to use the generated script."
  | c => c.summary

def use : Command → String
  | translate => "translate <shader.json|shader.msgpack|->"
  | run => "run <shader.json|shader.msgpack|->"
  | batch => "batch <dir>"
  | help => "help [command]"
  | c => c.name

def sharedFlags : List Flag :=
  [{ name := "style", usage := "output style (js|py); overrides glslgen.toml" },
   { name := "config",
     usage := "path to glslgen.toml (default: search upward from the working directory)" },
   { name := "color", default := "auto", usage := "colorize output (auto|on|off)" },
   { name := "timings", kind := .toggle, usage := "print phase timings to stderr" },
   { name := "max-diagnostics", kind := .number, default := "0",
     usage := "maximum number of diagnostics to collect (0: from config)" },
   { name := "trace", usage := "trace output file (\"-\" for stderr)" },
   { name := "trace-level", usage := "trace level (off|error|phase|detail|debug)" },
   { name := "trace-mode", default := "stream", usage := "trace storage (stream|ring|both)" },
   { name := "trace-format", usage := "trace format (auto|text|ndjson)" },
   { name := "trace-ring-size", kind := .number, default := "4096",
     usage := "events kept by the ring tracer" },
   { name := "trace-heartbeat", kind := .duration, default := "0s",
     usage := "emit heartbeat events at this interval (0 disables)" },
   { name := "diagnostics-format", default := "pretty",
     usage := "diagnostics output format (pretty|json)" },
   { name := "cpu-profile", usage := "write a CPU profile to file" },
   { name := "mem-profile", usage := "write a heap profile to file on exit" },
   { name := "runtime-trace", usage := "write a Go runtime trace to file" }]

def helpFlag (c : Command) : Flag :=
  { name := "help", short := some 'h', kind := .toggle, usage := "help for " ++ c.name }

/-- The flags that a command has for itself. -/
def ownFlags : Command → List Flag
  | root =>
    [{ name := "version", short := some 'v', kind := .toggle, usage := "version for glslgen" }]
  | translate =>
    [{ name := "out", short := some 'o', usage := "write the source to a file instead of stdout" },
     { name := "debug-trap", kind := .toggle, usage := "emit a breakpoint before main runs" }]
  | run =>
    [{ name := "env", usage := "TOML file with global values ([globals] table)" },
     { name := "values", kind := .toggle, usage := "print the final global values" },
     { name := "no-transcript", kind := .toggle,
       usage := "do not print environment reads and writes" },
     { name := "debug-trap", kind := .toggle, usage := "emit a breakpoint before main runs" },
     { name := "stop-at-trap", kind := .toggle,
       usage := "abort the run when the debug trap is reached" }]
  | batch =>
    [{ name := "jobs", kind := .number, default := "0",
       usage := "parallel translations (0: GOMAXPROCS or config)" },
     { name := "out", usage := "directory receiving generated sources" },
     { name := "cache", kind := .toggle, usage := "reuse artifacts from the translation cache" },
     { name := "cache-dir", usage := "cache directory (default: $XDG_CACHE_HOME/glslgen)" },
     { name := "drop-cache", kind := .toggle, usage := "clear the cache before translating" },
     { name := "ui", default := "auto", usage := "progress UI (auto|on|off)" }]
  | version =>
    [{ name := "format", default := "pretty", usage := "output format (pretty|json)" },
     { name := "full", kind := .toggle, usage := "include commit and build date" }]
  | help => []
  | completion => []

def flags (c : Command) : List Flag := c.ownFlags ++ [c.helpFlag] ++ sharedFlags

/-- Whether a command does something by itself; others show their help. -/
def isRunnable : Command → Bool
  | root => false
  | completion => false
  | _ => true

/-! ## Help -/

/-- The names and summaries of the commands below a command. -/
def subcommands : Command → List (String × String)
  | root => (all.map fun c => (c.name, c.summary)).mergeSort fun a b => decide (a.1 ≤ b.1)
  | completion => ["bash", "fish", "powershell", "zsh"].map fun shell =>
      (shell, "Generate the autocompletion script for " ++ shell)
  | _ => []

/-- How a command is used. -/
def usage (c : Command) : String :=
  let subs := c.subcommands
  let localFlags := if c = root then c.flags else c.ownFlags ++ [c.helpFlag]
  "Usage:" ++
    (if c.isRunnable then "\n  " ++ toolName ++ " " ++ c.use ++ " [flags]" else "") ++
    (if subs.isEmpty then "" else "\n  " ++ c.path ++ " [command]") ++
    (if subs.isEmpty then ""
      else "\n\nAvailable Commands:" ++
        String.join (subs.map fun (name, summary) => "\n  " ++ padRight 11 name ++ " " ++ summary)) ++
    "\n\nFlags:\n" ++ flagUsages localFlags ++
    (if c = root then "" else "\n\nGlobal Flags:\n" ++ flagUsages sharedFlags) ++
    (if subs.isEmpty then ""
      else "\n\nUse \"" ++ c.path ++ " [command] --help\" for more information about a command.") ++
    "\n"

def helpText (c : Command) : String := c.description ++ "\n\n" ++ c.usage

/-! ## Matching -/

/-- Whether an argument is a flag whose value is the next argument. -/
def takesNext (argument : String) : Bool :=
  let isToggle : Option Flag → Bool
    | some f => f.kind = .toggle
    | none => false
  if argument.toList.contains '=' then false
  else if argument.startsWith "--" then
    !isToggle (longFlag? sharedFlags (String.ofList (argument.toList.drop 2)))
  else argument.startsWith "-" && argument.utf8ByteSize = 2

/-- The arguments that are neither flags nor their values. -/
def plainArguments : Nat → List String → List String
  | 0, _ => []
  | _ + 1, [] => []
  | fuel + 1, argument :: rest =>
    if argument = "--" then []
    else if takesNext argument then
      if rest.length ≤ 1 then [] else plainArguments fuel (rest.drop 1)
    else if argument.isEmpty || argument.startsWith "-" then plainArguments fuel rest
    else argument :: plainArguments fuel rest

/-- The arguments without the first that is a name, which is no flag's value. -/
def withoutFirst (name : String) : Nat → List String → List String
  | 0, arguments => arguments
  | _ + 1, [] => []
  | fuel + 1, argument :: rest =>
    if argument = "--" then argument :: rest
    else if takesNext argument then
      match rest with
      | value :: rest => argument :: value :: withoutFirst name fuel rest
      | [] => [argument]
    else if argument = name && !argument.startsWith "-" then rest
    else argument :: withoutFirst name fuel rest

def ofName? (name : String) : Option Command := all.find? fun c => c.name == name

/-- One row of the table of edit distances: `above` is the row before, `left` the last entry. -/
def distanceRow (c : Char) : List Char → List Nat → Nat → List Nat
  | d :: ds, diagonal :: up :: above, left =>
    let here := if c = d then diagonal else 1 + min (min up left) diagonal
    here :: distanceRow c ds (up :: above) here
  | _, _, _ => []

/-- How many letters have to change to get from one text to another. -/
def distance (s t : List Char) : Nat :=
  let step (row : List Nat) (c : Char) : List Nat :=
    let first := row.headD 0 + 1
    first :: distanceRow c t row first
  (s.foldl step (List.range (t.length + 1))).getLastD 0

/-- The commands that may have been meant by a name; help never is. -/
def suggestions (typed : String) : List String :=
  let typed := lowerCase typed
  ((all.filter (· ≠ help)).map name).filter fun name =>
    distance typed.toList name.toList ≤ 2 || name.startsWith typed

/-- Why no command fits a command line. -/
structure UnknownCommand where
  name : String
  deriving Repr, DecidableEq

/-- The text for a name that no command has. -/
def UnknownCommand.message (u : UnknownCommand) : String :=
  let hints := suggestions u.name
  "unknown command " ++ quoted u.name ++ " for " ++ quoted toolName ++
    (if hints.isEmpty then ""
      else "\n\nDid you mean this?\n" ++ String.join (hints.map fun h => "\t" ++ h ++ "\n"))

/-- The command that a command line names, and the arguments without its name. -/
def ofArguments (arguments : List String) : Except UnknownCommand (Command × List String) :=
  let fuel := arguments.length + 1
  match plainArguments fuel arguments with
  | [] => .ok (root, arguments)
  | name :: _ =>
    match ofName? name with
    | some c => .ok (c, withoutFirst name fuel arguments)
    | none => .error ⟨name⟩

end Command

end ShaderScript
