import ShaderScript.Diagnostic.Basic
import ShaderScript.Document.Basic
import ShaderScript.Text.FilePath
import ShaderScript.Text.Terminal

/-!
# Reports

The diagnostics of several files, as lines for people or as a JSON document for tools.
-/

namespace ShaderScript

open Text

/-- How the path of a file is shown. -/
inductive PathMode
  | asGiven
  | absolute
  /-- Relative to a directory. -/
  | relative
  | baseName
  deriving Repr, DecidableEq, Inhabited

namespace PathMode

/-- The mode with a number; all others leave paths alone. -/
def ofNumber : Int → PathMode
  | 1 => absolute
  | 2 => relative
  | 3 => baseName
  | _ => asGiven

/-- A path as it is shown. -/
def apply (mode : PathMode) (workingDir base path : String) : String :=
  match mode with
  | asGiven => path
  | absolute => FilePath.absolute workingDir path
  | relative => (FilePath.relative? base path).getD path
  | baseName => FilePath.base path

end PathMode

/-- The diagnostics of one file. -/
structure FileReport where
  path : String
  items : List Diagnostic

/-- How a report is written. -/
structure ReportOptions where
  color : Bool := false
  mode : PathMode := .asGiven
  /-- The directory that relative paths start from. -/
  base : String := ""
  workingDir : String := "/"
  /-- How many diagnostics a document holds; all of them unless positive. -/
  max : Int := 0
  notes : Bool := false

namespace ReportOptions

/-- A path as it is shown. -/
def shownPath (o : ReportOptions) (path : String) : String :=
  o.mode.apply o.workingDir o.base path

/-- The word for a severity, coloured. -/
def severityText (o : ReportOptions) (s : Severity) : String :=
  match s with
  | .error => boldColored o.color 31 s.name
  | .warning => boldColored o.color 33 s.name
  | _ => colored o.color 36 s.name

def lines (o : ReportOptions) (path : String) (d : Diagnostic) : String :=
  let place := if d.pos.isKnown then ":" ++ d.pos.text else ""
  path ++ place ++ ": " ++ o.severityText d.severity ++ " " ++
    faint o.color ("[" ++ d.code.id ++ "]") ++ " " ++ d.message ++ "\n" ++
    (if o.notes then String.join (d.notes.map fun n => "    note: " ++ n.message ++ "\n") else "")

/-- The report for people: `path:line:col: SEVERITY [CODE] message`. -/
def pretty (o : ReportOptions) (files : List FileReport) : String :=
  String.join (files.flatMap fun f => f.items.map (o.lines (o.shownPath f.path)))

/-- A place; line and column are left out when they are 0. -/
def location (path : String) (pos : Position) : Document :=
  .table ([("file", .text path)] ++
    (if pos.line = 0 then [] else [("line", .int pos.line)]) ++
    (if pos.col = 0 then [] else [("col", .int pos.col)]))

def entry (o : ReportOptions) (path : String) (d : Diagnostic) : Document :=
  .table ([("severity", .text d.severity.name), ("code", .text d.code.id),
      ("message", .text d.message), ("location", location path d.pos)] ++
    (if o.notes && !d.notes.isEmpty then
      [("notes", .list (d.notes.map fun n =>
        .table [("message", .text n.message), ("location", location path n.pos)]))]
    else []))

def document (o : ReportOptions) (files : List FileReport) : Document :=
  let all := files.flatMap fun f => f.items.map (o.entry (o.shownPath f.path))
  let kept := if 0 < o.max then all.take o.max.toNat else all
  .table [("diagnostics", .list kept), ("count", .int kept.length)]

/-- The report for tools as text. -/
def json (o : ReportOptions) (files : List FileReport) : String :=
  (o.document files).indented 0 ++ "\n"

end ReportOptions

end ShaderScript
