import ShaderScript.Batch.Event
import ShaderScript.Number.Layout
import ShaderScript.Text.Terminal

/-!
# Progress of a batch

The view of a batch run: a title with a count, a line for each file, and a bar.  Events move the
files along.
-/

namespace ShaderScript

open Text

/-- A file of a run and how it stands. -/
structure ProgressItem where
  path : String
  status : String := "queued"
  stage : Stage := .other
  /-- Whether the file needs no more work. -/
  final : Bool := false
  deriving Repr, DecidableEq, Inhabited

namespace ProgressItem

/-- The word that an event sets; none leaves the item as it stands. -/
def labelOf (stage : Stage) : Status → String
  | .queued => "queued"
  | .done => "done"
  | .cached => "cached"
  | .error => "error"
  | .working => stage.label
  | .other => ""

/-- Whether an event ends a file: a failure does, and a finished or cached script does. -/
def isFinal (e : BatchEvent) : Bool :=
  e.status = .error || (e.stage = .translate && (e.status = .done || e.status = .cached))

/-- The item after an event of its file. -/
def apply (item : ProgressItem) (e : BatchEvent) : ProgressItem :=
  let label := labelOf e.stage e.status
  let item := if label.isEmpty then item else { item with status := label, stage := e.stage }
  { item with final := isFinal e }

/-- How far the item is, in tenths. -/
def tenths (item : ProgressItem) : Nat := if item.final then 10 else item.stage.tenths

end ProgressItem

/-- The state of the view. -/
structure Progress where
  title : String
  items : List ProgressItem
  width : Nat := 80
  barWidth : Nat := 76
  done : Bool := false
  deriving Inhabited

namespace Progress

/-- The view before anything happened. -/
def start (title : String) (files : List String) : Progress :=
  { title, items := files.map fun path => { path } }

/-- The place of a file; of equal ones the last counts. -/
def find? (p : Progress) (file : String) : Option Nat :=
  (p.items.zipIdx.reverse.find? fun (item, _) => item.path == file).map Prod.snd

/-- The view after an event. -/
def apply (p : Progress) (e : BatchEvent) : Progress :=
  match p.find? e.file with
  | none => p
  | some i => { p with items := p.items.modify i fun item => item.apply e }

/-- The view in a window of another width. -/
def resize (p : Progress) (width : Int) : Progress :=
  if 0 < width then { p with width := width.toNat, barWidth := width.toNat - 4 } else p

/-- The view at the end. -/
def finish (p : Progress) : Progress := { p with done := true }

/-- How far the run is, in tenths of a file. -/
def tenths (p : Progress) : Nat := p.items.foldl (fun sum item => sum + item.tenths) 0

/-- How many files need no more work. -/
def finished (p : Progress) : Nat := p.items.countP (·.final)

/-- The bar; it is empty until the end. -/
def bar (p : Progress) : String :=
  let size := p.barWidth - 5
  if p.done then times size '█' ++ " 100%" else times size '░' ++ "   0%"

/-- A path cut to a number of cells. -/
def cutPath (path : String) (width : Nat) : String :=
  if cells path ≤ width then path else truncateCells path (width - 3) "..."

/-- The view as text; there is none without files. -/
def view (p : Progress) : String :=
  if p.items.isEmpty then ""
  else
    let count := p.title ++ " (" ++ natText p.finished ++ "/" ++ natText p.items.length ++ ")"
    let header := if p.done then "done: " ++ count else "⣾  " ++ count
    let nameWidth := max (p.width - 16) 20
    let line (item : ProgressItem) : String :=
      "  " ++ padLeft 12 ' ' item.status ++ " " ++ cutPath item.path nameWidth ++ "\n"
    block header ++ "\n\n" ++ String.join (p.items.map line) ++ "\n" ++ p.bar ++ "\n"

end Progress

end ShaderScript
