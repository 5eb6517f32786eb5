import ShaderScript.Number.Layout
import ShaderScript.Text.FilePath
import ShaderScript.Text.Quoted
import ShaderScript.Text.Terminal

/-!
# What commands show

The name of an input, when the progress view is shown, and the frame around a script that did not
load.
-/

namespace ShaderScript

open Text

/-- The name under which an input is known; `-` is the standard input. -/
def displayName (path : String) : String := if path = "-" then "stdin" else FilePath.base path

/-- Whether the progress view is shown. -/
inductive ProgressMode
  | auto
  | on
  | off
  deriving Repr, DecidableEq, Inhabited

namespace ProgressMode

def name : ProgressMode → String
  | auto => "auto"
  | on => "on"
  | off => "off"

/-- The mode with a name; no name is `auto`. -/
def ofName? (name : String) : Option ProgressMode :=
  if name = "" ∨ name = "auto" then some auto
  else if name = "on" then some on
  else if name = "off" then some off
  else none

/-- The text for a name that no mode has. -/
def unknownName (name : String) : String :=
  "invalid --ui value " ++ quoted name ++ " (expected auto|on|off)"

end ProgressMode

/-- A text without line feeds at its end. -/
def dropTrailingBreaks (s : String) : String :=
  String.ofList (s.toList.reverse.dropWhile (· = '\n')).reverse

/-- A script with numbered lines. -/
def numberedLines (source : String) : String :=
  let lines := linesOf (dropTrailingBreaks source)
  let width := (natText lines.length).length
  "\n".intercalate (lines.zipIdx.map fun (line, i) =>
    padLeft width ' ' (natText (i + 1)) ++ " " ++ line)

/-- A script that did not load, with its lines numbered and the reason below, in a frame. -/
def refusedScript (name source reason : String) : String :=
  framed (name ++ ": generated source did not load" ++ "\n\n" ++
    dropTrailingBreaks (numberedLines source) ++ "\n\n" ++ reason) ++ "\n"

end ShaderScript
