import ShaderScript.Diagnostic.Basic

/-!
# Diagnostics as sorted lines

One line for each diagnostic, and for each note if wanted, sorted by position, severity word, code
and message.
-/

namespace ShaderScript

/-- What one line shows. -/
structure GoldenLine where
  pos : Position
  severity : String
  code : String
  message : String
  deriving Repr, DecidableEq

namespace GoldenLine

def ofDiagnostic (withNotes : Bool) (d : Diagnostic) : List GoldenLine :=
  ⟨d.pos, d.severity.label, d.code.id, oneLine d.message⟩ ::
    if withNotes then d.notes.map fun n => ⟨n.pos, "note", d.code.id, oneLine n.message⟩ else []

/-- The order of lines. -/
def before (a b : GoldenLine) : Bool :=
  if a.pos.line ≠ b.pos.line then a.pos.line < b.pos.line
  else if a.pos.col ≠ b.pos.col then a.pos.col < b.pos.col
  else if a.severity ≠ b.severity then a.severity < b.severity
  else if a.code ≠ b.code then a.code < b.code
  else a.message < b.message

/-- The text of a line; the position is written even when it is unknown. -/
def text (l : GoldenLine) : String :=
  l.severity ++ " " ++ l.code ++ " " ++ intText l.pos.line ++ ":" ++ intText l.pos.col ++ " " ++
    l.message

end GoldenLine

/-- Diagnostics as sorted lines. -/
def goldenText (ds : List Diagnostic) (withNotes : Bool) : String :=
  let lines := ds.flatMap (GoldenLine.ofDiagnostic withNotes)
  "\n".intercalate ((lines.mergeSort fun a b => !GoldenLine.before b a).map GoldenLine.text)

end ShaderScript
