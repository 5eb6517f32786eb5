import ShaderScript.Document.Basic

/-!
# Timings

The phases of a run, each with a duration in nanoseconds and a note.  Durations are 64-bit
integers, and so is their sum.
-/

namespace ShaderScript

/-- A phase and how long it took. -/
structure Phase where
  name : String
  nanoseconds : Int := 0
  note : String := ""
  deriving Repr, DecidableEq, Inhabited

/-- The phases recorded so far, in the order they began. -/
structure Timing where
  phases : List Phase := []
  deriving Inhabited

namespace Timing

/-- Begins a phase and gives its number. -/
def begin (t : Timing) (name : String) : Nat × Timing :=
  (t.phases.length, { phases := t.phases ++ [{ name }] })

/-- Ends a phase with a note; a number that no phase has is ignored. -/
def finish (t : Timing) (index : Int) (note : String) : Timing :=
  if 0 ≤ index ∧ index < t.phases.length then
    { phases := t.phases.modify index.toNat fun p => { p with note } }
  else t

/-- Adds a phase that was measured already. -/
def record (t : Timing) (name : String) (nanoseconds : Int) (note : String) : Timing :=
  { phases := t.phases ++ [{ name, nanoseconds, note }] }

/-- Nanoseconds as milliseconds. -/
def milliseconds (nanoseconds : Int) : Float := Float.ofInt nanoseconds / 1000000

def total (t : Timing) : Int :=
  t.phases.foldl (fun sum p => wrap64 (sum + p.nanoseconds)) 0

def line (name : String) (nanoseconds : Int) : String :=
  "  " ++ padRight 20 name ++ " " ++ padLeft 7 ' ' (fixedText 2 (milliseconds nanoseconds)) ++ " ms"

/-- The phases as an aligned table with the total last. -/
def summary (t : Timing) : String :=
  "timings:\n" ++
    String.join (t.phases.map fun p =>
      line p.name p.nanoseconds ++ (if p.note.isEmpty then "" else "  // " ++ p.note) ++ "\n") ++
    line "total" t.total ++ "\n"

def duration (nanoseconds : Int) : Document :=
  .number (.decimal (FloatLayout.plain.text (milliseconds nanoseconds)))

/-- The phases as a document; without phases their list is null. -/
def report (t : Timing) : Document :=
  let phase (p : Phase) : Document :=
    .table ([("name", .text p.name), ("duration_ms", duration p.nanoseconds)] ++
      (if p.note.isEmpty then [] else [("note", .text p.note)]))
  .table [("total_ms", duration t.total),
    ("phases", if t.phases.isEmpty then .null else .list (t.phases.map phase))]

end Timing

end ShaderScript
