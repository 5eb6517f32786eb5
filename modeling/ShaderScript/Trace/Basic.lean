import ShaderScript.Number.Layout
import ShaderScript.Text.Case
import ShaderScript.Text.Quoted

/-!
# Trace events

What a trace records: spans that begin and end, points and heartbeats, each with a scope that tells
how fine-grained it is.  A level decides which scopes are recorded.
-/

namespace ShaderScript

open Text

/-- How much a trace records. -/
inductive TraceLevel
  | off
  /-- Only what leads up to a failure. -/
  | error
  | phase
  | detail
  | debug
  deriving Repr, DecidableEq, Inhabited

/-- How fine-grained an event is; a lower rank is coarser. -/
structure TraceScope where
  rank : Nat
  deriving Repr, DecidableEq, Inhabited

namespace TraceScope

/-- A command, a batch run. -/
def driver : TraceScope := ⟨1⟩

/-- A phase of handling one shader. -/
def pass : TraceScope := ⟨2⟩

/-- One file of a batch. -/
def unit : TraceScope := ⟨3⟩

/-- One node of a syntax tree. -/
def node : TraceScope := ⟨4⟩

def name (s : TraceScope) : String :=
  match s.rank with
  | 1 => "driver"
  | 2 => "pass"
  | 3 => "unit"
  | 4 => "node"
  | _ => "unknown"

end TraceScope

/-- What an event is, by number. -/
structure EventKind where
  number : Nat
  deriving Repr, DecidableEq, Inhabited

namespace EventKind

def spanBegin : EventKind := ⟨1⟩
def spanEnd : EventKind := ⟨2⟩
def point : EventKind := ⟨3⟩
def heartbeat : EventKind := ⟨4⟩

def name (k : EventKind) : String :=
  match k.number with
  | 1 => "begin"
  | 2 => "end"
  | 3 => "point"
  | 4 => "heartbeat"
  | _ => "unknown"

/-- The mark of a kind in a text line. -/
def mark (k : EventKind) : String :=
  match k.number with
  | 1 => "→ "
  | 2 => "← "
  | 3 => "• "
  | 4 => "♡ "
  | _ => ""

end EventKind

namespace TraceLevel

def all : List TraceLevel := [off, error, phase, detail, debug]

/-- The place of a level among all. -/
def number : TraceLevel → Nat
  | off => 0
  | error => 1
  | phase => 2
  | detail => 3
  | debug => 4

def name : TraceLevel → String
  | off => "off"
  | error => "error"
  | phase => "phase"
  | detail => "detail"
  | debug => "debug"

/-- The level with a name, in any case. -/
def ofName? (text : String) : Option TraceLevel :=
  all.find? fun l => l.name == lowerCase text

/-- The text for a name that no level has. -/
def unknownName (text : String) : String :=
  "invalid trace level: " ++ quoted text ++ " (expected: off|error|phase|detail|debug)"

/-- Whether events of a scope are wanted. -/
def admits (l : TraceLevel) (scope : TraceScope) : Bool :=
  match l with
  | phase => scope.rank ≤ TraceScope.pass.rank
  | detail => scope.rank ≤ TraceScope.unit.rank
  | debug => true
  | _ => false

end TraceLevel

/-- A moment, in seconds since the start of 1970 and nanoseconds. -/
structure Moment where
  seconds : Int
  nanoseconds : Nat
  deriving Repr, DecidableEq, Inhabited

/-- The moment some seconds and nanoseconds after the start of 1970; nanoseconds beyond a second, or
below none, move the second. -/
def Moment.after (seconds nanoseconds : Int) : Moment :=
  ⟨seconds + nanoseconds.fdiv 1000000000, (nanoseconds.fmod 1000000000).toNat⟩

/-- One record of a trace. -/
structure TraceEvent where
  /-- When it happened, if there is a clock. -/
  time : Option Moment := none
  /-- Its place among all events recorded. -/
  sequence : Nat := 0
  kind : EventKind
  scope : TraceScope
  /-- The span it belongs to; 0 for none. -/
  span : Nat := 0
  /-- The span around it; 0 for none. -/
  parent : Nat := 0
  /-- The thread it happened in; 0 for none. -/
  thread : Nat := 0
  name : String
  detail : String := ""
  extra : List (String × String) := []
  deriving Repr, DecidableEq, Inhabited

/-- Adds an entry to the extras of an event; one with the same key is replaced. -/
def withExtra (extra : List (String × String)) (key value : String) : List (String × String) :=
  extra.filter (fun e => e.1 ≠ key) ++ [(key, value)]

/-- Extras in the order of their keys. -/
def sortedExtra (extra : List (String × String)) : List (String × String) :=
  extra.mergeSort fun a b => decide (a.1 ≤ b.1)

end ShaderScript
