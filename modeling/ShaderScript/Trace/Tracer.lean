import ShaderScript.Trace.Text

/-!
# Tracers

A tracer records events: in a stream of text, in a ring of the last events, or in both.  Events are
numbered as they are recorded, and spans as they begin.  There is no clock here: times are left
out, and the duration of a span is a question mark.
-/

namespace ShaderScript

open Text

/-- Where events go. -/
inductive TraceMode
  | stream
  | ring
  | both
  deriving Repr, DecidableEq, Inhabited

namespace TraceMode

def number : TraceMode → Nat
  | stream => 1
  | ring => 2
  | both => 3

def name : TraceMode → String
  | stream => "stream"
  | ring => "ring"
  | both => "both"

/-- The mode with a name, in any case. -/
def ofName? (text : String) : Option TraceMode :=
  [stream, ring, both].find? fun m => m.name == lowerCase text

/-- The text for a name that no mode has. -/
def unknownName (text : String) : String :=
  "invalid storage mode: " ++ quoted text ++ " (expected: stream|ring|both)"

end TraceMode

/-- The last events, at most `capacity` of them, in slots that are reused in turn. -/
structure TraceRing where
  capacity : Nat
  /-- The slots in use. -/
  slots : List TraceEvent := []
  /-- The slot of the next event. -/
  head : Nat := 0
  /-- Whether all slots are in use. -/
  full : Bool := false
  deriving Inhabited

namespace TraceRing

/-- The capacity of a ring where none is asked for. -/
def defaultCapacity : Nat := 4096

/-- An empty ring. -/
def ofCapacity (capacity : Int) : TraceRing :=
  { capacity := if capacity ≤ 0 then defaultCapacity else capacity.toNat }

/-- The ring after one more event, which takes the next slot. -/
def push (r : TraceRing) (e : TraceEvent) : TraceRing :=
  let head := (r.head + 1) % r.capacity
  { r with
    slots := r.slots.take r.head ++ e :: r.slots.drop (r.head + 1)
    head
    full := r.full || head == 0 }

/-- The events, the oldest first. -/
def events (r : TraceRing) : List TraceEvent :=
  if r.full then r.slots.drop r.head ++ r.slots.take r.head else r.slots.take r.head

def dump (r : TraceRing) (format : TraceFormat) : String :=
  String.join (r.events.map (TraceEvent.text format))

end TraceRing

/-- Text that grows with every event, and how often it was flushed and closed. -/
structure TraceStream where
  format : TraceFormat
  output : String := ""
  flushes : Nat := 0
  closes : Nat := 0
  deriving Inhabited

/-- A tracer.  One that is off has neither a stream nor a ring. -/
structure Tracer where
  level : TraceLevel := .off
  stream : Option TraceStream := none
  ring : Option TraceRing := none
  /-- How many events were recorded. -/
  events : Nat := 0
  /-- How many spans were begun. -/
  spans : Nat := 0
  deriving Inhabited

/-- A span.  One that is not recorded has the number 0. -/
structure Span where
  id : Nat := 0
  parent : Nat := 0
  scope : TraceScope := ⟨0⟩
  name : String := ""
  extra : List (String × String) := []
  deriving Inhabited

namespace Tracer

/-- The tracer that records nothing. -/
def off : Tracer := {}

def isEnabled (t : Tracer) : Bool := t.level != .off

/-- The format for an output file, unless one is asked for. -/
def formatFor (format : TraceFormat) (path : String) : TraceFormat :=
  match format with
  | .auto => if path.endsWith ".ndjson" || path.endsWith ".jsonl" then .ndjson else .text
  | other => other

/-- A new tracer; `path` is the output file, which may settle the format. -/
def new (level : TraceLevel) (mode : TraceMode) (format : TraceFormat) (path : String)
    (ringSize : Int) : Tracer :=
  if level = .off then off
  else
    let stream : TraceStream := { format := formatFor format path }
    let ring := TraceRing.ofCapacity ringSize
    match mode with
    | .stream => { level, stream := some stream }
    | .ring => { level, ring := some ring }
    | .both => { level, stream := some stream, ring := some ring }

/-- A tracer that keeps the last events of a level. -/
def ringOf (level : TraceLevel) : Tracer := new level .ring .text "" 0

/-- Whether a stream takes an event. -/
def streamTakes (t : Tracer) (e : TraceEvent) : Bool :=
  t.level.admits e.scope || e.kind == .heartbeat

/-- Whether a ring takes an event; for failures it takes all. -/
def ringTakes (t : Tracer) (e : TraceEvent) : Bool :=
  t.isEnabled && (t.level == .error || t.level.admits e.scope || e.kind == .heartbeat)

def emitStream (t : Tracer) (e : TraceEvent) : Tracer :=
  match t.stream with
  | none => t
  | some s =>
    if t.streamTakes e then
      let line := TraceEvent.text s.format { e with sequence := t.events + 1 }
      { t with stream := some { s with output := s.output ++ line }, events := t.events + 1 }
    else t

def emitRing (t : Tracer) (e : TraceEvent) : Tracer :=
  match t.ring with
  | none => t
  | some r =>
    if t.ringTakes e then
      { t with ring := some (r.push { e with sequence := t.events + 1 }), events := t.events + 1 }
    else t

/-- Records an event, in the stream first. -/
def emit (t : Tracer) (e : TraceEvent) : Tracer := (t.emitStream e).emitRing e

/-- Whether spans and points of a scope are recorded. -/
def wants (t : Tracer) (scope : TraceScope) : Bool := t.isEnabled && t.level.admits scope

/-- Begins a span under another. -/
def begin (t : Tracer) (scope : TraceScope) (name : String) (parent : Nat) : Span × Tracer :=
  if t.wants scope then
    let id := t.spans + 1
    ({ id, parent, scope, name },
      { t with spans := id }.emit { kind := .spanBegin, scope, span := id, parent, name })
  else ({}, t)

def finish (t : Tracer) (s : Span) (detail : String := "") : Tracer :=
  if s.id = 0 then t
  else
    t.emit
      { kind := .spanEnd, scope := s.scope, span := s.id, parent := s.parent, name := s.name,
        detail, extra := withExtra s.extra "dur" "?" }

/-- Records a point under a span. -/
def point (t : Tracer) (scope : TraceScope) (name detail : String) (parent : Nat) : Tracer :=
  if t.wants scope then t.emit { kind := .point, scope, parent, name, detail } else t

def flush (t : Tracer) : Tracer :=
  { t with stream := t.stream.map fun s => { s with flushes := s.flushes + 1 } }

def close (t : Tracer) : Tracer :=
  { t with stream := t.stream.map fun s =>
      { s with flushes := s.flushes + 1, closes := s.closes + 1 } }

end Tracer

namespace Span

/-- The span with something to say at its end; one that is not recorded says nothing. -/
def withExtra (s : Span) (key value : String) : Span :=
  if s.id = 0 then s else { s with extra := ShaderScript.withExtra s.extra key value }

end Span

namespace Tracer

/-- Whether an event is the end of a span that had something to say, besides how long it took. -/
def speaksFor (s : Span) (e : TraceEvent) : Bool :=
  e.kind == .spanEnd && e.span == s.id && 1 < e.extra.length

/-- Gives a span something to say at its end.  Where it ended already and had something to say, the
ring's record of that end says it too. -/
def annotate (t : Tracer) (s : Span) (key value : String) : Span × Tracer :=
  let amend (e : TraceEvent) : TraceEvent :=
    if s.id != 0 && speaksFor s e then
      { e with extra := ShaderScript.withExtra e.extra key value }
    else e
  (s.withExtra key value,
    { t with ring := t.ring.map fun r => { r with slots := r.slots.map amend } })

end Tracer

end ShaderScript
