import ShaderScript.Trace.Basic

/-!
# Trace events as text

An event is one line: either `#seq [scope] → name (detail) {k=v}`, or a JSON object.
-/

namespace ShaderScript

open Text

/-- How events are written; `auto` leaves it to the name of the file. -/
inductive TraceFormat
  | auto
  | text
  | ndjson
  deriving Repr, DecidableEq, Inhabited

namespace TraceFormat

def number : TraceFormat → Nat
  | auto => 0
  | text => 1
  | ndjson => 2

/-- The format with a name, in any case. -/
def ofName? (name : String) : Option TraceFormat :=
  let lower := lowerCase name
  if lower = "" ∨ lower = "auto" then some auto
  else if lower = "text" then some text
  else if lower = "ndjson" ∨ lower = "json" then some ndjson
  else none

/-- The text for a name that no format has. -/
def unknownName (name : String) : String :=
  "invalid trace format: " ++ quoted name ++ " (expected: auto|text|ndjson)"

end TraceFormat

namespace Moment

/-- Year, month and day of a number of days since the start of 1970. -/
def civil (days : Int) : Int × Int × Int :=
  let z := days + 719468
  let era := z.fdiv 146097
  let dayOfEra := z - era * 146097
  let yearOfEra :=
    (dayOfEra - dayOfEra / 1460 + dayOfEra / 36524 - dayOfEra / 146096) / 365
  let dayOfYear := dayOfEra - (365 * yearOfEra + yearOfEra / 4 - yearOfEra / 100)
  let m := (5 * dayOfYear + 2) / 153
  let day := dayOfYear - (153 * m + 2) / 5 + 1
  let month := if m < 10 then m + 3 else m - 9
  let year := yearOfEra + era * 400 + (if month ≤ 2 then 1 else 0)
  (year, month, day)

/-- An integer with at least `width` digits. -/
def padded (width : Nat) (i : Int) : String :=
  (if i < 0 then "-" else "") ++ padLeft width '0' (natText i.natAbs)

/-- The moment as date and time with microseconds, in universal time. -/
def text (t : Moment) : String :=
  let days := t.seconds.fdiv 86400
  let second := t.seconds - days * 86400
  let (year, month, day) := civil days
  padded 4 year ++ "-" ++ padded 2 month ++ "-" ++ padded 2 day ++ "T" ++
    padded 2 (second / 3600) ++ ":" ++ padded 2 (second / 60 % 60) ++ ":" ++
    padded 2 (second % 60) ++ "." ++ padded 6 (t.nanoseconds / 1000 : Nat) ++ "Z"

end Moment

namespace TraceEvent

/-- The event as a line for people. -/
def lineText (e : TraceEvent) : String :=
  let extra := (sortedExtra e.extra).map fun (k, v) => k ++ "=" ++ v
  "#" ++ padRight 6 (natText e.sequence) ++ " [" ++ e.scope.name ++ "] " ++
    (if 0 < e.parent then "  " else "") ++ e.kind.mark ++ e.name ++
    (if e.detail.isEmpty then "" else " (" ++ e.detail ++ ")") ++
    (if extra.isEmpty then "" else " \x7b" ++ ", ".intercalate extra ++ "\x7d") ++ "\n"

def member (key value : String) : String := jsonQuoted key ++ ":" ++ value

/-- A numeric member that is left out when it is 0. -/
def numberMember (key : String) (n : Nat) : List String :=
  if n = 0 then [] else [member key (natText n)]

/-- The event as a line of JSON.  A time that is not known is a question mark. -/
def jsonText (e : TraceEvent) : String :=
  let time :=
    match e.time with
    | some t => t.text
    | none => "?"
  let extra := (sortedExtra e.extra).map fun (k, v) => member k (jsonQuoted v)
  let members :=
    [member "time" (jsonQuoted time), member "seq" (natText e.sequence),
      member "kind" (jsonQuoted e.kind.name), member "scope" (jsonQuoted e.scope.name)] ++
    numberMember "span_id" e.span ++ numberMember "parent_id" e.parent ++
    numberMember "gid" e.thread ++ [member "name" (jsonQuoted e.name)] ++
    (if e.detail.isEmpty then [] else [member "detail" (jsonQuoted e.detail)]) ++
    (if extra.isEmpty then []
      else [member "extra" ("\x7b" ++ ",".intercalate extra ++ "\x7d")])
  "\x7b" ++ ",".intercalate members ++ "\x7d\n"

/-- The event as a line in a format. -/
def text (format : TraceFormat) (e : TraceEvent) : String :=
  match format with
  | .ndjson => e.jsonText
  | _ => e.lineText

end TraceEvent

end ShaderScript
