/-!
# Batch events

What a batch run says about the file at hand: the stage it is in, and how that stage goes.
-/

namespace ShaderScript

/-- A stage of handling a file. -/
inductive Stage
  | load
  | translate
  | store
  | other
  deriving Repr, DecidableEq, Inhabited

namespace Stage

def name : Stage → String
  | load => "load"
  | translate => "translate"
  | store => "store"
  | other => ""

def ofName (name : String) : Stage :=
  if name = "load" then load
  else if name = "translate" then translate
  else if name = "store" then store
  else other

/-- How far a file is in a stage, in tenths. -/
def tenths : Stage → Nat
  | load => 1
  | translate => 5
  | store => 9
  | other => 0

/-- The word for work in a stage. -/
def label : Stage → String
  | load => "loading"
  | translate => "translating"
  | store => "writing"
  | other => ""

end Stage

/-- How a stage goes. -/
inductive Status
  | queued
  | working
  | done
  | cached
  | error
  | other
  deriving Repr, DecidableEq, Inhabited

namespace Status

def name : Status → String
  | queued => "queued"
  | working => "working"
  | done => "done"
  | cached => "cached"
  | error => "error"
  | other => ""

def ofName (name : String) : Status :=
  if name = "queued" then queued
  else if name = "working" then working
  else if name = "done" then done
  else if name = "cached" then cached
  else if name = "error" then error
  else other

end Status

/-- An event of a batch run. -/
structure BatchEvent where
  file : String
  stage : Stage
  status : Status
  /-- Why the file failed, if it did. -/
  failure : Option String := none
  deriving Repr, DecidableEq, Inhabited

end ShaderScript
