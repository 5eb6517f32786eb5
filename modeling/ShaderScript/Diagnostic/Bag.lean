import ShaderScript.Diagnostic.Basic

/-!
# Bags of diagnostics

A bag collects diagnostics in order, up to a capacity.
-/

namespace ShaderScript

/-- Diagnostics in the order they came, at most `capacity` of them by way of `add`. -/
structure Bag where
  capacity : Nat
  items : List Diagnostic := []
  deriving Repr, DecidableEq, Inhabited

namespace Bag

/-- The largest capacity. -/
def maxCapacity : Nat := 65535

/-- An empty bag with a capacity as near to `limit` as there is. -/
def ofLimit (limit : Int) : Bag := { capacity := min limit.toNat maxCapacity }

/-- Whether there is no room left. -/
def isFull (b : Bag) : Bool := b.capacity ≤ b.items.length

/-- The bag with one more diagnostic, if there is room. -/
def add (b : Bag) (d : Diagnostic) : Bag :=
  if b.isFull then b else { b with items := b.items ++ [d] }

/-- The bag with more diagnostics, as far as there is room. -/
def addAll (b : Bag) (ds : List Diagnostic) : Bag := ds.foldl add b

/-- Whether there is an error. -/
def hasErrors (b : Bag) : Bool := b.items.any Diagnostic.isError

/-- Whether there is a warning, or worse. -/
def hasWarnings (b : Bag) : Bool := b.items.any Diagnostic.isWarning

/-- The bag with the diagnostics of another; the capacity grows if it must and can. -/
def merge (b other : Bag) : Bag :=
  let total := b.items.length + other.items.length
  { capacity := if total ≤ maxCapacity ∧ b.capacity < total then total else b.capacity
    items := b.items ++ other.items }

/-- The order by position, then severity (the worst first), then code. -/
def before (d e : Diagnostic) : Bool :=
  if d.pos.line ≠ e.pos.line then d.pos.line < e.pos.line
  else if d.pos.col ≠ e.pos.col then d.pos.col < e.pos.col
  else if d.severity.rank ≠ e.severity.rank then e.severity.rank < d.severity.rank
  else d.code.number < e.code.number

/-- The bag in order; equals keep their places. -/
def sort (b : Bag) : Bag := { b with items := b.items.mergeSort fun d e => !before e d }

/-- What tells diagnostics apart in `dedup`. -/
def dedupKey (d : Diagnostic) : String := d.code.id ++ ":" ++ d.pos.text ++ ":" ++ d.message

/-- The first diagnostic of each key. -/
def firstOfEach : List Diagnostic → List String → List Diagnostic
  | [], _ => []
  | d :: rest, seen =>
    if seen.contains (dedupKey d) then firstOfEach rest seen
    else d :: firstOfEach rest (dedupKey d :: seen)

/-- The bag without repeats of a code, position and message. -/
def dedup (b : Bag) : Bag := { b with items := firstOfEach b.items [] }

end Bag

/-- A bag behind a filter that lets each finding through once, whether there is room or not. -/
structure DistinctBag where
  bag : Bag
  seen : List Diagnostic := []

namespace DistinctBag

/-- Reports a diagnostic: a finding that was seen is dropped. -/
def report (r : DistinctBag) (d : Diagnostic) : DistinctBag :=
  if r.seen.any (·.sameFinding d) then r
  else { bag := r.bag.add d, seen := r.seen ++ [d] }

/-- Reports diagnostics in order. -/
def reportAll (r : DistinctBag) (ds : List Diagnostic) : DistinctBag := ds.foldl report r

end DistinctBag

end ShaderScript
