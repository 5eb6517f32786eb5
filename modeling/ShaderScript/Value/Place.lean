import ShaderScript.Value.Basic
import ShaderScript.Value.Fault

/-!
# Places

Components of vectors, entries of matrices and elements of arrays stand at numbered places.  A
computation that reads or writes a place past the end of its list breaks off (`Failure.overrun`).
Every access of the catalog to a place goes through the functions of this module.
-/

namespace ShaderScript

variable {α β γ : Type}

/-- What stands at a place. -/
def fetch (xs : List α) (i : Nat) : Outcome α :=
  match xs[i]? with
  | some x => .ok x
  | none => .error .overrun

def store (xs : List α) (i : Nat) (x : α) : Outcome (List α) :=
  if i < xs.length then .ok (xs.set i x) else .error .overrun

/-- The stretch of `count` places from `start` on. -/
def slice (xs : List α) (start count : Nat) : Outcome (List α) :=
  if start + count ≤ xs.length then .ok ((xs.drop start).take count) else .error .overrun

/-- The list with the stretch from `start` on overwritten. -/
def overwrite (xs : List α) (start : Nat) (new : List α) : Outcome (List α) :=
  if start + new.length ≤ xs.length then
    .ok (xs.take start ++ new ++ xs.drop (start + new.length))
  else .error .overrun

/-- `f` on what stands at the same place of two lists; the second has to reach as far as the
first. -/
def combine (f : α → β → γ) : List α → List β → Outcome (List γ)
  | [], _ => .ok []
  | _ :: _, [] => .error .overrun
  | x :: xs, y :: ys => do
    let zs ← combine f xs ys
    pure (f x y :: zs)

/-- `f` on all entries in order; the first failure decides. -/
def collect (f : α → Outcome β) : List α → Outcome (List β)
  | [] => .ok []
  | x :: xs => do
    let y ← f x
    let ys ← collect f xs
    pure (y :: ys)

namespace Mat

/-- The entry in a column and row. -/
def entry (m : Mat) (column row : Nat) : Outcome Float := fetch m.entries (column * m.size + row)

def columnEntries (m : Mat) (column : Nat) : Outcome (List Float) :=
  slice m.entries (column * m.size) m.size

def column (m : Mat) (column : Nat) : Outcome Vec := do
  return .ofFloats (← m.columnEntries column)

def setColumn (m : Mat) (column : Nat) (entries : List Float) : Outcome Mat := do
  return ⟨m.size, ← overwrite m.entries (column * m.size) entries⟩

/-- Whether the entries of a matrix are those of another, up to the first that is not. -/
def sameEntries : List Float → List Float → Outcome Bool
  | [], _ => .ok true
  | _ :: _, [] => .error .overrun
  | x :: xs, y :: ys => if x == y then sameEntries xs ys else .ok false

/-- Same size, equal entries. -/
def same (m o : Mat) : Outcome Bool :=
  if m.size = o.size then sameEntries m.entries o.entries else .ok false

end Mat

/-- Whether two units are the same.  Two of one type without equality cannot be compared. -/
def Sampler.same (s t : Sampler) : Outcome Bool :=
  match s.incomparable with
  | none => .ok (s.identity == t.identity)
  | some type =>
    if t.incomparable = some type then .error (.incomparable type)
    else .ok (s.identity == t.identity)

namespace Value

/-- Component `i` of a vector: a truth value where the components are. -/
def component (v : Vec) (i : Nat) : Outcome Value := do
  let x ← fetch v.components i
  match v.kind with
  | .bool => return .bool (x != 0)
  | _ => return .number x

mutual

/-- Whether two values are equal: containers by their parts, scalars as numbers, samplers by
identity where they can be compared. -/
def same : Value → Value → Outcome Bool
  | vector v, vector w => .ok (v.same w)
  | matrix m, matrix o => m.same o
  | array xs, array ys => if xs.length = ys.length then sameAll xs ys else .ok false
  | void, void => .ok true
  | text s, text t => .ok (s == t)
  | sampler s, sampler t => s.same t
  | a, b =>
    match a.scalar?, b.scalar? with
    | some x, some y => .ok (x == y)
    | _, _ => .ok false

/-- Whether two lists have equal values at every place, up to the first that are not. -/
def sameAll : List Value → List Value → Outcome Bool
  | [], [] => .ok true
  | x :: xs, y :: ys => do if ← same x y then sameAll xs ys else .ok false
  | _, _ => .ok false

end

end Value

end ShaderScript
