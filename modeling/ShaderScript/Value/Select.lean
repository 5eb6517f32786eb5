import ShaderScript.Value.Broadcast

/-!
# Parts of values

Selectors pick a part of a value: a number picks a component, a column or an element, a text picks
components by letter.  `get` follows a path of selectors, `set` gives the value with the part at
the end of a path replaced.
-/

namespace ShaderScript

/-- The letter sets of component selections. -/
def selectionSets : List String := ["xyzw", "rgba", "stpq"]

/-- The place of each letter of a selection in a letter set.  With `unique`, no component may be
picked twice. -/
def selectionPlaces (name selection set : String) (size : Nat) (unique : Bool) :
    List Char → List Nat → Outcome (List Nat)
  | [], _ => .ok []
  | c :: rest, seen =>
    match set.toList.findIdx? (· == c) with
    | none => faultOf name (.mixedSelection selection)
    | some k =>
      if size ≤ k then faultOf name (.noComponent c size)
      else if unique && seen.contains k then faultOf name (.repeatedComponent selection c)
      else do
        let places ← selectionPlaces name selection set size unique rest (k :: seen)
        pure (k :: places)

/-- The components that a selection such as `zyx` picks from a vector of `size` components.  One
to four letters, all from one set. -/
def selectionIndices (name selection : String) (size : Nat) (unique : Bool) :
    Outcome (List Nat) :=
  if 4 < selection.utf8ByteSize then faultOf name (.badSelection selection)
  else
    match selection.toList with
    | [] => faultOf name (.badSelection selection)
    | c :: _ =>
      match selectionSets.find? fun set => set.toList.contains c with
      | none => faultOf name (.badSelection selection)
      | some set => selectionPlaces name selection set size unique selection.toList []

/-- The place that a number picks among `size` places; fractions are cut. -/
def selectorIndex (name : String) (selector : Value) (size : Nat) : Outcome Nat :=
  match selector.scalar? with
  | none => faultOf name (.badSelector selector.typeName)
  | some x =>
    match truncateToInt64? x with
    | some i => if 0 ≤ i ∧ i < size then .ok i.toNat else faultOf name (.noIndex x size)
    | none => faultOf name (.noIndex x size)

/-- The components of a vector picked by a list of places: one is a scalar, more are a vector. -/
def pickComponents (v : Vec) : List Nat → Outcome Value
  | [i] => Value.component v i
  | places => do return .vector (.of v.kind (← collect (fetch v.components) places))

/-- The part of a value that one selector picks. -/
def getOne (base selector : Value) : Outcome Value :=
  match selector with
  | .text field =>
    match base with
    | .vector v => do pickComponents v (← selectionIndices "get" field v.size false)
    | _ => faultOf "get" (.cannotSelect field base.typeName)
  | _ =>
    match base with
    | .vector v => do Value.component v (← selectorIndex "get" selector v.size)
    | .matrix m => do return .vector (← m.column (← selectorIndex "get" selector m.size))
    | .array xs => do fetch xs (← selectorIndex "get" selector xs.length)
    | _ => faultOf "get" (.cannotIndex base.typeName)

/-- The part of a value at the end of a path of selectors. -/
def getPath (base : Value) : List Value → Outcome Value
  | [] => .ok base
  | selector :: rest => do getPath (← getOne base selector) rest

/-- The components that a value gives to `count` places: a vector of that many, or a scalar to
one. -/
def sourceComponents (source : Value) (count : Nat) : Outcome (List Float) :=
  match source with
  | .vector v =>
    if v.size = count then .ok v.components
    else faultOf "set" (.assignedSize v.typeName count)
  | _ =>
    match source.scalar? with
    | some x => if count = 1 then .ok [x] else faultOf "set" (.cannotAssign source.typeName count)
    | none => faultOf "set" (.cannotAssign source.typeName count)

/-- Components with some replaced, place by place, each brought to the kind. -/
def storeAll (kind : ComponentKind) : List Nat → List Float → List Float → Outcome (List Float)
  | [], _, components => .ok components
  | _ :: _, [], _ => .error .overrun
  | i :: places, x :: source, components => do
    storeAll kind places source (← store components i (kind.normalize x))

/-- The vector with components replaced, place by place. -/
def replaceComponents (v : Vec) (places : List Nat) (source : List Float) : Outcome Vec := do
  return ⟨v.kind, ← storeAll v.kind places source (Vec.of v.kind v.components).components⟩

/-- The value with the part that one selector picks replaced. -/
def setOne (base selector value : Value) : Outcome Value :=
  match selector with
  | .text field =>
    match base with
    | .vector v => do
      let places ← selectionIndices "set" field v.size true
      let source ← sourceComponents value places.length
      return .vector (← replaceComponents v places source)
    | _ => faultOf "set" (.cannotAssignField field base.typeName)
  | _ =>
    match base with
    | .vector v => do
      let i ← selectorIndex "set" selector v.size
      let source ← sourceComponents value 1
      return .vector (← replaceComponents v [i] source)
    | .matrix m => do
      let i ← selectorIndex "set" selector m.size
      match value with
      | .vector column =>
        if column.size = m.size then return .matrix (← m.setColumn i column.components)
        else faultOf "set" (.cannotAssignColumn column.typeName m.typeName)
      | _ => faultOf "set" (.cannotAssignColumn value.typeName m.typeName)
    | .array xs => do
      let i ← selectorIndex "set" selector xs.length
      return .array (← store xs i value)
    | _ => faultOf "set" (.cannotIndex base.typeName)

/-- The value with the part at the end of a path of selectors replaced. -/
def setPath (base : Value) : List Value → Value → Outcome Value
  | [], value => .ok value
  | [selector], value => setOne base selector value
  | selector :: next :: rest, value => do
    let part ← getOne base selector
    let updated ← setPath part (next :: rest) value
    setOne base selector updated

/-- `get` as a catalog function: a value and a path. -/
def getFunction : List Value → Outcome Value
  | [] => faultOf "get" .missingBase
  | base :: path => getPath base path

/-- The part of `base` at a path replaced; the last argument is the new part. -/
def setWith (base : Value) (args : List Value) : Outcome Value :=
  match args.getLast? with
  | none => faultOf "set" .missingValue
  | some value => setPath base args.dropLast value

/-- `set` as a catalog function: a value, a path and the new part. -/
def setFunction : List Value → Outcome Value
  | base :: value :: rest => setWith base (value :: rest)
  | _ => faultOf "set" .missingBaseAndValue

end ShaderScript
