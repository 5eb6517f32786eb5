import ShaderScript.Proofs.Place
import ShaderScript.Value.Catalog

/-!
# The law of componentwise functions

A function of numbers is carried over to vectors component by component.  This module says what
comes of that without going through the operands one after the other: which operand is to blame if
the operands do not go together (`offenceAt`), which numbers stand for component `i` (`row`), and
what the call gives or why it fails (`Spread.Gives`, `Spread.Fails`).

Numbers and truth values are carried over in the same way (`Carried`), so the law is proved once,
for `spread`.  A vector without components decides nothing; it counts as the number 0.

The functions of the catalog that are carried over check how many arguments there are and are
componentwise on everything but matrices (`Spreads`).  For vectors of floats, where bringing a
component to its kind changes nothing, component `i` of the result is the result for the components
`i` of the arguments.
-/

namespace ShaderScript

variable {args : List Value} {e : Failure} {first v : Vec} {i : Nat} {cause : Cause}
  {f : ScalarFunction}

/-! ## Operands -/

namespace Value

/-- The vector that a value is. -/
def vector? : Value → Option Vec
  | vector v => some v
  | _ => none

/-- What is wrong with the operand at a position, when `first` is the first vector among all of
them: a vector has to be as long as `first`, and all else has to be a scalar. -/
def offence (first : Option Vec) (position : Nat) : Value → Option Cause
  | vector v =>
    first.bind fun f => if v.size = f.size then none else some (.unlikeSizes f.typeName v.typeName)
  | a => if a.scalar?.isSome then none else some (.argument position .scalarOrVector a.typeName)

/-- What stands for an operand at component `i`: that component of a vector, a scalar itself. -/
def pick (i : Nat) : Value → Value
  | vector v => number (v.components.getD i 0)
  | a => a

end Value

/-- The first vector among the operands. -/
def firstVector? (args : List Value) : Option Vec := args.findSome? Value.vector?

/-- The vector that decides the kind and the size of the result: the first, if it has components. -/
def leading? (args : List Value) : Option Vec := (firstVector? args).filter fun v => 0 < v.size

/-- What is wrong with operand `i`. -/
def offenceAt (args : List Value) (i : Nat) : Option Cause :=
  args[i]?.bind (Value.offence (firstVector? args) (i + 1))

/-- Operand `i` is wrong, and none before it is. -/
def EarliestOffence (args : List Value) (i : Nat) (cause : Cause) : Prop :=
  offenceAt args i = some cause ∧ ∀ j < i, offenceAt args j = none

/-- The operands go together: they are scalars and vectors of one size. -/
def Compatible (args : List Value) : Prop := ∀ i, offenceAt args i = none

/-- The numbers that stand for component `i`. -/
def row (args : List Value) (i : Nat) : List Float := args.map fun a => scalarOperand (a.pick i)

/-! ## Both kinds of componentwise calls -/

/-- What a componentwise call carries over: a function with numbers as results, or a test. -/
inductive Carried
  | numbers
  | truths

namespace Carried

/-- The kind of the result, by the kind of the first vector. -/
def kind : Carried → ComponentKind → ComponentKind
  | numbers, k => k
  | truths, _ => .bool

/-- The result for scalars. -/
def scalar : Carried → Float → Value
  | numbers, x => .number x
  | truths, x => .bool (x != 0)

end Carried

/-- `f` on scalars, or on every component of the vectors among the operands. -/
def spread (c : Carried) (name : String) (f : ScalarFunction) (args : List Value) :
    Outcome Value := do
  match ← commonShape name args with
  | none => return c.scalar (← f (args.map scalarOperand))
  | some first =>
    return .vector (.of (c.kind first.kind) (← mapComponents f args (List.range first.size)))

theorem broadcast_eq_spread : broadcast = spread .numbers := rfl

theorem broadcastTest_eq_spread : broadcastTest = spread .truths := rfl

namespace Spread

/-- Why a componentwise call fails: the earliest operand that does not go with the others, or else
the function, which is asked for the lowest components first. -/
inductive Fails (name : String) (f : ScalarFunction) (args : List Value) : Failure → Prop
  | operand {i : Nat} {cause : Cause} (hoffence : EarliestOffence args i cause) :
    Fails name f args (.fault ⟨name, cause⟩)
  | scalars {e : Failure} (hargs : Compatible args) (hplain : leading? args = none)
    (hf : f (args.map scalarOperand) = .error e) : Fails name f args e
  | component {first : Vec} {i : Nat} {e : Failure} (hargs : Compatible args)
    (hfirst : leading? args = some first) (hi : i < first.size) (hf : f (row args i) = .error e)
    (hbefore : ∀ j < i, ∃ x, f (row args j) = .ok x) : Fails name f args e

/-- What a componentwise call gives: the function on the scalars, or a vector as long as the vectors
among the operands, with the function on component `i` of each of them as component `i`. -/
inductive Gives (c : Carried) (f : ScalarFunction) (args : List Value) : Value → Prop
  | scalars {x : Float} (hargs : Compatible args) (hplain : leading? args = none)
    (hf : f (args.map scalarOperand) = .ok x) : Gives c f args (c.scalar x)
  | components {first : Vec} {xs : List Float} (hargs : Compatible args)
    (hfirst : leading? args = some first) (hlength : xs.length = first.size)
    (hf : ∀ i, (hi : i < xs.length) → f (row args i) = .ok xs[i]) :
    Gives c f args
      (.vector ⟨c.kind first.kind, xs.map (c.kind first.kind).normalize⟩)

end Spread

/-! ## Searching and collecting -/

section Lists

variable {α β : Type}

/-- What a search finds is found at the first place where something is found. -/
theorem findSome?_eq_some_iff_first {f : α → Option β} {xs : List α} {b : β} :
    xs.findSome? f = some b ↔
      ∃ i : Nat, xs[i]?.bind f = some b ∧ ∀ j < i, xs[j]?.bind f = none := by
  rw [List.findSome?_eq_some_iff]
  constructor
  · rintro ⟨before, x, after, rfl, hx, hbefore⟩
    refine ⟨before.length, by simpa using hx, fun j hj => ?_⟩
    simp [List.getElem?_append_left hj, List.getElem?_eq_getElem hj, hbefore]
  · rintro ⟨i, hi, hbefore⟩
    obtain ⟨x, hget, hx⟩ := Option.bind_eq_some_iff.mp hi
    obtain ⟨hlt, rfl⟩ := List.getElem?_eq_some_iff.mp hget
    refine ⟨xs.take i, xs[i], xs.drop (i + 1), by simp, hx, fun y hy => ?_⟩
    obtain ⟨j, hj, rfl⟩ := List.mem_take_iff_getElem.mp hy
    simpa [show j < xs.length by omega] using hbefore j (by omega)

/-- The failure of an outcome. -/
def failure? : Outcome β → Option Failure
  | .error e => some e
  | .ok _ => none

theorem failure?_eq_some_iff {r : Outcome β} : failure? r = some e ↔ r = .error e := by
  cases r <;> simp [failure?]

theorem failure?_eq_none_iff {r : Outcome β} : failure? r = none ↔ ∃ y, r = .ok y := by
  cases r <;> simp [failure?]

/-- Collecting fails as the first that fails. -/
theorem collect_eq_error_iff {g : α → Outcome β} {xs : List α} :
    collect g xs = .error e ↔ xs.findSome? (fun x => failure? (g x)) = some e := by
  induction xs with
  | nil => simp [collect]
  | cons x xs ih =>
    rw [collect, List.findSome?_cons]
    cases g x with
    | error e' => simp [failure?, bind, Except.bind]
    | ok y =>
      change _ ↔ xs.findSome? (fun x => failure? (g x)) = some e
      rw [← ih]
      cases collect g xs <;> simp [bind, Except.bind, pure, Except.pure]

/-- The results for the places up to `n`, each at its place. -/
theorem collect_range_eq_ok_iff {g : Nat → Outcome β} {n : Nat} {ys : List β} :
    collect g (List.range n) = .ok ys ↔
      ys.length = n ∧ ∀ i, (hi : i < ys.length) → g i = .ok ys[i] := by
  rw [collect_eq_ok_iff]
  constructor
  · intro h
    have hlength : n = ys.length := by simpa using congrArg List.length h
    subst hlength
    refine ⟨rfl, fun i hi => ?_⟩
    simpa [hi] using congrArg (fun l => l[i]?) h
  · rintro ⟨rfl, h⟩
    refine List.ext_getElem (by simp) fun i hi hi' => ?_
    simpa using h i (by simpa using hi)

/-- The lowest place that fails decides. -/
theorem collect_range_eq_error_iff {g : Nat → Outcome β} {n : Nat} :
    collect g (List.range n) = .error e ↔
      ∃ i < n, g i = .error e ∧ ∀ j < i, ∃ y, g j = .ok y := by
  rw [collect_eq_error_iff, findSome?_eq_some_iff_first]
  constructor
  · rintro ⟨i, hi, hbefore⟩
    obtain ⟨k, hk, hfails⟩ := Option.bind_eq_some_iff.mp hi
    obtain ⟨hlt, rfl⟩ := List.getElem?_eq_some_iff.mp hk
    simp only [List.length_range] at hlt
    refine ⟨i, hlt, by simpa [failure?_eq_some_iff] using hfails, fun j hj => ?_⟩
    have hj' := hbefore j hj
    rw [List.getElem?_range (Nat.lt_trans hj hlt), Option.bind_some] at hj'
    exact failure?_eq_none_iff.mp hj'
  · rintro ⟨i, hi, hfails, hbefore⟩
    refine ⟨i, ?_, fun j hj => ?_⟩
    · rw [List.getElem?_range hi, Option.bind_some]
      exact failure?_eq_some_iff.mpr hfails
    · rw [List.getElem?_range (Nat.lt_trans hj hi), Option.bind_some]
      exact failure?_eq_none_iff.mpr (hbefore j hj)

end Lists

/-! ## The shape of the operands -/

/-- Going through operands finds the earliest offence, or else the first vector. -/
theorem commonShapeFrom_eq (name : String) (position : Nat) (first : Option Vec)
    (args : List Value) :
    commonShapeFrom name position first args =
      match (args.zipIdx position).findSome? fun p =>
        p.1.offence (first.or (firstVector? args)) p.2 with
      | some cause => faultOf name cause
      | none => .ok (first.or (firstVector? args)) := by
  induction args generalizing position first with
  | nil => cases first <;> rfl
  | cons a args ih =>
    rw [List.zipIdx_cons, List.findSome?_cons]
    cases a with
    | vector v =>
      cases first with
      | none =>
        -- The first vector is as long as itself.
        have hfirst : firstVector? (.vector v :: args) = some v := rfl
        simp only [commonShapeFrom, ih, hfirst, Option.none_or, Option.some_or, Value.offence,
          Option.bind_some, if_true]
      | some f =>
        by_cases hsize : v.size = f.size
        · simp only [commonShapeFrom, ih, hsize, Value.offence, Option.some_or, Option.bind_some,
            if_true]
        · simp only [commonShapeFrom, hsize, Value.offence, Option.some_or, Option.bind_some,
            if_false]
    | bool | number | host => exact ih (position + 1) first
    | _ => rfl

/-- The cause of the earliest offence. -/
def earliestCause? (args : List Value) : Option Cause :=
  (args.zipIdx 1).findSome? fun p => p.1.offence (firstVector? args) p.2

theorem offenceAt_eq (args : List Value) (i : Nat) :
    offenceAt args i =
      (args.zipIdx 1)[i]?.bind fun p => p.1.offence (firstVector? args) p.2 := by
  rw [offenceAt, List.getElem?_zipIdx, Option.bind_map, Nat.add_comm 1 i]
  rfl

theorem earliestCause?_eq_some_iff :
    earliestCause? args = some cause ↔ ∃ i, EarliestOffence args i cause := by
  simp only [earliestCause?, findSome?_eq_some_iff_first, EarliestOffence, offenceAt_eq]

theorem earliestCause?_eq_none_iff : earliestCause? args = none ↔ Compatible args := by
  constructor
  · intro h i
    rw [offenceAt_eq]
    cases hp : (args.zipIdx 1)[i]? with
    | none => rfl
    | some p => exact List.findSome?_eq_none_iff.mp h p (List.mem_of_getElem? hp)
  · intro h
    cases hcause : earliestCause? args with
    | none => rfl
    | some cause =>
      obtain ⟨i, hi, _⟩ := earliestCause?_eq_some_iff.mp hcause
      rw [h i] at hi
      cases hi

/-- The earliest offence decides, and else the first vector is the shape. -/
theorem commonShape_eq (name : String) (args : List Value) :
    commonShape name args =
      match earliestCause? args with
      | some cause => faultOf name cause
      | none => .ok (leading? args) := by
  rw [commonShape, commonShapeFrom_eq, Option.none_or, earliestCause?]
  cases (args.zipIdx 1).findSome? fun p => p.1.offence (firstVector? args) p.2 <;> rfl

/-- All vectors are as long as the first one. -/
theorem Compatible.size_eq (h : Compatible args) (hfirst : firstVector? args = some first)
    (hv : .vector v ∈ args) : v.size = first.size := by
  obtain ⟨i, hi⟩ := List.mem_iff_getElem?.mp hv
  have hoffence := h i
  rw [offenceAt, hi, hfirst, Option.bind_some, Value.offence, Option.bind_some] at hoffence
  simpa using hoffence

theorem Value.vector?_eq_some_iff {a : Value} : a.vector? = some v ↔ a = .vector v := by
  cases a <;> simp [Value.vector?]

theorem mem_of_firstVector? (h : firstVector? args = some first) : .vector first ∈ args := by
  obtain ⟨a, ha, hvector⟩ := List.exists_of_findSome?_eq_some h
  rwa [Value.vector?_eq_some_iff.mp hvector] at ha

theorem exists_firstVector? (h : .vector v ∈ args) : ∃ first, firstVector? args = some first :=
  Option.isSome_iff_exists.mp (List.findSome?_isSome_iff.mpr ⟨_, h, rfl⟩)

theorem Value.offence_of_vector?_eq_none {a : Value} (h : a.vector? = none) (first : Option Vec)
    (position : Nat) :
    a.offence first position =
      if a.scalar?.isSome then none
      else some (.argument position .scalarOrVector a.typeName) := by
  cases a <;> first | rfl | cases h

/-- Operands go together if they are scalars and vectors, and no two vectors differ in size. -/
theorem compatible_iff :
    Compatible args ↔ (∀ a ∈ args, a.scalar?.isSome ∨ a.vector?.isSome) ∧
      ∀ v w, .vector v ∈ args → .vector w ∈ args → v.size = w.size := by
  constructor
  · intro h
    refine ⟨fun a ha => ?_, fun v w hv hw => ?_⟩
    · obtain ⟨i, hi⟩ := List.mem_iff_getElem?.mp ha
      have hoffence := h i
      rw [offenceAt, hi, Option.bind_some] at hoffence
      cases hvector : a.vector? with
      | some v => exact .inr rfl
      | none =>
        rw [Value.offence_of_vector?_eq_none hvector] at hoffence
        by_cases hscalar : a.scalar?.isSome
        · exact .inl hscalar
        · rw [if_neg hscalar] at hoffence
          cases hoffence
    · -- Both have the size of the first vector.
      obtain ⟨first, hfirst⟩ := exists_firstVector? hv
      rw [h.size_eq hfirst hv, h.size_eq hfirst hw]
  · rintro ⟨hkinds, hsizes⟩ i
    rw [offenceAt]
    cases ha : args[i]? with
    | none => rfl
    | some a =>
      have hmem := List.mem_of_getElem? ha
      rw [Option.bind_some]
      cases hvector : a.vector? with
      | none =>
        have hscalar : a.scalar?.isSome := by simpa [hvector] using hkinds a hmem
        rw [Value.offence_of_vector?_eq_none hvector, if_pos hscalar]
      | some v =>
        obtain rfl := Value.vector?_eq_some_iff.mp hvector
        cases hfirst : firstVector? args with
        | none => rfl
        | some first =>
          have hsize := hsizes v first hmem (mem_of_firstVector? hfirst)
          rw [Value.offence, Option.bind_some, if_pos hsize]

/-- The number of an offence tells a vector of another size from what is no operand at all. -/
theorem number_code_of_offenceAt {a : Value} (ha : args[i]? = some a)
    (h : offenceAt args i = some cause) :
    cause.code.number = if a.vector?.isSome then 1001 else 1002 := by
  rw [offenceAt, ha, Option.bind_some] at h
  cases hvector : a.vector? with
  | none =>
    rw [Value.offence_of_vector?_eq_none hvector] at h
    split at h
    · cases h
    · cases h
      rfl
  | some v =>
    obtain rfl := Value.vector?_eq_some_iff.mp hvector
    obtain ⟨first, -, h⟩ := Option.bind_eq_some_iff.mp h
    split at h
    · cases h
    · cases h
      rfl

theorem leading?_eq_some_iff :
    leading? args = some first ↔ firstVector? args = some first ∧ 0 < first.size := by
  rw [leading?, Option.filter_eq_some_iff, decide_eq_true_iff]

/-! ## Calls -/

/-- Compatible operands have a number for each component. -/
theorem collect_operandAt (h : Compatible args) (hfirst : leading? args = some first)
    (hi : i < first.size) : collect (operandAt i) args = .ok (row args i) := by
  rw [collect_eq_ok_iff, row, List.map_map]
  refine List.map_congr_left fun a ha => ?_
  cases a with
  | vector v =>
    have hlt : i < v.components.length := by
      rw [← h.size_eq (leading?_eq_some_iff.mp hfirst).1 ha] at hi
      exact hi
    rw [operandAt, fetch_eq_ok hlt]
    simp [Value.pick, scalarOperand, Value.scalar?, hlt]
  | _ => rfl

/-- The components of the result are collected one after the other. -/
theorem mapComponents_eq {places : List Nat}
    (h : ∀ i ∈ places, collect (operandAt i) args = .ok (row args i)) :
    mapComponents f args places = collect (fun i => f (row args i)) places := by
  induction places with
  | nil => rfl
  | cons i places ih =>
    rw [mapComponents, collect, h i List.mem_cons_self,
      ih fun j hj => h j (List.mem_cons_of_mem i hj)]
    rfl

theorem spread_of_offence (c : Carried) (name : String) (f : ScalarFunction)
    (h : EarliestOffence args i cause) : spread c name f args = faultOf name cause := by
  rw [spread, commonShape_eq, earliestCause?_eq_some_iff.mpr ⟨i, h⟩]
  rfl

theorem spread_of_scalars (c : Carried) (name : String) (f : ScalarFunction) (h : Compatible args)
    (hplain : leading? args = none) :
    spread c name f args = (f (args.map scalarOperand)).map c.scalar := by
  rw [spread, commonShape_eq, earliestCause?_eq_none_iff.mpr h, hplain]
  rfl

theorem spread_of_vectors (c : Carried) (name : String) (f : ScalarFunction) (h : Compatible args)
    (hfirst : leading? args = some first) :
    spread c name f args =
      (collect (fun i => f (row args i)) (List.range first.size)).map fun xs =>
        .vector (.of (c.kind first.kind) xs) := by
  have hcomponents : mapComponents f args (List.range first.size) =
      collect (fun i => f (row args i)) (List.range first.size) :=
    mapComponents_eq fun i hi => collect_operandAt h hfirst (List.mem_range.mp hi)
  rw [spread, commonShape_eq, earliestCause?_eq_none_iff.mpr h, hfirst]
  simp only [bind, Except.bind, hcomponents]
  rfl

/-- When a componentwise call fails, and why. -/
theorem spread_eq_error_iff {c : Carried} {name : String} :
    spread c name f args = .error e ↔ Spread.Fails name f args e := by
  constructor
  · intro h
    -- The earliest offending operand decides, and if there is none, the leading vector.
    cases hcause : earliestCause? args with
    | some cause =>
      obtain ⟨i, hoffence⟩ := earliestCause?_eq_some_iff.mp hcause
      rw [spread_of_offence c name f hoffence] at h
      cases h
      exact .operand hoffence
    | none =>
      have hargs := earliestCause?_eq_none_iff.mp hcause
      cases hfirst : leading? args with
      | none =>
        rw [spread_of_scalars c name f hargs hfirst, map_eq_error_iff] at h
        exact .scalars hargs hfirst h
      | some first =>
        rw [spread_of_vectors c name f hargs hfirst, map_eq_error_iff,
          collect_range_eq_error_iff] at h
        obtain ⟨i, hi, hf, hbefore⟩ := h
        exact .component hargs hfirst hi hf hbefore
  · intro h
    cases h with
    | operand hoffence => exact spread_of_offence c name f hoffence
    | scalars hargs hplain hf => rw [spread_of_scalars c name f hargs hplain, hf]; rfl
    | component hargs hfirst hi hf hbefore =>
      rw [spread_of_vectors c name f hargs hfirst, map_eq_error_iff, collect_range_eq_error_iff]
      exact ⟨_, hi, hf, hbefore⟩

/-- What a componentwise call gives. -/
theorem spread_eq_ok_iff {c : Carried} {name : String} {r : Value} :
    spread c name f args = .ok r ↔ Spread.Gives c f args r := by
  constructor
  · intro h
    cases hcause : earliestCause? args with
    | some cause =>
      obtain ⟨i, hoffence⟩ := earliestCause?_eq_some_iff.mp hcause
      rw [spread_of_offence c name f hoffence] at h
      cases h
    | none =>
      have hargs := earliestCause?_eq_none_iff.mp hcause
      cases hfirst : leading? args with
      | none =>
        rw [spread_of_scalars c name f hargs hfirst, map_eq_ok_iff] at h
        obtain ⟨x, hf, rfl⟩ := h
        exact .scalars hargs hfirst hf
      | some first =>
        rw [spread_of_vectors c name f hargs hfirst, map_eq_ok_iff] at h
        obtain ⟨xs, hxs, rfl⟩ := h
        obtain ⟨hlength, hf⟩ := collect_range_eq_ok_iff.mp hxs
        exact .components hargs hfirst hlength hf
  · intro h
    cases h with
    | scalars hargs hplain hf => rw [spread_of_scalars c name f hargs hplain, hf]; rfl
    | components hargs hfirst hlength hf =>
      rw [spread_of_vectors c name f hargs hfirst, map_eq_ok_iff]
      exact ⟨_, collect_range_eq_ok_iff.mpr ⟨hlength, hf⟩, rfl⟩

/-! ## Vectors of floats -/

/-- Scalars and vectors of `d` floats, one vector at least. -/
structure FloatOperands (d : Nat) (args : List Value) : Prop where
  positive : 0 < d
  operand : ∀ a ∈ args, a.scalar?.isSome ∨ ∃ v, a = .vector v ∧ v.kind = .float ∧ v.size = d
  vector : ∃ v, .vector v ∈ args

/-- A call on vectors of `d` floats is a call on each of their components: it gives the results for
the components as a vector, or fails as the call on the lowest components that fails. -/
def Pointwise (f : Function) (d : Nat) (args : List Value) : Prop :=
  (∃ w : Vec, f args = .ok (.vector w) ∧ w.size = d ∧
    ∀ i < d, f (args.map (Value.pick i)) = Value.component w i) ∨
  (∃ e, ∃ i < d, f args = .error e ∧ f (args.map (Value.pick i)) = .error e ∧
    ∀ j < i, ∃ r, f (args.map (Value.pick j)) = .ok r)

/-- A function that checks how many arguments there are, and is then carried over componentwise to
everything but matrices.  What is carried over may depend on how many arguments there are. -/
def Spreads (f : Function) : Prop :=
  ∃ (name : String) (least : Nat) (most : Option Nat) (c : Carried) (g : Nat → ScalarFunction),
    ∀ args, (∀ a ∈ args, a.isMatrix = false) →
      f args = do
        checkCount name args least most
        spread c name (g args.length) args

namespace FloatOperands

variable {d : Nat} {args : List Value}

theorem float_of_mem (h : FloatOperands d args) (hv : .vector v ∈ args) :
    v.kind = .float ∧ v.size = d := by
  rcases h.operand _ hv with hscalar | ⟨w, hw, hkind, hsize⟩
  · cases hscalar
  · cases hw
    exact ⟨hkind, hsize⟩

theorem isMatrix (h : FloatOperands d args) : ∀ a ∈ args, a.isMatrix = false := by
  intro a ha
  rcases h.operand a ha with hscalar | ⟨v, rfl, _⟩
  · cases a <;> first | rfl | cases hscalar
  · rfl

theorem compatible (h : FloatOperands d args) : Compatible args := by
  refine compatible_iff.mpr ⟨fun a ha => ?_, fun v w hv hw => ?_⟩
  · rcases h.operand a ha with hscalar | ⟨v, rfl, _⟩
    · exact .inl hscalar
    · exact .inr rfl
  · rw [(h.float_of_mem hv).2, (h.float_of_mem hw).2]

theorem leading (h : FloatOperands d args) :
    ∃ first, leading? args = some first ∧ first.kind = .float ∧ first.size = d := by
  obtain ⟨v, hv⟩ := h.vector
  obtain ⟨first, hfirst⟩ := exists_firstVector? hv
  obtain ⟨hkind, hsize⟩ := h.float_of_mem (mem_of_firstVector? hfirst)
  exact ⟨first, leading?_eq_some_iff.mpr ⟨hfirst, hsize ▸ h.positive⟩, hkind, hsize⟩

/-- The components that are picked are scalars. -/
theorem scalar_of_mem_pick (h : FloatOperands d args) (i : Nat) :
    ∀ a ∈ args.map (Value.pick i), a.scalar?.isSome := by
  intro a ha
  obtain ⟨b, hb, rfl⟩ := List.mem_map.mp ha
  rcases h.operand b hb with hscalar | ⟨v, rfl, _⟩
  · cases b <;> first | rfl | exact hscalar
  · rfl

end FloatOperands

/-- Scalars go together, and there is no vector to lead them. -/
theorem compatible_of_scalars (h : ∀ a ∈ args, a.scalar?.isSome) :
    Compatible args ∧ leading? args = none ∧ ∀ a ∈ args, a.isMatrix = false := by
  have hvector : ∀ v, .vector v ∉ args := fun v hv => by cases h _ hv
  refine ⟨compatible_iff.mpr ⟨fun a ha => .inl (h a ha), fun v _ hv => absurd hv (hvector v)⟩, ?_,
    fun a ha => ?_⟩
  · cases hfirst : leading? args with
    | none => rfl
    | some first =>
      exact absurd (mem_of_firstVector? (leading?_eq_some_iff.mp hfirst).1) (hvector first)
  · have hscalar := h a ha
    cases a <;> first | rfl | cases hscalar

/-- Bringing a component to its kind changes nothing that can be seen of floats and of tests. -/
theorem component_of (c : Carried) {xs : List Float} (hi : i < xs.length) :
    Value.component (.of (c.kind .float) xs) i = .ok (c.scalar xs[i]) := by
  have hfetch : fetch (Vec.of (c.kind .float) xs).components i =
      .ok ((c.kind .float).normalize xs[i]) := by
    rw [fetch_eq_ok (by simpa [Vec.of] using hi)]
    simp [Vec.of]
  rw [Value.component, hfetch]
  cases c with
  | numbers => rfl
  | truths =>
    have hnormal : (ComponentKind.normalize .bool xs[i] != 0) = (xs[i] != 0) := by
      unfold ComponentKind.normalize
      dsimp only
      cases xs[i] != 0 <;> decide
    exact congrArg (fun b => Except.ok (Value.bool b)) hnormal

/-- On scalars alone, `spread` calls the function once. -/
theorem spread_pick (c : Carried) (name : String) (f : ScalarFunction) {d : Nat}
    (h : FloatOperands d args) (i : Nat) :
    spread c name f (args.map (Value.pick i)) = (f (row args i)).map c.scalar := by
  obtain ⟨hargs, hplain, _⟩ := compatible_of_scalars (h.scalar_of_mem_pick i)
  rw [spread_of_scalars c name f hargs hplain, List.map_map]
  rfl

/-- A componentwise function is called on vectors of floats component by component. -/
theorem Spreads.pointwise {f : Function} (hf : Spreads f) {d : Nat} (h : FloatOperands d args) :
    Pointwise f d args := by
  obtain ⟨name, least, most, c, g, hf⟩ := hf
  have hpick : ∀ i, f (args.map (Value.pick i)) = (do
      checkCount name args least most
      (g args.length (row args i)).map c.scalar) := by
    intro i
    rw [hf _ (compatible_of_scalars (h.scalar_of_mem_pick i)).2.2, List.length_map,
      spread_pick c name _ h]
    simp only [checkCount, List.length_map]
  have hcall := hf args h.isMatrix
  cases hcount : checkCount name args least most with
  | error e =>
    -- The count is the same for the components, so the lowest one fails likewise.
    refine .inr ⟨e, 0, h.positive, by rw [hcall, hcount]; rfl, by rw [hpick, hcount]; rfl, ?_⟩
    exact fun j hj => absurd hj (Nat.not_lt_zero j)
  | ok _ =>
    obtain ⟨first, hfirst, hkind, rfl⟩ := h.leading
    rw [hcount, spread_of_vectors c name _ h.compatible hfirst, hkind] at hcall
    simp only [hcount] at hpick
    cases hxs : collect (fun i => g args.length (row args i)) (List.range first.size) with
    | ok xs =>
      obtain ⟨hlength, hcomponent⟩ := collect_range_eq_ok_iff.mp hxs
      refine .inl ⟨.of (c.kind .float) xs, by rw [hcall, hxs]; rfl, ?_, fun i hi => ?_⟩
      · rw [Vec.size, Vec.of, List.length_map, hlength]
      · rw [← hlength] at hi
        rw [hpick, hcomponent i hi, component_of c hi]
        rfl
    | error e =>
      obtain ⟨i, hi, hfails, hbefore⟩ := collect_range_eq_error_iff.mp hxs
      refine .inr ⟨e, i, hi, by rw [hcall, hxs]; rfl, by rw [hpick, hfails]; rfl, fun j hj => ?_⟩
      obtain ⟨x, hx⟩ := hbefore j hj
      exact ⟨c.scalar x, by rw [hpick, hx]; rfl⟩

/-! ## The catalog -/

@[simp] theorem spreads_componentwise (name : String) (count : Nat) (f : ScalarFunction) :
    Spreads (componentwise name count f) :=
  ⟨name, count, some count, .numbers, fun _ => f, fun _ _ => rfl⟩

@[simp] theorem spreads_componentwiseTest (name : String) (f : Float → Float → Bool) :
    Spreads (componentwiseTest name f) :=
  ⟨name, 2, some 2, .truths, fun _ => .test f, fun _ _ => rfl⟩

@[simp] theorem spreads_arcTangent : Spreads arcTangent := by
  refine ⟨"atan", 1, some 2, .numbers,
    fun count => if count = 2 then .binary Float.atan2 else .unary Float.atan, fun args _ => ?_⟩
  by_cases hcount : args.length = 2
  · simp only [arcTangent, hcount, if_true]
    rfl
  · simp only [arcTangent, hcount, if_false]
    rfl

@[simp] theorem spreads_arithmetic (name : String) (f : Float → Float → Float) :
    Spreads (arithmetic name f) := by
  refine ⟨name, 2, some 2, .numbers, fun _ => .binary f, fun args hargs => ?_⟩
  rcases args with _ | ⟨a, _ | ⟨b, _ | ⟨c, rest⟩⟩⟩
  case cons.cons.nil =>
    have ha : a.isMatrix = false := hargs a (by simp)
    have hb : b.isMatrix = false := hargs b (by simp)
    simp only [arithmetic, ha, hb]
    rfl
  all_goals rfl

@[simp] theorem spreads_multiply : Spreads multiply := by
  refine ⟨"op_mul", 2, some 2, .numbers, fun _ => .binary (· * ·), fun args hargs => ?_⟩
  rcases args with _ | ⟨a, _ | ⟨b, _ | ⟨c, rest⟩⟩⟩
  case cons.cons.nil =>
    have ha : a.isMatrix = false := hargs a (by simp)
    have hb : b.isMatrix = false := hargs b (by simp)
    cases a with
    | matrix m => cases ha
    | _ =>
      cases b with
      | matrix m => cases hb
      | _ => rfl
  all_goals rfl

@[simp] theorem spreads_integerOperator (name : String) (f : Int → Int → Except Cause Int) :
    Spreads (integerOperator name f) :=
  spreads_componentwise name 2 _

@[simp] theorem spreads_plus : Spreads plus := by
  refine ⟨"op_pos", 1, some 1, .numbers, fun _ => .unary id, fun args hargs => ?_⟩
  rcases args with _ | ⟨a, _ | ⟨b, rest⟩⟩
  case cons.nil =>
    have ha : a.isMatrix = false := hargs a (by simp)
    cases a with
    | matrix m => cases ha
    | _ => rfl
  all_goals rfl

@[simp] theorem spreads_negate : Spreads negate := by
  refine ⟨"op_neg", 1, some 1, .numbers, fun _ => .unary fun x => -x, fun args hargs => ?_⟩
  rcases args with _ | ⟨a, _ | ⟨b, rest⟩⟩
  case cons.nil =>
    have ha : a.isMatrix = false := hargs a (by simp)
    cases a with
    | matrix m => cases ha
    | _ => rfl
  all_goals rfl

@[simp] theorem spreads_complement : Spreads complement :=
  spreads_componentwise "op_bnot" 1 _

/-- The names of the componentwise functions. -/
def componentwiseNames : List String :=
  ["radians", "degrees", "sin", "cos", "tan", "asin", "acos", "atan", "pow", "exp", "log", "exp2",
   "log2", "sqrt", "inversesqrt", "abs", "sign", "floor", "ceil", "fract", "mod", "min", "max",
   "clamp", "mix", "step", "smoothstep", "lessThan", "lessThanEqual", "greaterThan",
   "greaterThanEqual", "equal", "notEqual", "op_add", "op_sub", "op_div", "op_mul", "op_mod",
   "op_shl", "op_shr", "op_band", "op_bor", "op_bxor", "op_pos", "op_neg", "op_bnot"]

/-- Each of these names stands for a function that is carried over componentwise. -/
theorem spreads_componentwiseNames :
    ∀ name ∈ componentwiseNames, ∃ f, Catalog.find? name = some (.computes f) ∧ Spreads f := by
  simp only [componentwiseNames, List.forall_mem_cons]
  repeat' apply And.intro
  case right => exact fun name h => absurd h List.not_mem_nil
  all_goals exact ⟨_, rfl, by simp⟩

/-- The law of componentwise functions.

For every function of numbers and every list of operands, a componentwise call fails as
`Spread.Fails` tells and gives what `Spread.Gives` tells, and does nothing else; a test likewise,
with truth values as results.  Operands offend by being neither scalar nor vector, with number 1002,
or by being a vector of another size than the first, with number 1001, and there is an offence as
soon as two vectors differ in size.

For every componentwise function of the catalog and all operands that are scalars and vectors of
floats, the call is made component by component. -/
theorem broadcast_law :
    (∀ name f args,
      (∀ e, broadcast name f args = .error e ↔ Spread.Fails name f args e) ∧
      (∀ r, broadcast name f args = .ok r ↔ Spread.Gives .numbers f args r) ∧
      (∀ e, broadcastTest name f args = .error e ↔ Spread.Fails name f args e) ∧
      (∀ r, broadcastTest name f args = .ok r ↔ Spread.Gives .truths f args r)) ∧
    (∀ args,
      (Compatible args ↔ (∀ a ∈ args, a.scalar?.isSome ∨ a.vector?.isSome) ∧
        ∀ v w, .vector v ∈ args → .vector w ∈ args → v.size = w.size) ∧
      ∀ (i : Nat) a cause, args[i]? = some a → offenceAt args i = some cause →
        cause.code.number = if a.vector?.isSome then 1001 else 1002) ∧
    (∀ name ∈ componentwiseNames, ∃ f, Catalog.find? name = some (.computes f) ∧
      ∀ d args, FloatOperands d args → Pointwise f d args) := by
  refine ⟨fun name f args => ⟨fun e => ?_, fun r => ?_, fun e => ?_, fun r => ?_⟩,
    fun args => ⟨compatible_iff, fun i a cause => number_code_of_offenceAt⟩, fun name hname => ?_⟩
  · rw [broadcast_eq_spread]
    exact spread_eq_error_iff
  · rw [broadcast_eq_spread]
    exact spread_eq_ok_iff
  · rw [broadcastTest_eq_spread]
    exact spread_eq_error_iff
  · rw [broadcastTest_eq_spread]
    exact spread_eq_ok_iff
  · obtain ⟨f, hfind, hf⟩ := spreads_componentwiseNames name hname
    exact ⟨f, hfind, fun d args h => hf.pointwise h⟩

/-- The lesser of three floats each and one number. -/
theorem broadcast_law_min :
    "min" ∈ componentwiseNames ∧
      FloatOperands 3 [.vector (.ofFloats [0.25, -1.5, 3]), .number 0.75] ∧
      ∃ f, Catalog.find? "min" = some (.computes f) ∧
        Pointwise f 3 [.vector (.ofFloats [0.25, -1.5, 3]), .number 0.75] := by
  have hname : "min" ∈ componentwiseNames := by decide
  have hoperands : FloatOperands 3 [.vector (.ofFloats [0.25, -1.5, 3]), .number 0.75] := by
    refine ⟨by decide, fun a ha => ?_, _, List.mem_cons_self⟩
    simp only [List.mem_cons, List.not_mem_nil, or_false] at ha
    rcases ha with rfl | rfl
    · exact .inr ⟨_, rfl, rfl, rfl⟩
    · exact .inl rfl
  obtain ⟨f, hfind, hf⟩ := broadcast_law.2.2 "min" hname
  exact ⟨hname, hoperands, f, hfind, hf 3 _ hoperands⟩

end ShaderScript
