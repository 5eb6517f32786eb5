import Mathlib.Data.List.Forall2
import ShaderScript.Environment
import ShaderScript.Proofs.Lens

/-!
# The form of a number does not matter

An environment may hold numbers of another width than doubles.  They compute, print and compare like
the doubles they stand for: `Value.plain` turns every number inside a value into a double, and no
catalog function tells a value from its plain form.

A function is `Blind` if it gives the same outcome on plain arguments.  The few functions that hand
on parts of their arguments give values that are `Alike`: they differ in the form of numbers only.
Selectors need not even be alike, as long as they pick the same (`PicksAlike`).  `call_alike` puts
this together for the whole catalog.
-/

namespace ShaderScript

variable {s t a b : Value} {α β : Type} {args args' path path' : List Value} {name : String}
  {f : Function}

namespace Value

mutual

/-- The value with all its numbers as doubles. -/
def plain : Value → Value
  | host _ x => number x
  | array elements => array (plainAll elements)
  | void => void
  | bool b => bool b
  | number x => number x
  | text s => text s
  | vector v => vector v
  | matrix m => matrix m
  | sampler s => sampler s

/-- All values with their numbers as doubles. -/
def plainAll : List Value → List Value
  | [] => []
  | v :: vs => plain v :: plainAll vs

end

theorem plainAll_eq_map (vs : List Value) : plainAll vs = vs.map plain := by
  induction vs with
  | nil => rfl
  | cons v vs ih => rw [plainAll, ih, List.map_cons]

theorem length_plainAll (vs : List Value) : (plainAll vs).length = vs.length := by
  rw [plainAll_eq_map, List.length_map]

@[simp] theorem scalar?_plain (v : Value) : v.plain.scalar? = v.scalar? := by
  cases v <;> rfl

@[simp] theorem typeName_plain (v : Value) : v.plain.typeName = v.typeName := by
  cases v with
  | array elements =>
    simp only [plain, typeName, length_plainAll]
  | _ => rfl

/-- A value and a list of values print as their plain forms. -/
theorem toText_plain_and_allTexts_plain :
    (∀ v : Value, v.plain.toText = v.toText) ∧
      ∀ vs : List Value, allTexts (plainAll vs) = allTexts vs := by
  apply toText.mutual_induct (fun v => v.plain.toText = v.toText)
    (fun vs => allTexts (plainAll vs) = allTexts vs)
  all_goals intros
  all_goals simp_all [plain, plainAll, toText, allTexts]

theorem allTexts_map_plain (vs : List Value) : allTexts (vs.map plain) = allTexts vs := by
  rw [← plainAll_eq_map]
  exact toText_plain_and_allTexts_plain.2 vs

/-- The plain form is plain. -/
theorem plain_plain_and_plainAll_plainAll :
    (∀ v : Value, v.plain.plain = v.plain) ∧
      ∀ vs : List Value, plainAll (plainAll vs) = plainAll vs := by
  apply plain.mutual_induct (fun v => v.plain.plain = v.plain)
    (fun vs => plainAll (plainAll vs) = plainAll vs)
  all_goals intros
  all_goals simp_all [plain, plainAll]

/-- Values and lists of values are the same if their plain forms are. -/
theorem same_plain_and_sameAll_plain :
    (∀ a b : Value, a.plain.same b.plain = a.same b) ∧
      ∀ xs ys : List Value, sameAll (plainAll xs) (plainAll ys) = sameAll xs ys := by
  apply same.mutual_induct (fun a b => a.plain.same b.plain = a.same b)
    (fun xs ys => sameAll (plainAll xs) (plainAll ys) = sameAll xs ys)
  case case3 =>
    intro xs ys hlength ih
    simp only [plain, same, length_plainAll, hlength, ih]
  case case4 =>
    intro xs ys hlength
    simp only [plain, same, length_plainAll, hlength, if_false]
  case case11 =>
    intro x xs y ys ih ihs
    simp only [plainAll, sameAll, ih, ihs]
  -- The clause for scalars: a number of another width meets a double there.
  case case8 | case9 =>
    intro a b
    intros
    cases a <;> cases b <;> simp_all [plain, same, scalar?]
  case case12 =>
    intro xs ys hnil hcons
    cases xs with
    | nil => cases ys <;> rfl
    | cons x xs =>
      cases ys with
      | nil => rfl
      | cons y ys => exact (hcons x xs y ys rfl rfl).elim
  case case1 | case2 | case5 | case6 | case7 | case10 =>
    intros
    rfl

@[simp] theorem plain_plain (v : Value) : v.plain.plain = v.plain :=
  plain_plain_and_plainAll_plainAll.1 v

@[simp] theorem isMatrix_plain (v : Value) : v.plain.isMatrix = v.isMatrix := by
  cases v <;> rfl

end Value

open Value

/-! ## Blind functions -/

/-- The function gives the same on plain arguments. -/
def Blind (f : Function) : Prop := ∀ args, f (args.map plain) = f args

theorem collect_map {γ : Type} (f : β → Outcome γ) (g : α → β) (xs : List α) :
    collect f (xs.map g) = collect (fun x => f (g x)) xs := by
  induction xs with
  | nil => rfl
  | cons x xs ih => rw [List.map_cons, collect, collect, ih]

theorem fetch_map (g : α → β) (xs : List α) (i : Nat) :
    fetch (xs.map g) i = (fetch xs i).map g := by
  unfold fetch
  rw [List.getElem?_map]
  cases xs[i]? <;> rfl

theorem checkCount_plain (name : String) (args : List Value) (least : Nat) (most : Option Nat) :
    checkCount name (args.map plain) least most = checkCount name args least most := by
  simp only [checkCount, List.length_map]

theorem operandAt_plain (i : Nat) (a : Value) : operandAt i a.plain = operandAt i a := by
  cases a <;> rfl

theorem scalarOperand_plain (a : Value) : scalarOperand a.plain = scalarOperand a := by
  rw [scalarOperand, scalarOperand, scalar?_plain]

theorem commonShapeFrom_plain (name : String) (position : Nat) (first : Option Vec)
    (args : List Value) :
    commonShapeFrom name position first (args.map plain) =
      commonShapeFrom name position first args := by
  induction args generalizing position first with
  | nil => rfl
  | cons a args ih =>
    cases a with
    | vector v => simp only [List.map_cons, plain, commonShapeFrom, ih]
    | array elements =>
      have htype := typeName_plain (.array elements)
      simp only [plain] at htype
      simp [plain, commonShapeFrom, Value.scalar?, htype]
    | _ => simp [plain, commonShapeFrom, Value.scalar?, Value.typeName, ih]

theorem mapComponents_plain (f : ScalarFunction) (args : List Value) (places : List Nat) :
    mapComponents f (args.map plain) places = mapComponents f args places := by
  induction places with
  | nil => rfl
  | cons i places ih =>
    simp only [mapComponents, collect_map, operandAt_plain, ih]

theorem broadcast_plain (name : String) (f : ScalarFunction) (args : List Value) :
    broadcast name f (args.map plain) = broadcast name f args := by
  simp only [broadcast, commonShape, commonShapeFrom_plain, mapComponents_plain, List.map_map,
    Function.comp_def, scalarOperand_plain]

theorem broadcastTest_plain (name : String) (f : ScalarFunction) (args : List Value) :
    broadcastTest name f (args.map plain) = broadcastTest name f args := by
  simp only [broadcastTest, commonShape, commonShapeFrom_plain, mapComponents_plain, List.map_map,
    Function.comp_def, scalarOperand_plain]

@[simp] theorem blind_componentwise (name : String) (count : Nat) (f : ScalarFunction) :
    Blind (componentwise name count f) := by
  intro args
  simp only [componentwise, checkCount_plain, broadcast_plain]

@[simp] theorem blind_componentwiseTest (name : String) (f : Float → Float → Bool) :
    Blind (componentwiseTest name f) := by
  intro args
  simp only [componentwiseTest, checkCount_plain, broadcastTest_plain]

@[simp] theorem blind_arcTangent : Blind arcTangent := by
  intro args
  simp only [arcTangent, checkCount_plain, broadcast_plain, List.length_map]

theorem matrixComponentwise_plain (name : String) (f : Float → Float → Float) (a b : Value) :
    matrixComponentwise name f a.plain b.plain = matrixComponentwise name f a b := by
  -- The names of the types stand in the faults, so they have to stay the same as well.
  have ha := typeName_plain a
  have hb := typeName_plain b
  cases a <;> cases b <;> simp_all [plain, matrixComponentwise, Value.scalar?, Value.typeName]

/-- A function that checks for an exact number of arguments. -/
theorem Blind.counted (name : String) (count : Nat) {g : Function}
    (h : ∀ args, args.length = count → g (args.map plain) = g args) :
    Blind (fun args => do checkCount name args count (some count); g args) := by
  intro args
  simp only [checkCount_plain]
  cases hcheck : checkCount name args count (some count) with
  | error e => rfl
  | ok u => exact h args ((safe_checkCount_exactly name args count).of_ok hcheck)

theorem Blind.unary (name : String) {g : Function} (h : ∀ a : Value, g [a.plain] = g [a]) :
    Blind (fun args => do checkCount name args 1 (some 1); g args) := by
  refine .counted name 1 fun args hargs => ?_
  obtain ⟨a, rfl⟩ := List.length_eq_one_iff.mp hargs
  exact h a

theorem Blind.binary (name : String) {g : Function}
    (h : ∀ a b : Value, g [a.plain, b.plain] = g [a, b]) :
    Blind (fun args => do checkCount name args 2 (some 2); g args) := by
  refine .counted name 2 fun args hargs => ?_
  obtain ⟨a, b, rfl⟩ := List.length_eq_two.mp hargs
  exact h a b

@[simp] theorem blind_arithmetic (name : String) (f : Float → Float → Float) :
    Blind (arithmetic name f) := by
  refine .binary name fun a b => ?_
  have hbroadcast := broadcast_plain name (.binary f) [a, b]
  simp only [List.map_cons, List.map_nil] at hbroadcast
  simp only [isMatrix_plain, matrixComponentwise_plain, hbroadcast]

@[simp] theorem blind_multiply : Blind multiply := by
  refine .binary "op_mul" fun a b => ?_
  have hbroadcast := broadcast_plain "op_mul" (.binary (· * ·)) [a, b]
  have hentries := matrixComponentwise_plain "op_mul" (· * ·) a b
  cases a <;> cases b <;> simp_all [plain]

@[simp] theorem blind_integerOperator (name : String) (f : Int → Int → Except Cause Int) :
    Blind (integerOperator name f) :=
  .counted name 2 fun args _ => broadcast_plain name _ args

@[simp] theorem blind_relation (name : String) (f : Float → Float → Bool) :
    Blind (relation name f) := by
  refine .binary name fun a b => ?_
  simp [fetch, bind, Except.bind]

@[simp] theorem blind_equality (name : String) (negated : Bool) :
    Blind (equality name negated) := by
  refine .binary name fun a b => ?_
  simp [fetch, bind, Except.bind, same_plain_and_sameAll_plain.1]

theorem operandTruth_plain (name : String) (side : OperandSide) (v : Value) :
    operandTruth name side v.plain = operandTruth name side v := by
  have htype := typeName_plain v
  cases v <;> simp_all [operandTruth, truth, plain, Value.scalar?, faultOf]

@[simp] theorem blind_logical (name : String) (f : Bool → Bool → Bool) :
    Blind (logical name f) := by
  refine .binary name fun a b => ?_
  simp [fetch, bind, Except.bind, operandTruth_plain]

@[simp] theorem blind_plus : Blind plus := by
  refine .unary "op_pos" fun a => ?_
  have hbroadcast := broadcast_plain "op_pos" (.unary id) [a]
  cases a <;> simp_all [plain]

@[simp] theorem blind_negate : Blind negate := by
  refine .unary "op_neg" fun a => ?_
  have hbroadcast := broadcast_plain "op_neg" (.unary fun x => -x) [a]
  cases a <;> simp_all [plain]

@[simp] theorem blind_complement : Blind complement :=
  .counted "op_bnot" 1 fun args _ => broadcast_plain "op_bnot" _ args

@[simp] theorem blind_logicalNot : Blind logicalNot := by
  refine .unary "op_lnot" fun a => ?_
  simp [fetch, bind, Except.bind, operandTruth_plain]

theorem blind_operators : ∀ entry ∈ operators, Blind entry.2 := by
  simp [operators]

/-! ## Geometry, textures and constructors -/

theorem coordinates_plain (a : Value) : coordinates a.plain = coordinates a := by
  cases a <;> rfl

theorem requireVectors_plain (name : String) (size position : Nat) (args : List Value) :
    requireVectors name size position (args.map plain) =
      requireVectors name size position args := by
  induction args generalizing position with
  | nil => rfl
  | cons a args ih =>
    have htype := typeName_plain a
    cases a <;> simp_all [plain, requireVectors]

theorem geometric_plain (name : String) (args : List Value) :
    geometric name (args.map plain) = geometric name args := by
  simp only [geometric, commonShape, commonShapeFrom_plain, requireVectors_plain, List.map_map,
    Function.comp_def, coordinates_plain]

@[simp] theorem blind_geometricFunction (name : String) (count : Nat)
    (f : List (List Float) → Outcome Value) : Blind (geometricFunction name count f) := by
  refine .counted name count fun args _ => ?_
  simp only [geometric_plain]

@[simp] theorem blind_refractFunction : Blind refractFunction := by
  refine .counted "refract" 3 fun args hargs => ?_
  rw [fetch_map]
  -- The operands are the first two arguments; the ratio is looked at apart.
  simp only [← List.map_take, geometric_plain]
  cases fetch args 2 with
  | error e => rfl
  | ok ratio => simp only [Except.map, bind, Except.bind, scalar?_plain, typeName_plain]

@[simp] theorem blind_crossFunction : Blind crossFunction := by
  refine .binary "cross" fun a b => ?_
  have ha := typeName_plain a
  have hb := typeName_plain b
  cases a with
  | vector v => cases b <;> simp_all [plain, fetch, bind, Except.bind]
  | _ => simp_all [plain, fetch, bind, Except.bind]

@[simp] theorem blind_matrixProduct : Blind matrixProduct := by
  refine .binary "matrixCompMult" fun a b => ?_
  have ha := typeName_plain a
  have hb := typeName_plain b
  cases a with
  | matrix m => cases b <;> simp_all [plain, fetch, bind, Except.bind]
  | _ => simp_all [plain, fetch, bind, Except.bind]

@[simp] theorem blind_vectorFunction (name : String) (f : Vec → Value) :
    Blind (vectorFunction name f) := by
  refine .unary name fun a => ?_
  have ha := typeName_plain a
  cases a <;> simp_all [plain, fetch, bind, Except.bind]

theorem levelOfDetail_plain (name : String) (args : List Value) :
    levelOfDetail name (args.map plain) = levelOfDetail name args := by
  unfold levelOfDetail
  rw [List.getElem?_map]
  cases args[2]? with
  | none => rfl
  | some level => simp only [Option.map_some, scalar?_plain, typeName_plain]

@[simp] theorem blind_lookups (name : String) (project explicitLevel : Bool) :
    Blind (lookupPlane name project explicitLevel) ∧ Blind (lookupCube name explicitLevel) := by
  constructor
  all_goals
    intro args
    simp only [lookupPlane, lookupCube, checkCount_plain, fetch_map, levelOfDetail_plain]
    cases fetch args 0 with
    | error e => rfl
    | ok unit =>
      have hunit := typeName_plain unit
      -- Without a texture unit the place is not looked at.
      cases unit with
      | sampler texture =>
        cases fetch args 1 with
        | error e => rfl
        | ok place =>
          have hplace := typeName_plain place
          cases place <;> simp_all [plain, Except.map, bind, Except.bind]
      | _ => simp_all [plain, Except.map, bind, Except.bind, faultOf]

theorem blind_builtins : ∀ entry ∈ builtins, Blind entry.2 := by
  simp [builtins, textureFunctions, (blind_lookups _ false _).2]

theorem gatherFrom_plain (name : String) (wanted position : Nat) (taken : List Float)
    (args : List Value) :
    gatherFrom name wanted position taken (args.map plain) =
      gatherFrom name wanted position taken args := by
  induction args generalizing position taken with
  | nil => rfl
  | cons a args ih =>
    have ha := typeName_plain a
    cases a <;> simp_all [plain, gatherFrom, Value.scalar?]

theorem gather_plain (name : String) (wanted : Nat) (args : List Value) :
    gather name wanted (args.map plain) = gather name wanted args := by
  simp only [gather, gatherFrom_plain]

@[simp] theorem blind_constructVector (name : String) (kind : ComponentKind) (size : Nat) :
    Blind (constructVector name kind size) := by
  intro args
  have hgather := gather_plain name size args
  rcases args with _ | ⟨a, _ | ⟨b, rest⟩⟩
  · rfl
  · simp only [List.map_cons, List.map_nil] at hgather
    simp only [constructVector, List.map_cons, List.map_nil, scalar?_plain, hgather]
  · simp only [List.map_cons] at hgather
    simp only [constructVector, List.map_cons, hgather]

@[simp] theorem blind_constructMatrix (name : String) (size : Nat) :
    Blind (constructMatrix name size) := by
  intro args
  have hgather := gather_plain name (size * size) args
  rcases args with _ | ⟨a, _ | ⟨b, rest⟩⟩
  · rfl
  · simp only [List.map_cons, List.map_nil] at hgather
    cases a <;> simp_all [constructMatrix, plain, Value.scalar?]
  · simp only [List.map_cons] at hgather
    simp [constructMatrix, hgather]

@[simp] theorem blind_constructScalar (name : String) (convert : Float → Value) :
    Blind (constructScalar name convert) := by
  refine .unary name fun a => ?_
  have ha := typeName_plain a
  cases a <;> simp_all [plain, fetch, bind, Except.bind, Value.scalar?]

theorem blind_constructors : ∀ entry ∈ constructors, Blind entry.2.2 := by
  simp [constructors]

/-! ## Values that are alike -/

/-- Two values are alike if they differ in the form of numbers only. -/
def Value.Alike (a b : Value) : Prop := a.plain = b.plain

@[refl] theorem Value.Alike.refl (a : Value) : a.Alike a := rfl

theorem Value.Alike.trans {c : Value} (h : a.Alike b) (h' : b.Alike c) : a.Alike c :=
  Eq.trans h h'

/-- Two failures are alike if they are faults of one function and class, or the same. -/
def Failure.Alike : Failure → Failure → Prop
  | .fault f, .fault g => f.function = g.function ∧ f.code = g.code
  | .outside message, .outside message' => message = message'
  | .overrun, .overrun => True
  | .incomparable type, .incomparable type' => type = type'
  | _, _ => False

@[refl] theorem Failure.Alike.refl (e : Failure) : e.Alike e := by
  cases e with
  | fault f => exact ⟨rfl, rfl⟩
  | outside _ | incomparable _ => exact rfl
  | overrun => exact trivial

theorem Failure.Alike.trans {e e' e'' : Failure} (h : e.Alike e') (h' : e'.Alike e'') :
    e.Alike e'' := by
  cases e' with
  | fault _ | outside _ | overrun | incomparable _ =>
    cases e <;> cases e'' <;> simp_all [Failure.Alike]

/-- Two results match: both are given and related by `R`, or both are errors related by `E`. -/
inductive Matches {ε ε' α α' : Type} (E : ε → ε' → Prop) (R : α → α' → Prop) :
    Except ε α → Except ε' α' → Prop
  | ok {a : α} {a' : α'} (h : R a a') : Matches E R (.ok a) (.ok a')
  | error {e : ε} {e' : ε'} (h : E e e') : Matches E R (.error e) (.error e')

/-- Two outcomes are alike: related results, or failures that are alike. -/
abbrev Outcome.Alike {α β : Type} (R : α → β → Prop) : Outcome α → Outcome β → Prop :=
  Matches Failure.Alike R

namespace Outcome.Alike

variable {α α' β β' : Type} {R : α → α' → Prop} {S : β → β' → Prop}

theorem bind {r : Outcome α} {r' : Outcome α'} {f : α → Outcome β} {f' : α' → Outcome β'}
    (h : Alike R r r') (hf : ∀ a a', R a a' → Alike S (f a) (f' a')) :
    Alike S (r >>= f) (r' >>= f') := by
  cases h with
  | ok h => exact hf _ _ h
  | error h => exact .error h

theorem refl {R : α → α → Prop} (hR : ∀ a, R a a) (r : Outcome α) : Alike R r r := by
  cases r with
  | error e => exact .error (Failure.Alike.refl e)
  | ok a => exact .ok (hR a)

theorem bind_same {R : β → β → Prop} (hR : ∀ b, R b b) {r r' : Outcome α} (h : Alike Eq r r')
    (f : α → Outcome β) : Alike R (r >>= f) (r' >>= f) := by
  refine h.bind fun a a' ha => ?_
  rw [ha]
  exact refl hR _

theorem trans {r r' r'' : Outcome Value} (h : Alike Value.Alike r r')
    (h' : Alike Value.Alike r' r'') : Alike Value.Alike r r'' := by
  cases h with
  | ok h =>
    cases h' with
    | ok h' => exact .ok (Value.Alike.trans h h')
  | error h =>
    cases h' with
    | error h' => exact .error (Failure.Alike.trans h h')

/-- Outcomes with the same plain result are alike. -/
theorem of_map_plain {r r' : Outcome Value} (h : r.map plain = r'.map plain) :
    Alike Value.Alike r r' := by
  cases r with
  | error e =>
    cases r' with
    | error e' =>
      cases h
      exact .error (Failure.Alike.refl e)
    | ok b => exact nomatch h
  | ok a =>
    cases r' with
    | error e' => exact nomatch h
    | ok b => exact .ok (Except.ok.inj h)

end Outcome.Alike

/-- A fault of one function and class is alike to every other. -/
theorem faultOf_alike {R : α → β → Prop} {cause cause' : Cause} (h : cause.code = cause'.code) :
    Outcome.Alike R (faultOf name cause) (faultOf name cause') :=
  .error ⟨rfl, h⟩

/-! ## Selection -/

theorem selectorIndex_plain (name : String) (selector : Value) (size : Nat) :
    selectorIndex name selector.plain size = selectorIndex name selector size := by
  simp only [selectorIndex, scalar?_plain, typeName_plain]

theorem sourceComponents_plain (source : Value) (count : Nat) :
    sourceComponents source.plain count = sourceComponents source count := by
  have htype := typeName_plain source
  cases source <;> simp_all [plain, sourceComponents, Value.scalar?]

theorem store_map (g : α → β) (xs : List α) (i : Nat) (x : α) :
    store (xs.map g) i (g x) = (store xs i x).map (List.map g) := by
  simp only [store, List.length_map]
  split
  · rw [Except.map, List.map_set]
  · rfl

/-- A selector is letters, or it picks by its number. -/
theorem text_or_index (s : Value) : (∃ field, s = .text field) ∨ ∀ field, s ≠ .text field := by
  cases s <;> simp

/-- Two selectors pick alike if they are alike, or numbers with one integer part. -/
inductive Value.PicksAlike : Value → Value → Prop
  | alike {a b : Value} (h : a.Alike b) : PicksAlike a b
  | number {x y : Float} (h : truncateToInt64? x = truncateToInt64? y) :
      PicksAlike (.number x) (.number y)

/-- Selectors that pick alike are the same letters, or pick the same places. -/
theorem Value.PicksAlike.cases (h : s.PicksAlike t) :
    (∃ field, s = .text field ∧ t = .text field) ∨
      (∀ field, s ≠ .text field) ∧ (∀ field, t ≠ .text field) ∧
        ∀ name size, Outcome.Alike Eq (selectorIndex name s size) (selectorIndex name t size) := by
  cases h with
  | number h =>
    refine .inr ⟨fun _ => nofun, fun _ => nofun, fun name size => ?_⟩
    simp only [selectorIndex, Value.scalar?, h]
    split
    · split
      · exact .ok rfl
      · exact faultOf_alike rfl
    · exact faultOf_alike rfl
  | alike h =>
    obtain ⟨field, rfl⟩ | hs := text_or_index s
    · left
      cases t <;> simp_all [Value.Alike, plain]
    · right
      refine ⟨hs, fun field ht => ?_, fun name size => ?_⟩
      · subst ht
        cases s <;> simp_all [Value.Alike, plain]
      · rw [← selectorIndex_plain, h, selectorIndex_plain]
        exact .refl (fun _ => rfl) _

/-- What one selector picks does not depend on the form of the numbers it picks from. -/
theorem getOne_plain (base selector : Value) :
    (getOne base.plain selector).map plain = (getOne base selector).map plain := by
  cases base with
  | array elements =>
    have htype := typeName_plain (.array elements)
    obtain ⟨field, rfl⟩ | hindex := text_or_index selector
    · simp only [getOne, plain] at htype ⊢
      rw [htype]
    · rw [plain, plainAll_eq_map, getOne_array hindex, getOne_array hindex, List.length_map]
      cases selectorIndex "get" selector elements.length with
      | error e => rfl
      | ok i =>
        change (fetch (elements.map plain) i).map plain = (fetch elements i).map plain
        rw [fetch_map]
        cases fetch elements i with
        | error e => rfl
        | ok v => simp only [Except.map, plain_plain]
  | host form x => cases selector <;> rfl
  | _ => rfl

/-- What is no container has no parts. -/
theorem container_or_fault (base : Value) :
    (∃ v, base = .vector v) ∨ (∃ m, base = .matrix m) ∨ (∃ xs, base = .array xs) ∨
      ∀ s : Value, (∀ field, s ≠ .text field) →
        getOne base s = faultOf "get" (.cannotIndex base.typeName) ∧
          ∀ value, setOne base s value = faultOf "set" (.cannotIndex base.typeName) := by
  cases base with
  | vector v => exact .inl ⟨v, rfl⟩
  | matrix m => exact .inr (.inl ⟨m, rfl⟩)
  | array xs => exact .inr (.inr (.inl ⟨xs, rfl⟩))
  | _ =>
    refine .inr (.inr (.inr fun s hs => ?_))
    cases s with
    | text field => exact absurd rfl (hs field)
    | _ => exact ⟨rfl, fun _ => rfl⟩

theorem selectorPlaces_alike (h : s.PicksAlike t) (name : String) (unique : Bool) (size : Nat) :
    Outcome.Alike Eq (selectorPlaces name unique size s) (selectorPlaces name unique size t) := by
  obtain ⟨field, rfl, rfl⟩ | ⟨hs, ht, hpick⟩ := h.cases
  · exact .refl (fun _ => rfl) _
  · have hplaces : ∀ u : Value, (∀ field, u ≠ .text field) →
        selectorPlaces name unique size u = (do return [← selectorIndex name u size]) := by
      intro u hu
      cases u with
      | text field => exact absurd rfl (hu field)
      | _ => rfl
    rw [hplaces s hs, hplaces t ht]
    exact (hpick name size).bind_same (fun _ => rfl) _

/-- Selectors that pick alike pick the same part. -/
theorem getOne_selectors (base : Value) (h : s.PicksAlike t) :
    Outcome.Alike Value.Alike (getOne base s) (getOne base t) := by
  obtain ⟨field, rfl, rfl⟩ | ⟨hs, ht, hpick⟩ := h.cases
  · exact .refl Value.Alike.refl _
  · obtain ⟨v, rfl⟩ | ⟨m, rfl⟩ | ⟨xs, rfl⟩ | hfault := container_or_fault base
    · rw [getOne_vector, getOne_vector]
      exact (selectorPlaces_alike h "get" false v.size).bind_same Value.Alike.refl _
    · rw [getOne_matrix hs, getOne_matrix ht]
      exact (hpick "get" m.size).bind_same Value.Alike.refl _
    · rw [getOne_array hs, getOne_array ht]
      exact (hpick "get" xs.length).bind_same Value.Alike.refl _
    · rw [(hfault s hs).1, (hfault t ht).1]
      exact faultOf_alike rfl

theorem getOne_alike (h : a.Alike b) (hst : s.PicksAlike t) :
    Outcome.Alike Value.Alike (getOne a s) (getOne b t) := by
  have hbase : Outcome.Alike Value.Alike (getOne a s) (getOne b s) := by
    refine .of_map_plain ?_
    rw [← getOne_plain, h, getOne_plain]
  exact hbase.trans (getOne_selectors b hst)

/-- Paths of selectors that pick alike lead to parts that are alike. -/
theorem getPath_alike (hpath : List.Forall₂ Value.PicksAlike path path') :
    ∀ {a b : Value}, a.Alike b → Outcome.Alike Value.Alike (getPath a path) (getPath b path') := by
  induction hpath with
  | nil => exact fun h => .ok h
  | cons hst _ ih => exact fun h => (getOne_alike h hst).bind fun _ _ h => ih h

/-- The value with a part replaced does not depend on the form of numbers. -/
theorem setOne_plain (base selector value : Value) :
    (setOne base.plain selector value.plain).map plain =
      (setOne base selector value).map plain := by
  cases base with
  | vector v => simp only [plain, setOne_vector, sourceComponents_plain]
  | matrix m =>
    obtain ⟨field, rfl⟩ | hindex := text_or_index selector
    · rfl
    · have htype := typeName_plain value
      rw [plain, setOne_matrix hindex, setOne_matrix hindex]
      cases value <;> simp_all [plain]
  | array elements =>
    have htype := typeName_plain (.array elements)
    obtain ⟨field, rfl⟩ | hindex := text_or_index selector
    · simp only [setOne, plain] at htype ⊢
      rw [htype]
    · rw [plain, plainAll_eq_map, setOne_array hindex, setOne_array hindex, List.length_map]
      cases selectorIndex "set" selector elements.length with
      | error e => rfl
      | ok i =>
        simp only [bind, Except.bind, store_map]
        cases store elements i value with
        | error e => rfl
        | ok stored =>
          have hplain : (stored.map plain).map plain = stored.map plain := by
            simp only [List.map_map, Function.comp_def, plain_plain]
          simp only [Except.map, pure, Except.pure, plain, plainAll_eq_map, hplain]
  | _ => cases selector <;> rfl

/-- Selectors that pick alike have the same part replaced. -/
theorem setOne_selectors (base value : Value) (h : s.PicksAlike t) :
    Outcome.Alike Value.Alike (setOne base s value) (setOne base t value) := by
  obtain ⟨field, rfl, rfl⟩ | ⟨hs, ht, hpick⟩ := h.cases
  · exact .refl Value.Alike.refl _
  · obtain ⟨v, rfl⟩ | ⟨m, rfl⟩ | ⟨xs, rfl⟩ | hfault := container_or_fault base
    · rw [setOne_vector, setOne_vector]
      exact (selectorPlaces_alike h "set" true v.size).bind_same Value.Alike.refl _
    · rw [setOne_matrix hs, setOne_matrix ht]
      exact (hpick "set" m.size).bind_same Value.Alike.refl _
    · rw [setOne_array hs, setOne_array ht]
      exact (hpick "set" xs.length).bind_same Value.Alike.refl _
    · rw [(hfault s hs).2, (hfault t ht).2]
      exact faultOf_alike rfl

theorem setOne_alike {v w : Value} (h : a.Alike b) (hst : s.PicksAlike t) (hvalue : v.Alike w) :
    Outcome.Alike Value.Alike (setOne a s v) (setOne b t w) := by
  have hbase : Outcome.Alike Value.Alike (setOne a s v) (setOne b s w) := by
    refine .of_map_plain ?_
    rw [← setOne_plain, h, hvalue, setOne_plain]
  exact hbase.trans (setOne_selectors b w hst)

/-- Paths of selectors that pick alike have parts replaced alike. -/
theorem setPath_alike (hpath : List.Forall₂ Value.PicksAlike path path') {v w : Value}
    (hvalue : v.Alike w) :
    ∀ {a b : Value}, a.Alike b →
      Outcome.Alike Value.Alike (setPath a path v) (setPath b path' w) := by
  induction hpath with
  | nil => exact fun _ => .ok hvalue
  | cons hst hrest ih =>
    intro a b h
    cases hrest with
    | nil => exact setOne_alike h hst hvalue
    | cons hnext hrest =>
      refine (getOne_alike h hst).bind fun part part' hpart => ?_
      refine (ih hpart).bind fun updated updated' hupdated => ?_
      exact setOne_alike h hst hupdated

/-! ## Calls -/

/-- The function gives outcomes that are alike on arguments that are alike. -/
def Congruent (f : Function) : Prop :=
  ∀ args args', List.Forall₂ Value.Alike args args' → Outcome.Alike Value.Alike (f args) (f args')

theorem map_plain_of_alike (h : List.Forall₂ Value.Alike args args') :
    args.map plain = args'.map plain := by
  induction h with
  | nil => rfl
  | cons hv _ ih => rw [List.map_cons, List.map_cons, hv, ih]

theorem Blind.congruent (h : Blind f) : Congruent f := by
  intro args args' hargs
  rw [← h args, map_plain_of_alike hargs, h args']
  exact .refl Value.Alike.refl _

theorem picksAlike_of_alike (h : List.Forall₂ Value.Alike args args') :
    List.Forall₂ Value.PicksAlike args args' :=
  h.imp fun _ _ => .alike

theorem congruent_getFunction : Congruent getFunction := by
  intro args args' hargs
  cases hargs with
  | nil => exact faultOf_alike rfl
  | cons hbase hpath => exact getPath_alike (picksAlike_of_alike hpath) hbase

/-- Replacing a part is alike on paths that pick alike. -/
theorem setFunction_alike {v w : Value} (hbase : a.Alike b)
    (hpath : List.Forall₂ Value.PicksAlike path path') (hvalue : v.Alike w) :
    Outcome.Alike Value.Alike (setFunction (a :: path ++ [v]))
      (setFunction (b :: path' ++ [w])) := by
  rw [List.cons_append, List.cons_append, setFunction_eq_setPath, setFunction_eq_setPath]
  exact setPath_alike hpath hvalue hbase

/-- Related lists that are not empty have related last elements. -/
theorem forall₂_concat {R : α → β → Prop} {xs : List α} {ys : List β} (h : List.Forall₂ R xs ys)
    (hne : xs ≠ []) :
    ∃ front x front' y, xs = front ++ [x] ∧ ys = front' ++ [y] ∧ List.Forall₂ R front front' ∧
      R x y := by
  induction h with
  | nil => exact absurd rfl hne
  | @cons x y xs ys hxy hrest ih =>
    cases hrest with
    | nil => exact ⟨[], x, [], y, rfl, rfl, .nil, hxy⟩
    | cons hnext hrest =>
      obtain ⟨front, u, front', v, hxs, hys, hfront, hlast⟩ := ih (List.cons_ne_nil _ _)
      exact ⟨x :: front, u, y :: front', v, by rw [hxs]; rfl, by rw [hys]; rfl,
        .cons hxy hfront, hlast⟩

theorem congruent_setFunction : Congruent setFunction := by
  intro args args' hargs
  cases hargs with
  | nil => exact faultOf_alike rfl
  | @cons base base' rest rest' hbase hrest =>
    by_cases hempty : rest = []
    · subst hempty
      cases hrest
      exact faultOf_alike rfl
    · obtain ⟨path, v, path', w, rfl, rfl, hpath, hvalue⟩ := forall₂_concat hrest hempty
      exact setFunction_alike hbase (picksAlike_of_alike hpath) hvalue

/-- Every function of the catalog is congruent. -/
theorem congruent_of_find? (h : Catalog.find? name = some (.computes f)) : Congruent f :=
  of_find? (P := fun _ f => Congruent f)
    (fun entry hentry => (blind_builtins entry hentry).congruent)
    (fun entry hentry => (blind_operators entry hentry).congruent)
    (fun entry hentry => (blind_constructors entry hentry).congruent)
    congruent_getFunction congruent_setFunction h

/-- Two interrupts are alike: the same, or failures that are alike. -/
def Interrupt.Alike : Interrupt → Interrupt → Prop
  | .failed e, .failed f => e.Alike f
  | .discarded, .discarded => True
  | .stopped, .stopped => True
  | _, _ => False

@[refl] theorem Interrupt.Alike.refl (i : Interrupt) : i.Alike i := by
  cases i with
  | failed e => exact Failure.Alike.refl e
  | discarded | stopped => exact trivial

/-- Two answers of the catalog are alike: values or interrupts that are, and one console. -/
def AnswersAlike (r r' : Except Interrupt Value × Console) : Prop :=
  Matches Interrupt.Alike Value.Alike r.1 r'.1 ∧ r.2 = r'.2

/-- The arguments of two calls are alike one by one; those that stand for selectors need only pick
alike. -/
inductive ArgumentsAlike : String → List Value → List Value → Prop
  | each (name : String) {args args' : List Value} (h : List.Forall₂ Value.Alike args args') :
      ArgumentsAlike name args args'
  | get {a b : Value} {path path' : List Value} (hbase : a.Alike b)
      (hpath : List.Forall₂ Value.PicksAlike path path') :
      ArgumentsAlike "get" (a :: path) (b :: path')
  | set {a b v w : Value} {path path' : List Value} (hbase : a.Alike b)
      (hpath : List.Forall₂ Value.PicksAlike path path') (hvalue : v.Alike w) :
      ArgumentsAlike "set" (a :: path ++ [v]) (b :: path' ++ [w])

theorem computes_alike (console : Console) (h : Outcome.Alike Value.Alike (f args) (f args')) :
    AnswersAlike (Catalog.CatalogEntry.apply (.computes f) args console)
      (Catalog.CatalogEntry.apply (.computes f) args' console) := by
  simp only [Catalog.CatalogEntry.apply]
  generalize f args = r at h ⊢
  generalize f args' = r' at h ⊢
  cases h with
  | ok h => exact ⟨.ok h, rfl⟩
  | error h => exact ⟨.error h, rfl⟩

/-- What the console does does not depend on the form of numbers. -/
theorem entry_alike {entry : CatalogEntry} (hentry : ∀ f, entry = .computes f → Congruent f)
    (h : List.Forall₂ Value.Alike args args') (console : Console) :
    AnswersAlike (Catalog.CatalogEntry.apply entry args console)
      (Catalog.CatalogEntry.apply entry args' console) := by
  cases entry with
  | computes f => exact computes_alike console (hentry f rfl args args' h)
  | prints =>
    have htexts : allTexts args = allTexts args' := by
      rw [← allTexts_map_plain, map_plain_of_alike h, allTexts_map_plain]
    refine ⟨.ok ?_, by simp only [Catalog.CatalogEntry.apply, Catalog.printLine, htexts]⟩
    cases h with
    | nil => exact Value.Alike.refl _
    | cons hv _ => exact hv
  | discards => exact ⟨.error (Interrupt.Alike.refl _), rfl⟩
  | breaks =>
    refine ⟨?_, rfl⟩
    simp only [Catalog.CatalogEntry.apply]
    cases (Catalog.reachBreakpoint console).1 with
    | ok v => exact .ok (Value.Alike.refl v)
    | error i => exact .error (Interrupt.Alike.refl i)

/-- Calls with arguments that are alike give answers that are alike. -/
theorem call_alike (h : ArgumentsAlike name args args') (console : Console) :
    AnswersAlike (Catalog.call name args console) (Catalog.call name args' console) := by
  cases h with
  | each name h =>
    unfold Catalog.call
    cases hfind : Catalog.find? name with
    | none => exact ⟨.error (Interrupt.Alike.refl _), rfl⟩
    | some entry =>
      exact entry_alike (fun f hf => congruent_of_find? (hf ▸ hfind)) h console
  | get hbase hpath =>
    have hfind : Catalog.find? "get" = some (.computes getFunction) := rfl
    simp only [Catalog.call, hfind]
    exact computes_alike console (getPath_alike hpath hbase)
  | set hbase hpath hvalue =>
    have hfind : Catalog.find? "set" = some (.computes setFunction) := rfl
    simp only [Catalog.call, hfind]
    exact computes_alike console (setFunction_alike hbase hpath hvalue)

end ShaderScript
