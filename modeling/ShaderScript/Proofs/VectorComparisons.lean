import ShaderScript.Proofs.BroadcastLaw

/-!
# Comparisons of vectors

Two vectors are compared as wholes by the operators of equality, and component by component by
`equal` and `notEqual`.  `any`, `all` and `not` go on with the truth values that those give.  In a
vector a truth value is the number 1 or 0 (`Vec.ofTruths`), and what is not zero is taken for true.

NaN is equal to nothing, so `notEqual` holds wherever `equal` does not; and it is not zero, so `any`
and `all` take it for true.
-/

namespace ShaderScript

variable {a b : Vec}

/-! ## Truth values -/

namespace Vec

/-- The vector of truth values. -/
def ofTruths (truths : List Bool) : Vec := .of .bool (truths.map fun t => if t then 1 else 0)

/-- A test of the components of two vectors. -/
def compare (f : Float → Float → Bool) (a b : Vec) : List Bool :=
  (a.components.zip b.components).map fun p => f p.1 p.2

theorem bne_zero_truth (t : Bool) :
    (ComponentKind.bool.normalize (if t then 1 else 0) != 0) = t := by
  cases t <;> decide

theorem anyTrue_ofTruths (truths : List Bool) : (ofTruths truths).anyTrue = truths.any id := by
  simp only [anyTrue, ofTruths, of, List.any_map, Function.comp_def, bne_zero_truth]
  rfl

theorem allTrue_ofTruths (truths : List Bool) : (ofTruths truths).allTrue = truths.all id := by
  simp only [allTrue, ofTruths, of, List.all_map, Function.comp_def, bne_zero_truth]
  rfl

theorem negated_eq (v : Vec) : v.negated = ofTruths (v.components.map (· == 0)) := by
  rw [negated, ofTruths, List.map_map]
  rfl

theorem negated_ofTruths (truths : List Bool) :
    (ofTruths truths).negated = ofTruths (truths.map (!·)) := by
  have hzero : ∀ t : Bool, (ComponentKind.bool.normalize (if t then 1 else 0) == 0) = !t := by
    decide
  simp only [negated_eq, ofTruths, of, List.map_map, Function.comp_def, hzero]

theorem allTrue_negated (v : Vec) : v.negated.allTrue = !v.anyTrue := by
  simp only [negated_eq, allTrue_ofTruths, List.all_map, anyTrue, List.not_any_eq_all_not, bne,
    Bool.not_not, Function.id_comp]

theorem anyTrue_negated (v : Vec) : v.negated.anyTrue = !v.allTrue := by
  simp only [negated_eq, anyTrue_ofTruths, List.any_map, allTrue, List.not_all_eq_any_not, bne,
    Bool.not_not, Function.id_comp]

/-- Vectors of one kind and size are equal if all components are. -/
theorem same_eq (hkind : a.kind = b.kind) (hsize : a.size = b.size) :
    a.same b = (compare (· == ·) a b).all id := by
  have hlength : a.components.length = b.components.length := hsize
  simp [same, compare, hkind, hlength, List.all_map]

end Vec

/-! ## Calls -/

/-- A test of two vectors of one size is made of their components. -/
theorem componentwiseTest_vectors (name : String) (f : Float → Float → Bool)
    (hsize : a.size = b.size) (hpos : 0 < a.size) :
    componentwiseTest name f [.vector a, .vector b] =
      .ok (.vector (.ofTruths (a.compare f b))) := by
  have hargs : Compatible [.vector a, .vector b] := by
    refine compatible_iff.mpr ⟨by simp [Value.vector?], fun v w hv hw => ?_⟩
    have hall : ∀ v, .vector v ∈ [Value.vector a, .vector b] → v.size = a.size := by
      simp [hsize]
    rw [hall v hv, hall w hw]
  have hfirst : leading? [.vector a, .vector b] = some a := leading?_eq_some_iff.mpr ⟨rfl, hpos⟩
  have hlength : b.components.length = a.components.length := hsize.symm
  have hcomponents : collect (fun i => ScalarFunction.test f (row [.vector a, .vector b] i))
      (List.range a.size) = .ok ((a.compare f b).map fun t => if t then 1 else 0) := by
    refine collect_range_eq_ok_iff.mpr ⟨by simp [Vec.compare, Vec.size, hlength], fun i hi => ?_⟩
    have hia : i < a.components.length := by simpa [Vec.compare, hlength] using hi
    simp [ScalarFunction.test, ScalarFunction.binary, row, Value.pick, scalarOperand, Value.scalar?,
      fetch, Vec.compare, hia, hlength, bind, Except.bind, pure, Except.pure]
  have hcall : componentwiseTest name f [.vector a, .vector b] =
      spread .truths name (.test f) [.vector a, .vector b] := rfl
  rw [hcall, spread_of_vectors _ _ _ hargs hfirst, hcomponents]
  rfl

theorem equality_vectors (name : String) (negated : Bool) (a b : Vec) :
    equality name negated [.vector a, .vector b] = .ok (.bool (a.same b != negated)) := by
  simp only [equality]
  rfl

/-- A call gives a value and leaves the invocation alone. -/
def Catalog.Returns (name : String) (args : List Value) (v : Value) : Prop :=
  ∀ console, Catalog.call name args console = (.ok v, console)

theorem Catalog.Returns.of_find? {name : String} {f : Function} {args : List Value} {v : Value}
    (hfind : Catalog.find? name = some (.computes f)) (h : f args = .ok v) :
    Catalog.Returns name args v := by
  intro console
  rw [Catalog.call, hfind]
  dsimp only [Catalog.CatalogEntry.apply]
  rw [h]

open Catalog (Returns)

/-- **Comparisons of vectors agree.**  Let `a` and `b` be vectors of one kind and size; one
component is enough, and well-formed vectors have two.  `op_eq` gives what `all` gives of `equal`,
`op_neq` gives what `any` gives of `notEqual`, and `notEqual` is the negation of `equal`.  Of a
negated vector `all` gives the negation of what `any` gives of the vector, and `any` that of
`all`. -/
theorem vector_comparisons_agree (hkind : a.kind = b.kind) (hsize : a.size = b.size)
    (hpos : 0 < a.size) :
    (∃ (equals differs : Vec) (same : Bool),
      Returns "equal" [.vector a, .vector b] (.vector equals) ∧
      Returns "notEqual" [.vector a, .vector b] (.vector differs) ∧
      Returns "op_eq" [.vector a, .vector b] (.bool same) ∧
      Returns "all" [.vector equals] (.bool same) ∧
      Returns "op_neq" [.vector a, .vector b] (.bool !same) ∧
      Returns "any" [.vector differs] (.bool !same) ∧
      Returns "not" [.vector equals] (.vector differs) ∧
      equals = .ofTruths (a.compare (· == ·) b) ∧
      (same = true ↔ ∀ p ∈ a.components.zip b.components, (p.1 == p.2) = true)) ∧
    ∃ negated : Vec,
      Returns "not" [.vector a] (.vector negated) ∧
      Returns "any" [.vector a] (.bool a.anyTrue) ∧
      Returns "all" [.vector negated] (.bool !a.anyTrue) ∧
      Returns "all" [.vector a] (.bool a.allTrue) ∧
      Returns "any" [.vector negated] (.bool !a.allTrue) := by
  -- Differing is the negation of being equal, also for NaN.
  have hnot : (a.compare (· == ·) b).map (!·) = a.compare (· != ·) b := by
    rw [Vec.compare, List.map_map]
    rfl
  have hany : (a.compare (· != ·) b).any id = !(a.compare (· == ·) b).all id := by
    rw [← hnot, List.any_map, List.not_all_eq_any_not]
    rfl
  refine ⟨⟨.ofTruths (a.compare (· == ·) b), .ofTruths (a.compare (· != ·) b),
    (a.compare (· == ·) b).all id, ?_, ?_, ?_, ?_, ?_, ?_, ?_, rfl, ?_⟩,
    a.negated, ?_, ?_, ?_, ?_, ?_⟩
  · exact .of_find? rfl (componentwiseTest_vectors "equal" (· == ·) hsize hpos)
  · exact .of_find? rfl (componentwiseTest_vectors "notEqual" (· != ·) hsize hpos)
  · refine .of_find? rfl ?_
    rw [equality_vectors, Vec.same_eq hkind hsize, Bool.bne_false]
  · exact .of_find? rfl (by rw [← Vec.allTrue_ofTruths]; rfl)
  · refine .of_find? rfl ?_
    rw [equality_vectors, Vec.same_eq hkind hsize, Bool.bne_true]
  · exact .of_find? rfl (by rw [← hany, ← Vec.anyTrue_ofTruths]; rfl)
  · exact .of_find? rfl (by rw [← hnot, ← Vec.negated_ofTruths]; rfl)
  · simp [Vec.compare]
  · exact .of_find? rfl rfl
  · exact .of_find? rfl rfl
  · exact .of_find? rfl (by rw [← Vec.allTrue_negated]; rfl)
  · exact .of_find? rfl rfl
  · exact .of_find? rfl (by rw [← Vec.anyTrue_negated]; rfl)

/-- A vector with NaN is not equal to itself. -/
theorem vector_comparisons_agree_nan :
    (0 / 0 : Float).isNaN = true ∧ 0 < (Vec.ofFloats [0 / 0, 1]).size ∧
      Returns "op_eq" [.vector (.ofFloats [0 / 0, 1]), .vector (.ofFloats [0 / 0, 1])]
        (.bool false) ∧
      Returns "op_neq" [.vector (.ofFloats [0 / 0, 1]), .vector (.ofFloats [0 / 0, 1])]
        (.bool true) := by
  have hpos : 0 < (Vec.ofFloats [0 / 0, 1]).size := by decide
  obtain ⟨⟨_, _, same, -, -, heq, -, hneq, -, -, -, hsame⟩, -⟩ :=
    vector_comparisons_agree (a := .ofFloats [0 / 0, 1]) rfl rfl hpos
  have hfalse : same = false := by
    rw [Bool.eq_false_iff, ne_eq, hsame]
    decide
  subst hfalse
  exact ⟨by decide, hpos, heq, hneq⟩

end ShaderScript
