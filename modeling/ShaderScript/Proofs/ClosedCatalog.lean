import ShaderScript.Proofs.WellFormed

/-!
# Every catalog function is closed

Geometry, constructors, texture look-up and selection join the operators of
`ShaderScript.Proofs.WellFormed`.  The main result is `call_closed`: whatever the name and however
many well-formed arguments, a call gives a well-formed value or a proper failure, and no access to
a component, an entry or an element is out of range.
-/

namespace ShaderScript

variable {base : Value} {xs n i : List Float} {places : List Nat} {name : String}

/-! ## Geometry -/

/-- As many operands as counted, each of the same one to four coordinates. -/
structure Operands (count : Nat) (operands : List (List Float)) : Prop where
  length_eq : operands.length = count
  alike : ∃ size, 1 ≤ size ∧ size ≤ 4 ∧ ∀ xs ∈ operands, xs.length = size

/-- Behind the check, every operand is a vector. -/
theorem safe_requireVectors (name : String) (size position : Nat) (args : List Value) :
    Safe (fun _ => ∀ a ∈ args, ∃ v, a = .vector v) (requireVectors name size position args) := by
  fun_induction requireVectors name size position args with
  | case1 position => exact .ok fun a ha => nomatch ha
  | case2 position v rest ih =>
    refine .mono ih fun _ h a ha => ?_
    cases ha with
    | head => exact ⟨v, rfl⟩
    | tail _ ha => exact h a ha
  | case3 => exact .fault _ _ _

theorem length_coordinates_of_not_vector {a : Value} (h : ∀ v, a ≠ .vector v) :
    (coordinates a).length = 1 := by
  cases a with
  | vector v => exact absurd rfl (h v)
  | _ => rfl

/-- The operands of a geometric function agree in size. -/
theorem safe_geometric (name : String) {args : List Value} (hargs : ∀ a ∈ args, a.WellFormed) :
    Safe (Operands args.length) (geometric name args) := by
  refine .bind (safe_commonShape name args) fun shape hshape => ?_
  cases shape with
  | none =>
    refine .pure ⟨List.length_map _, 1, by omega, by omega, fun xs hxs => ?_⟩
    obtain ⟨a, ha, rfl⟩ := List.mem_map.mp hxs
    refine length_coordinates_of_not_vector fun v hv => ?_
    have htwo := (hargs _ (hv ▸ ha)).of_vector.two_le
    have hempty := hshape.plain rfl v (hv ▸ ha)
    omega
  | some first =>
    refine .bind (safe_requireVectors name first.size 1 args) fun _ hvectors => .pure ?_
    have hfirst := (hargs _ (hshape.mem first rfl)).of_vector
    have htwo := hfirst.two_le
    have hfour := hfirst.le_four
    refine ⟨List.length_map _, first.components.length, by omega, hfour, fun xs hxs => ?_⟩
    obtain ⟨a, ha, rfl⟩ := List.mem_map.mp hxs
    obtain ⟨v, rfl⟩ := hvectors a ha
    exact hshape.sized first v rfl ha

/-- A list that is neither empty nor of one element. -/
theorem two_le_length {α : Type} {xs : List α} (hone : 1 ≤ xs.length) (hnot : ∀ x, xs ≠ [x]) :
    2 ≤ xs.length := by
  rcases xs with _ | ⟨x, _ | ⟨y, rest⟩⟩
  · simp at hone
  · exact absurd rfl (hnot x)
  · simp

/-- One to four coordinates are a well-formed value. -/
theorem wellFormed_ofCoordinates (hone : 1 ≤ xs.length) (hfour : xs.length ≤ 4) :
    (ofCoordinates xs).WellFormed := by
  unfold ofCoordinates
  split
  · exact .number _
  · rename_i hnot
    exact .vector (Vec.wellFormed_of (two_le_length hone hnot) hfour)

/-- A geometric function is closed if it is safe on operands that agree. -/
theorem closed_geometricFunction (name : String) (count : Nat)
    (f : List (List Float) → Outcome Value)
    (hf : ∀ operands, Operands count operands → Safe Value.WellFormed (f operands)) :
    Closed (geometricFunction name count f) := by
  intro args hargs
  refine .bind (safe_checkCount_exactly name args count) fun _ hcount => ?_
  refine .bind (safe_geometric name hargs) fun operands hoperands => ?_
  exact hf operands (hcount ▸ hoperands)

theorem safe_lengthOf (xs : List Float) : Safe (fun _ => True) (lengthOf xs) :=
  .bind (safe_dotProduct (Nat.le_refl _)) fun _ _ => .pure trivial

theorem safe_distanceOf {ys : List Float} (h : xs.length = ys.length) :
    Safe (fun _ => True) (distanceOf xs ys) :=
  .bind (safe_combine _ (Nat.le_of_eq h)) fun zs _ => safe_lengthOf zs

theorem safe_normalized (xs : List Float) :
    Safe (fun ys => ys.length = xs.length) (normalized xs) :=
  .bind (safe_lengthOf xs) fun _ _ => .pure (List.length_map _)

theorem safe_faceForward {reference : List Float} (h : reference.length = i.length) :
    Safe (fun ys => ys.length = n.length) (faceForward n i reference) := by
  refine .bind (safe_dotProduct (Nat.le_of_eq h)) fun d _ => .pure ?_
  split
  · rfl
  · exact List.length_map _

theorem safe_reflected (h : i.length = n.length) :
    Safe (fun ys => ys.length = i.length) (reflected i n) := by
  refine .bind (safe_dotProduct (Nat.le_of_eq h.symm)) fun d _ => ?_
  exact safe_combine _ (Nat.le_of_eq h)

theorem safe_refracted (eta : Float) (h : i.length = n.length) :
    Safe (fun ys => ys.length = i.length) (refracted eta i n) := by
  refine .bind (safe_dotProduct (Nat.le_of_eq h.symm)) fun d _ => ?_
  dsimp only
  split
  · exact safe_combine _ (Nat.le_of_eq h)
  · exact .pure (List.length_map _)

namespace Operands

variable {operands : List (List Float)}

theorem safe_operand {count size i : Nat} (h : Operands count operands)
    (hsize : ∀ xs ∈ operands, xs.length = size) (hi : i < count) :
    Safe (fun xs => xs.length = size) (fetch operands i) :=
  .mono (safe_fetch (h.length_eq ▸ hi)) hsize

/-- A function of one operand, a list of one to four coordinates. -/
theorem safe_one {f : List Float → Outcome Value} (h : Operands 1 operands)
    (hf : ∀ xs, 1 ≤ xs.length → xs.length ≤ 4 → Safe Value.WellFormed (f xs)) :
    Safe Value.WellFormed (do f (← fetch operands 0)) := by
  obtain ⟨size, hone, hfour, hsize⟩ := h.alike
  refine .bind (h.safe_operand hsize (by omega)) fun xs hxs => ?_
  exact hf xs (by omega) (by omega)

/-- A function of two operands with as many coordinates. -/
theorem safe_two {f : List Float → List Float → Outcome Value} (h : Operands 2 operands)
    (hf : ∀ xs ys, 1 ≤ xs.length → xs.length ≤ 4 → xs.length = ys.length →
      Safe Value.WellFormed (f xs ys)) :
    Safe Value.WellFormed (do f (← fetch operands 0) (← fetch operands 1)) := by
  obtain ⟨size, hone, hfour, hsize⟩ := h.alike
  refine .bind (h.safe_operand hsize (by omega)) fun xs hxs => ?_
  refine .bind (h.safe_operand hsize (by omega)) fun ys hys => ?_
  exact hf xs ys (by omega) (by omega) (by omega)

end Operands

/-- Coordinates that are as many as those of an operand make a well-formed value. -/
theorem safe_ofCoordinates {r : Outcome (List Float)} (hone : 1 ≤ xs.length) (hfour : xs.length ≤ 4)
    (h : Safe (fun ys => ys.length = xs.length) r) :
    Safe Value.WellFormed (do return ofCoordinates (← r)) :=
  .bind h fun ys hys => .pure (wellFormed_ofCoordinates (by omega) (by omega))

theorem closed_length : Closed (geometricFunction "length" 1 fun xs => do
    return .number (← lengthOf (← fetch xs 0))) :=
  closed_geometricFunction _ _ _ fun _ h => h.safe_one fun xs _ _ =>
    .bind (safe_lengthOf xs) fun x _ => .pure (.number x)

theorem closed_distance : Closed (geometricFunction "distance" 2 fun xs => do
    return .number (← distanceOf (← fetch xs 0) (← fetch xs 1))) :=
  closed_geometricFunction _ _ _ fun _ h => h.safe_two fun _ _ _ _ heq =>
    .bind (safe_distanceOf heq) fun x _ => .pure (.number x)

theorem closed_dot : Closed (geometricFunction "dot" 2 fun xs => do
    return .number (← dotProduct (← fetch xs 0) (← fetch xs 1))) :=
  closed_geometricFunction _ _ _ fun _ h => h.safe_two fun _ _ _ _ heq =>
    .bind (safe_dotProduct (Nat.le_of_eq heq)) fun x _ => .pure (.number x)

theorem closed_normalize : Closed (geometricFunction "normalize" 1 fun xs => do
    return ofCoordinates (← normalized (← fetch xs 0))) :=
  closed_geometricFunction _ _ _ fun _ h => h.safe_one fun xs hone hfour =>
    safe_ofCoordinates hone hfour (safe_normalized xs)

theorem closed_faceforward : Closed (geometricFunction "faceforward" 3 fun xs => do
    return ofCoordinates (← faceForward (← fetch xs 0) (← fetch xs 1) (← fetch xs 2))) := by
  refine closed_geometricFunction _ _ _ fun operands h => ?_
  obtain ⟨size, hone, hfour, hsize⟩ := h.alike
  refine .bind (h.safe_operand hsize (by omega)) fun n hn => ?_
  refine .bind (h.safe_operand hsize (by omega)) fun i hi => ?_
  refine .bind (h.safe_operand hsize (by omega)) fun reference hreference => ?_
  exact safe_ofCoordinates (by omega) (by omega) (safe_faceForward (by omega))

theorem closed_reflect : Closed (geometricFunction "reflect" 2 fun xs => do
    return ofCoordinates (← reflected (← fetch xs 0) (← fetch xs 1))) :=
  closed_geometricFunction _ _ _ fun _ h => h.safe_two fun _ _ hone hfour heq =>
    safe_ofCoordinates hone hfour (safe_reflected heq)

@[simp] theorem closed_refractFunction : Closed refractFunction := by
  intro args hargs
  refine .bind (safe_checkCount_exactly "refract" args 3) fun _ hcount => ?_
  refine .bind (safe_fetch (by omega)) fun ratio _ => ?_
  split
  · exact .fault _ _ _
  · rename_i eta _
    -- The ratio is no operand: the other two have to agree without it.
    have htake : ∀ a ∈ args.take 2, a.WellFormed := fun a ha => hargs a (List.mem_of_mem_take ha)
    have hlength : (args.take 2).length = 2 := by simp [hcount]
    refine .bind (safe_geometric "refract" htake) fun operands hoperands => ?_
    rw [hlength] at hoperands
    exact hoperands.safe_two fun _ _ hone hfour heq =>
      safe_ofCoordinates hone hfour (safe_refracted eta heq)

@[simp] theorem closed_crossFunction : Closed crossFunction := by
  intro args hargs
  refine .bind (safe_checkCount_exactly "cross" args 2) fun _ hcount => ?_
  split
  · exact .pure (.vector (Vec.wellFormed_of (by simp) (by simp)))
  · refine .bind (safe_fetch (by omega)) fun a _ => ?_
    exact .bind (safe_fetch (by omega)) fun b _ => .fault _ _ _

@[simp] theorem closed_matrixProduct : Closed matrixProduct := by
  intro args hargs
  refine .bind (safe_checkCount_exactly "matrixCompMult" args 2) fun _ hcount => ?_
  split
  · exact safe_matrixComponentwise _ _ (hargs _ (by simp)) (hargs _ (by simp))
  · refine .bind (safe_fetch (by omega)) fun a _ => ?_
    exact .bind (safe_fetch (by omega)) fun b _ => .fault _ _ _

/-! ## Tests on vectors -/

/-- A function of one vector is closed if it makes well-formed values of well-formed vectors. -/
theorem closed_vectorFunction (name : String) (f : Vec → Value)
    (hf : ∀ v : Vec, v.WellFormed → (f v).WellFormed) : Closed (vectorFunction name f) := by
  intro args hargs
  refine .bind (safe_checkCount_exactly name args 1) fun _ hcount => ?_
  refine .bind (safe_fetch_argument hargs (by omega)) fun a ha => ?_
  split
  · exact .pure (hf _ ha.2.of_vector)
  · exact .fault _ _ _

theorem closed_any : Closed (vectorFunction "any" fun v => .bool v.anyTrue) :=
  closed_vectorFunction _ _ fun _ _ => .bool _

theorem closed_all : Closed (vectorFunction "all" fun v => .bool v.allTrue) :=
  closed_vectorFunction _ _ fun _ _ => .bool _

theorem closed_not : Closed (vectorFunction "not" fun v => .vector v.negated) := by
  refine closed_vectorFunction _ _ fun v hv => .vector (Vec.wellFormed_of ?_ ?_)
  · rw [List.length_map]
    exact hv.two_le
  · rw [List.length_map]
    exact hv.le_four

/-! ## Texture look-up -/

theorem safe_levelOfDetail (name : String) (args : List Value) :
    Safe (fun _ => True) (levelOfDetail name args) := by
  unfold levelOfDetail
  split
  · exact .ok trivial
  · split
    · exact .ok trivial
    · exact .fault _ _ _

theorem safe_texelOf {r : Except String Vec} (h : ∀ v, r = .ok v → v.WellFormed) :
    Safe Value.WellFormed (texelOf r) := by
  cases r with
  | ok v => exact .ok (.vector (h v rfl))
  | error message => exact .outside _ message

@[simp] theorem closed_lookupPlane (name : String) (project explicitLevel : Bool) :
    Closed (lookupPlane name project explicitLevel) := by
  intro args hargs
  refine .bind (safe_checkCount name args _ (some 3)) fun _ hcount => ?_
  have htwo : 2 ≤ args.length := by
    have hleast := hcount.1
    split at hleast <;> omega
  refine .bind (safe_fetch_argument hargs (by omega)) fun unit hunit => ?_
  dsimp only
  split
  · have hlook := hunit.2.of_sampler.plane _ rfl
    rw [pure_bind]
    refine .bind (safe_fetch_argument hargs (by omega)) fun place hplace => ?_
    split
    · rename_i v
      have hv := hplace.2.of_vector.two_le
      have hsize : v.size = v.components.length := rfl
      -- A projected place is divided by its last component.
      split <;> split
      · exact .fault _ _ _
      · refine .bind (safe_fetch (by omega)) fun s _ => ?_
        refine .bind (safe_fetch (by omega)) fun t _ => ?_
        refine .bind (safe_levelOfDetail name args) fun level _ => ?_
        refine .bind (safe_fetch (by omega)) fun q _ => ?_
        exact safe_texelOf (hlook _ _ _)
      · exact .fault _ _ _
      · refine .bind (safe_fetch (by omega)) fun s _ => ?_
        refine .bind (safe_fetch (by omega)) fun t _ => ?_
        refine .bind (safe_levelOfDetail name args) fun level _ => ?_
        exact safe_texelOf (hlook _ _ _)
    · exact .fault _ _ _
  · exact .bind (.fault (fun _ => False) _ _) fun _ h => h.elim

@[simp] theorem closed_lookupCube (name : String) (explicitLevel : Bool) :
    Closed (lookupCube name explicitLevel) := by
  intro args hargs
  refine .bind (safe_checkCount name args _ (some 3)) fun _ hcount => ?_
  have htwo : 2 ≤ args.length := by
    have hleast := hcount.1
    split at hleast <;> omega
  refine .bind (safe_fetch_argument hargs (by omega)) fun unit hunit => ?_
  dsimp only
  split
  · have hlook := hunit.2.of_sampler.cube _ rfl
    rw [pure_bind]
    refine .bind (safe_fetch_argument hargs (by omega)) fun place _ => ?_
    split
    · refine .bind (safe_levelOfDetail name args) fun level _ => ?_
      exact safe_texelOf (hlook _ _ _ _)
    · exact .fault _ _ _
  · exact .bind (.fault (fun _ => False) _ _) fun _ h => h.elim

/-- Every built-in function is closed. -/
theorem closed_builtins : ∀ entry ∈ builtins, Closed entry.2 := by
  simp only [builtins, textureFunctions, List.cons_append, List.nil_append, List.forall_mem_cons,
    closed_componentwise, closed_componentwiseTest, takes_unary, takes_binary, takes_ternary,
    takes_clampFunction, closed_arcTangent, closed_length, closed_distance, closed_dot,
    closed_crossFunction, closed_normalize, closed_faceforward, closed_reflect,
    closed_refractFunction, closed_matrixProduct, closed_any, closed_all, closed_not,
    closed_lookupPlane, closed_lookupCube, List.not_mem_nil, false_implies, implies_true, and_self]

/-! ## Constructors -/

/-- What is gathered has the size wanted. -/
theorem safe_gather (name : String) (wanted : Nat) (args : List Value) :
    Safe (fun xs => xs.length = wanted) (gather name wanted args) := by
  have hfrom : ∀ position taken,
      Safe (fun _ => True) (gatherFrom name wanted position taken args) := by
    intro position taken
    fun_induction gatherFrom name wanted position taken args with
    | case1 => exact .ok trivial
    | case2 => exact .fault _ _ _
    | case3 _ _ _ _ _ ih | case4 _ _ _ _ _ ih => exact ih
    | case5 =>
      simp only [*]
    | case6 =>
      simp only [*]
      exact .fault _ _ _
  refine .bind (hfrom 1 []) fun taken _ => ?_
  split
  · exact .fault _ _ _
  · refine .pure ?_
    rw [List.length_take]
    omega

@[simp] theorem closed_constructVector (name : String) (kind : ComponentKind) {size : Nat}
    (htwo : 2 ≤ size) (hfour : size ≤ 4) : Closed (constructVector name kind size) := by
  intro args hargs
  have hgather : Safe Value.WellFormed (do return .vector (.of kind (← gather name size args))) :=
    .bind (safe_gather name size args) fun xs hxs =>
      .pure (.vector (Vec.wellFormed_of (by omega) (by omega)))
  unfold constructVector
  split
  · exact .fault _ _ _
  · split
    · exact .ok (.vector (Vec.wellFormed_of (by simpa using htwo) (by simpa using hfour)))
    · exact hgather
  · exact hgather

@[simp] theorem closed_constructMatrix (name : String) {size : Nat} (htwo : 2 ≤ size)
    (hfour : size ≤ 4) : Closed (constructMatrix name size) := by
  intro args hargs
  have hgather :
      Safe Value.WellFormed (do return .matrix (.of size (← gather name (size * size) args))) :=
    .bind (safe_gather name (size * size) args) fun xs _ =>
      .pure (.matrix (Mat.wellFormed_of htwo hfour xs))
  unfold constructMatrix
  split
  · exact .fault _ _ _
  · have hm := (hargs _ List.mem_cons_self).of_matrix
    exact .bind (hm.safe_resize htwo hfour) fun m hm => .pure (.matrix hm)
  · split
    · exact .ok (.matrix (Mat.wellFormed_diagonal htwo hfour _))
    · exact hgather
  · exact hgather

/-- A scalar constructor is closed if its conversion gives well-formed values. -/
theorem closed_constructScalar (name : String) (convert : Float → Value)
    (hconvert : ∀ x, (convert x).WellFormed) : Closed (constructScalar name convert) := by
  intro args hargs
  refine .bind (safe_checkCount_exactly name args 1) fun _ hcount => ?_
  refine .bind (safe_fetch_argument hargs (by omega)) fun a ha => ?_
  split
  · have hv := ha.2.of_vector.two_le
    exact .bind (safe_fetch (by omega)) fun x _ => .pure (hconvert x)
  · have hm := ha.2.of_matrix
    have hpos := place_lt_square (Nat.lt_of_lt_of_le Nat.zero_lt_two hm.two_le)
      (Nat.lt_of_lt_of_le Nat.zero_lt_two hm.two_le)
    have hcomplete := hm.complete
    exact .bind (safe_fetch (by omega)) fun x _ => .pure (hconvert x)
  · split
    · exact .pure (hconvert _)
    · exact .fault _ _ _

theorem closed_constructors : ∀ entry ∈ constructors, Closed entry.2.2 := by
  have hfloat := closed_constructScalar "float" .number .number
  have hint := closed_constructScalar "int" (fun x => .number (truncate x)) fun _ => .number _
  have hbool := closed_constructScalar "bool" (fun x => .bool (x != 0)) fun _ => .bool _
  simp [constructors, hfloat, hint, hbool]

/-! ## Selection -/

/-- The places picked are as many as the letters, all among the components. -/
theorem safe_selectionPlaces (name selection set : String) (size : Nat) (unique : Bool)
    (letters : List Char) (seen : List Nat) :
    Safe (fun places => places.length = letters.length ∧ ∀ i ∈ places, i < size)
      (selectionPlaces name selection set size unique letters seen) := by
  induction letters generalizing seen with
  | nil => exact .ok ⟨rfl, fun i hi => nomatch hi⟩
  | cons c letters ih =>
    unfold selectionPlaces
    split
    · exact .fault _ _ _
    · rename_i k _
      split
      · exact .fault _ _ _
      · rename_i hk
        split
        · exact .fault _ _ _
        · refine .bind (ih (k :: seen)) fun places hplaces => .pure ⟨?_, ?_⟩
          · rw [List.length_cons, hplaces.1, List.length_cons]
          · intro i hi
            cases hi with
            | head => omega
            | tail _ hi => exact hplaces.2 i hi

/-- A text has at most as many letters as bytes. -/
theorem length_toList_le_utf8ByteSize (s : String) : s.toList.length ≤ s.utf8ByteSize := by
  have hletters : ∀ letters : List Char,
      letters.length ≤ (String.ofList letters).utf8ByteSize := by
    intro letters
    induction letters with
    | nil => simp
    | cons c letters ih =>
      have hc := c.utf8Size_pos
      rw [String.ofList_cons, String.utf8ByteSize_append, String.utf8ByteSize_singleton,
        List.length_cons]
      omega
  have h := hletters s.toList
  rwa [String.ofList_toList] at h

/-- A selection picks one to four places, all among the components. -/
theorem safe_selectionIndices (name selection : String) (size : Nat) (unique : Bool) :
    Safe (fun places => 1 ≤ places.length ∧ places.length ≤ 4 ∧ ∀ i ∈ places, i < size)
      (selectionIndices name selection size unique) := by
  unfold selectionIndices
  split
  · exact .fault _ _ _
  · rename_i hbytes
    split
    · exact .fault _ _ _
    · rename_i c rest hletters
      split
      · exact .fault _ _ _
      · refine .mono (safe_selectionPlaces name selection _ size unique selection.toList [])
          fun places hplaces => ⟨?_, ?_, hplaces.2⟩
        · rw [hplaces.1, hletters]
          simp
        · -- The bound is checked in bytes, and there are no more letters than bytes.
          have hlength := length_toList_le_utf8ByteSize selection
          omega

/-- A number picks a place that is there. -/
theorem safe_selectorIndex (name : String) (selector : Value) (size : Nat) :
    Safe (fun i => i < size) (selectorIndex name selector size) := by
  unfold selectorIndex
  split
  · exact .fault _ _ _
  · split
    · split
      · rename_i hbounds
        refine .ok ?_
        omega
      · exact .fault _ _ _
    · exact .fault _ _ _

theorem safe_component {v : Vec} {i : Nat} (hi : i < v.components.length) :
    Safe Value.WellFormed (Value.component v i) := by
  refine .bind (safe_fetch hi) fun x _ => ?_
  split
  · exact .pure (.bool _)
  · exact .pure (.number _)

theorem safe_pickComponents {v : Vec} (hone : 1 ≤ places.length) (hfour : places.length ≤ 4)
    (hplaces : ∀ i ∈ places, i < v.components.length) :
    Safe Value.WellFormed (pickComponents v places) := by
  unfold pickComponents
  split
  · exact safe_component (hplaces _ List.mem_cons_self)
  · rename_i hnot
    have htwo : 2 ≤ places.length := two_le_length hone hnot
    have hfetch : ∀ i ∈ places, Safe (fun _ => True) (fetch v.components i) :=
      fun i hi => .mono (safe_fetch (hplaces i hi)) fun _ _ => trivial
    refine .bind (safe_collect hfetch) fun xs hxs => .pure (.vector ?_)
    exact Vec.wellFormed_of (by omega) (by omega)

/-- One selector picks a well-formed part. -/
theorem safe_getOne (hbase : base.WellFormed) (selector : Value) :
    Safe Value.WellFormed (getOne base selector) := by
  unfold getOne
  split
  · split
    · refine .bind (safe_selectionIndices "get" _ _ false) fun places hplaces => ?_
      exact safe_pickComponents hplaces.1 hplaces.2.1 hplaces.2.2
    · exact .fault _ _ _
  · split
    · refine .bind (safe_selectorIndex "get" _ _) fun i hi => ?_
      exact safe_component hi
    · refine .bind (safe_selectorIndex "get" _ _) fun i hi => ?_
      refine .bind (hbase.of_matrix.safe_column hi) fun column hcolumn => ?_
      exact .pure (.vector hcolumn)
    · refine .bind (safe_selectorIndex "get" _ _) fun i hi => ?_
      exact .mono (safe_fetch hi) hbase.of_array
    · exact .fault _ _ _

/-- A path picks a well-formed part. -/
theorem safe_getPath (hbase : base.WellFormed) (path : List Value) :
    Safe Value.WellFormed (getPath base path) := by
  induction path generalizing base with
  | nil => exact .ok hbase
  | cons selector path ih =>
    exact .bind (safe_getOne hbase selector) fun part hpart => ih hpart

@[simp] theorem closed_getFunction : Closed getFunction := by
  intro args hargs
  cases args with
  | nil => exact .fault _ _ _
  | cons base path => exact safe_getPath (hargs base List.mem_cons_self) path

theorem safe_sourceComponents (source : Value) (count : Nat) :
    Safe (fun xs => xs.length = count) (sourceComponents source count) := by
  unfold sourceComponents
  split
  · split
    · rename_i hsize
      exact .ok hsize
    · exact .fault _ _ _
  · split
    · split
      · rename_i hone
        exact .ok hone.symm
      · exact .fault _ _ _
    · exact .fault _ _ _

/-- Storing keeps the number of components, and that all are of the kind. -/
theorem safe_storeAll {kind : ComponentKind} {source components : List Float}
    (hsource : source.length = places.length) (hplaces : ∀ i ∈ places, i < components.length)
    (hnormal : ∀ x ∈ components, kind.normalize x = x) :
    Safe (fun xs => xs.length = components.length ∧ ∀ x ∈ xs, kind.normalize x = x)
      (storeAll kind places source components) := by
  induction places generalizing source components with
  | nil => exact .ok ⟨rfl, hnormal⟩
  | cons i places ih =>
    cases source with
    | nil => simp at hsource
    | cons y source =>
      have hi := hplaces i List.mem_cons_self
      refine .bind (safe_store (kind.normalize y) hi) fun ys hys => ?_
      refine .mono (ih (by simpa using hsource) ?_ ?_) fun xs hxs => ?_
      · intro j hj
        rw [hys.1]
        exact hplaces j (List.mem_cons_of_mem i hj)
      · -- What is stored is brought to the kind first.
        intro x hx
        rcases hys.2 x hx with hold | rfl
        · exact hnormal x hold
        · exact ComponentKind.normalize_normalize kind y
      · exact ⟨hxs.1.trans hys.1, hxs.2⟩

theorem safe_replaceComponents {v : Vec} (hv : v.WellFormed) {source : List Float}
    (hsource : source.length = places.length) (hplaces : ∀ i ∈ places, i < v.components.length) :
    Safe Vec.WellFormed (replaceComponents v places source) := by
  unfold replaceComponents
  rw [Vec.of, hv.map_normalize]
  refine .bind (safe_storeAll hsource hplaces hv.normal) fun xs hxs => .pure ?_
  exact ⟨hxs.1 ▸ hv.two_le, hxs.1 ▸ hv.le_four, hxs.2⟩

/-- Replacing the part that one selector picks leaves a well-formed value. -/
theorem safe_setOne {value : Value} (hbase : base.WellFormed) (hvalue : value.WellFormed)
    (selector : Value) : Safe Value.WellFormed (setOne base selector value) := by
  unfold setOne
  split
  · split
    · refine .bind (safe_selectionIndices "set" _ _ true) fun places hplaces => ?_
      refine .bind (safe_sourceComponents value _) fun source hsource => ?_
      refine .bind (safe_replaceComponents hbase.of_vector hsource hplaces.2.2) fun w hw => ?_
      exact .pure (.vector hw)
    · exact .fault _ _ _
  · split
    · refine .bind (safe_selectorIndex "set" _ _) fun i hi => ?_
      refine .bind (safe_sourceComponents value 1) fun source hsource => ?_
      -- An index picks one place.
      have hplaces : ∀ j ∈ [i], j < _ := fun j hj => List.mem_singleton.mp hj ▸ hi
      refine .bind (safe_replaceComponents hbase.of_vector hsource hplaces) fun w hw => ?_
      exact .pure (.vector hw)
    · refine .bind (safe_selectorIndex "set" _ _) fun i hi => ?_
      split
      · split
        · rename_i hsize
          refine .bind (hbase.of_matrix.safe_setColumn hi hsize) fun m hm => ?_
          exact .pure (.matrix hm)
        · exact .fault _ _ _
      · exact .fault _ _ _
    · refine .bind (safe_selectorIndex "set" _ _) fun i hi => ?_
      refine .bind (safe_store value hi) fun ys hys => .pure (.array fun v hv => ?_)
      rcases hys.2 v hv with hold | rfl
      · exact hbase.of_array v hold
      · exact hvalue
    · exact .fault _ _ _

/-- Replacing the part at a path leaves a well-formed value. -/
theorem safe_setPath {value : Value} (hbase : base.WellFormed) (hvalue : value.WellFormed)
    (path : List Value) : Safe Value.WellFormed (setPath base path value) := by
  fun_induction setPath base path value with
  | case1 => exact .ok hvalue
  | case2 base selector value => exact safe_setOne hbase hvalue selector
  | case3 base selector next rest value ih =>
    refine .bind (safe_getOne hbase selector) fun part hpart => ?_
    refine .bind (ih part hpart hvalue) fun updated hupdated => ?_
    exact safe_setOne hbase hupdated selector

@[simp] theorem closed_setFunction : Closed setFunction := by
  intro args hargs
  unfold setFunction
  split
  · rename_i base value rest
    unfold setWith
    split
    · exact .fault _ _ _
    · rename_i last hlast
      have hmem := List.mem_cons_of_mem base (List.mem_of_getLast? hlast)
      exact safe_setPath (hargs base List.mem_cons_self) (hargs last hmem) _
  · exact .fault _ _ _

/-! ## The catalog -/

theorem mem_of_lookup {α : Type} {entries : List (String × α)} {a : α}
    (h : entries.lookup name = some a) : (name, a) ∈ entries := by
  obtain ⟨front, back, rfl, _⟩ := List.lookup_eq_some_iff.mp h
  simp

/-- What holds of every family of functions holds of each that the catalog finds. -/
theorem of_find? {P : String → Function → Prop} (hbuiltins : ∀ entry ∈ builtins, P entry.1 entry.2)
    (hoperators : ∀ entry ∈ operators, P entry.1 entry.2)
    (hconstructors : ∀ entry ∈ constructors, P entry.2.1 entry.2.2) (hget : P "get" getFunction)
    (hset : P "set" setFunction) {f : Function} (h : Catalog.find? name = some (.computes f)) :
    P name f := by
  have hmem := mem_of_lookup h
  simp only [Catalog.entries, List.mem_append, List.mem_map] at hmem
  rcases hmem with ⟨⟨_, g⟩, hg, heq⟩ | hmem
  · cases heq
    simp only [Catalog.functions, List.mem_append, List.mem_map] at hg
    rcases hg with ((hg | hg) | ⟨constructor, hg, heq⟩) | hg
    · exact hbuiltins _ hg
    · exact hoperators _ hg
    · cases heq
      exact hconstructors constructor hg
    · simp only [List.mem_cons, List.not_mem_nil, or_false] at hg
      rcases hg with heq | heq
      · cases heq
        exact hget
      · cases heq
        exact hset
  · simp at hmem

/-- How a call ends: with a well-formed value, or early and not by breaking off. -/
def EndsWell : Except Interrupt Value → Prop
  | .ok v => v.WellFormed
  | .error (.failed failure) => failure.isCrash = false
  | .error _ => True

theorem endsWell_computes (f : Function) (args : List Value) (console : Console) :
    EndsWell (Catalog.CatalogEntry.apply (.computes f) args console).1 ↔
      Safe Value.WellFormed (f args) := by
  unfold Catalog.CatalogEntry.apply
  dsimp only
  cases f args <;> rfl

/-- Every entry of the catalog ends well on well-formed arguments. -/
theorem endsWell_apply {entry : CatalogEntry} (hentry : ∀ f, entry = .computes f → Closed f)
    {args : List Value} (hargs : ∀ a ∈ args, a.WellFormed) (console : Console) :
    EndsWell (Catalog.CatalogEntry.apply entry args console).1 := by
  cases entry with
  | computes f => exact (endsWell_computes f args console).2 (hentry f rfl args hargs)
  | prints =>
    cases args with
    | nil => exact .void
    | cons a rest => exact hargs a List.mem_cons_self
  | discards => exact trivial
  | breaks =>
    unfold Catalog.CatalogEntry.apply Catalog.reachBreakpoint
    cases console.breakpoints with
    | ignore | count => exact .void
    | stop => exact trivial

/-- Every name of the catalog stands for an entry. -/
theorem exists_find?_of_mem_names (hname : name ∈ Catalog.names) :
    ∃ entry, Catalog.find? name = some entry := by
  rw [Catalog.names, List.mem_mergeSort, List.mem_map] at hname
  obtain ⟨⟨name, entry⟩, hmem, rfl⟩ := hname
  cases hfind : Catalog.find? (name, entry).1 with
  | some found => exact ⟨found, rfl⟩
  | none => exact absurd (List.lookup_eq_none_iff.mp hfind _ hmem) (by simp)

/-- A test for equality of two values that clash. -/
def Clashing (name : String) (args : List Value) : Prop :=
  name ∈ equalityNames ∧ ∃ a b, args = [a, b] ∧ a.Clashes b

theorem find?_equality (hname : name ∈ equalityNames) :
    ∃ negated, Catalog.find? name = some (.computes (equality name negated)) := by
  simp only [equalityNames, List.mem_cons, List.not_mem_nil, or_false] at hname
  rcases hname with rfl | rfl
  · exact ⟨false, rfl⟩
  · exact ⟨true, rfl⟩

end ShaderScript
