import ShaderScript.Proofs.ConstructorArguments
import ShaderScript.Proofs.Lens
import ShaderScript.Proofs.NativeFloats

/-!
# Products of matrices by columns

The products of a matrix with a matrix, a column and a row are sums of products, each added up from
the first on (`sumOfProducts`).  Addition and multiplication of doubles are not taken to obey any
law, so two such sums are equal only if they have the same terms in the same order.  Each product of
the catalog is told here place by place; they turn out to go through the same terms in the same
order.
-/

namespace ShaderScript

/-- The sum of the products of two sequences of `n` numbers, from the first on. -/
def sumOfProducts (n : Nat) (f g : Nat → Float) : Float :=
  (List.range n).foldl (fun sum k => sum + f k * g k) 0

theorem combine_map {α β γ δ : Type} (h : β → γ → δ) (f : α → β) (g : α → γ) (xs : List α) :
    combine h (xs.map f) (xs.map g) = .ok (xs.map fun x => h (f x) (g x)) := by
  induction xs with
  | nil => rfl
  | cons x xs ih => simp only [List.map_cons, combine, ih, bind, Except.bind, pure, Except.pure]

theorem dotProduct_map (n : Nat) (f g : Nat → Float) :
    dotProduct ((List.range n).map f) ((List.range n).map g) = .ok (sumOfProducts n f g) := by
  rw [dotProduct, combine_map]
  exact congrArg Except.ok List.foldl_map

theorem foldlM_terms {term : Nat → Outcome Float} {f : Nat → Float} {ks : List Nat}
    (h : ∀ k ∈ ks, term k = .ok (f k)) (sum : Float) :
    ks.foldlM (fun sum k => do return sum + (← term k)) sum =
      (.ok (ks.foldl (fun sum k => sum + f k) sum) : Outcome Float) := by
  induction ks generalizing sum with
  | nil => rfl
  | cons k ks ih =>
    rw [List.foldlM_cons, h k List.mem_cons_self]
    exact ih (fun k' hk' => h k' (List.mem_cons_of_mem k hk')) _

/-- A sum of products that can all be computed. -/
theorem accumulate_eq {n : Nat} {first second : Nat → Outcome Float} {f g : Nat → Float}
    (hfirst : ∀ k, k < n → first k = .ok (f k)) (hsecond : ∀ k, k < n → second k = .ok (g k)) :
    accumulate n (fun k => do return (← first k) * (← second k)) = .ok (sumOfProducts n f g) := by
  refine foldlM_terms (f := fun k => f k * g k) (fun k hk => ?_) 0
  rw [hfirst k (List.mem_range.mp hk), hsecond k (List.mem_range.mp hk)]
  rfl

variable {selector : Value} {j n : Nat} {v : Vec} {m : Mat}

theorem eq_map_getD {xs : List Float} (h : xs.length = n) :
    xs = (List.range n).map fun k => xs.getD k 0 := by
  refine List.ext_getElem (by simp [h]) fun k hk _ => ?_
  simp [List.getD_eq_getElem?_getD, List.getElem?_eq_getElem hk]

theorem Vec.components_ofFloats (xs : List Float) : (Vec.ofFloats xs).components = xs :=
  List.map_id xs

/-! ## Columns and rows -/

namespace Mat

/-- What stands in the `row`-th place of the `column`-th stretch of equal stretches. -/
theorem getElem?_flatMap_range {α β : Type} {g : α → List β} {n : Nat} (xs : List α)
    (hlength : ∀ x, (g x).length = n) {column row : Nat} (hrow : row < n) :
    (xs.flatMap g)[column * n + row]? = xs[column]?.bind fun x => (g x)[row]? := by
  induction xs generalizing column with
  | nil => simp
  | cons x xs ih =>
    rw [List.flatMap_cons]
    cases column with
    | zero =>
      rw [List.getElem?_append_left (by rw [hlength]; omega)]
      simp
    | succ column =>
      have hplace : (column + 1) * n + row = n + (column * n + row) := by
        rw [Nat.add_mul, Nat.one_mul]
        omega
      rw [List.getElem?_append_right (by rw [hlength]; omega), hlength, hplace,
        Nat.add_sub_cancel_left, ih]
      rfl

theorem entries_tabulate (size : Nat) (f : Nat → Nat → Float) :
    (tabulate size f).entries = (List.range size).flatMap fun column =>
      (List.range size).map (f column) := by
  simp only [tabulate, places, List.map_flatMap, List.map_map]
  rfl

theorem cell_tabulate {size : Nat} {f : Nat → Nat → Float} {column row : Nat}
    (hcolumn : column < size) (hrow : row < size) :
    (tabulate size f).cell column row = f column row := by
  have hget := @getElem?_flatMap_range _ _ (fun column => (List.range size).map (f column)) size
    (List.range size) (by simp) column row hrow
  rw [cell, entries_tabulate, List.getD_eq_getElem?_getD]
  show ((List.flatMap _ _)[column * size + row]?).getD 0 = _
  rw [hget]
  simp [hcolumn, hrow]

theorem square_tabulate (size : Nat) (f : Nat → Nat → Float) : (tabulate size f).Square := by
  rw [Square, tabulate, List.length_map, length_places]

section

variable {m : Mat} (h : m.Square)

include h

/-- The cells of a column. -/
theorem Square.columnEntries_eq {column : Nat} (hcolumn : column < m.size) :
    m.columnEntries column = .ok ((List.range m.size).map (m.cell column)) := by
  have hend : column * m.size + m.size ≤ m.entries.length := by
    rw [h]
    exact column_le_square hcolumn
  rw [columnEntries, slice_eq_ok hend]
  refine congrArg Except.ok (List.ext_getElem ?_ fun row hrow _ => ?_)
  · simp
    omega
  · have hrow : row < m.size := by
      simp at hrow
      omega
    have hplace : column * m.size + row < m.entries.length := by omega
    simp [cell, List.getD_eq_getElem?_getD, List.getElem?_eq_getElem hplace]

/-- A matrix is what stands at its places. -/
theorem Square.tabulate_cell : tabulate m.size m.cell = m := by
  have hentries : (tabulate m.size m.cell).entries = m.entries := by
    have hlength : (tabulate m.size m.cell).entries.length = m.entries.length :=
      (square_tabulate m.size m.cell).trans h.symm
    refine List.ext_getElem hlength fun place hplace' hplace => ?_
    -- A place is its column times the size, and its row.
    have hlt : place < m.size * m.size := h ▸ hplace
    have hsize : 0 < m.size := Nat.pos_of_mul_pos_left (Nat.lt_of_le_of_lt place.zero_le hlt)
    have hcell := cell_tabulate (f := m.cell) (Nat.div_lt_of_lt_mul hlt) (Nat.mod_lt place hsize)
    rw [cell, cell, show (tabulate m.size m.cell).size = m.size from rfl,
      Nat.div_add_mod' place m.size] at hcell
    simpa only [List.getD_eq_getElem?_getD, List.getElem?_eq_getElem hplace,
      List.getElem?_eq_getElem hplace', Option.getD_some] using hcell
  exact congrArg (Mat.mk m.size) hentries

theorem Square.timesColumn_eq (f : Nat → Float) :
    m.timesColumn ((List.range m.size).map f) =
      .ok ((List.range m.size).map fun row => sumOfProducts m.size (m.cell · row) f) := by
  refine collect_eq_map fun row hrow => accumulate_eq (fun k hk => ?_) fun k hk => ?_
  · exact h.entry_eq hk (List.mem_range.mp hrow)
  · simp [fetch, hk]

theorem Square.rowTimes_eq (f : Nat → Float) :
    rowTimes ((List.range m.size).map f) m =
      .ok ((List.range m.size).map fun column => sumOfProducts m.size f (m.cell column)) := by
  refine collect_eq_map fun column hcolumn => accumulate_eq (fun k hk => ?_) fun k hk => ?_
  · simp [fetch, hk]
  · exact h.entry_eq (List.mem_range.mp hcolumn) hk

/-- The cells of a product are sums of products. -/
theorem Square.times_eq {b : Mat} (hb : b.Square) (hsize : b.size = m.size) :
    m.times b = .ok (tabulate m.size fun column row =>
      sumOfProducts m.size (m.cell · row) (b.cell column)) := by
  have hcolumns : collect (fun column => collect (fun row => accumulate m.size fun k => do
        return (← m.entry k row) * (← b.entry column k)) (List.range m.size)) (List.range m.size) =
      .ok ((List.range m.size).map fun column => (List.range m.size).map fun row =>
        sumOfProducts m.size (m.cell · row) (b.cell column)) := by
    refine collect_eq_map fun column hcolumn => collect_eq_map fun row hrow => ?_
    refine accumulate_eq (fun k hk => ?_) fun k hk => ?_
    · exact h.entry_eq hk (List.mem_range.mp hrow)
    · exact hb.entry_eq (hsize ▸ List.mem_range.mp hcolumn) (hsize ▸ hk)
  rw [times, hcolumns]
  refine congrArg Except.ok (congrArg (Mat.mk m.size) ?_)
  rw [← List.flatMap_def]
  exact (entries_tabulate m.size _).symm

end

end Mat

/-! ## The catalog -/

/-- The dot product as the catalog has it. -/
def dotFunction : Function := geometricFunction "dot" 2 fun xs => do
  return .number (← dotProduct (← fetch xs 0) (← fetch xs 1))

section

variable {a b : Mat} (ha : a.Square)

include ha

theorem multiply_matrices (hb : b.Square) (hsize : b.size = a.size) :
    multiply [.matrix a, .matrix b] =
      .ok (.matrix (.tabulate a.size fun column row =>
        sumOfProducts a.size (a.cell · row) (b.cell column))) := by
  show (if a.size = b.size then _ else _) = _
  rw [if_pos hsize.symm, ha.times_eq hb hsize]
  rfl

theorem multiply_column (f : Nat → Float) :
    multiply [.matrix a, .vector (.ofFloats ((List.range a.size).map f))] =
      .ok (.vector (.ofFloats ((List.range a.size).map fun row =>
        sumOfProducts a.size (a.cell · row) f))) := by
  show (if a.size = Vec.size _ then _ else _) = _
  rw [if_pos (by simp [Vec.size, Vec.components_ofFloats]), Vec.components_ofFloats,
    ha.timesColumn_eq]
  rfl

theorem multiply_row (hv : v.size = a.size) :
    multiply [.vector v, .matrix a] =
      .ok (.vector (.ofFloats ((List.range a.size).map fun column =>
        sumOfProducts a.size (v.components.getD · 0) (a.cell column)))) := by
  have hrow := ha.rowTimes_eq (v.components.getD · 0)
  rw [← eq_map_getD hv] at hrow
  show (if v.size = a.size then _ else _) = _
  rw [if_pos hv, hrow]
  rfl

end

/-- Two vectors of one size are what they are as operands of a geometric function. -/
theorem geometric_vectors (name : String) {w : Vec} (h : w.size = v.size) :
    geometric name [.vector v, .vector w] = .ok [v.components, w.components] := by
  have hshape : commonShape name [.vector v, .vector w] =
      .ok ((some v).filter fun first => decide (0 < first.size)) := by
    simp only [commonShape, commonShapeFrom, h, if_true]
    rfl
  rw [geometric, hshape]
  by_cases hpos : 0 < v.size
  · simp only [Option.filter, decide_eq_true hpos]
    rfl
  · simp only [Option.filter, decide_eq_false hpos]
    rfl

theorem dotFunction_vectors (hv : v.size = n) (g : Nat → Float) :
    dotFunction [.vector v, .vector (.ofFloats ((List.range n).map g))] =
      .ok (.number (sumOfProducts n (v.components.getD · 0) g)) := by
  have hsize : (Vec.ofFloats ((List.range n).map g)).size = v.size := by
    simp [Vec.size, Vec.components_ofFloats, ← hv]
  have hsum := dotProduct_map n (v.components.getD · 0) g
  rw [← eq_map_getD hv] at hsum
  show (do
    let xs ← geometric "dot" [.vector v, .vector (.ofFloats ((List.range n).map g))]
    return Value.number (← dotProduct (← fetch xs 0) (← fetch xs 1))) = _
  rw [geometric_vectors "dot" hsize, Vec.components_ofFloats]
  show (do return Value.number (← dotProduct v.components ((List.range n).map g))) = _
  rw [hsum]
  rfl

/-! ## Selecting columns and components -/

theorem getFunction_one (base selector : Value) :
    getFunction [base, selector] = getOne base selector := by
  show (getOne base selector >>= fun part => .ok part) = _
  cases getOne base selector <;> rfl

theorem not_text_of_selectorIndex {size : Nat} (h : selectorIndex "get" selector size = .ok j)
    (field : String) : selector ≠ .text field := by
  rintro rfl
  cases h

theorem getFunction_column (hm : m.Square) (h : selectorIndex "get" selector m.size = .ok j) :
    getFunction [.matrix m, selector] =
      .ok (.vector (.ofFloats ((List.range m.size).map (m.cell j)))) := by
  have hj : j < m.size := (safe_selectorIndex "get" selector m.size).of_ok h
  rw [getFunction_one, getOne_matrix (not_text_of_selectorIndex h), h]
  show (do return Value.vector (← m.column j)) = _
  rw [Mat.column, hm.columnEntries_eq hj]
  rfl

theorem getFunction_tabulate (f : Nat → Nat → Float) (h : selectorIndex "get" selector n = .ok j) :
    getFunction [.matrix (.tabulate n f), selector] =
      .ok (.vector (.ofFloats ((List.range n).map (f j)))) := by
  have hj : j < n := (safe_selectorIndex "get" selector n).of_ok h
  have hcolumn : (List.range n).map ((Mat.tabulate n f).cell j) = (List.range n).map (f j) :=
    List.map_congr_left fun row hrow => Mat.cell_tabulate hj (List.mem_range.mp hrow)
  rw [← hcolumn]
  exact getFunction_column (Mat.square_tabulate n f) h

theorem getFunction_no_column (hindex : ∀ field, selector ≠ .text field) {e : Failure}
    (h : selectorIndex "get" selector m.size = .error e) :
    getFunction [.matrix m, selector] = .error e := by
  rw [getFunction_one, getOne_matrix hindex, h]
  rfl

theorem getFunction_field (m : Mat) (field : String) :
    getFunction [.matrix m, .text field] =
      .error (.fault ⟨"get", .cannotSelect field ("mat" ++ toString m.size)⟩) :=
  rfl

theorem getFunction_component (f : Nat → Float) (h : selectorIndex "get" selector n = .ok j) :
    getFunction [.vector (.ofFloats ((List.range n).map f)), selector] = .ok (.number (f j)) := by
  have hj : j < n := (safe_selectorIndex "get" selector n).of_ok h
  have hfetch : fetch ((List.range n).map f) j = .ok (f j) := by
    rw [fetch_eq_ok (by simpa using hj)]
    simp
  have hsize : (Vec.ofFloats ((List.range n).map f)).size = n := by
    simp [Vec.size, Vec.components_ofFloats]
  rw [getFunction_one]
  cases selector with
  | text field => cases h
  | _ =>
    show (do Value.component _ (← selectorIndex "get" _ (Vec.size _))) = _
    rw [hsize, h]
    show (do Value.component _ j) = _
    rw [Value.component, Vec.components_ofFloats, hfetch]
    rfl

theorem getFunction_no_component (hscalar : selector.scalar?.isSome) {e : Failure}
    (h : selectorIndex "get" selector v.size = .error e) :
    getFunction [.vector v, selector] = .error e := by
  rw [getFunction_one]
  cases selector with
  | text field => cases hscalar
  | _ =>
    show (do Value.component v (← selectorIndex "get" _ v.size)) = _
    rw [h]
    rfl

/-- The number of a column picks it. -/
theorem selectorIndex_ofInt {size : Nat} (hj : j < size) (hlarge : j < 2 ^ 53) :
    selectorIndex "get" (.number (Float.ofInt j)) size = .ok j := by
  have hlog : j.log2 ≤ 52 := by
    by_cases hzero : j = 0
    · subst hzero
      decide
    · exact Nat.le_of_lt_succ ((Nat.log2_lt hzero).mpr hlarge)
  have hnearest : nearestInteger j = j := by
    rw [nearestInteger_eq_self_iff, Int.natAbs_natCast, Binary64.unit_of_log2_le hlog]
    exact Nat.one_dvd j
  have hfits : fitsInt64 j = true := by
    rw [← hnearest, fitsInt64_nearestInteger]
    unfold leastInt64
    omega
  have hvalue : truncateToInt64? (Float.ofInt j) = some (j : Int) := by
    rw [IsNearest.truncateToInt64?_eq (IsNearest.ofInt (by rw [Int.natAbs_natCast]; omega)),
      hnearest, if_pos hfits]
  have hbounds : 0 ≤ (j : Int) ∧ (j : Int) < size := by omega
  simp only [selectorIndex, Value.scalar?, hvalue, if_pos hbounds, Int.toNat_natCast]

/-! ## Columns make the matrix -/

/-- The columns of a matrix as values. -/
def Mat.columnValues (m : Mat) : List Value :=
  (List.range m.size).map fun j => .vector (.ofFloats ((List.range m.size).map (m.cell j)))

theorem allComponents_columns (n : Nat) (places : List Nat) (f : Nat → Nat → Float) :
    allComponents (places.map fun j => .vector (.ofFloats ((List.range n).map (f j)))) =
      places.flatMap fun j => (List.range n).map (f j) := by
  simp only [allComponents, List.flatMap_map, Value.components?, Vec.components_ofFloats,
    Option.getD_some]

theorem Mat.vector_of_mem_columnValues {c : Value} (h : c ∈ m.columnValues) :
    ∃ w, c = .vector w := by
  obtain ⟨j, -, rfl⟩ := List.mem_map.mp h
  exact ⟨_, rfl⟩

/-- A matrix is made of its columns. -/
theorem construct_columns (hm : m.Square) (htwo : 2 ≤ m.size) :
    (Shape.matrix m.size).construct m.columnValues = .ok (.matrix m) := by
  have hall : allComponents m.columnValues = m.entries := by
    rw [Mat.columnValues, allComponents_columns, ← Mat.entries_tabulate, hm.tabulate_cell]
  -- The last column is still needed, so no argument is left over.
  have hneeded : (allComponents m.columnValues.dropLast).length < m.size * m.size := by
    rw [Mat.columnValues, ← List.map_dropLast, allComponents_columns]
    simp only [List.length_flatMap, List.length_map, List.length_range, List.map_const',
      List.sum_replicate_nat, List.length_dropLast]
    exact Nat.mul_lt_mul_of_pos_right (by omega) (by omega)
  have hreads : Reads (Shape.matrix m.size).count m.columnValues := by
    refine ⟨⟨fun c hc => ?_, fun _ => hneeded⟩, by rw [hall, hm]; rfl⟩
    obtain ⟨w, rfl⟩ := Mat.vector_of_mem_columnValues hc
    rfl
  have hplain : (Shape.matrix m.size).Plain m.columnValues := by
    refine ⟨fun c hc => ?_, ?_⟩
    · obtain ⟨w, rfl⟩ := Mat.vector_of_mem_columnValues (hc ▸ List.mem_singleton.mpr rfl)
      rfl
    · rintro ⟨_, k, -, hk⟩
      obtain ⟨w, hw⟩ := Mat.vector_of_mem_columnValues (hk ▸ List.mem_singleton.mpr rfl)
      cases hw
  have hshape : 2 ≤ (Shape.matrix m.size).size := htwo
  rcases Shape.construct_plain_cases hshape hplain with ⟨-, hr⟩ | ⟨hnot, -⟩
  · rw [hr, hall, Shape.count, Shape.assemble, List.take_of_length_le (Nat.le_of_eq hm)]
  · exact absurd hreads hnot

/-- Products of matrices by columns.

Let `a` and `b` be matrices of one size, with as many entries as places, and `v` a vector of that
size.  Selecting from the product of the matrices is multiplying what is selected from the second
one, and selecting from the product of the vector with `a` is the dot product with what is selected
from `a`.  A selector that picks column `j` gives sums of products, each from the first term on.
The columns of a matrix of size two to four, taken by their numbers, make it up again. -/
theorem products_by_columns {a b : Mat} (ha : a.Square) (hb : b.Square) (hsize : b.size = a.size)
    {v : Vec} (hv : v.size = a.size) :
    ∃ mul get dot, Catalog.find? "op_mul" = some (.computes mul) ∧
      Catalog.find? "get" = some (.computes get) ∧ Catalog.find? "dot" = some (.computes dot) ∧
      (∀ s, (do get [← mul [.matrix a, .matrix b], s]) =
        (do mul [.matrix a, ← get [.matrix b, s]])) ∧
      (∀ s, s.scalar?.isSome → (do get [← mul [.vector v, .matrix a], s]) =
        (do dot [.vector v, ← get [.matrix a, s]])) ∧
      (∀ s j, selectorIndex "get" s a.size = .ok j →
        (do get [← mul [.matrix a, .matrix b], s]) = .ok (.vector (.ofFloats
          ((List.range a.size).map fun row => sumOfProducts a.size (a.cell · row) (b.cell j)))) ∧
        (do get [← mul [.vector v, .matrix a], s]) =
          .ok (.number (sumOfProducts a.size (v.components.getD · 0) (a.cell j)))) ∧
      (∀ j < a.size, j < 2 ^ 53 →
        selectorIndex "get" (.number (Float.ofInt j)) a.size = .ok j) ∧
      (2 ≤ a.size → a.size ≤ 4 → ∃ construct,
        Catalog.find? ("Mat" ++ toString a.size) = some (.computes construct) ∧
        (do construct (← collect (fun j => get [.matrix a, .number (Float.ofInt (j : Nat))])
          (List.range a.size))) = .ok (.matrix a)) := by
  have hproduct := multiply_matrices ha hb hsize
  have hrow := multiply_row ha hv
  refine ⟨multiply, getFunction, dotFunction, rfl, rfl, rfl, fun s => ?_, fun s hs => ?_,
    fun s j hj => ?_, fun j hj hlarge => selectorIndex_ofInt hj hlarge, fun htwo hfour => ?_⟩
  · -- The matrices have one size, so a selector picks a column of both or is wrong for both.
    rw [hproduct]
    show getFunction [.matrix (.tabulate a.size _), s] = _
    by_cases hindex : ∀ field, s ≠ .text field
    · cases hj : selectorIndex "get" s a.size with
      | error e =>
        have hfails : getFunction [.matrix b, s] = .error e :=
          getFunction_no_column hindex (hsize ▸ hj)
        rw [hfails]
        exact getFunction_no_column hindex hj
      | ok j =>
        rw [getFunction_tabulate _ hj, getFunction_column hb (hsize ▸ hj), hsize]
        exact (multiply_column ha (b.cell j)).symm
    · simp only [ne_eq, not_forall, not_not] at hindex
      obtain ⟨field, rfl⟩ := hindex
      rw [getFunction_field, getFunction_field, hsize]
      rfl
  · rw [hrow]
    show getFunction [.vector (.ofFloats ((List.range a.size).map _)), s] = _
    cases hj : selectorIndex "get" s a.size with
    | error e =>
      -- Letters pick components of a vector only, which is why `s` is a scalar here.
      have hindex : ∀ field, s ≠ .text field := by
        rintro field rfl
        cases hs
      rw [getFunction_no_column hindex hj]
      exact getFunction_no_component hs (by simpa [Vec.size, Vec.components_ofFloats] using hj)
    | ok j =>
      rw [getFunction_component _ hj, getFunction_column ha hj]
      exact (dotFunction_vectors hv (a.cell j)).symm
  · rw [hproduct, hrow]
    exact ⟨getFunction_tabulate _ hj, getFunction_component _ hj⟩
  · have hcolumns : collect (fun j : Nat => getFunction [.matrix a, .number (Float.ofInt j)])
        (List.range a.size) = .ok a.columnValues := by
      refine collect_eq_map fun j hj => ?_
      have hlt := List.mem_range.mp hj
      exact getFunction_column ha (selectorIndex_ofInt hlt (by omega))
    refine ⟨_, @Shape.find?_functionName (.matrix a.size) htwo hfour, ?_⟩
    rw [hcolumns]
    exact construct_columns ha htwo

/-- A shear and a swap, and a row of two numbers. -/
theorem products_by_columns_shear :
    (⟨2, [1, 0, 0.5, 1]⟩ : Mat).Square ∧ (⟨2, [0, 1, 1, 0]⟩ : Mat).Square ∧
      (Vec.ofFloats [0.25, 4]).size = 2 ∧
      ∃ mul get, Catalog.find? "op_mul" = some (.computes mul) ∧
        Catalog.find? "get" = some (.computes get) ∧
        ∀ s, (do get [← mul [.matrix ⟨2, [1, 0, 0.5, 1]⟩, .matrix ⟨2, [0, 1, 1, 0]⟩], s]) =
          (do mul [.matrix ⟨2, [1, 0, 0.5, 1]⟩, ← get [.matrix ⟨2, [0, 1, 1, 0]⟩, s]]) := by
  obtain ⟨mul, get, _, hmul, hget, -, hcolumns, -⟩ :=
    products_by_columns (a := ⟨2, [1, 0, 0.5, 1]⟩) (b := ⟨2, [0, 1, 1, 0]⟩) rfl rfl rfl
      (v := .ofFloats [0.25, 4]) rfl
  exact ⟨rfl, rfl, rfl, mul, get, hmul, hget, hcolumns⟩

end ShaderScript
