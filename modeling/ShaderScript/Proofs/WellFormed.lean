import ShaderScript.Proofs.Place
import ShaderScript.Proofs.Truncation
import ShaderScript.Value.Catalog

/-!
# Well-formed values

A value is well-formed (`Value.WellFormed`) if every vector in it has two to four components of its
kind, and every matrix is square of size two to four.  Samplers are taken to give well-formed
texels.

A function is `Closed` if on well-formed arguments, however many, it gives a well-formed value or
a proper failure, and asks for no place past the end of a list.  `Safe` says this of one result; it
is proved here for the steps that the functions are made of, and for the operators.
-/

namespace ShaderScript

variable {m : Mat} {args : List Value} {size column : Nat} {f : ScalarFunction} {xs : List Float}

/-! ## Well-formed values -/

/-- Two to four components, each as the kind has it. -/
structure Vec.WellFormed (v : Vec) : Prop where
  two_le : 2 ≤ v.components.length
  le_four : v.components.length ≤ 4
  normal : ∀ x ∈ v.components, v.kind.normalize x = x

/-- A square of size two to four. -/
structure Mat.WellFormed (m : Mat) : Prop where
  two_le : 2 ≤ m.size
  le_four : m.size ≤ 4
  complete : m.entries.length = m.size * m.size

/-- Every texel that a look-up gives is well-formed. -/
structure Sampler.WellFormed (s : Sampler) : Prop where
  plane : ∀ look, s.plane = some look → ∀ x y level v, look x y level = .ok v → v.WellFormed
  cube : ∀ look, s.cube = some look → ∀ x y z level v, look x y z level = .ok v → v.WellFormed

/-- Nothing, a scalar, a text, or a container of well-formed parts. -/
inductive Value.WellFormed : Value → Prop
  | void : WellFormed .void
  | bool (b : Bool) : WellFormed (.bool b)
  | number (x : Float) : WellFormed (.number x)
  | host (form : HostNumber) (x : Float) : WellFormed (.host form x)
  | text (s : String) : WellFormed (.text s)
  | vector {v : Vec} (h : v.WellFormed) : WellFormed (.vector v)
  | matrix {m : Mat} (h : m.WellFormed) : WellFormed (.matrix m)
  | array {elements : List Value} (h : ∀ v ∈ elements, v.WellFormed) :
      WellFormed (.array elements)
  | sampler {s : Sampler} (h : s.WellFormed) : WellFormed (.sampler s)

namespace Value.WellFormed

theorem of_vector {v : Vec} (h : (Value.vector v).WellFormed) : v.WellFormed := by
  cases h with
  | vector h => exact h

theorem of_matrix (h : (Value.matrix m).WellFormed) : m.WellFormed := by
  cases h with
  | matrix h => exact h

theorem of_array {elements : List Value} (h : (Value.array elements).WellFormed) :
    ∀ v ∈ elements, v.WellFormed := by
  cases h with
  | array h => exact h

theorem of_sampler {s : Sampler} (h : (Value.sampler s).WellFormed) : s.WellFormed := by
  cases h with
  | sampler h => exact h

end Value.WellFormed

/-- A vector that is built is well-formed if its size is right. -/
theorem Vec.wellFormed_of {kind : ComponentKind} {components : List Float}
    (htwo : 2 ≤ components.length) (hfour : components.length ≤ 4) :
    (Vec.of kind components).WellFormed := by
  refine ⟨?_, ?_, ?_⟩
  · simpa [Vec.of] using htwo
  · simpa [Vec.of] using hfour
  · intro x hx
    simp only [Vec.of, List.mem_map] at hx
    obtain ⟨y, _, rfl⟩ := hx
    exact ComponentKind.normalize_normalize kind y

/-- The components of a well-formed vector are of its kind already. -/
theorem Vec.WellFormed.map_normalize {v : Vec} (h : v.WellFormed) :
    v.components.map v.kind.normalize = v.components := by
  have hid : ∀ x ∈ v.components, v.kind.normalize x = id x := h.normal
  rw [List.map_congr_left hid, List.map_id]

/-! ## Closed functions -/

/-- On well-formed arguments the function gives a well-formed value or a proper failure. -/
def Closed (f : Function) : Prop :=
  ∀ args : List Value, (∀ a ∈ args, a.WellFormed) → Safe Value.WellFormed (f args)

/-- The number of arguments is in the bounds after the check. -/
theorem safe_checkCount (name : String) (args : List Value) (least : Nat) (most : Option Nat) :
    Safe (fun _ => least ≤ args.length ∧ ∀ m, most = some m → args.length ≤ m)
      (checkCount name args least most) := by
  unfold checkCount
  split
  · split <;> exact .fault _ _ _
  · rename_i hleast
    cases most with
    | none => exact .ok ⟨by omega, fun m hm => nomatch hm⟩
    | some m =>
      simp only
      split
      · exact .fault _ _ _
      · refine .ok ⟨by omega, fun m' hm => ?_⟩
        cases hm
        omega

/-- A function that checks for an exact number of arguments has that many afterwards. -/
theorem safe_checkCount_exactly (name : String) (args : List Value) (count : Nat) :
    Safe (fun _ => args.length = count) (checkCount name args count (some count)) := by
  refine .mono (safe_checkCount name args count (some count)) fun _ h => ?_
  have hle := h.2 count rfl
  omega

/-- The place of an argument that the check has assured. -/
theorem safe_fetch_argument (hargs : ∀ a ∈ args, a.WellFormed) {i : Nat} (h : i < args.length) :
    Safe (fun a => a ∈ args ∧ a.WellFormed) (fetch args i) :=
  .mono (safe_fetch h) fun a ha => ⟨ha, hargs a ha⟩

/-! ## Componentwise functions -/

/-- Scalars, and vectors of one size. -/
structure CommonShape (shape : Option Vec) (args : List Value) : Prop where
  /-- The shape is that of a vector among the operands. -/
  mem : ∀ first, shape = some first → .vector first ∈ args
  sized : ∀ first v, shape = some first → .vector v ∈ args →
    v.components.length = first.components.length
  /-- Without a shape, no vector among the operands has components. -/
  plain : shape = none → ∀ v, .vector v ∈ args → v.components.length = 0

/-- The shape found so far extends to the rest of the operands. -/
theorem safe_commonShapeFrom (name : String) (position : Nat) (first : Option Vec)
    (args : List Value) :
    Safe (fun shape =>
        (∀ f, first = some f → shape = some f) ∧
        (∀ f, shape = some f → first = some f ∨ .vector f ∈ args) ∧
        (∀ f v, shape = some f → .vector v ∈ args →
          v.components.length = f.components.length) ∧
        (shape = none → ∀ v, .vector v ∉ args))
      (commonShapeFrom name position first args) := by
  fun_induction commonShapeFrom name position first args with
  | case1 position first =>
    exact .ok ⟨fun f h => h, fun f h => .inl h, fun f v _ hv => (nomatch hv),
      fun _ v hv => (nomatch hv)⟩
  | case2 position v rest ih =>
    -- The first vector becomes the shape.
    refine .mono ih fun shape h => ?_
    obtain ⟨hfirst, hmem, hsized, _⟩ := h
    have hshape := hfirst v rfl
    refine ⟨fun f hf => (nomatch hf), fun f hf => .inr ?_, fun f w hf hw => ?_,
      fun hnone => absurd (hshape.symm.trans hnone) (by simp)⟩
    · rw [hshape] at hf
      cases hf
      exact List.mem_cons_self
    · cases hw with
      | head =>
        rw [hshape] at hf
        cases hf
        rfl
      | tail _ hw => exact hsized f w hf hw
  | case3 position v rest f hsize ih =>
    -- A later vector is compared with the shape and leaves it.
    refine .mono ih fun shape h => ?_
    obtain ⟨hfirst, hmem, hsized, _⟩ := h
    have hshape := hfirst f rfl
    refine ⟨hfirst, fun g hg => ?_, fun g w hg hw => ?_,
      fun hnone => absurd (hshape.symm.trans hnone) (by simp)⟩
    · exact (hmem g hg).imp id (List.mem_cons_of_mem _)
    · cases hw with
      | head =>
        rw [hshape] at hg
        cases hg
        exact hsize
      | tail _ hw => exact hsized g w hg hw
  | case4 => exact .fault _ _ _
  | case5 position first a rest hnot hscalar ih =>
    -- A scalar says nothing about the shape.
    refine .mono ih fun shape h => ?_
    obtain ⟨hfirst, hmem, hsized, hplain⟩ := h
    refine ⟨hfirst, fun g hg => (hmem g hg).imp id (List.mem_cons_of_mem _), fun g w hg hw => ?_,
      fun hnone w hw => ?_⟩
    · cases hw with
      | head => exact absurd rfl (hnot w)
      | tail _ hw => exact hsized g w hg hw
    · cases hw with
      | head => exact absurd rfl (hnot w)
      | tail _ hw => exact hplain hnone w hw
  | case6 => exact .fault _ _ _

/-- Operands that pass have a common shape. -/
theorem safe_commonShape (name : String) (args : List Value) :
    Safe (fun shape => CommonShape shape args) (commonShape name args) := by
  refine .bind (safe_commonShapeFrom name 1 none args) fun found h => .pure ?_
  obtain ⟨_, hmem, hsized, hplain⟩ := h
  refine ⟨fun f hf => ?_, fun f v hf hv => ?_, fun hnone v hv => ?_⟩
  · obtain ⟨hfound, _⟩ := Option.filter_eq_some_iff.mp hf
    exact (hmem f hfound).resolve_left (Option.some_ne_none f).symm
  · obtain ⟨hfound, _⟩ := Option.filter_eq_some_iff.mp hf
    exact hsized f v hfound hv
  · cases found with
    | none => exact absurd hv (hplain rfl v)
    | some f =>
      -- A vector was found, and it was dropped for having no components.
      have hempty : ¬ 0 < f.components.length := fun h =>
        Option.filter_eq_none_iff.mp hnone f rfl (decide_eq_true h)
      rw [hsized f v rfl hv]
      omega

/-- A function of `count` numbers asks for no further ones. -/
def Takes (count : Nat) (f : ScalarFunction) : Prop :=
  ∀ xs : List Float, xs.length = count → Safe (fun _ => True) (f xs)

@[simp] theorem takes_unary (f : Float → Float) : Takes 1 (.unary f) := by
  intro xs hxs
  exact .bind (safe_fetch (by omega)) fun _ _ => .pure trivial

@[simp] theorem takes_binary (f : Float → Float → Float) : Takes 2 (.binary f) := by
  intro xs hxs
  refine .bind (safe_fetch (by omega)) fun _ _ => ?_
  exact .bind (safe_fetch (by omega)) fun _ _ => .pure trivial

@[simp] theorem takes_ternary (f : Float → Float → Float → Float) : Takes 3 (.ternary f) := by
  intro xs hxs
  refine .bind (safe_fetch (by omega)) fun _ _ => ?_
  refine .bind (safe_fetch (by omega)) fun _ _ => ?_
  exact .bind (safe_fetch (by omega)) fun _ _ => .pure trivial

@[simp] theorem takes_test (f : Float → Float → Bool) : Takes 2 (.test f) := takes_binary _

@[simp] theorem takes_clampFunction : Takes 3 clampFunction := by
  intro xs hxs
  refine .bind (safe_fetch (by omega)) fun _ _ => ?_
  refine .bind (safe_fetch (by omega)) fun low _ => ?_
  refine .bind (safe_fetch (by omega)) fun high _ => ?_
  split
  · exact .fault _ _ _
  · exact .pure trivial

/-- An operand has something for every component of the common shape. -/
theorem safe_operandAt {i : Nat} {a : Value}
    (h : ∀ v, a = .vector v → i < v.components.length) :
    Safe (fun _ => True) (operandAt i a) := by
  cases a with
  | vector v => exact .mono (safe_fetch (h v rfl)) fun _ _ => trivial
  | _ => exact .ok trivial

/-- One result for each component that is asked for. -/
theorem safe_mapComponents (hf : Takes args.length f) {places : List Nat}
    (h : ∀ i ∈ places, ∀ v, .vector v ∈ args → i < v.components.length) :
    Safe (fun xs => xs.length = places.length) (mapComponents f args places) := by
  induction places with
  | nil => exact .ok rfl
  | cons i places ih =>
    have hi : ∀ a ∈ args, Safe (fun _ => True) (operandAt i a) := by
      intro a ha
      refine safe_operandAt fun v hv => ?_
      subst hv
      exact h i List.mem_cons_self v ha
    have hrest := ih fun j hj => h j (List.mem_cons_of_mem i hj)
    refine .bind (safe_collect hi) fun operands hoperands => ?_
    refine .bind (hf operands hoperands.1) fun x _ => ?_
    refine .bind hrest fun xs hxs => .pure ?_
    rw [List.length_cons, hxs, List.length_cons]

/-- The components of the common shape, one result for each. -/
theorem safe_mapComponents_shape (hf : Takes args.length f) {first : Vec}
    (hshape : CommonShape (some first) args) :
    Safe (fun xs => xs.length = first.components.length)
      (mapComponents f args (List.range first.size)) := by
  refine .mono (safe_mapComponents hf fun i hi v hv => ?_) fun xs hxs => ?_
  · rw [hshape.sized first v rfl hv]
    exact List.mem_range.mp hi
  · rw [hxs, List.length_range]
    rfl

/-- A vector built on the common shape of well-formed operands is well-formed. -/
theorem wellFormed_of_shape (hargs : ∀ a ∈ args, a.WellFormed) {first : Vec}
    (hshape : CommonShape (some first) args) (kind : ComponentKind)
    (hxs : xs.length = first.components.length) : (Vec.of kind xs).WellFormed := by
  have hfirst := (hargs _ (hshape.mem first rfl)).of_vector
  have htwo := hfirst.two_le
  have hfour := hfirst.le_four
  exact Vec.wellFormed_of (by omega) (by omega)

/-- A function of numbers extended to vectors is closed. -/
theorem safe_broadcast (name : String) (hargs : ∀ a ∈ args, a.WellFormed)
    (hf : Takes args.length f) : Safe Value.WellFormed (broadcast name f args) := by
  refine .bind (safe_commonShape name args) fun shape hshape => ?_
  cases shape with
  | none =>
    refine .bind (hf _ (List.length_map _)) fun x _ => ?_
    exact .pure (.number x)
  | some first =>
    refine .bind (safe_mapComponents_shape hf hshape) fun xs hxs => ?_
    exact .pure (.vector (wellFormed_of_shape hargs hshape first.kind hxs))

/-- A test extended to vectors is closed. -/
theorem safe_broadcastTest (name : String) (hargs : ∀ a ∈ args, a.WellFormed)
    (hf : Takes args.length f) : Safe Value.WellFormed (broadcastTest name f args) := by
  refine .bind (safe_commonShape name args) fun shape hshape => ?_
  cases shape with
  | none =>
    refine .bind (hf _ (List.length_map _)) fun x _ => ?_
    exact .pure (.bool _)
  | some first =>
    refine .bind (safe_mapComponents_shape hf hshape) fun xs hxs => ?_
    exact .pure (.vector (wellFormed_of_shape hargs hshape .bool hxs))

@[simp] theorem closed_componentwise (name : String) (count : Nat) (f : ScalarFunction)
    (hf : Takes count f) : Closed (componentwise name count f) := by
  intro args hargs
  refine .bind (safe_checkCount_exactly name args count) fun _ hcount => ?_
  exact safe_broadcast name hargs (hcount ▸ hf)

@[simp] theorem closed_componentwiseTest (name : String) (f : Float → Float → Bool) :
    Closed (componentwiseTest name f) := by
  intro args hargs
  refine .bind (safe_checkCount_exactly name args 2) fun _ hcount => ?_
  exact safe_broadcastTest name hargs (hcount ▸ takes_test f)

@[simp] theorem closed_arcTangent : Closed arcTangent := by
  intro args hargs
  refine .bind (safe_checkCount "atan" args 1 (some 2)) fun _ hcount => ?_
  have hmost := hcount.2 2 rfl
  split
  · rename_i htwo
    exact safe_broadcast "atan" hargs (htwo ▸ takes_binary Float.atan2)
  · have hone : args.length = 1 := by omega
    exact safe_broadcast "atan" hargs (hone ▸ takes_unary Float.atan)

/-! ## Matrices and operators -/

/-- Places in a square: a column and a row inside it give a place inside it. -/
theorem place_lt_square {row : Nat} (hcolumn : column < size) (hrow : row < size) :
    column * size + row < size * size := by
  have hle : (column + 1) * size ≤ size * size := Nat.mul_le_mul_right size hcolumn
  rw [Nat.add_mul, Nat.one_mul] at hle
  omega

theorem column_le_square (hcolumn : column < size) : column * size + size ≤ size * size := by
  have hle : (column + 1) * size ≤ size * size := Nat.mul_le_mul_right size hcolumn
  rwa [Nat.add_mul, Nat.one_mul] at hle

/-- As many lists of one length as there are places in a column make up a square. -/
theorem length_flatten_of_forall {columns : List (List Float)}
    (h : ∀ c ∈ columns, c.length = size) : columns.flatten.length = columns.length * size := by
  induction columns with
  | nil => simp
  | cons c columns ih =>
    have hc := h c List.mem_cons_self
    have hrest := ih fun d hd => h d (List.mem_cons_of_mem c hd)
    rw [List.flatten_cons, List.length_append, hc, hrest, List.length_cons, Nat.add_mul,
      Nat.one_mul, Nat.add_comm]

theorem Mat.length_places (size : Nat) : (Mat.places size).length = size * size := by
  simp [Mat.places, List.length_flatMap, List.map_const']

theorem safe_dotProduct {ys : List Float} (h : xs.length ≤ ys.length) :
    Safe (fun _ => True) (dotProduct xs ys) :=
  .bind (safe_combine _ h) fun _ _ => .pure trivial

theorem safe_accumulate {n : Nat} {term : Nat → Outcome Float}
    (h : ∀ k, k < n → Safe (fun _ => True) (term k)) : Safe (fun _ => True) (accumulate n term) := by
  have hall : ∀ (ks : List Nat) (sum : Float), (∀ k ∈ ks, k < n) → Safe (fun _ => True)
      (ks.foldlM (fun sum k => do return sum + (← term k)) sum) := by
    intro ks
    induction ks with
    | nil => exact fun sum _ => .pure trivial
    | cons k ks ih =>
      intro sum hks
      rw [List.foldlM_cons]
      have hterm : Safe (fun _ => True) (do return sum + (← term k)) :=
        .bind (h k (hks k List.mem_cons_self)) fun x _ => .pure trivial
      refine .bind hterm fun sum _ => ?_
      exact ih sum fun k' hk' => hks k' (List.mem_cons_of_mem k hk')
  exact hall _ 0 fun k hk => List.mem_range.mp hk

theorem safe_product {x y : Outcome Float} (hx : Safe (fun _ => True) x)
    (hy : Safe (fun _ => True) y) : Safe (fun _ => True) (do return (← x) * (← y)) :=
  .bind hx fun _ _ => .bind hy fun _ _ => .pure trivial

namespace Mat

theorem WellFormed.safe_entry (h : m.WellFormed) {row : Nat} (hcolumn : column < m.size)
    (hrow : row < m.size) : Safe (fun _ => True) (m.entry column row) := by
  have hplace : column * m.size + row < m.entries.length := by
    rw [h.complete]
    exact place_lt_square hcolumn hrow
  exact .mono (safe_fetch hplace) fun _ _ => trivial

theorem WellFormed.safe_columnEntries (h : m.WellFormed) (hcolumn : column < m.size) :
    Safe (fun xs => xs.length = m.size) (m.columnEntries column) := by
  have hend : column * m.size + m.size ≤ m.entries.length := by
    rw [h.complete]
    exact column_le_square hcolumn
  exact safe_slice hend

theorem WellFormed.safe_column (h : m.WellFormed) (hcolumn : column < m.size) :
    Safe Vec.WellFormed (m.column column) := by
  refine .bind (h.safe_columnEntries hcolumn) fun xs hxs => .pure ?_
  exact Vec.wellFormed_of (by rw [hxs]; exact h.two_le) (by rw [hxs]; exact h.le_four)

theorem WellFormed.safe_setColumn (h : m.WellFormed) (hcolumn : column < m.size)
    {entries : List Float} (hentries : entries.length = m.size) :
    Safe WellFormed (m.setColumn column entries) := by
  have hend : column * m.size + entries.length ≤ m.entries.length := by
    rw [hentries, h.complete]
    exact column_le_square hcolumn
  refine .bind (safe_overwrite hend) fun xs hxs => .pure ?_
  exact ⟨h.two_le, h.le_four, hxs.trans h.complete⟩

theorem WellFormed.safe_timesColumn (h : m.WellFormed) {column : List Float}
    (hcolumn : column.length = m.size) :
    Safe (fun xs => xs.length = m.size) (m.timesColumn column) := by
  refine .mono (safe_collect fun row hrow => safe_accumulate fun k hk => ?_)
    fun xs hxs => hxs.1.trans List.length_range
  exact safe_product (h.safe_entry hk (List.mem_range.mp hrow))
    (.mono (safe_fetch (by omega)) fun _ _ => trivial)

theorem WellFormed.safe_rowTimes (h : m.WellFormed) {row : List Float}
    (hrow : row.length = m.size) : Safe (fun xs => xs.length = m.size) (Mat.rowTimes row m) := by
  refine .mono (safe_collect fun column hcolumn => safe_accumulate fun k hk => ?_)
    fun xs hxs => hxs.1.trans List.length_range
  exact safe_product (.mono (safe_fetch (by omega)) fun _ _ => trivial)
    (h.safe_entry (List.mem_range.mp hcolumn) hk)

theorem WellFormed.safe_times {a b : Mat} (ha : a.WellFormed) (hb : b.WellFormed)
    (hsize : a.size = b.size) : Safe WellFormed (a.times b) := by
  have hcolumn : ∀ column ∈ List.range a.size, Safe (fun xs => xs.length = a.size)
      (collect (fun row => accumulate a.size fun k => do
        return (← a.entry k row) * (← b.entry column k)) (List.range a.size)) := by
    intro column hcolumn
    refine .mono (safe_collect fun row hrow => safe_accumulate fun k hk => ?_)
      fun xs hxs => hxs.1.trans List.length_range
    exact safe_product (ha.safe_entry hk (List.mem_range.mp hrow))
      (hb.safe_entry (hsize ▸ List.mem_range.mp hcolumn) (hsize ▸ hk))
  refine .bind (safe_collect hcolumn) fun columns hcolumns => .pure ?_
  refine ⟨ha.two_le, ha.le_four, ?_⟩
  rw [length_flatten_of_forall hcolumns.2, hcolumns.1, List.length_range]

theorem wellFormed_diagonal (htwo : 2 ≤ size) (hfour : size ≤ 4) (x : Float) :
    (Mat.diagonal size x).WellFormed := by
  refine ⟨htwo, hfour, ?_⟩
  simp only [Mat.diagonal, List.length_map, Mat.length_places]

theorem wellFormed_of (htwo : 2 ≤ size) (hfour : size ≤ 4) (entries : List Float) :
    (Mat.of size entries).WellFormed := by
  refine ⟨htwo, hfour, ?_⟩
  simp only [Mat.of, List.length_take, List.length_append, List.length_replicate]
  omega

theorem WellFormed.safe_resize (h : m.WellFormed) (htwo : 2 ≤ size) (hfour : size ≤ 4) :
    Safe WellFormed (m.resize size) := by
  have hplace : ∀ place ∈ Mat.places size, Safe (fun _ => True)
      (if place.1 < m.size ∧ place.2 < m.size then m.entry place.1 place.2
        else .ok (if place.1 = place.2 then 1 else 0)) := by
    intro place _
    split
    · rename_i hinside
      exact h.safe_entry hinside.1 hinside.2
    · exact .ok trivial
  refine .bind (safe_collect hplace) fun entries hentries => .pure ?_
  exact ⟨htwo, hfour, hentries.1.trans (Mat.length_places size)⟩

end Mat

/-- A function on the entries of matrices is closed. -/
theorem safe_matrixComponentwise (name : String) (f : Float → Float → Float) {a b : Value}
    (ha : a.WellFormed) (hb : b.WellFormed) :
    Safe Value.WellFormed (matrixComponentwise name f a b) := by
  unfold matrixComponentwise
  split
  · rename_i a b
    have ha := ha.of_matrix
    have hb := hb.of_matrix
    split
    · rename_i hsize
      have hlength : a.entries.length = b.entries.length := by
        rw [ha.complete, hb.complete, hsize]
      refine .bind (safe_combine f (Nat.le_of_eq hlength)) fun xs hxs => .pure ?_
      exact .matrix ⟨ha.two_le, ha.le_four, hxs.trans ha.complete⟩
    · exact .fault _ _ _
  · have ha := ha.of_matrix
    split
    · refine .ok (.matrix ⟨ha.two_le, ha.le_four, ?_⟩)
      rw [List.length_map]
      exact ha.complete
    · exact .fault _ _ _
  · have hb := hb.of_matrix
    split
    · refine .ok (.matrix ⟨hb.two_le, hb.le_four, ?_⟩)
      rw [List.length_map]
      exact hb.complete
    · exact .fault _ _ _
  · exact .fault _ _ _

@[simp] theorem closed_arithmetic (name : String) (f : Float → Float → Float) :
    Closed (arithmetic name f) := by
  intro args hargs
  refine .bind (safe_checkCount_exactly name args 2) fun _ hcount => ?_
  have hbroadcast := safe_broadcast name hargs (hcount ▸ takes_binary f)
  split
  · split
    · exact safe_matrixComponentwise name f (hargs _ (by simp)) (hargs _ (by simp))
    · exact hbroadcast
  · exact hbroadcast

@[simp] theorem closed_multiply : Closed multiply := by
  intro args hargs
  refine .bind (safe_checkCount_exactly "op_mul" args 2) fun _ hcount => ?_
  split
  · -- matrix times matrix
    have ha := (hargs _ List.mem_cons_self).of_matrix
    have hb := (hargs _ (List.mem_cons_of_mem _ List.mem_cons_self)).of_matrix
    split
    · rename_i hsize
      exact .bind (ha.safe_times hb hsize) fun m hm => .pure (.matrix hm)
    · exact .fault _ _ _
  · -- matrix times column
    have ha := (hargs _ List.mem_cons_self).of_matrix
    split
    · rename_i hsize
      refine .bind (ha.safe_timesColumn hsize.symm) fun xs hxs => .pure (.vector ?_)
      exact Vec.wellFormed_of (hxs ▸ ha.two_le) (hxs ▸ ha.le_four)
    · exact .fault _ _ _
  · -- row times matrix
    have hb := (hargs _ (List.mem_cons_of_mem _ List.mem_cons_self)).of_matrix
    split
    · rename_i hsize
      refine .bind (hb.safe_rowTimes hsize) fun xs hxs => .pure (.vector ?_)
      exact Vec.wellFormed_of (hxs ▸ hb.two_le) (hxs ▸ hb.le_four)
    · exact .fault _ _ _
  · exact safe_matrixComponentwise "op_mul" _ (hargs _ (by simp)) (hargs _ (by simp))
  · exact safe_matrixComponentwise "op_mul" _ (hargs _ (by simp)) (hargs _ (by simp))
  · exact safe_broadcast "op_mul" hargs (hcount ▸ takes_binary _)

theorem safe_toInteger (name : String) (x : Float) : Safe (fun _ => True) (toInteger name x) := by
  unfold toInteger
  split
  · exact .ok trivial
  · exact .fault _ _ _

@[simp] theorem closed_integerOperator (name : String) (f : Int → Int → Except Cause Int) :
    Closed (integerOperator name f) := by
  intro args hargs
  refine .bind (safe_checkCount_exactly name args 2) fun _ hcount => ?_
  refine safe_broadcast name hargs fun xs hxs => ?_
  refine .bind (safe_fetch (by omega)) fun x _ => ?_
  refine .bind (safe_toInteger name x) fun a _ => ?_
  refine .bind (safe_fetch (by omega)) fun y _ => ?_
  refine .bind (safe_toInteger name y) fun b _ => ?_
  split
  · exact .pure trivial
  · exact .fault _ _ _

@[simp] theorem closed_relation (name : String) (f : Float → Float → Bool) :
    Closed (relation name f) := by
  intro args hargs
  refine .bind (safe_checkCount_exactly name args 2) fun _ hcount => ?_
  refine .bind (safe_fetch (by omega)) fun a _ => ?_
  refine .bind (safe_fetch (by omega)) fun b _ => ?_
  split
  · exact .pure (.bool _)
  · exact .fault _ _ _

theorem exists_sameEntries {ys : List Float} (h : xs.length ≤ ys.length) :
    ∃ equal, Mat.sameEntries xs ys = .ok equal := by
  induction xs generalizing ys with
  | nil => exact ⟨true, rfl⟩
  | cons x xs ih =>
    cases ys with
    | nil => simp at h
    | cons y ys =>
      unfold Mat.sameEntries
      split
      · exact ih (by simpa using h)
      · exact ⟨false, rfl⟩

/-- Values whose comparison comes to two samplers of one type that has no equality.  Arrays of one
length are compared from the first elements on, up to the first that differ. -/
inductive Value.Clashes : Value → Value → Prop
  | sampler {s t : Sampler} {type : String} (hs : s.incomparable = some type)
      (ht : t.incomparable = some type) : Clashes (.sampler s) (.sampler t)
  | array {front front' back back' : List Value} {x y : Value}
      (hfront : Value.sameAll front front' = .ok true) (hback : back.length = back'.length)
      (h : Clashes x y) : Clashes (.array (front ++ x :: back)) (.array (front' ++ y :: back'))

namespace Value

theorem sameAll_append {front front' : List Value} (h : sameAll front front' = .ok true)
    (xs ys : List Value) : front.length = front'.length ∧
      sameAll (front ++ xs) (front' ++ ys) = sameAll xs ys := by
  induction front generalizing front' with
  | nil =>
    cases front' with
    | nil => exact ⟨rfl, rfl⟩
    | cons y front' => simp [sameAll] at h
  | cons x front ih =>
    cases front' with
    | nil => simp [sameAll] at h
    | cons y front' =>
      rw [sameAll] at h
      rw [List.cons_append, List.cons_append, sameAll]
      cases hxy : x.same y with
      | error e => simp [hxy, bind, Except.bind] at h
      | ok equal =>
        cases equal with
        | false => simp [hxy, bind, Except.bind] at h
        | true =>
          obtain ⟨hlength, hrest⟩ := ih (by simpa [hxy, bind, Except.bind] using h)
          exact ⟨congrArg (· + 1) hlength, by simpa [bind, Except.bind] using hrest⟩

/-- Values that clash cannot be compared. -/
theorem Clashes.same_eq {a b : Value} (h : a.Clashes b) :
    ∃ type, a.same b = .error (.incomparable type) := by
  induction h with
  | @sampler s t type hs ht => exact ⟨type, by simp [same, Sampler.same, hs, ht]⟩
  | @array front front' back back' x y hfront hback _ ih =>
    obtain ⟨type, hxy⟩ := ih
    obtain ⟨hlength, hrest⟩ := sameAll_append hfront (x :: back) (y :: back')
    refine ⟨type, ?_⟩
    rw [same, if_pos (by simp [hlength, hback]), hrest, sameAll, hxy]
    rfl

/-- Well-formed values can be compared unless they clash, and so can lists of them. -/
theorem same_or_clashes :
    (∀ a b : Value, a.WellFormed → b.WellFormed → (∃ equal, a.same b = .ok equal) ∨ a.Clashes b) ∧
    ∀ xs ys : List Value, (∀ v ∈ xs, v.WellFormed) → (∀ v ∈ ys, v.WellFormed) →
      (∃ equal, sameAll xs ys = .ok equal) ∨ ∃ front x back front' y back', xs = front ++ x :: back ∧
        ys = front' ++ y :: back' ∧ sameAll front front' = .ok true ∧ Clashes x y := by
  apply Value.same.mutual_induct
    (fun a b => a.WellFormed → b.WellFormed → (∃ equal, a.same b = .ok equal) ∨ a.Clashes b)
    (fun xs ys => (∀ v ∈ xs, v.WellFormed) → (∀ v ∈ ys, v.WellFormed) →
      (∃ equal, sameAll xs ys = .ok equal) ∨ ∃ front x back front' y back', xs = front ++ x :: back ∧
        ys = front' ++ y :: back' ∧ sameAll front front' = .ok true ∧ Clashes x y)
  case case2 =>
    intro m o hm ho
    rw [same, Mat.same]
    split
    · rename_i hsize
      have hlength : m.entries.length = o.entries.length := by
        rw [hm.of_matrix.complete, ho.of_matrix.complete, hsize]
      exact .inl (exists_sameEntries (Nat.le_of_eq hlength))
    · exact .inl ⟨false, rfl⟩
  case case3 =>
    intro xs ys hlength ih hxs hys
    rw [same, if_pos hlength]
    refine (ih hxs.of_array hys.of_array).imp_right ?_
    rintro ⟨front, x, back, front', y, back', rfl, rfl, hfront, h⟩
    have hfronts := (sameAll_append hfront [] []).1
    refine .array hfront ?_ h
    simp only [List.length_append, List.length_cons] at hlength
    omega
  case case7 =>
    intro s t _ _
    rw [same, Sampler.same]
    split
    · exact .inl ⟨_, rfl⟩
    · rename_i type hs
      split
      · rename_i ht
        exact .inr (.sampler hs ht)
      · exact .inl ⟨_, rfl⟩
  case case11 =>
    intro x xs y ys ih ihs hxs hys
    have hx := ih (hxs x List.mem_cons_self) (hys y List.mem_cons_self)
    have hrest := ihs (fun v hv => hxs v (List.mem_cons_of_mem x hv))
      fun v hv => hys v (List.mem_cons_of_mem y hv)
    rcases hx with ⟨equal, hxy⟩ | hclash
    · rw [sameAll, hxy]
      cases equal with
      | false => exact .inl ⟨false, rfl⟩
      | true =>
        refine hrest.imp_right ?_
        rintro ⟨front, x', back, front', y', back', rfl, rfl, hfront, h⟩
        refine ⟨x :: front, x', back, y :: front', y', back', rfl, rfl, ?_, h⟩
        rw [sameAll, hxy]
        exact hfront
    · exact .inr ⟨[], x, xs, [], y, ys, rfl, rfl, rfl, hclash⟩
  -- All other comparisons are decided on the spot.
  case case1 | case4 | case5 | case6 | case8 | case9 | case10 | case12 =>
    intros
    simp_all [same, sameAll]

end Value

/-- The operators that compare values of every kind. -/
def equalityNames : List String := ["op_eq", "op_neq"]

theorem equality_eq (name : String) (negated : Bool) (a b : Value) : equality name negated [a, b] =
    (do let equal ← a.same b; return .bool (equal != negated)) := rfl

theorem equality_of_clashes (name : String) (negated : Bool) {a b : Value} (h : a.Clashes b) :
    ∃ type, equality name negated [a, b] = .error (.incomparable type) := by
  obtain ⟨type, herror⟩ := h.same_eq
  exact ⟨type, by rw [equality_eq, herror]; rfl⟩

/-- A comparison answers unless its operands clash. -/
theorem safe_equality_iff (name : String) (negated : Bool) {args : List Value}
    (hargs : ∀ a ∈ args, a.WellFormed) : Safe Value.WellFormed (equality name negated args) ↔
      ¬ ∃ a b, args = [a, b] ∧ a.Clashes b := by
  by_cases hpair : ∃ a b, args = [a, b]
  · obtain ⟨a, b, rfl⟩ := hpair
    rcases Value.same_or_clashes.1 a b (hargs a (by simp)) (hargs b (by simp)) with
      ⟨equal, hsame⟩ | hclash
    · rw [equality_eq, hsame]
      refine iff_of_true (.bool _) ?_
      rintro ⟨_, _, hargs, hclash⟩
      cases hargs
      obtain ⟨type, herror⟩ := hclash.same_eq
      rw [hsame] at herror
      cases herror
    · obtain ⟨type, herror⟩ := equality_of_clashes name negated hclash
      rw [herror]
      exact iff_of_false Bool.noConfusion fun h => h ⟨a, b, rfl, hclash⟩
  · refine iff_of_true ?_ fun ⟨a, b, h, _⟩ => hpair ⟨a, b, h⟩
    refine .bind (safe_checkCount_exactly name args 2) fun _ hcount => ?_
    exact absurd (List.length_eq_two.1 hcount) hpair

theorem safe_operandTruth (name : String) (side : OperandSide) (a : Value) :
    Safe (fun _ => True) (operandTruth name side a) := by
  unfold operandTruth
  split
  · exact .ok trivial
  · exact .fault _ _ _

@[simp] theorem closed_logical (name : String) (f : Bool → Bool → Bool) :
    Closed (logical name f) := by
  intro args hargs
  refine .bind (safe_checkCount_exactly name args 2) fun _ hcount => ?_
  refine .bind (safe_fetch (by omega)) fun a _ => ?_
  refine .bind (safe_operandTruth name .left a) fun x _ => ?_
  refine .bind (safe_fetch (by omega)) fun b _ => ?_
  refine .bind (safe_operandTruth name .right b) fun y _ => ?_
  exact .pure (.bool _)

@[simp] theorem closed_plus : Closed plus := by
  intro args hargs
  refine .bind (safe_checkCount_exactly "op_pos" args 1) fun _ hcount => ?_
  split
  · exact .pure (hargs _ List.mem_cons_self)
  · exact safe_broadcast "op_pos" hargs (hcount ▸ takes_unary _)

@[simp] theorem closed_negate : Closed negate := by
  intro args hargs
  refine .bind (safe_checkCount_exactly "op_neg" args 1) fun _ hcount => ?_
  split
  · have hm := (hargs _ List.mem_cons_self).of_matrix
    refine .pure (.matrix ⟨hm.two_le, hm.le_four, ?_⟩)
    rw [List.length_map]
    exact hm.complete
  · exact safe_broadcast "op_neg" hargs (hcount ▸ takes_unary _)

@[simp] theorem closed_complement : Closed complement := by
  intro args hargs
  refine .bind (safe_checkCount_exactly "op_bnot" args 1) fun _ hcount => ?_
  refine safe_broadcast "op_bnot" hargs fun xs hxs => ?_
  refine .bind (safe_fetch (by omega)) fun x _ => ?_
  exact .bind (safe_toInteger "op_bnot" x) fun i _ => .pure trivial

@[simp] theorem closed_logicalNot : Closed logicalNot := by
  intro args hargs
  refine .bind (safe_checkCount_exactly "op_lnot" args 1) fun _ hcount => ?_
  refine .bind (safe_fetch (by omega)) fun a _ => ?_
  exact .bind (safe_operandTruth "op_lnot" .only a) fun b _ => .pure (.bool _)

theorem closed_operators : ∀ entry ∈ operators, entry.1 ∈ equalityNames ∨ Closed entry.2 := by
  simp [operators, equalityNames]

end ShaderScript
