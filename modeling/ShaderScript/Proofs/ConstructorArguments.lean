import ShaderScript.Proofs.BroadcastLaw
import ShaderScript.Proofs.WellFormed

/-!
# What constructors accept

The constructors of vectors and matrices take one scalar, one matrix (for a matrix), or arguments
that together bring enough components, none of them started once there are enough.
`Shape.Accepts` says this of a list of arguments, and `Shape.Makes` what is made of it.
-/

namespace ShaderScript

/-! ## Matrices place by place -/

namespace Mat

/-- There are as many entries as places. -/
def Square (m : Mat) : Prop := m.entries.length = m.size * m.size

/-- The entry in a column and row. -/
def cell (m : Mat) (column row : Nat) : Float := m.entries.getD (column * m.size + row) 0

/-- The matrix with the given number at each place. -/
def tabulate (size : Nat) (f : Nat → Nat → Float) : Mat :=
  ⟨size, (places size).map fun place => f place.1 place.2⟩

theorem Square.entry_eq {m : Mat} (h : m.Square) {column row : Nat} (hcolumn : column < m.size)
    (hrow : row < m.size) : m.entry column row = .ok (m.cell column row) := by
  have hplace : column * m.size + row < m.entries.length := by
    rw [h]
    exact place_lt_square hcolumn hrow
  rw [entry, fetch_eq_ok hplace, cell, List.getD_eq_getElem?_getD,
    List.getElem?_eq_getElem hplace, Option.getD_some]

/-- The entries of a matrix where both sizes overlap, and those of the identity elsewhere. -/
def overlap (m : Mat) (size : Nat) : Mat :=
  tabulate size fun column row =>
    if column < m.size ∧ row < m.size then m.cell column row else if column = row then 1 else 0

theorem Square.resize_eq {m : Mat} (h : m.Square) (size : Nat) :
    m.resize size = .ok (m.overlap size) := by
  rw [resize, collect_eq_map (g := fun place : Nat × Nat =>
    if place.1 < m.size ∧ place.2 < m.size then m.cell place.1 place.2
    else if place.1 = place.2 then 1 else 0)]
  · rfl
  · intro place _
    by_cases hinside : place.1 < m.size ∧ place.2 < m.size
    · simp only [if_pos hinside, h.entry_eq hinside.1 hinside.2]
    · simp only [if_neg hinside]

end Mat

/-! ## The components of arguments -/

/-- The components that a scalar, a vector or a matrix brings; any other value brings none. -/
def Value.components? : Value → Option (List Float)
  | .vector v => some v.components
  | .matrix m => some m.entries
  | a => a.scalar?.map fun x => [x]

/-- The components of all arguments in order. -/
def allComponents (args : List Value) : List Float :=
  args.flatMap fun a => a.components?.getD []

/-- All arguments bring components, and the last one starts below the number wanted. -/
structure Fits (wanted : Nat) (args : List Value) : Prop where
  numeric : ∀ a ∈ args, a.components?.isSome
  needed : args ≠ [] → (allComponents args.dropLast).length < wanted

/-- The arguments that can be read component by component. -/
structure Reads (wanted : Nat) (args : List Value) : Prop extends Fits wanted args where
  enough : wanted ≤ (allComponents args).length

/-- A value without components comes before `wanted` components are reached. -/
def MisfitBefore (wanted : Nat) (args : List Value) : Prop :=
  ∃ i a, args[i]? = some a ∧ a.components? = none ∧ (allComponents (args.take i)).length < wanted

/-- How arguments are refused: by number 1002 for a value that comes too early without components,
and by number 1005 for how many there are. -/
def Refused (name : String) (wanted : Nat) (args : List Value) (e : Failure) : Prop :=
  ∃ cause, e = .fault ⟨name, cause⟩ ∧
    (MisfitBefore wanted args → cause.code.number = 1002) ∧
    (¬ MisfitBefore wanted args → cause.code.number = 1005)

theorem Fits.not_misfitBefore {wanted : Nat} {args : List Value} (h : Fits wanted args) :
    ¬ MisfitBefore wanted args := by
  rintro ⟨i, a, ha, hnone, -⟩
  have hsome := h.numeric a (List.mem_of_getElem? ha)
  rw [hnone] at hsome
  cases hsome

section

variable {wanted : Nat} {a : Value} {xs : List Float}

theorem allComponents_cons (h : a.components? = some xs) (rest : List Value) :
    allComponents (a :: rest) = xs ++ allComponents rest := by
  rw [allComponents, List.flatMap_cons, h]
  rfl

theorem fits_cons (h : a.components? = some xs) (hwanted : 0 < wanted) (rest : List Value) :
    Fits wanted (a :: rest) ↔ Fits (wanted - xs.length) rest := by
  -- The last argument of the rest is the last of all, unless there is no rest.
  have hlast : (allComponents (a :: rest).dropLast).length < wanted ↔
      (rest ≠ [] → (allComponents rest.dropLast).length < wanted - xs.length) := by
    cases rest with
    | nil => simpa [allComponents] using hwanted
    | cons b rest =>
      rw [List.dropLast_cons_of_ne_nil (List.cons_ne_nil b rest), allComponents_cons h,
        List.length_append]
      simp only [ne_eq, reduceCtorEq, not_false_eq_true, forall_const]
      omega
  constructor
  · intro hfits
    exact ⟨fun b hb => hfits.numeric b (List.mem_cons_of_mem a hb),
      hlast.mp (hfits.needed (List.cons_ne_nil a rest))⟩
  · intro hfits
    refine ⟨List.forall_mem_cons.mpr ⟨?_, hfits.numeric⟩, fun _ => hlast.mpr hfits.needed⟩
    rw [h]
    rfl

theorem misfitBefore_cons (h : a.components? = some xs) (rest : List Value) :
    MisfitBefore wanted (a :: rest) ↔ MisfitBefore (wanted - xs.length) rest := by
  constructor
  · rintro ⟨i, b, hb, hnone, hlt⟩
    cases i with
    | zero =>
      cases hb
      rw [h] at hnone
      cases hnone
    | succ i =>
      refine ⟨i, b, by simpa using hb, hnone, ?_⟩
      rw [List.take_succ_cons, allComponents_cons h, List.length_append] at hlt
      omega
  · rintro ⟨i, b, hb, hnone, hlt⟩
    refine ⟨i + 1, b, by simpa using hb, hnone, ?_⟩
    rw [List.take_succ_cons, allComponents_cons h, List.length_append]
    omega

end

/-! ## Gathering components -/

section Gathering

variable {name : String} {wanted position : Nat} {taken : List Float} {a : Value}

theorem gatherFrom_of_full (hfull : wanted ≤ taken.length) (rest : List Value) :
    gatherFrom name wanted position taken (a :: rest) =
      faultOf name (.unusedArgument position) := by
  cases a <;> simp only [gatherFrom, if_pos hfull]

theorem gatherFrom_of_room (hroom : ¬ wanted ≤ taken.length) (rest : List Value) :
    gatherFrom name wanted position taken (a :: rest) =
      match a.components? with
      | some xs => gatherFrom name wanted (position + 1) (taken ++ xs) rest
      | none => faultOf name (.cannotConstructFrom (some position) a.typeName) := by
  cases a <;> simp only [gatherFrom, if_neg hroom] <;> rfl

/-- Gathering gives the components of all arguments that fit, and refuses all others. -/
theorem gatherFrom_cases (args : List Value) :
    Fits (wanted - taken.length) args ∧
        gatherFrom name wanted position taken args = .ok (taken ++ allComponents args) ∨
      ¬ Fits (wanted - taken.length) args ∧
        ∃ e, gatherFrom name wanted position taken args = .error e ∧
          Refused name (wanted - taken.length) args e := by
  induction args generalizing position taken with
  | nil => exact .inl ⟨⟨by simp, by simp⟩, by simp [gatherFrom, allComponents]⟩
  | cons b rest ih =>
    by_cases hfull : wanted ≤ taken.length
    · -- The components are complete, so the argument is not needed.
      refine .inr ⟨fun hfits => ?_, _, gatherFrom_of_full hfull rest, _, rfl, ?_, fun _ => rfl⟩
      · have := hfits.needed (List.cons_ne_nil b rest)
        omega
      · rintro ⟨i, c, -, -, hlt⟩
        omega
    · have hroom := Nat.sub_pos_of_lt (Nat.lt_of_not_le hfull)
      have hstep := @gatherFrom_of_room name wanted position taken b hfull rest
      cases hb : b.components? with
      | none =>
        rw [hb] at hstep
        refine .inr ⟨fun hfits => ?_, _, hstep, _, rfl, fun _ => rfl,
          fun hnot => absurd ⟨0, b, rfl, hb, hroom⟩ hnot⟩
        have hsome := hfits.numeric b List.mem_cons_self
        rw [hb] at hsome
        cases hsome
      | some ys =>
        rw [hb] at hstep
        simp only [hstep, Refused, misfitBefore_cons hb, allComponents_cons hb, fits_cons hb hroom,
          Nat.sub_sub, ← List.length_append, ← List.append_assoc]
        exact ih

theorem gather_cases (args : List Value) :
    Reads wanted args ∧ gather name wanted args = .ok ((allComponents args).take wanted) ∨
      ¬ Reads wanted args ∧
        ∃ e, gather name wanted args = .error e ∧ Refused name wanted args e := by
  rw [gather]
  rcases @gatherFrom_cases name wanted 1 [] args with ⟨hfits, hall⟩ | ⟨hnot, e, he, hrefused⟩
  · rw [hall]
    by_cases henough : wanted ≤ (allComponents args).length
    · exact .inl ⟨⟨hfits, henough⟩, if_neg (Nat.not_lt.mpr henough)⟩
    · exact .inr ⟨fun hreads => henough hreads.enough, _, if_pos (Nat.lt_of_not_le henough), _, rfl,
        fun hmisfit => absurd hmisfit hfits.not_misfitBefore, fun _ => rfl⟩
  · rw [he]
    exact .inr ⟨fun hreads => hnot hreads.toFits, e, rfl, hrefused⟩

end Gathering

/-! ## The constructors -/

/-- What a constructor makes. -/
inductive Shape
  | vector (kind : ComponentKind) (size : Nat)
  | matrix (size : Nat)

namespace Shape

/-- The size of the vector or the matrix. -/
def size : Shape → Nat
  | vector _ size | matrix size => size

/-- How many components there are. -/
def count : Shape → Nat
  | vector _ size => size
  | matrix size => size * size

/-- The name of the type. -/
def typeName : Shape → String
  | vector kind size => kind.letter ++ "vec" ++ toString size
  | matrix size => "mat" ++ toString size

/-- The name of the catalog function. -/
def functionName : Shape → String
  | vector .float size => "Vec" ++ toString size
  | vector .int size => "IVec" ++ toString size
  | vector .bool size => "BVec" ++ toString size
  | matrix size => "Mat" ++ toString size

/-- The catalog function. -/
def construct : Shape → Function
  | vector kind size => constructVector (typeName (.vector kind size)) kind size
  | matrix size => constructMatrix (typeName (.matrix size)) size

/-- The value with a number in every component, or along the diagonal. -/
def fill : Shape → Float → Value
  | vector kind size, x => .vector ⟨kind, List.replicate size (kind.normalize x)⟩
  | matrix size, x => .matrix (.tabulate size fun column row => if column = row then x else 0)

/-- The value with the given components. -/
def assemble : Shape → List Float → Value
  | vector kind _, xs => .vector ⟨kind, xs.map kind.normalize⟩
  | matrix size, xs => .matrix ⟨size, xs⟩

/-- A matrix is made from one matrix. -/
def Resizes (shape : Shape) (args : List Value) : Prop :=
  ∃ size m, shape = .matrix size ∧ args = [.matrix m]

/-- The arguments that a constructor takes. -/
def Accepts (shape : Shape) (args : List Value) : Prop :=
  (∃ a, args = [a] ∧ a.scalar?.isSome) ∨ shape.Resizes args ∨ Reads shape.count args

/-- Neither one scalar nor a matrix for a matrix. -/
structure Plain (shape : Shape) (args : List Value) : Prop where
  scalar : ∀ a, args = [a] → a.scalar? = none
  matrix : ¬ shape.Resizes args

/-- What a constructor makes of its arguments. -/
inductive Makes : Shape → List Value → Value → Prop
  /-- One scalar fills a vector or a diagonal. -/
  | fill {shape : Shape} {a : Value} {x : Float} (h : a.scalar? = some x) :
      Makes shape [a] (shape.fill x)
  /-- One matrix is laid over the identity. -/
  | overlap {size : Nat} {m : Mat} : Makes (.matrix size) [.matrix m] (.matrix (m.overlap size))
  /-- Other arguments are read up to the number of components that are wanted. -/
  | components {shape : Shape} {args : List Value} (h : shape.Plain args)
      (hreads : Reads shape.count args) :
      Makes shape args (shape.assemble ((allComponents args).take shape.count))

theorem Makes.accepts {shape : Shape} {args : List Value} {r : Value} (h : shape.Makes args r) :
    shape.Accepts args := by
  rcases h with hx | _ | ⟨-, hreads⟩
  · exact .inl ⟨_, rfl, by rw [hx]; rfl⟩
  · exact .inr (.inl ⟨_, _, rfl, rfl⟩)
  · exact .inr (.inr hreads)

/-- The constructors are in the catalog. -/
theorem find?_functionName {shape : Shape} (htwo : 2 ≤ shape.size) (hfour : shape.size ≤ 4) :
    Catalog.find? shape.functionName = some (.computes shape.construct) := by
  have hcases : ∀ n, 2 ≤ n → n ≤ 4 → n = 2 ∨ n = 3 ∨ n = 4 := by omega
  cases shape with
  | vector kind size =>
    rcases hcases size htwo hfour with rfl | rfl | rfl <;> cases kind <;> rfl
  | matrix size => rcases hcases size htwo hfour with rfl | rfl | rfl <;> rfl

section

variable {shape : Shape} {args : List Value}

theorem construct_scalar {a : Value} {x : Float} (h : a.scalar? = some x) :
    shape.construct [a] = .ok (shape.fill x) := by
  cases shape with
  | vector kind size => simp only [construct, constructVector, h, Vec.of, List.map_replicate, fill]
  | matrix size =>
    cases a with
    | matrix m => cases h
    | _ =>
      simp only [construct, constructMatrix, h]
      rfl

theorem construct_matrix {m : Mat} (h : m.Square) (size : Nat) :
    (Shape.matrix size).construct [.matrix m] = .ok (.matrix (m.overlap size)) := by
  simp only [construct, constructMatrix, h.resize_eq]
  rfl

theorem construct_nil : shape.construct [] = faultOf shape.typeName .noArguments := by
  cases shape <;> rfl

theorem count_pos (htwo : 2 ≤ shape.size) : 0 < shape.count := by
  cases shape with
  | vector kind size => exact Nat.lt_of_lt_of_le Nat.two_pos htwo
  | matrix size =>
    have hpos : 0 < size := Nat.lt_of_lt_of_le Nat.two_pos htwo
    exact Nat.mul_pos hpos hpos

/-- Plain arguments are gathered, and what is gathered is assembled. -/
theorem construct_plain (hsome : args ≠ []) (h : shape.Plain args) :
    ∃ wrap, shape.construct args = (gather shape.typeName shape.count args).map wrap ∧
      ∀ xs, xs.length = shape.count → wrap xs = shape.assemble xs := by
  cases shape with
  | vector kind size =>
    refine ⟨assemble (.vector kind size), ?_, fun _ _ => rfl⟩
    rcases args with _ | ⟨a, _ | ⟨b, rest⟩⟩
    · exact absurd rfl hsome
    · simp only [construct, constructVector, h.scalar a rfl]
      rfl
    · rfl
  | matrix size =>
    refine ⟨fun xs => .matrix (.of size xs), ?_, fun xs hxs => ?_⟩
    · rcases args with _ | ⟨a, _ | ⟨b, rest⟩⟩
      · exact absurd rfl hsome
      · cases a with
        | matrix m => exact absurd ⟨size, m, rfl, rfl⟩ h.matrix
        | _ =>
          simp only [construct, constructMatrix, h.scalar _ rfl]
          rfl
      · cases a <;> rfl
    · have hlength : xs.length = size * size := hxs
      simp [assemble, Mat.of, hlength, List.take_of_length_le (Nat.le_of_eq hlength)]

/-- Plain arguments that can be read are made a value, and all others are refused. -/
theorem construct_plain_cases (htwo : 2 ≤ shape.size) (h : shape.Plain args) :
    Reads shape.count args ∧
        shape.construct args = .ok (shape.assemble ((allComponents args).take shape.count)) ∨
      ¬ Reads shape.count args ∧
        ∃ e, shape.construct args = .error e ∧ Refused shape.typeName shape.count args e := by
  by_cases hsome : args = []
  · subst hsome
    rw [construct_nil]
    refine .inr ⟨fun hreads => ?_, _, rfl, _, rfl, ?_, fun _ => rfl⟩
    · exact absurd hreads.enough (Nat.not_le.mpr (count_pos htwo))
    · rintro ⟨i, a, ha, -⟩
      simp at ha
  · obtain ⟨wrap, hwrap, hassemble⟩ := construct_plain hsome h
    rw [hwrap]
    rcases gather_cases args with ⟨hreads, hxs⟩ | ⟨hnot, e, he, hrefused⟩
    · rw [hxs]
      exact .inl ⟨hreads, congrArg Except.ok (hassemble _ (List.length_take_of_le hreads.enough))⟩
    · rw [he]
      exact .inr ⟨hnot, e, rfl, hrefused⟩

theorem construct_of_makes (htwo : 2 ≤ shape.size) (hargs : ∀ m, .matrix m ∈ args → m.Square)
    {r : Value} (h : shape.Makes args r) : shape.construct args = .ok r := by
  rcases h with hx | _ | ⟨hplain, hreads⟩
  · exact construct_scalar hx
  · exact construct_matrix (hargs _ List.mem_cons_self) _
  · rcases construct_plain_cases htwo hplain with ⟨-, hr⟩ | ⟨hnot, -⟩
    · exact hr
    · exact absurd hreads hnot

/-- Something is made of the arguments, or they are refused. -/
theorem makes_or_refused (htwo : 2 ≤ shape.size) (args : List Value) :
    (∃ r, shape.Makes args r) ∨
      ¬ shape.Accepts args ∧
        ∃ e, shape.construct args = .error e ∧ Refused shape.typeName shape.count args e := by
  by_cases hscalar : ∃ a, args = [a] ∧ a.scalar?.isSome
  · obtain ⟨a, rfl, ha⟩ := hscalar
    obtain ⟨x, hx⟩ := Option.isSome_iff_exists.mp ha
    exact .inl ⟨_, .fill hx⟩
  · by_cases hmatrix : shape.Resizes args
    · obtain ⟨size, m, rfl, rfl⟩ := hmatrix
      exact .inl ⟨_, .overlap⟩
    · have hplain : shape.Plain args :=
        ⟨fun a ha => Option.not_isSome_iff_eq_none.mp fun hx => hscalar ⟨a, ha, hx⟩, hmatrix⟩
      rcases construct_plain_cases htwo hplain with ⟨hreads, -⟩ | ⟨hnot, hrefused⟩
      · exact .inl ⟨_, .components hplain hreads⟩
      · refine .inr ⟨?_, hrefused⟩
        rintro (h | h | h)
        · exact hscalar h
        · exact hmatrix h
        · exact hnot h

end

end Shape

/-- What the constructors of vectors and matrices accept.  For every list of arguments, in which
matrices have as many entries as places, a constructor gives a value exactly if `Shape.Accepts` says
so, and then the one that `Shape.Makes` tells; otherwise it fails as `Refused` tells. -/
theorem constructors_accept_exactly {shape : Shape} (htwo : 2 ≤ shape.size)
    (hfour : shape.size ≤ 4) {args : List Value} (hargs : ∀ m, .matrix m ∈ args → m.Square) :
    ∃ f, Catalog.find? shape.functionName = some (.computes f) ∧
      ((∃ r, f args = .ok r) ↔ shape.Accepts args) ∧
      (∀ r, f args = .ok r ↔ shape.Makes args r) ∧
      ∀ e, f args = .error e → Refused shape.typeName shape.count args e := by
  refine ⟨shape.construct, Shape.find?_functionName htwo hfour, ?_⟩
  rcases Shape.makes_or_refused htwo args with ⟨r, hmakes⟩ | ⟨hnot, e, he, hrefused⟩
  · have hr := Shape.construct_of_makes htwo hargs hmakes
    refine ⟨iff_of_true ⟨r, hr⟩ hmakes.accepts, fun r' => ⟨fun hr' => ?_, ?_⟩, fun e he => ?_⟩
    · cases hr.symm.trans hr'
      exact hmakes
    · exact Shape.construct_of_makes htwo hargs
    · cases hr.symm.trans he
  · refine ⟨iff_of_false ?_ hnot, fun r => iff_of_false ?_ fun h => hnot h.accepts,
      fun e' he' => ?_⟩
    · rintro ⟨r, hr⟩
      cases he.symm.trans hr
    · intro hr
      cases he.symm.trans hr
    · cases he.symm.trans he'
      exact hrefused

/-- A matrix of size two is laid over the identity of size three. -/
theorem constructors_accept_exactly_larger :
    (∀ m, Value.matrix m ∈ [.matrix ⟨2, [1, 2, 3, 4]⟩] → m.Square) ∧
      ∃ f, Catalog.find? "Mat3" = some (.computes f) ∧
        f [.matrix ⟨2, [1, 2, 3, 4]⟩] = .ok (.matrix ((⟨2, [1, 2, 3, 4]⟩ : Mat).overlap 3)) := by
  have hargs : ∀ m, Value.matrix m ∈ [.matrix ⟨2, [1, 2, 3, 4]⟩] → m.Square := by
    intro m hm
    cases List.mem_singleton.mp hm
    rfl
  obtain ⟨f, hf, -, hmakes, -⟩ :=
    @constructors_accept_exactly (.matrix 3) (by decide) (by decide) _ hargs
  exact ⟨hargs, f, hf, (hmakes _).mpr .overlap⟩

end ShaderScript
