import ShaderScript.Proofs.Lens

/-!
# What putting a part leaves alone

`set` gives a value in which the part at the end of a path is new.  A part is told from the others
by its location, the numbers of the elements, columns and components on the way to it, and a path of
selectors addresses some locations (`Addresses`): letters pick components in an order of their own,
so behind a selection the numbers count what was picked (`Carries`).
-/

namespace ShaderScript

variable {base r value selector part next updated : Value} {i : Nat} {places : List Nat}
  {rest : List Value}

/-! ## Locations -/

/-- The way to a part of a value: which element, column or component to go to, from the outside
in. -/
abbrev Location := List Nat

variable {location inner : Location}

/-- What stands at a location.  Components are numbers, whatever the kind of their vector. -/
def Value.locate : Location → Value → Option Value
  | [], v => some v
  | i :: below, .vector v => (v.components[i]?).bind fun x => locate below (.number x)
  | i :: below, .matrix m => (m.columns[i]?).bind fun column => locate below (.vector column)
  | i :: below, .array xs => (xs[i]?).bind (locate below)
  | _ :: _, _ => none

/-- A location in a value, and where the same part stands in what a selector picks. -/
inductive Carries (selector : Value) : Value → Location → Location → Prop
  /-- Place `j` of a selection is a component of its own choice. -/
  | component {v : Vec} {places : List Nat} {i j : Nat} (below : Location)
      (hplaces : selectorPlaces "get" false v.size selector = .ok places)
      (hj : places[j]? = some i) : Carries selector (.vector v) (i :: below) (j :: below)
  | column {m : Mat} {i : Nat} (below : Location)
      (hi : selectorIndex "get" selector m.size = .ok i) :
      Carries selector (.matrix m) (i :: below) below
  | element {xs : List Value} {i : Nat} (below : Location)
      (hi : selectorIndex "get" selector xs.length = .ok i) :
      Carries selector (.array xs) (i :: below) below

/-- The part at the end of a path and the one at a location have something in common. -/
inductive Addresses : Value → List Value → Location → Prop
  /-- At the end of the path everything is addressed. -/
  | all (base : Value) (location : Location) : Addresses base [] location
  /-- A value as a whole holds all its parts. -/
  | whole (base : Value) (path : List Value) : Addresses base path []
  | through {base selector part : Value} {rest : List Value} {location inner : Location}
      (hpart : getOne base selector = .ok part) (h : Carries selector base location inner)
      (hrest : Addresses part rest inner) : Addresses base (selector :: rest) location

/-- The types of containers agree: the kind and size of a vector, the size of a matrix, the length
of an array. -/
inductive SameType : Value → Value → Prop
  | vector {v w : Vec} (hkind : w.kind = v.kind) (hsize : w.size = v.size) :
      SameType (.vector v) (.vector w)
  | matrix {m o : Mat} (hsize : o.size = m.size) : SameType (.matrix m) (.matrix o)
  | array {xs ys : List Value} (hlength : ys.length = xs.length) :
      SameType (.array xs) (.array ys)

/-- Where a part stands in what a selector picks depends on the type of the container alone. -/
theorem Carries.of_sameType (h : Carries selector base location inner) (htype : SameType base r) :
    Carries selector r location inner := by
  cases h with
  | component below hplaces hj =>
    cases htype with
    | vector _ hsize => exact .component below (hsize ▸ hplaces) hj
  | column _ hi =>
    cases htype with
    | matrix hsize => exact .column _ (hsize ▸ hi)
  | element _ hi =>
    cases htype with
    | array hlength => exact .element _ (hlength ▸ hi)

/-! ## Columns -/

/-- The columns of a matrix are stretches of its entries. -/
theorem Mat.getElem?_columns (m : Mat) (hi : i < m.size) :
    m.columns[i]? = some (.ofFloats ((m.entries.drop (i * m.size)).take m.size)) := by
  simp [Mat.columns, hi]

theorem Mat.getElem?_columns_of_column {m : Mat} (hi : i < m.size) {column : Vec}
    (h : m.column i = .ok column) : m.columns[i]? = some column := by
  obtain ⟨entries, hentries, hcolumn⟩ := bind_eq_ok.mp h
  cases hcolumn
  unfold Mat.columnEntries slice at hentries
  split at hentries
  · cases hentries
    exact m.getElem?_columns hi
  · cases hentries

/-- Outside of the stretch that is overwritten a list stays as it is. -/
theorem getElem?_overwrite {α : Type} {xs new ys : List α} {start k : Nat}
    (h : overwrite xs start new = .ok ys) (hk : k < start ∨ start + new.length ≤ k) :
    ys[k]? = xs[k]? := by
  unfold overwrite at h
  split at h
  · rename_i hend
    cases h
    have hstart : (xs.take start).length = start := List.length_take_of_le (by omega)
    rcases hk with hk | hk
    · rw [List.append_assoc, List.getElem?_append_left (by omega), List.getElem?_take_of_lt hk]
    · have hfront : (xs.take start ++ new).length = start + new.length := by
        rw [List.length_append, hstart]
      rw [List.getElem?_append_right (by omega), hfront, List.getElem?_drop,
        Nat.add_sub_cancel' hk]
  · cases h

/-- Overwriting a column leaves the others. -/
theorem Mat.columns_overwrite {m : Mat} {entries column : List Float} {j : Nat}
    (hcolumn : column.length = m.size) (h : overwrite m.entries (i * m.size) column = .ok entries)
    (hj : j ≠ i) : (Mat.mk m.size entries).columns[j]? = m.columns[j]? := by
  by_cases hlt : j < m.size
  · have hstretch : (entries.drop (j * m.size)).take m.size =
        (m.entries.drop (j * m.size)).take m.size := by
      apply List.ext_getElem?
      intro k
      by_cases hk : k < m.size
      · -- Row `k` of column `j` stands before column `i`, or behind it.
        have hapart : j * m.size + k < i * m.size ∨
            i * m.size + column.length ≤ j * m.size + k := by
          rcases Nat.lt_or_gt_of_ne hj with hless | hmore
          · have := Nat.mul_le_mul_right m.size (Nat.succ_le_of_lt hless)
            rw [Nat.succ_mul] at this
            omega
          · have := Nat.mul_le_mul_right m.size (Nat.succ_le_of_lt hmore)
            rw [Nat.succ_mul] at this
            omega
        rw [List.getElem?_take_of_lt hk, List.getElem?_take_of_lt hk, List.getElem?_drop,
          List.getElem?_drop, getElem?_overwrite h hapart]
      · rw [List.getElem?_take_eq_none (by omega), List.getElem?_take_eq_none (by omega)]
    rw [Mat.getElem?_columns m hlt, ← hstretch]
    exact Mat.getElem?_columns ⟨m.size, entries⟩ hlt
  · simp [Mat.columns, hlt]

/-! ## One selector -/

/-- Places that are there can be read together. -/
theorem exists_collect_fetch {xs : List Float} (h : ∀ i ∈ places, i < xs.length) :
    ∃ ys, collect (fetch xs) places = .ok ys := by
  induction places with
  | nil => exact ⟨[], rfl⟩
  | cons i places ih =>
    obtain ⟨ys, hys⟩ := ih fun j hj => h j (List.mem_cons_of_mem i hj)
    have hi : i < xs.length := h i List.mem_cons_self
    refine ⟨xs[i] :: ys, ?_⟩
    rw [collect, fetch_eq_ok hi, hys]
    rfl

/-- What several places hold, each in its turn. -/
theorem getElem?_of_collect_fetch {xs ys : List Float} {j : Nat}
    (h : collect (fetch xs) places = .ok ys) (hj : places[j]? = some i) : ys[j]? = xs[i]? := by
  induction places generalizing ys j with
  | nil => simp at hj
  | cons k places ih =>
    simp only [collect, bind_eq_ok] at h
    obtain ⟨x, hx, zs, hzs, hys⟩ := h
    cases hys
    cases j with
    | zero =>
      cases hj
      unfold fetch at hx
      split at hx
      · rename_i y hy
        cases hx
        rw [hy]
        rfl
      · cases hx
    | succ j =>
      rw [List.getElem?_cons_succ] at hj ⊢
      exact ih hzs hj

/-- The components of a well-formed vector that are picked together are picked as they are. -/
theorem components_of_pickComponents {v w : Vec} (hv : v.WellFormed)
    (h : pickComponents v places = .ok (.vector w)) :
    collect (fetch v.components) places = .ok w.components := by
  obtain ⟨xs, hxs⟩ := collect_of_pickComponents h
  have hnormal : ∀ x ∈ xs, v.kind.normalize x = x := by
    intro x hx
    obtain ⟨i, _, hi⟩ := mem_of_collect hxs x hx
    exact hv.normal x (mem_of_fetch hi)
  rw [pickComponents_eq_pack hnormal hxs] at h
  have hid : xs.map v.kind.normalize = xs :=
    (List.map_congr_left hnormal).trans (List.map_id xs)
  have hpack : v.kind.pack xs = .vector w := Except.ok.inj h
  rcases xs with _ | ⟨x, _ | ⟨y, rest⟩⟩
  · cases hpack
    exact hxs
  · -- One component alone is a scalar.
    cases hkind : v.kind <;> rw [hkind] at hpack <;> cases hpack
  · have hw : Vec.of v.kind (x :: y :: rest) = w := Value.vector.inj hpack
    rw [← hw, Vec.of, hid]
    exact hxs

/-- What can be put can be got. -/
theorem exists_getOne_of_setOne (hbase : base.WellFormed) (h : setOne base selector value = .ok r) :
    ∃ part, getOne base selector = .ok part := by
  rcases container_of_setOne h with ⟨v, rfl⟩ | ⟨hindex, ⟨m, rfl⟩ | ⟨xs, rfl⟩⟩
  · obtain ⟨places, source, w, hplaces, hsource, hw, rfl⟩ := setOne_vector_eq_ok.mp h
    have hget := (selectorPlaces_set hplaces).2
    obtain ⟨xs, hxs⟩ := exists_collect_fetch (selectorPlaces_lt hplaces)
    -- What is picked was in the vector, and is of its kind already.
    have hnormal : ∀ x ∈ xs, v.kind.normalize x = x := by
      intro x hx
      obtain ⟨i, _, hi⟩ := mem_of_collect hxs x hx
      exact hbase.of_vector.normal x (mem_of_fetch hi)
    rw [getOne_vector, hget]
    exact ⟨_, pickComponents_eq_pack hnormal hxs⟩
  · obtain ⟨i, column, entries, hi, rfl, hsize, hentries, rfl⟩ := setOne_matrix_eq_ok hindex h
    have hlt := (safe_selectorIndex "set" selector m.size).of_ok hi
    have hcolumn : i * m.size + m.size ≤ m.entries.length := by
      rw [hbase.of_matrix.complete, ← Nat.succ_mul]
      exact Nat.mul_le_mul_right m.size hlt
    have hslice := slice_eq_ok hcolumn
    rw [getOne_matrix hindex, selectorIndex_eq_ok "get" hi]
    simp only [bind, Except.bind, Mat.column, Mat.columnEntries, hslice]
    exact ⟨_, rfl⟩
  · obtain ⟨i, hi, hlt, rfl⟩ := setOne_array_eq_ok hindex h
    rw [getOne_array hindex, selectorIndex_eq_ok "get" hi]
    exact ⟨_, fetch_eq_ok hlt⟩

/-- A container keeps its type when a part is put into it. -/
theorem sameType_setOne (hbase : base.WellFormed) (h : setOne base selector value = .ok r) :
    SameType base r := by
  rcases container_of_setOne h with ⟨v, rfl⟩ | ⟨hindex, ⟨m, rfl⟩ | ⟨xs, rfl⟩⟩
  · obtain ⟨w, rfl, _, hkind, hsize⟩ := vector_of_setOne hbase.of_vector h
    exact .vector hkind hsize
  · obtain ⟨i, column, entries, _, _, _, _, rfl⟩ := setOne_matrix_eq_ok hindex h
    exact .matrix rfl
  · obtain ⟨i, _, _, rfl⟩ := setOne_array_eq_ok hindex h
    exact .array List.length_set

/-- What a selector does not pick stays when its part is put. -/
theorem locate_setOne_of_not_carries (hbase : base.WellFormed)
    (h : setOne base selector value = .ok r) {below : Location}
    (hnot : ∀ inner, ¬ Carries selector base (i :: below) inner) :
    r.locate (i :: below) = base.locate (i :: below) := by
  rcases container_of_setOne h with ⟨v, rfl⟩ | ⟨hindex, ⟨m, rfl⟩ | ⟨xs, rfl⟩⟩
  · obtain ⟨places, source, w, hplaces, hsource, hw, rfl⟩ := setOne_vector_eq_ok.mp h
    obtain ⟨hnodup, hget⟩ := selectorPlaces_set hplaces
    have hstored := replaceComponents_stored hbase.of_vector hnodup
      (length_sourceComponents hsource) hw
    have hi : i ∉ places := by
      intro hmem
      obtain ⟨j, hj⟩ := List.mem_iff_getElem?.mp hmem
      exact hnot _ (.component below hget hj)
    simp only [Value.locate, hstored.2.outside i hi]
  · obtain ⟨k, column, entries, hk, rfl, hsize, hentries, rfl⟩ := setOne_matrix_eq_ok hindex h
    have hne : i ≠ k := by
      rintro rfl
      exact hnot _ (.column below (selectorIndex_eq_ok "get" hk))
    simp only [Value.locate, Mat.columns_overwrite hsize hentries hne]
  · obtain ⟨k, hk, hlt, rfl⟩ := setOne_array_eq_ok hindex h
    have hne : k ≠ i := by
      rintro rfl
      exact hnot _ (.element below (selectorIndex_eq_ok "get" hk))
    simp only [Value.locate, List.getElem?_set_ne hne]

/-- A location that is carried into a part holds the same there, if the part has parts itself: the
one component of a vector that is picked alone has none. -/
theorem locate_of_carries (hpart : getOne base selector = .ok part)
    (h : Carries selector base location inner)
    (hvector : ∀ v, base = .vector v → v.WellFormed ∧ ∃ w, part = .vector w) :
    base.locate location = part.locate inner := by
  cases h with
  | @component v places i j below hplaces hj =>
    obtain ⟨hv, w, rfl⟩ := hvector v rfl
    rw [getOne_vector, hplaces] at hpart
    have hpicked := components_of_pickComponents hv hpart
    simp only [Value.locate, getElem?_of_collect_fetch hpicked hj]
  | @column m i below hi =>
    obtain ⟨v, hv⟩ | ⟨hindex, _⟩ := container_of_getOne hpart
    · cases hv
    · rw [getOne_matrix hindex] at hpart
      obtain ⟨k, hk, hpart⟩ := bind_eq_ok.mp hpart
      obtain ⟨column, hcolumn, hpart⟩ := bind_eq_ok.mp hpart
      cases hpart
      rw [hi] at hk
      cases hk
      have hlt := (safe_selectorIndex "get" selector m.size).of_ok hi
      simp only [Value.locate, Mat.getElem?_columns_of_column hlt hcolumn, Option.bind_some]
  | @element xs i below hi =>
    obtain ⟨v, hv⟩ | ⟨hindex, _⟩ := container_of_getOne hpart
    · cases hv
    · rw [getOne_array hindex, hi] at hpart
      have hlt := (safe_selectorIndex "get" selector xs.length).of_ok hi
      have hfetch : fetch xs i = .ok part := hpart
      rw [fetch_eq_ok hlt] at hfetch
      cases hfetch
      simp only [Value.locate, List.getElem?_eq_getElem hlt, Option.bind_some]

/-! ## Paths -/

/-- A value keeps its type when a part of it is put. -/
theorem sameType_setPath (hbase : base.WellFormed) {path : List Value} (hpath : path ≠ [])
    (h : setPath base path value = .ok r) : SameType base r := by
  cases path with
  | nil => exact absurd rfl hpath
  | cons selector rest =>
    obtain ⟨u, hu⟩ := exists_setOne_of_setPath h
    exact sameType_setOne hbase hu

/-- The part that was put back at the first selector of a path is got from there. -/
theorem getOne_of_setPath (hbase : base.WellFormed) (hpart : getOne base selector = .ok part)
    (hupdated : setPath part (next :: rest) value = .ok updated)
    (h : setOne base selector updated = .ok r) : getOne r selector = .ok updated := by
  rw [getOne_setOne hbase h, fit_of_setPath hbase hpart hupdated]

/-- Every container that a path goes through keeps its type. -/
theorem sameType_along (hbase : base.WellFormed) (front : List Value) {back : List Value}
    (hback : back ≠ []) (h : setPath base (front ++ back) value = .ok r)
    (hpart : getPath base front = .ok part) :
    ∃ part', getPath r front = .ok part' ∧ SameType part part' := by
  induction front generalizing base r with
  | nil =>
    cases hpart
    exact ⟨r, rfl, sameType_setPath hbase hback h⟩
  | cons selector front ih =>
    rw [getPath, bind_eq_ok] at hpart
    obtain ⟨first, hfirst, hpart⟩ := hpart
    have hwell := (safe_getOne hbase selector).of_ok hfirst
    -- There is another selector behind the first one, so what is put there was got before.
    obtain ⟨next, rest, hrest⟩ := List.exists_cons_of_ne_nil
      (List.append_ne_nil_of_right_ne_nil front hback)
    rw [List.cons_append, hrest, setPath] at h
    obtain ⟨first', hfirst', h⟩ := bind_eq_ok.mp h
    rw [hfirst] at hfirst'
    cases hfirst'
    obtain ⟨updated, hupdated, h⟩ := bind_eq_ok.mp h
    obtain ⟨part', hpart', htype⟩ := ih hwell (hrest ▸ hupdated) hpart
    refine ⟨part', ?_, htype⟩
    rw [getPath, getOne_of_setPath hbase hfirst hupdated h]
    exact hpart'

/-- A selection of components into which something can be put has several of them. -/
theorem vector_of_setPath {v : Vec} (hpart : getOne (.vector v) selector = .ok part)
    (h : setPath part (next :: rest) value = .ok updated) : ∃ w, part = .vector w := by
  rw [getOne_vector] at hpart
  obtain ⟨places, _, hpick⟩ := bind_eq_ok.mp hpart
  obtain ⟨u, hu⟩ := exists_setOne_of_setPath h
  obtain ⟨w, hw, _⟩ := vector_of_pickComponents hpick hu
  exact ⟨w, hw⟩

/-- What stands behind the first selector of a path, before and after something was put there. -/
theorem locate_through (hbase : base.WellFormed) (hpart : getOne base selector = .ok part)
    (hupdated : setPath part (next :: rest) value = .ok updated)
    (h : setOne base selector updated = .ok r) (hcarries : Carries selector base location inner) :
    base.locate location = part.locate inner ∧ r.locate location = updated.locate inner := by
  have htype := sameType_setOne hbase h
  refine ⟨locate_of_carries hpart hcarries ?_, locate_of_carries
    (getOne_of_setPath hbase hpart hupdated h) (hcarries.of_sameType htype) ?_⟩
  · rintro v rfl
    exact ⟨hbase.of_vector, vector_of_setPath hpart hupdated⟩
  · rintro v rfl
    cases htype with
    | vector =>
      obtain ⟨w, hw, hwell, _⟩ := vector_of_setOne hbase.of_vector h
      cases hw
      obtain ⟨picked, rfl⟩ := vector_of_setPath hpart hupdated
      have hsame := sameType_setPath ((safe_getOne hbase selector).of_ok hpart)
        (List.cons_ne_nil next rest) hupdated
      cases hsame with
      | vector => exact ⟨hwell, _, rfl⟩

/-- What stands at a location that a path does not address stays there. -/
theorem locate_setPath (hbase : base.WellFormed) {path : List Value} (hpath : path ≠ [])
    (h : setPath base path value = .ok r) (hnot : ¬ Addresses base path location) :
    r.locate location = base.locate location := by
  fun_induction setPath base path value generalizing r location with
  | case1 => exact absurd rfl hpath
  | case2 base selector value =>
    obtain ⟨part, hpart⟩ := exists_getOne_of_setOne hbase h
    cases location with
    | nil => exact absurd (.whole base _) hnot
    | cons i below =>
      refine locate_setOne_of_not_carries hbase h fun inner hcarries => ?_
      exact hnot (.through hpart hcarries (.all part inner))
  | case3 base selector next rest value ih =>
    obtain ⟨part, hpart, h⟩ := bind_eq_ok.mp h
    obtain ⟨updated, hupdated, h⟩ := bind_eq_ok.mp h
    cases location with
    | nil => exact absurd (.whole base _) hnot
    | cons i below =>
      by_cases hcarried : ∃ inner, Carries selector base (i :: below) inner
      · -- The selector picks the place, and behind it the rest of the path goes elsewhere.
        obtain ⟨inner, hcarries⟩ := hcarried
        have hinner : ¬ Addresses part (next :: rest) inner :=
          fun haddressed => hnot (.through hpart hcarries haddressed)
        have hwell := (safe_getOne hbase selector).of_ok hpart
        obtain ⟨hbefore, hafter⟩ := locate_through hbase hpart hupdated h hcarries
        calc r.locate (i :: below)
            = updated.locate inner := hafter
          _ = part.locate inner := ih part hwell (List.cons_ne_nil next rest) hupdated hinner
          _ = base.locate (i :: below) := hbefore.symm
      · exact locate_setOne_of_not_carries hbase h fun inner hcarries => hcarried ⟨inner, hcarries⟩

/-- `set` keeps the type of a value and of every container on the way to the part that it puts, and
changes no part that the path does not address. -/
theorem set_changes_addressed_only {base value r : Value} (hbase : base.WellFormed)
    {path : List Value} (hpath : path ≠ [])
    (h : setFunction (base :: (path ++ [value])) = .ok r) :
    SameType base r ∧
      (∀ front back part, path = front ++ back → back ≠ [] →
        getFunction (base :: front) = .ok part →
          ∃ part', getFunction (r :: front) = .ok part' ∧ SameType part part') ∧
      ∀ location, ¬ Addresses base path location → r.locate location = base.locate location := by
  rw [setFunction_eq_setPath] at h
  refine ⟨sameType_setPath hbase hpath h, ?_, fun location => locate_setPath hbase hpath h⟩
  rintro front back part rfl hback hpart
  exact sameType_along hbase front hback h hpart

/-- Two entries of a column of a matrix in an array: the entry between them stays. -/
theorem set_changes_addressed_only_between :
    setFunction [.array [.matrix ⟨3, [1, 2, 3, 4, 5, 6, 7, 8, 9]⟩], .number 0, .number 1,
        .text "zx", .vector ⟨.float, [-1, -2]⟩] =
      .ok (.array [.matrix ⟨3, [1, 2, 3, -2, 5, -1, 7, 8, 9]⟩]) ∧
      (Value.array [.matrix ⟨3, [1, 2, 3, -2, 5, -1, 7, 8, 9]⟩]).locate [0, 1, 1] =
        (Value.array [.matrix ⟨3, [1, 2, 3, 4, 5, 6, 7, 8, 9]⟩]).locate [0, 1, 1] := by
  have hbase : (Value.array [.matrix ⟨3, [1, 2, 3, 4, 5, 6, 7, 8, 9]⟩]).WellFormed := by
    refine .array fun v hv => ?_
    rw [List.mem_singleton] at hv
    subst hv
    exact .matrix ⟨by decide, by decide, by decide⟩
  have hzero : truncateToInt64? 0 = some 0 := by decide +kernel
  have hone : truncateToInt64? 1 = some 1 := by decide +kernel
  have hfirst (name : String) : selectorIndex name (.number 0) 1 = .ok 0 := by
    simp [selectorIndex, Value.scalar?, hzero]
  have hsecond (name : String) : selectorIndex name (.number 1) 3 = .ok 1 := by
    simp [selectorIndex, Value.scalar?, hone]
  have hplaces : selectionIndices "set" "zx" 3 true = .ok [2, 0] := rfl
  have hmatrix : getOne (.array [.matrix ⟨3, [1, 2, 3, 4, 5, 6, 7, 8, 9]⟩]) (.number 0) =
      .ok (.matrix ⟨3, [1, 2, 3, 4, 5, 6, 7, 8, 9]⟩) := by
    simp [getOne, hfirst, fetch, bind, Except.bind]
  have hcolumn : getOne (.matrix ⟨3, [1, 2, 3, 4, 5, 6, 7, 8, 9]⟩) (.number 1) =
      .ok (.vector ⟨.float, [4, 5, 6]⟩) := by
    simp [getOne, hsecond, Mat.column, Mat.columnEntries, slice, Vec.ofFloats, Vec.of,
      ComponentKind.normalize, bind, Except.bind, pure, Except.pure]
  have hset : setFunction [.array [.matrix ⟨3, [1, 2, 3, 4, 5, 6, 7, 8, 9]⟩], .number 0, .number 1,
      .text "zx", .vector ⟨.float, [-1, -2]⟩] =
        .ok (.array [.matrix ⟨3, [1, 2, 3, -2, 5, -1, 7, 8, 9]⟩]) := by
    simp [setFunction, setWith, setPath, hmatrix, hcolumn, setOne, Vec.size, hplaces, hfirst,
      hsecond, sourceComponents, replaceComponents, storeAll, store, Vec.of,
      ComponentKind.normalize, Mat.setColumn, overwrite, bind, Except.bind, pure, Except.pure]
  have hpath : ([.number 0, .number 1, .text "zx"] : List Value) ≠ [] := List.cons_ne_nil _ _
  refine ⟨hset, (set_changes_addressed_only hbase hpath hset).2.2 _ ?_⟩
  -- The path goes to the matrix and its second column, where the letters pick the others.
  intro haddressed
  cases haddressed with
  | through hpart hcarries hrest =>
    rw [hmatrix] at hpart
    cases hpart
    cases hcarries with
    | element _ _ =>
      cases hrest with
      | through hpart hcarries hrest =>
        rw [hcolumn] at hpart
        cases hpart
        cases hcarries with
        | column _ _ =>
          cases hrest with
          | through _ hcarries _ =>
            cases hcarries with
            | @component _ places _ j _ hpicked hj =>
              cases (hpicked : Except.ok [2, 0] = Except.ok places)
              have hmem := List.mem_of_getElem? hj
              simp at hmem

end ShaderScript
