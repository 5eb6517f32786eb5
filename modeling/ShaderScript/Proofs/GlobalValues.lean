import Mathlib
import ShaderScript.Globals
import ShaderScript.Proofs.WellFormed

/-!
# The values of globals

`Globals.Denotes` tells which shader value a TOML value stands for, without converting it: scalars,
vectors of one kind, matrices by columns, and arrays of anything else.  `convert_eq_ok_iff` says
that conversion gives exactly these, so a file is loaded if every global stands for a value.

A TOML value with an empty list, a list that mixes classes or a value of another type in it, however
deep, stands for nothing (`Denotes.sound`).
-/

namespace ShaderScript.Globals

/-! ## What TOML values stand for -/

/-- The components of a vector of some kind. -/
abbrev Scalars (kind : ComponentKind) : List Toml.Value → List Float → Prop :=
  List.Forall₂ fun item x => scalar? item = some (kind, x)

/-- A list of numbers of some length. -/
def GridRow (n : Nat) (item : Toml.Value) (column : List Float) : Prop :=
  ∃ row, item = .list row ∧ row.length = n ∧ Scalars .float row column

/-- As many lists of as many numbers, two to four. -/
structure Grid (items : List Toml.Value) (columns : List (List Float)) : Prop where
  two_le : 2 ≤ items.length
  le_four : items.length ≤ 4
  rows : List.Forall₂ (GridRow items.length) items columns

mutual

/-- The shader value that a TOML value stands for. -/
inductive Denotes : Toml.Value → Value → Prop
  | bool (b : Bool) : Denotes (.bool b) (.bool b)
  | number {v : Toml.Value} {x : Float} (h : scalar? v = some (.float, x)) : Denotes v (.number x)
  | vector {kind : ComponentKind} {items : List Toml.Value} {xs : List Float}
      (h : Scalars kind items xs) (htwo : 2 ≤ items.length) (hfour : items.length ≤ 4) :
      Denotes (.list items) (.vector (.of kind xs))
  | matrix {items : List Toml.Value} {columns : List (List Float)} (h : Grid items columns) :
      Denotes (.list items) (.matrix ⟨items.length, columns.flatten⟩)
  | array {items : List Toml.Value} {values : List Value} (hne : items ≠ [])
      (hgrid : ∀ columns, ¬ Grid items columns) (h : RowsDenote items values) :
      Denotes (.list items) (.array values)

/-- The shader values that rows stand for; a row of one stands for that one. -/
inductive RowsDenote : List Toml.Value → List Value → Prop
  | nil : RowsDenote [] []
  | one {v : Toml.Value} {w : Value} {rest : List Toml.Value} {values : List Value}
      (h : Denotes v w) (hrest : RowsDenote rest values) :
      RowsDenote (.list [v] :: rest) (w :: values)
  | row {row : List Toml.Value} {w : Value} {rest : List Toml.Value} {values : List Value}
      (hone : row.length ≠ 1) (h : Denotes (.list row) w) (hrest : RowsDenote rest values) :
      RowsDenote (.list row :: rest) (w :: values)

end

variable {kind : ComponentKind} {items row rest : List Toml.Value} {xs column : List Float}
  {columns : List (List Float)} {w : Value} {values : List Value} {n : Nat}

/-! ## Vectors -/

theorem component_eq_ok_iff {v : Toml.Value} {x : Float} :
    component kind v = .ok x ↔ scalar? v = some (kind, x) := by
  unfold component
  cases scalar? v with
  | none => simp
  | some scalar =>
    obtain ⟨k, y⟩ := scalar
    by_cases hk : k = kind <;> simp [hk]

theorem mapM_eq_ok_iff {ε α β : Type} {f : α → Except ε β} {as : List α} {bs : List β} :
    as.mapM f = .ok bs ↔ List.Forall₂ (fun a b => f a = .ok b) as bs := by
  induction as generalizing bs with
  | nil => simp [pure, Except.pure, eq_comm]
  | cons a as ih =>
    simp only [List.mapM_cons, bind_eq_ok, ih, List.forall₂_cons_left_iff]
    constructor
    · rintro ⟨b, hb, bs, hbs, ⟨⟩⟩
      exact ⟨b, bs, hb, hbs, rfl⟩
    · rintro ⟨b, bs, hb, hbs, rfl⟩
      exact ⟨b, hb, bs, hbs, rfl⟩

/-- A list of scalars is no list of lists, and the first one tells their kind. -/
theorem Scalars.cases_head (h : Scalars kind items xs) (hne : items ≠ []) :
    vectorKind items = kind ∧ convertList items = vector items := by
  cases h with
  | nil => exact absurd rfl hne
  | @cons item x rest xs hitem _ =>
    refine ⟨by simp [vectorKind, hitem], ?_⟩
    rw [convertList]
    · exact hne
    · rintro row rest' ⟨⟩
      cases hitem

theorem vector_eq_ok_iff : vector items = .ok w ↔ ∃ kind xs, Scalars kind items xs ∧
    (2 ≤ items.length ∧ items.length ≤ 4) ∧ w = .vector (.of kind xs) := by
  simp only [vector, bind_eq_ok, mapM_eq_ok_iff, component_eq_ok_iff]
  constructor
  · rintro ⟨xs, hxs, h⟩
    rw [← hxs.length_eq] at h
    split at h
    · cases h
      exact ⟨_, xs, hxs, ‹_›, rfl⟩
    · cases h
  · rintro ⟨kind, xs, hxs, hsize, rfl⟩
    obtain ⟨hkind, -⟩ := hxs.cases_head (List.ne_nil_of_length_pos (by omega))
    refine ⟨xs, hkind ▸ hxs, ?_⟩
    rw [if_pos (hxs.length_eq ▸ hsize), hkind]
    rfl

theorem convertList_scalars (h : Scalars kind items xs) (htwo : 2 ≤ items.length)
    (hfour : items.length ≤ 4) : convertList items = .ok (.vector (.of kind xs)) := by
  rw [(h.cases_head (List.ne_nil_of_length_pos (by omega))).2, vector_eq_ok_iff]
  exact ⟨kind, xs, h, ⟨htwo, hfour⟩, rfl⟩

/-! ## Rows -/

theorem convertRow_of_length_ne (h : row.length ≠ 1) : convertRow row = convertList row := by
  rw [convertRow]
  rintro v rfl
  exact h rfl

/-- Rows become one value. -/
theorem convertList_rows (hne : items ≠ []) (h : convertRows items = .ok values) :
    convertList items = .ok (ofRows (isSquare items) values) := by
  cases items with
  | nil => exact absurd rfl hne
  | cons item rest =>
    cases item with
    | list row =>
      simp only [convertRows, bind_eq_ok] at h
      obtain ⟨first, hfirst, others, hothers, ⟨⟩⟩ := h
      rw [convertList, hfirst, hothers]
      rfl
    | _ =>
      rw [convertRows] at h
      · cases h
      · rintro _ ⟨⟩

theorem isSquare_iff : isSquare items = true ↔ 2 ≤ items.length ∧ items.length ≤ 4 ∧
    ∀ item ∈ items, ∃ row, item = .list row ∧ row.length = items.length := by
  simp only [isSquare, Bool.and_eq_true, decide_eq_true_eq, List.all_eq_true, and_assoc]
  refine and_congr_right fun _ => and_congr_right fun _ => forall₂_congr fun item _ => ?_
  cases item <;> simp

theorem floatComponents?_eq_some_iff :
    floatComponents? w = some column ↔ w = .vector (.ofFloats column) := by
  constructor
  · intro h
    cases w with
    | vector v =>
      obtain ⟨kind, xs⟩ := v
      cases kind with
      | float =>
        cases h
        exact congrArg (fun ys => Value.vector ⟨.float, ys⟩) (List.map_id xs).symm
      | _ => cases h
    | _ => cases h
  · rintro rfl
    exact congrArg some (List.map_id column)

theorem forall_mem_of_forall₂ {α β : Type} {R : α → β → Prop} {P : α → Prop} {as : List α}
    {bs : List β} (h : List.Forall₂ R as bs) (hP : ∀ a b, R a b → P a) : ∀ a ∈ as, P a :=
  ((List.forall₂_and_left _ _).mp (h.imp fun a b hab => And.intro (hP a b hab) hab)).1

namespace Grid

variable (h : Grid items columns)

include h

theorem ne_nil : items ≠ [] :=
  List.ne_nil_of_length_pos (Nat.lt_of_lt_of_le Nat.two_pos h.two_le)

theorem length_columns : ∀ column ∈ columns, column.length = items.length := by
  refine forall_mem_of_forall₂ h.rows.flip ?_
  rintro column _ ⟨row, rfl, hlength, hscalars⟩
  exact hscalars.length_eq.symm.trans hlength

theorem convertRows_eq :
    convertRows items = .ok (columns.map fun column => .vector (.ofFloats column)) := by
  obtain ⟨htwo, hfour, hrows⟩ := h
  generalize items.length = n at htwo hfour hrows
  induction hrows with
  | nil => rw [convertRows, List.map_nil]
  | cons hrow _ ih =>
    obtain ⟨row, rfl, hlength, hscalars⟩ := hrow
    rw [convertRows, convertRow_of_length_ne (by omega),
      convertList_scalars hscalars (by omega) (by omega), ih]
    rfl

theorem ofRows_eq : ofRows (isSquare items) (columns.map fun column => .vector (.ofFloats column)) =
    .matrix ⟨items.length, columns.flatten⟩ := by
  have hsquare : isSquare items = true := by
    refine isSquare_iff.mpr ⟨h.two_le, h.le_four, forall_mem_of_forall₂ h.rows ?_⟩
    rintro _ column ⟨row, rfl, hlength, -⟩
    exact ⟨row, rfl, hlength⟩
  have hcolumns : (columns.map fun column => Value.vector (.ofFloats column)).mapM
      floatComponents? = some columns := by
    rw [mapM_eq_some_iff, List.forall₂_map_left_iff]
    exact List.forall₂_same.mpr fun column _ => floatComponents?_eq_some_iff.mpr rfl
  have hfull : columns.flatten.length = items.length * items.length := by
    rw [length_flatten_of_forall h.length_columns, ← h.rows.length_eq]
  rw [hsquare]
  unfold ofRows
  rw [hcolumns]
  simp only [Mat.of, List.length_map, ← h.rows.length_eq, hfull, Nat.sub_self, List.replicate_zero,
    List.append_nil, List.take_of_length_le (Nat.le_of_eq hfull)]

end Grid

/-- Only lists of numbers stand for vectors of floats. -/
theorem Denotes.scalars (h : Denotes (.list row) (.vector (.ofFloats column))) :
    Scalars .float row column := by
  generalize hv : Vec.ofFloats column = v at h
  cases h with
  | @vector kind _ xs h _ _ =>
    cases kind with
    | float =>
      have hxs : column.map id = xs.map id := congrArg Vec.components hv
      rw [List.map_id, List.map_id] at hxs
      rwa [hxs]
    | _ => cases congrArg Vec.kind hv

/-- Long rows that stand for vectors of floats are rows of a grid. -/
theorem RowsDenote.gridRows (hn : 2 ≤ n)
    (h : RowsDenote items (columns.map fun column => .vector (.ofFloats column)))
    (hrows : ∀ item ∈ items, ∃ row, item = .list row ∧ row.length = n) :
    List.Forall₂ (GridRow n) items columns := by
  induction columns generalizing items with
  | nil =>
    cases h
    exact .nil
  | cons column columns ih =>
    cases h with
    | one h hrest =>
      obtain ⟨_, ⟨⟩, hlength⟩ := hrows _ List.mem_cons_self
      exact absurd hlength (Nat.ne_of_lt hn)
    | row hone h hrest =>
      obtain ⟨⟨_, ⟨⟩, hlength⟩, hrows⟩ := List.forall_mem_cons.mp hrows
      exact .cons ⟨_, rfl, hlength, h.scalars⟩ (ih hrest hrows)

theorem RowsDenote.ofRows_eq (h : RowsDenote items values)
    (hgrid : ∀ columns, ¬ Grid items columns) : ofRows (isSquare items) values = .array values := by
  rw [ofRows]
  intro columns hsquare hcolumns
  obtain ⟨htwo, hfour, hrows⟩ := isSquare_iff.mp hsquare
  simp only [mapM_eq_some_iff, floatComponents?_eq_some_iff] at hcolumns
  rw [← List.forall₂_map_right_iff, List.forall₂_eq_eq_eq] at hcolumns
  subst hcolumns
  exact hgrid columns ⟨htwo, hfour, h.gridRows htwo hrows⟩

/-! ## Conversion -/

mutual

theorem Denotes.convert_eq {v : Toml.Value} {w : Value} (h : Denotes v w) : convert v = .ok w := by
  cases h with
  | bool b => rw [convert]
  | number h =>
    cases v with
    | integer i | float x =>
      cases h
      rw [convert]
    | _ => cases h
  | vector h htwo hfour => rw [convert, convertList_scalars h htwo hfour]
  | matrix h => rw [convert, convertList_rows h.ne_nil h.convertRows_eq, h.ofRows_eq]
  | array hne hgrid h => rw [convert, convertList_rows hne h.convertRows_eq, h.ofRows_eq hgrid]

theorem RowsDenote.convertRows_eq {items : List Toml.Value} {values : List Value}
    (h : RowsDenote items values) : convertRows items = .ok values := by
  cases h with
  | nil => rw [convertRows]
  | one h hrest =>
    rw [convertRows, convertRow, h.convert_eq, hrest.convertRows_eq]
    rfl
  | row hone h hrest =>
    have hrow := h.convert_eq
    rw [convert] at hrow
    rw [convertRows, convertRow_of_length_ne hone, hrow, hrest.convertRows_eq]
    rfl

end

theorem denotes_of_convert :
    (∀ v w, convert v = .ok w → Denotes v w) ∧
    (∀ items w, convertList items = .ok w → Denotes (.list items) w) ∧
    (∀ items values, convertRows items = .ok values → RowsDenote items values) ∧
    ∀ row w, convertRow row = .ok w → ∀ rest values, RowsDenote rest values →
      RowsDenote (.list row :: rest) (w :: values) := by
  refine convert.mutual_induct _ _ _ _ ?bool ?integer ?float ?list ?table ?tables ?other ?empty
    ?rows ?scalars ?noRows ?moreRows ?notRow ?one ?row
  case bool =>
    intro b w h
    rw [convert] at h
    exact Except.ok.inj h ▸ .bool b
  case integer | float =>
    intro x w h
    rw [convert] at h
    exact Except.ok.inj h ▸ .number rfl
  case list =>
    intro items ih w h
    rw [convert] at h
    exact ih w h
  case rows =>
    intro row rest ihrow ihrest w h
    simp only [convertList, bind_eq_ok] at h
    obtain ⟨first, hfirst, others, hothers, ⟨⟩⟩ := h
    have hrows := ihrow first hfirst rest others (ihrest others hothers)
    by_cases hgrid : ∃ columns, Grid (.list row :: rest) columns
    · obtain ⟨columns, hgrid⟩ := hgrid
      rw [Except.ok.inj (hrows.convertRows_eq.symm.trans hgrid.convertRows_eq), hgrid.ofRows_eq]
      exact .matrix hgrid
    · rw [hrows.ofRows_eq (not_exists.mp hgrid)]
      exact .array (List.cons_ne_nil _ _) (not_exists.mp hgrid) hrows
  case scalars =>
    intro items hne hlist w h
    rw [convertList, vector_eq_ok_iff] at h
    · obtain ⟨kind, xs, hxs, ⟨htwo, hfour⟩, rfl⟩ := h
      exact .vector hxs htwo hfour
    all_goals assumption
  case noRows =>
    intro values h
    rw [convertRows] at h
    exact Except.ok.inj h ▸ .nil
  case moreRows =>
    intro row rest ihrow ihrest values h
    simp only [convertRows, bind_eq_ok] at h
    obtain ⟨first, hfirst, others, hothers, ⟨⟩⟩ := h
    exact ihrow first hfirst rest others (ihrest others hothers)
  case one =>
    intro v ih w h rest values hrest
    rw [convertRow] at h
    exact .one (ih w h) hrest
  case row =>
    intro row hone ih w h rest values hrest
    rw [convertRow] at h
    · refine .row (fun hlength => ?_) (ih w h) hrest
      obtain ⟨v, rfl⟩ := List.length_eq_one_iff.mp hlength
      exact hone v rfl
    · assumption
  -- Everything else is refused.
  case table | tables | other | empty | notRow =>
    intros
    simp_all [convert, convertList, convertRows]

theorem convert_eq_ok_iff {v : Toml.Value} : convert v = .ok w ↔ Denotes v w :=
  ⟨denotes_of_convert.1 v w, Denotes.convert_eq⟩

/-! ## Columns -/

/-- Entries that stand column by column are cut into these columns. -/
theorem columns_flatten {n : Nat} {columns : List (List Float)} (hcount : columns.length = n)
    (hlength : ∀ column ∈ columns, column.length = n) :
    (Mat.mk n columns.flatten).columns = columns.map .ofFloats := by
  have hcut : ∀ (i : Nat) (hi : i < columns.length),
      (columns.flatten.drop (i * n)).take n = columns[i] := by
    clear hcount
    intro i hi
    induction columns generalizing i with
    | nil => simp at hi
    | cons column columns ih =>
      have hcolumn := hlength column List.mem_cons_self
      -- Behind the first column stand the entries of all others.
      cases i with
      | zero => simp [← hcolumn]
      | succ i =>
        have hdrop : (i + 1) * n = column.length + i * n := by
          rw [hcolumn, Nat.add_mul, Nat.one_mul, Nat.add_comm]
        rw [List.flatten_cons, hdrop, ← List.drop_drop, List.drop_left]
        exact ih (fun c hc => hlength c (List.mem_cons_of_mem _ hc)) i (Nat.lt_of_succ_lt_succ hi)
  refine List.ext_getElem (by simp [Mat.columns, hcount]) fun i hi _ => ?_
  simp only [Mat.columns, List.getElem_map, List.getElem_range]
  exact congrArg _ (hcut i _)

/-! ## Flaws -/

/-- What a list must not mix. -/
inductive ItemClass
  | boolean
  | number
  | list
  | other
  deriving DecidableEq

/-- The class of a TOML value. -/
def itemClass : Toml.Value → ItemClass
  | .bool _ => .boolean
  | .integer _ | .float _ => .number
  | .list _ => .list
  | _ => .other

/-- A part that keeps a value from being converted: an empty list, a mixed one, or something that is
neither a scalar nor a list. -/
def Flaw : Toml.Value → Prop
  | .list items => items = [] ∨ ∃ a ∈ items, ∃ b ∈ items, itemClass a ≠ itemClass b
  | v => itemClass v = .other

/-- A value, what stands in it if it is a list, what stands in that, and so on. -/
inductive Part (p : Toml.Value) : Toml.Value → Prop
  | here : Part p p
  | inside {item : Toml.Value} {items : List Toml.Value} (hitem : item ∈ items)
      (h : Part p item) : Part p (.list items)

/-- A value of some class without a flaw in it. -/
def Sound (c : ItemClass) (v : Toml.Value) : Prop :=
  itemClass v = c ∧ ∀ p, Part p v → ¬ Flaw p

/-- A list of one class is as sound as its items. -/
theorem sound_list {items : List Toml.Value} {c : ItemClass} (hne : items ≠ [])
    (h : ∀ item ∈ items, Sound c item) : Sound .list (.list items) := by
  refine ⟨rfl, fun p hp => ?_⟩
  cases hp with
  | here =>
    rintro (hnil | ⟨a, ha, b, hb, hab⟩)
    · exact hne hnil
    · exact hab ((h a ha).1.trans (h b hb).1.symm)
  | inside hitem hp => exact (h _ hitem).2 p hp

theorem sound_scalar {v : Toml.Value} {x : Float} (h : scalar? v = some (kind, x)) :
    Sound (if kind = .float then .number else .boolean) v := by
  cases v with
  | integer i | float y | bool b =>
    cases h
    refine ⟨rfl, fun p hp => ?_⟩
    cases hp
    rintro ⟨⟩
  | _ => cases h

theorem sound_scalars (h : Scalars kind items xs) (htwo : 2 ≤ items.length) :
    Sound .list (.list items) :=
  sound_list (List.ne_nil_of_length_pos (by omega)) (forall_mem_of_forall₂ h fun _ _ => sound_scalar)

mutual

/-- What stands for a value has no flaw in it. -/
theorem Denotes.sound {v : Toml.Value} {w : Value} (h : Denotes v w) : Sound (itemClass v) v := by
  cases h with
  | bool b => exact @sound_scalar .bool (.bool b) _ rfl
  | number h =>
    have hsound := sound_scalar h
    rwa [hsound.1]
  | vector h htwo _ => exact sound_scalars h htwo
  | matrix h =>
    have htwo := h.two_le
    refine sound_list (c := .list) h.ne_nil (forall_mem_of_forall₂ h.rows ?_)
    rintro _ column ⟨row, rfl, hlength, hscalars⟩
    exact sound_scalars hscalars (by omega)
  | array hne hgrid h => exact sound_list hne h.sound

theorem RowsDenote.sound {items : List Toml.Value} {values : List Value}
    (h : RowsDenote items values) : ∀ item ∈ items, Sound .list item := by
  cases h with
  | nil => exact fun _ hitem => absurd hitem List.not_mem_nil
  | one h hrest =>
    refine List.forall_mem_cons.mpr ⟨?_, hrest.sound⟩
    exact sound_list (List.cons_ne_nil _ _) (List.forall_mem_singleton.mpr h.sound)
  | row hone h hrest => exact List.forall_mem_cons.mpr ⟨h.sound, hrest.sound⟩

end

/-! ## Files -/

variable {read? : List UInt8 → Option Toml.Document}

/-- A file holds a TOML document. -/
def Holds (read? : List UInt8 → Option Toml.Document) (tree : FileTree) (path : String)
    (document : Toml.Document) : Prop :=
  ∃ bytes, tree.read path = .ok bytes ∧ read? bytes = some document

theorem convertEntry_eq_ok_iff {path : String} {entry : String × Toml.Value}
    {global : String × Value} : convertEntry path entry = .ok global ↔
      global.1 = entry.1 ∧ Denotes entry.2 global.2 := by
  rw [← convert_eq_ok_iff, convertEntry]
  split <;> rename_i h <;> rw [h] <;> simp [Prod.ext_iff, eq_comm]

/-- What is loaded from a file depends on the document that it holds. -/
theorem loadBy_eq_ok_iff {tree : FileTree} {path : String} {globals : List (String × Value)} :
    loadBy read? tree path = .ok globals ↔ ∃ document, Holds read? tree path document ∧
      List.Forall₂ (fun entry global => global.1 = entry.1 ∧ Denotes entry.2 global.2)
        (sortedEntries (tableOf document)) globals := by
  simp only [← @convertEntry_eq_ok_iff path, ← mapM_eq_ok_iff, Holds, loadBy]
  cases tree.read path with
  | error e => simp
  | ok bytes => cases hdocument : read? bytes <;> simp [hdocument]

/-- **A file of globals only yields values that its entries stand for.**  However TOML is read, the
file is loaded if each entry stands for a value, and then each global has that value.  `n` rows of
`n` numbers become a matrix whose columns are the rows.  If any part of any entry is empty, mixed or
of another type, nothing is loaded. -/
theorem load_well_formed (read? : List UInt8 → Option Toml.Document) (tree : FileTree)
    (path : String) :
    (∀ globals, loadBy read? tree path = .ok globals ↔ ∃ document, Holds read? tree path document ∧
      List.Forall₂ (fun entry global => global.1 = entry.1 ∧ Denotes entry.2 global.2)
        (sortedEntries (tableOf document)) globals) ∧
    (∀ items columns, Grid items columns → ∃ m : Mat, convert (.list items) = .ok (.matrix m) ∧
      m.size = items.length ∧ m.columns = columns.map .ofFloats) ∧
    ∀ document, Holds read? tree path document → ∀ entry ∈ tableOf document, ∀ p, Part p entry.2 →
      Flaw p → ∃ e, loadBy read? tree path = .error e := by
  refine ⟨fun globals => loadBy_eq_ok_iff, fun items columns hgrid => ?_, ?_⟩
  · exact ⟨_, Denotes.convert_eq (.matrix hgrid), rfl,
      columns_flatten hgrid.rows.length_eq.symm hgrid.length_columns⟩
  · rintro document ⟨bytes, hread, hdocument⟩ entry hentry p hp hflaw
    cases hload : loadBy read? tree path with
    | error e => exact ⟨e, rfl⟩
    | ok globals =>
      obtain ⟨found, ⟨bytes', hread', hfound⟩, hglobals⟩ := loadBy_eq_ok_iff.mp hload
      -- A file holds one document, so it is the one that was loaded.
      cases hread.symm.trans hread'
      cases hdocument.symm.trans hfound
      have hsound := forall_mem_of_forall₂ hglobals (fun _ _ hdenotes => hdenotes.2.sound) entry
        (List.mem_mergeSort.mpr hentry)
      exact absurd hflaw (hsound.2 p hp)

/-- A file with a vector, a matrix and an array of numbers. -/
def mixedFile : FileTree where
  entries := [(["g.toml"], .file (Text.bytesOf
    "v = [1, 2]\nm = [[1, 2], [3, 4]]\na = [[1], [2], [3]]\n"))]

/-- What the file holds. -/
def mixedDocument : Toml.Document where
  root := [("v", .list [.integer 1, .integer 2]),
    ("m", .list [.list [.integer 1, .integer 2], .list [.integer 3, .integer 4]]),
    ("a", .list [.list [.integer 1], .list [.integer 2], .list [.integer 3]])]
  keys := [["v"], ["m"], ["a"]]

/-- Two rows of two are a matrix; three rows of one are an array. -/
theorem load_well_formed_mixed : load mixedFile "g.toml" =
    .ok [("a", .array [.number 1, .number 2, .number 3]), ("m", .matrix ⟨2, [1, 2, 3, 4]⟩),
      ("v", .vector (.of .float [1, 2]))] := by
  refine ((load_well_formed Toml.read? mixedFile "g.toml").1 _).mpr
    ⟨mixedDocument, ⟨_, rfl, by cbv⟩, ?_⟩
  have hsorted : sortedEntries (tableOf mixedDocument) =
      [("a", .list [.list [.integer 1], .list [.integer 2], .list [.integer 3]]),
       ("m", .list [.list [.integer 1, .integer 2], .list [.integer 3, .integer 4]]),
       ("v", .list [.integer 1, .integer 2])] := by cbv
  have hnumber : ∀ i : Int, Denotes (.integer i) (.number (.ofInt i)) := fun i => .number rfl
  have hpair : ∀ i j : Int, Scalars .float [.integer i, .integer j] [.ofInt i, .ofInt j] :=
    fun i j => .cons rfl (.cons rfl .nil)
  have harray : Denotes (.list [.list [.integer 1], .list [.integer 2], .list [.integer 3]])
      (.array [.number (.ofInt 1), .number (.ofInt 2), .number (.ofInt 3)]) := by
    refine .array (List.cons_ne_nil _ _) (fun columns hgrid => ?_)
      (.one (hnumber 1) (.one (hnumber 2) (.one (hnumber 3) .nil)))
    -- Three rows of a matrix have three numbers each.
    cases hgrid.rows with
    | cons hrow _ =>
      obtain ⟨row, hrow, hlength, -⟩ := hrow
      cases hrow
      cases hlength
  have hgrid : Grid [.list [.integer 1, .integer 2], .list [.integer 3, .integer 4]]
      [[.ofInt 1, .ofInt 2], [.ofInt 3, .ofInt 4]] :=
    ⟨by decide, by decide, .cons ⟨_, rfl, rfl, hpair 1 2⟩ (.cons ⟨_, rfl, rfl, hpair 3 4⟩ .nil)⟩
  rw [hsorted]
  exact .cons ⟨rfl, harray⟩ (.cons ⟨rfl, .matrix hgrid⟩
    (.cons ⟨rfl, .vector (hpair 1 2) (by decide) (by decide)⟩ .nil))

end ShaderScript.Globals
