import ShaderScript.Proofs.ClosedCatalog

/-!
# Reading and replacing parts of values

`get` and `set` obey the laws of a lens along every path of selectors (`lens_laws`):

* what is put is what is got, brought to the component kind of the place;
* putting back what was got changes nothing, unless a selection repeats a component;
* the last of two puts wins, in its result as in its failure.

Each law is proved for one selector first (`getOne_setOne`, `setOne_getOne`, `setOne_setOne`), and
then by induction along the path.
-/

namespace ShaderScript

variable {places seen : List Nat} {value selector r base part next : Value} {v : Vec}
  {source xs components : List Float} {size : Nat} {name selection set : String}
  {kind : ComponentKind} {letters : List Char}

/-! ## Conversion to a component kind -/

/-- A number as a value of a component kind. -/
def ComponentKind.scalar (kind : ComponentKind) (x : Float) : Value :=
  match kind with
  | .bool => .bool (x != 0)
  | _ => .number (kind.normalize x)

/-- One component is a scalar, several are a vector. -/
def ComponentKind.pack (kind : ComponentKind) : List Float → Value
  | [x] => kind.scalar x
  | xs => .vector (.of kind xs)

/-- A value brought to a component kind: a scalar, or every component of a vector. -/
def Value.toKind (kind : ComponentKind) (a : Value) : Value :=
  match a with
  | .vector v => kind.pack v.components
  | _ =>
    match a.scalar? with
    | some x => kind.scalar x
    | none => a

/-- The component kind of the parts of a value; the elements of an array have none. -/
def partKind : Value → Option ComponentKind
  | .vector v => some v.kind
  | .matrix _ => some .float
  | _ => none

/-- The component kind of the place at the end of a path. -/
def addressedKind (base : Value) : List Value → Option ComponentKind
  | [] => none
  | [_] => partKind base
  | selector :: next :: rest =>
    match getOne base selector with
    | .ok part => addressedKind part (next :: rest)
    | .error _ => none

/-- A value as a place of a kind holds it; a place without a kind holds it as it is. -/
def Value.fit (kind : Option ComponentKind) (v : Value) : Value :=
  match kind with
  | some kind => v.toKind kind
  | none => v

theorem pack_of_two_le (h : 2 ≤ xs.length) : kind.pack xs = .vector (.of kind xs) := by
  rcases xs with _ | ⟨x, _ | ⟨y, rest⟩⟩
  · rfl
  · simp at h
  · rfl

/-- Components that are packed need not be brought to the kind before. -/
theorem pack_map_normalize (kind : ComponentKind) (xs : List Float) :
    kind.pack (xs.map kind.normalize) = kind.pack xs := by
  have hof : ∀ ys : List Float, Vec.of kind (ys.map kind.normalize) = Vec.of kind ys := by
    intro ys
    simp [Vec.of]
  rcases xs with _ | ⟨x, _ | ⟨y, rest⟩⟩
  · rfl
  · cases kind with
    | float => rfl
    | int => simp [ComponentKind.pack, ComponentKind.scalar]
    | bool => simp [ComponentKind.pack, ComponentKind.scalar, ComponentKind.normalize_bool_bne_zero]
  · exact congrArg Value.vector (hof (x :: y :: rest))

/-- A vector that has the kind already stays as it is. -/
theorem toKind_vector (hv : v.WellFormed) : (Value.vector v).toKind v.kind = .vector v := by
  rw [Value.toKind, pack_of_two_le hv.two_le, Vec.of, hv.map_normalize]

/-! ## Components -/

/-- Storing into several different places: what is read back is what was stored, all else is as
before. -/
structure Stored (kind : ComponentKind) (places : List Nat) (source components xs : List Float) :
    Prop where
  length_eq : xs.length = components.length
  inside : collect (fetch xs) places = .ok (source.map kind.normalize)
  outside : ∀ j, j ∉ places → xs[j]? = components[j]?

/-- What several places hold, from reading them together. -/
theorem getElem?_eq_of_collect_fetch {ys : List Float} {zs : List Float}
    (hxs : collect (fetch xs) places = .ok zs) (hys : collect (fetch ys) places = .ok zs) :
    ∀ i ∈ places, xs[i]? = ys[i]? := by
  intro i hi
  have hfetch : fetch xs i = fetch ys i :=
    List.map_inj_left.mp ((collect_eq_ok_iff.mp hxs).trans (collect_eq_ok_iff.mp hys).symm) i hi
  unfold fetch at hfetch
  split at hfetch <;> split at hfetch <;> simp_all

theorem storeAll_stored (hnodup : places.Nodup) (hsource : source.length = places.length)
    (h : storeAll kind places source components = .ok xs) :
    Stored kind places source components xs := by
  induction places generalizing source components with
  | nil =>
    cases h
    cases source with
    | nil => exact ⟨rfl, rfl, fun _ _ => rfl⟩
    | cons y source => simp at hsource
  | cons i places ih =>
    cases source with
    | nil => simp at hsource
    | cons y source =>
      rw [storeAll, bind_eq_ok] at h
      obtain ⟨ys, hys, h⟩ := h
      rw [List.nodup_cons] at hnodup
      have hrest := ih hnodup.2 (by simpa using hsource) h
      unfold store at hys
      split at hys
      · rename_i hi
        cases hys
        -- The places are different, so nothing is stored at `i` a second time.
        have hread : xs[i]? = some (kind.normalize y) := by
          rw [hrest.outside i hnodup.1, List.getElem?_set_self hi]
        refine ⟨hrest.length_eq.trans List.length_set, ?_, fun j hj => ?_⟩
        · rw [collect, fetch, hread, hrest.inside]
          rfl
        · simp only [List.mem_cons, not_or] at hj
          rw [hrest.outside j hj.2, List.getElem?_set_ne (Ne.symm hj.1)]
      · cases hys

/-- Storing succeeds if there is something for every place and all the places are there. -/
theorem exists_storeAll (kind : ComponentKind) (hsource : source.length = places.length)
    (hplaces : ∀ i ∈ places, i < components.length) :
    ∃ xs, storeAll kind places source components = .ok xs := by
  induction places generalizing source components with
  | nil => exact ⟨components, rfl⟩
  | cons i places ih =>
    cases source with
    | nil => simp at hsource
    | cons y source =>
      rw [storeAll, store_eq_ok _ (hplaces i List.mem_cons_self)]
      refine ih (by simpa using hsource) fun j hj => ?_
      rw [List.length_set]
      exact hplaces j (List.mem_cons_of_mem i hj)

/-- Storing what the places hold already changes nothing. -/
theorem storeAll_self (hnormal : ∀ x ∈ components, kind.normalize x = x)
    (h : collect (fetch components) places = .ok source) :
    storeAll kind places source components = .ok components := by
  induction places generalizing source with
  | nil => rfl
  | cons i places ih =>
    simp only [collect, bind_eq_ok] at h
    obtain ⟨x, hx, xs, hxs, hsource⟩ := h
    cases hsource
    unfold fetch at hx
    split at hx
    · rename_i y hy
      cases hx
      obtain ⟨hi, rfl⟩ := List.getElem?_eq_some_iff.mp hy
      rw [storeAll, hnormal _ (List.getElem_mem hi), store_eq_ok _ hi, List.set_getElem_self]
      exact ih hxs
    · cases hx

/-! ## The places that a selector picks -/

/-- The components that a selector picks from a vector of `size` components. -/
def selectorPlaces (name : String) (unique : Bool) (size : Nat) (selector : Value) :
    Outcome (List Nat) :=
  match selector with
  | .text field => selectionIndices name field size unique
  | _ => do return [← selectorIndex name selector size]

theorem getOne_vector (v : Vec) (selector : Value) :
    getOne (.vector v) selector =
      (do pickComponents v (← selectorPlaces "get" false v.size selector)) := by
  cases selector <;> simp [getOne, selectorPlaces, pickComponents]

theorem setOne_vector (v : Vec) (selector value : Value) :
    setOne (.vector v) selector value = do
      let places ← selectorPlaces "set" true v.size selector
      let source ← sourceComponents value places.length
      return .vector (← replaceComponents v places source) := by
  cases selector <;> simp [setOne, selectorPlaces]

/-- The places picked with `unique` are all different, and none was seen before. -/
theorem nodup_selectionPlaces
    (h : selectionPlaces name selection set size true letters seen = .ok places) :
    places.Nodup ∧ ∀ i ∈ places, i ∉ seen := by
  induction letters generalizing seen places with
  | nil =>
    cases h
    exact ⟨List.nodup_nil, fun i hi => absurd hi List.not_mem_nil⟩
  | cons c letters ih =>
    rw [selectionPlaces] at h
    split at h
    · cases h
    · rename_i k _
      split at h
      · cases h
      · split at h
        · cases h
        · rename_i hseen
          -- The letter was kept, so its place is new.
          obtain ⟨rest, hrest, hplaces⟩ := bind_eq_ok.mp h
          cases hplaces
          obtain ⟨hnodup, hnew⟩ := ih hrest
          refine ⟨List.nodup_cons.mpr ⟨fun hk => hnew k hk List.mem_cons_self, hnodup⟩, ?_⟩
          intro i hi
          cases hi with
          | head => simpa using hseen
          | tail _ hi => exact fun hmem => hnew i hi (List.mem_cons_of_mem k hmem)

/-- Places that can be picked with `unique` can be picked without, whoever asks. -/
theorem selectionPlaces_of_unique (name' : String)
    (h : selectionPlaces name selection set size true letters seen = .ok places) :
    selectionPlaces name' selection set size false letters seen = .ok places := by
  induction letters generalizing seen places with
  | nil => exact h
  | cons c letters ih =>
    rw [selectionPlaces] at h ⊢
    split at h
    · cases h
    · split at h
      · cases h
      · rename_i hsize
        split at h
        · cases h
        · obtain ⟨rest, hrest, hplaces⟩ := bind_eq_ok.mp h
          simp only [if_neg hsize, Bool.false_and, Bool.false_eq_true, if_false, ih hrest]
          exact hplaces

/-- Different letters pick different places, so they can be picked with `unique`. -/
theorem selectionPlaces_unique (name' : String) (hnodup : letters.Nodup)
    (hseen : ∀ c ∈ letters, ∀ k, set.toList.findIdx? (· == c) = some k → k ∉ seen)
    (h : selectionPlaces name selection set size false letters seen = .ok places) :
    selectionPlaces name' selection set size true letters seen = .ok places := by
  induction letters generalizing seen places with
  | nil => exact h
  | cons c letters ih =>
    rw [selectionPlaces] at h ⊢
    rw [List.nodup_cons] at hnodup
    split at h
    · cases h
    · rename_i k hk
      split at h
      · cases h
      · rename_i hsize
        simp only [Bool.false_and, Bool.false_eq_true, if_false] at h
        obtain ⟨rest, hrest, hplaces⟩ := bind_eq_ok.mp h
        have hnew : seen.contains k = false := by
          simpa using hseen c List.mem_cons_self k hk
        have hothers : ∀ d ∈ letters, ∀ j, set.toList.findIdx? (· == d) = some j →
            j ∉ k :: seen := by
          intro d hd j hj hmem
          rcases List.mem_cons.mp hmem with rfl | hmem
          · -- one place holds one letter
            obtain ⟨hlt, hc, _⟩ := List.findIdx?_eq_some_iff_getElem.mp hk
            obtain ⟨_, hd', _⟩ := List.findIdx?_eq_some_iff_getElem.mp hj
            have heq : c = d := (eq_of_beq hc).symm.trans (eq_of_beq hd')
            exact hnodup.1 (heq ▸ hd)
          · exact hseen d (List.mem_cons_of_mem c hd) j hj hmem
        simp only [if_neg hsize, hnew, Bool.and_false, Bool.false_eq_true, if_false,
          ih hnodup.2 hothers hrest]
        exact hplaces

theorem selectorIndex_eq_ok (name' : String) {i : Nat}
    (h : selectorIndex name selector size = .ok i) : selectorIndex name' selector size = .ok i := by
  unfold selectorIndex at h ⊢
  split at h
  · exact nomatch h
  · split at h
    · split at h
      · rename_i hbounds
        simp only [if_pos hbounds]
        exact h
      · exact nomatch h
    · exact nomatch h

/-- Places to put to are different, inside the vector, and the places to get from. -/
theorem selectorPlaces_set (h : selectorPlaces "set" true size selector = .ok places) :
    places.Nodup ∧ selectorPlaces "get" false size selector = .ok places := by
  unfold selectorPlaces at h ⊢
  split at h
  · unfold selectionIndices at h ⊢
    split at h
    · exact nomatch h
    · rename_i hbytes
      rw [if_neg hbytes]
      split at h
      · exact nomatch h
      · split at h
        · exact nomatch h
        · exact ⟨(nodup_selectionPlaces h).1, selectionPlaces_of_unique "get" h⟩
  · obtain ⟨i, hi, hplaces⟩ := bind_eq_ok.mp h
    cases hplaces
    refine ⟨by simp, ?_⟩
    simp only [selectorIndex_eq_ok "get" hi]
    rfl

/-- Places that are got without repetition can be put to. -/
theorem selectorPlaces_get (hunique : ∀ field, selector = .text field → field.toList.Nodup)
    (h : selectorPlaces "get" false size selector = .ok places) :
    selectorPlaces "set" true size selector = .ok places := by
  unfold selectorPlaces at h ⊢
  split at h
  · rename_i field
    have hnodup := hunique field rfl
    unfold selectionIndices at h ⊢
    split at h
    · exact nomatch h
    · rename_i hbytes
      rw [if_neg hbytes]
      split at h
      · exact nomatch h
      · split at h
        · exact nomatch h
        · exact selectionPlaces_unique "set" hnodup (fun _ _ _ _ => List.not_mem_nil) h
  · obtain ⟨i, hi, hplaces⟩ := bind_eq_ok.mp h
    cases hplaces
    simp only [selectorIndex_eq_ok "set" hi]
    rfl

/-! ## One selector into a vector -/

/-- The kind and the size of a vector stay when components are replaced. -/
theorem replaceComponents_stored {w : Vec} (hv : v.WellFormed) (hnodup : places.Nodup)
    (hsource : source.length = places.length) (h : replaceComponents v places source = .ok w) :
    w.kind = v.kind ∧ Stored v.kind places source v.components w.components := by
  rw [replaceComponents, Vec.of, hv.map_normalize, bind_eq_ok] at h
  obtain ⟨xs, hxs, hw⟩ := h
  cases hw
  exact ⟨rfl, storeAll_stored hnodup hsource hxs⟩

theorem length_sourceComponents {source : Value} {count : Nat}
    (h : sourceComponents source count = .ok xs) : xs.length = count :=
  (safe_sourceComponents source count).of_ok h

theorem toKind_of_scalar? (kind : ComponentKind) {a : Value} {x : Float} (h : a.scalar? = some x) :
    a.toKind kind = kind.scalar x := by
  cases a with
  | vector v => exact nomatch h
  | _ => simp only [Value.toKind, h]

/-- What a value gives to several places, packed, is the value brought to the kind. -/
theorem toKind_of_sourceComponents {count : Nat} (kind : ComponentKind)
    (h : sourceComponents value count = .ok source) : value.toKind kind = kind.pack source := by
  unfold sourceComponents at h
  split at h
  · split at h
    · cases h
      rfl
    · exact nomatch h
  · split at h
    · rename_i x hx
      split at h
      · cases h
        exact toKind_of_scalar? kind hx
      · exact nomatch h
    · exact nomatch h

/-- Packed components give themselves to as many places. -/
theorem sourceComponents_pack (kind : ComponentKind) (xs : List Float) :
    sourceComponents (kind.pack xs) xs.length = .ok (xs.map kind.normalize) := by
  have hvector : ∀ ys : List Float,
      sourceComponents (.vector (.of kind ys)) ys.length = .ok (ys.map kind.normalize) := by
    intro ys
    simp [sourceComponents, Vec.size, Vec.of]
  rcases xs with _ | ⟨x, _ | ⟨y, rest⟩⟩
  · exact hvector []
  · cases kind <;> simp [ComponentKind.pack, ComponentKind.scalar, sourceComponents,
      Value.scalar?, ComponentKind.normalize]
  · exact hvector (x :: y :: rest)

/-- Components that are picked are packed. -/
theorem pickComponents_eq_pack (hnormal : ∀ x ∈ xs, v.kind.normalize x = x)
    (h : collect (fetch v.components) places = .ok xs) :
    pickComponents v places = .ok (v.kind.pack xs) := by
  have hlength := length_of_collect h
  unfold pickComponents
  split
  · rename_i i
    obtain ⟨x, rfl⟩ := List.length_eq_one_iff.mp hlength
    obtain ⟨y, hy, hrest⟩ := bind_eq_ok.mp h
    cases hrest
    have hx : v.kind.normalize x = x := hnormal x List.mem_cons_self
    rw [Value.component, hy]
    cases hkind : v.kind <;> rw [hkind] at hx <;>
      simp [ComponentKind.pack, ComponentKind.scalar, hx, bind, Except.bind, pure, Except.pure]
  · rename_i hnot
    have hpack : v.kind.pack xs = .vector (.of v.kind xs) := by
      rcases xs with _ | ⟨x, _ | ⟨y, rest⟩⟩
      · rfl
      · obtain ⟨i, hi⟩ := List.length_eq_one_iff.mp hlength.symm
        exact absurd hi (hnot i)
      · rfl
    rw [h, hpack]
    rfl

/-- Picking succeeds only if all the places are there. -/
theorem collect_of_pickComponents (h : pickComponents v places = .ok part) :
    ∃ xs, collect (fetch v.components) places = .ok xs := by
  unfold pickComponents at h
  split at h
  · obtain ⟨x, hx, _⟩ := bind_eq_ok.mp h
    refine ⟨[x], ?_⟩
    simp only [collect, hx]
    rfl
  · obtain ⟨xs, hxs, _⟩ := bind_eq_ok.mp h
    exact ⟨xs, hxs⟩

/-- What is put into components is got from them, in their kind. -/
theorem pickComponents_replaceComponents {w : Vec} (hv : v.WellFormed) (hnodup : places.Nodup)
    (hsource : sourceComponents value places.length = .ok source)
    (h : replaceComponents v places source = .ok w) :
    pickComponents w places = .ok (value.toKind v.kind) := by
  obtain ⟨hkind, hstored⟩ := replaceComponents_stored hv hnodup (length_sourceComponents hsource) h
  have hpick := pickComponents_eq_pack (v := w) (fun x hx => ?_) hstored.inside
  · rw [hpick, hkind, pack_map_normalize, toKind_of_sourceComponents v.kind hsource]
  · obtain ⟨y, _, rfl⟩ := List.mem_map.mp hx
    rw [hkind, ComponentKind.normalize_normalize]

/-- Components that are got can be put back, and nothing changes. -/
theorem replaceComponents_pickComponents (hv : v.WellFormed)
    (h : pickComponents v places = .ok part) :
    ∃ source, sourceComponents part places.length = .ok source ∧
      replaceComponents v places source = .ok v := by
  obtain ⟨xs, hxs⟩ := collect_of_pickComponents h
  have hnormal : ∀ x ∈ xs, v.kind.normalize x = x := fun x hx => by
    obtain ⟨i, _, hi⟩ := mem_of_collect hxs x hx
    exact hv.normal x (mem_of_fetch hi)
  have hpart : part = v.kind.pack xs := by
    rw [pickComponents_eq_pack hnormal hxs] at h
    exact (Except.ok.inj h).symm
  have hid : xs.map v.kind.normalize = xs :=
    (List.map_congr_left hnormal).trans (List.map_id xs)
  refine ⟨xs, ?_, ?_⟩
  · rw [hpart, ← length_of_collect hxs, sourceComponents_pack, hid]
  · rw [replaceComponents, Vec.of, hv.map_normalize, storeAll_self hv.normal hxs]
    rfl

/-- The last of two puts into the same components wins. -/
theorem replaceComponents_replaceComponents {w : Vec} (hv : v.WellFormed) (hnodup : places.Nodup)
    (hplaces : ∀ i ∈ places, i < v.components.length) {source' : List Float}
    (hsource : source.length = places.length) (hsource' : source'.length = places.length)
    (h : replaceComponents v places source = .ok w) :
    replaceComponents w places source' = replaceComponents v places source' := by
  have hw := (safe_replaceComponents hv hsource hplaces).of_ok h
  obtain ⟨hkind, hstored⟩ := replaceComponents_stored hv hnodup hsource h
  obtain ⟨xs, hxs⟩ := exists_storeAll v.kind hsource' hplaces
  have hplaces' : ∀ i ∈ places, i < w.components.length := by
    rw [hstored.length_eq]
    exact hplaces
  obtain ⟨ys, hys⟩ := exists_storeAll v.kind hsource' hplaces'
  have hxs' := storeAll_stored hnodup hsource' hxs
  have hys' := storeAll_stored hnodup hsource' hys
  -- Inside the places both hold `source'`; outside both hold what `v` held.
  have heq : ys = xs := by
    refine List.ext_getElem? fun j => ?_
    by_cases hj : j ∈ places
    · exact getElem?_eq_of_collect_fetch hys'.inside hxs'.inside j hj
    · rw [hys'.outside j hj, hstored.outside j hj, hxs'.outside j hj]
  rw [replaceComponents, replaceComponents, Vec.of, Vec.of, hw.map_normalize, hv.map_normalize,
    hkind, hxs, hys, heq]

/-! ## One selector -/

theorem selectorPlaces_lt {unique : Bool}
    (h : selectorPlaces name unique size selector = .ok places) : ∀ i ∈ places, i < size := by
  unfold selectorPlaces at h
  split at h
  · exact ((safe_selectionIndices name _ size unique).of_ok h).2.2
  · obtain ⟨i, hi, hplaces⟩ := bind_eq_ok.mp h
    cases hplaces
    have hlt := (safe_selectorIndex name selector size).of_ok hi
    exact fun j hj => List.mem_singleton.mp hj ▸ hlt

/-- What putting to a vector amounts to. -/
theorem setOne_vector_eq_ok :
    setOne (.vector v) selector value = .ok r ↔
      ∃ places source w, selectorPlaces "set" true v.size selector = .ok places ∧
        sourceComponents value places.length = .ok source ∧
        replaceComponents v places source = .ok w ∧ r = .vector w := by
  simp only [setOne_vector, bind_eq_ok]
  constructor
  · rintro ⟨places, hplaces, source, hsource, w, hw, hr⟩
    exact ⟨places, source, w, hplaces, hsource, hw, (Except.ok.inj hr).symm⟩
  · rintro ⟨places, source, w, hplaces, hsource, hw, rfl⟩
    exact ⟨places, hplaces, source, hsource, w, hw, rfl⟩

/-- A vector into which something was put is a vector of the same kind and size. -/
theorem vector_of_setOne (hv : v.WellFormed) (h : setOne (.vector v) selector value = .ok r) :
    ∃ w, r = .vector w ∧ w.WellFormed ∧ w.kind = v.kind ∧ w.size = v.size := by
  obtain ⟨places, source, w, hplaces, hsource, hw, rfl⟩ := setOne_vector_eq_ok.mp h
  have hlength := length_sourceComponents hsource
  have hstored := replaceComponents_stored hv (selectorPlaces_set hplaces).1 hlength hw
  refine ⟨w, rfl, ?_, hstored.1, hstored.2.length_eq⟩
  exact (safe_replaceComponents hv hlength (selectorPlaces_lt hplaces)).of_ok hw

/-- Only vectors, matrices and arrays have parts that can be put, and only vectors by letters. -/
theorem container_of_setOne (h : setOne base selector value = .ok r) :
    (∃ v, base = .vector v) ∨
      (∀ field, selector ≠ .text field) ∧ ((∃ m, base = .matrix m) ∨ ∃ xs, base = .array xs) := by
  cases base with
  | vector v => exact .inl ⟨v, rfl⟩
  | matrix m | array xs =>
    exact .inr ⟨fun field hfield => by simp [setOne, hfield, faultOf] at h, by simp⟩
  | _ => cases selector <;> simp [setOne, faultOf] at h

/-- Only vectors, matrices and arrays have parts that can be got, and only vectors by letters. -/
theorem container_of_getOne (h : getOne base selector = .ok part) :
    (∃ v, base = .vector v) ∨
      (∀ field, selector ≠ .text field) ∧ ((∃ m, base = .matrix m) ∨ ∃ xs, base = .array xs) := by
  cases base with
  | vector v => exact .inl ⟨v, rfl⟩
  | matrix m | array xs =>
    exact .inr ⟨fun field hfield => by simp [getOne, hfield, faultOf] at h, by simp⟩
  | _ => cases selector <;> simp [getOne, faultOf] at h

section Indexed

variable {selector : Value} (hindex : ∀ field, selector ≠ .text field)

include hindex

theorem getOne_matrix (m : Mat) :
    getOne (.matrix m) selector =
      (do return .vector (← m.column (← selectorIndex "get" selector m.size))) := by
  cases selector with
  | text field => exact absurd rfl (hindex field)
  | _ => rfl

theorem setOne_matrix (m : Mat) (value : Value) :
    setOne (.matrix m) selector value = (do
      let i ← selectorIndex "set" selector m.size
      match value with
      | .vector column =>
        if column.size = m.size then return .matrix (← m.setColumn i column.components)
        else faultOf "set" (.cannotAssignColumn column.typeName m.typeName)
      | _ => faultOf "set" (.cannotAssignColumn value.typeName m.typeName)) := by
  cases selector with
  | text field => exact absurd rfl (hindex field)
  | _ => rfl

theorem getOne_array (xs : List Value) :
    getOne (.array xs) selector = (do fetch xs (← selectorIndex "get" selector xs.length)) := by
  cases selector with
  | text field => exact absurd rfl (hindex field)
  | _ => rfl

theorem setOne_array (xs : List Value) (value : Value) :
    setOne (.array xs) selector value = (do
      let i ← selectorIndex "set" selector xs.length
      return .array (← store xs i value)) := by
  cases selector with
  | text field => exact absurd rfl (hindex field)
  | _ => rfl

/-- What putting to a matrix amounts to: a column is overwritten. -/
theorem setOne_matrix_eq_ok {m : Mat} (h : setOne (.matrix m) selector value = .ok r) :
    ∃ i column entries, selectorIndex "set" selector m.size = .ok i ∧ value = .vector column ∧
      column.size = m.size ∧
      overwrite m.entries (i * m.size) column.components = .ok entries ∧
      r = .matrix ⟨m.size, entries⟩ := by
  rw [setOne_matrix hindex, bind_eq_ok] at h
  obtain ⟨i, hi, hset⟩ := h
  split at hset
  · rename_i column
    split at hset
    · rename_i hsize
      obtain ⟨o, ho, hr⟩ := bind_eq_ok.mp hset
      obtain ⟨entries, hentries, hm⟩ := bind_eq_ok.mp ho
      cases hm
      exact ⟨i, column, entries, hi, rfl, hsize, hentries, (Except.ok.inj hr).symm⟩
    · exact nomatch hset
  · exact nomatch hset

/-- What putting to an array amounts to. -/
theorem setOne_array_eq_ok {xs : List Value} (h : setOne (.array xs) selector value = .ok r) :
    ∃ i, selectorIndex "set" selector xs.length = .ok i ∧ i < xs.length ∧
      r = .array (xs.set i value) := by
  rw [setOne_array hindex, bind_eq_ok] at h
  obtain ⟨i, hi, h⟩ := h
  have hlt := (safe_selectorIndex "set" selector xs.length).of_ok hi
  rw [store_eq_ok value hlt] at h
  exact ⟨i, hi, hlt, (Except.ok.inj h).symm⟩

end Indexed

/-- What is put at a selector is got there, in the kind of the place. -/
theorem getOne_setOne (hbase : base.WellFormed) (h : setOne base selector value = .ok r) :
    getOne r selector = .ok (value.fit (partKind base)) := by
  rcases container_of_setOne h with ⟨v, rfl⟩ | ⟨hindex, ⟨m, rfl⟩ | ⟨xs, rfl⟩⟩
  · have hv := hbase.of_vector
    obtain ⟨places, source, w, hplaces, hsource, hw, rfl⟩ := setOne_vector_eq_ok.mp h
    obtain ⟨hnodup, hget⟩ := selectorPlaces_set hplaces
    have hstored := replaceComponents_stored hv hnodup (length_sourceComponents hsource) hw
    have hsize : w.size = v.size := hstored.2.length_eq
    rw [getOne_vector, hsize, hget]
    -- The letters pick the same places, since the size is the same.
    exact pickComponents_replaceComponents hv hnodup hsource hw
  · obtain ⟨i, column, entries, hi, rfl, hsize, hentries, rfl⟩ := setOne_matrix_eq_ok hindex h
    -- A column has as many components as the matrix has rows, so it is packed as a vector.
    have htwo : 2 ≤ column.components.length :=
      Nat.le_trans hbase.of_matrix.two_le (Nat.le_of_eq hsize.symm)
    have hslice := slice_overwrite hentries
    rw [show column.components.length = m.size from hsize] at hslice
    rw [getOne_matrix hindex, selectorIndex_eq_ok "get" hi, partKind, Value.fit, Value.toKind,
      pack_of_two_le htwo]
    simp only [bind, Except.bind, Mat.column, Mat.columnEntries, hslice]
    rfl
  · obtain ⟨i, hi, hlt, rfl⟩ := setOne_array_eq_ok hindex h
    rw [getOne_array hindex, List.length_set, selectorIndex_eq_ok "get" hi]
    simp only [bind, Except.bind]
    rw [fetch, List.getElem?_set_self hlt]
    rfl

/-- What is got at a selector can be put back, and nothing changes. -/
theorem setOne_getOne (hbase : base.WellFormed)
    (hunique : ∀ field, selector = .text field → field.toList.Nodup)
    (h : getOne base selector = .ok part) : setOne base selector part = .ok base := by
  rcases container_of_getOne h with ⟨v, rfl⟩ | ⟨hindex, ⟨m, rfl⟩ | ⟨xs, rfl⟩⟩
  · rw [getOne_vector] at h
    obtain ⟨places, hplaces, hpick⟩ := bind_eq_ok.mp h
    obtain ⟨source, hsource, hw⟩ := replaceComponents_pickComponents hbase.of_vector hpick
    have hset := selectorPlaces_get hunique hplaces
    exact setOne_vector_eq_ok.mpr ⟨places, source, v, hset, hsource, hw, rfl⟩
  · rw [getOne_matrix hindex, bind_eq_ok] at h
    obtain ⟨i, hi, h⟩ := h
    obtain ⟨column, hcolumn, hpart⟩ := bind_eq_ok.mp h
    obtain ⟨entries, hentries, hof⟩ := bind_eq_ok.mp hcolumn
    cases hpart
    cases hof
    -- Floats are of their kind as they are.
    have hfloats : (Vec.ofFloats entries).components = entries := List.map_id entries
    have hsize : (Vec.ofFloats entries).size = m.size := by
      have hlt := (safe_selectorIndex "get" selector m.size).of_ok hi
      rw [Vec.size, hfloats]
      exact (hbase.of_matrix.safe_columnEntries hlt).of_ok hentries
    rw [setOne_matrix hindex, selectorIndex_eq_ok "set" hi]
    simp only [bind, Except.bind]
    rw [if_pos hsize, hfloats, Mat.setColumn, overwrite_slice hentries]
    rfl
  · rw [getOne_array hindex, bind_eq_ok] at h
    obtain ⟨i, hi, hfetch⟩ := h
    have hlt := (safe_selectorIndex "get" selector xs.length).of_ok hi
    rw [fetch_eq_ok hlt] at hfetch
    cases hfetch
    rw [setOne_array hindex, selectorIndex_eq_ok "set" hi]
    simp only [bind, Except.bind]
    rw [store_eq_ok _ hlt, List.set_getElem_self]
    rfl

/-- Of two values put at a selector the last one stays. -/
theorem setOne_setOne (hbase : base.WellFormed) (h : setOne base selector value = .ok r)
    (value' : Value) : setOne r selector value' = setOne base selector value' := by
  rcases container_of_setOne h with ⟨v, rfl⟩ | ⟨hindex, ⟨m, rfl⟩ | ⟨xs, rfl⟩⟩
  · have hv := hbase.of_vector
    obtain ⟨w, hr, _, _, hsize⟩ := vector_of_setOne hv h
    obtain ⟨places, source, w', hplaces, hsource, hw, rfl⟩ := setOne_vector_eq_ok.mp h
    cases hr
    have hnodup := (selectorPlaces_set hplaces).1
    rw [setOne_vector, setOne_vector, hsize, hplaces]
    simp only [bind, Except.bind]
    -- Whether `value'` can be put there depends on it and the places alone.
    cases hsource' : sourceComponents value' places.length with
    | error e => rfl
    | ok source' =>
      have hreplace := replaceComponents_replaceComponents hv hnodup (selectorPlaces_lt hplaces)
        (length_sourceComponents hsource) (length_sourceComponents hsource') hw
      simp only [hreplace]
  · obtain ⟨i, column, entries, hi, rfl, hsize, hentries, rfl⟩ := setOne_matrix_eq_ok hindex h
    rw [setOne_matrix hindex, setOne_matrix hindex, hi]
    simp only [bind, Except.bind, Mat.typeName]
    cases value' with
    | vector column' =>
      by_cases hsize' : column'.size = m.size
      · have hlength : column'.components.length = column.components.length :=
          hsize'.trans hsize.symm
        simp only [if_pos hsize', Mat.setColumn, overwrite_overwrite hlength hentries]
      · simp only [if_neg hsize']
    | _ => rfl
  · obtain ⟨i, hi, hlt, rfl⟩ := setOne_array_eq_ok hindex h
    have hlt' : i < (xs.set i value).length := by rwa [List.length_set]
    rw [setOne_array hindex, setOne_array hindex, List.length_set, hi]
    simp only [bind, Except.bind]
    rw [store_eq_ok value' hlt, store_eq_ok value' hlt', List.set_set]

/-! ## Paths -/

/-- What is put along a path is put at its first selector in the end. -/
theorem exists_setOne_of_setPath {rest : List Value}
    (h : setPath base (next :: rest) value = .ok r) : ∃ u, setOne base next u = .ok r := by
  cases rest with
  | nil => exact ⟨value, h⟩
  | cons second rest =>
    rw [setPath] at h
    obtain ⟨part, _, h⟩ := bind_eq_ok.mp h
    obtain ⟨updated, _, h⟩ := bind_eq_ok.mp h
    exact ⟨updated, h⟩

/-- Of the parts of a vector only several components together have parts of their own. -/
theorem vector_of_pickComponents {u : Value} (hpick : pickComponents v places = .ok part)
    (h : setOne part next u = .ok r) : ∃ w, part = .vector w ∧ w.kind = v.kind := by
  unfold pickComponents at hpick
  split at hpick
  · -- One component is a scalar, and nothing can be put into it.
    obtain ⟨x, _, hpart⟩ := bind_eq_ok.mp hpick
    split at hpart <;> cases hpart <;> cases next <;> simp [setOne, faultOf] at h
  · obtain ⟨xs, _, hpart⟩ := bind_eq_ok.mp hpick
    cases hpart
    exact ⟨_, rfl, rfl⟩

/-- A part into which something was put still fits the place that it came from. -/
theorem fit_of_setPath {updated : Value} {rest : List Value} (hbase : base.WellFormed)
    (hpart : getOne base selector = .ok part)
    (h : setPath part (next :: rest) value = .ok updated) :
    updated.fit (partKind base) = updated := by
  have hwell := (safe_getOne hbase selector).of_ok hpart
  obtain ⟨u, hu⟩ := exists_setOne_of_setPath h
  rcases container_of_getOne hpart with ⟨v, rfl⟩ | ⟨hindex, ⟨m, rfl⟩ | ⟨xs, rfl⟩⟩
  · obtain ⟨places, hplaces, hpick⟩ := bind_eq_ok.mp (getOne_vector v selector ▸ hpart)
    obtain ⟨w, rfl, hkind⟩ := vector_of_pickComponents hpick hu
    obtain ⟨w', rfl, hw', hkind', _⟩ := vector_of_setOne hwell.of_vector hu
    rw [partKind, ← hkind, ← hkind']
    exact toKind_vector hw'
  · rw [getOne_matrix hindex] at hpart
    obtain ⟨i, hi, hpart⟩ := bind_eq_ok.mp hpart
    obtain ⟨column, hcolumn, hpart⟩ := bind_eq_ok.mp hpart
    obtain ⟨entries, _, hof⟩ := bind_eq_ok.mp hcolumn
    cases hpart
    cases hof
    obtain ⟨w, rfl, hw, hkind, _⟩ := vector_of_setOne hwell.of_vector hu
    rw [partKind, show ComponentKind.float = w.kind from hkind.symm]
    exact toKind_vector hw
  · rfl

/-- What is put at a path is got there, in the kind of the place. -/
theorem getPath_setPath (hbase : base.WellFormed) (path : List Value)
    (h : setPath base path value = .ok r) :
    getPath r path = .ok (value.fit (addressedKind base path)) := by
  fun_induction setPath base path value generalizing r with
  | case1 base value =>
    cases h
    rfl
  | case2 base selector value =>
    rw [getPath, getOne_setOne hbase h]
    rfl
  | case3 base selector next rest value ih =>
    obtain ⟨part, hpart, h⟩ := bind_eq_ok.mp h
    obtain ⟨updated, hupdated, h⟩ := bind_eq_ok.mp h
    have hwell := (safe_getOne hbase selector).of_ok hpart
    have hget := getOne_setOne hbase h
    -- What was put back at the first selector is got from it unchanged, so the path goes on there.
    rw [fit_of_setPath hbase hpart hupdated] at hget
    rw [getPath, hget, addressedKind, hpart]
    exact ih part hwell hupdated

/-- What is got at a path can be put back, and nothing changes. -/
theorem setPath_getPath (hbase : base.WellFormed) (path : List Value)
    (hunique : ∀ field, .text field ∈ path → field.toList.Nodup)
    (h : getPath base path = .ok value) : setPath base path value = .ok base := by
  fun_induction setPath base path value with
  | case1 base value =>
    cases h
    rfl
  | case2 base selector value =>
    rw [getPath, bind_eq_ok] at h
    obtain ⟨part, hpart, h⟩ := h
    cases h
    exact setOne_getOne hbase (fun field hfield => hunique field (by simp [hfield])) hpart
  | case3 base selector next rest value ih =>
    rw [getPath, bind_eq_ok] at h
    obtain ⟨part, hpart, h⟩ := h
    have hwell := (safe_getOne hbase selector).of_ok hpart
    have hrest := ih part hwell (fun field hfield => hunique field (.tail _ hfield)) h
    rw [hpart]
    simp only [bind, Except.bind, hrest]
    exact setOne_getOne hbase (fun field hfield => hunique field (by simp [hfield])) hpart

/-- Of two values put at a path the last one stays, and decides whether putting fails. -/
theorem setPath_setPath (hbase : base.WellFormed) (path : List Value)
    (h : setPath base path value = .ok r) (value' : Value) :
    setPath r path value' = setPath base path value' := by
  fun_induction setPath base path value generalizing r with
  | case1 base value => rfl
  | case2 base selector value => exact setOne_setOne hbase h value'
  | case3 base selector next rest value ih =>
    obtain ⟨part, hpart, h⟩ := bind_eq_ok.mp h
    obtain ⟨updated, hupdated, h⟩ := bind_eq_ok.mp h
    have hwell := (safe_getOne hbase selector).of_ok hpart
    have hget := getOne_setOne hbase h
    rw [fit_of_setPath hbase hpart hupdated] at hget
    rw [setPath, setPath, hget, hpart]
    simp only [bind, Except.bind, ih part hwell hupdated, setOne_setOne hbase h]

/-! ## The laws -/

/-- `set` puts its last argument at the path between the first and the last. -/
theorem setFunction_eq_setPath (base : Value) (path : List Value) (value : Value) :
    setFunction (base :: (path ++ [value])) = setPath base path value := by
  have hset : setFunction (base :: (path ++ [value])) = setWith base (path ++ [value]) := by
    cases path <;> rfl
  rw [hset, setWith, List.getLast?_concat, List.dropLast_concat]

/-- `get` and `set` obey the laws of a lens at every path into a well-formed value. -/
theorem lens_laws {base : Value} (hbase : base.WellFormed) (path : List Value) :
    (∀ value r, setFunction (base :: (path ++ [value])) = .ok r →
      getFunction (r :: path) = .ok (value.fit (addressedKind base path))) ∧
    (∀ value, getFunction (base :: path) = .ok value →
      (∀ field, .text field ∈ path → field.toList.Nodup) →
        setFunction (base :: (path ++ [value])) = .ok base) ∧
    (∀ value value' r, setFunction (base :: (path ++ [value])) = .ok r →
      setFunction (r :: (path ++ [value'])) = setFunction (base :: (path ++ [value']))) := by
  simp only [setFunction_eq_setPath]
  refine ⟨fun value r h => ?_, fun value h hunique => ?_, fun value value' r h => ?_⟩
  · exact getPath_setPath hbase path h
  · exact setPath_getPath hbase path hunique h
  · exact setPath_setPath hbase path h value'

/-- Two components of a vector of integers in an array: fractions are cut when they are put. -/
theorem lens_laws_selection :
    setFunction [.array [.vector ⟨.int, [1, 2, 3]⟩], .number 0, .text "zx",
        .vector ⟨.float, [7.5, -1.5]⟩] = .ok (.array [.vector ⟨.int, [-1, 2, 7]⟩]) ∧
      getFunction [.array [.vector ⟨.int, [-1, 2, 7]⟩], .number 0, .text "zx"] =
        .ok (.vector ⟨.int, [7, -1]⟩) := by
  have hbase : (Value.array [.vector ⟨.int, [1, 2, 3]⟩]).WellFormed := by
    refine .array fun v hv => ?_
    rw [List.mem_singleton] at hv
    subst hv
    exact .vector ⟨by decide, by decide, by decide⟩
  have hzero : truncateToInt64? 0 = some 0 := by decide +kernel
  have hindex (name : String) : selectorIndex name (.number 0) 1 = .ok 0 := by
    simp [selectorIndex, Value.scalar?, hzero]
  have hplaces : selectionIndices "set" "zx" 3 true = .ok [2, 0] := rfl
  have hcut : truncate 7.5 = 7 ∧ truncate (-1.5) = -1 ∧ truncate 1 = 1 ∧ truncate 2 = 2 ∧
      truncate 3 = 3 := by decide
  have hpart : getOne (.array [.vector ⟨.int, [1, 2, 3]⟩]) (.number 0) =
      .ok (.vector ⟨.int, [1, 2, 3]⟩) := by
    simp [getOne, hindex, fetch, bind, Except.bind]
  have hset : setFunction [.array [.vector ⟨.int, [1, 2, 3]⟩], .number 0, .text "zx",
      .vector ⟨.float, [7.5, -1.5]⟩] = .ok (.array [.vector ⟨.int, [-1, 2, 7]⟩]) := by
    simp [setFunction, setWith, setPath, hpart, setOne, Vec.size, hplaces, hindex, sourceComponents,
      replaceComponents, storeAll, store, Vec.of, ComponentKind.normalize, hcut, bind, Except.bind,
      pure, Except.pure]
  have hget := (lens_laws hbase [.number 0, .text "zx"]).1 _ _ hset
  simp only [addressedKind, hpart, partKind, Value.fit, Value.toKind, ComponentKind.pack, Vec.of,
    ComponentKind.normalize, List.map_cons, List.map_nil, hcut] at hget
  exact ⟨hset, hget⟩

end ShaderScript
