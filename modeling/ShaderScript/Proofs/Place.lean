import Mathlib.Data.List.Forall2
import ShaderScript.Value.Place

/-!
# Accesses that stay in range

`Safe P r` says of the outcome `r` of a computation that it did not break off, say by asking for a
place past the end of a list, and that a value it gives satisfies `P`.  A computation is safe if its
steps are (`Safe.bind`), and an access is if its place is there; a fault is a proper answer.

The second half says what the accesses to places give when they are in range, as equations, for
proofs about the values themselves.
-/

namespace ShaderScript

variable {α β γ : Type}

variable {xs new : List α} {start i count : Nat} {f : α → Outcome β} {r : Outcome α} {ys : List β}

/-- The computation did not break off, and the value, if there is one, satisfies `P`. -/
def Safe (P : α → Prop) : Outcome α → Prop
  | .ok a => P a
  | .error e => e.isCrash = false

namespace Safe

variable {P : α → Prop}

theorem ok {P : α → Prop} {a : α} (h : P a) : Safe P (.ok a) := h

theorem pure {a : α} (h : P a) : Safe P (Pure.pure a : Outcome α) := h

@[simp] theorem fault (P : α → Prop) (name : String) (cause : Cause) :
    Safe P (faultOf name cause : Outcome α) :=
  rfl

theorem outside (P : α → Prop) (message : String) :
    Safe P (.error (.outside message) : Outcome α) :=
  rfl

/-- A computation is safe if its first step is, and the rest is on what the first step gives. -/
theorem bind {Q : β → Prop} (hr : Safe P r) (hf : ∀ a, P a → Safe Q (f a)) : Safe Q (r >>= f) := by
  cases r with
  | ok a => exact hf a hr
  | error e => exact hr

theorem mono {Q : α → Prop} (hr : Safe P r) (h : ∀ a, P a → Q a) : Safe Q r := by
  cases r with
  | ok a => exact h a hr
  | error e => exact hr

theorem of_ok {a : α} (hr : Safe P r) (h : r = .ok a) : P a := by
  subst h
  exact hr

end Safe

/-! ## Accesses are safe in range -/

theorem safe_fetch (h : i < xs.length) : Safe (fun x => x ∈ xs) (fetch xs i) := by
  unfold fetch
  rw [List.getElem?_eq_getElem h]
  exact List.getElem_mem h

/-- Changing a place that is there keeps the length, and adds no entry but the new one. -/
theorem safe_store (x : α) (h : i < xs.length) :
    Safe (fun ys => ys.length = xs.length ∧ ∀ y ∈ ys, y ∈ xs ∨ y = x) (store xs i x) := by
  unfold store
  rw [if_pos h]
  refine Safe.ok ⟨List.length_set, fun y hy => ?_⟩
  exact List.mem_or_eq_of_mem_set hy

/-- A stretch inside a list has the length that was asked for. -/
theorem safe_slice (h : start + count ≤ xs.length) :
    Safe (fun ys => ys.length = count) (slice xs start count) := by
  unfold slice
  rw [if_pos h]
  refine Safe.ok ?_
  rw [List.length_take, List.length_drop]
  omega

/-- Overwriting a stretch inside a list keeps the length. -/
theorem safe_overwrite (h : start + new.length ≤ xs.length) :
    Safe (fun ys => ys.length = xs.length) (overwrite xs start new) := by
  unfold overwrite
  rw [if_pos h]
  refine Safe.ok ?_
  simp only [List.length_append, List.length_take, List.length_drop]
  omega

/-- Two lists can be combined if the second reaches as far as the first. -/
theorem safe_combine (f : α → β → γ) (h : xs.length ≤ ys.length) :
    Safe (fun zs => zs.length = xs.length) (combine f xs ys) := by
  induction xs generalizing ys with
  | nil => exact Safe.ok rfl
  | cons x xs ih =>
    cases ys with
    | nil => simp at h
    | cons y ys =>
      simp only [List.length_cons, Nat.add_le_add_iff_right] at h
      refine Safe.bind (ih h) fun zs hzs => Safe.pure ?_
      rw [List.length_cons, hzs, List.length_cons]

/-- A function that is safe on every entry is safe on the list. -/
theorem safe_collect {P : β → Prop} (h : ∀ x ∈ xs, Safe P (f x)) :
    Safe (fun ys => ys.length = xs.length ∧ ∀ y ∈ ys, P y) (collect f xs) := by
  induction xs with
  | nil => exact Safe.ok ⟨rfl, fun y hy => nomatch hy⟩
  | cons x xs ih =>
    have hx := h x List.mem_cons_self
    have hxs := ih fun y hy => h y (List.mem_cons_of_mem x hy)
    refine Safe.bind hx fun y hy => Safe.bind hxs fun ys hys => Safe.pure ⟨?_, ?_⟩
    · rw [List.length_cons, hys.1, List.length_cons]
    · intro z hz
      cases hz with
      | head => exact hy
      | tail _ hz => exact hys.2 z hz

/-! ## What accesses give in range -/

/-- A computation of two steps succeeds if both do. -/
theorem bind_eq_ok {ε α β : Type} {r : Except ε α} {f : α → Except ε β} {b : β} :
    (r >>= f) = .ok b ↔ ∃ a, r = .ok a ∧ f a = .ok b := by
  cases r with
  | ok a =>
    refine ⟨fun h => ⟨a, rfl, h⟩, fun ⟨a', ha, h⟩ => ?_⟩
    cases ha
    exact h
  | error e => exact ⟨fun h => (nomatch h), fun ⟨_, ha, _⟩ => (nomatch ha)⟩

theorem map_eq_error_iff {ε α β : Type} {g : α → β} {r : Except ε α} {e : ε} :
    r.map g = .error e ↔ r = .error e := by
  cases r <;> simp [Except.map]

theorem map_eq_ok_iff {ε α β : Type} {g : α → β} {r : Except ε α} {b : β} :
    r.map g = .ok b ↔ ∃ a, r = .ok a ∧ b = g a := by
  cases r <;> simp [Except.map, eq_comm]

theorem mapM_eq_some_iff {α β : Type} {f : α → Option β} {xs : List α} {ys : List β} :
    xs.mapM f = some ys ↔ List.Forall₂ (fun x y => f x = some y) xs ys := by
  induction xs generalizing ys with
  | nil => simp [eq_comm]
  | cons x xs ih =>
    simp only [List.mapM_cons, Option.pure_def, Option.bind_eq_bind, Option.bind_eq_some_iff,
      Option.some.injEq, ih, List.forall₂_cons_left_iff]
    constructor
    · rintro ⟨y, hy, ys, hys, rfl⟩
      exact ⟨y, ys, hy, hys, rfl⟩
    · rintro ⟨y, ys, hy, hys, rfl⟩
      exact ⟨y, hy, ys, hys, rfl⟩

theorem mem_of_fetch {x : α} (h : fetch xs i = .ok x) : x ∈ xs := by
  unfold fetch at h
  split at h
  · rename_i y hy
    cases h
    exact List.mem_of_getElem? hy
  · exact nomatch h

/-- All is collected if all is well. -/
theorem collect_eq_ok_iff : collect f xs = .ok ys ↔ xs.map f = ys.map .ok := by
  induction xs generalizing ys with
  | nil => cases ys <;> simp [collect]
  | cons x xs ih =>
    rw [collect, bind_eq_ok]
    cases ys with
    | nil => simp [bind_eq_ok, pure, Except.pure]
    | cons y ys => simp [bind_eq_ok, pure, Except.pure, ih]

theorem collect_eq_map {g : α → β} (h : ∀ x ∈ xs, f x = .ok (g x)) :
    collect f xs = .ok (xs.map g) := by
  rw [collect_eq_ok_iff, List.map_map]
  exact List.map_congr_left h

theorem length_of_collect (h : collect f xs = .ok ys) : ys.length = xs.length := by
  simpa using (congrArg List.length (collect_eq_ok_iff.mp h)).symm

theorem mem_of_collect (h : collect f xs = .ok ys) : ∀ y ∈ ys, ∃ x ∈ xs, f x = .ok y := by
  intro y hy
  rw [← List.mem_map, collect_eq_ok_iff.mp h]
  exact List.mem_map_of_mem hy

theorem fetch_eq_ok (h : i < xs.length) : fetch xs i = .ok xs[i] := by
  unfold fetch
  rw [List.getElem?_eq_getElem h]

theorem store_eq_ok (x : α) (h : i < xs.length) : store xs i x = .ok (xs.set i x) :=
  if_pos h

theorem slice_eq_ok (h : start + count ≤ xs.length) :
    slice xs start count = .ok ((xs.drop start).take count) :=
  if_pos h

theorem overwrite_eq_ok (h : start + new.length ≤ xs.length) :
    overwrite xs start new = .ok (xs.take start ++ new ++ xs.drop (start + new.length)) :=
  if_pos h

/-- The stretch that was overwritten is what it was overwritten with. -/
theorem slice_overwrite {ys : List α} (h : overwrite xs start new = .ok ys) :
    slice ys start new.length = .ok new := by
  unfold overwrite at h
  split at h
  · rename_i hend
    cases h
    have htake : (xs.take start).length = start := List.length_take_of_le (by omega)
    rw [slice_eq_ok (by simp only [List.length_append]; omega), List.append_assoc,
      List.drop_left' htake, List.take_left]
  · exact nomatch h

/-- Overwriting a stretch with itself changes nothing. -/
theorem overwrite_slice (h : slice xs start count = .ok new) : overwrite xs start new = .ok xs := by
  unfold slice at h
  split at h
  · rename_i hend
    cases h
    have hlength : ((xs.drop start).take count).length = count := by
      rw [List.length_take, List.length_drop]
      omega
    rw [overwrite_eq_ok (by omega), hlength, ← List.drop_drop, List.append_assoc,
      List.take_append_drop, List.take_append_drop]
  · exact nomatch h

/-- Of two stretches of one length the last one stays. -/
theorem overwrite_overwrite {ys new' : List α} (hlength : new'.length = new.length)
    (h : overwrite xs start new = .ok ys) : overwrite ys start new' = overwrite xs start new' := by
  unfold overwrite at h
  split at h
  · rename_i hend
    cases h
    have htake : (xs.take start).length = start := List.length_take_of_le (by omega)
    have hfront : (xs.take start ++ new).length = start + new'.length := by
      rw [List.length_append, htake, hlength]
    rw [overwrite_eq_ok (by simp only [List.length_append, List.length_drop]; omega),
      overwrite_eq_ok (by omega), List.drop_left' hfront, List.append_assoc (xs.take start),
      List.take_left' htake, hlength]
  · exact nomatch h

end ShaderScript
