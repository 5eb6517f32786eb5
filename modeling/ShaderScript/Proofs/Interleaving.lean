/-!
# Interleavings

Files of a batch may be handled at the same time.  What is told or recorded of them then comes in
any order that keeps the order of each file.
-/

namespace ShaderScript

variable {α β : Type}

/-- A list made of two others, each in its own order. -/
inductive Interleave : List α → List α → List α → Prop
  | nil : Interleave [] [] []
  | left {a : α} {xs ys zs : List α} (h : Interleave xs ys zs) : Interleave (a :: xs) ys (a :: zs)
  | right {a : α} {xs ys zs : List α} (h : Interleave xs ys zs) : Interleave xs (a :: ys) (a :: zs)

/-- A list made of any number of others, each in its own order. -/
inductive Interleaving : List (List α) → List α → Prop
  | nil : Interleaving [] []
  | cons {xs zs all : List α} {rest : List (List α)} (h : Interleaving rest zs)
      (hmerge : Interleave xs zs all) : Interleaving (xs :: rest) all

namespace Interleave

variable {xs ys zs : List α}

theorem nil_left (ys : List α) : Interleave [] ys ys := by
  induction ys with
  | nil => exact .nil
  | cons y ys ih => exact .right ih

theorem nil_right (xs : List α) : Interleave xs [] xs := by
  induction xs with
  | nil => exact .nil
  | cons x xs ih => exact .left ih

theorem append {xs' ys' zs' : List α} (h : Interleave xs ys zs) (h' : Interleave xs' ys' zs') :
    Interleave (xs ++ xs') (ys ++ ys') (zs ++ zs') := by
  induction h with
  | nil => exact h'
  | left _ ih => exact .left ih
  | right _ ih => exact .right ih

theorem eq_of_nil_left (h : Interleave [] ys zs) : zs = ys := by
  generalize hxs : ([] : List α) = xs at h
  induction h with
  | nil => rfl
  | left => cases hxs
  | right _ ih => rw [ih hxs]

theorem eq_of_nil_right (h : Interleave xs [] zs) : zs = xs := by
  generalize hys : ([] : List α) = ys at h
  induction h with
  | nil => rfl
  | left _ ih => rw [ih hys]
  | right => cases hys

theorem filter (p : α → Bool) (h : Interleave xs ys zs) :
    Interleave (xs.filter p) (ys.filter p) (zs.filter p) := by
  induction h with
  | nil => exact .nil
  | @left a _ _ _ _ ih =>
    by_cases ha : p a
    · simpa [ha] using ih.left
    · simpa [ha] using ih
  | @right a _ _ _ _ ih =>
    by_cases ha : p a
    · simpa [ha] using ih.right
    · simpa [ha] using ih

theorem map (f : α → β) (h : Interleave xs ys zs) :
    Interleave (xs.map f) (ys.map f) (zs.map f) := by
  induction h with
  | nil => exact .nil
  | left _ ih => exact .left ih
  | right _ ih => exact .right ih

theorem countP (p : α → Bool) (h : Interleave xs ys zs) :
    zs.countP p = xs.countP p + ys.countP p := by
  induction h with
  | nil => rfl
  | left _ ih | right _ ih =>
    simp only [List.countP_cons, ih]
    omega

theorem mem (h : Interleave xs ys zs) {a : α} (ha : a ∈ zs) : a ∈ xs ∨ a ∈ ys := by
  induction h with
  | nil => cases ha
  | left _ ih =>
    rcases List.mem_cons.1 ha with rfl | ha
    · exact .inl List.mem_cons_self
    · exact (ih ha).imp_left (List.mem_cons_of_mem _)
  | right _ ih =>
    rcases List.mem_cons.1 ha with rfl | ha
    · exact .inr List.mem_cons_self
    · exact (ih ha).imp_right (List.mem_cons_of_mem _)

theorem eq_nil (h : Interleave xs ys []) : xs = [] ∧ ys = [] := by
  cases h
  exact ⟨rfl, rfl⟩

/-- The last member of an interleaving is the last one of a part. -/
theorem getLast? (h : Interleave xs ys zs) {a : α} (ha : zs.getLast? = some a) :
    xs.getLast? = some a ∨ ys.getLast? = some a := by
  induction h with
  | nil => cases ha
  | @left b xs ys zs h ih =>
    -- The member taken first is also the last if nothing follows.
    cases zs with
    | nil =>
      cases h
      exact .inl ha
    | cons c zs =>
      rw [List.getLast?_cons_cons] at ha
      refine (ih ha).imp_left fun hxs => ?_
      rw [List.getLast?_cons, hxs, Option.getD_some]
  | @right b xs ys zs h ih =>
    cases zs with
    | nil =>
      cases h
      exact .inr ha
    | cons c zs =>
      rw [List.getLast?_cons_cons] at ha
      refine (ih ha).imp_right fun hys => ?_
      rw [List.getLast?_cons, hys, Option.getD_some]

end Interleave

namespace Interleaving

variable {lists : List (List α)} {all : List α}

theorem mem (h : Interleaving lists all) {a : α} (ha : a ∈ all) : ∃ xs ∈ lists, a ∈ xs := by
  induction h with
  | nil => cases ha
  | cons _ hmerge ih =>
    rcases hmerge.mem ha with hxs | hzs
    · exact ⟨_, List.mem_cons_self, hxs⟩
    · obtain ⟨xs, hxs, ha⟩ := ih hzs
      exact ⟨xs, List.mem_cons_of_mem _ hxs, ha⟩

/-- Members that are in none of the lists are not counted. -/
theorem countP_eq_zero (h : Interleaving lists all) {p : α → Bool}
    (hnone : ∀ xs ∈ lists, xs.countP p = 0) : all.countP p = 0 := by
  induction h with
  | nil => rfl
  | cons _ hmerge ih =>
    obtain ⟨hxs, hrest⟩ := List.forall_mem_cons.1 hnone
    rw [hmerge.countP, hxs, ih hrest]

/-- Members that are in one of the lists are counted there. -/
theorem countP_eq (h : Interleaving lists all) {p : α → Bool} {front back : List (List α)}
    {xs : List α} (hsplit : lists = front ++ xs :: back)
    (hnone : ∀ ys ∈ front ++ back, ys.countP p = 0) : all.countP p = xs.countP p := by
  induction h generalizing front with
  | nil => simp at hsplit
  | cons hrest hmerge ih =>
    rw [hmerge.countP]
    cases front with
    | nil =>
      obtain ⟨rfl, rfl⟩ := List.cons.inj hsplit
      rw [hrest.countP_eq_zero hnone, Nat.add_zero]
    | cons ys front =>
      obtain ⟨rfl, rfl⟩ := List.cons.inj hsplit
      obtain ⟨hys, hnone⟩ := List.forall_mem_cons.1 hnone
      rw [hys, ih rfl hnone, Nat.zero_add]

end Interleaving

end ShaderScript
