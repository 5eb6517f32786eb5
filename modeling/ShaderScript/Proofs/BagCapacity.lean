import Mathlib.Data.List.Induction
import Mathlib.Tactic.Ring
import ShaderScript.Diagnostic.Bag

/-!
# The capacity of a bag

A full bag drops what is added to it.  Merging is different: the bag takes over all of the other
one, and its capacity grows to what it then holds.  The capacity ends at `Bag.maxCapacity`, the
merged items do not, so a merge is what can leave a bag with more than its capacity.

A run of a bag is a list of actions on a new one; `act` is one step of it.
-/

namespace ShaderScript

namespace Bag

/-- Something that is done to a bag. -/
inductive Action
  | add (d : Diagnostic)
  | merge (other : Bag)
  | sort
  | dedup

/-- The bag after an action. -/
def act (b : Bag) : Action → Bag
  | .add d => b.add d
  | .merge other => b.merge other
  | .sort => b.sort
  | .dedup => b.dedup

/-- The bag after actions, in order. -/
def actAll (b : Bag) (actions : List Action) : Bag := actions.foldl act b

/-- The bag holds no more than its capacity. -/
def Fits (b : Bag) : Prop := b.items.length ≤ b.capacity

theorem actAll_concat (b : Bag) (actions : List Action) (a : Action) :
    b.actAll (actions ++ [a]) = (b.actAll actions).act a := by
  simp [actAll]

/-! ## One action -/

theorem length_firstOfEach_le (items : List Diagnostic) (seen : List String) :
    (firstOfEach items seen).length ≤ items.length := by
  induction items generalizing seen with
  | nil => exact Nat.le_refl _
  | cons d rest ih =>
    unfold firstOfEach
    split
    · exact Nat.le_succ_of_le (ih seen)
    · exact Nat.succ_le_succ (ih _)

/-- What is added is kept if there is room, and otherwise the bag stays as it is. -/
theorem add_cases (b : Bag) (d : Diagnostic) :
    b.items.length < b.capacity ∧ b.add d = { b with items := b.items ++ [d] } ∨
      b.capacity ≤ b.items.length ∧ b.add d = b := by
  unfold add isFull
  by_cases hfull : b.capacity ≤ b.items.length
  · exact .inr ⟨hfull, if_pos (decide_eq_true hfull)⟩
  · exact .inl ⟨Nat.lt_of_not_le hfull, if_neg (by simpa using hfull)⟩

@[simp] theorem capacity_add (b : Bag) (d : Diagnostic) : (b.add d).capacity = b.capacity := by
  obtain ⟨-, hadd⟩ | ⟨-, hadd⟩ := b.add_cases d
  · rw [hadd]
  · rw [hadd]

@[simp] theorem items_merge (b other : Bag) : (b.merge other).items = b.items ++ other.items := rfl

theorem capacity_merge (b other : Bag) : (b.merge other).capacity =
    if b.items.length + other.items.length ≤ maxCapacity then
      max b.capacity (b.items.length + other.items.length)
    else b.capacity := by
  unfold merge
  dsimp only
  split <;> split <;> omega

theorem capacity_le_act (b : Bag) (a : Action) : b.capacity ≤ (b.act a).capacity := by
  cases a with
  | add d => exact Nat.le_of_eq (b.capacity_add d).symm
  | merge other =>
    rw [act, capacity_merge]
    split
    · exact Nat.le_max_left _ _
    · exact Nat.le_refl _
  | sort | dedup => exact Nat.le_refl _

theorem capacity_act_le {b : Bag} (h : b.capacity ≤ maxCapacity) (a : Action) :
    (b.act a).capacity ≤ maxCapacity := by
  cases a with
  | add d => exact Nat.le_trans (Nat.le_of_eq (b.capacity_add d)) h
  | merge other =>
    rw [act, capacity_merge]
    split
    · exact Nat.max_le.2 ⟨h, ‹_›⟩
    · exact h
  | sort | dedup => exact h

/-- The capacity follows a merge only as far as it can. -/
theorem fits_merge_iff {b : Bag} (h : b.capacity ≤ maxCapacity) (other : Bag) :
    (b.merge other).Fits ↔ b.items.length + other.items.length ≤ maxCapacity := by
  rw [Fits, items_merge, List.length_append, capacity_merge]
  split
  · exact iff_of_true (Nat.le_max_right _ _) ‹_›
  · rename_i hover
    exact iff_of_false (by omega) hover

/-- An action keeps a bag within its capacity, unless it is a merge that brings too much. -/
theorem fits_act {b : Bag} (hcapacity : b.capacity ≤ maxCapacity) (h : b.Fits) {a : Action}
    (ha : ∀ other, a = .merge other → b.items.length + other.items.length ≤ maxCapacity) :
    (b.act a).Fits := by
  cases a with
  | add d =>
    obtain ⟨hroom, hadd⟩ | ⟨-, hadd⟩ := b.add_cases d
    · rw [act, hadd, Fits, List.length_append]
      exact hroom
    · rwa [act, hadd]
  | merge other => exact (fits_merge_iff hcapacity other).2 (ha other rfl)
  | sort =>
    rw [act, Fits, sort, List.length_mergeSort]
    exact h
  | dedup => exact Nat.le_trans (length_firstOfEach_le b.items []) h

/-! ## Runs -/

theorem capacity_actAll_le (limit : Int) (actions : List Action) :
    ((ofLimit limit).actAll actions).capacity ≤ maxCapacity := by
  induction actions using List.reverseRecOn with
  | nil => exact Nat.min_le_right _ _
  | append_singleton actions a ih =>
    rw [actAll_concat]
    exact capacity_act_le ih a

/-- A run stays within the capacity if every merge of it does. -/
theorem fits_actAll {limit : Int} {actions : List Action}
    (h : ∀ done other, done ++ [.merge other] <+: actions →
      ((ofLimit limit).actAll done).items.length + other.items.length ≤ maxCapacity) :
    ((ofLimit limit).actAll actions).Fits := by
  induction actions using List.reverseRecOn with
  | nil => exact Nat.zero_le _
  | append_singleton actions a ih =>
    -- The merges before the last action are merges of the whole run too.
    have hbefore := ih fun done other hdone => h done other (hdone.trans (List.prefix_append _ _))
    rw [actAll_concat]
    refine fits_act (capacity_actAll_le limit actions) hbefore fun other ha => ?_
    exact h actions other (ha ▸ List.prefix_rfl)

/-- **A bag respects its capacity, up to what a capacity can be.**  Whatever was done to a bag, the
next action does not lower its capacity, a diagnostic is kept exactly if there is room for it, and a
merge loses nothing.  The bag holds no more than its capacity at every point of a run exactly if no
merge makes it hold more than `maxCapacity`. -/
theorem capacity_respected_iff (limit : Int) (actions : List Action) :
    let b := (ofLimit limit).actAll actions
    (∀ a, b.capacity ≤ (b.act a).capacity) ∧
    (∀ d, ((b.act (.add d)).items = b.items ++ [d] ↔ b.items.length < b.capacity) ∧
      (b.capacity ≤ b.items.length → b.act (.add d) = b)) ∧
    (∀ other, (b.act (.merge other)).items = b.items ++ other.items) ∧
    ((∀ done, done <+: actions → ((ofLimit limit).actAll done).Fits) ↔
      ∀ done other, done ++ [.merge other] <+: actions →
        ((ofLimit limit).actAll done).items.length + other.items.length ≤ maxCapacity) := by
  intro b
  refine ⟨capacity_le_act b, fun d => ?_, items_merge b, fun h done other hdone => ?_,
    fun h done hdone => ?_⟩
  · obtain ⟨hroom, hadd⟩ | ⟨hfull, hadd⟩ := b.add_cases d
    · exact ⟨iff_of_true (by rw [act, hadd]) hroom, fun hfull => absurd hfull (by omega)⟩
    · exact ⟨iff_of_false (by simp [act, hadd]) (by omega), fun _ => hadd⟩
  · have hfits := h _ hdone
    rw [actAll_concat] at hfits
    exact (fits_merge_iff (capacity_actAll_le limit done) other).1 hfits
  · exact fits_actAll fun before other hbefore => h before other (hbefore.trans hdone)

/-- A diagnostic is added to a bag, and then the bag is merged with a copy of itself, again and
again. -/
def doublings (d : Diagnostic) (n : Nat) : List Action :=
  .add d :: (List.range n).map fun i => .merge ⟨2 ^ i, List.replicate (2 ^ i) d⟩

theorem doublings_succ (d : Diagnostic) (n : Nat) :
    doublings d (n + 1) = doublings d n ++ [.merge ⟨2 ^ n, List.replicate (2 ^ n) d⟩] := by
  simp [doublings, List.range_succ]

/-- As long as there is room, the bag that is merged is the bag itself. -/
theorem actAll_doublings (d : Diagnostic) {n : Nat} (hn : n ≤ 15) :
    (ofLimit 1).actAll (doublings d n) = ⟨2 ^ n, List.replicate (2 ^ n) d⟩ := by
  induction n with
  | zero => rfl
  | succ n ih =>
    have hpow : 2 ^ n + 2 ^ n ≤ maxCapacity := by
      have : 2 ^ n ≤ 2 ^ 14 := Nat.pow_le_pow_right (by decide) (by omega)
      unfold maxCapacity
      omega
    have hgrow : 2 ^ n < 2 ^ n + 2 ^ n := by have := Nat.two_pow_pos n; omega
    rw [doublings_succ, actAll_concat, ih (by omega), act, merge]
    simp only [List.length_replicate, List.replicate_append_replicate]
    rw [if_pos ⟨hpow, hgrow⟩, Nat.pow_succ, Nat.mul_two]

/-- The bag that is merged with itself for the sixteenth time holds twice its capacity. -/
theorem merge_outgrows_capacity :
    ((ofLimit 1).actAll (doublings default 16)).items.length = 65536 ∧
      ((ofLimit 1).actAll (doublings default 16)).capacity = 32768 := by
  rw [doublings_succ, actAll_concat, actAll_doublings default (by omega), act]
  constructor
  · simp only [items_merge, List.length_append, List.length_replicate]
    norm_num
  · simp only [capacity_merge, List.length_replicate]
    rw [if_neg (by decide)]
    norm_num

end Bag

end ShaderScript
