import ShaderScript.Proofs.Orderly
import ShaderScript.Proofs.SharedScript

/-!
# What a step changes

In Python an assignment binds its name in the function it stands in.  So a function changes no
activation but its own: evaluating an expression leaves every activation as it was, whatever it
calls, and executing statements changes the innermost one at most.  Activations are added and never
dropped, no name is lost, and the record of accesses only grows (`Kept`).
-/

namespace ShaderScript

open Running

variable {i : Nat} {a : Activation}

/-! ## Activations -/

theorem lookup_assignIn (name : String) (datum : Datum) (a : Activation) (n : String) :
    (assignIn name datum a).lookup n = if n = name then some (some datum) else a.lookup n := by
  have hcons : ∀ (m : String) (old : Option Datum) (rest : Activation),
      ((m, old) :: rest).lookup n = if n = m then some old else rest.lookup n := by
    intro m old rest
    rw [List.lookup_cons]
    by_cases h : n = m
    · simp [h]
    · rw [if_neg h, beq_eq_false_iff_ne.mpr h]
  induction a with
  | nil => rw [assignIn, hcons]
  | cons p rest ih =>
    obtain ⟨m, old⟩ := p
    rw [assignIn]
    by_cases hm : m = name
    · rw [if_pos hm, hcons, hcons, hm]
      by_cases h : n = name <;> simp [h]
    · rw [if_neg hm, hcons, hcons, ih]
      by_cases h : n = m
      · rw [if_pos h, if_pos h, if_neg (h ▸ hm)]
      · rw [if_neg h, if_neg h]

theorem isSome_lookup_assignIn (name : String) (datum : Datum) {n : String}
    (h : (a.lookup n).isSome = true) : ((assignIn name datum a).lookup n).isSome = true := by
  rw [lookup_assignIn]
  split
  · rfl
  · exact h

theorem lookup_map_const (names : List String) (start : Option Datum) (n : String) :
    (names.map fun m => (m, start)).lookup n = if n ∈ names then some start else none := by
  induction names with
  | nil => rfl
  | cons m names ih =>
    rw [List.map_cons, List.lookup_cons, ih]
    by_cases h : n = m
    · simp [h]
    · rw [beq_eq_false_iff_ne.mpr h]
      simp [h]

theorem getD_modify (as : Array Activation) (i j : Nat) (f : Activation → Activation) :
    (as.modify i f).getD j [] = if i = j ∧ j < as.size then f (as.getD j []) else as.getD j [] := by
  simp only [Array.getD_eq_getD_getElem?, Array.getElem?_modify]
  by_cases hij : i = j
  · by_cases hj : j < as.size
    · simp [hij, hj]
    · simp [hij, hj]
  · simp [hij]

theorem getD_push (as : Array Activation) (a : Activation) (j : Nat) :
    (as.push a).getD j [] = if j = as.size then a else as.getD j [] := by
  simp only [Array.getD_eq_getD_getElem?, Array.getElem?_push]
  split <;> rfl

/-! ## What a world holds -/

/-- A function that both dialects read alike, and in which they bind the same names. -/
structure Closure.Shared (f : Closure) (names : List String) : Prop where
  parameters : ∀ d, Stmt.parameterNames? d f.parameters = some names
  bound : ∀ n, n ∈ names ++ Stmt.allBound .javaScript f.body ↔
    n ∈ names ++ Stmt.allBound .python f.body
  body : ∀ s ∈ f.body, s.Shared

/-- Whether an activation has all of the names. -/
def World.Binds (w : World) (i : Nat) (names : List String) : Prop :=
  ∀ n ∈ names, ((w.activations.getD i []).lookup n).isSome = true

/-- What is left of a world after some steps: activations were only added, those that were there
before and are not in `own` are as they were, no name was lost, and the environment is the same or
its record is longer. -/
structure Kept (own : List Nat) (w v : World) : Prop where
  size : w.activations.size ≤ v.activations.size
  others : ∀ i < w.activations.size, i ∉ own →
    v.activations.getD i [] = w.activations.getD i []
  names : ∀ i n, ((w.activations.getD i []).lookup n).isSome = true →
    ((v.activations.getD i []).lookup n).isSome = true
  record : v.environment = w.environment ∨
    w.environment.accesses.length < v.environment.accesses.length

namespace Kept

variable {own : List Nat} {w u v : World}

theorem refl (own : List Nat) (w : World) : Kept own w w where
  size := Nat.le_refl _
  others _ _ _ := rfl
  names _ _ h := h
  record := .inl rfl

theorem trans (h : Kept own w u) (h' : Kept own u v) : Kept own w v where
  size := Nat.le_trans h.size h'.size
  others i hi hown := by
    rw [h'.others i (Nat.lt_of_lt_of_le hi h.size) hown, h.others i hi hown]
  names i n hn := h'.names i n (h.names i n hn)
  record := by
    rcases h.record with heq | hlt
    · rw [← heq]
      exact h'.record
    · rcases h'.record with heq' | hlt'
      · rw [heq']
        exact .inr hlt
      · exact .inr (Nat.lt_trans hlt hlt')

theorem mono {own' : List Nat} (hown : ∀ i ∈ own, i ∈ own') (h : Kept own w v) :
    Kept own' w v where
  size := h.size
  others i hi hnot := h.others i hi fun hmem => hnot (hown i hmem)
  names := h.names
  record := h.record

/-- What is changed in a new activation only changes nothing that was there. -/
theorem trans_new (h : Kept [] w u) (h' : Kept [i] u v) (hi : w.activations.size ≤ i) :
    Kept [] w v where
  size := Nat.le_trans h.size h'.size
  others j hj _ := by
    -- What was there before has a smaller number than the new activation.
    have hne : j ∉ [i] := by
      rw [List.mem_singleton]
      exact Nat.ne_of_lt (Nat.lt_of_lt_of_le hj hi)
    rw [h'.others j (Nat.lt_of_lt_of_le hj h.size) hne, h.others j hj List.not_mem_nil]
  names j n hn := h'.names j n (h.names j n hn)
  record := ((h.mono fun _ h => absurd h List.not_mem_nil).trans h').record

theorem binds {names : List String} (h : Kept own w v) (hbinds : w.Binds i names) :
    v.Binds i names :=
  fun n hn => h.names i n (hbinds n hn)

end Kept

/-! ## Steps -/

/-- Reading a global as a function of the world. -/
theorem readGlobal_apply (d : Dialect) (name : String) (w : World) :
    readGlobal d name w =
      (match (w.environment.get name).1 with
        | some v => .ok (d.incoming v)
        | none => .error (.undefinedGlobal name),
        { w with environment := (w.environment.get name).2 }) := by
  unfold readGlobal
  rw [bind_apply, get_apply]
  dsimp only
  rw [bind_apply, set_apply]
  cases (w.environment.get name).1 <;> rfl

/-- A change of the environment that is recorded. -/
theorem kept_environment {w : World} {environment : Environment} {access : Access}
    (h : environment.accesses = w.environment.accesses ++ [access]) :
    Kept [] w { w with environment } := by
  refine ⟨Nat.le_refl _, fun _ _ _ => rfl, fun _ _ h => h, .inr ?_⟩
  simp only [h, List.length_append, List.length_singleton]
  exact Nat.lt_succ_self _

theorem kept_console (w : World) (console : Console) : Kept [] w { w with console } :=
  ⟨Nat.le_refl _, fun _ _ _ => rfl, fun _ _ h => h, .inl rfl⟩

/-- A name that the innermost activation has is assigned there. -/
theorem kept_writeVariable {w : World} (scope : List Nat) {name : String}
    (hname : ((w.activations.getD i []).lookup name).isSome = true) (datum : Datum) :
    Kept [i] w (writeVariable (i :: scope) name datum w).2 := by
  have hplace : (findActivation w name (i :: scope)).getD 0 = i := by
    rw [findActivation, if_pos hname]
    rfl
  have hactivations : (writeVariable (i :: scope) name datum w).2.activations =
      w.activations.modify i (assignIn name datum) := by
    change w.activations.modify ((findActivation w name (i :: scope)).getD 0) _ = _
    rw [hplace]
  refine ⟨?_, fun j _ hj => ?_, fun j n hn => ?_, .inl rfl⟩
  · exact Nat.le_of_eq (by rw [hactivations, Array.size_modify])
  · rw [List.mem_singleton] at hj
    rw [hactivations, getD_modify, if_neg fun h => hj h.1.symm]
  · rw [hactivations, getD_modify]
    split
    · exact isSome_lookup_assignIn name datum hn
    · exact hn

/-- Entering a function adds its activation. -/
theorem kept_push (w : World) (a : Activation) :
    Kept [] w { w with activations := w.activations.push a } := by
  refine ⟨?_, fun j hj _ => ?_, fun j n hn => ?_, .inl rfl⟩
  · simp only [Array.size_push]
    exact Nat.le_succ _
  · rw [getD_push, if_neg (Nat.ne_of_lt hj)]
  · rw [getD_push]
    split
    · rename_i hj
      rw [hj, Array.getD_eq_getD_getElem?, Array.getElem?_size] at hn
      cases hn
    · exact hn

end ShaderScript
