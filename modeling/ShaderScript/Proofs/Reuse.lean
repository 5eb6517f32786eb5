import ShaderScript.Diagnostic.Bag
import ShaderScript.Proofs.LoweringShape

/-!
# Generators that are used again

A generator keeps its draft from one shader to the next.  Lowering a shader starts from a draft
that is empty but for where the node at hand stands, and that is the same before and after, also
when lowering fails (`generate_standing`).  So what was lowered before makes no difference: one
generator makes of a list of shaders what a fresh one makes of each (`generateAll_fresh`).

A bag that takes the reports one by one ends up with the first of them, as many as it has room for
(`items_addAll`).
-/

namespace ShaderScript

/-! ## What a bag keeps without a filter -/

/-- Adding diagnostics in order keeps the first ones, as far as there is room. -/
theorem Bag.items_addAll (b : Bag) (ds : List Diagnostic) :
    (b.addAll ds).items = b.items ++ ds.take (b.capacity - b.items.length) := by
  induction ds generalizing b with
  | nil => simp [Bag.addAll]
  | cons d rest ih =>
    have hstep : b.addAll (d :: rest) = (b.add d).addAll rest := rfl
    rw [hstep, ih]
    by_cases hroom : b.capacity ≤ b.items.length
    · -- A full bag stays as it is.
      have hadd : b.add d = b := by simp [Bag.add, Bag.isFull, hroom]
      rw [hadd, Nat.sub_eq_zero_of_le hroom, List.take_zero, List.take_zero]
    · have hadd : b.add d = { b with items := b.items ++ [d] } := by
        simp [Bag.add, Bag.isFull, hroom]
      have hleft : b.capacity - b.items.length = (b.capacity - (b.items.length + 1)) + 1 := by omega
      rw [hadd, hleft]
      simp

/-! ## The draft after a shader -/

namespace Generator

/-- A shader without a tree leaves a generator as it is, and any other leaves it with no open block
and the node at hand standing as before.  It makes no difference whether lowering failed. -/
theorem generate_leaves (g : Generator) (shader : Option Shader) :
    (g.generate shader).2 = g ∨
      (g.generate shader).2.style = g.style ∧ (g.generate shader).2.draft.depth = 0 ∧
        (g.generate shader).2.draft.standing = g.draft.standing := by
  cases shader with
  | none => exact .inl rfl
  | some shader =>
    cases htree : shader.tree.isAbsent with
    | true => exact .inl (by simp [generate, htree])
    | false =>
      obtain ⟨r, hmakes, _⟩ := g.exists_makes shader
      obtain ⟨written, hgenerate, _⟩ := hmakes.generate_eq htree
      rw [hgenerate]
      exact .inr ⟨rfl, rfl, rfl⟩

theorem generate_style (g : Generator) (shader : Option Shader) :
    (g.generate shader).2.style = g.style := by
  rcases g.generate_leaves shader with hsame | ⟨hstyle, _, _⟩
  · rw [hsame]
  · exact hstyle

theorem generate_standing (g : Generator) (shader : Option Shader) :
    (g.generate shader).2.draft.standing = g.draft.standing := by
  rcases g.generate_leaves shader with hsame | ⟨_, _, hstanding⟩
  · rw [hsame]
  · exact hstanding

/-- A generator whose node at hand stands as it does at the start makes of a shader what a fresh one
makes of it. -/
theorem generate_fresh (g : Generator) (h : g.draft.standing = .operand) (shader : Option Shader) :
    (g.generate shader).1 = ShaderScript.generate g.style shader := by
  have hstart : g.start = Generator.start { style := g.style } := by simp only [start, h]
  unfold ShaderScript.generate generate
  cases shader with
  | none => rfl
  | some shader =>
    dsimp only
    split
    · rfl
    · rw [hstart]

/-- One generator makes of a list of shaders what a fresh one makes of each. -/
theorem generateAll_fresh (g : Generator) (h : g.draft.standing = .operand)
    (shaders : List (Option Shader)) :
    g.generateAll shaders = shaders.map (ShaderScript.generate g.style) := by
  induction shaders generalizing g with
  | nil => rfl
  | cons shader rest ih =>
    have hnext : (g.generate shader).2.draft.standing = .operand := by
      rw [generate_standing, h]
    have hrest := ih (g.generate shader).2 hnext
    rw [generate_style] at hrest
    calc g.generateAll (shader :: rest)
        = (g.generate shader).1 :: (g.generate shader).2.generateAll rest := rfl
      _ = (shader :: rest).map (ShaderScript.generate g.style) := by
        rw [generate_fresh g h, hrest, List.map_cons]

end Generator

/-- A generator that is used again leaks nothing: of the shaders that it lowers in order, each gives
the result and the reports that it gives in a fresh generator, and a bag that takes the reports as
they come holds the first ones of those that the fresh generators make, up to its capacity. -/
theorem reused_generator_leaks_nothing (style : Style) (shaders : List (Option Shader)) :
    (∀ i : Nat, (Generator.generateAll { style } shaders)[i]? =
      (shaders[i]?).map (generate style)) ∧
    ∀ limit : Nat,
      (Bag.addAll { capacity := limit }
        ((Generator.generateAll { style } shaders).flatMap Generation.reports)).items =
      (shaders.flatMap fun shader => (generate style shader).reports).take limit := by
  have hall := Generator.generateAll_fresh { style } rfl shaders
  refine ⟨fun i => ?_, fun limit => ?_⟩
  · rw [hall, List.getElem?_map]
  · rw [Bag.items_addAll, hall, List.flatMap_map]
    rfl

end ShaderScript
