import ShaderScript.Proofs.LoweringShape

/-!
# Positions are never looked at

A shader without positions is lowered to the same script as the shader itself, with the same reports
and the same error up to their own positions.
-/

namespace ShaderScript

open Lowering

namespace Generator

theorem reports_unplaced {s : Surroundings} {xs xs' : List Diagnostic}
    (h : List.Forall₂ (guise s s.style id).reports xs xs') :
    xs' = xs.map Diagnostic.unplaced := by
  induction h with
  | nil => rfl
  | cons hx _ ih => rw [List.map_cons, ih, hx.2 rfl]

/-- A generator makes of a shader without positions what it makes of the shader, without the
positions. -/
theorem generate_unplaced (g : Generator) (shader : Option Shader) :
    (g.generate (shader.map Shader.unplaced)).1 = (g.generate shader).1.unplaced := by
  cases shader with
  | none => rfl
  | some shader =>
    have habsent : shader.unplaced.tree.isAbsent = shader.tree.isAbsent :=
      shader.tree.isAbsent_unplaced
    cases htree : shader.tree.isAbsent with
    | true =>
      simp only [generate, Option.map_some, habsent, htree, if_true]
      rfl
    | false =>
      -- Lowered side by side with the same names, the shaders differ in positions only.
      obtain ⟨r, r', reports', hm, hm', hr, hreports, _⟩ :=
        lower_alike g g rfl shader (Naming.suits_id _)
      rw [Shader.rename_id] at hm'
      obtain ⟨written, hmade, hwritten⟩ := hm.generate_eq htree
      obtain ⟨written', hmade', hwritten'⟩ := hm'.generate_eq (habsent.trans htree)
      rw [Option.map_some, hmade, hmade', reports_unplaced (hreports rfl)]
      cases hr with
      | @ok script script' hscript =>
        rw [Script.rename_id] at hscript
        subst hscript
        rw [hwritten _ rfl, hwritten' _ rfl]
        rfl
      | error he =>
        rw [he rfl]
        rfl

end Generator

/-- Positions never influence what is generated: for two shaders that are the same but for the
positions of their nodes, a generator of any style makes the same script, and so the same source, of
both, or fails on both with the same error but for its position; and what it reports agrees in
number, order, severity, code and message. -/
theorem positions_unseen (g : Generator) {shader shader' : Option Shader}
    (h : shader.map Shader.unplaced = shader'.map Shader.unplaced) :
    ((∃ script, (g.generate shader).1.result = .ok script ∧
        (g.generate shader').1.result = .ok script) ∨
      ∃ e e', (g.generate shader).1.result = .error e ∧
        (g.generate shader').1.result = .error e' ∧ e.unplaced = e'.unplaced) ∧
    (g.generate shader).1.reports.map Diagnostic.unplaced =
      (g.generate shader').1.reports.map Diagnostic.unplaced := by
  have hmade : (g.generate shader).1.unplaced = (g.generate shader').1.unplaced := by
    rw [← g.generate_unplaced, ← g.generate_unplaced, h]
  obtain ⟨hresult, _, hreports⟩ := Generation.mk.inj hmade
  refine ⟨?_, hreports⟩
  cases hr : (g.generate shader).1.result with
  | ok script =>
    cases hr' : (g.generate shader').1.result with
    | ok script' =>
      rw [hr, hr'] at hresult
      have hsame : script = script' := Except.ok.inj hresult
      exact .inl ⟨script, rfl, hsame ▸ rfl⟩
    | error e' =>
      rw [hr, hr'] at hresult
      cases hresult
  | error e =>
    cases hr' : (g.generate shader').1.result with
    | ok script' =>
      rw [hr, hr'] at hresult
      cases hresult
    | error e' =>
      rw [hr, hr'] at hresult
      exact .inr ⟨e, e', rfl, rfl, Except.error.inj hresult⟩

/-- `void main() { g = h = 1.0; }` with the nodes at two positions. -/
def chainedShader (outer inner : Position) : Shader where
  tree :=
    .program outer [.functionDeclaration outer "main" (.type inner "void" "" "") []
      (.scope inner [.expressionStatement outer
        (.binaryExpression inner (.token outer "=") (.identifier inner "g")
          (.binaryExpression outer (.token inner "=") (.identifier outer "h")
            (.floatLiteral inner 1)))])]
  varyings := [⟨"g", ""⟩, ⟨"h", ""⟩]

/-- In Python the inner assignment is reported, at its place in each of the two shaders. -/
theorem positions_unseen_chainedShader :
    (some (chainedShader ⟨1, 1⟩ ⟨2, 5⟩)).map Shader.unplaced =
      (some (chainedShader ⟨7, 3⟩ .unknown)).map Shader.unplaced ∧
    (∃ script, (generate .python (chainedShader ⟨1, 1⟩ ⟨2, 5⟩)).result = .ok script ∧
      (generate .python (chainedShader ⟨7, 3⟩ .unknown)).result = .ok script) ∧
    (generate .python (chainedShader ⟨1, 1⟩ ⟨2, 5⟩)).reports.map Diagnostic.unplaced =
      (generate .python (chainedShader ⟨7, 3⟩ .unknown)).reports.map Diagnostic.unplaced ∧
    (generate .python (chainedShader ⟨1, 1⟩ ⟨2, 5⟩)).reports.map Diagnostic.pos = [⟨1, 1⟩] ∧
    (generate .python (chainedShader ⟨7, 3⟩ .unknown)).reports.map Diagnostic.pos = [⟨7, 3⟩] := by
  have hsame : (some (chainedShader ⟨1, 1⟩ ⟨2, 5⟩)).map Shader.unplaced =
      (some (chainedShader ⟨7, 3⟩ .unknown)).map Shader.unplaced := rfl
  have hlowered :
      (generate .python (chainedShader ⟨1, 1⟩ ⟨2, 5⟩)).result.toBool = true := by decide +kernel
  have hfresh : ∀ shader, (Generator.generate { style := .python } shader).1 =
      generate .python shader := fun _ => rfl
  have hunseen := positions_unseen { style := .python } hsame
  rw [hfresh, hfresh] at hunseen
  refine ⟨hsame, ?_, hunseen.2, by decide +kernel, by decide +kernel⟩
  rcases hunseen.1 with hscript | ⟨e, _, he, _⟩
  · exact hscript
  · rw [he] at hlowered
    cases hlowered

end ShaderScript
