import ShaderScript.Proofs.LoweringShape

/-!
# What lowering tells

A visit tells the sites of its tree, so what is reported of a whole shader and why lowering fails
can be read off the list of its sites.
-/

namespace ShaderScript

open Lowering

variable {e : LoweringError}

namespace LoweringError

theorem isUnsupportedNode_inTarget (e : LoweringError) :
    e.inTarget.isUnsupportedNode = e.isUnsupportedNode := by
  unfold inTarget
  split
  · rfl
  · rfl

/-- An error about a node without a rule is one about a target, and says so. -/
theorem isTarget_of_isUnsupportedNode (h : e.isUnsupportedNode = true) :
    e.isTarget = true ∧ ∃ detail, e.message = "unsupported assignment target: " ++ detail := by
  cases e with
  | target error => exact ⟨rfl, error.detail, rfl⟩
  | within error => exact ⟨rfl, error.message, rfl⟩
  | _ => cases h

end LoweringError

namespace Site

open Occurrence

variable (s : Surroundings)

variable {site : Site}

/-- A site is worth warnings of three kinds, and in some styles an error. -/
theorem kind_of_mem_reports {d : Diagnostic} (h : d ∈ site.reports s) :
    (d.severity = .warning ∧
        d.code ∈ [Code.unsupportedOperator, .globalParameter, .globalRedeclared]) ∨
      (d.severity = .error ∧ d.code = .assignInExpression ∧
        s.style.dialect.assignsInExpressions = false) := by
  induction site with
  | assignment pos token st =>
    rw [reports, assignmentReports] at h
    split at h
    · cases h
    · rename_i hallowed
      rw [List.mem_singleton.mp h]
      rw [Bool.or_eq_true, not_or] at hallowed
      exact .inr ⟨rfl, rfl, Bool.eq_false_iff.mpr hallowed.1⟩
  | inert pos token =>
    rw [List.mem_singleton.mp h]
    exact .inl ⟨rfl, by simp [Diagnostic.warning]⟩
  | parameter pos name function | declared pos name =>
    rw [reports] at h
    split at h
    · rw [List.mem_singleton.mp h]
      exact .inl ⟨rfl, by simp [Diagnostic.warning]⟩
    · cases h
  | subscript site ih => exact ih h
  | item | selector | target => cases h

/-- What is worth a report is no fault. -/
theorem reports_of_fault (h : site.fault ≠ none) : site.reports s = [] := by
  induction site with
  | item | selector | target => rfl
  | assignment | inert | parameter | declared => exact absurd rfl h
  | subscript site ih =>
    apply ih
    intro hnone
    exact h (by rw [fault, hnone]; rfl)

/-- The sites before the first fault. -/
def sound (sites : List Site) : List Site :=
  sites.takeWhile (·.fault.isNone)

theorem reportsIn_story (sites : List Site) :
    reportsIn (story s sites) = (sound sites).flatMap (reports s) := by
  induction sites with
  | nil => rfl
  | cons site rest ih =>
    rw [story_cons, sound, List.takeWhile_cons]
    cases hfault : site.fault with
    | none =>
      have hsite : site.occurrences s = (site.reports s).map .report := by
        rw [occurrences, hfault]
        exact List.append_nil _
      -- A sound site does not end the story, so the rest is told too.
      rw [reportsIn_append_of_none (failureIn_occurrences s site ▸ hfault), ih, hsite,
        reportsIn_map_report]
      rfl
    | some e =>
      have hsite : site.occurrences s = [.failure e] := by
        rw [occurrences, hfault, reports_of_fault s (by simp [hfault])]
        rfl
      rw [hsite]
      rfl

/-- The site without the subscripts it stands in. -/
def innermost : Site → Site
  | .subscript site => site.innermost
  | site => site

/-- Only targets are at fault for a node that there is no rule for. -/
theorem innermost_of_fault (h : site.fault = some e) (hnode : e.isUnsupportedNode = true) :
    ∃ target tag pos, site.innermost = .target target ∧
      Target.refusal target = some (.target (.unsupported tag pos)) := by
  induction site generalizing e with
  | assignment | inert | parameter | declared => cases h
  | item pos node =>
    cases node <;> cases h
    all_goals cases hnode
  | selector node =>
    -- The errors of selectors that are read are of their own kinds.
    cases node with
    | fieldSelector => cases h
    | indexSelector pos index =>
      by_cases habsent : index.isAbsent = true
      · rw [fault, if_pos habsent] at h
        cases h
        cases hnode
      · rw [fault, if_neg habsent] at h
        cases h
    | _ =>
      cases h
      cases hnode
  | target node =>
    obtain ⟨error, rfl⟩ := Target.eq_target_of_refusal h
    cases error with
    | unsupported tag pos => exact ⟨node, tag, pos, rfl, h⟩
    | _ => cases hnode
  | subscript site ih =>
    -- The error of a subscript is wrapped, and being about an unknown node survives that.
    obtain ⟨inner, hinner, rfl⟩ := Option.map_eq_some_iff.1 h
    rw [LoweringError.isUnsupportedNode_inTarget] at hnode
    exact ih hinner hnode

end Site

/-- The tree of a shader; no shader has none. -/
def treeOf (shader : Option Shader) : Node :=
  shader.elim .absent Shader.tree

/-- What is fixed while a shader is lowered. -/
def surroundingsOf (style : Style) (shader : Option Shader) : Surroundings :=
  ⟨style, fun name => shader.any (·.isGlobal name)⟩

/-- The sites of a shader. -/
def sitesOf (shader : Option Shader) : List Site :=
  (treeOf shader).sites false .statement

theorem sites_of_isAbsent {n : Node} (h : n.isAbsent = true) (inside : Bool) (st : Standing) :
    n.sites inside st = [] := by
  rw [Node.eq_absent_of_isAbsent h, Node.sites]

/-- Lowering a shader reports what its sites are worth up to the first fault, and fails with
that. -/
theorem generate_tells (style : Style) (shader : Option Shader) :
    (generate style shader).reports =
        (Site.sound (sitesOf shader)).flatMap (Site.reports (surroundingsOf style shader)) ∧
      failureOf (generate style shader).result =
        if (treeOf shader).isAbsent then some .noTree
        else (sitesOf shader).findSome? Site.fault := by
  unfold generate
  cases shader with
  | none => exact ⟨rfl, rfl⟩
  | some shader =>
    by_cases habsent : shader.tree.isAbsent = true
    · have hsites : sitesOf (some shader) = [] := sites_of_isAbsent habsent _ _
      rw [Generator.generate]
      dsimp only
      rw [if_pos habsent, hsites]
      exact ⟨rfl, (if_pos habsent).symm⟩
    · obtain ⟨r, hmakes, hfailure⟩ := Generator.exists_makes { style } shader
      rw [Site.failureIn_story] at hfailure
      rw [Site.reportsIn_story] at hmakes
      obtain ⟨written, hgenerate, _⟩ := hmakes.generate_eq (Bool.eq_false_iff.mpr habsent)
      rw [hgenerate]
      exact ⟨rfl, hfailure.trans (if_neg habsent).symm⟩

/-- Lowering reports warnings of three kinds, and in some styles errors. -/
theorem kind_of_mem_reports {style : Style} {shader : Option Shader} {d : Diagnostic}
    (h : d ∈ (generate style shader).reports) :
    (d.severity = .warning ∧
        d.code ∈ [Code.unsupportedOperator, .globalParameter, .globalRedeclared]) ∨
      (d.severity = .error ∧ d.code = .assignInExpression ∧
        style.dialect.assignsInExpressions = false) := by
  rw [(generate_tells style shader).1] at h
  obtain ⟨site, -, hd⟩ := List.mem_flatMap.mp h
  exact Site.kind_of_mem_reports _ hd

/-- Of what lowering reports, the errors are those of severity `error`. -/
theorem isError_iff_of_mem_reports {style : Style} {shader : Option Shader} {d : Diagnostic}
    (h : d ∈ (generate style shader).reports) : d.isError = true ↔ d.severity = .error := by
  rcases kind_of_mem_reports h with ⟨hwarning, _⟩ | ⟨herror, _⟩
  · simp [Diagnostic.isError, hwarning, Severity.rank]
  · simp [Diagnostic.isError, herror, Severity.rank]

theorem failureOf_eq_some {ε α : Type} {r : Except ε α} {e : ε} :
    failureOf r = some e ↔ r = .error e := by
  cases r <;> simp [failureOf]

/-- A shader fails with an error: it has no tree, or the error is the first fault of its sites. -/
theorem result_eq_error_iff (style : Style) (shader : Option Shader) (e : LoweringError) :
    (generate style shader).result = .error e ↔
      ((treeOf shader).isAbsent = true ∧ e = .noTree) ∨
      ∃ before site after, sitesOf shader = before ++ site :: after ∧
        (∀ earlier ∈ before, earlier.fault = none) ∧ site.fault = some e := by
  rw [← failureOf_eq_some, (generate_tells style shader).2]
  by_cases habsent : (treeOf shader).isAbsent = true
  · have hsites : sitesOf shader = [] := sites_of_isAbsent habsent _ _
    simp [hsites, habsent, eq_comm]
  · rw [if_neg habsent, List.findSome?_eq_some_iff]
    constructor
    · rintro ⟨before, site, after, hsplit, hfault, hbefore⟩
      exact .inr ⟨before, site, after, hsplit, hbefore, hfault⟩
    · rintro (⟨h, -⟩ | ⟨before, site, after, hsplit, hbefore, hfault⟩)
      · exact absurd h habsent
      · exact ⟨before, site, after, hsplit, hfault, hbefore⟩

/-- A shader can be lowered unless it has no tree or one of its sites has a fault. -/
theorem exists_error_iff (style : Style) (shader : Option Shader) :
    (∃ e, (generate style shader).result = .error e) ↔
      (treeOf shader).isAbsent = true ∨ ∃ site ∈ sitesOf shader, site.fault ≠ none := by
  simp only [← failureOf_eq_some, (generate_tells style shader).2]
  by_cases habsent : (treeOf shader).isAbsent = true
  · simp [habsent]
  · simp only [habsent, Bool.false_eq_true, if_false, false_or]
    rw [← Option.isSome_iff_exists, List.findSome?_isSome_iff]
    simp only [Option.isSome_iff_ne_none]

/-- Lowering fails exactly on a shader without a tree and on one with a fault at a site, and it
fails with the first fault.  A node that there is no rule for is only ever met in a target, so the
error is then one about a target. -/
theorem fails_at_first_fault (style : Style) (shader : Option Shader) :
    ((∃ e, (generate style shader).result = .error e) ↔
      (treeOf shader).isAbsent = true ∨ ∃ site ∈ sitesOf shader, site.fault ≠ none) ∧
    (∀ e, (generate style shader).result = .error e ↔
      ((treeOf shader).isAbsent = true ∧ e = .noTree) ∨
      ∃ before site after, sitesOf shader = before ++ site :: after ∧
        (∀ earlier ∈ before, earlier.fault = none) ∧ site.fault = some e) ∧
    (∀ e, (generate style shader).result = .error e → e.isUnsupportedNode = true →
      e.isTarget = true ∧ (∃ detail, e.message = "unsupported assignment target: " ++ detail) ∧
      ∃ site ∈ sitesOf shader, site.fault = some e ∧
        ∃ target tag pos, site.innermost = .target target ∧
          Target.refusal target = some (.target (.unsupported tag pos))) := by
  refine ⟨exists_error_iff style shader, result_eq_error_iff style shader, ?_⟩
  intro e herror hnode
  obtain ⟨htarget, hmessage⟩ := LoweringError.isTarget_of_isUnsupportedNode hnode
  refine ⟨htarget, hmessage, ?_⟩
  obtain ⟨-, rfl⟩ | ⟨before, site, after, hsplit, -, hfault⟩ :=
    (result_eq_error_iff style shader e).1 herror
  · cases hnode
  · exact ⟨site, by simp [hsplit], hfault, Site.innermost_of_fault hfault hnode⟩

end ShaderScript
