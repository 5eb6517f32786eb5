import ShaderScript.Proofs.Reuse
import ShaderScript.Proofs.Traversal

/-!
# Assignments that are used as values

Where the dialect has no assignments inside of expressions, an assignment or a step is fine as a
statement and an error anywhere else.  A node stands as a statement if it is an element of a
program, a scope or a list of declarations, the body of a function, a branch or a loop, the start or
the step of a `for`, the expression of a statement, or the whole tree: `Node.sites` hands
`Standing.statement` down to these and `Standing.operand` to all others.
-/

namespace ShaderScript

open Lowering

/-! ## Sites -/

/-- The report of an assignment that is used as a value. -/
def assignmentAsValue (style : Style) (used : Position × String) : Diagnostic :=
  .error .assignInExpression used.1
    (Text.quoted used.2 ++ " is used as a value; the " ++ style.name ++
      " style only supports it as a statement")

namespace Site

/-- The position and the token of an assignment that does not stand as a statement.  In a subscript
of a target nothing does. -/
def usedAsValue? : Site → Option (Position × String)
  | .assignment pos token .operand => some (pos, token)
  | .subscript site => site.usedAsValue?
  | _ => none

/-- The assignments used as values among the sites before the first fault. -/
def usedAsValues (sites : List Site) : List (Position × String) :=
  (sound sites).filterMap usedAsValue?

/-- Of what a site is worth, only an assignment used as a value is reported as such. -/
theorem filter_reports {s : Surroundings} (hstrict : s.style.dialect.assignsInExpressions = false)
    (site : Site) :
    (site.reports s).filter (·.code = .assignInExpression) =
      site.usedAsValue?.toList.map (assignmentAsValue s.style) := by
  induction site with
  | assignment pos token st =>
    rw [reports, assignmentReports, hstrict]
    cases st <;> rfl
  | inert pos token | item | selector | target => rfl
  | parameter pos name function | declared pos name =>
    rw [reports]
    split <;> rfl
  | subscript site ih => exact ih

theorem filter_flatMap_reports {s : Surroundings}
    (hstrict : s.style.dialect.assignsInExpressions = false) (sites : List Site) :
    (sites.flatMap (reports s)).filter (·.code = .assignInExpression) =
      (sites.filterMap usedAsValue?).map (assignmentAsValue s.style) := by
  induction sites with
  | nil => rfl
  | cons site rest ih =>
    rw [List.flatMap_cons, List.filter_append, filter_reports hstrict, ih]
    cases hused : site.usedAsValue? with
    | none | some used => simp [hused]

/-- An assignment has no fault of its own. -/
theorem usedAsValues_assignment (pos : Position) (token : String) (st : Standing)
    (rest : List Site) :
    usedAsValues (.assignment pos token st :: rest) =
      (usedAsValue? (.assignment pos token st)).toList ++ usedAsValues rest := by
  have hsound : sound (.assignment pos token st :: rest) =
      .assignment pos token st :: sound rest := rfl
  rw [usedAsValues, hsound, usedAsValues]
  cases st <;> rfl

end Site

/-! ## Roots -/

/-- The position and the token of a node that is an assignment or a step. -/
def Node.assignment? : Node → Option (Position × String)
  | .binaryExpression pos op _ _ =>
    (assignmentOperators.lookup op.text).map fun _ => (pos, op.text)
  | .unaryExpression pos op _ => (stepOperators.lookup op.text).map fun _ => (pos, op.text)
  | .postfixExpression pos (.token _ token) _ =>
    (stepOperators.lookup token).map fun _ => (pos, token)
  | _ => none

/-- As an operand, a tree has the assignments that it has as a statement, behind itself if it is one
too. -/
theorem usedAsValues_operand (inside : Bool) (n : Node) :
    Site.usedAsValues (n.sites inside .operand) =
      n.assignment?.toList ++ Site.usedAsValues (n.sites inside .statement) := by
  cases n with
  | binaryExpression pos op left right =>
    -- The node itself counts if its operator assigns.
    rw [Node.sites, Node.sites, Node.assignment?]
    cases assignmentOperators.lookup op.text with
    | none => rfl
    | some operator =>
      simp only [List.cons_append, Site.usedAsValues_assignment]
      rfl
  | unaryExpression pos op e =>
    rw [Node.sites, Node.sites, Node.assignment?]
    cases stepOperators.lookup op.text with
    | none => rfl
    | some operator =>
      simp only [Site.usedAsValues_assignment]
      rfl
  | postfixExpression pos op e =>
    cases op with
    | selector => rw [Node.sites, Node.sites]; rfl
    | token pos' token =>
      rw [Node.sites, Node.sites, Node.assignment?]
      cases stepOperators.lookup token with
      | none => rfl
      | some operator =>
        simp only [Site.usedAsValues_assignment]
        rfl
  | _ => simp only [Node.sites, Node.assignment?, Option.toList_none, List.nil_append]

/-! ## Shaders -/

/-- Of the shaders that a generator of the Python style lowers in order, each is reported to use an
assignment as a value once for every assignment, compound assignment or step that is met before the
first fault and does not stand as a statement, in the order of the traversal, with its position and
its token.  The tree of a shader stands as a statement too; if it did not, it would be reported
ahead of the others when it is an assignment itself. -/
theorem value_assignments_reported (shaders : List (Option Shader)) :
    (Generator.generateAll { style := .python } shaders).map
        (·.reports.filter (·.code = .assignInExpression)) =
      shaders.map (fun shader =>
        (Site.usedAsValues (sitesOf shader)).map (assignmentAsValue .python)) ∧
    ∀ shader, Site.usedAsValues ((treeOf shader).sites false .operand) =
      (treeOf shader).assignment?.toList ++ Site.usedAsValues (sitesOf shader) := by
  refine ⟨?_, fun shader => usedAsValues_operand false (treeOf shader)⟩
  rw [Generator.generateAll_fresh { style := .python } rfl, List.map_map]
  apply List.map_congr_left
  intro shader _
  rw [Function.comp_apply, (generate_tells .python shader).1]
  exact Site.filter_flatMap_reports rfl (Site.sound (sitesOf shader))

/-- A tree that is an assignment is lowered as a statement, and not reported. -/
theorem root_assignment_unreported :
    let tree : Node := .binaryExpression .unknown (.token .unknown "=") (.identifier .unknown "x")
      (.floatLiteral .unknown 1)
    (generate .python (some { tree })).reports = [] ∧
      Site.usedAsValues (tree.sites false .operand) = [(.unknown, "=")] := by
  refine ⟨?_, by decide⟩
  rw [(generate_tells .python _).1]
  rfl

end ShaderScript
