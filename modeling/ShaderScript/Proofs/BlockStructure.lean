import ShaderScript.Proofs.Reuse

/-!
# The block structure of scripts

The lines of a script follow a layout grammar.  A statement without a body is one line.  Any other
has an opening line at its own depth, the lines of its bodies one level deeper, and the line that
closes it, if the dialect has one, again at its own depth.  In a dialect that marks blocks by
indentation only, no body is without lines.

`Stmt.LaidOut` is the grammar, and `lines_laidOut` derives the lines of every statement from it.
These are the lines that a generator has written, at whatever depth it was at each moment, when it
has made a script (`generate_lines`).  What the grammar gives is read off a derivation: nothing in a
block stands left of it (`LaidOut.depth_le`), so the lines at depth 0 are those around the script
(`filter_outermost`).
-/

namespace ShaderScript

/-! ## The layout grammar -/

namespace Stmt

mutual

/-- The lines that a statement at a depth may have. -/
inductive LaidOut (d : Dialect) : Nat → Stmt → List Line → Prop
  /-- A statement without a body is one line. -/
  | line {depth : Nat} {s : Stmt} (h : s.hasBody = false) :
      LaidOut d depth s [⟨depth, s.firstLine d⟩]
  /-- A branch, a loop or a function with one body. -/
  | enclosed {depth : Nat} (f : Frame) {body : List Stmt} {inner : List Line}
      (h : BodyLaidOut d (depth + 1) body (f.bodyEnd d) inner) :
      LaidOut d depth (f.around body)
        (⟨depth, (f.around []).firstLine d⟩ :: inner ++ linesAt depth (f.close d))
  /-- A branch with two bodies. -/
  | choice {depth : Nat} (condition : Expr) {body other : List Stmt} {inner inner' : List Line}
      (h : BodyLaidOut d (depth + 1) body [] inner)
      (h' : BodyLaidOut d (depth + 1) other [] inner') :
      LaidOut d depth (.branch condition body (some other))
        (⟨depth, d.branchOpen (condition.text d)⟩ :: inner ++
          ⟨depth, d.otherwiseOpen⟩ :: inner' ++ linesAt depth d.blockClose)

/-- The lines that statements at a depth may have. -/
inductive AllLaidOut (d : Dialect) : Nat → List Stmt → List Line → Prop
  | nil {depth : Nat} : AllLaidOut d depth [] []
  | cons {depth : Nat} {s : Stmt} {rest : List Stmt} {first others : List Line}
      (h : LaidOut d depth s first) (hrest : AllLaidOut d depth rest others) :
      AllLaidOut d depth (s :: rest) (first ++ others)

/-- The lines that a body at a depth may have, of which the last ones are given.  In Python a body
has lines: one without statements is filled with a line of its own. -/
inductive BodyLaidOut (d : Dialect) : Nat → List Stmt → List String → List Line → Prop
  | statements {depth : Nat} {body : List Stmt} {lines : List Line} {last : List String}
      (h : AllLaidOut d depth body lines) (hline : d = .python → lines ++ linesAt depth last ≠ []) :
      BodyLaidOut d depth body last (lines ++ linesAt depth last)
  | filled {depth : Nat} (hd : d = .python) (text : String) :
      BodyLaidOut d depth [] [] [⟨depth, text⟩]

end

/-! ## The lines of statements are derived from the grammar -/

theorem LaidOut.ne_nil {d : Dialect} {depth : Nat} {s : Stmt} {ls : List Line}
    (h : LaidOut d depth s ls) : ls ≠ [] := by
  cases h <;> simp

/-- Statements that are laid out make a body, which is filled if there are none. -/
theorem AllLaidOut.body {d : Dialect} {depth : Nat} {body : List Stmt} {lines : List Line}
    (h : AllLaidOut d depth body lines) (last : List String) :
    BodyLaidOut d depth body last (d.filled depth (lines ++ linesAt depth last)) := by
  unfold Dialect.filled
  split
  case isFalse hsome => exact .statements h fun _ hnone => hsome (List.isEmpty_iff.mpr hnone)
  case isTrue hnone =>
    rw [List.isEmpty_iff, List.append_eq_nil_iff, linesAt, List.map_eq_nil_iff] at hnone
    obtain ⟨rfl, rfl⟩ := hnone
    cases d with
    | javaScript => exact .statements h fun hd => Dialect.noConfusion hd
    | python =>
      -- Every statement has a line, so there is none.
      cases body with
      | nil => exact .filled rfl "pass"
      | cons s rest =>
        generalize hlines : ([] : List Line) = lines at h
        cases h with
        | cons hfirst _ => exact absurd (List.append_eq_nil_iff.mp hlines.symm).1 hfirst.ne_nil

mutual

/-- The lines of every statement can be derived. -/
theorem lines_laidOut (d : Dialect) (depth : Nat) :
    (s : Stmt) → LaidOut d depth s (lines d depth s)
  | .eval _ | .declare .. | .ret _ | .leave | .next => by unfold lines; exact .line rfl
  | .branch condition body none => by
    rw [lines]
    exact .enclosed (.branch condition) ((allLines_laidOut d (depth + 1) body).body _)
  | .branch condition body (some other) => by
    have hbody := (allLines_laidOut d (depth + 1) body).body []
    have hother := (allLines_laidOut d (depth + 1) other).body []
    simp only [linesAt, List.map_nil, List.append_nil] at hbody hother
    rw [lines]
    exact .choice condition hbody hother
  | .loop condition body => by
    rw [lines]
    exact .enclosed (.loop condition) ((allLines_laidOut d (depth + 1) body).body _)
  | .doLoop condition body => by
    rw [lines]
    exact .enclosed (.doLoop condition) ((allLines_laidOut d (depth + 1) body).body _)
  | .function name parameters body => by
    rw [lines]
    exact .enclosed (.function name parameters) ((allLines_laidOut d (depth + 1) body).body _)

theorem allLines_laidOut (d : Dialect) (depth : Nat) :
    (body : List Stmt) → AllLaidOut d depth body (allLines d depth body)
  | [] => by
    rw [allLines]
    exact .nil
  | s :: rest => by
    rw [allLines]
    exact .cons (lines_laidOut d depth s) (allLines_laidOut d depth rest)

end

/-! ## What stands inside a block -/

theorem depth_of_mem_linesAt {depth : Nat} {texts : List String} {l : Line}
    (h : l ∈ linesAt depth texts) : l.depth = depth := by
  obtain ⟨text, _, rfl⟩ := List.mem_map.mp h
  rfl

/-- An opening line, lines further in, and lines that close the block again. -/
theorem depth_le_of_mem_block {depth : Nat} (text : String) {inner : List Line}
    (close : List String) (hinner : ∀ l ∈ inner, depth + 1 ≤ l.depth) :
    ∀ l ∈ (⟨depth, text⟩ :: inner ++ linesAt depth close : List Line), depth ≤ l.depth := by
  intro l hl
  simp only [List.cons_append, List.mem_cons, List.mem_append] at hl
  rcases hl with rfl | hl | hl
  · exact Nat.le_refl _
  · have := hinner l hl
    omega
  · exact Nat.le_of_eq (depth_of_mem_linesAt hl).symm

mutual

/-- No line of a statement stands left of it. -/
theorem LaidOut.depth_le {d : Dialect} {depth : Nat} {s : Stmt} {ls : List Line} :
    LaidOut d depth s ls → ∀ l ∈ ls, depth ≤ l.depth
  | .line _ => by simp
  | .enclosed f h => depth_le_of_mem_block _ (f.close d) h.depth_le
  | .choice condition h h' => by
    -- The line between the two bodies opens a block as the first line does.
    have hfirst := depth_le_of_mem_block (d.branchOpen (condition.text d)) [] h.depth_le
    have hsecond := depth_le_of_mem_block d.otherwiseOpen d.blockClose h'.depth_le
    rw [linesAt, List.map_nil, List.append_nil] at hfirst
    rw [List.append_assoc]
    exact List.forall_mem_append.2 ⟨hfirst, hsecond⟩

theorem AllLaidOut.depth_le {d : Dialect} {depth : Nat} {body : List Stmt} {ls : List Line} :
    AllLaidOut d depth body ls → ∀ l ∈ ls, depth ≤ l.depth
  | .nil => by simp
  | .cons h hrest => List.forall_mem_append.2 ⟨h.depth_le, hrest.depth_le⟩

theorem BodyLaidOut.depth_le {d : Dialect} {depth : Nat} {body : List Stmt} {last : List String}
    {ls : List Line} : BodyLaidOut d depth body last ls → ∀ l ∈ ls, depth ≤ l.depth
  | .statements h _ =>
    List.forall_mem_append.2 ⟨h.depth_le, fun _ hl => Nat.le_of_eq (depth_of_mem_linesAt hl).symm⟩
  | .filled _ text => by simp

end

end Stmt

/-! ## Whole scripts -/

namespace Script

/-- The lines that a script may have: the line that opens it, its statements with lines before and
after them one level deeper, and the line that closes it, if the dialect has one. -/
def LaidOut (d : Dialect) (s : Script) (ls : List Line) : Prop :=
  ∃ before inner after,
    ls = ⟨0, d.scriptOpen⟩ :: (linesAt 1 before ++ inner ++ linesAt 1 after) ++
      linesAt 0 d.blockClose ∧
    after ≠ [] ∧ Stmt.AllLaidOut d 1 s.body inner

theorem lines_laidOut (d : Dialect) (s : Script) : s.LaidOut d (s.lines d) := by
  refine ⟨opening d, _, ending d s.trap s.entry, rfl, ?_, Stmt.allLines_laidOut d 1 s.body⟩
  simp [ending]

/-- Only the lines that open and close a script stand at depth 0. -/
theorem LaidOut.filter_outermost {d : Dialect} {s : Script} {ls : List Line} (h : s.LaidOut d ls) :
    ls.filter (·.depth = 0) = ⟨0, d.scriptOpen⟩ :: linesAt 0 d.blockClose := by
  obtain ⟨before, inner, after, rfl, _, hinner⟩ := h
  -- What stands inside is at least one level deep.
  have hmiddle : (linesAt 1 before ++ inner ++ linesAt 1 after).filter (·.depth = 0) = [] := by
    apply List.filter_eq_nil_iff.2
    intro l hl
    have hdepth : 1 ≤ l.depth := by
      simp only [List.mem_append] at hl
      rcases hl with (hl | hl) | hl
      · exact Nat.le_of_eq (Stmt.depth_of_mem_linesAt hl).symm
      · exact hinner.depth_le l hl
      · exact Nat.le_of_eq (Stmt.depth_of_mem_linesAt hl).symm
    rw [decide_eq_true_eq]
    omega
  have hclose : (linesAt 0 d.blockClose).filter (·.depth = 0) = linesAt 0 d.blockClose := by
    apply List.filter_eq_self.2
    intro l hl
    rw [Stmt.depth_of_mem_linesAt hl]
    rfl
  rw [List.cons_append, List.filter_cons_of_pos rfl, List.filter_append, hmiddle, hclose,
    List.nil_append]

end Script

/-! ## Generators between shaders -/

namespace Generator

/-- The generator after it lowered shaders in order. -/
def after (g : Generator) : List (Option Shader) → Generator
  | [] => g
  | shader :: rest => (g.generate shader).2.after rest

/-- A generator without an open block has none after a shader either. -/
theorem generate_depth (g : Generator) (h : g.draft.depth = 0) (shader : Option Shader) :
    (g.generate shader).2.draft.depth = 0 := by
  rcases g.generate_leaves shader with hsame | ⟨_, hdepth, _⟩
  · rw [hsame, h]
  · exact hdepth

theorem after_depth (g : Generator) (h : g.draft.depth = 0) (shaders : List (Option Shader)) :
    (g.after shaders).draft.depth = 0 := by
  induction shaders generalizing g with
  | nil => exact h
  | cons shader rest ih => exact ih _ (generate_depth g h shader)

theorem after_style (g : Generator) (shaders : List (Option Shader)) :
    (g.after shaders).style = g.style := by
  induction shaders generalizing g with
  | nil => rfl
  | cons shader rest ih => exact (ih _).trans (generate_style g shader)

theorem after_standing (g : Generator) (shaders : List (Option Shader)) :
    (g.after shaders).draft.standing = g.draft.standing := by
  induction shaders generalizing g with
  | nil => rfl
  | cons shader rest ih => exact (ih _).trans (generate_standing g shader)

end Generator

/-- What a generator has written when it made a script are the lines of the script. -/
theorem Generator.generate_lines {g : Generator} {shader : Option Shader} {script : Script}
    (h : (g.generate shader).1.result = .ok script) :
    (g.generate shader).2.draft.lines = script.lines g.style.dialect ∧
      (g.generate shader).1.source = Line.joined (g.generate shader).2.draft.lines := by
  cases shader with
  | none => cases h
  | some shader =>
    cases htree : shader.tree.isAbsent with
    | true => simp [generate, htree] at h
    | false =>
      obtain ⟨r, hmakes, _⟩ := g.exists_makes shader
      obtain ⟨written, hgenerate, hwritten⟩ := hmakes.generate_eq htree
      rw [hgenerate] at h ⊢
      subst h
      rw [hwritten script rfl]
      exact ⟨List.nil_append _, rfl⟩

/-- Output is block-structured, whatever a generator lowered before.  If it makes a script of a
shader, the lines that it has written one after the other, each at the depth of the moment, follow
the layout grammar; only the lines around the script stand at depth 0; and the source is these
lines.  After a shader, whether it was lowered or not, no block is open and the node at hand stands
as before. -/
theorem generated_block_structured (style : Style) (earlier : List (Option Shader))
    (shader : Option Shader) :
    let g := Generator.after { style } earlier
    let written := (g.generate shader).2.draft.lines
    (∀ script, (g.generate shader).1.result = .ok script →
      (g.generate shader).1.source = String.join (written.map fun l => l.written ++ "\n") ∧
      script.LaidOut style.dialect written ∧
      written.filter (·.depth = 0) =
        ⟨0, style.dialect.scriptOpen⟩ :: linesAt 0 style.dialect.blockClose) ∧
    (g.generate shader).2.draft.depth = 0 ∧
    (g.generate shader).2.draft.standing = g.draft.standing := by
  intro g written
  have hdepth : g.draft.depth = 0 := Generator.after_depth { style } rfl earlier
  have hstyle : g.style = style := Generator.after_style { style } earlier
  refine ⟨fun script hresult => ?_, g.generate_depth hdepth shader, g.generate_standing shader⟩
  obtain ⟨hlines, hsource⟩ := Generator.generate_lines hresult
  have hlaid : script.LaidOut style.dialect written := by
    show script.LaidOut style.dialect (g.generate shader).2.draft.lines
    rw [hlines, hstyle]
    exact script.lines_laidOut style.dialect
  exact ⟨hsource, hlaid, hlaid.filter_outermost⟩

/-- A shader with bodies that come to nothing: that of a `for` loop, and one that holds only a
precision.  Around them is a loop with its test at the end. -/
def hollowShader : Shader where
  tree := .program .unknown
    [.functionDeclaration .unknown "main" (.type .unknown "void" "" "") []
      (.scope .unknown
        [.doStatement .unknown (.booleanLiteral .unknown false)
          (.ifStatement .unknown (.identifier .unknown "on")
            (.scope .unknown [.precision .unknown "highp" "float"])
            (.forStatement .unknown .absent .absent .absent .absent))])]
  uniforms := [⟨"on", ""⟩]

/-- A shader that cannot be lowered because of a subscript that is left out, inside a loop. -/
def brokenShader : Shader where
  tree := .program .unknown
    [.functionDeclaration .unknown "main" (.type .unknown "void" "" "") []
      (.whileStatement .unknown .absent
        (.returnStatement .unknown
          (.postfixExpression .unknown (.selector .unknown (.indexSelector .unknown .absent))
            (.identifier .unknown "a"))))]

/-- The lines of `hollowShader`.  The two bodies without statements are filled, and that of the loop
with its test at the end is not empty. -/
def hollowLines : List Line :=
  [⟨0, "def shader(GLSL, env):"⟩, ⟨1, ""⟩, ⟨1, "RT = GLSL.Runtime"⟩, ⟨1, ""⟩,
   ⟨1, "def V_main():"⟩,
   ⟨2, "while True:"⟩,
   ⟨3, "if env.get('on'):"⟩, ⟨4, "pass"⟩,
   ⟨3, "else:"⟩, ⟨4, "while True:"⟩, ⟨5, "pass"⟩,
   ⟨3, "if not (False): break"⟩,
   ⟨1, ""⟩, ⟨1, "V_main()"⟩]

/-- Loops and branches with empty bodies, after a shader that failed. -/
theorem generated_block_structured_hollowShader :
    let g := Generator.after { style := .python } [none, some brokenShader]
    ∃ script, (g.generate (some hollowShader)).1.result = .ok script ∧
      (g.generate (some hollowShader)).2.draft.lines = hollowLines ∧
      script.LaidOut .python hollowLines ∧ (g.generate (some hollowShader)).2.draft.depth = 0 := by
  have hfresh : (generate .python (some hollowShader)).result.toOption.map (Script.lines .python) =
      some hollowLines := by
    decide +kernel
  have hgood := generated_block_structured .python [none, some brokenShader] (some hollowShader)
  have hstyle := Generator.after_style { style := .python } [none, some brokenShader]
  have hstanding := Generator.after_standing { style := .python } [none, some brokenShader]
  -- What the generator lowered before plays no further part.
  generalize Generator.after { style := .python } [none, some brokenShader] = g
    at hgood hstyle hstanding ⊢
  obtain ⟨hlaid, hdepth, -⟩ := hgood
  have hsame := g.generate_fresh hstanding (some hollowShader)
  rw [hstyle] at hsame
  rw [← hsame] at hfresh
  cases hresult : (g.generate (some hollowShader)).1.result with
  | error e =>
    rw [hresult] at hfresh
    cases hfresh
  | ok script =>
    rw [hresult] at hfresh
    obtain ⟨-, hscript, -⟩ := hlaid script hresult
    have hlines : (g.generate (some hollowShader)).2.draft.lines = hollowLines := by
      rw [(Generator.generate_lines hresult).1, hstyle]
      exact Option.some.inj hfresh
    rw [hlines] at hscript
    exact ⟨script, hresult, hlines, hscript, hdepth⟩

end ShaderScript
