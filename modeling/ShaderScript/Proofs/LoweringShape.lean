import ShaderScript.Proofs.Naming
import ShaderScript.Proofs.PlainNumbers
import ShaderScript.Proofs.Sites
import ShaderScript.Proofs.Unplaced

/-!
# What lowering yields

A tree is lowered beside the same tree for another style, with new names and without positions
(`Alike`): the second visit takes the same steps, and yields the renamed statements and the renamed
expression.  If there are no new names, the errors are the same up to their positions, and for one
style the reports too.  A step tells a story: it reports what comes up before the first failure, and
fails with that.  Where no error is reported although the dialect wants assignments to be
statements, they are (`Stmt.Lowered`).

`visit_alike` says all this of a visit, by one induction over the visits of a tree; each step of
lowering has a rule of its own, and `Alike.bind` puts them together.
-/

namespace ShaderScript

/-! ## The shape of a script whose assignments are statements -/

/-- An expression below statement level, without assignments and literal subscripts. -/
inductive Expr.Operand : Expr → Prop
  | blank : Operand .blank
  | read (slot : Slot) : Operand (.read slot)
  | integer (i : Int) : Operand (.integer i)
  | float (x : Float) : Operand (.float x)
  | bool (b : Bool) : Operand (.bool b)
  | field (selection : String) : Operand (.field selection)
  | bare (token : String) : Operand (.bare token)
  | invoke (member : String) {args : List Expr} (h : ∀ e ∈ args, Operand e) :
      Operand (.invoke member args)
  | call (callee : Slot) {args : List Expr} (h : ∀ e ∈ args, Operand e) :
      Operand (.call callee args)
  | choose {condition whenTrue whenFalse : Expr} (hc : Operand condition) (ht : Operand whenTrue)
      (hf : Operand whenFalse) : Operand (.choose condition whenTrue whenFalse)
  | inert (token : String) {operand : Expr} (h : Operand operand) : Operand (.inert token operand)

/-- A selector of an assignment target. -/
def Expr.Selector (e : Expr) : Prop := e.Operand ∨ ∃ x, e = .index x

/-- What an assignment stores: a value, or its base with a part replaced, possibly by a combination
with what stood there. -/
inductive Expr.Stored : Expr → Prop
  | value {v : Expr} (h : v.Operand) : Stored v
  | part (slot : Slot) {selectors : List Expr} {v : Expr} (hs : ∀ e ∈ selectors, e.Selector)
      (hv : v.Operand) : Stored (.invoke "set" (.read slot :: selectors ++ [v]))
  | updated (slot : Slot) {selectors : List Expr} (member : String) {v : Expr}
      (hs : ∀ e ∈ selectors, e.Selector) (hv : v.Operand) :
      Stored (.invoke "set" (.read slot :: selectors ++
        [.invoke member [.invoke "get" (.read slot :: selectors), v]]))

/-- What a node may yield where it stands. -/
def Expr.StandsAs (e : Expr) : Standing → Prop
  | .operand => e.Operand
  | .statement => e.Operand ∨ ∃ slot v, e = .write slot v ∧ v.Stored

/-- A call of the catalog with two operands is one. -/
theorem Expr.Operand.invoke_pair (member : String) {a b : Expr} (ha : a.Operand) (hb : b.Operand) :
    (Expr.invoke member [a, b]).Operand := by
  refine .invoke member fun e he => ?_
  simp only [List.mem_cons, List.not_mem_nil, or_false] at he
  rcases he with rfl | rfl
  · exact ha
  · exact hb

theorem Expr.Operand.standsAs {e : Expr} (h : e.Operand) (st : Standing) : e.StandsAs st := by
  cases st with
  | operand => exact h
  | statement => exact .inl h

/-- A statement whose assignments are statements. -/
inductive Stmt.Lowered : Stmt → Prop
  | eval {e : Expr} (h : e.StandsAs .statement) : Lowered (.eval e)
  | declare (name : String) {initial : Expr} (h : initial.Operand) :
      Lowered (.declare name initial)
  | ret {value : Expr} (h : value.Operand) : Lowered (.ret value)
  | leave : Lowered .leave
  | next : Lowered .next
  | branch {condition : Expr} {body : List Stmt} {otherwise : Option (List Stmt)}
      (hc : condition.Operand) (hb : ∀ s ∈ body, Lowered s)
      (ho : ∀ other, otherwise = some other → ∀ s ∈ other, Lowered s) :
      Lowered (.branch condition body otherwise)
  | loop {condition : Expr} {body : List Stmt} (hc : condition.Operand)
      (hb : ∀ s ∈ body, Lowered s) : Lowered (.loop condition body)
  | doLoop {condition : Expr} {body : List Stmt} (hc : condition.Operand)
      (hb : ∀ s ∈ body, Lowered s) : Lowered (.doLoop condition body)
  | function (name : String) (parameters : List Expr) {body : List Stmt}
      (hb : ∀ s ∈ body, Lowered s) : Lowered (.function name parameters body)

/-- Whether a statement holds statements. -/
def Stmt.hasBody : Stmt → Bool
  | .branch .. | .loop .. | .doLoop .. | .function .. => true
  | .eval _ | .declare .. | .ret _ | .leave | .next => false

/-- A statement without a body is one line. -/
theorem Stmt.lines_eq {s : Stmt} (h : s.hasBody = false) (d : Dialect) (depth : Nat) :
    s.lines d depth = [⟨depth, s.firstLine d⟩] := by
  cases s <;> first | rfl | cases h

theorem Stmt.hasBody_rename (ν : Naming) (s : Stmt) : (s.rename ν).hasBody = s.hasBody := by
  cases s with
  | branch condition body otherwise => cases otherwise <;> rfl
  | _ => rfl

theorem Stmt.allLines_append (d : Dialect) (depth : Nat) (first second : List Stmt) :
    allLines d depth (first ++ second) = allLines d depth first ++ allLines d depth second := by
  induction first with
  | nil => rfl
  | cons s first ih => rw [List.cons_append, allLines, ih, allLines, List.append_assoc]

theorem Stmt.allLines_singleton (d : Dialect) (depth : Nat) (s : Stmt) :
    allLines d depth [s] = s.lines d depth := by
  rw [allLines, allLines, List.append_nil]

namespace Frame

/-- A statement around a body, without the body, under new names. -/
def rename (ν : Naming) : Frame → Frame
  | .branch condition => .branch (condition.rename ν)
  | .loop condition => .loop (condition.rename ν)
  | .doLoop condition => .doLoop (condition.rename ν)
  | .function name parameters => .function name (Expr.renameAll ν parameters)

theorem around_rename (ν : Naming) (f : Frame) (body : List Stmt) :
    (f.around body).rename ν = (f.rename ν).around (Stmt.renameAll ν body) := by
  cases f <;> rfl

theorem lines_around (d : Dialect) (depth : Nat) (f : Frame) (body : List Stmt) :
    (f.around body).lines d depth = f.lines d depth (Stmt.allLines d (depth + 1) body) := by
  cases f <;> rfl

end Frame

/-! ## Steps that do the same -/

/-- A draft with statements, lines and reports added. -/
def Draft.extended (d : Draft) (stmts : List Stmt) (written : List Line)
    (reports : List Diagnostic) : Draft :=
  { d with
    block := d.block ++ stmts, lines := d.lines ++ written, reports := d.reports ++ reports }

/-- The draft for a block of its own behind a line. -/
def Draft.opened (d : Draft) (line : String) : Draft :=
  { d with block := [], lines := d.lines ++ [⟨d.depth, line⟩], depth := d.depth + 1 }

theorem Draft.extended_nil (d : Draft) : d.extended [] [] [] = d := by
  simp [extended]

theorem Draft.extended_extended (d : Draft) (stmts stmts' : List Stmt) (written written' : List Line)
    (reports reports' : List Diagnostic) :
    (d.extended stmts written reports).extended stmts' written' reports' =
      d.extended (stmts ++ stmts') (written ++ written') (reports ++ reports') := by
  simp [extended]

namespace Lowering

variable {α β : Type}

/-- A step ends with `r` on a draft, and adds statements and reports.  The lines that a step writes
are those of its statements, unless it fails. -/
def Adds (m : Lowering α) (d : Draft) (r : Except LoweringError α) (stmts : List Stmt)
    (reports : List Diagnostic) : Prop :=
  ∃ written, m d = (r, d.extended stmts written reports) ∧
    ∀ a, r = .ok a → written = Stmt.allLines d.dialect d.depth stmts

theorem bind_of_ok {m : Lowering α} {f : α → Lowering β} {d d' : Draft} {a : α}
    (h : m d = (.ok a, d')) : (m >>= f) d = f a d' := by
  change ExceptT.bindCont f (m d).1 (m d).2 = _
  rw [h]
  rfl

theorem bind_of_error {m : Lowering α} {f : α → Lowering β} {d d' : Draft} {e : LoweringError}
    (h : m d = (.error e, d')) : (m >>= f) d = (.error e, d') := by
  change ExceptT.bindCont f (m d).1 (m d).2 = _
  rw [h]
  rfl

theorem write_eq (texts : List String) (d : Draft) :
    write texts d = (.ok (), d.extended [] (linesAt d.depth texts) []) := by
  rw [Draft.extended, List.append_nil, List.append_nil]
  rfl

theorem keep_eq (s : Stmt) (d : Draft) : keep s d = (.ok (), d.extended [s] [] []) := by
  rw [Draft.extended, List.append_nil, List.append_nil]
  rfl

section

variable {body : Lowering Unit} {line : String} {d : Draft} {stmts : List Stmt}
  {written : List Line} {reports : List Diagnostic}

/-- A block gives its statements, and is filled if it got no line. -/
theorem block_of_ok
    (h : body (d.opened line) = (.ok (), (d.opened line).extended stmts written reports)) :
    block line body d = (.ok stmts, d.extended []
      (⟨d.depth, line⟩ :: d.dialect.filled (d.depth + 1) written) reports) := by
  refine (bind_of_ok (write_eq [line] d)).trans ?_
  unfold nested
  simp only [Draft.opened, Draft.extended, List.append_nil, linesAt, List.map_cons,
    List.map_nil] at h ⊢
  rw [h]
  cases written <;> simp [Except.map, Dialect.filled, linesAt, Except.isOk, Except.toBool]

/-- A block that fails leaves the lines it got. -/
theorem block_of_error {e : LoweringError}
    (h : body (d.opened line) = (.error e, (d.opened line).extended stmts written reports)) :
    block line body d = (.error e, d.extended [] (⟨d.depth, line⟩ :: written) reports) := by
  refine (bind_of_ok (write_eq [line] d)).trans ?_
  unfold nested
  simp only [Draft.opened, Draft.extended, List.append_nil, linesAt, List.map_cons,
    List.map_nil] at h ⊢
  rw [h]
  simp [Except.map, Except.isOk, Except.toBool]

end

/-- A failure is handled on the draft that it left. -/
theorem tryCatch_eq (step : Lowering α) (handle : LoweringError → Lowering α) (d : Draft) :
    (tryCatch step handle : Lowering α) d =
      match step d with
      | (.ok a, after) => (.ok a, after)
      | (.error e, after) => handle e after := by
  have hbind : ∀ next : Except LoweringError α → StateM Draft (Except LoweringError α),
      (Bind.bind (m := StateM Draft) step next) d = next (step d).1 (step d).2 := fun _ => rfl
  simp only [tryCatch, tryCatchThe, MonadExceptOf.tryCatch, ExceptT.tryCatch, ExceptT.mk]
  rw [hbind]
  rcases step d with ⟨_ | _, _⟩ <;> rfl

namespace Adds

variable {m : Lowering α} {f : α → Lowering β} {d : Draft} {a : α} {e : LoweringError}
  {r : Except LoweringError α} {stmts stmts' : List Stmt} {reports reports' : List Diagnostic}

/-- A step that does not fail writes the lines of its statements. -/
theorem eq_of_ok (h : Adds m d (.ok a) stmts reports) : m d =
    (.ok a, d.extended stmts (Stmt.allLines d.dialect d.depth stmts) reports) := by
  obtain ⟨written, h, hwritten⟩ := h
  rw [h, hwritten a rfl]

theorem nothing (h : m d = (r, d)) : Adds m d r [] [] :=
  ⟨[], by rw [h, Draft.extended_nil], fun _ _ => rfl⟩

theorem pure (a : α) (d : Draft) : Adds (Pure.pure a) d (.ok a) [] [] := nothing rfl

theorem throw (e : LoweringError) (d : Draft) :
    Adds (MonadExcept.throw e : Lowering α) d (.error e) [] [] := nothing rfl

theorem emit {s : Stmt} (hs : s.hasBody = false) (d : Draft) :
    Adds (emit s) d (.ok ()) [s] [] := by
  refine ⟨[⟨d.depth, s.firstLine d.dialect⟩], ?_, fun _ _ => ?_⟩
  · rw [Draft.extended, List.append_nil]
    rfl
  · rw [Stmt.allLines_singleton, Stmt.lines_eq hs]

theorem report (x : Diagnostic) (d : Draft) : Adds (report x) d (.ok ()) [] [x] := by
  refine ⟨[], ?_, fun _ _ => rfl⟩
  rw [Draft.extended, List.append_nil, List.append_nil]
  rfl

theorem bind_error (h : Adds m d (.error e) stmts reports) :
    Adds (m >>= f) d (.error e) stmts reports := by
  obtain ⟨written, h, -⟩ := h
  exact ⟨written, bind_of_error h, fun a ha => by cases ha⟩

theorem bind_ok {r : Except LoweringError β} (h : Adds m d (.ok a) stmts reports)
    (hf : Adds (f a) (d.extended stmts (Stmt.allLines d.dialect d.depth stmts) reports) r
      stmts' reports') : Adds (m >>= f) d r (stmts ++ stmts') (reports ++ reports') := by
  obtain ⟨written, hf, hwritten⟩ := hf
  refine ⟨Stmt.allLines d.dialect d.depth stmts ++ written, ?_, fun b hb => ?_⟩
  · rw [bind_of_ok h.eq_of_ok, hf, Draft.extended_extended]
  · rw [hwritten b hb, Stmt.allLines_append]
    rfl

theorem standing {s : Standing} (h : Adds m { d with standing := s } r stmts reports) :
    Adds (standing s m) d r stmts reports := by
  obtain ⟨written, h, hwritten⟩ := h
  exact ⟨written, by simp only [Lowering.standing, h, Draft.extended], hwritten⟩

theorem inTarget (h : Adds m d r stmts reports) :
    Adds (tryCatch m fun e => MonadExcept.throw e.inTarget) d (r.mapError LoweringError.inTarget)
      stmts reports := by
  obtain ⟨written, h, hwritten⟩ := h
  refine ⟨written, ?_, fun a ha => ?_⟩
  · rw [tryCatch_eq, h]
    cases r <;> rfl
  · cases r with
    | error e => cases ha
    | ok b => exact hwritten b rfl

section

variable {body other : Lowering Unit} {stmts₂ : List Stmt} {reports₂ : List Diagnostic}

/-- A statement around a body is written in the dialect of the draft. -/
theorem enclosed_eq (f : Frame) (body : Lowering Unit) (d : Draft) : enclosed f body d =
    (do
      let inner ← block ((f.around []).firstLine d.dialect) do
        body
        write (f.bodyEnd d.dialect)
      write (f.close d.dialect)
      keep (f.around inner) : Lowering Unit) d := rfl

theorem choice_eq (test : Expr) (body other : Lowering Unit) (d : Draft) :
    choice test body other d = (do
      let inner ← block (d.dialect.branchOpen (test.text d.dialect)) body
      let otherwise ← block d.dialect.otherwiseOpen other
      write d.dialect.blockClose
      keep (.branch test inner (some otherwise)) : Lowering Unit) d := rfl

theorem enclosed_ok (f : Frame)
    (h : Adds body (d.opened ((f.around []).firstLine d.dialect)) (.ok ()) stmts reports) :
    Adds (enclosed f body) d (.ok ()) [f.around stmts] reports := by
  refine ⟨(f.around stmts).lines d.dialect d.depth, ?_, fun _ _ => ?_⟩
  · have hinner := bind_of_ok (f := fun _ => write (f.bodyEnd d.dialect)) h.eq_of_ok
    rw [write_eq, Draft.extended_extended] at hinner
    rw [enclosed_eq, bind_of_ok (block_of_ok hinner)]
    refine (bind_of_ok (write_eq _ _)).trans ((keep_eq _ _).trans ?_)
    rw [Draft.extended_extended, Draft.extended_extended, Frame.lines_around]
    simp [Frame.lines, Draft.extended, Draft.opened]
  · rw [Stmt.allLines_singleton]

theorem enclosed_error (f : Frame)
    (h : Adds body (d.opened ((f.around []).firstLine d.dialect)) (.error e) stmts reports) :
    Adds (enclosed f body) d (.error e) [] reports := by
  obtain ⟨written, h, -⟩ := h
  exact ⟨_, (enclosed_eq f body d).trans (bind_of_error (block_of_error (bind_of_error h))),
    fun _ ha => by cases ha⟩

/-- The draft between the two blocks of a choice. -/
def between (d : Draft) (test : Expr) (stmts : List Stmt) (reports : List Diagnostic) : Draft :=
  d.extended [] (⟨d.depth, d.dialect.branchOpen (test.text d.dialect)⟩ ::
    d.dialect.filled (d.depth + 1) (Stmt.allLines d.dialect (d.depth + 1) stmts)) reports

theorem choice_ok (test : Expr)
    (h : Adds body (d.opened (d.dialect.branchOpen (test.text d.dialect))) (.ok ()) stmts reports)
    (h₂ : Adds other ((between d test stmts reports).opened d.dialect.otherwiseOpen) (.ok ()) stmts₂
      reports₂) :
    Adds (choice test body other) d (.ok ()) [.branch test stmts (some stmts₂)]
      (reports ++ reports₂) := by
  refine ⟨(Stmt.branch test stmts (some stmts₂)).lines d.dialect d.depth, ?_, fun _ _ => ?_⟩
  · rw [choice_eq, bind_of_ok (block_of_ok h.eq_of_ok)]
    refine (bind_of_ok (block_of_ok h₂.eq_of_ok)).trans ?_
    refine (bind_of_ok (write_eq _ _)).trans ((keep_eq _ _).trans ?_)
    rw [Draft.extended_extended, Draft.extended_extended, between, Draft.extended_extended]
    simp [Stmt.lines, choiceLines, Draft.extended, Draft.opened]
  · rw [Stmt.allLines_singleton]

theorem choice_error (test : Expr)
    (h : Adds body (d.opened (d.dialect.branchOpen (test.text d.dialect))) (.error e) stmts
      reports) : Adds (choice test body other) d (.error e) [] reports := by
  obtain ⟨written, h, -⟩ := h
  exact ⟨_, (choice_eq test body other d).trans (bind_of_error (block_of_error h)),
    fun _ ha => by cases ha⟩

theorem choice_second_error (test : Expr)
    (h : Adds body (d.opened (d.dialect.branchOpen (test.text d.dialect))) (.ok ()) stmts reports)
    (h₂ : Adds other ((between d test stmts reports).opened d.dialect.otherwiseOpen) (.error e)
      stmts₂ reports₂) :
    Adds (choice test body other) d (.error e) [] (reports ++ reports₂) := by
  obtain ⟨written, h₂, -⟩ := h₂
  have hrun := (choice_eq test body other d).trans (bind_of_ok (block_of_ok h.eq_of_ok))
  have hrest := hrun.trans (bind_of_error (block_of_error h₂))
  rw [Draft.extended_extended] at hrest
  exact ⟨_, hrest, fun _ ha => by cases ha⟩

end

end Adds

open Occurrence

/-- How the second of two steps differs from the first: it has new names and no positions, and it
may be one for another style. -/
structure Guise where
  naming : Naming
  sameStyle : Prop

namespace Guise

variable (G : Guise)

/-- New names may stand in errors. -/
def errors (e e' : LoweringError) : Prop := G.naming = id → e' = e.unplaced

def reports (x x' : Diagnostic) : Prop :=
  x.severity = x'.severity ∧ (G.naming = id → x' = x.unplaced)

end Guise

/-- Two steps do the same in the guise `G`, and the result of the second is that of the first
under `g`.  The first tells a story, which depends on where the step stands.  If no error is told
and the condition `C` holds where the step stands, the statements are lowered and the result
satisfies `Q`. -/
def Alike (G : Guise) (C : Standing → Prop) (g : α → α) (m m' : Lowering α)
    (story : Standing → List Occurrence) (Q : Standing → α → Prop) : Prop :=
  ∀ d d' : Draft, d.standing = d'.standing → ∃ r r' stmts reports',
    Adds m d r stmts (reportsIn (story d.standing)) ∧
    Adds m' d' r' (Stmt.renameAll G.naming stmts) reports' ∧
    Matches G.errors (fun a a' => a' = g a) r r' ∧
    (G.sameStyle → List.Forall₂ G.reports (reportsIn (story d.standing)) reports') ∧
    failureOf r = failureIn (story d.standing) ∧
    (C d.standing → (∀ x ∈ reportsIn (story d.standing), x.isError = false) →
      (∀ s ∈ stmts, s.Lowered) ∧ ∀ a, r = .ok a → Q d.standing a)

namespace Alike

variable {G : Guise} {C C' : Standing → Prop} {g : α → α} {m m' : Lowering α}
  {Q Q' : Standing → α → Prop} {story story' : Standing → List Occurrence}
  {visit visit' : Lowering Expr}

theorem mono (h : Alike G C g m m' story Q) (hC : ∀ st, C' st → C st)
    (hQ : ∀ st a, C' st → Q st a → Q' st a) : Alike G C' g m m' story Q' := by
  intro d d' hstanding
  obtain ⟨r, r', stmts, reports', hm, hm', hr, hreports, hfailure, hpost⟩ := h d d' hstanding
  refine ⟨r, r', stmts, reports', hm, hm', hr, hreports, hfailure, fun hc herror => ?_⟩
  obtain ⟨hstmts, hok⟩ := hpost (hC _ hc) herror
  exact ⟨hstmts, fun a ha => hQ _ a hc (hok a ha)⟩

/-- Two steps one after the other; the second may rely on what the first yields, but what it tells
does not depend on that. -/
theorem bind {f f' : α → Lowering β} {g' : β → β} {R : Standing → β → Prop}
    (h : Alike G C g m m' story Q)
    (hf : ∀ a, Alike G (fun st => C st ∧ Q st a) g' (f a) (f' (g a)) story' R) :
    Alike G C g' (m >>= f) (m' >>= f') (fun st => story st ++ story' st) R := by
  intro d d' hstanding
  obtain ⟨r, r', stmts, reports', hm, hm', hr, hreports, hfailure, hpost⟩ := h d d' hstanding
  cases hr with
  | @error e e' he =>
    -- The second step does not run.
    rw [reportsIn_append_of_some hfailure.symm, failureIn_append, hfailure.symm]
    refine ⟨.error e, .error e', stmts, reports', hm.bind_error, hm'.bind_error, .error he,
      hreports, rfl, fun hc herror => ?_⟩
    refine ⟨(hpost hc herror).1, fun a ha => ?_⟩
    cases ha
  | @ok a _ ha =>
    subst ha
    have hnone : failureIn (story d.standing) = none := hfailure.symm
    -- The second step starts where the first one stands.
    obtain ⟨r₂, r₂', stmts₂, reports₂', hf₂, hf₂', hr₂, hreports₂, hfailure₂, hpost₂⟩ := hf a
      (d.extended stmts _ (reportsIn (story d.standing)))
      (d'.extended (Stmt.renameAll G.naming stmts) _ reports') hstanding
    rw [reportsIn_append_of_none hnone, failureIn_append, hnone, Option.none_or]
    refine ⟨r₂, r₂', stmts ++ stmts₂, reports' ++ reports₂', hm.bind_ok hf₂, ?_, hr₂,
      fun hsame => List.rel_append (hreports hsame) (hreports₂ hsame), hfailure₂,
      fun hc herror => ?_⟩
    · rw [Stmt.renameAll_append]
      exact hm'.bind_ok hf₂'
    · obtain ⟨hstmts, hok⟩ := hpost hc fun x hx => herror x (List.mem_append_left _ hx)
      obtain ⟨hstmts₂, hok₂⟩ :=
        hpost₂ ⟨hc, hok a rfl⟩ fun x hx => herror x (List.mem_append_right _ hx)
      exact ⟨fun s hs => (List.mem_append.mp hs).elim (hstmts s) (hstmts₂ s), hok₂⟩

/-- A step that is followed by one that tells nothing. -/
theorem andThen {f f' : α → Lowering β} {g' : β → β} {R : Standing → β → Prop}
    (h : Alike G C g m m' story Q)
    (hf : ∀ a, Alike G (fun st => C st ∧ Q st a) g' (f a) (f' (g a)) (fun _ => [])
      R) : Alike G C g' (m >>= f) (m' >>= f') story R := by
  simpa only [List.append_nil] using bind h hf

theorem pure {a a' : α} (ha : a' = g a) (h : ∀ st, C st → Q st a) :
    Alike G C g (Pure.pure a) (Pure.pure a') (fun _ => []) Q := by
  intro d d' _
  refine ⟨.ok a, .ok a', [], [], .pure a d, .pure a' d', .ok ha, fun _ => .nil, rfl, fun hc _ => ?_⟩
  refine ⟨List.forall_mem_nil _, fun b hb => ?_⟩
  cases hb
  exact h _ hc

theorem throw {e e' : LoweringError} (he : G.errors e e') :
    Alike G C g (MonadExcept.throw e) (MonadExcept.throw e') (fun _ => [.failure e]) Q := by
  intro d d' _
  refine ⟨.error e, .error e', [], [], .throw e d, .throw e' d', .error he, fun _ => .nil, rfl,
    fun _ _ => ?_⟩
  refine ⟨List.forall_mem_nil _, fun b hb => ?_⟩
  cases hb

theorem emit {s : Stmt} (hs : s.hasBody = false) (h : ∀ st, C st → s.Lowered) :
    Alike G C id (emit s) (emit (s.rename G.naming)) (fun _ => []) fun _ _ => True := by
  intro d d' _
  refine ⟨.ok (), .ok (), [s], [], .emit hs d, .emit ((s.hasBody_rename _).trans hs) d', .ok rfl,
    fun _ => .nil, rfl, fun hc _ => ?_⟩
  exact ⟨fun t ht => List.mem_singleton.mp ht ▸ h _ hc, fun _ _ => trivial⟩

theorem report {x x' : Diagnostic} (hx : G.reports x x') :
    Alike G C id (report x) (report x') (fun _ => [.report x]) fun _ _ => True := by
  intro d d' _
  exact ⟨.ok (), .ok (), [], [x'], .report x d, .report x' d', .ok rfl, fun _ => .cons hx .nil, rfl,
    fun _ _ => ⟨List.forall_mem_nil _, fun _ _ => trivial⟩⟩

/-- A statement around a body, which is lowered if the body is. -/
theorem enclosed (f : Frame) {body body' : Lowering Unit} {Q : Standing → Unit → Prop}
    (h : Alike G C id body body' story Q)
    (hf : ∀ st stmts, C st → (∀ s ∈ stmts, s.Lowered) → (f.around stmts).Lowered) :
    Alike G C id (enclosed f body) (enclosed (f.rename G.naming) body') story
      fun _ _ => True := by
  intro d d' hstanding
  obtain ⟨r, r', stmts, reports', hm, hm', hr, hreports, hfailure, hpost⟩ :=
    h (d.opened _) (d'.opened _) hstanding
  cases hr with
  | error he =>
    refine ⟨_, _, [], reports', hm.enclosed_error f, hm'.enclosed_error _, .error he, hreports,
      hfailure, fun _ _ => ⟨List.forall_mem_nil _, fun _ _ => trivial⟩⟩
  | ok _ =>
    refine ⟨_, _, [f.around stmts], reports', hm.enclosed_ok f, ?_, .ok rfl, hreports, hfailure,
      fun hc herror => ⟨fun s hs => ?_, fun _ _ => trivial⟩⟩
    · have hrenamed := hm'.enclosed_ok (f.rename G.naming)
      rw [← Frame.around_rename] at hrenamed
      exact hrenamed
    · rw [List.mem_singleton.mp hs]
      exact hf _ stmts hc (hpost hc herror).1

/-- A branch with two bodies. -/
theorem choice (test : Expr) {body body' other other' : Lowering Unit}
    {Q R : Standing → Unit → Prop} (h : Alike G C id body body' story Q)
    (h₂ : Alike G C id other other' story' R) (htest : ∀ st, C st → test.Operand) :
    Alike G C id (choice test body other) (choice (test.rename G.naming) body' other')
      (fun st => story st ++ story' st) fun _ _ => True := by
  intro d d' hstanding
  obtain ⟨r, r', stmts, reports', hm, hm', hr, hreports, hfailure, hpost⟩ :=
    h (d.opened (d.dialect.branchOpen (test.text d.dialect))) (d'.opened _) hstanding
  change _ = failureIn (story d.standing) at hfailure
  cases hr with
  | error he =>
    -- The second body is not reached.
    rw [reportsIn_append_of_some hfailure.symm, failureIn_append, ← hfailure]
    refine ⟨_, _, [], reports', hm.choice_error test, hm'.choice_error _, .error he, hreports, rfl,
      fun _ _ => ⟨List.forall_mem_nil _, fun _ _ => trivial⟩⟩
  | ok _ =>
    have hnone : failureIn (story d.standing) = none := hfailure.symm
    obtain ⟨r₂, r₂', stmts₂, reports₂', hm₂, hm₂', hr₂, hreports₂, hfailure₂, hpost₂⟩ :=
      h₂ ((Adds.between d test stmts (reportsIn (story d.standing))).opened _)
        ((Adds.between d' (test.rename G.naming) (Stmt.renameAll G.naming stmts)
          reports').opened _) hstanding
    rw [reportsIn_append_of_none hnone, failureIn_append, hnone, Option.none_or]
    have hboth := fun hsame => List.rel_append (hreports hsame) (hreports₂ hsame)
    cases hr₂ with
    | error he =>
      refine ⟨_, _, [], _, hm.choice_second_error test hm₂, hm'.choice_second_error _ hm₂',
        .error he, hboth, hfailure₂, fun _ _ => ⟨List.forall_mem_nil _, fun _ _ => trivial⟩⟩
    | ok _ =>
      refine ⟨_, _, [.branch test stmts (some stmts₂)], _, hm.choice_ok test hm₂,
        hm'.choice_ok _ hm₂', .ok rfl, hboth, hfailure₂,
        fun hc herror => ⟨fun s hs => ?_, fun _ _ => trivial⟩⟩
      rw [List.mem_singleton.mp hs]
      refine .branch (htest _ hc) (hpost hc fun x hx => herror x (List.mem_append_left _ hx)).1
        fun other' hother => ?_
      cases hother
      exact (hpost₂ hc fun x hx => herror x (List.mem_append_right _ hx)).1

/-- A node that stands as given. -/
theorem standing {s : Standing} (h : Alike G C g m m' story Q) (hC : ∀ st, C' st → C s) :
    Alike G C' g (standing s m) (standing s m') (fun _ => story s) fun _ a => Q s a := by
  intro d d' _
  obtain ⟨r, r', stmts, reports', hm, hm', hr, hreports, hfailure, hpost⟩ :=
    h { d with standing := s } { d' with standing := s } rfl
  exact ⟨r, r', stmts, reports', hm.standing, hm'.standing, hr, hreports, hfailure,
    fun hc herror => hpost (hC _ hc) herror⟩

/-- A failure that is passed on as the target sees it. -/
theorem inTarget (h : Alike G C g m m' story Q) :
    Alike G C g (tryCatch m fun e => MonadExcept.throw e.inTarget)
      (tryCatch m' fun e => MonadExcept.throw e.inTarget)
      (fun st => (story st).map Occurrence.inTarget) Q := by
  intro d d' hstanding
  obtain ⟨r, r', stmts, reports', hm, hm', hr, hreports, hfailure, hpost⟩ := h d d' hstanding
  rw [reportsIn_map_inTarget, failureIn_map_inTarget, ← hfailure]
  refine ⟨_, _, stmts, reports', hm.inTarget, hm'.inTarget, ?_, hreports, ?_, fun hc herror => ?_⟩
  · cases hr with
    | ok ha => exact .ok ha
    | error he => exact .error fun hν => by rw [he hν, LoweringError.unplaced_inTarget]
  · cases r <;> rfl
  · refine ⟨(hpost hc herror).1, fun a ha => ?_⟩
    cases r with
    | error e => cases ha
    | ok b => exact (hpost hc herror).2 a ha

section

variable (h : Alike G C (Expr.rename G.naming) visit visit' story fun st e => e.StandsAs st)

include h

/-- A node as a statement. -/
theorem asStatement (hC : ∀ st, C' st → C .statement) :
    Alike G C' id (asStatement visit) (asStatement visit') (fun _ => story .statement)
      fun _ _ => True := by
  refine andThen (standing h hC) fun e => ?_
  rw [Expr.isBlank_rename]
  split
  · exact pure rfl fun _ _ => trivial
  · exact emit rfl fun _ hc => .eval hc.2

theorem asOperand (hC : ∀ st, C' st → C .operand) :
    Alike G C' (Expr.rename G.naming) (asOperand visit) (asOperand visit')
      (fun _ => story .operand) fun _ e => e.Operand :=
  standing h hC

end

theorem blank : Alike G C (Expr.rename G.naming) (Pure.pure .blank) (Pure.pure .blank)
    (fun _ => []) fun st e => e.StandsAs st :=
  pure rfl fun st _ => Expr.Operand.blank.standsAs st

theorem emitBlank {s : Stmt} (hs : s.hasBody = false) (h : ∀ st, C st → s.Lowered) :
    Alike G C (Expr.rename G.naming) (do Lowering.emit s; Pure.pure Expr.blank)
      (do Lowering.emit (s.rename G.naming); Pure.pure Expr.blank) (fun _ => [])
      fun st e => e.StandsAs st :=
  andThen (emit hs h) fun _ => blank

theorem enclosedBlank (f : Frame) {body body' : Lowering Unit} {Q : Standing → Unit → Prop}
    (h : Alike G C id body body' story Q)
    (hf : ∀ st stmts, C st → (∀ s ∈ stmts, s.Lowered) → (f.around stmts).Lowered) :
    Alike G C (Expr.rename G.naming)
      (do Lowering.enclosed f body; Pure.pure Expr.blank)
      (do Lowering.enclosed (f.rename G.naming) body'; Pure.pure Expr.blank) story
      fun st e => e.StandsAs st :=
  andThen (enclosed f h hf) fun _ => blank

end Alike

/-! ## Assignments -/

section

variable (s : Surroundings) (style : Style) (ν : Naming)

/-- The condition under which assignments have to be statements. -/
def Strict (_ : Standing) : Prop := s.style.dialect.assignsInExpressions = false

/-- A tree for another style, with new names and without positions. -/
abbrev guise : Guise := ⟨ν, style = s.style⟩

/-- Visits of a node do the same, and tell the sites of the node. -/
def VisitAlike (inside : Bool) (n : Node) : Prop :=
  Alike (guise s style ν) (Strict s) (Expr.rename ν) (visit s inside n)
    (visit { s with style } inside (n.rename ν).unplaced)
    (fun st => Site.story s (n.sites inside st)) fun st e => e.StandsAs st

theorem adds_checkAssignment (pos : Position) (token : String) (d : Draft) :
    Adds (checkAssignment s pos token) d (.ok ()) []
      (assignmentReports s d.standing pos token) := by
  have hstep : checkAssignment s pos token d =
      (if s.style.dialect.assignsInExpressions || d.standing = .statement then Pure.pure ()
        else report (.error .assignInExpression pos
          (Text.quoted token ++ " is used as a value; the " ++ s.style.name ++
            " style only supports it as a statement")) : Lowering Unit) d := rfl
  unfold assignmentReports Adds
  rw [hstep]
  split
  · exact Adds.pure () d
  · exact Adds.report _ d

/-- An assignment is checked before anything in it comes up.  Elsewhere than in a statement an error
is told of it. -/
theorem checked_alike (pos : Position) (token : String) {g : α → α} {m m' : Lowering α}
    {sites : List Site} {Q : Standing → α → Prop}
    (h : Alike (guise s style ν) (fun st => Strict s st ∧ st = .statement) g m m'
      (fun _ => Site.story s sites) Q) :
    Alike (guise s style ν) (Strict s) g (checkAssignment s pos token >>= fun _ => m)
      (checkAssignment { s with style } .unknown token >>= fun _ => m')
      (fun st => Site.story s (.assignment pos token st :: sites)) Q := by
  have hcheck : Alike (guise s style ν) (Strict s) id (checkAssignment s pos token)
      (checkAssignment { s with style } .unknown token)
      (fun st => (assignmentReports s st pos token).map .report) fun st _ => st = .statement := by
    intro d d' hstanding
    rw [reportsIn_map_report, failureIn_map_report]
    refine ⟨.ok (), .ok (), [], _, adds_checkAssignment s pos token d,
      adds_checkAssignment { s with style } .unknown token d', .ok rfl, ?_, rfl, ?_⟩
    · intro hsame
      rw [hsame, hstanding]
      unfold assignmentReports
      split
      · exact .nil
      · exact .cons ⟨rfl, fun _ => rfl⟩ .nil
    · intro hstrict herror
      refine ⟨List.forall_mem_nil _, fun _ _ => ?_⟩
      -- In such a style an assignment that is not a statement is told as an error.
      refine Decidable.byContradiction fun hst => ?_
      have hmem : assignmentReports s d.standing pos token = [_] :=
        if_neg (by simp [show s.style.dialect.assignsInExpressions = false from hstrict, hst])
      rw [hmem] at herror
      exact absurd (herror _ List.mem_cons_self)
        (by simp [Diagnostic.error, Diagnostic.isError, Severity.rank])
  have hstory : ∀ st, Site.story s (.assignment pos token st :: sites) =
      (assignmentReports s st pos token).map .report ++ Site.story s sites := by
    intro st
    rw [story_cons, Site.occurrences, Site.fault, Option.toList_none, List.map_nil, List.append_nil,
      Site.reports]
  simp only [hstory]
  exact .bind hcheck fun _ => h

theorem inert_alike {G : Guise} (C : Standing → Prop) (token : String) (pos : Position)
    {operand : Expr} (h : ∀ st, C st → operand.Operand) :
    Alike G C (Expr.rename G.naming) (inert token pos operand)
      (inert token .unknown (operand.rename G.naming))
      (fun _ => Site.story s [.inert pos token]) fun st e => e.StandsAs st := by
  refine .andThen (.report ⟨rfl, fun _ => rfl⟩) fun _ => ?_
  exact .pure rfl fun st hc => (Expr.Operand.inert token (h st hc.1)).standsAs st

/-- The selectors of a chain as arguments. -/
theorem selector_of_mem_arguments {selectors : List (ChainSelector Expr)}
    (h : ∀ code, .code code ∈ selectors → code.Operand) :
    ∀ e ∈ selectors.map selectorArgument, e.Selector := by
  intro e he
  obtain ⟨selector, hmem, rfl⟩ := List.mem_map.mp he
  cases selector with
  | index x => exact .inr ⟨x, rfl⟩
  | field f => exact .inl (.field f)
  | code code => exact .inl (h code hmem)

/-- An assignment is the write of a stored value. -/
theorem assign_stored {chain : Chain Expr} (operator : Option String) {value : Expr}
    (hchain : ∀ code, .code code ∈ chain.selectors → code.Operand) (hvalue : value.Operand) :
    (assign s chain operator value).StandsAs .statement := by
  have hselectors := selector_of_mem_arguments hchain
  unfold assign
  dsimp only
  cases hempty : (chain.selectors.map selectorArgument).isEmpty with
  | true =>
    cases operator with
    | none => exact .inr ⟨_, _, rfl, .value hvalue⟩
    | some member => exact .inr ⟨_, _, rfl, .value (.invoke_pair member (.read _) hvalue)⟩
  | false =>
    cases operator with
    | none => exact .inr ⟨_, _, rfl, .part _ hselectors hvalue⟩
    | some member => exact .inr ⟨_, _, rfl, .updated _ member hselectors hvalue⟩

end

/-! ## Targets -/

/-- The step of a target, with new names and without positions. -/
def recastStep (ν : Naming) : TargetStep Node → TargetStep Node
  | .base name => .base (ν name)
  | .index x => .index x
  | .field selection => .field selection
  | .computed _ index => .computed .unknown (index.rename ν).unplaced
  | .bad error => .bad error.unplaced

theorem steps_recast (ν : Naming) (n : Node) :
    Target.steps (n.rename ν).unplaced = (Target.steps n).map (recastStep ν) := by
  fun_induction Target.steps n with
  | case7 pos index =>
    simp only [Node.rename, Node.unplaced, Target.steps]
    cases index <;> rfl
  | case11 n =>
    cases n with
    | postfixExpression _ op _ | operator op => cases op <;> exact absurd rfl (by solve_by_elim)
    | _ => first | rfl | exact absurd rfl (by solve_by_elim)
  | _ =>
    simp_all [Target.steps, Node.rename, Operator.rename, Node.unplaced, Operator.unplaced,
      recastStep]

/-- A chain renamed. -/
def renameChain (ν : Naming) (chain : Chain Expr) : Chain Expr :=
  ⟨ν chain.base, chain.selectors.map (renameSelector ν)⟩

/-- The computed selectors are operands. -/
def Computes (selectors : List (ChainSelector Expr)) : Prop :=
  ∀ code, .code code ∈ selectors → code.Operand

theorem Computes.append {selectors : List (ChainSelector Expr)} (h : Computes selectors)
    {selector : ChainSelector Expr} (hs : ∀ code, selector = .code code → code.Operand) :
    Computes (selectors ++ [selector]) := by
  intro code hcode
  rcases List.mem_append.mp hcode with hold | hnew
  · exact h code hold
  · exact hs code (List.mem_singleton.mp hnew).symm

section

variable (s : Surroundings) (style : Style) (ν : Naming) (inside : Bool) (target : Node)

/-- What comes up at the steps of a target that are left: the subscripts that are computed before
the target is refused, and why it is. -/
def told (steps : List (TargetStep Node)) (base : Option String) : List Occurrence :=
  Site.story s ((Target.handedOut (steps.map (TargetStep.map fun index =>
      index.sites inside .operand)) base).flatten.map .subscript) ++
    (Target.refusalFrom target steps base).toList.map .failure

theorem told_computed (pos : Position) (index : Node) (rest : List (TargetStep Node))
    (base : Option String) :
    told s inside target (.computed pos index :: rest) base =
      (Site.story s (index.sites inside .operand)).map Occurrence.inTarget ++
        told s inside target rest base := by
  rw [told, told, ← story_subscript, ← List.append_assoc, ← story_append, ← List.map_append]
  rfl

/-- Taking the steps of a target tells its subscripts, up to where the target is refused. -/
theorem follow_alike {steps : List (TargetStep Node)}
    (h : ∀ pos index, .computed pos index ∈ steps → VisitAlike s style ν inside index)
    {C : Standing → Prop} (chain : Target.Partial Expr) {chain' : Target.Partial Expr}
    (hchain : chain' = ⟨chain.base.map ν, chain.selectors.map (renameSelector ν)⟩)
    (hC : ∀ st, C st → Strict s st ∧ Computes chain.selectors) :
    Alike (guise s style ν) C (renameChain ν)
      (Target.follow (some fun index => asOperand (visit s inside index)) steps chain >>=
        Target.complete target)
      (Target.follow (some fun index => asOperand (visit { s with style } inside index))
        (steps.map (recastStep ν)) chain' >>= Target.complete (target.rename ν).unplaced)
      (fun _ => told s inside target steps chain.base) fun _ chain => Computes chain.selectors := by
  induction steps generalizing chain chain' C with
  | nil =>
    obtain ⟨base, selectors⟩ := chain
    subst hchain
    cases base with
    | none =>
      refine .throw fun hν => ?_
      rw [show ν = id from hν, Node.rename_id, Node.tagName_unplaced, Node.pos_unplaced]
      rfl
    | some base => exact .pure rfl fun st hc => (hC st hc).2
  | cons step rest ih =>
    replace ih := @ih fun pos index hindex => h pos index (List.mem_cons_of_mem _ hindex)
    obtain ⟨base, selectors⟩ := chain
    subst hchain
    cases step with
    | base name =>
      cases base with
      | none => exact ih ⟨some name, selectors⟩ rfl hC
      | some first =>
        refine .throw fun hν => ?_
        rw [show ν = id from hν]
        rfl
    | index x | field selection =>
      exact ih ⟨base, selectors ++ [_]⟩ (by simp [renameSelector]) fun st hc =>
        ⟨(hC st hc).1, (hC st hc).2.append fun _ h => by cases h⟩
    | bad error => exact .throw fun _ => rfl
    | computed pos index =>
      -- The only step with code of its own, which is told before the rest.
      have hindex := h pos index List.mem_cons_self
      have hcode := (Alike.asOperand hindex fun st (hc : C st) => (hC st hc).1).inTarget
      rw [List.map_cons]
      unfold Target.follow recastStep
      simp only [Target.advance, bind_assoc, pure_bind, told_computed]
      refine .bind hcode fun code => ?_
      refine ih ⟨base, selectors ++ [.code code]⟩ ?_ fun st hc => ?_
      · simp [renameSelector]
      · refine ⟨(hC st hc.1).1, (hC st hc.1).2.append fun code' hcode' => ?_⟩
        cases hcode'
        exact hc.2

/-- The chain of a target, and what it tells. -/
theorem resolveSteps_alike
    (h : ∀ pos index, .computed pos index ∈ Target.steps target →
      VisitAlike s style ν inside index) :
    Alike (guise s style ν) (Strict s) (renameChain ν)
      (Target.resolveSteps target (visitTarget s inside target) (some id))
      (Target.resolveSteps (target.rename ν).unplaced
        (visitTarget { s with style } inside (target.rename ν).unplaced) (some id))
      (fun _ => Site.story s (Site.ofTarget target (target.targetSites inside)))
      fun _ chain => Computes chain.selectors := by
  have htarget : (Site.target target).occurrences s =
      (Target.refusal target).toList.map .failure := rfl
  rw [Site.ofTarget, story_append, story_singleton, htarget, Target.refusal_eq, visitTarget_eq,
    visitTarget_eq, steps_recast]
  unfold Target.resolveSteps
  rw [Target.follow_map, Target.follow_map, Node.isAbsent_unplaced, Node.isAbsent_rename]
  split
  · -- Without a node there are no steps.
    rename_i habsent
    rw [Node.eq_absent_of_isAbsent habsent]
    exact .throw fun _ => rfl
  · rw [Node.targetSites_eq]
    exact follow_alike s style ν inside target h {} rfl fun st hc => ⟨hc, fun _ h => by cases h⟩

/-- Storing a value in a target tells no more than the target.  Whoever stores has made sure that it
stands as a statement. -/
theorem store_alike (hν : ν.Suits s) {C : Standing → Prop}
    (h : ∀ pos index, .computed pos index ∈ Target.steps target →
      VisitAlike s style ν inside index)
    (operator : Option String) {value : Expr}
    (hC : ∀ st, C st → (Strict s st ∧ st = .statement) ∧ value.Operand) :
    Alike (guise s style ν) C (Expr.rename ν)
      (Target.resolveSteps target (visitTarget s inside target) (some id) >>= fun chain =>
        Pure.pure (assign s chain operator value))
      (Target.resolveSteps (target.rename ν).unplaced
          (visitTarget { s with style } inside (target.rename ν).unplaced) (some id) >>=
        fun chain => Pure.pure (assign { s with style } chain operator (value.rename ν)))
      (fun _ => Site.story s (Site.ofTarget target (target.targetSites inside)))
      fun st e => e.StandsAs st := by
  have hchain := (resolveSteps_alike s style ν inside target h).mono
    (fun st hc => (hC st hc).1.1) fun _ _ _ hq => hq
  refine .andThen hchain fun chain => .pure (assign_rename hν chain operator value) fun st hc => ?_
  obtain ⟨⟨_, hstatement⟩, hvalue⟩ := hC st hc.1
  rw [hstatement]
  exact assign_stored s operator hc.2 hvalue

/-- A condition tells its sites; one that is left out has none. -/
theorem asCondition_alike {C : Standing → Prop} {condition : Node}
    (h : VisitAlike s style ν inside condition) (hC : ∀ st, C st → Strict s st) :
    Alike (guise s style ν) C (Expr.rename ν)
      (asCondition condition (visit s inside condition))
      (asCondition (condition.rename ν).unplaced
        (visit { s with style } inside (condition.rename ν).unplaced))
      (fun _ => Site.story s (condition.sites inside .operand)) fun _ e => e.Operand := by
  unfold asCondition
  rw [Node.isAbsent_unplaced, Node.isAbsent_rename]
  split
  · rename_i habsent
    rw [Node.eq_absent_of_isAbsent habsent]
    simp only [Node.sites]
    exact .pure rfl fun _ _ => .bool true
  · exact .asOperand h hC

end

section

variable (s : Surroundings) (style : Style) {ν : Naming} (hν : ν.Suits s)

include hν

/-- Parameters that are named after globals only make for warnings. -/
theorem warnGlobalParameters_alike (C : Standing → Prop) (function : String)
    (parameters : List Node) :
    Alike (guise s style ν) C id (warnGlobalParameters s function parameters)
      (warnGlobalParameters { s with style } function
        (Node.allUnplaced (Node.renameAll ν parameters)))
      (fun _ => Site.story s (parameters.filterMap (Site.ofParameter? function)))
      fun _ _ => True := by
  induction parameters generalizing C with
  | nil =>
    unfold warnGlobalParameters
    exact .pure rfl fun _ _ => trivial
  | cons p rest ih =>
    cases p with
    | parameter pos _ name _ _ _ _ =>
      show Alike _ _ _ _ _ (fun _ => (Site.parameter pos name function).occurrences s ++
        Site.story s (rest.filterMap (Site.ofParameter? function))) _
      unfold warnGlobalParameters
      dsimp only [Node.renameAll, Node.rename, Node.allUnplaced, Node.unplaced]
      rw [Site.occurrences, Site.reports, hν.isGlobal_eq]
      by_cases hglobal : s.isGlobal name = true
      · rw [if_pos hglobal, if_pos hglobal, if_pos hglobal]
        refine .bind (.report ⟨rfl, fun hsame => ?_⟩) fun _ => ih _
        -- The message names the parameter, so it stays only if the names do.
        rw [show ν = id from hsame]
        rfl
      · rw [if_neg hglobal, if_neg hglobal, if_neg hglobal]
        exact ih C
    | _ => exact ih C

/-- The declaration of a variable. -/
theorem declare_alike {C : Standing → Prop} (pos : Position) (name : String) {initial : Expr}
    (h : ∀ st, C st → initial.Operand) :
    Alike (guise s style ν) C id (declare s pos name initial)
      (declare { s with style } .unknown (ν name) (initial.rename ν))
      (fun _ => Site.story s [.declared pos name]) fun _ _ => True := by
  unfold declare
  rw [story_singleton, Site.occurrences, Site.reports]
  cases hglobal : s.isGlobal name with
  | true =>
    simp only [hν.keeps name hglobal, hglobal, Expr.isBlank_rename, if_true]
    refine .andThen (.report ⟨rfl, fun _ => rfl⟩) fun _ => ?_
    split
    · exact .pure rfl fun _ _ => trivial
    · exact .emit rfl fun st hc => .eval (.inr ⟨_, _, rfl, .value (h st hc.1)⟩)
  | false =>
    simp only [hν.binding name hglobal, Bool.false_eq_true, if_false]
    exact .emit rfl fun st hc => .declare name (h st hc)

end

/-- A call by name, of whatever it is. -/
theorem call_operand (s : Surroundings) (name : String) {args : List Expr}
    (h : ∀ e ∈ args, e.Operand) : (s.call name args).Operand := by
  unfold Surroundings.call
  split
  · exact .invoke name h
  · split
    · exact .invoke _ h
    · exact .call _ h

end Lowering

/-! ## Visits -/

open Lowering

/-- Lowering commutes with renaming and with taking out the positions, for any style, and tells the
sites of a tree.  Where assignments have to be statements and no error is reported, they are. -/
theorem visit_alike (s : Surroundings) (style : Style) {ν : Naming} (hν : ν.Suits s) :
    (∀ inside n, VisitAlike s style ν inside n) ∧
    (∀ inside n, Alike (guise s style ν) (Strict s) (Expr.rename ν) (visitSelector s inside n)
      (visitSelector { s with style } inside (n.rename ν).unplaced)
      (fun _ => Site.story s (.selector n :: n.selectorSites inside)) fun _ e => e.Operand) ∧
    (∀ inside n pos index, .computed pos index ∈ Target.steps n →
      VisitAlike s style ν inside index) ∧
    (∀ inside ns, Alike (guise s style ν) (Strict s) (Expr.renameAll ν)
      (visitOperands s inside ns)
      (visitOperands { s with style } inside (Node.allUnplaced (Node.renameAll ν ns)))
      (fun _ => Site.story s (Node.operandSites inside ns)) fun _ es => ∀ e ∈ es, e.Operand) ∧
    (∀ inside ns, Alike (guise s style ν) (Strict s) id (visitStatements s inside ns)
      (visitStatements { s with style } inside (Node.allUnplaced (Node.renameAll ν ns)))
      (fun _ => Site.story s (Node.statementSites inside ns)) fun _ _ => True) := by
  -- One case for each clause of the five functions, in their order.
  refine visit.mutual_induct _ _ _ _ _ ?absent ?program ?scope ?functionDeclaration ?parameter
    ?ifStatement ?whileStatement ?forStatement ?doStatement ?returnStatement ?continueStatement
    ?breakStatement ?discardStatement ?expressionStatement ?declarator ?declaratorOutside
    ?declaratorItem ?declaratorItemName ?declaratorItemOutside ?functionCall ?identifier
    ?integerLiteral ?floatLiteral ?booleanLiteral ?operator ?ternaryExpression ?assignment
    ?binaryExpression ?step ?unaryExpression ?selection ?postfixStep ?postfixToken ?preprocessor
    ?macroCall ?functionPrototype ?invariant ?precision ?structDefinition ?type ?indexSelector
    ?fieldSelector ?readField ?readNothing ?readIndex ?readOther ?targetAbsent ?targetIdentifier
    ?targetSelection ?targetToken ?targetOperator ?targetOperatorToken ?targetIndex ?targetField
    ?targetInteger ?targetFloat ?targetOther ?noOperands ?operands ?noStatements ?statements
  -- Both trees are visited alike, and the sites are told in the order of the visits.
  all_goals
    try simp only [VisitAlike, Node.rename, Operator.rename, Node.unplaced, Operator.unplaced,
      Operator.text_unplaced, Operator.text_rename, Node.isAbsent_unplaced, Node.isAbsent_rename,
      Node.renameAll, Node.allUnplaced, visit, visitSelector, visitOperands, visitStatements,
      Node.sites, Node.operandSites, Node.statementSites, story_append, List.append_assoc, if_true]
  -- Nodes that yield nothing and emit nothing.
  case absent | preprocessor | macroCall | functionPrototype | invariant | precision
      | structDefinition | type | indexSelector | fieldSelector =>
    intros
    exact .blank
  case program | scope =>
    intro inside pos statements ih
    exact .andThen ih fun _ => .blank
  -- Nodes that emit a statement.  The conditions pile up as steps follow each other: `h` ends with
  -- what the last step yields, and what the others yield stands before it.
  case functionDeclaration =>
    intro inside pos name returnType parameters body ihp ihb
    refine .bind ihp fun codes => ?_
    refine .bind (warnGlobalParameters_alike s style hν _ name parameters) fun _ => ?_
    have hfilter : (Expr.renameAll ν codes).filter (fun p => !p.isBlank) =
        Expr.renameAll ν (codes.filter fun p => !p.isBlank) := by
      simp only [Expr.renameAll_eq_map, List.filter_map, Function.comp_def, Expr.isBlank_rename]
    rw [hfilter]
    exact .enclosedBlank (.function name _) (.asStatement ihb fun _ h => h.1.1)
      fun _ _ _ h => .function name _ h
  case parameter =>
    intros
    exact .pure rfl fun st _ => (Expr.Operand.read _).standsAs st
  case ifStatement =>
    intro inside pos condition body otherwise ihc ihb iho
    refine .bind (asCondition_alike s style ν inside ihc fun _ h => h) fun test => ?_
    split
    · rename_i habsent
      rw [Node.eq_absent_of_isAbsent habsent]
      simp only [Node.sites, Site.story, List.flatMap_nil, List.append_nil]
      exact .enclosedBlank (.branch test) (.asStatement ihb fun _ h => h.1) fun _ _ hc hb =>
        .branch hc.2 hb fun _ ho => by cases ho
    · exact .andThen (.choice test (.asStatement ihb fun _ h => h.1) (.asStatement iho fun _ h => h.1)
        fun _ h => h.2) fun _ => .blank
  case whileStatement =>
    intro inside pos condition body ihc ihb
    refine .bind (asCondition_alike s style ν inside ihc fun _ h => h) fun test => ?_
    exact .enclosedBlank (.loop test) (.asStatement ihb fun _ h => h.1) fun _ _ hc hb =>
      .loop hc.2 hb
  case forStatement =>
    intro inside pos initializer condition increment body ihi ihc ihb ihs
    refine .bind (.asStatement ihi fun _ h => h) fun _ => ?_
    refine .bind (asCondition_alike s style ν inside ihc fun _ h => h.1) fun test => ?_
    refine .enclosedBlank (.loop test) (Q := fun _ _ => True) ?_ fun _ _ hc hb => .loop hc.2 hb
    refine .bind (.asStatement ihb fun _ h => h.1.1) fun _ => ?_
    exact .asStatement ihs fun _ h => h.1.1.1
  case doStatement =>
    intro inside pos condition body ihc ihb
    refine .bind (asCondition_alike s style ν inside ihc fun _ h => h) fun test => ?_
    exact .enclosedBlank (.doLoop test) (.asStatement ihb fun _ h => h.1) fun _ _ hc hb =>
      .doLoop hc.2 hb
  case returnStatement =>
    intro inside pos value ih
    refine .andThen (.asOperand ih fun _ h => h) fun e => ?_
    exact .emitBlank rfl fun _ h => .ret h.2
  case continueStatement =>
    intros
    exact .emitBlank rfl fun _ _ => .next
  case breakStatement =>
    intros
    exact .emitBlank rfl fun _ _ => .leave
  case discardStatement =>
    intros
    exact .emitBlank rfl fun _ _ =>
      .eval (.inl (.invoke _ (List.forall_mem_nil _)))
  case expressionStatement =>
    intro inside pos e ih
    exact .andThen (.asStatement ih fun _ h => h) fun _ => .blank
  case declarator =>
    intro pos type items ih
    exact .andThen ih fun _ => .blank
  case declaratorOutside | declaratorItemOutside =>
    intro inside pos first second hinside
    simp only [if_neg hinside]
    exact .blank
  case declaratorItem =>
    intro pos initializer pos' id ih
    simp only [Node.renameName, Node.unplaced, story_cons]
    -- An identifier is a name, so nothing comes up before the initial value.
    show Alike _ _ _ _ _ (fun _ => Site.story s (initializer.sites true .operand) ++
      Site.story s [.declared pos id]) _
    refine .bind (.asOperand ih fun _ h => h) fun initial => ?_
    exact .andThen (declare_alike s style hν pos id fun _ h => h.2) fun _ => .blank
  case declaratorItemName =>
    intro pos name initializer hname
    have hfault : (Site.item pos name).fault = some (.declaratorName pos name.kindName) := by
      cases name with
      | identifier pos' id => exact absurd rfl (hname pos' id)
      | _ => rfl
    have hstory : Site.story s [.item pos name] =
        [.failure (.declaratorName pos name.kindName)] := by
      rw [story_singleton, Site.occurrences, hfault]
      rfl
    have hthrow : Alike (guise s style ν) (Strict s) (Expr.rename ν)
        (do throw (.declaratorName pos name.kindName); pure .blank)
        (do throw (.declaratorName .unknown name.kindName); pure .blank)
        (fun _ => [.failure (.declaratorName pos name.kindName)]) fun st e => e.StandsAs st :=
      .andThen (g := id) (Q := fun _ _ => True) (.throw fun _ => rfl) fun _ => .blank
    simp only [hstory]
    cases name with
    | identifier pos' id => exact absurd rfl (hname pos' id)
    | _ =>
      simp only [Node.renameName, Node.unplaced]
      exact hthrow
  -- Expressions.
  case functionCall =>
    intro inside pos name arguments ih
    refine .andThen ih fun args => .pure (s.call_rename ν name args) fun st h => ?_
    exact (call_operand s name h.2).standsAs st
  case identifier =>
    intro inside pos name
    exact .pure (congrArg Expr.read (hν.slot_eq name)) fun st _ =>
      (Expr.Operand.read _).standsAs st
  case integerLiteral | floatLiteral | booleanLiteral =>
    intros
    exact .pure rfl fun st _ => Expr.Operand.standsAs (by constructor) st
  case operator =>
    intro inside op
    split
    · exact .blank
    · exact .pure rfl fun st _ => (Expr.Operand.bare _).standsAs st
  case ternaryExpression =>
    intro inside pos condition whenTrue whenFalse ihc iht ihf
    refine .bind (.asOperand ihc fun _ h => h) fun c => ?_
    refine .bind (.asOperand iht fun _ h => h.1) fun t => ?_
    refine .andThen (.asOperand ihf fun _ h => h.1.1) fun f => ?_
    exact .pure rfl fun st h => (Expr.Operand.choose h.1.1.2 h.1.2 h.2).standsAs st
  case assignment =>
    intro inside pos op left right operator hop ihr iht
    simp only [hop, List.cons_append]
    refine checked_alike s style ν pos op.text ?_
    simp only [story_append]
    refine .bind (.asOperand ihr fun _ h => h.1) fun value => ?_
    exact store_alike s style ν inside left hν iht operator fun _ h => h
  case binaryExpression =>
    intro inside pos op left right hop ihl ihr
    simp only [hop, story_append]
    refine .bind (.asOperand ihl fun _ h => h) fun l => ?_
    refine .bind (.asOperand ihr fun _ h => h.1) fun r => ?_
    cases binaryOperators.lookup op.text with
    | some member => exact .pure rfl fun st h => (Expr.Operand.invoke_pair _ h.1.2 h.2).standsAs st
    | none => exact inert_alike s _ op.text pos fun _ h => h.2
  case step =>
    intro inside pos op e member hop iht
    simp only [hop]
    refine checked_alike s style ν pos op.text ?_
    exact store_alike s style ν inside e hν iht (some member) fun _ h => ⟨h, .float 1⟩
  case unaryExpression =>
    intro inside pos op e hop ih
    simp only [hop, story_append]
    refine .bind (.asOperand ih fun _ h => h) fun operand => ?_
    cases unaryOperators.lookup op.text with
    | some member =>
      refine .pure rfl fun st h => (Expr.Operand.invoke _ fun e he => ?_).standsAs st
      exact List.mem_singleton.mp he ▸ h.2
    | none => exact inert_alike s _ op.text pos fun _ h => h.2
  case selection =>
    intro inside pos pos' selector e ihe ihs
    refine .bind (.asOperand ihe fun _ h => h) fun base => ?_
    refine .andThen (ihs.mono (fun _ h => h.1) fun _ _ _ h => h) fun argument => ?_
    exact .pure rfl fun st h => (Expr.Operand.invoke_pair _ h.1.2 h.2).standsAs st
  case postfixStep =>
    intro inside pos pos' token e member hop iht
    simp only [hop]
    refine checked_alike s style ν pos token ?_
    exact store_alike s style ν inside e hν iht (some member) fun _ h => ⟨h, .float 1⟩
  case postfixToken =>
    intro inside pos pos' token e hop ih
    simp only [hop, story_append]
    refine .bind (.asOperand ih fun _ h => h) fun operand => ?_
    exact inert_alike s _ token pos fun _ h => h.2
  -- Selectors that are read.
  case readField =>
    intros
    exact .pure rfl fun _ _ => .field _
  case readNothing =>
    intro inside pos index habsent
    rw [Node.eq_absent_of_isAbsent habsent]
    exact .throw fun _ => rfl
  case readIndex =>
    intro inside pos index habsent ih
    have hfault : (Site.selector (.indexSelector pos index)).fault = none := if_neg habsent
    simp only [if_neg habsent, story_cons, Site.occurrences, hfault]
    exact .asOperand ih fun _ h => h
  case readOther =>
    intro inside n hfield hindex
    cases n with
    | fieldSelector pos selection => exact absurd rfl (hfield pos selection)
    | indexSelector pos index => exact absurd rfl (hindex pos index)
    | operator op => cases op <;> exact .throw fun _ => rfl
    | _ => exact .throw fun _ => rfl
  -- Targets.
  case targetSelection =>
    intro inside pos pos' selector e ihe ihs pos'' index hindex
    rw [Target.steps] at hindex
    exact (List.mem_append.mp hindex).elim (ihe pos'' index) (ihs pos'' index)
  case targetToken | targetOperator =>
    intros
    simp only [Target.steps] at *
    solve_by_elim
  case targetIndex =>
    intro inside pos index ih pos' index' hindex
    rw [Target.steps] at hindex
    unfold Target.subscriptStep at hindex
    split at hindex <;> cases List.mem_singleton.mp hindex
    exact ih
  case targetAbsent | targetOperatorToken | targetIdentifier | targetField | targetInteger
      | targetFloat =>
    intros
    simp_all [Target.steps]
  case targetOther =>
    intro inside n habsent hidentifier hselection htoken hoperator hoperatorToken hindex hfield
      hinteger hfloat pos index hmem
    rw [Target.steps] at hmem
    · cases List.mem_singleton.mp hmem
    all_goals assumption
  -- Lists of nodes.
  case noOperands =>
    intro inside
    exact .pure rfl fun _ _ => List.forall_mem_nil _
  case operands =>
    intro inside n rest ihn ihr
    refine .bind (.asOperand ihn fun _ h => h) fun e => ?_
    refine .andThen (ihr.mono (fun _ h => h.1) fun _ _ _ h => h) fun es => ?_
    refine .pure rfl fun _ h e' he' => ?_
    cases he' with
    | head => exact h.1.2
    | tail _ he' => exact h.2 e' he'
  case noStatements =>
    intro inside
    exact .pure rfl fun _ _ => trivial
  case statements =>
    intro inside n rest ihn ihr
    refine .bind (.asStatement ihn fun _ h => h) fun _ => ?_
    exact ihr.mono (fun _ h => h.1) fun _ _ _ h => h

/-! ## Whole shaders -/

/-- A script whose assignments are statements. -/
structure Script.Lowered (script : Script) : Prop where
  body : ∀ s ∈ script.body, s.Lowered
  entry : script.entry.Operand

namespace Generator

/-- A generator lowers a shader with this result and these reports.  The lines that it writes are
those of the script, unless it fails. -/
def Makes (g : Generator) (shader : Shader) (r : Except LoweringError Script)
    (reports : List Diagnostic) : Prop :=
  ∃ written, lower ⟨g.style, shader.isGlobal⟩ shader g.start =
      (r, g.start.extended [] written reports) ∧
    ∀ script, r = .ok script → written = script.lines g.style.dialect

/-- A script is written around the statements of the tree. -/
theorem makes_of_adds {g : Generator} {shader : Shader} {r : Except LoweringError Unit}
    {stmts : List Stmt} {reports : List Diagnostic}
    (h : Adds (asStatement (visit ⟨g.style, shader.isGlobal⟩ false shader.tree))
      ((g.start.opened g.style.dialect.scriptOpen).extended []
        (linesAt 1 (Script.opening g.style.dialect)) []) r stmts reports) :
    g.Makes shader (r.map fun _ =>
      ⟨stmts, shader.debugTrap, Surroundings.call ⟨g.style, shader.isGlobal⟩ "main" []⟩)
      reports := by
  let entry := Surroundings.call ⟨g.style, shader.isGlobal⟩ "main" []
  let ending := Script.ending g.style.dialect shader.debugTrap entry
  let statements := asStatement (visit ⟨g.style, shader.isGlobal⟩ false shader.tree)
  have hrun : lower ⟨g.style, shader.isGlobal⟩ shader g.start =
      (block g.style.dialect.scriptOpen (do
          write (Script.opening g.style.dialect)
          statements
          write ending) >>= fun body => do
        write g.style.dialect.blockClose
        pure ⟨body, shader.debugTrap, entry⟩ : Lowering Script) g.start := rfl
  -- The ending is written only if the statements do not fail.
  have hopening : (do
        write (Script.opening g.style.dialect)
        statements
        write ending : Lowering Unit) (g.start.opened g.style.dialect.scriptOpen) =
      (statements >>= fun _ => write ending) _ := bind_of_ok (write_eq _ _)
  cases r with
  | error e =>
    obtain ⟨written, h, -⟩ := h
    have hbody := hopening.trans (bind_of_error h)
    rw [Draft.extended_extended] at hbody
    exact ⟨_, hrun.trans (bind_of_error (block_of_error hbody)), fun _ hr => by cases hr⟩
  | ok _ =>
    have hbody := hopening.trans ((bind_of_ok h.eq_of_ok).trans (write_eq ending _))
    rw [Draft.extended_extended, Draft.extended_extended] at hbody
    have hscript := hrun.trans ((bind_of_ok (block_of_ok hbody)).trans
      (bind_of_ok (write_eq g.style.dialect.blockClose _)))
    rw [Draft.extended_extended] at hscript
    simp only [List.nil_append, List.append_nil] at hscript
    refine ⟨_, hscript, fun script hr => ?_⟩
    cases hr
    simp [Script.lines, Draft.extended, Draft.opened, start, Dialect.filled, Script.opening, linesAt,
      ending, entry]

theorem Makes.unique {g : Generator} {shader : Shader} {r r' : Except LoweringError Script}
    {reports reports' : List Diagnostic} (h : g.Makes shader r reports)
    (h' : g.Makes shader r' reports') : r = r' ∧ reports = reports' := by
  obtain ⟨written, h, -⟩ := h
  obtain ⟨written', h', -⟩ := h'
  rw [h, Prod.mk.injEq, Draft.extended, Draft.extended, Draft.mk.injEq,
    List.append_cancel_left_eq] at h'
  exact ⟨h'.1, List.append_cancel_left h'.2.2.2.2.2.2⟩

/-- What a generator makes of a shader, and what it is afterwards. -/
theorem Makes.generate_eq {g : Generator} {shader : Shader} {r : Except LoweringError Script}
    {reports : List Diagnostic} (h : g.Makes shader r reports)
    (htree : shader.tree.isAbsent = false) : ∃ written,
      g.generate (some shader) = (⟨r, if r.isOk then Line.joined written else "", reports⟩,
        { g with draft := g.start.extended [] written reports }) ∧
      ∀ script, r = .ok script → written = script.lines g.style.dialect := by
  obtain ⟨written, h, hwritten⟩ := h
  refine ⟨written, ?_, hwritten⟩
  rw [Generator.generate]
  dsimp only
  rw [htree, h]
  simp [Draft.extended, start]

end Generator

/-- A shader with its variables renamed. -/
def Shader.rename (ν : Naming) (shader : Shader) : Shader :=
  { shader with tree := shader.tree.rename ν }

/-- A script with its variables renamed. -/
def Script.rename (ν : Naming) (script : Script) : Script :=
  { script with body := Stmt.renameAll ν script.body, entry := script.entry.rename ν }

/-- A generator makes of a shader what one for another style makes of it with new names and without
its positions. -/
theorem lower_alike (g g' : Generator) (hstanding : g.draft.standing = g'.draft.standing)
    (shader : Shader) {ν : Naming} (hν : ν.Suits ⟨g.style, shader.isGlobal⟩) :
    let s : Surroundings := ⟨g.style, shader.isGlobal⟩
    let reports := Occurrence.reportsIn (Site.story s (shader.tree.sites false .statement))
    ∃ r r' reports', g.Makes shader r reports ∧ g'.Makes (shader.rename ν).unplaced r' reports' ∧
      Matches (guise s g'.style ν).errors (fun script script' => script' = script.rename ν) r r' ∧
      (g'.style = g.style → List.Forall₂ (guise s g'.style ν).reports reports reports') ∧
      failureOf r = Occurrence.failureIn (Site.story s (shader.tree.sites false .statement)) ∧
      (g.style.dialect.assignsInExpressions = false → (∀ x ∈ reports, x.isError = false) →
        ∀ script, r = .ok script → script.Lowered) := by
  intro s reports
  -- The drafts differ in what was written, but stand at the same place.
  obtain ⟨r, r', stmts, reports', hm, hm', hr, hreports, hfailure, hpost⟩ :=
    Alike.asStatement ((visit_alike s g'.style hν).1 false shader.tree)
      (fun st (h : Strict s st) => h)
      ((g.start.opened g.style.dialect.scriptOpen).extended []
        (linesAt 1 (Script.opening g.style.dialect)) [])
      ((g'.start.opened g'.style.dialect.scriptOpen).extended []
        (linesAt 1 (Script.opening g'.style.dialect)) []) hstanding
  refine ⟨_, _, reports', Generator.makes_of_adds hm,
    (Generator.makes_of_adds hm' : g'.Makes (shader.rename ν).unplaced _ _), ?_, hreports, ?_,
    fun hstrict herror script hscript => ?_⟩
  · cases hr with
    | ok _ =>
      exact .ok (congrArg (Script.mk (Stmt.renameAll ν stmts) shader.debugTrap)
        (s.call_rename ν "main" []))
    | error he => exact .error he
  · cases r <;> exact hfailure
  · cases r with
    | error e => cases hscript
    | ok _ =>
      cases hscript
      exact ⟨(hpost hstrict herror).1, call_operand s "main" (List.forall_mem_nil _)⟩

/-- Without new names. -/
theorem Shader.rename_id (shader : Shader) : shader.rename id = shader := by
  rw [Shader.rename, Node.rename_id]

theorem Script.rename_id (script : Script) : script.rename id = script := by
  rw [Script.rename, Stmt.renameAll_id, Expr.rename_id.1]

namespace Generator

/-- Every shader has something made of it. -/
theorem exists_makes (g : Generator) (shader : Shader) :
    let story := Site.story ⟨g.style, shader.isGlobal⟩ (shader.tree.sites false .statement)
    ∃ r, g.Makes shader r (Occurrence.reportsIn story) ∧
      failureOf r = Occurrence.failureIn story := by
  obtain ⟨r, _, _, hmakes, _, _, _, hfailure, _⟩ := lower_alike g g rfl shader (Naming.suits_id _)
  exact ⟨r, hmakes, hfailure⟩

/-- What is written for a shader is the source of the script that is made of it. -/
theorem generate_source {g : Generator} {shader : Option Shader} {script : Script}
    (h : (g.generate shader).1.result = .ok script) :
    (g.generate shader).1.source = script.source g.style.dialect := by
  cases shader with
  | none => cases h
  | some shader =>
    cases htree : shader.tree.isAbsent with
    | true => simp [generate, htree] at h
    | false =>
      obtain ⟨r, hmakes, _⟩ := g.exists_makes shader
      obtain ⟨written, hgenerate, hwritten⟩ := hmakes.generate_eq htree
      rw [hgenerate] at h ⊢
      subst h
      rw [hwritten script rfl]
      rfl

end Generator

/-- What a fresh generator makes of a shader, for two styles. -/
theorem generate_alike (style style' : Style) (shader : Option Shader) :
    (generate style shader).result = (generate style' shader).result ∧
      (style.dialect.assignsInExpressions = false →
        (∀ x ∈ (generate style shader).reports, x.isError = false) →
        ∀ script, (generate style shader).result = .ok script → script.Lowered) := by
  cases shader with
  | none => exact ⟨rfl, fun _ _ script h => by cases h⟩
  | some shader =>
    cases htree : shader.tree.isAbsent with
    | true => simp [generate, Generator.generate, htree]
    | false =>
      -- Both styles are compared with the second, without the positions.
      obtain ⟨r, r', reports', hm, hm', hr, _, hfailure, hpost⟩ :=
        lower_alike { style } { style := style' } rfl shader (Naming.suits_id _)
      obtain ⟨r₁, r₁', reports₁', hm₁, hm₁', hr₁, _, hfailure₁, _⟩ :=
        lower_alike { style := style' } { style := style' } rfl shader (Naming.suits_id _)
      obtain ⟨rfl, -⟩ := hm'.unique hm₁'
      obtain ⟨_, hgenerate, -⟩ := hm.generate_eq htree
      obtain ⟨_, hgenerate₁, -⟩ := hm₁.generate_eq htree
      rw [generate, generate, hgenerate, hgenerate₁]
      refine ⟨?_, hpost⟩
      rw [Site.failureIn_story] at hfailure hfailure₁
      cases hr with
      | ok ha =>
        cases hr₁ with
        | ok ha₁ =>
          rw [Script.rename_id] at ha ha₁
          exact congrArg Except.ok (ha.symm.trans ha₁)
      | error he =>
        cases hr₁ with
        | error he₁ => exact congrArg Except.error (Option.some.inj (hfailure.trans hfailure₁.symm))

end ShaderScript
