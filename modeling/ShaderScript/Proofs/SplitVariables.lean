import ShaderScript.Proofs.Naming
import ShaderScript.Proofs.Place
import ShaderScript.Script.Run

/-!
# Variables split in two

All variables of a function share one name space, so scopes leave no trace in a script: what a
shader declares as `x` in two scopes is one variable of the script.  If one of the two is called `y`
instead, the script has two variables where it had one.  Giving both the name `x` again joins them
(`Split.joined`).

The split makes no difference to a function if every use of `x` or `y` comes after a write to the
same name, with no write to the other in between.  The relations `Expr.Flows` and `Stmt.Flows` say
so for all ways through the code: from what was written last before (`LastWrite`), a piece of code
goes to what was written last after it, and a use must be of what was written last.

Only functions that bind both names themselves are looked at in this way.  What stands elsewhere has
no `y`, and functions inside such a function have neither name (`Region`).
-/

namespace ShaderScript

/-- A variable `x` of the scripts of a dialect, of which a part is called `y`. -/
structure Split where
  dialect : Dialect
  x : String
  y : String

/-- Which of two names was written last. -/
inductive LastWrite
  /-- None of them was written. -/
  | none
  | into (name : String)
  /-- This depends on the way that was taken. -/
  | unknown
  deriving DecidableEq

/-- Where code stands. -/
inductive Region
  /-- Outside of the functions with two variables. -/
  | elsewhere
  /-- In a function with two variables, which binds names of its own. -/
  | within (own : List String)
  /-- In a function inside of such a function. -/
  | apart

namespace LastWrite

/-- Two ways meet: what is known of one holds, or nothing is known. -/
def Leads (c c' : LastWrite) : Prop := c' = c ∨ c' = unknown

/-- Whether a name has what the joined variable has. -/
def Shows (c : LastWrite) (n : String) : Prop := c = none ∨ c = into n

theorem Leads.refl (c : LastWrite) : c.Leads c := .inl rfl

theorem Leads.trans {a b c : LastWrite} (h : a.Leads b) (h' : b.Leads c) : a.Leads c := by
  rcases h' with rfl | rfl
  · exact h
  · exact .inr rfl

/-- What a name shows where ways have met, it shows before. -/
theorem Leads.shows {c c' : LastWrite} {n : String} (h : c.Leads c') (hn : c'.Shows n) :
    c.Shows n := by
  rcases h with rfl | rfl
  · exact hn
  · rcases hn with hn | hn <;> cases hn

end LastWrite

namespace Split

variable (σ : Split)

/-- Both variables under one name. -/
def joined : Naming := fun n => if n = σ.y then σ.x else n

/-- A name that is the same in both scripts where code stands. -/
def Free : Region → String → Prop
  | .elsewhere, n => n ≠ σ.y
  | _, n => n ≠ σ.x ∧ n ≠ σ.y

/-- One of the two names, where they are bound. -/
def Owns : Region → String → Prop
  | .within own, n => n ∈ own ∧ (n = σ.x ∨ n = σ.y)
  | _, _ => False

/-- A variable may be used: it is not one of the two, or it was written last. -/
def Reads (r : Region) (c : LastWrite) (n : String) : Prop :=
  σ.Free r n ∨ σ.Owns r n ∧ c.Shows n

/-- What was written last after a write. -/
def Writes (r : Region) (c : LastWrite) (n : String) (c' : LastWrite) : Prop :=
  σ.Free r n ∧ c' = c ∨ σ.Owns r n ∧ c' = .into n

/-- Where the body of a function stands, given where the function does and the names of its
parameters.  No parameter is called `y`. -/
inductive Begins (names : List String) (body : List Stmt) : Region → Region → LastWrite → Prop
  | elsewhere (h : σ.y ∉ names) : Begins names body .elsewhere .elsewhere .none
  /-- The body has two variables from here on; `x` may be a parameter. -/
  | within (h : σ.y ∉ names) :
      Begins names body .elsewhere (.within (names ++ Stmt.allBound σ.dialect body))
        (if σ.x ∈ names then .into σ.x else .none)
  | apart {r : Region} (hr : r ≠ .elsewhere) (h : σ.y ∉ names) (hx : σ.x ∉ names) :
      Begins names body r .apart .none

/-- Where `continue` goes from the body of a loop with its test at the end. -/
def continues (head test : LastWrite) : LastWrite :=
  match σ.dialect with
  | .javaScript => test
  | .python => head

end Split

/-- Whether an expression names no variable of the script and has no parts. -/
def Expr.isConstant : Expr → Bool
  | .blank | .read (.global _) | .integer _ | .float _ | .index _ | .bool _ | .field _
  | .bare _ => true
  | _ => false

/-! ## Expressions -/

namespace Expr

mutual

/-- What was written last before an expression is evaluated, and after. -/
inductive Flows (σ : Split) (r : Region) : LastWrite → Expr → LastWrite → Prop
  | constant {c : LastWrite} {e : Expr} (h : e.isConstant = true) : Flows σ r c e c
  | read {c : LastWrite} {n : String} (h : σ.Reads r c n) : Flows σ r c (.read (.binding n)) c
  | invoke {c c' : LastWrite} (member : String) {args : List Expr}
      (h : AllFlow σ r c (givenArguments σ.dialect args) c') : Flows σ r c (.invoke member args) c'
  | call {c c' : LastWrite} {callee : Slot} {args : List Expr}
      (hcallee : ∀ n, callee = .binding n → σ.Free r n)
      (h : AllFlow σ r c (givenArguments σ.dialect args) c') : Flows σ r c (.call callee args) c'
  | choose {c c₁ c₂ c₃ c' : LastWrite} {condition whenTrue whenFalse : Expr}
      (hplain : σ.dialect = .javaScript →
        ∀ name value, condition.pastComments ≠ .write (.binding name) value)
      (hcondition : Flows σ r c condition c₁) (htrue : Flows σ r c₁ whenTrue c₂)
      (hfalse : Flows σ r c₁ whenFalse c₃) (h₂ : c₂.Leads c') (h₃ : c₃.Leads c') :
      Flows σ r c (.choose condition whenTrue whenFalse) c'
  /-- An assignment takes the whole choice as its value. -/
  | chooseAssigned {c c' : LastWrite} {condition whenTrue whenFalse value : Expr} {n : String}
      (hd : σ.dialect = .javaScript) (hcondition : condition.pastComments = .write (.binding n) value)
      (h : Flows σ r c (.write (.binding n) (.choose value whenTrue whenFalse)) c') :
      Flows σ r c (.choose condition whenTrue whenFalse) c'
  | inert {c c' : LastWrite} (token : String) {operand : Expr} (h : Flows σ r c operand c') :
      Flows σ r c (.inert token operand) c'
  | write {c c₁ c' : LastWrite} {n : String} {value : Expr}
      (hd : σ.dialect.assignsInExpressions = true) (h : Flows σ r c value c₁)
      (hn : σ.Writes r c₁ n c') : Flows σ r c (.write (.binding n) value) c'
  | writeGlobal {c c' : LastWrite} (name : String) {value : Expr}
      (h : AllFlow σ r c (givenArguments σ.dialect [value]) c') :
      Flows σ r c (.write (.global name) value) c'

/-- What was written last before expressions are evaluated in order, and after. -/
inductive AllFlow (σ : Split) (r : Region) : LastWrite → List Expr → LastWrite → Prop
  | nil {c : LastWrite} : AllFlow σ r c [] c
  | cons {c c₁ c' : LastWrite} {e : Expr} {rest : List Expr} (h : Flows σ r c e c₁)
      (hrest : AllFlow σ r c₁ rest c') : AllFlow σ r c (e :: rest) c'

end

end Expr

/-! ## Statements -/

namespace Stmt

mutual

/-- What was written last before a statement is executed, and after, if it does not jump.  `left`
and `next` are for where `break` and `continue` go. -/
inductive Flows (σ : Split) :
    Region → LastWrite → LastWrite → LastWrite → Stmt → LastWrite → Prop
  | void {r : Region} {left next c : LastWrite} {e : Expr} (h : e.isVoid σ.dialect = true) :
      Flows σ r left next c (.eval e) c
  | eval {r : Region} {left next c c' : LastWrite} {e : Expr} (hvoid : e.isVoid σ.dialect = false)
      (h : e.Flows σ r c c') : Flows σ r left next c (.eval e) c'
  | assign {r : Region} {left next c c₁ c' : LastWrite} {n : String} {value : Expr}
      (h : value.Flows σ r c c₁) (hn : σ.Writes r c₁ n c') :
      Flows σ r left next c (.eval (.write (.binding n) value)) c'
  | declare {r : Region} {left next c c₁ c' : LastWrite} {n : String} {initial : Expr}
      (hinitial : initial.isBlank = false) (h : initial.Flows σ r c c₁) (hn : σ.Writes r c₁ n c') :
      Flows σ r left next c (.declare n initial) c'
  /-- In JavaScript a declaration without a value does nothing. -/
  | declareOnly {r : Region} {left next c : LastWrite} {n : String} (hd : σ.dialect = .javaScript)
      (hn : σ.Free r n ∨ σ.Owns r n) : Flows σ r left next c (.declare n .blank) c
  | declareNone {r : Region} {left next c c' : LastWrite} {n : String} (hd : σ.dialect = .python)
      (hn : σ.Writes r c n c') : Flows σ r left next c (.declare n .blank) c'
  | retNothing {r : Region} {left next c c' : LastWrite} {value : Expr}
      (h : value.isVoid σ.dialect = true) : Flows σ r left next c (.ret value) c'
  | ret {r : Region} {left next c c₁ c' : LastWrite} {value : Expr} (h : value.Flows σ r c c₁) :
      Flows σ r left next c (.ret value) c'
  | leave {r : Region} {left next c c' : LastWrite} (h : c.Leads left) :
      Flows σ r left next c .leave c'
  | next {r : Region} {left next c c' : LastWrite} (h : c.Leads next) :
      Flows σ r left next c .next c'
  | branch {r : Region} {left next c c₁ c₂ c' : LastWrite} {condition : Expr} {body : List Stmt}
      (hcondition : condition.Flows σ r c c₁) (hbody : AllFlow σ r left next c₁ body c₂)
      (h₁ : c₁.Leads c') (h₂ : c₂.Leads c') : Flows σ r left next c (.branch condition body none) c'
  | choice {r : Region} {left next c c₁ c₂ c₃ c' : LastWrite} {condition : Expr}
      {body other : List Stmt} (hcondition : condition.Flows σ r c c₁)
      (hbody : AllFlow σ r left next c₁ body c₂) (hother : AllFlow σ r left next c₁ other c₃)
      (h₂ : c₂.Leads c') (h₃ : c₃.Leads c') :
      Flows σ r left next c (.branch condition body (some other)) c'
  /-- Every pass of a loop begins at its head. -/
  | loop {r : Region} {left next c head c₁ c₂ c' : LastWrite} {condition : Expr} {body : List Stmt}
      (h : c.Leads head) (hcondition : condition.Flows σ r head c₁)
      (hbody : AllFlow σ r c' head c₁ body c₂) (hback : c₂.Leads head) (hexit : c₁.Leads c') :
      Flows σ r left next c (.loop condition body) c'
  | doLoop {r : Region} {left next c head c₁ test c₂ c' : LastWrite} {condition : Expr}
      {body : List Stmt} (h : c.Leads head)
      (hbody : AllFlow σ r c' (σ.continues head test) head body c₁) (htest : c₁.Leads test)
      (hcondition : condition.Flows σ r test c₂) (hback : c₂.Leads head) (hexit : c₂.Leads c') :
      Flows σ r left next c (.doLoop condition body) c'
  | function {r r₀ : Region} {left next c left' next' c₀ c₁ : LastWrite} {name : String}
      {parameters : List Expr} {names : List String} {body : List Stmt} (hname : σ.Free r name)
      (hparameters : parameterNames? σ.dialect parameters = some names)
      (hbegins : σ.Begins names body r r₀ c₀) (hbody : AllFlow σ r₀ left' next' c₀ body c₁) :
      Flows σ r left next c (.function name parameters body) c

/-- What was written last before statements are executed in order, and after. -/
inductive AllFlow (σ : Split) :
    Region → LastWrite → LastWrite → LastWrite → List Stmt → LastWrite → Prop
  | nil {r : Region} {left next c : LastWrite} : AllFlow σ r left next c [] c
  | cons {r : Region} {left next c c₁ c' : LastWrite} {s : Stmt} {rest : List Stmt}
      (h : Flows σ r left next c s c₁) (hrest : AllFlow σ r left next c₁ rest c') :
      AllFlow σ r left next c (s :: rest) c'

end

end Stmt

/-- All uses of the two names in a script are of what was written last. -/
structure Script.Flows (σ : Split) (script : Script) : Prop where
  body : ∃ left next c, Stmt.AllFlow σ .elsewhere left next .none script.body c
  entry : ∃ c, script.entry.Flows σ .elsewhere .none c

/-! ## Joining the names -/

namespace Split

variable {σ : Split} {r r₀ : Region} {n : String}

theorem joined_of_ne (h : n ≠ σ.y) : σ.joined n = n := if_neg h

theorem Free.ne (h : σ.Free r n) : n ≠ σ.y := by
  cases r with
  | elsewhere => exact h
  | within own | apart => exact h.2

theorem Free.joined_eq (h : σ.Free r n) : σ.joined n = n := joined_of_ne h.ne

theorem Owns.joined_eq (h : σ.Owns r n) : σ.joined n = σ.x := by
  cases r with
  | within own =>
    rcases h.2 with rfl | rfl
    · unfold joined
      split <;> rfl
    · exact if_pos rfl
  | elsewhere | apart => exact h.elim

theorem Writes.free_or_owns {c c' : LastWrite} (h : σ.Writes r c n c') :
    σ.Free r n ∨ σ.Owns r n := h.imp And.left And.left

theorem Begins.y_notMem {names : List String} {body : List Stmt} {c : LastWrite}
    (h : σ.Begins names body r r₀ c) : σ.y ∉ names := by
  cases h <;> assumption

end Split

namespace Expr

variable (ν : Naming) (d : Dialect)

theorem isVoid_rename : (e : Expr) → (e.rename ν).isVoid d = e.isVoid d
  | .inert token operand => by
    have ih := isVoid_rename operand
    cases d with
    | javaScript => rw [rename, isVoid, isVoid, ih]
    | python => rfl
  | .blank | .read _ | .integer _ | .float _ | .index _ | .bool _ | .field _ | .bare _ | .invoke _ _
  | .call _ _ | .choose _ _ _ | .write _ _ => rfl

theorem breaksLine_rename : (e : Expr) → (e.rename ν).breaksLine = e.breaksLine
  | .inert token operand => by rw [rename, breaksLine, breaksLine, breaksLine_rename operand]
  | .blank | .read _ | .integer _ | .float _ | .index _ | .bool _ | .field _ | .bare _ | .invoke _ _
  | .call _ _ | .choose _ _ _ | .write _ _ => rfl

theorem returnsNothing_rename (e : Expr) : (e.rename ν).returnsNothing d = e.returnsNothing d := by
  cases d <;> simp only [returnsNothing, isVoid_rename, breaksLine_rename]

theorem givenArguments_rename (args : List Expr) :
    givenArguments d (renameAll ν args) = renameAll ν (givenArguments d args) := by
  simp only [renameAll_eq_map, givenArguments, List.getLast?_map]
  cases args.getLast? with
  | none => rfl
  | some last =>
    simp only [Option.map_some, isVoid_rename]
    split
    · rw [List.map_dropLast]
    · rfl

theorem pastComments_rename : (e : Expr) → (e.rename ν).pastComments = e.pastComments.rename ν
  | .inert token operand => by rw [rename, pastComments, pastComments, pastComments_rename operand]
  | .blank | .read _ | .integer _ | .float _ | .index _ | .bool _ | .field _ | .bare _ | .invoke _ _
  | .call _ _ | .choose _ _ _ | .write _ _ => rfl

/-- A parameter that keeps its name is the same. -/
theorem rename_of_parameterName {n : String} (hn : ν n = n) :
    (e : Expr) → e.parameterName? d = some n → e.rename ν = e
  | .read (.binding name), h => by
    rw [parameterName?] at h
    split at h
    · cases h
      rw [rename, Slot.rename, hn]
    · cases h
  | .inert token operand, h => by
    have ih := rename_of_parameterName hn operand
    cases d with
    | javaScript =>
      rw [parameterName?] at h
      split at h
      · rw [rename, ih h]
      · cases h
    | python => cases h

theorem renameAll_of_parameterNames {parameters : List Expr} {names : List String}
    (h : Stmt.parameterNames? d parameters = some names) (hnames : ∀ n ∈ names, ν n = n) :
    renameAll ν parameters = parameters := by
  simp only [Stmt.parameterNames?, Option.bind_eq_bind, Option.bind_eq_some_iff] at h
  obtain ⟨found, hfound, hsame⟩ := h
  obtain rfl : found = names := by
    cases d with
    | javaScript => exact Option.some.inj hsame
    | python =>
      dsimp only at hsame
      split at hsame
      · exact Option.some.inj hsame
      · cases hsame
  have hforall := mapM_eq_some_iff.mp hfound
  rw [renameAll_eq_map]
  clear hfound hsame
  induction hforall with
  | nil => rfl
  | cons hfirst _ ih =>
    rw [List.forall_mem_cons] at hnames
    rw [List.map_cons, rename_of_parameterName ν d hnames.1 _ hfirst, ih hnames.2]

end Expr

/-- Where assignments are statements, no expression is one. -/
theorem Expr.Flows.ne_write {σ : Split} {r : Region} {c c' : LastWrite} {e : Expr}
    (h : e.Flows σ r c c') (hd : σ.dialect.assignsInExpressions = false) (n : String)
    (value : Expr) : e ≠ .write (.binding n) value := by
  rintro rfl
  cases h with
  | constant h => cases h
  | write hassigns _ _ =>
    rw [hd] at hassigns
    cases hassigns

namespace Stmt

/-- Only an assignment binds a name, and only where it is a statement. -/
theorem bound_eval (d : Dialect) {e : Expr}
    (h : d.assignsInExpressions = false → ∀ n value, e ≠ .write (.binding n) value) :
    bound d (.eval e) = [] ∧ ∀ ν, bound d (.eval (e.rename ν)) = [] := by
  cases e with
  | write slot value =>
    cases slot with
    | global name => constructor <;> intros <;> simp only [Expr.rename, Slot.rename, bound]
    | binding name =>
      cases hd : d.assignsInExpressions with
      | true => constructor <;> intros <;> simp only [Expr.rename, Slot.rename, bound, hd, if_true]
      | false => exact absurd rfl (h hd name value)
  | _ => constructor <;> intros <;> simp only [Expr.rename, bound]

theorem ne_write_of_isVoid {d : Dialect} {e : Expr} (h : e.isVoid d = true) (n : String)
    (value : Expr) : e ≠ .write (.binding n) value := by
  rintro rfl
  cases h

variable {σ : Split}

mutual

/-- The names that a statement binds, once the two are joined.  Each is one of the two where these
are bound, and else one that is kept. -/
theorem Flows.bound_joined {r : Region} {left next c c' : LastWrite} {s : Stmt} :
    Flows σ r left next c s c' →
    bound σ.dialect (s.rename σ.joined) = (bound σ.dialect s).map σ.joined ∧
      ∀ n ∈ bound σ.dialect s, σ.Free r n ∨ σ.Owns r n
  | .void h => by
    have hnone := bound_eval σ.dialect fun _ => ne_write_of_isVoid h
    simp [rename, hnone.1, hnone.2]
  | .eval _ h => by
    have hnone := bound_eval σ.dialect h.ne_write
    simp [rename, hnone.1, hnone.2]
  | .assign h hn => by
    simp only [rename, Expr.rename, Slot.rename, bound]
    -- Only Python declares by assigning.
    split
    · simp
    · simpa using hn.free_or_owns
  | .declare _ _ hn | .declareNone _ hn => by simpa [rename, bound] using hn.free_or_owns
  | .declareOnly _ hn => by simpa [rename, bound] using hn
  | .retNothing _ | .ret _ | .leave _ | .next _ => by simp [rename, bound]
  | .branch _ hbody _ _ => by simpa [rename, bound] using hbody.bound_joined
  | .choice _ hbody hother _ _ => by
    have hfirst := hbody.bound_joined
    have hsecond := hother.bound_joined
    simp only [rename, bound, hfirst.1, hsecond.1, List.map_append, true_and]
    exact List.forall_mem_append.mpr ⟨hfirst.2, hsecond.2⟩
  | .loop _ _ hbody _ _ => by simpa [rename, bound] using hbody.bound_joined
  | .doLoop _ hbody _ _ _ _ => by simpa [rename, bound] using hbody.bound_joined
  | .function hname _ _ _ => by simpa [rename, bound, hname.joined_eq] using .inl hname

theorem AllFlow.bound_joined {r : Region} {left next c c' : LastWrite} {body : List Stmt} :
    AllFlow σ r left next c body c' →
    allBound σ.dialect (renameAll σ.joined body) = (allBound σ.dialect body).map σ.joined ∧
      ∀ n ∈ allBound σ.dialect body, σ.Free r n ∨ σ.Owns r n
  | .nil => by simp [renameAll, allBound]
  | .cons h hrest => by
    have hfirst := h.bound_joined
    have hothers := hrest.bound_joined
    rw [renameAll, allBound, allBound, hfirst.1, hothers.1, List.map_append]
    exact ⟨rfl, List.forall_mem_append.mpr ⟨hfirst.2, hothers.2⟩⟩

end

end Stmt

end ShaderScript
