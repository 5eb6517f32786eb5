import ShaderScript.Proofs.SplitVariables

/-!
# Computing what was written last

`Script.flows` follows a script and computes what was written last after each piece of code.  Where
it finds that all uses of the two names are of what was written last, they are
(`Script.flows_of_check`).  It proposes for the head and the end of each loop what it knows before
the loop, or nothing.
-/

namespace ShaderScript

/-- What is known where two ways meet. -/
def LastWrite.meet (a b : LastWrite) : LastWrite := if a = b then a else unknown

theorem LastWrite.leads_meet_left (a b : LastWrite) : a.Leads (a.meet b) := by
  unfold meet
  split
  · exact .inl rfl
  · exact .inr rfl

theorem LastWrite.leads_meet_right (a b : LastWrite) : b.Leads (a.meet b) := by
  unfold meet
  split
  · rename_i h
    exact .inl h
  · exact .inr rfl

instance (c c' : LastWrite) : Decidable (c.Leads c') := inferInstanceAs (Decidable (_ ∨ _))

instance (c : LastWrite) (n : String) : Decidable (c.Shows n) := inferInstanceAs (Decidable (_ ∨ _))

namespace Split

variable (σ : Split)

instance : (r : Region) → (n : String) → Decidable (σ.Free r n)
  | .elsewhere, _ => inferInstanceAs (Decidable (_ ≠ _))
  | .within _, _ | .apart, _ => inferInstanceAs (Decidable (_ ∧ _))

instance : (r : Region) → (n : String) → Decidable (σ.Owns r n)
  | .within _, _ => inferInstanceAs (Decidable (_ ∧ _))
  | .elsewhere, _ | .apart, _ => inferInstanceAs (Decidable False)

instance (r : Region) (c : LastWrite) (n : String) : Decidable (σ.Reads r c n) :=
  inferInstanceAs (Decidable (_ ∨ _))

/-- What was written last after a write. -/
def written? (r : Region) (c : LastWrite) (n : String) : Option LastWrite :=
  if σ.Free r n then some c else if σ.Owns r n then some (.into n) else none

variable {σ}

/-- A write that passes the check is allowed. -/
theorem writes_of_written {r : Region} {c c' : LastWrite} {n : String}
    (h : σ.written? r c n = some c') : σ.Writes r c n c' := by
  unfold written? at h
  split at h
  · rename_i hfree
    exact .inl ⟨hfree, (Option.some.inj h).symm⟩
  · split at h
    · rename_i howns
      exact .inr ⟨howns, (Option.some.inj h).symm⟩
    · cases h

end Split

namespace Expr

/-- Whether a choice belongs to an assignment before it. -/
def isAssignment : Expr → Bool
  | .write (.binding _) _ => true
  | _ => false

mutual

/-- What was written last after an expression, if all uses in it are of what was written last. -/
def flow? (σ : Split) (r : Region) : Expr → LastWrite → Option LastWrite
  | read (.binding n), c => if σ.Reads r c n then some c else none
  | invoke _ args, c => allFlow? σ r args c
  | call (.binding n) args, c => if σ.Free r n then allFlow? σ r args c else none
  | call (.global _) args, c => allFlow? σ r args c
  | choose condition whenTrue whenFalse, c =>
    if condition.pastComments.isAssignment then none
    else do
      let c₁ ← flow? σ r condition c
      return (← flow? σ r whenTrue c₁).meet (← flow? σ r whenFalse c₁)
  | inert _ operand, c => flow? σ r operand c
  | write (.binding n) value, c =>
    if σ.dialect.assignsInExpressions then do σ.written? r (← flow? σ r value c) n else none
  | write (.global _) value, c =>
    if value.isVoid σ.dialect then some c else flow? σ r value c
  | _, c => some c

/-- What was written last after arguments. -/
def allFlow? (σ : Split) (r : Region) : List Expr → LastWrite → Option LastWrite
  | [], c => some c
  | e :: rest, c =>
    if rest.isEmpty && e.isVoid σ.dialect then some c
    else do allFlow? σ r rest (← flow? σ r e c)

end

theorem givenArguments_cons {d : Dialect} {e : Expr} (rest : List Expr)
    (h : rest ≠ [] ∨ e.isVoid d = false) :
    givenArguments d (e :: rest) = e :: givenArguments d rest := by
  cases rest with
  | nil =>
    have hvoid := h.resolve_left (fun hne => hne rfl)
    simp [givenArguments, hvoid]
  | cons a rest =>
    simp only [givenArguments, List.getLast?_cons_cons, List.dropLast_cons_cons,
      List.getLast?_eq_some_getLast (List.cons_ne_nil a rest)]
    split <;> rfl

theorem givenArguments_of_isVoid {d : Dialect} {e : Expr} (h : e.isVoid d = true) :
    givenArguments d [e] = [] := by
  simp [givenArguments, h]

variable {σ : Split} {r : Region}

mutual

/-- An expression that passes the check flows. -/
theorem flows_of_flow {c c' : LastWrite} :
    (e : Expr) → e.flow? σ r c = some c' → Flows σ r c e c'
  | .read (.binding n), h => by
    rw [flow?] at h
    split at h
    · rename_i hn
      cases h
      exact .read hn
    · cases h
  | .invoke member args, h => .invoke member (allFlow_of_flow args h)
  | .call (.binding n) args, h => by
    rw [flow?] at h
    split at h
    · rename_i hn
      exact .call (fun m hm => by cases hm; exact hn) (allFlow_of_flow args h)
    · cases h
  | .call (.global name) args, h =>
    .call (fun n hn => by cases hn) (allFlow_of_flow args h)
  | .choose condition whenTrue whenFalse, h => by
    rw [flow?] at h
    split at h
    · cases h
    · rename_i hplain
      simp only [Option.bind_eq_bind, Option.bind_eq_some_iff, Option.pure_def,
        Option.some.injEq] at h
      obtain ⟨c₁, h₁, c₂, h₂, c₃, h₃, rfl⟩ := h
      -- Both branches lead to the meet of what they leave.
      refine .choose (fun _ n value heq => hplain ?_) (flows_of_flow condition h₁)
        (flows_of_flow whenTrue h₂) (flows_of_flow whenFalse h₃) (c₂.leads_meet_left c₃)
        (c₂.leads_meet_right c₃)
      rw [heq]
      rfl
  | .inert token operand, h => .inert token (flows_of_flow operand h)
  | .write (.binding n) value, h => by
    rw [flow?] at h
    split at h
    · rename_i hd
      obtain ⟨c₁, hvalue, hn⟩ := Option.bind_eq_some_iff.mp h
      exact .write hd (flows_of_flow value hvalue) (Split.writes_of_written hn)
    · cases h
  | .write (.global name) value, h => by
    rw [flow?] at h
    refine .writeGlobal name ?_
    split at h
    · rename_i hvoid
      cases h
      rw [givenArguments_of_isVoid hvoid]
      exact .nil
    · rename_i hvoid
      rw [givenArguments_cons [] (.inr (Bool.eq_false_iff.mpr hvoid))]
      exact .cons (flows_of_flow value h) .nil
  | .blank, h | .read (.global _), h | .integer _, h | .float _, h | .index _, h | .bool _, h
  | .field _, h | .bare _, h => by
    cases h
    exact .constant rfl

theorem allFlow_of_flow {c c' : LastWrite} :
    (args : List Expr) → allFlow? σ r args c = some c' →
      AllFlow σ r c (givenArguments σ.dialect args) c'
  | [], h => by
    cases h
    exact .nil
  | e :: rest, h => by
    rw [allFlow?] at h
    split at h
    · rename_i hlast
      rw [Bool.and_eq_true, List.isEmpty_iff] at hlast
      cases h
      rw [hlast.1, givenArguments_of_isVoid hlast.2]
      exact .nil
    · rename_i hlast
      obtain ⟨c₁, he, hrest⟩ := Option.bind_eq_some_iff.mp h
      rw [givenArguments_cons rest (by
        rwa [Bool.and_eq_true, List.isEmpty_iff, not_and_or, Bool.not_eq_true] at hlast)]
      exact .cons (flows_of_flow e he) (allFlow_of_flow rest hrest)

end

end Expr

/-- What may have been written last at a place in a loop. -/
def Split.proposals (σ : Split) : List LastWrite := [.none, .into σ.x, .into σ.y, .unknown]

/-- Where the body of a function may stand, and what was written last before it. -/
def Split.starts (σ : Split) (names : List String) (body : List Stmt) :
    Region → List (Region × LastWrite)
  | .elsewhere =>
    [(.elsewhere, .none),
     (.within (names ++ Stmt.allBound σ.dialect body),
       if σ.x ∈ names then .into σ.x else .none)]
  | .within _ | .apart => if σ.x ∈ names then [] else [(.apart, .none)]

theorem Split.begins_of_mem_starts {σ : Split} {names : List String} {body : List Stmt}
    {r r₀ : Region} {c : LastWrite} (hy : σ.y ∉ names) (h : (r₀, c) ∈ σ.starts names body r) :
    σ.Begins names body r r₀ c := by
  have happart (hr : r ≠ .elsewhere)
      (h : (r₀, c) ∈ if σ.x ∈ names then [] else [(Region.apart, LastWrite.none)]) :
      σ.Begins names body r r₀ c := by
    split at h
    · cases h
    · rename_i hx
      cases List.mem_singleton.mp h
      exact .apart hr hy hx
  cases r with
  | elsewhere =>
    simp only [starts, List.mem_cons, Prod.mk.injEq, List.not_mem_nil, or_false] at h
    rcases h with ⟨rfl, rfl⟩ | ⟨rfl, rfl⟩
    · exact .elsewhere hy
    · exact .within hy
  | within own => exact happart Region.noConfusion h
  | apart => exact happart Region.noConfusion h

namespace Stmt

/-- What was written last after an expression that is a statement. -/
def evalFlow? (σ : Split) (r : Region) (e : Expr) (c : LastWrite) : Option LastWrite :=
  match e with
  | .write (.binding n) value => do σ.written? r (← value.flow? σ r c) n
  | e => if e.isVoid σ.dialect then some c else e.flow? σ r c

mutual

/-- What was written last after a statement, if all uses in it are of what was written last. -/
def flow? (σ : Split) (r : Region) (left next : LastWrite) :
    Stmt → LastWrite → Option LastWrite
  | eval e, c => evalFlow? σ r e c
  | declare n initial, c =>
    if initial.isBlank then
      match σ.dialect with
      | .javaScript => if σ.Free r n ∨ σ.Owns r n then some c else none
      | .python => σ.written? r c n
    else do σ.written? r (← initial.flow? σ r c) n
  | ret value, c => if value.isVoid σ.dialect then some c else value.flow? σ r c
  | leave, c => if c.Leads left then some c else none
  | .next, c => if c.Leads next then some c else none
  | branch condition body none, c => do
    let c₁ ← condition.flow? σ r c
    return c₁.meet (← allFlow? σ r left next body c₁)
  | branch condition body (some other), c => do
    let c₁ ← condition.flow? σ r c
    return (← allFlow? σ r left next body c₁).meet (← allFlow? σ r left next other c₁)
  | loop condition body, c =>
    σ.proposals.findSome? fun head =>
      σ.proposals.findSome? fun exit => do
        let c₁ ← condition.flow? σ r head
        let c₂ ← allFlow? σ r exit head body c₁
        if c.Leads head ∧ c₁.Leads exit ∧ c₂.Leads head then some exit else none
  | doLoop condition body, c =>
    σ.proposals.findSome? fun head =>
      σ.proposals.findSome? fun test =>
        σ.proposals.findSome? fun exit => do
          let c₁ ← allFlow? σ r exit (σ.continues head test) body head
          let c₂ ← condition.flow? σ r test
          if c.Leads head ∧ c₁.Leads test ∧ c₂.Leads head ∧ c₂.Leads exit then some exit else none
  | function name parameters body, c => do
    let names ← parameterNames? σ.dialect parameters
    if σ.Free r name ∧ σ.y ∉ names then
      (σ.starts names body r).findSome? fun (r₀, c₀) =>
        (allFlow? σ r₀ .unknown .unknown body c₀).map fun _ => c
    else none

/-- What was written last after statements. -/
def allFlow? (σ : Split) (r : Region) (left next : LastWrite) :
    List Stmt → LastWrite → Option LastWrite
  | [], c => some c
  | s :: rest, c => do allFlow? σ r left next rest (← flow? σ r left next s c)

end

variable {σ : Split}

mutual

/-- A statement that passes the check flows. -/
theorem flows_of_flow {r : Region} {left next c c' : LastWrite} :
    (s : Stmt) → s.flow? σ r left next c = some c' → Flows σ r left next c s c'
  | .eval e, h => by
    rw [flow?] at h
    unfold evalFlow? at h
    split at h
    · obtain ⟨c₁, hvalue, hn⟩ := Option.bind_eq_some_iff.mp h
      exact .assign (Expr.flows_of_flow _ hvalue) (Split.writes_of_written hn)
    · split at h
      · rename_i hvoid
        cases h
        exact .void hvoid
      · rename_i hvoid
        exact .eval (Bool.eq_false_iff.mpr hvoid) (Expr.flows_of_flow e h)
  | .declare n initial, h => by
    rw [flow?] at h
    split at h
    · rename_i hblank
      have hinitial : initial = .blank := by
        cases initial <;> first | rfl | cases hblank
      rw [hinitial]
      split at h
      · rename_i hd
        split at h
        · rename_i hn
          cases h
          exact .declareOnly hd hn
        · cases h
      · rename_i hd
        exact .declareNone hd (Split.writes_of_written h)
    · rename_i hblank
      obtain ⟨c₁, hinitial, hn⟩ := Option.bind_eq_some_iff.mp h
      exact .declare (Bool.eq_false_iff.mpr hblank) (Expr.flows_of_flow initial hinitial)
        (Split.writes_of_written hn)
  | .ret value, h => by
    rw [flow?] at h
    split at h
    · rename_i hvoid
      exact .retNothing hvoid
    · exact .ret (Expr.flows_of_flow value h)
  | .leave, h => by
    rw [flow?] at h
    split at h
    · rename_i hleads
      exact .leave hleads
    · cases h
  | .next, h => by
    rw [flow?] at h
    split at h
    · rename_i hleads
      exact .next hleads
    · cases h
  | .branch condition body none, h => by
    simp only [flow?, Option.bind_eq_bind, Option.bind_eq_some_iff, Option.pure_def,
      Option.some.injEq] at h
    obtain ⟨c₁, hcondition, c₂, hbody, rfl⟩ := h
    exact .branch (Expr.flows_of_flow condition hcondition) (allFlow_of_flow body hbody)
      (c₁.leads_meet_left c₂) (c₁.leads_meet_right c₂)
  | .branch condition body (some other), h => by
    simp only [flow?, Option.bind_eq_bind, Option.bind_eq_some_iff, Option.pure_def,
      Option.some.injEq] at h
    obtain ⟨c₁, hcondition, c₂, hbody, c₃, hother, rfl⟩ := h
    exact .choice (Expr.flows_of_flow condition hcondition) (allFlow_of_flow body hbody)
      (allFlow_of_flow other hother) (c₂.leads_meet_left c₃) (c₂.leads_meet_right c₃)
  | .loop condition body, h => by
    rw [flow?] at h
    -- A state that passes the checks at the head is enough; how it was found is not.
    obtain ⟨head, -, h⟩ := List.exists_of_findSome?_eq_some h
    obtain ⟨exit, -, h⟩ := List.exists_of_findSome?_eq_some h
    simp only [Option.bind_eq_bind, Option.bind_eq_some_iff, Option.ite_none_right_eq_some,
      Option.some.injEq] at h
    obtain ⟨c₁, hcondition, c₂, hbody, ⟨hhead, hexit, hback⟩, rfl⟩ := h
    exact .loop hhead (Expr.flows_of_flow condition hcondition) (allFlow_of_flow body hbody) hback
      hexit
  | .doLoop condition body, h => by
    rw [flow?] at h
    obtain ⟨head, -, h⟩ := List.exists_of_findSome?_eq_some h
    obtain ⟨test, -, h⟩ := List.exists_of_findSome?_eq_some h
    obtain ⟨exit, -, h⟩ := List.exists_of_findSome?_eq_some h
    simp only [Option.bind_eq_bind, Option.bind_eq_some_iff, Option.ite_none_right_eq_some,
      Option.some.injEq] at h
    obtain ⟨c₁, hbody, c₂, hcondition, ⟨hhead, htest, hback, hexit⟩, rfl⟩ := h
    exact .doLoop hhead (allFlow_of_flow body hbody) htest
      (Expr.flows_of_flow condition hcondition) hback hexit
  | .function name parameters body, h => by
    rw [flow?] at h
    obtain ⟨names, hparameters, h⟩ := Option.bind_eq_some_iff.mp h
    split at h
    · rename_i hnames
      -- One of the places that the body may have was found to suit it.
      obtain ⟨⟨r₀, c₀⟩, hstart, h⟩ := List.exists_of_findSome?_eq_some h
      obtain ⟨c₁, hbody, rfl⟩ := Option.map_eq_some_iff.mp h
      exact .function hnames.1 hparameters (Split.begins_of_mem_starts hnames.2 hstart)
        (allFlow_of_flow body hbody)
    · cases h

theorem allFlow_of_flow {r : Region} {left next c c' : LastWrite} :
    (body : List Stmt) → allFlow? σ r left next body c = some c' →
      AllFlow σ r left next c body c'
  | [], h => by
    cases h
    exact .nil
  | s :: rest, h => by
    rw [allFlow?] at h
    obtain ⟨c₁, hs, hrest⟩ := Option.bind_eq_some_iff.mp h
    exact .cons (flows_of_flow s hs) (allFlow_of_flow rest hrest)

end

end Stmt

/-- Whether all uses of the two names are found to be of what was written last. -/
def Script.flows (σ : Split) (script : Script) : Bool :=
  (Stmt.allFlow? σ .elsewhere .unknown .unknown script.body .none).isSome &&
    (script.entry.flow? σ .elsewhere .none).isSome

/-- A script that passes the check flows. -/
theorem Script.flows_of_check {σ : Split} {script : Script} (h : script.flows σ = true) :
    script.Flows σ := by
  rw [flows, Bool.and_eq_true, Option.isSome_iff_exists, Option.isSome_iff_exists] at h
  obtain ⟨⟨c, hbody⟩, c', hentry⟩ := h
  exact ⟨⟨_, _, c, Stmt.allFlow_of_flow _ hbody⟩, c', Expr.flows_of_flow _ hentry⟩

end ShaderScript
