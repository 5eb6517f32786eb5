import ShaderScript.Proofs.LoweringShape
import ShaderScript.Proofs.PlainNumbers
import ShaderScript.Script.Run

/-!
# Scripts that read the same in both dialects

The dialects write one tree in different ways, and some trees mean different things in them: an
assignment among arguments, an argument that is not there, a name that is assigned but not declared.
`Shared` describes the scripts without such places.

A lowered script that loads in both dialects is shared (`Script.shared_of_loads`) if its
declarations and assignments have values (`Script.complete`) and each function assigns only its own
names (`Script.ownsNames`).
-/

namespace ShaderScript

variable {e : Expr} {known : List String} {args path : List Expr}

namespace Expr

/-- Whether the expression is a literal subscript of a target. -/
def isIndex : Expr → Bool
  | index _ => true
  | _ => false

/-- An expression without assignments, with finite numbers, whose arguments are given in both
dialects or in none.  Literal subscripts only stand on the paths of `get` and `set`. -/
inductive Shared : Expr → Prop
  | read (slot : Slot) : Shared (.read slot)
  | integer (i : Int) : Shared (.integer i)
  | float {x : Float} (h : x.isFinite = true) : Shared (.float x)
  | bool (b : Bool) : Shared (.bool b)
  | field (selection : String) : Shared (.field selection)
  | invoke (member : String) {args given : List Expr} (hgiven : ∀ d, givenArguments d args = given)
      (h : ∀ e ∈ given, Shared e) : Shared (.invoke member args)
  | get {base : Expr} {path : List Expr} (hbase : Shared base)
      (hpath : ∀ e ∈ path, e.isIndex = false → Shared e)
      (hindex : ∀ x, .index x ∈ path → x.isFinite = true) : Shared (.invoke "get" (base :: path))
  | set {base value : Expr} {path : List Expr} (hbase : Shared base)
      (hpath : ∀ e ∈ path, e.isIndex = false → Shared e)
      (hindex : ∀ x, .index x ∈ path → x.isFinite = true) (hvalue : Shared value) :
      Shared (.invoke "set" (base :: path ++ [value]))
  | call (callee : Slot) {args given : List Expr} (hgiven : ∀ d, givenArguments d args = given)
      (h : ∀ e ∈ given, Shared e) : Shared (.call callee args)
  | choose {condition whenTrue whenFalse : Expr} (hc : Shared condition) (ht : Shared whenTrue)
      (hf : Shared whenFalse) : Shared (.choose condition whenTrue whenFalse)
  | inert (token : String) {operand : Expr} (h : Shared operand) : Shared (.inert token operand)

/-- What loads is something, behind comments too. -/
theorem isVoid_of_loads (h : e.loads .python known = true) (d : Dialect) : e.isVoid d = false := by
  fun_induction isVoid d e with
  | case1 => exact nomatch h
  | case2 token operand hd ih =>
    subst hd
    simp only [loads, Bool.and_eq_true] at h
    rw [ih h.2, Bool.and_false]
  | case3 => rfl
  | case4 => rfl

theorem eq_blank_of_isVoid (h : e.isVoid .python = true) : e = .blank := by
  cases e with
  | blank => rfl
  | _ => exact nomatch h

/-- Arguments that load are given in full, but for a blank at the end. -/
theorem argumentsLoad_cases (hplain : ∀ e ∈ args, ∀ name value, e ≠ .write (.binding name) value)
    (h : argumentsLoad .python known [] args = true) :
    (∀ e ∈ args, e.loads .python known = true) ∨
      ∃ given, args = given ++ [.blank] ∧ ∀ e ∈ given, e.loads .python known = true := by
  induction args with
  | nil => exact .inl fun e he => (nomatch he)
  | cons e rest ih =>
    have hwrite := hplain e List.mem_cons_self
    have hload : (if isVoid .python e = true then rest.isEmpty
        else ([] : List String).isEmpty && loads .python known e &&
          argumentsLoad .python known [] rest) = true := by
      rw [argumentsLoad] at h
      · exact h
      · exact hwrite
    -- In Python only the blank is void, and it loads in the last place only.
    by_cases hvoid : isVoid .python e = true
    · rw [if_pos hvoid, List.isEmpty_iff] at hload
      subst hload
      exact .inr ⟨[], by rw [eq_blank_of_isVoid hvoid]; rfl, fun e he => (nomatch he)⟩
    · rw [if_neg hvoid] at hload
      simp only [List.isEmpty_nil, Bool.true_and, Bool.and_eq_true] at hload
      have hrest := ih (fun e he => hplain e (List.mem_cons_of_mem _ he)) hload.2
      rcases hrest with hall | ⟨given, rfl, hall⟩
      · exact .inl (List.forall_mem_cons.mpr ⟨hload.1, hall⟩)
      · exact .inr ⟨e :: given, rfl, List.forall_mem_cons.mpr ⟨hload.1, hall⟩⟩

/-- Arguments that are there are all given. -/
theorem givenArguments_eq {d : Dialect} (h : ∀ e ∈ args, e.isVoid d = false) :
    givenArguments d args = args := by
  unfold givenArguments
  cases hlast : args.getLast? with
  | none => exact (List.getLast?_eq_none_iff.mp hlast).symm
  | some last => simp [h last (List.mem_of_getLast? hlast)]

/-- Arguments that load are the same in both dialects. -/
theorem givenArguments_of_loads
    (hplain : ∀ e ∈ args, ∀ name value, e ≠ .write (.binding name) value)
    (h : argumentsLoad .python known [] args = true) :
    ∃ given, (∀ d, givenArguments d args = given) ∧
      ∀ e ∈ given, e ∈ args ∧ e.loads .python known = true := by
  rcases argumentsLoad_cases hplain h with hall | ⟨given, rfl, hall⟩
  · refine ⟨args, fun d => ?_, fun e he => ⟨he, hall e he⟩⟩
    exact givenArguments_eq fun e he => isVoid_of_loads (hall e he) d
  · refine ⟨given, fun d => ?_, fun e he => ⟨List.mem_append_left _ he, hall e he⟩⟩
    simp [givenArguments, isVoid]

theorem Operand.ne_write (h : e.Operand) (name : String) (value : Expr) :
    e ≠ .write (.binding name) value := by
  rintro rfl
  cases h

/-- An operand that loads is shared. -/
theorem Operand.shared (h : e.Operand) (hload : e.loads .python known = true) : e.Shared := by
  induction h with
  | blank | bare token => exact nomatch hload
  | read slot => exact .read slot
  | integer i => exact .integer i
  | float x => exact .float hload
  | bool b => exact .bool b
  | field selection => exact .field selection
  | invoke member hargs ih =>
    -- A blank at the end is not given in either dialect.
    obtain ⟨given, hgiven, hall⟩ :=
      givenArguments_of_loads (fun e he => (hargs e he).ne_write) hload
    exact .invoke member hgiven fun e he => ih e (hall e he).1 (hall e he).2
  | call callee hargs ih =>
    simp only [loads, Bool.and_eq_true] at hload
    obtain ⟨given, hgiven, hall⟩ :=
      givenArguments_of_loads (fun e he => (hargs e he).ne_write) hload.2
    exact .call callee hgiven fun e he => ih e (hall e he).1 (hall e he).2
  | choose hc ht hf ihc iht ihf =>
    simp only [loads, Bool.and_eq_true] at hload
    exact .choose (ihc hload.1.1) (iht hload.1.2) (ihf hload.2)
  | inert token _ ih =>
    simp only [loads, Bool.and_eq_true] at hload
    exact .inert token (ih hload.2)

/-- Whether the expression stores something: it is there, and so is the new part if it replaces
one. -/
def storesValue : Expr → Bool
  | blank => false
  | invoke "set" args => args.getLast?.any fun value => !value.isBlank
  | _ => true

theorem Selector.ne_write (h : e.Selector) (name : String) (value : Expr) :
    e ≠ .write (.binding name) value := by
  rcases h with h | ⟨x, rfl⟩
  · exact h.ne_write name value
  · exact fun h => nomatch h

theorem Stored.ne_write {v : Expr} (h : v.Stored) (name : String) (value : Expr) :
    v ≠ .write (.binding name) value := by
  cases h with
  | value h => exact h.ne_write name value
  | part slot hs hv | updated slot member hs hv => exact Expr.noConfusion

/-- The selectors of a path that loads are shared, or finite subscripts. -/
theorem path_shared (hpath : ∀ e ∈ path, e.Selector)
    (hload : ∀ e ∈ path, e.loads .python known = true) :
    (∀ e ∈ path, e.isIndex = false → e.Shared) ∧ ∀ x, .index x ∈ path → x.isFinite = true := by
  refine ⟨fun e he hindex => ?_, fun x hx => hload _ hx⟩
  rcases hpath e he with hoperand | ⟨x, rfl⟩
  · exact hoperand.shared (hload e he)
  · exact nomatch hindex

/-- All of a rebuilt value's arguments load, as the new part at the end is there. -/
theorem loads_of_set {slot : Slot} {value : Expr} (hpath : ∀ e ∈ path, e.Selector)
    (hwrite : ∀ name inner, value ≠ .write (.binding name) inner) (hblank : value ≠ .blank)
    (hload : (Expr.invoke "set" (.read slot :: path ++ [value])).loads .python known = true) :
    (∀ e ∈ path, e.loads .python known = true) ∧ value.loads .python known = true := by
  have hplain : ∀ e ∈ Expr.read slot :: path ++ [value],
      ∀ name inner, e ≠ .write (.binding name) inner := by
    intro e he
    simp only [List.cons_append, List.mem_cons, List.mem_append, List.not_mem_nil, or_false] at he
    rcases he with rfl | he | rfl
    · exact fun _ _ => Expr.noConfusion
    · exact (hpath e he).ne_write
    · exact hwrite
  rcases argumentsLoad_cases hplain hload with hall | ⟨given, hgiven, _⟩
  · exact ⟨fun e he => hall e (by simp [he]), hall value (by simp)⟩
  · exact absurd (List.append_inj_right' hgiven rfl) (by simpa using hblank)

/-- What an assignment stores is shared if it loads and there is a value. -/
theorem Stored.shared {v : Expr} (h : v.Stored) (hload : v.loads .python known = true)
    (hvalue : v.storesValue = true) : v.Shared := by
  cases h with
  | value h => exact h.shared hload
  | @part slot path v hselectors hv =>
    have hblank : v ≠ .blank := by
      rintro rfl
      have hlast : (Expr.read slot :: path ++ [Expr.blank]).getLast? = some .blank :=
        List.getLast?_concat
      rw [storesValue, hlast] at hvalue
      exact nomatch hvalue
    obtain ⟨hpath, hlast⟩ := loads_of_set hselectors hv.ne_write hblank hload
    obtain ⟨hshared, hindex⟩ := path_shared hselectors hpath
    exact .set (.read slot) hshared hindex (hv.shared hlast)
  | @updated slot path member v hselectors hv =>
    obtain ⟨hpath, hlast⟩ :=
      loads_of_set hselectors (fun _ _ => Expr.noConfusion) Expr.noConfusion hload
    obtain ⟨hshared, hindex⟩ := path_shared hselectors hpath
    refine .set (.read slot) hshared hindex ?_
    -- The current part is read along the same path, and combined with the operand if there is one.
    have hget : Shared (.invoke "get" (.read slot :: path)) := .get (.read slot) hshared hindex
    obtain ⟨given, hgiven, hall⟩ := givenArguments_of_loads (fun e he name inner => by
      simp only [List.mem_cons, List.not_mem_nil, or_false] at he
      rcases he with rfl | rfl
      · exact fun h => nomatch h
      · exact hv.ne_write name inner) hlast
    refine .invoke member hgiven fun e he => ?_
    obtain ⟨hmem, hgivenLoad⟩ := hall e he
    simp only [List.mem_cons, List.not_mem_nil, or_false] at hmem
    rcases hmem with rfl | rfl
    · exact hget
    · exact hv.shared hgivenLoad

end Expr

namespace Stmt

variable {body : List Stmt} {names : List String}

/-- A statement that both dialects read alike.  A function binds the same names in both. -/
inductive Shared : Stmt → Prop
  | idle : Shared (.eval .blank)
  | eval {e : Expr} (h : e.Shared) : Shared (.eval e)
  | assign (slot : Slot) {value : Expr} (h : value.Shared) : Shared (.eval (.write slot value))
  | declare (name : String) {initial : Expr} (h : initial.Shared) : Shared (.declare name initial)
  | retNothing : Shared (.ret .blank)
  | ret {value : Expr} (h : value.Shared) : Shared (.ret value)
  | leave : Shared .leave
  | next : Shared .next
  | branch {condition : Expr} {body : List Stmt} {otherwise : Option (List Stmt)}
      (hc : condition.Shared) (hb : ∀ s ∈ body, Shared s)
      (ho : ∀ other, otherwise = some other → ∀ s ∈ other, Shared s) :
      Shared (.branch condition body otherwise)
  | loop {condition : Expr} {body : List Stmt} (hc : condition.Shared)
      (hb : ∀ s ∈ body, Shared s) : Shared (.loop condition body)
  | doLoop {condition : Expr} {body : List Stmt} (hc : condition.Shared)
      (hb : ∀ s ∈ body, Shared s) : Shared (.doLoop condition body)
  | function (name : String) {parameters : List Expr} {names : List String} {body : List Stmt}
      (hnames : ∀ d, parameterNames? d parameters = some names)
      (hbound : ∀ n, n ∈ names ++ allBound .javaScript body ↔ n ∈ names ++ allBound .python body)
      (hb : ∀ s ∈ body, Shared s) : Shared (.function name parameters body)

mutual

/-- Whether all declarations and assignments have values. -/
def complete : Stmt → Bool
  | eval (.write _ value) => value.storesValue
  | declare _ initial => !initial.isBlank
  | branch _ body otherwise =>
    allComplete body &&
      (match otherwise with
      | none => true
      | some other => allComplete other)
  | loop _ body => allComplete body
  | doLoop _ body => allComplete body
  | function _ _ body => allComplete body
  | _ => true

/-- Whether all declarations and assignments of statements have values. -/
def allComplete : List Stmt → Bool
  | [] => true
  | s :: rest => complete s && allComplete rest

end

/-- Whether all names that a body assigns are declared in it or among `names`. -/
def owns (names : List String) (body : List Stmt) : Bool :=
  (allBound .python body).all fun n => names.contains n || (allBound .javaScript body).contains n

mutual

/-- Whether each function assigns only its own names. -/
def ownsNames : Stmt → Bool
  | branch _ body otherwise =>
    allOwnNames body &&
      (match otherwise with
      | none => true
      | some other => allOwnNames other)
  | loop _ body => allOwnNames body
  | doLoop _ body => allOwnNames body
  | function _ parameters body =>
    owns ((parameterNames? .python parameters).getD []) body && allOwnNames body
  | _ => true

/-- Whether each function of statements assigns only its own names. -/
def allOwnNames : List Stmt → Bool
  | [] => true
  | s :: rest => ownsNames s && allOwnNames rest

end

theorem allComplete_iff : allComplete body = true ↔ ∀ s ∈ body, s.complete = true := by
  induction body with
  | nil => simp [allComplete]
  | cons s rest ih => simp [allComplete, ih]

theorem allOwnNames_iff : allOwnNames body = true ↔ ∀ s ∈ body, s.ownsNames = true := by
  induction body with
  | nil => simp [allOwnNames]
  | cons s rest ih => simp [allOwnNames, ih]

theorem allLoad_iff {d : Dialect} {looping : Bool} :
    allLoad d known looping body = true ↔ ∀ s ∈ body, s.loads d known looping = true := by
  induction body with
  | nil => simp [allLoad]
  | cons s rest ih => simp [allLoad, ih]

/-- What is declared is bound in both dialects. -/
theorem bound_subset_and_allBound_subset :
    (∀ s : Stmt, ∀ n ∈ bound .javaScript s, n ∈ bound .python s) ∧
      ∀ body : List Stmt, ∀ n ∈ allBound .javaScript body, n ∈ allBound .python body := by
  refine bound.mutual_induct .javaScript _ _ ?_ ?_ ?_ ?branch ?loop ?doLoop ?_ ?other ?_ ?cons
  case branch =>
    intro condition body otherwise hbody hother n hn
    cases otherwise with
    | none =>
      simp only [bound, List.mem_append] at hn ⊢
      exact hn.imp_left (hbody n)
    | some other =>
      simp only [bound, List.mem_append] at hn ⊢
      exact hn.imp (hbody n) (hother n)
  case loop | doLoop =>
    intro condition body hbody n hn
    simp only [bound] at hn ⊢
    exact hbody n hn
  case cons =>
    intro s rest hs hrest n hn
    simp only [allBound, List.mem_append] at hn ⊢
    exact hn.imp (hs n) (hrest n)
  case other =>
    intro s
    intros
    simp_all [bound]
  all_goals simp [bound, allBound, Dialect.assignsInExpressions]

/-- A body that owns its names binds the same names in both dialects. -/
theorem mem_bound_iff_of_owns (h : owns names body = true) (n : String) :
    n ∈ names ++ allBound .javaScript body ↔ n ∈ names ++ allBound .python body := by
  simp only [owns, List.all_eq_true, Bool.or_eq_true, List.contains_iff_mem] at h
  rw [List.mem_append, List.mem_append]
  constructor
  · exact fun hn => hn.imp_right (bound_subset_and_allBound_subset.2 body n)
  · rintro (hn | hn)
    · exact .inl hn
    · exact h n hn

/-- A parameter that is a name in both dialects is the same name. -/
theorem parameterName_unique {name name' : String} (hpy : e.parameterName? .python = some name)
    (hjs : e.parameterName? .javaScript = some name') : name = name' := by
  cases e with
  | read slot =>
    cases slot with
    | binding n =>
      simp only [Expr.parameterName?, Option.ite_none_right_eq_some, Option.some.injEq] at hpy hjs
      exact hpy.2.symm.trans hjs.2
    | global n => exact nomatch hpy
  | _ => exact nomatch hpy

/-- Parameters that are names in both dialects are the same names. -/
theorem parameterNames_unique {parameters : List Expr} {names' : List String}
    (hpy : parameters.mapM (Expr.parameterName? .python) = some names)
    (hjs : parameters.mapM (Expr.parameterName? .javaScript) = some names') : names = names' := by
  rw [mapM_eq_some_iff] at hpy hjs
  induction hpy generalizing names' with
  | nil =>
    cases hjs
    rfl
  | cons hname _ ih =>
    obtain ⟨name', rest', hname', hrest', rfl⟩ := List.forall₂_cons_left_iff.mp hjs
    rw [parameterName_unique hname hname', ih hrest']

/-- The parameters of a function that loads in both dialects. -/
theorem parameterNames_of_loads {parameters : List Expr} {names' : List String}
    (hpy : parameterNames? .python parameters = some names)
    (hjs : parameterNames? .javaScript parameters = some names') (d : Dialect) :
    parameterNames? d parameters = some names := by
  cases d with
  | python => exact hpy
  | javaScript =>
    simp only [parameterNames?, Option.bind_eq_bind, Option.bind_eq_some_iff] at hpy hjs
    obtain ⟨found, hfound, hpy⟩ := hpy
    obtain ⟨found', hfound', hjs⟩ := hjs
    have hsame := parameterNames_unique hfound hfound'
    simp only [Option.ite_none_right_eq_some, Option.some.injEq] at hpy
    simp only [parameterNames?, hfound', Option.bind_eq_bind, Option.bind_some, ← hsame, hpy.2]

/-- A lowered statement that loads in both dialects is shared if it is complete and owns its
names. -/
theorem Lowered.shared {s : Stmt} (h : s.Lowered) {known' : List String} {looping looping' : Bool}
    (hpy : s.loads .python known looping = true) (hjs : s.loads .javaScript known' looping' = true)
    (hcomplete : s.complete = true) (howns : s.ownsNames = true) : s.Shared := by
  induction h generalizing known known' looping looping' with
  | @eval e h =>
    rcases h with h | ⟨slot, v, rfl, hv⟩
    · have hload : e.isVoid .python = true ∨ e.loads .python known = true := by
        rw [loads] at hpy
        · exact Bool.or_eq_true_iff.mp hpy
        · exact fun name value he => h.ne_write name value he
      rcases hload with hvoid | hload
      · rw [Expr.eq_blank_of_isVoid hvoid]
        exact .idle
      · exact .eval (h.shared hload)
    · have hload : v.isVoid .python = true ∨ v.loads .python known = true := by
        cases slot with
        | binding name =>
          simp only [loads, Bool.and_eq_true] at hpy
          exact .inr hpy.2
        | global name =>
          simp only [loads, Expr.isVoid, Bool.false_or] at hpy
          rw [Expr.loads] at hpy
          · simp only [Bool.and_eq_true, Bool.or_eq_true] at hpy
            exact hpy.2
          · exact fun inner value he => hv.ne_write inner value he
      rcases hload with hvoid | hload
      · -- A blank stores nothing.
        rw [Expr.eq_blank_of_isVoid hvoid] at hcomplete
        exact nomatch hcomplete
      · exact .assign slot (hv.shared hload hcomplete)
  | declare name h =>
    simp only [loads, complete, Bool.and_eq_true, Bool.or_eq_true, Bool.not_eq_true']
      at hpy hcomplete
    rw [hcomplete] at hpy
    exact .declare name (h.shared (hpy.2.resolve_left Bool.false_ne_true))
  | ret h =>
    simp only [loads, Bool.or_eq_true] at hpy
    rcases hpy with hvoid | hload
    · rw [Expr.eq_blank_of_isVoid hvoid]
      exact .retNothing
    · exact .ret (h.shared hload)
  | leave => exact .leave
  | next => exact .next
  | @branch condition body otherwise hc hb ho ihb iho =>
    cases otherwise with
    | none =>
      simp only [loads, complete, ownsNames, Bool.and_eq_true, Bool.and_true, allLoad_iff,
        allComplete_iff, allOwnNames_iff] at hpy hjs hcomplete howns
      refine .branch (hc.shared hpy.1) (fun s hs => ?_) fun other hother => nomatch hother
      exact ihb s hs (hpy.2 s hs) (hjs.2 s hs) (hcomplete s hs) (howns s hs)
    | some other =>
      simp only [loads, complete, ownsNames, Bool.and_eq_true, allLoad_iff, allComplete_iff,
        allOwnNames_iff] at hpy hjs hcomplete howns
      refine .branch (hc.shared hpy.1.1) (fun s hs => ?_) fun _ hother s hs => ?_
      · exact ihb s hs (hpy.1.2 s hs) (hjs.1.2 s hs) (hcomplete.1 s hs) (howns.1 s hs)
      · cases hother
        exact iho other rfl s hs (hpy.2 s hs) (hjs.2 s hs) (hcomplete.2 s hs) (howns.2 s hs)
  | loop hc hb ih =>
    simp only [loads, complete, ownsNames, Bool.and_eq_true, allLoad_iff, allComplete_iff,
      allOwnNames_iff] at hpy hjs hcomplete howns
    exact .loop (hc.shared hpy.1) fun s hs =>
      ih s hs (hpy.2 s hs) (hjs.2 s hs) (hcomplete s hs) (howns s hs)
  | @doLoop condition body hc hb ih =>
    simp only [loads, complete, ownsNames, Bool.and_eq_true, Bool.or_eq_true, allLoad_iff,
      allComplete_iff, allOwnNames_iff] at hpy hjs hcomplete howns
    have hload : condition.loads .python known = true := by
      refine hpy.1.resolve_left fun hblank => ?_
      -- A loop without a test does not load in the other dialect.
      cases condition with
      | blank => exact nomatch hjs.1
      | _ => exact nomatch hblank
    exact .doLoop (hc.shared hload) fun s hs =>
      ih s hs (hpy.2 s hs) (hjs.2 s hs) (hcomplete s hs) (howns s hs)
  | @function name parameters body hb ih =>
    simp only [loads, complete, ownsNames, Bool.and_eq_true] at hpy hjs hcomplete howns
    cases hnames : parameterNames? .python parameters with
    | none => simp [hnames] at hpy
    | some names =>
      cases hnames' : parameterNames? .javaScript parameters with
      | none => simp [hnames'] at hjs
      | some names' =>
        simp only [hnames, hnames', allLoad_iff, allComplete_iff, allOwnNames_iff,
          Option.getD_some] at hpy hjs hcomplete howns
        exact .function name (parameterNames_of_loads hnames hnames')
          (mem_bound_iff_of_owns howns.1) fun s hs =>
            ih s hs (hpy.2 s hs) (hjs.2 s hs) (hcomplete s hs) (howns.2 s hs)

end Stmt

namespace Script

/-- Whether all declarations and assignments have values. -/
def complete (s : Script) : Bool := Stmt.allComplete s.body

/-- Whether each function assigns only its own names, and the statements around them only names of
the script. -/
def ownsNames (s : Script) : Bool := Stmt.owns [] s.body && Stmt.allOwnNames s.body

/-- A script that both dialects read alike. -/
structure Shared (s : Script) : Prop where
  body : ∀ stmt ∈ s.body, stmt.Shared
  bound : ∀ n, n ∈ Stmt.allBound .javaScript s.body ↔ n ∈ Stmt.allBound .python s.body
  entry : s.entry.Shared

/-- A lowered script that loads in both dialects is shared if it is complete and owns its names. -/
theorem shared_of_loads {s : Script} (h : s.Lowered) (hjs : s.loads .javaScript = true)
    (hpy : s.loads .python = true) (hcomplete : s.complete = true) (howns : s.ownsNames = true) :
    s.Shared := by
  simp only [loads, complete, ownsNames, Bool.and_eq_true, Stmt.allLoad_iff, Stmt.allComplete_iff,
    Stmt.allOwnNames_iff] at hjs hpy hcomplete howns
  refine ⟨fun stmt hstmt => ?_, fun n => ?_, h.entry.shared hpy.2⟩
  · exact (h.body stmt hstmt).shared (hpy.1 stmt hstmt) (hjs.1 stmt hstmt) (hcomplete stmt hstmt)
      (howns.2 stmt hstmt)
  · simpa only [List.nil_append] using Stmt.mem_bound_iff_of_owns howns.1 n

end Script

/-! ## Arguments of shared calls -/

namespace Expr

theorem Shared.isIndex (h : e.Shared) : e.isIndex = false := by
  cases h <;> rfl

theorem Shared.ne_write (h : e.Shared) (slot : Slot) (value : Expr) : e ≠ .write slot value := by
  rintro rfl
  cases h

theorem Shared.isBlank (h : e.Shared) : e.isBlank = false := by
  cases h <;> rfl

/-- A shared expression is something, behind comments too. -/
theorem Shared.isVoid (h : e.Shared) (d : Dialect) : e.isVoid d = false := by
  induction h with
  | inert token _ ih =>
    cases d with
    | javaScript => rw [Expr.isVoid, ih, Bool.and_false]
    | python => rfl
  | _ => rfl

/-- No assignment hides behind comments. -/
theorem Shared.pastComments_ne_write (h : e.Shared) (slot : Slot) (value : Expr) :
    e.pastComments ≠ .write slot value := by
  induction h with
  | inert token _ ih => exact ih
  | _ => exact Expr.noConfusion

/-- A selector on a path: a shared expression or a finite literal subscript. -/
def Selects (e : Expr) : Prop := e.Shared ∨ ∃ x, e = .index x ∧ x.isFinite = true

theorem selects_of_path (hpath : ∀ e ∈ path, e.isIndex = false → e.Shared)
    (hindex : ∀ x, .index x ∈ path → x.isFinite = true) : ∀ e ∈ path, e.Selects := by
  intro e he
  cases hcase : e.isIndex with
  | false => exact .inl (hpath e he hcase)
  | true =>
    cases e with
    | index x => exact .inr ⟨x, rfl, hindex x he⟩
    | _ => exact nomatch hcase

theorem Selects.isVoid (h : e.Selects) (d : Dialect) : e.isVoid d = false := by
  rcases h with h | ⟨x, rfl, _⟩
  · exact h.isVoid d
  · rfl

theorem Selects.ne_write (h : e.Selects) (name : String) (value : Expr) :
    e ≠ .write (.binding name) value := by
  rcases h with h | ⟨x, rfl, _⟩
  · exact h.ne_write _ value
  · exact Expr.noConfusion

/-- One shared argument is given in both dialects. -/
theorem Shared.givenArguments_singleton (h : e.Shared) (d : Dialect) :
    givenArguments d [e] = [e] := by
  apply givenArguments_eq
  intro x hx
  rw [List.mem_singleton.mp hx]
  exact h.isVoid d

theorem Shared.selects_singleton (h : e.Shared) : ∀ x ∈ [e], x.Selects := by
  intro x hx
  rw [List.mem_singleton.mp hx]
  exact .inl h

/-- The values that arguments evaluate to in the two dialects: alike, but for literal subscripts,
which pick alike. -/
inductive ArgumentsFor : List Expr → List Value → List Value → Prop
  | nil : ArgumentsFor [] [] []
  | cons {e : Expr} {es : List Expr} {v v' : Value} {vs vs' : List Value}
      (hpick : v.PicksAlike v') (halike : e.isIndex = false → v.Alike v')
      (h : ArgumentsFor es vs vs') : ArgumentsFor (e :: es) (v :: vs) (v' :: vs')

namespace ArgumentsFor

variable {es : List Expr} {vs vs' : List Value}

theorem picks (h : ArgumentsFor es vs vs') : List.Forall₂ Value.PicksAlike vs vs' := by
  induction h with
  | nil => exact .nil
  | cons hpick _ _ ih => exact .cons hpick ih

theorem alike (h : ArgumentsFor es vs vs') (hindex : ∀ e ∈ es, e.isIndex = false) :
    List.Forall₂ Value.Alike vs vs' := by
  induction h with
  | nil => exact .nil
  | cons _ halike _ ih =>
    exact .cons (halike (hindex _ List.mem_cons_self))
      (ih fun e he => hindex e (List.mem_cons_of_mem _ he))

/-- The last value of arguments that end with one. -/
theorem concat {value : Expr} (h : ArgumentsFor (path ++ [value]) vs vs')
    (hvalue : value.isIndex = false) :
    ∃ us v us' v', vs = us ++ [v] ∧ vs' = us' ++ [v'] ∧ List.Forall₂ Value.PicksAlike us us' ∧
      v.Alike v' := by
  induction path generalizing vs vs' with
  | nil =>
    cases h with
    | cons _ halike hrest =>
      cases hrest
      exact ⟨[], _, [], _, rfl, rfl, .nil, halike hvalue⟩
  | cons e path ih =>
    cases h with
    | cons hpick _ hrest =>
      obtain ⟨us, v, us', v', rfl, rfl, hus, hv⟩ := ih hrest
      exact ⟨_ :: us, v, _ :: us', v', rfl, rfl, .cons hpick hus, hv⟩

end ArgumentsFor

/-- What a call of the catalog needs: its arguments are the same expressions in both dialects, and
their values are alike as far as the function can tell. -/
theorem Shared.invoke_arguments {member : String} (h : (Expr.invoke member args).Shared) :
    ∃ given, (∀ d, givenArguments d args = given) ∧ (∀ e ∈ given, e.Selects) ∧
      ∀ vs vs', ArgumentsFor given vs vs' → ArgumentsAlike member vs vs' := by
  cases h with
  | @invoke _ _ given hgiven hshared =>
    refine ⟨given, hgiven, fun e he => .inl (hshared e he), fun vs vs' hvs => ?_⟩
    exact .each member (hvs.alike fun e he => (hshared e he).isIndex)
  | @get base path hbase hpath hindex =>
    have hselects : ∀ e ∈ base :: path, e.Selects :=
      List.forall_mem_cons.mpr ⟨.inl hbase, selects_of_path hpath hindex⟩
    refine ⟨_, fun d => givenArguments_eq fun e he => (hselects e he).isVoid d, hselects, ?_⟩
    intro vs vs' hvs
    cases hvs with
    | cons _ halike hrest => exact .get (halike hbase.isIndex) hrest.picks
  | @set base value path hbase hpath hindex hvalue =>
    have hselects : ∀ e ∈ base :: path ++ [value], e.Selects := by
      intro e he
      simp only [List.cons_append, List.mem_cons, List.mem_append, List.not_mem_nil, or_false] at he
      rcases he with rfl | he | rfl
      · exact .inl hbase
      · exact selects_of_path hpath hindex e he
      · exact .inl hvalue
    refine ⟨_, fun d => givenArguments_eq fun e he => (hselects e he).isVoid d, hselects, ?_⟩
    intro vs vs' hvs
    cases hvs with
    | cons _ halike hrest =>
      -- The value that is put stands behind the selectors.
      obtain ⟨us, v, us', v', rfl, rfl, hus, hv⟩ := hrest.concat hvalue.isIndex
      exact .set (halike hbase.isIndex) hus hv

end Expr

end ShaderScript
