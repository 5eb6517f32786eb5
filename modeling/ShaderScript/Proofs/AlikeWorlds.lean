import Mathlib.Data.List.TakeDrop
import Mathlib.Data.List.TakeWhile
import ShaderScript.Proofs.Frame
import ShaderScript.Proofs.PlainNumbers

/-!
# Worlds that are alike

A run in JavaScript and a run of the same script in Python are compared world by world.  Two worlds
are alike if their environments and variables hold values that are alike, and their consoles are the
same.  A variable that has no value yet in Python is undefined in JavaScript, so only variables with
a value are compared; the names are the same.

JavaScript makes some tests that Python skips, and a test may call functions.  So there can be
activations in JavaScript that Python never had, and one activation may have different numbers in
the two.  A pairing `P` of numbers tells which activations belong together; it grows along a run.

`RunsAlike` relates the results of two steps, and `RunsAlike.bind` puts steps together.  The rest of
the module shows that the primitive steps of a run keep worlds alike: reading and writing variables
and globals, entering a function, and calling the catalog.
-/

namespace ShaderScript

open Running Value

variable {scope scope' : List Nat} {d' d : Datum} {values values' : List Value} {a a' : Activation}
  {names : List String}

/-! ## Environments -/

/-- The access with its value in plain form. -/
def Access.plain : Access → Access
  | get name value => get name (value.map Value.plain)
  | set name value => set name value.plain

theorem Access.text_plain (a : Access) : a.plain.text = a.text := by
  have htext := toText_plain_and_allTexts_plain.1
  cases a with
  | set name value => simp only [plain, text, word, Access.name, Access.value, htext]
  | get name value =>
    cases value with
    | none => rfl
    | some v => simp only [plain, text, word, Access.name, Access.value, Option.map_some,
        Option.getD_some, htext]

/-- The environment with all values in plain form. -/
def Environment.plain (e : Environment) : Environment where
  values := e.values.map fun p => (p.1, p.2.plain)
  accesses := e.accesses.map Access.plain

namespace Environment

theorem lookup_plain (values : List (String × Value)) (name : String) :
    (values.map fun p => (p.1, p.2.plain)).lookup name = (values.lookup name).map Value.plain := by
  induction values with
  | nil => rfl
  | cons p values ih =>
    obtain ⟨n, v⟩ := p
    simp only [List.map_cons, List.lookup_cons, ih]
    cases name == n <;> rfl

theorem put_plain (name : String) (value : Value) (values : List (String × Value)) :
    (put name value values).map (fun p => (p.1, p.2.plain)) =
      put name value.plain (values.map fun p => (p.1, p.2.plain)) := by
  induction values with
  | nil => rfl
  | cons p values ih =>
    obtain ⟨n, v⟩ := p
    simp only [put, List.map_cons]
    split
    · rfl
    · rw [List.map_cons, ih]

theorem get_plain (e : Environment) (name : String) :
    e.plain.get name = ((e.get name).1.map Value.plain, (e.get name).2.plain) := by
  simp only [get, find?, plain, lookup_plain, List.map_append, List.map_cons, List.map_nil,
    Access.plain]

theorem set_plain (e : Environment) (name : String) (value : Value) :
    e.plain.set name value.plain = (e.set name value).plain := by
  simp only [set, plain, put_plain, List.map_append, List.map_cons, List.map_nil, Access.plain]

theorem transcript_plain (e : Environment) : e.plain.transcript = e.transcript := by
  simp only [transcript, plain, List.map_map, Function.comp_def, Access.text_plain]

end Environment

/-- Two environments are alike if they differ in the form of numbers only. -/
def Environment.Alike (e e' : Environment) : Prop := e.plain = e'.plain

theorem Environment.Alike.set {e e' : Environment} (h : e.Alike e') (name : String) {v v' : Value}
    (hv : v.Alike v') : (e.set name v).Alike (e'.set name v') := by
  unfold Environment.Alike at h ⊢
  rw [← Environment.set_plain, ← Environment.set_plain, h, hv]

/-- Reading a global of environments that are alike. -/
theorem Environment.Alike.get {e e' : Environment} (h : e.Alike e') (name : String) :
    (e.get name).1.map Value.plain = (e'.get name).1.map Value.plain ∧
      (e.get name).2.Alike (e'.get name).2 := by
  have hget := Environment.get_plain e name
  rw [h, Environment.get_plain, Prod.mk.injEq] at hget
  exact ⟨hget.1.symm, hget.2.symm⟩

/-! ## Variables -/

/-- Which activations of two worlds belong together, by their numbers. -/
abbrev Pairing := Nat → Nat → Prop

/-- Two data are alike: values that are, or one function in scopes that belong together. -/
inductive Datum.Alike (P : Pairing) : Datum → Datum → Prop
  | value {v v' : Value} (h : v.Alike v') : Alike P (.value v) (.value v')
  | function {f : Closure} {names : List String} (h : f.Shared names) {scope : List Nat}
      (hscope : List.Forall₂ P scope f.scope) : Alike P (.function { f with scope }) (.function f)

/-- Two activations are alike: they have the same names, and where the second has a datum the first
has one that is alike. -/
structure ActivationAlike (P : Pairing) (a a' : Activation) : Prop where
  names : ∀ n, (a.lookup n).isSome = (a'.lookup n).isSome
  data : ∀ n d', a'.lookup n = some (some d') → ∃ d, a.lookup n = some (some d) ∧ d.Alike P d'

section Pairing

variable {P Q : Pairing} (hPQ : P ≤ Q)

include hPQ

theorem scope_mono (h : List.Forall₂ P scope scope') : List.Forall₂ Q scope scope' :=
  h.imp hPQ

theorem Datum.Alike.mono (h : d.Alike P d') : d.Alike Q d' := by
  cases h with
  | value hv => exact .value hv
  | function hf hscope => exact .function hf (scope_mono hPQ hscope)

theorem ActivationAlike.mono (h : ActivationAlike P a a') : ActivationAlike Q a a' := by
  refine ⟨h.names, fun n d' hd' => ?_⟩
  obtain ⟨d, hd, halike⟩ := h.data n d' hd'
  exact ⟨d, hd, halike.mono hPQ⟩

end Pairing

variable {P : Pairing} {w w' : World}

/-- Activations stay alike under assignments that are alike. -/
theorem ActivationAlike.assign (h : ActivationAlike P a a') (name : String) (hd : d.Alike P d') :
    ActivationAlike P (assignIn name d a) (assignIn name d' a') := by
  refine ⟨fun n => ?_, fun n e' => ?_⟩
  · rw [lookup_assignIn, lookup_assignIn]
    split
    · rfl
    · exact h.names n
  · rw [lookup_assignIn, lookup_assignIn]
    split
    · intro he
      cases he
      exact ⟨d, rfl, hd⟩
    · exact h.data n e'

/-- Two worlds are alike: one console, and environments and variables that are alike.  Every
activation of the second belongs to one of the first. -/
structure World.Alike (P : Pairing) (w w' : World) : Prop where
  environment : w.environment.Alike w'.environment
  console : w.console = w'.console
  outermost : P 0 0
  inside : ∀ {i i'}, P i i' → i < w.activations.size ∧ i' < w'.activations.size
  unique : ∀ {i i' j j'}, P i i' → P j j' → (i = j ↔ i' = j')
  covered : ∀ i' < w'.activations.size, ∃ i, P i i'
  activations : ∀ {i i'}, P i i' →
    ActivationAlike P (w.activations.getD i []) (w'.activations.getD i' [])

namespace World.Alike

variable (h : w.Alike P w')

include h

/-- Names are found in activations that belong together. -/
theorem findActivation (name : String) (hscope : List.Forall₂ P scope scope') :
    Option.Rel P (Running.findActivation w name scope) (Running.findActivation w' name scope') := by
  induction hscope with
  | nil => exact .none
  | cons hpair _ ih =>
    simp only [Running.findActivation, (h.activations hpair).names name]
    split
    · exact .some hpair
    · exact ih

/-- A name that has a datum has one that is alike. -/
theorem datum? {name : String} (hscope : List.Forall₂ P scope scope')
    (hd : Running.datum? w' scope' name = some d') :
    ∃ d, Running.datum? w scope name = some d ∧ d.Alike P d' := by
  -- Both worlds find the name in activations that are paired.
  have hfound := h.findActivation name hscope
  unfold Running.datum? at hd ⊢
  cases hfind' : Running.findActivation w' name scope' with
  | none =>
    rw [hfind'] at hd
    exact nomatch hd
  | some i' =>
    rw [hfind'] at hd hfound
    cases hfind : Running.findActivation w name scope with
    | none =>
      rw [hfind] at hfound
      exact nomatch hfound
    | some i =>
      rw [hfind] at hfound
      cases hfound with
      | some hpair =>
        obtain ⟨d, hlookup, halike⟩ :=
          (h.activations hpair).data name d' (Option.join_eq_some_iff.mp hd)
        exact ⟨d, by simp only [hlookup, Option.join_some], halike⟩

/-- Python went from `w'` to `after` and can be seen to have done nothing: what is alike `after` is
alike `w'`.  Only the activations that `w'` has stay paired. -/
theorem rewind {Q : Pairing} (hPQ : P ≤ Q) {u after : World} (hu : u.Alike Q after)
    (hkept : Kept [] w' after)
    (henvironment : after.environment = w'.environment) (hconsole : after.console = w'.console) :
    ∃ T, P ≤ T ∧ u.Alike T w' := by
  let T : Pairing := fun i i' => Q i i' ∧ i' < w'.activations.size
  have hPT : P ≤ T := fun _ _ hpair => ⟨hPQ _ _ hpair, (h.inside hpair).2⟩
  -- The functions that `w'` holds have their scopes in it.
  have hscope : ∀ {i' n f}, i' < w'.activations.size →
      (w'.activations.getD i' []).lookup n = some (some (.function f)) →
      ∀ j' ∈ f.scope, j' < w'.activations.size := by
    intro i' n f hi' hf j' hj'
    obtain ⟨i, hpair⟩ := h.covered i' hi'
    obtain ⟨d, _, halike⟩ := (h.activations hpair).data n _ hf
    cases halike with
    | function _ hscope =>
      have hinside := hscope.flip.imp fun _ _ hpair' => And.intro (h.inside hpair').2 hpair'
      exact ((List.forall₂_and_left _ _).mp hinside).1 j' hj'
  refine ⟨T, hPT, ?_, ?_, hPT _ _ h.outermost, ?_, ?_, ?_, ?_⟩
  · rw [← henvironment]
    exact hu.environment
  · rw [← hconsole]
    exact hu.console
  · intro i i' hpair
    exact ⟨(hu.inside hpair.1).1, hpair.2⟩
  · intro i i' j j' hpair hpair'
    exact hu.unique hpair.1 hpair'.1
  · intro i' hi'
    obtain ⟨i, hpair⟩ := hu.covered i' (Nat.lt_of_lt_of_le hi' hkept.size)
    exact ⟨i, hpair, hi'⟩
  · intro i i' hpair
    have hsame := hkept.others i' hpair.2 List.not_mem_nil
    have halike := hu.activations hpair.1
    rw [hsame] at halike
    refine ⟨halike.names, fun n d' hd' => ?_⟩
    obtain ⟨d, hd, hdatum⟩ := halike.data n d' hd'
    refine ⟨d, hd, ?_⟩
    cases hdatum with
    | value hv => exact .value hv
    | function hf hscopes =>
      have hpairs := (List.forall₂_and_left _ _).mpr ⟨hscope hpair.2 hd', hscopes.flip⟩
      exact .function hf (hpairs.flip.imp fun _ _ hpair' => hpair'.symm)

end World.Alike

/-! ## Steps -/

/-- Two reasons why a run ended early are alike. -/
def Halt.Alike : Halt → Halt → Prop
  | .interrupt i, .interrupt j => i.Alike j
  | .undefinedGlobal name, .undefinedGlobal name' => name = name'
  | .scriptError, .scriptError => True
  | .exhausted, .exhausted => True
  | _, _ => False

@[refl] theorem Halt.Alike.refl (h : Halt) : h.Alike h := by
  cases h with
  | interrupt i => exact Interrupt.Alike.refl i
  | undefinedGlobal name => exact rfl
  | scriptError | exhausted => exact trivial

/-- Two steps ended alike: with results related by `R` or for reasons that are alike, in worlds that
are alike.  The pairing may have grown.  In Python, where the step began in `w'`, it changed nothing
outside `own`. -/
structure RunsAlike {α α' : Type} (P : Pairing) (own : List Nat) (R : α → α' → Prop) (w' : World)
    (r : Except Halt α × World) (r' : Except Halt α' × World) : Prop where
  result : Matches Halt.Alike R r.1 r'.1
  kept : Kept own w' r'.2
  worlds : ∃ Q, P ≤ Q ∧ r.2.Alike Q r'.2

namespace RunsAlike

variable {α α' β β' : Type} {own : List Nat} {R : α → α' → Prop} {S : β → β' → Prop}
  {r : Except Halt α × World} {r' : Except Halt α' × World}

theorem mono {R' : α → α' → Prop} (hR : ∀ a a', R a a' → R' a a') (h : RunsAlike P own R w' r r') :
    RunsAlike P own R' w' r r' := by
  obtain ⟨r, w⟩ := r
  obtain ⟨r', w'⟩ := r'
  obtain ⟨hresult, hkept, hworld⟩ := h
  refine ⟨?_, hkept, hworld⟩
  cases hresult with
  | ok h => exact .ok (hR _ _ h)
  | error h => exact .error h

/-- What changes nothing may stand where something may be changed. -/
theorem within (own : List Nat) (h : RunsAlike P [] R w' r r') : RunsAlike P own R w' r r' :=
  ⟨h.result, h.kept.mono fun _ hi => absurd hi List.not_mem_nil, h.worlds⟩

/-- What runs alike from a grown pairing, after some steps in Python, runs alike from the first. -/
theorem after {Q : Pairing} (hPQ : P ≤ Q) {v' : World} (hkept : Kept own w' v')
    (h : RunsAlike Q own R v' r r') : RunsAlike P own R w' r r' := by
  obtain ⟨hresult, hkept', T, hQT, hworld⟩ := h
  exact ⟨hresult, hkept.trans hkept', T, hPQ.trans hQT, hworld⟩

/-- Steps one after the other.  What follows may rely on how the step went in Python. -/
theorem bind {m : Running α} {m' : Running α'} {f : α → Running β} {f' : α' → Running β'}
    (h : RunsAlike P own R w' (m w) (m' w'))
    (hf : ∀ Q a a' v v', P ≤ Q → R a a' → v.Alike Q v' → Kept own w' v' → m' w' = (.ok a', v') →
      RunsAlike Q own S v' (f a v) (f' a' v')) :
    RunsAlike P own S w' ((m >>= f) w) ((m' >>= f') w') := by
  rw [bind_apply, bind_apply]
  obtain ⟨hresult, hkept, Q, hPQ, hworld⟩ := h
  rcases hm : m w with ⟨r, v⟩
  rcases hm' : m' w' with ⟨r', v'⟩
  rw [hm, hm'] at hresult hworld
  rw [hm'] at hkept
  cases hresult with
  | ok h => exact (hf Q _ _ v v' hPQ h hworld hkept hm').after hPQ hkept
  | error h => exact ⟨.error h, hkept, Q, hPQ, hworld⟩

/-- A step ends where the other did. -/
theorem of_ok {a' : α'} {v' : World} (h : RunsAlike P own R w' r (.ok a', v')) :
    ∃ Q a v, r = (.ok a, v) ∧ P ≤ Q ∧ R a a' ∧ v.Alike Q v' := by
  obtain ⟨r, v⟩ := r
  obtain ⟨hresult, -, Q, hPQ, hworld⟩ := h
  cases hresult with
  | ok h => exact ⟨Q, _, v, rfl, hPQ, h, hworld⟩

theorem pure {a : α} {a' : α'} (hw : w.Alike P w') (h : R a a') :
    RunsAlike P own R w' ((Pure.pure a : Running α) w) ((Pure.pure a' : Running α') w') :=
  ⟨.ok h, .refl own w', P, le_refl P, hw⟩

theorem throw {e e' : Halt} (hw : w.Alike P w') (h : e.Alike e') :
    RunsAlike P own R w' ((MonadExcept.throw e : Running α) w)
      ((MonadExcept.throw e' : Running α') w') :=
  ⟨.error h, .refl own w', P, le_refl P, hw⟩

end RunsAlike

/-- Two data are values that are alike. -/
inductive SameValue : Datum → Datum → Prop
  | intro {v v' : Value} (h : v.Alike v') : SameValue (.value v) (.value v')

theorem SameValue.alike (h : SameValue d d') (P : Pairing) : d.Alike P d' := by
  cases h with
  | intro h => exact .value h

/-! ### Reading -/

/-- What comes from outside differs in the form of numbers at most. -/
theorem incoming_alike (d : Dialect) (v : Value) : ∃ u, d.incoming v = .value u ∧ u.Alike v := by
  cases v with
  | host form x =>
    cases d with
    | javaScript => exact ⟨.number x, rfl, rfl⟩
    | python =>
      by_cases hform : form = .int64
      · exact ⟨.number x, by simp only [Dialect.incoming, hform, ↓reduceIte], rfl⟩
      · exact ⟨.host form x, by simp only [Dialect.incoming, hform, ↓reduceIte], rfl⟩
  | _ => exact ⟨_, rfl, rfl⟩

theorem sameValue_incoming {v v' : Value} (h : v.Alike v') :
    SameValue (Dialect.incoming .javaScript v) (Dialect.incoming .python v') := by
  obtain ⟨u, hu, halike⟩ := incoming_alike .javaScript v
  obtain ⟨u', hu', halike'⟩ := incoming_alike .python v'
  rw [hu, hu']
  exact .intro ((halike.trans h).trans halike'.symm)

section Reading

variable (hw : w.Alike P w')

include hw

/-- A variable that holds a value holds one that is alike. -/
theorem readVariable_alike (hscope : List.Forall₂ P scope scope') {name : String}
    (h : holdsValue scope' name w' = true) :
    RunsAlike P [] SameValue w' (readVariable scope name w) (readVariable scope' name w') := by
  simp only [holdsValue, readVariable_apply] at h
  rw [readVariable_apply, readVariable_apply]
  cases hdatum : datum? w' scope' name with
  | none => simp [hdatum] at h
  | some d' =>
    obtain ⟨d, hd, halike⟩ := hw.datum? hscope hdatum
    rw [hd]
    cases halike with
    | value hv => exact .pure hw (.intro hv)
    | function _ _ => simp [hdatum] at h

theorem World.Alike.withEnvironment {e e' : Environment} (h : e.Alike e') :
    World.Alike P { w with environment := e } { w' with environment := e' } :=
  ⟨h, hw.console, hw.outermost, hw.inside, hw.unique, hw.covered, hw.activations⟩

theorem readGlobal_alike (name : String) :
    RunsAlike P [] SameValue w' (readGlobal .javaScript name w)
      (readGlobal .python name w') := by
  obtain ⟨hvalue, henvironment⟩ := hw.environment.get name
  rw [readGlobal_apply, readGlobal_apply]
  refine ⟨?_, kept_environment rfl, P, le_refl P, hw.withEnvironment henvironment⟩
  cases hget : (w.environment.get name).1 with
  | none =>
    cases hget' : (w'.environment.get name).1 with
    | none => exact .error (.refl _)
    | some v' => simp [hget, hget'] at hvalue
  | some v =>
    cases hget' : (w'.environment.get name).1 with
    | none => simp [hget, hget'] at hvalue
    | some v' =>
      rw [hget, hget', Option.map_some, Option.map_some, Option.some.injEq] at hvalue
      exact .ok (sameValue_incoming hvalue)

/-- A callee that can be read in Python is found in JavaScript. -/
theorem readCallee_alike (hscope : List.Forall₂ P scope scope') {callee : Slot}
    (h : holdsCallee scope' callee w' = true) :
    RunsAlike P [] (Datum.Alike P) w' (readCallee .javaScript scope callee w)
      (readCallee .python scope' callee w') := by
  cases callee with
  | global name => exact (readGlobal_alike hw name).mono fun _ _ h => h.alike P
  | binding name =>
    simp only [holdsCallee, readVariable_apply] at h
    cases hdatum : datum? w' scope' name with
    | none => simp [hdatum] at h
    | some d' =>
      obtain ⟨d, hd, halike⟩ := hw.datum? hscope hdatum
      have hread : readCallee .javaScript scope (.binding name) w = (.ok d, w) := by
        -- The name is found, so it is read like any other.
        have hfound : (findActivation w name scope).isNone = false := by
          unfold datum? at hd
          cases hfind : findActivation w name scope with
          | none => simp [hfind] at hd
          | some i => rfl
        change ((if (findActivation w name scope).isNone then pure (.value .void)
          else readVariable scope name : Running Datum)) w = _
        rw [hfound]
        simp [readVariable_apply, hd]
      have hread' : readCallee .python scope' (.binding name) w' = (.ok d', w') := by
        change readVariable scope' name w' = _
        rw [readVariable_apply, hdatum]
      rw [hread, hread']
      exact .pure hw halike

end Reading

/-! ### Writing -/

section Writing

variable (hw : w.Alike P w')

include hw

/-- A name is assigned in activations that belong together; one that nothing declares, in the
outermost ones. -/
theorem World.Alike.place (name : String) (hscope : List.Forall₂ P scope scope') :
    P ((Running.findActivation w name scope).getD 0)
      ((Running.findActivation w' name scope').getD 0) := by
  have hfound := hw.findActivation name hscope
  revert hfound
  generalize Running.findActivation w name scope = found
  generalize Running.findActivation w' name scope' = found'
  intro hfound
  cases hfound with
  | none => exact hw.outermost
  | some hpair => exact hpair

/-- Assigning a variable that the innermost activation has in Python. -/
theorem writeVariable_alike {i' : Nat} (hscope : List.Forall₂ P scope (i' :: scope'))
    {name : String} (hname : ((w'.activations.getD i' []).lookup name).isSome = true)
    (hd : d.Alike P d') :
    RunsAlike P [i'] Eq w' (writeVariable scope name d w)
      (writeVariable (i' :: scope') name d' w') := by
  have hplace := hw.place name hscope
  refine ⟨.ok rfl, kept_writeVariable scope' hname d', P, le_refl P, hw.environment, hw.console,
    hw.outermost, ?_, hw.unique, ?_, ?_⟩
  · intro i i' hpair
    change i < (w.activations.modify _ _).size ∧ i' < (w'.activations.modify _ _).size
    rw [Array.size_modify, Array.size_modify]
    exact hw.inside hpair
  · intro i' hi'
    change i' < (w'.activations.modify _ _).size at hi'
    rw [Array.size_modify] at hi'
    exact hw.covered i' hi'
  · intro i i' hpair
    change ActivationAlike P
      ((w.activations.modify ((findActivation w name scope).getD 0) (assignIn name d)).getD i [])
      ((w'.activations.modify ((findActivation w' name (_ :: scope')).getD 0)
        (assignIn name d')).getD i' [])
    -- The activations that are written are a pair, so of this pair both are or neither is.
    have hsame := hw.unique hplace hpair
    obtain ⟨hi, hi'⟩ := hw.inside hpair
    rw [getD_modify, getD_modify]
    by_cases hhere : (findActivation w name scope).getD 0 = i
    · rw [if_pos ⟨hhere, hi⟩, if_pos ⟨hsame.mp hhere, hi'⟩]
      exact (hw.activations hpair).assign name hd
    · rw [if_neg fun h => hhere h.1, if_neg fun h => hhere (hsame.mpr h.1)]
      exact hw.activations hpair

/-- Writing a global. -/
theorem writeGlobal_alike (name : String) (hd : SameValue d d') :
    RunsAlike P [] Eq w' (writeGlobal .javaScript name d w) (writeGlobal .python name d' w') := by
  cases hd with
  | intro hv =>
    exact ⟨.ok rfl, kept_environment rfl, P, le_refl P,
      hw.withEnvironment (hw.environment.set name hv)⟩

/-- Entering a function pairs the two new activations.  What changes only the new one changes
nothing that was there before. -/
theorem enter_alike {α α' : Type} {R : α → α' → Prop} (ha : ActivationAlike P a a')
    {f : Nat → Running α} {f' : Nat → Running α'}
    (hf : ∀ Q i i' v v', P ≤ Q → Q i i' → v.Alike Q v' → v'.activations.getD i' [] = a' →
      enter a' w' = (.ok i', v') → RunsAlike Q [i'] R v' (f i v) (f' i' v')) :
    RunsAlike P [] R w' ((enter a >>= f) w) ((enter a' >>= f') w') := by
  let Q : Pairing := fun i i' =>
    P i i' ∨ (i = w.activations.size ∧ i' = w'.activations.size)
  have hPQ : P ≤ Q := fun _ _ h => .inl h
  have hworld : World.Alike Q { w with activations := w.activations.push a }
      { w' with activations := w'.activations.push a' } := by
    refine ⟨hw.environment, hw.console, .inl hw.outermost, ?_, ?_, ?_, ?_⟩
    · rintro i i' (hpair | ⟨rfl, rfl⟩)
      · obtain ⟨hi, hi'⟩ := hw.inside hpair
        simp only [Array.size_push]
        omega
      · simp only [Array.size_push]
        omega
    · -- The new numbers are paired with each other only.
      rintro i i' j j' (hpair | ⟨rfl, rfl⟩) (hpair' | ⟨rfl, rfl⟩)
      · exact hw.unique hpair hpair'
      · obtain ⟨hi, hi'⟩ := hw.inside hpair
        omega
      · obtain ⟨hj, hj'⟩ := hw.inside hpair'
        omega
      · exact ⟨fun _ => rfl, fun _ => rfl⟩
    · intro i' hi'
      rw [Array.size_push] at hi'
      rcases Nat.lt_succ_iff_lt_or_eq.mp hi' with hold | rfl
      · obtain ⟨i, hpair⟩ := hw.covered i' hold
        exact ⟨i, .inl hpair⟩
      · exact ⟨_, .inr ⟨rfl, rfl⟩⟩
    · rintro i i' (hpair | ⟨rfl, rfl⟩)
      · obtain ⟨hi, hi'⟩ := hw.inside hpair
        rw [getD_push, getD_push, if_neg (Nat.ne_of_lt hi), if_neg (Nat.ne_of_lt hi')]
        exact (hw.activations hpair).mono hPQ
      · rw [getD_push, getD_push, if_pos rfl, if_pos rfl]
        exact ha.mono hPQ
  obtain ⟨hresult, hkept, T, hQT, hafter⟩ :=
    hf Q _ _ _ _ hPQ (.inr ⟨rfl, rfl⟩) hworld (by rw [getD_push, if_pos rfl]) rfl
  exact ⟨hresult, (kept_push w' a').trans_new hkept (Nat.le_refl _), T, hPQ.trans hQT, hafter⟩

end Writing

/-! ### Calling functions of the script -/

/-- Values as arguments by place. -/
def unnamed (values : List Value) : List Argument := values.map fun v => { datum := .value v }

/-- At the start of a function nothing has a value in Python. -/
theorem start_alike (P : Pairing) {names' : List String} (h : ∀ n, n ∈ names ↔ n ∈ names')
    (d : Datum) :
    ActivationAlike P (names.eraseDups.map fun n => (n, some d))
      (names'.eraseDups.map fun n => (n, none)) := by
  refine ⟨fun n => ?_, fun n e' he => ?_⟩
  · simp only [lookup_map_const, List.mem_eraseDups, h n]
    split <;> rfl
  · rw [lookup_map_const] at he
    split at he <;> exact nomatch he

/-- Parameters with their arguments, where there is one for each. -/
def assignAll (a : Activation) (bindings : List (String × Argument)) : Activation :=
  bindings.foldl (fun a (p, x) => assignIn p x.datum a) a

theorem bindInOrder_eq {parameters : List String} {args : List Argument}
    (h : args.length = parameters.length) (a : Activation) :
    bindInOrder parameters args a = assignAll a (parameters.zip args) := by
  induction parameters generalizing args a with
  | nil => rfl
  | cons p parameters ih =>
    cases args with
    | nil => exact nomatch h
    | cons x args =>
      rw [bindInOrder]
      exact ih (Nat.succ.inj h) _

/-- Arguments by place fill the parameters in order. -/
theorem bindExactly_unnamed {parameters : List String} {args : List Argument}
    (h : ∀ a ∈ args, a.name = none) (a : Activation) :
    bindExactly parameters args a =
      if args.length = parameters.length then some (assignAll a (parameters.zip args))
      else none := by
  have hall : ∀ a ∈ args, a.name.isNone = true := fun a ha => by rw [h a ha]; rfl
  have hspan : args.span (fun a => a.name.isNone) = (args, []) := by
    rw [List.span_eq_takeWhile_dropWhile, List.takeWhile_eq_self_iff.mpr hall,
      List.dropWhile_eq_nil_iff.mpr hall]
  simp only [bindExactly, hspan, List.all_nil, Bool.true_and, List.length_nil, List.length_drop,
    beq_iff_eq, List.foldl_nil]
  by_cases hlength : args.length = parameters.length
  · rw [if_neg (by omega), if_pos (by omega), if_pos hlength]
    rfl
  · rw [if_neg hlength]
    split
    · rfl
    · rw [if_neg (by omega)]

theorem assignAll_alike (hvalues : List.Forall₂ Value.Alike values values') :
    ∀ (parameters : List String) {a a' : Activation}, ActivationAlike P a a' →
      ActivationAlike P (assignAll a (parameters.zip (unnamed values)))
        (assignAll a' (parameters.zip (unnamed values'))) := by
  induction hvalues with
  | nil =>
    intro parameters a a' ha
    simpa [unnamed, assignAll] using ha
  | cons hv _ ih =>
    intro parameters a a' ha
    cases parameters with
    | nil => exact ha
    | cons p parameters => exact ih parameters (ha.assign p (.value hv))

theorem isSome_lookup_assignAll (bindings : List (String × Argument)) {n : String}
    (h : (a.lookup n).isSome = true) : ((assignAll a bindings).lookup n).isSome = true := by
  induction bindings generalizing a with
  | nil => exact h
  | cons binding bindings ih => exact ih (isSome_lookup_assignIn binding.1 binding.2.datum h)

theorem Closure.Shared.length_names {f : Closure} (hf : f.Shared names) :
    names.length = f.parameters.length := by
  have hnames := hf.parameters .javaScript
  simp only [Stmt.parameterNames?, Option.bind_eq_bind, Option.bind_eq_some_iff,
    Option.some.injEq] at hnames
  obtain ⟨found, hfound, rfl⟩ := hnames
  exact (mapM_eq_some_iff.mp hfound).length_eq.symm

/-- A function that is called with as many arguments as it has parameters starts alike, and has
every name that its body binds. -/
theorem activation_alike (P : Pairing) {f : Closure} (hf : f.Shared names)
    (hvalues : List.Forall₂ Value.Alike values values')
    (hlength : values'.length = f.parameters.length) :
    ∃ a a', activation .javaScript f (unnamed values) = some a ∧
      activation .python f (unnamed values') = some a' ∧ ActivationAlike P a a' ∧
      ∀ n ∈ Stmt.allBound .python f.body, (a'.lookup n).isSome = true := by
  have hlength' : values'.length = names.length := hlength.trans hf.length_names.symm
  have hargs : (unnamed values).length = names.length := by
    rw [unnamed, List.length_map, hvalues.length_eq, hlength']
  have hargs' : (unnamed values').length = names.length := by
    rw [unnamed, List.length_map, hlength']
  have hunnamed : ∀ a ∈ unnamed values', a.name = none := by
    intro a ha
    obtain ⟨v, _, rfl⟩ := List.mem_map.mp ha
    rfl
  refine ⟨_, _, ?_, ?_, assignAll_alike hvalues names (start_alike P hf.bound (.value .void)),
    fun n hn => isSome_lookup_assignAll _ ?_⟩
  · simp only [activation, hf.parameters, Option.bind_eq_bind, Option.bind_some,
      bindInOrder_eq hargs]
  · simp only [activation, hf.parameters, Option.bind_eq_bind, Option.bind_some,
      bindExactly_unnamed hunnamed, hargs', if_true]
  · rw [lookup_map_const, if_pos (List.mem_eraseDups.mpr (List.mem_append_right _ hn))]
    rfl

/-! ### Calling the catalog -/

/-- A call with values by place hands the values to the catalog. -/
theorem callCatalog_unnamed (d : Dialect) (member : String) (values : List Value) (w : World) :
    callCatalog d member (unnamed values) w =
      answered d (Catalog.call member values w.console) w := by
  have hnames : (unnamed values).any (fun a => a.name.isSome) = false := by
    simp [unnamed]
  have hvalues : (unnamed values).mapM (fun a => d.outgoing a.datum) = .ok values := by
    induction values with
    | nil => rfl
    | cons v values ih =>
      have ih := ih (by simp [unnamed])
      rw [unnamed] at ih
      rw [unnamed, List.map_cons, List.mapM_cons, ih]
      rfl
  rw [callCatalog_apply, hnames, hvalues]
  rfl

/-- Calls of the catalog with arguments that are alike. -/
theorem callCatalog_alike {w w' : World} (hw : w.Alike P w') {member : String}
    (h : ArgumentsAlike member values values') :
    RunsAlike P [] SameValue w' (callCatalog .javaScript member (unnamed values) w)
      (callCatalog .python member (unnamed values') w') := by
  rw [callCatalog_unnamed, callCatalog_unnamed, hw.console]
  obtain ⟨hanswer, hconsole⟩ := call_alike h w'.console
  rcases hcall : Catalog.call member values w'.console with ⟨r, console⟩
  rcases hcall' : Catalog.call member values' w'.console with ⟨r', console'⟩
  rw [hcall, hcall'] at hanswer hconsole
  cases hconsole
  have hworld : World.Alike P { w with console } { w' with console } :=
    ⟨hw.environment, rfl, hw.outermost, hw.inside, hw.unique, hw.covered, hw.activations⟩
  cases hanswer with
  | ok hv => exact ⟨.ok (sameValue_incoming hv), kept_console w' _, P, le_refl P, hworld⟩
  | error hi => exact ⟨.error hi, kept_console w' _, P, le_refl P, hworld⟩

end ShaderScript
