import ShaderScript.Proofs.AlikeWorlds
import ShaderScript.Proofs.SplitVariables

/-!
# Worlds with a variable split in two

A script with two variables `x` and `y` runs beside the script in which they are joined.  Both have
the same activations, number by number.  Most hold the same; an activation of a function with two
variables is tied to one that has `x` for both, and of these the one that was written last agrees
(`Tie`).  Two worlds are joined if their environments and consoles are the same and each pair of
activations agrees as its tie demands (`World.Joins`).

`RunsJoined` relates the results of two steps, and `RunsJoined.bind` puts steps together.  A step
changes the tie of one activation at most: that of the function it stands in (`Keeps`).  The rest of
the module shows that the primitive steps of a run keep worlds joined.
-/

namespace ShaderScript

open Running

/-- How an activation is tied to the one with its number. -/
inductive Tie
  | same
  /-- The function binds names of its own, and of the two names one was written last. -/
  | split (own : List String) (last : LastWrite)

/-! ## Data -/

section Data

variable (σ : Split) (ties : List Tie)

/-- A datum, and what it is once the names are joined. -/
inductive Datum.Joins : Datum → Datum → Prop
  | value (v : Value) : Joins (.value v) (.value v)
  | function {r r₀ : Region} {left next c₀ c₁ : LastWrite} {names : List String} {f : Closure}
      (hparameters : Stmt.parameterNames? σ.dialect f.parameters = some names)
      (hbegins : σ.Begins names f.body r r₀ c₀)
      (hbody : Stmt.AllFlow σ r₀ left next c₀ f.body c₁)
      (hscope : r = .elsewhere → ∀ i ∈ f.scope, ties[i]? = some .same) :
      Joins (.function f) (.function { f with body := Stmt.renameAll σ.joined f.body })

/-- Two variables: both are missing, both were never assigned, or their data are joined. -/
abbrev VariableJoins : Option (Option Datum) → Option (Option Datum) → Prop :=
  Option.Rel (Option.Rel (Datum.Joins σ ties))

/-- Two activations agree as their tie demands. -/
def ActivationJoins : Tie → Activation → Activation → Prop
  | .same, a, a' => ∀ n, VariableJoins σ ties (a.lookup n) (a'.lookup n)
  | .split own last, a, a' =>
    (∀ n, n ≠ σ.x → n ≠ σ.y → VariableJoins σ ties (a.lookup n) (a'.lookup n)) ∧
      ∀ n ∈ own, n = σ.x ∨ n = σ.y →
        (a.lookup n).isSome = true ∧ (a'.lookup σ.x).isSome = true ∧
          (last.Shows n → VariableJoins σ ties (a.lookup n) (a'.lookup σ.x))

/-- Two worlds agree as the ties of their activations demand. -/
structure World.Joins (w w' : World) : Prop where
  environment : w.environment = w'.environment
  console : w.console = w'.console
  size : w.activations.size = ties.length
  size' : w'.activations.size = ties.length
  outermost : ties[0]? = some .same
  activations : ∀ i tie, ties[i]? = some tie →
    ActivationJoins σ ties tie (w.activations.getD i []) (w'.activations.getD i [])

/-- Code stands in a region, with what is known to be written last: elsewhere the activations it
sees are the same, and in a function with two variables the innermost one is its own. -/
inductive Stands : Region → LastWrite → List Nat → Prop
  | elsewhere {c : LastWrite} {scope : List Nat} (h : ∀ i ∈ scope, ties[i]? = some .same) :
      Stands .elsewhere c scope
  | within {own : List String} {last c : LastWrite} {i : Nat} {scope : List Nat}
      (h : ties[i]? = some (.split own last)) (hlast : last.Leads c) :
      Stands (.within own) c (i :: scope)
  | apart {c : LastWrite} {scope : List Nat} : Stands .apart c scope

end Data

/-- Ties are only added, and stay as they are but for that of one activation. -/
def Keeps (own : Option Nat) (ties ties' : List Tie) : Prop :=
  ∀ i tie, ties[i]? = some tie → tie = .same ∨ own ≠ some i → ties'[i]? = some tie

variable {σ : Split} {own : Option Nat} {ties ties' : List Tie} {w w' : World}

namespace Keeps

theorem refl (own : Option Nat) (ties : List Tie) : Keeps own ties ties := fun _ _ h _ => h

theorem trans {ties'' : List Tie} (h : Keeps own ties ties') (h' : Keeps own ties' ties'') :
    Keeps own ties ties'' := fun i tie htie hown => h' i tie (h i tie htie hown) hown

theorem same (h : Keeps own ties ties') {i : Nat} (hi : ties[i]? = some .same) :
    ties'[i]? = some .same := h i .same hi (.inl rfl)

/-- What keeps all ties keeps all but one. -/
theorem of_none (h : Keeps none ties ties') (own : Option Nat) : Keeps own ties ties' :=
  fun i tie htie _ => h i tie htie (.inr (Option.some_ne_none _).symm)

theorem push (ties : List Tie) (tie : Tie) : Keeps none ties (ties ++ [tie]) := by
  intro i tie' htie _
  rw [List.getElem?_append_left (List.getElem?_eq_some_iff.mp htie).1, htie]

/-- What changes the tie of a new activation only keeps those that were there. -/
theorem enter {tie : Tie} (h : Keeps (some ties.length) (ties ++ [tie]) ties') :
    Keeps none ties ties' := by
  intro i tie' htie _
  refine h i tie' (push ties tie i tie' htie (.inr (Option.some_ne_none _).symm)) (.inr fun hi => ?_)
  have hlt := (List.getElem?_eq_some_iff.mp htie).1
  rw [← Option.some.inj hi] at hlt
  exact Nat.lt_irrefl _ hlt

theorem set {i : Nat} {names : List String} {last : LastWrite} (tie : Tie)
    (hi : ties[i]? = some (.split names last)) : Keeps (some i) ties (ties.set i tie) := by
  intro j tie' htie hown
  rw [List.getElem?_set, if_neg fun hij => ?_]
  · exact htie
  · subst hij
    rcases hown with rfl | hown
    · rw [hi] at htie
      cases htie
    · exact hown rfl

end Keeps

section Mono

variable (h : Keeps own ties ties')

include h

theorem Datum.Joins.mono {d d' : Datum} (hd : d.Joins σ ties d') : d.Joins σ ties' d' := by
  cases hd with
  | value v => exact .value v
  | function hparameters hbegins hbody hscope =>
    exact .function hparameters hbegins hbody fun hr i hi => h.same (hscope hr i hi)

theorem VariableJoins.mono {v v' : Option (Option Datum)} (hv : VariableJoins σ ties v v') :
    VariableJoins σ ties' v v' := by
  cases hv with
  | none => exact .none
  | some hv =>
    cases hv with
    | none => exact .some .none
    | some hd => exact .some (.some (hd.mono h))

theorem ActivationJoins.mono {tie : Tie} {a a' : Activation} (ha : ActivationJoins σ ties tie a a') :
    ActivationJoins σ ties' tie a a' := by
  cases tie with
  | same => exact fun n => (ha n).mono h
  | split names last =>
    refine ⟨fun n hx hy => (ha.1 n hx hy).mono h, fun n hn hxy => ?_⟩
    obtain ⟨hbound, hbound', hshown⟩ := ha.2 n hn hxy
    exact ⟨hbound, hbound', fun hshows => (hshown hshows).mono h⟩

end Mono

namespace Stands

variable {r : Region} {c c' : LastWrite} {scope : List Nat}

/-- Where ways have met, less may be known. -/
theorem leads (h : Stands ties r c scope) (hc : c.Leads c') : Stands ties r c' scope := by
  cases h with
  | elsewhere h => exact .elsewhere h
  | within h hlast => exact .within h (hlast.trans hc)
  | apart => exact .apart

theorem keeps (h : Stands ties r c scope) (hkeeps : Keeps none ties ties') :
    Stands ties' r c scope := by
  cases h with
  | elsewhere h => exact .elsewhere fun i hi => hkeeps.same (h i hi)
  | within h hlast => exact .within (hkeeps _ _ h (.inr (Option.some_ne_none _).symm)) hlast
  | apart => exact .apart

/-- A name that is kept is the same in all activations that are seen. -/
theorem sees {n : String} (h : Stands ties r c scope) (hn : σ.Free r n) :
    ∀ i ∈ scope, ties[i]? = some .same ∨ n ≠ σ.x ∧ n ≠ σ.y := by
  intro i hi
  cases h with
  | elsewhere h => exact .inl (h i hi)
  | within h hlast => exact .inr hn
  | apart => exact .inr hn

end Stands

/-! ## Activations -/

namespace ActivationJoins

variable {tie : Tie} {a a' : Activation} {d d' : Datum} {n : String}

/-- A name that is the same in both is assigned in both. -/
theorem assign_kept (h : ActivationJoins σ ties tie a a')
    (hn : tie = .same ∨ n ≠ σ.x ∧ n ≠ σ.y) (hd : d.Joins σ ties d') :
    ActivationJoins σ ties tie (assignIn n d a) (assignIn n d' a') := by
  have hassigned : ∀ m, VariableJoins σ ties (a.lookup m) (a'.lookup m) →
      VariableJoins σ ties ((assignIn n d a).lookup m) ((assignIn n d' a').lookup m) := by
    intro m hm
    rw [lookup_assignIn, lookup_assignIn]
    split
    · exact .some (.some hd)
    · exact hm
  cases tie with
  | same => exact fun m => hassigned m (h m)
  | split own last =>
    have hn := hn.resolve_left Tie.noConfusion
    refine ⟨fun m hx hy => hassigned m (h.1 m hx hy), fun m hm hxy => ?_⟩
    have hne : m ≠ n := by
      rintro rfl
      rcases hxy with rfl | rfl
      · exact hn.1 rfl
      · exact hn.2 rfl
    rw [lookup_assignIn, lookup_assignIn, if_neg hne, if_neg hn.1.symm]
    exact h.2 m hm hxy

/-- One of the two names is assigned, and is what was written last. -/
theorem assign_owned {own : List String} {last : LastWrite}
    (h : ActivationJoins σ ties (.split own last) a a') (hn : n = σ.x ∨ n = σ.y)
    (hd : d.Joins σ ties d') :
    ActivationJoins σ ties (.split own (.into n)) (assignIn n d a) (assignIn σ.x d' a') := by
  refine ⟨fun m hx hy => ?_, fun m hm hxy => ?_⟩
  · have hne : m ≠ n := by
      rintro rfl
      exact hn.elim hx hy
    rw [lookup_assignIn, lookup_assignIn, if_neg hne, if_neg hx]
    exact h.1 m hx hy
  · obtain ⟨hbound, -, -⟩ := h.2 m hm hxy
    have hx : (assignIn σ.x d' a').lookup σ.x = some (some d') := by
      rw [lookup_assignIn, if_pos rfl]
    refine ⟨isSome_lookup_assignIn n d hbound, by rw [hx]; rfl, fun hshows => ?_⟩
    obtain rfl : n = m := by
      rcases hshows with hshows | hshows
      · cases hshows
      · exact LastWrite.into.inj hshows
    rw [hx, lookup_assignIn, if_pos rfl]
    exact .some (.some hd)

end ActivationJoins

/-! ## Names -/

theorem isSome_eq_of_rel {α β : Type} {R : α → β → Prop} {a : Option α} {b : Option β}
    (h : Option.Rel R a b) : a.isSome = b.isSome := by
  cases h <;> rfl

theorem join_rel {α β : Type} {R : α → β → Prop} {a : Option (Option α)} {b : Option (Option β)}
    (h : Option.Rel (Option.Rel R) a b) : Option.Rel R a.join b.join := by
  cases h with
  | none => exact .none
  | some h => exact h

theorem mem_of_findActivation {n : String} {scope : List Nat} {i : Nat}
    (h : findActivation w n scope = some i) : i ∈ scope := by
  induction scope with
  | nil => cases h
  | cons j rest ih =>
    rw [findActivation] at h
    split at h
    · cases h
      exact List.mem_cons_self
    · exact List.mem_cons_of_mem _ (ih h)

theorem lt_size_of_findActivation {n : String} {scope : List Nat} {i : Nat}
    (h : findActivation w n scope = some i) : i < w.activations.size := by
  induction scope with
  | nil => cases h
  | cons j rest ih =>
    rw [findActivation] at h
    split at h
    · rename_i hfound
      cases h
      by_contra hsize
      rw [Array.getD_eq_getD_getElem?, Array.getElem?_eq_none (Nat.le_of_not_lt hsize)] at hfound
      cases hfound
    · exact ih h

namespace World.Joins

variable (hw : w.Joins σ ties w') {n : String} {scope : List Nat}

include hw

theorem variable_kept {i : Nat} (hi : ties[i]? = some .same ∨ n ≠ σ.x ∧ n ≠ σ.y) :
    VariableJoins σ ties ((w.activations.getD i []).lookup n)
      ((w'.activations.getD i []).lookup n) := by
  cases htie : ties[i]? with
  | none =>
    -- There is no such activation in either world.
    have hlength : ties.length ≤ i := List.getElem?_eq_none_iff.mp htie
    rw [Array.getD_eq_getD_getElem?, Array.getD_eq_getD_getElem?,
      Array.getElem?_eq_none (hw.size ▸ hlength), Array.getElem?_eq_none (hw.size' ▸ hlength)]
    exact .none
  | some tie =>
    have ha := hw.activations i tie htie
    cases tie with
    | same => exact ha n
    | split own last =>
      rcases hi with hsame | hi
      · rw [htie] at hsame
        cases hsame
      · exact ha.1 n hi.1 hi.2

/-- A name that is the same in all activations is found in the same. -/
theorem findActivation_eq (h : ∀ i ∈ scope, ties[i]? = some .same ∨ n ≠ σ.x ∧ n ≠ σ.y) :
    findActivation w n scope = findActivation w' n scope := by
  induction scope with
  | nil => rfl
  | cons i rest ih =>
    rw [List.forall_mem_cons] at h
    rw [findActivation, findActivation, isSome_eq_of_rel (hw.variable_kept h.1), ih h.2]

theorem datum?_kept (h : ∀ i ∈ scope, ties[i]? = some .same ∨ n ≠ σ.x ∧ n ≠ σ.y) :
    Option.Rel (Datum.Joins σ ties) (datum? w scope n) (datum? w' scope n) := by
  unfold datum?
  rw [hw.findActivation_eq h]
  cases hfind : findActivation w' n scope with
  | none => exact .none
  | some i => exact join_rel (hw.variable_kept (h i (mem_of_findActivation hfind)))

/-- Where two variables are, each is found in the innermost activation, as the joined one is. -/
theorem found_owned {own : List String} {last : LastWrite} {i : Nat}
    (hi : ties[i]? = some (.split own last)) (hn : n ∈ own) (hxy : n = σ.x ∨ n = σ.y)
    (rest : List Nat) :
    findActivation w n (i :: rest) = some i ∧ findActivation w' σ.x (i :: rest) = some i := by
  obtain ⟨hbound, hbound', -⟩ := (hw.activations i _ hi).2 n hn hxy
  rw [findActivation, findActivation, if_pos hbound, if_pos hbound']
  exact ⟨rfl, rfl⟩

/-- A variable that may be used has the same once the names are joined. -/
theorem datum? {r : Region} {c : LastWrite} (hn : σ.Reads r c n) (hscope : Stands ties r c scope) :
    Option.Rel (Datum.Joins σ ties) (Running.datum? w scope n)
      (Running.datum? w' scope (σ.joined n)) := by
  rcases hn with hfree | ⟨howns, hshows⟩
  · rw [hfree.joined_eq]
    exact hw.datum?_kept (hscope.sees hfree)
  · rw [howns.joined_eq]
    cases hscope with
    | elsewhere h => exact howns.elim
    | apart => exact howns.elim
    | @within own last _ i rest h hlast =>
      obtain ⟨hfind, hfind'⟩ := hw.found_owned h howns.1 howns.2 rest
      unfold Running.datum?
      rw [hfind, hfind']
      exact join_rel (((hw.activations i _ h).2 n howns.1 howns.2).2.2 (hlast.shows hshows))

end World.Joins

/-! ## Steps -/

/-- Two steps ended alike: with results related by `R` in worlds that are joined, where ties were
kept but for one, or early, for one reason and with nothing to tell them apart outside. -/
inductive RunsJoined {α : Type} (σ : Split) (own : Option Nat) (ties : List Tie)
    (R : List Tie → α → α → Prop) : Except Halt α × World → Except Halt α × World → Prop
  | ok {ties' : List Tie} {a a' : α} {v v' : World} (hkeeps : Keeps own ties ties')
      (hworld : v.Joins σ ties' v') (h : R ties' a a') :
      RunsJoined σ own ties R (.ok a, v) (.ok a', v')
  | error {e : Halt} {v v' : World} (henvironment : v.environment = v'.environment)
      (hconsole : v.console = v'.console) : RunsJoined σ own ties R (.error e, v) (.error e, v')

namespace RunsJoined

variable {α β : Type} {R : List Tie → α → α → Prop} {S : List Tie → β → β → Prop}

theorem pure {a a' : α} (hw : w.Joins σ ties w') (h : R ties a a') :
    RunsJoined σ own ties R ((Pure.pure a : Running α) w) ((Pure.pure a' : Running α) w') :=
  .ok (.refl own ties) hw h

theorem throw (hw : w.Joins σ ties w') (e : Halt) :
    RunsJoined σ own ties R ((MonadExcept.throw e : Running α) w)
      ((MonadExcept.throw e : Running α) w') :=
  .error hw.environment hw.console

/-- Steps one after the other. -/
theorem bind {m m' : Running α} {f f' : α → Running β} (h : RunsJoined σ own ties R (m w) (m' w'))
    (hf : ∀ {ties' a a' v v'}, Keeps own ties ties' → World.Joins σ ties' v v' → R ties' a a' →
      RunsJoined σ own ties' S (f a v) (f' a' v')) :
    RunsJoined σ own ties S ((m >>= f) w) ((m' >>= f') w') := by
  rw [bind_apply, bind_apply]
  rcases hm : m w with ⟨r, v⟩
  rcases hm' : m' w' with ⟨r', v'⟩
  rw [hm, hm'] at h
  cases h with
  | error henvironment hconsole => exact .error henvironment hconsole
  | ok hkeeps hworld hR =>
    have hnext := hf hkeeps hworld hR
    dsimp only
    revert hnext
    generalize f _ _ = result
    generalize f' _ _ = result'
    intro hnext
    cases hnext with
    | error henvironment hconsole => exact .error henvironment hconsole
    | ok hkeeps' hworld' hS => exact .ok (hkeeps.trans hkeeps') hworld' hS

/-- What keeps all ties may stand where one may change. -/
theorem of_none {r r' : Except Halt α × World} (h : RunsJoined σ none ties R r r')
    (own : Option Nat) : RunsJoined σ own ties R r r' := by
  cases h with
  | ok hkeeps hworld hR => exact .ok (hkeeps.of_none own) hworld hR
  | error henvironment hconsole => exact .error henvironment hconsole

theorem mono {R' : List Tie → α → α → Prop} {r r' : Except Halt α × World}
    (h : RunsJoined σ own ties R r r')
    (hR : ∀ {ties' a a'}, Keeps own ties ties' → R ties' a a' → R' ties' a a') :
    RunsJoined σ own ties R' r r' := by
  cases h with
  | ok hkeeps hworld h => exact .ok hkeeps hworld (hR hkeeps h)
  | error henvironment hconsole => exact .error henvironment hconsole

/-- A step that keeps all ties leaves what is known. -/
theorem standing {r r' : Except Halt α × World} (h : RunsJoined σ none ties R r r')
    {region : Region} {c : LastWrite} {scope : List Nat} (hscope : Stands ties region c scope)
    (own : Option Nat) :
    RunsJoined σ own ties (fun ties' a a' => R ties' a a' ∧ Stands ties' region c scope) r r' :=
  (h.mono fun hkeeps hR => And.intro hR (hscope.keeps hkeeps)).of_none own

end RunsJoined

theorem writeVariable_apply (scope : List Nat) (n : String) (d : Datum) (w : World) :
    writeVariable scope n d w =
      let place := (findActivation w n scope).getD 0
      (.ok (), { w with activations := w.activations.modify place (assignIn n d) }) := rfl

theorem writeGlobal_apply (dialect : Dialect) (name : String) (d : Datum) (w : World) :
    writeGlobal dialect name d w =
      match dialect.outgoing d with
      | .ok v => (.ok (), { w with environment := w.environment.set name v })
      | .error e => (.error e, w) := by
  unfold writeGlobal
  cases dialect.outgoing d <;> rfl

/-- A datum has the same value outside of the script. -/
theorem outgoing_joined (dialect : Dialect) {d d' : Datum} (hd : d.Joins σ ties d') :
    dialect.outgoing d = dialect.outgoing d' := by
  cases hd <;> rfl

section Steps

variable (hw : w.Joins σ ties w') {r : Region} {c c' : LastWrite} {n : String} {scope : List Nat}
  {d d' : Datum}

include hw

theorem World.Joins.withEnvironment (environment : Environment) :
    World.Joins σ ties { w with environment } { w' with environment } :=
  ⟨rfl, hw.console, hw.size, hw.size', hw.outermost, hw.activations⟩

theorem World.Joins.withConsole (console : Console) :
    World.Joins σ ties { w with console } { w' with console } :=
  ⟨hw.environment, rfl, hw.size, hw.size', hw.outermost, hw.activations⟩

/-- Reading a variable that may be used. -/
theorem readVariable_joined (hn : σ.Reads r c n) (hscope : Stands ties r c scope) :
    RunsJoined σ none ties (fun ties' => Datum.Joins σ ties') (readVariable scope n w)
      (readVariable scope (σ.joined n) w') := by
  have hdatum := hw.datum? hn hscope
  rw [readVariable_apply, readVariable_apply]
  generalize datum? w scope n = found at hdatum ⊢
  generalize datum? w' scope (σ.joined n) = found' at hdatum ⊢
  cases hdatum with
  | none => exact .error hw.environment hw.console
  | some hd => exact .ok (.refl _ _) hw hd

theorem readGlobal_joined (dialect : Dialect) (name : String) :
    RunsJoined σ none ties (fun ties' => Datum.Joins σ ties') (readGlobal dialect name w)
      (readGlobal dialect name w') := by
  rw [readGlobal_apply, readGlobal_apply, hw.environment]
  cases (w'.environment.get name).1 with
  | none => exact .error rfl hw.console
  | some v =>
    refine .ok (.refl _ _) (hw.withEnvironment _) ?_
    unfold Dialect.incoming
    repeat' split
    all_goals exact .value _

/-- Reading what is to be called; the names of functions are kept. -/
theorem readCallee_joined {callee : Slot} (hcallee : ∀ n, callee = .binding n → σ.Free r n)
    (hscope : Stands ties r c scope) :
    RunsJoined σ none ties (fun ties' => Datum.Joins σ ties')
      (readCallee σ.dialect scope callee w) (readCallee σ.dialect scope callee w') := by
  cases callee with
  | global name =>
    cases hd : σ.dialect <;> exact readGlobal_joined hw _ name
  | binding name =>
    have hfree := hcallee name rfl
    have hread := readVariable_joined hw (.inl hfree) hscope
    rw [hfree.joined_eq] at hread
    cases hd : σ.dialect with
    | python => exact hread
    | javaScript =>
      -- A name that is not bound reads as nothing, and both worlds bind the same names.
      have hsame := hw.findActivation_eq (hscope.sees hfree)
      change RunsJoined σ none ties _
        ((if (findActivation w name scope).isNone then Pure.pure (.value .void)
          else readVariable scope name : Running Datum) w)
        ((if (findActivation w' name scope).isNone then Pure.pure (.value .void)
          else readVariable scope name : Running Datum) w')
      rw [hsame]
      split
      · exact .pure hw (.value .void)
      · exact hread

/-- One activation is assigned, and may be tied otherwise afterwards. -/
theorem World.Joins.modify {i : Nat} {tie : Tie} {g g' : Activation → Activation}
    (hkeeps : Keeps own ties ties') (hlength : ties'.length = ties.length)
    (hties : ∀ j, j ≠ i → ties'[j]? = ties[j]?) (hi : ties'[i]? = some tie)
    (ha : ActivationJoins σ ties' tie (g (w.activations.getD i [])) (g' (w'.activations.getD i []))) :
    World.Joins σ ties' { w with activations := w.activations.modify i g }
      { w' with activations := w'.activations.modify i g' } := by
  refine ⟨hw.environment, hw.console, ?_, ?_, hkeeps.same hw.outermost, fun j tie' htie => ?_⟩
  · rw [Array.size_modify, hw.size, hlength]
  · rw [Array.size_modify, hw.size', hlength]
  · have hlt : j < ties.length := hlength ▸ (List.getElem?_eq_some_iff.mp htie).1
    dsimp only
    rw [getD_modify, getD_modify]
    by_cases hij : i = j
    · subst hij
      rw [if_pos ⟨rfl, hw.size ▸ hlt⟩, if_pos ⟨rfl, hw.size' ▸ hlt⟩]
      rw [hi] at htie
      cases htie
      exact ha
    · rw [if_neg fun h => hij h.1, if_neg fun h => hij h.1]
      rw [hties j fun h => hij h.symm] at htie
      exact (hw.activations j tie' htie).mono hkeeps

/-- A name that is kept is assigned in an activation of one tie: where it is found, or else in the
outermost one. -/
theorem World.Joins.place (h : ∀ i ∈ scope, ties[i]? = some .same ∨ n ≠ σ.x ∧ n ≠ σ.y) :
    ∃ tie, ties[(findActivation w' n scope).getD 0]? = some tie ∧
      (tie = .same ∨ n ≠ σ.x ∧ n ≠ σ.y) := by
  cases hfind : findActivation w' n scope with
  | none => exact ⟨.same, hw.outermost, .inl rfl⟩
  | some i =>
    have hlt : i < ties.length := hw.size' ▸ lt_size_of_findActivation hfind
    refine ⟨_, List.getElem?_eq_getElem hlt, ?_⟩
    have hi := h i (mem_of_findActivation hfind)
    rw [List.getElem?_eq_getElem hlt, Option.some.injEq] at hi
    exact hi

/-- Assigning a name that is kept. -/
theorem writeVariable_kept (hn : σ.Free r n) (hscope : Stands ties r c scope)
    (hd : d.Joins σ ties d') :
    RunsJoined σ none ties (fun ties' _ _ => ties' = ties) (writeVariable scope n d w)
      (writeVariable scope n d' w') := by
  have hsees := hscope.sees hn
  obtain ⟨tie, htie, hkept⟩ := hw.place hsees
  have ha := (hw.activations _ tie htie).assign_kept hkept hd
  have hmodify := hw.modify (.refl none ties) rfl (fun _ _ => rfl) htie ha
  rw [writeVariable_apply, writeVariable_apply, hw.findActivation_eq hsees]
  exact .ok (.refl _ _) hmodify rfl

/-- Assigning a variable: afterwards it is known what was written last. -/
theorem writeVariable_joined (hn : σ.Writes r c n c') (hscope : Stands ties r c scope)
    (hd : d.Joins σ ties d') :
    RunsJoined σ scope.head? ties (fun ties' _ _ => Stands ties' r c' scope)
      (writeVariable scope n d w) (writeVariable scope (σ.joined n) d' w') := by
  rcases hn with ⟨hfree, rfl⟩ | ⟨howns, rfl⟩
  · rw [hfree.joined_eq]
    exact ((writeVariable_kept hw hfree hscope hd).of_none _).mono fun _ h => h ▸ hscope
  · rw [howns.joined_eq]
    cases hscope with
    | elsewhere h => exact howns.elim
    | apart => exact howns.elim
    | @within own last _ i rest h hlast =>
      have hlt : i < ties.length := (List.getElem?_eq_some_iff.mp h).1
      have hset : (ties.set i (.split own (.into n)))[i]? = some (.split own (.into n)) :=
        List.getElem?_set_self hlt
      have hkeeps := Keeps.set (.split own (.into n)) h
      have ha := ((hw.activations i _ h).assign_owned howns.2 hd).mono hkeeps
      have hmodify := hw.modify hkeeps (List.length_set ..)
        (fun j hj => List.getElem?_set_ne hj.symm) hset ha
      obtain ⟨hfind, hfind'⟩ := hw.found_owned h howns.1 howns.2 rest
      rw [writeVariable_apply, writeVariable_apply, hfind, hfind']
      exact .ok hkeeps hmodify (.within hset (.refl _))

theorem writeGlobal_joined (dialect : Dialect) (name : String) (hd : d.Joins σ ties d') :
    RunsJoined σ none ties (fun ties' _ _ => ties' = ties) (writeGlobal dialect name d w)
      (writeGlobal dialect name d' w') := by
  rw [writeGlobal_apply, writeGlobal_apply, outgoing_joined dialect hd, hw.environment]
  cases dialect.outgoing d' with
  | error e => exact .error hw.environment hw.console
  | ok v => exact .ok (.refl _ _) (hw.withEnvironment _) rfl

end Steps

/-! ## Calls -/

/-- Two arguments, given by place. -/
structure ArgumentJoins (σ : Split) (ties : List Tie) (a a' : Argument) : Prop where
  name : a.name = none
  name' : a'.name = none
  datum : a.datum.Joins σ ties a'.datum

section Calls

variable {args args' : List Argument} (hargs : List.Forall₂ (ArgumentJoins σ ties) args args')

include hargs

theorem name_eq_none : (∀ a ∈ args, a.name = none) ∧ ∀ a ∈ args', a.name = none := by
  induction hargs with
  | nil => exact ⟨List.forall_mem_nil _, List.forall_mem_nil _⟩
  | cons h _ ih =>
    exact ⟨List.forall_mem_cons.mpr ⟨h.name, ih.1⟩, List.forall_mem_cons.mpr ⟨h.name', ih.2⟩⟩

theorem mapM_outgoing_eq (dialect : Dialect) : (args.mapM fun a => dialect.outgoing a.datum) =
    args'.mapM fun a => dialect.outgoing a.datum := by
  induction hargs with
  | nil => rfl
  | cons h _ ih => rw [List.mapM_cons, List.mapM_cons, outgoing_joined dialect h.datum, ih]

/-- A call of the catalog. -/
theorem callCatalog_joined (hw : w.Joins σ ties w') (dialect : Dialect) (member : String) :
    RunsJoined σ none ties (fun ties' => Datum.Joins σ ties') (callCatalog dialect member args w)
      (callCatalog dialect member args' w') := by
  have hany : ∀ {args : List Argument}, (∀ a ∈ args, a.name = none) →
      (args.any fun a => a.name.isSome) = false := by
    intro args h
    rw [List.any_eq_false]
    exact fun a ha => by simp [h a ha]
  obtain ⟨hnames, hnames'⟩ := name_eq_none hargs
  rw [callCatalog_apply, callCatalog_apply, hany hnames, hany hnames', mapM_outgoing_eq hargs,
    hw.console]
  cases args'.mapM fun a => dialect.outgoing a.datum with
  | error e => exact .error hw.environment hw.console
  | ok values =>
    show RunsJoined σ none ties _ (answered _ (Catalog.call member values w'.console) w)
      (answered _ (Catalog.call member values w'.console) w')
    rcases Catalog.call member values w'.console with ⟨r, console⟩
    cases r with
    | error i => exact .error hw.environment rfl
    | ok v =>
      refine .ok (.refl _ _) (hw.withConsole console) ?_
      unfold Dialect.incoming
      repeat' split
      all_goals exact .value _

end Calls

/-! ## Functions -/

/-- The tie of an activation of a function at its start. -/
def Region.tie (c : LastWrite) : Region → Tie
  | .within names => .split names c
  | .elsewhere | .apart => .same

/-- The tie of an activation once its parameters are assigned. -/
def Tie.withParameters (σ : Split) (names : List String) : Tie → Tie
  | .same => .same
  | .split own last => .split own (if σ.x ∈ names then .into σ.x else last)

theorem Tie.withParameters_cons (p : String) (names : List String) (tie : Tie) :
    tie.withParameters σ (p :: names) =
      (tie.withParameters σ [p]).withParameters σ names := by
  cases tie with
  | same => rfl
  | split own last =>
    simp only [withParameters, List.mem_cons, List.not_mem_nil, or_false]
    by_cases hnames : σ.x ∈ names
    · simp [hnames]
    · simp [hnames]

theorem Split.Begins.tie_eq {names : List String} {body : List Stmt} {r r₀ : Region}
    {c₀ : LastWrite} (h : σ.Begins names body r r₀ c₀) :
    r₀.tie c₀ = (r₀.tie .none).withParameters σ names := by
  cases h <;> rfl

/-- The body of a function stands in the region that it begins. -/
theorem Split.Begins.stands {names : List String} {body : List Stmt} {r r₀ : Region}
    {c₀ : LastWrite} (h : σ.Begins names body r r₀ c₀) {scope : List Nat}
    (hscope : r = .elsewhere → ∀ i ∈ scope, ties[i]? = some .same) :
    Stands (ties ++ [r₀.tie c₀]) r₀ c₀ (ties.length :: scope) := by
  have hnew : ∀ tie : Tie, (ties ++ [tie])[ties.length]? = some tie := by
    intro tie
    rw [List.getElem?_append_right (Nat.le_refl _), Nat.sub_self]
    rfl
  cases h with
  | elsewhere _ =>
    refine .elsewhere (List.forall_mem_cons.mpr ⟨hnew .same, fun i hi => ?_⟩)
    exact (Keeps.push ties .same).same (hscope rfl i hi)
  | within _ => exact .within (hnew _) (.refl _)
  | apart _ _ _ => exact .apart

section Functions

variable {tie : Tie} {a a' : Activation} {names : List String}

theorem ActivationJoins.assign_parameter {p : String} {d d' : Datum}
    (h : ActivationJoins σ ties tie a a') (hp : p ≠ σ.y) (hd : d.Joins σ ties d') :
    ActivationJoins σ ties (tie.withParameters σ [p]) (assignIn p d a) (assignIn p d' a') := by
  cases tie with
  | same => exact h.assign_kept (.inl rfl) hd
  | split own last =>
    by_cases hx : p = σ.x
    · subst hx
      rw [Tie.withParameters, if_pos (List.mem_singleton.mpr rfl)]
      exact h.assign_owned (.inl rfl) hd
    · rw [Tie.withParameters, if_neg fun hmem => hx (List.mem_singleton.mp hmem).symm]
      exact h.assign_kept (.inr ⟨hx, hp⟩) hd

variable {args args' : List Argument} (hargs : List.Forall₂ (ArgumentJoins σ ties) args args')
  (hnames : σ.y ∉ names)

include hargs hnames

theorem bindInOrder_joined (h : ActivationJoins σ ties tie a a') :
    ActivationJoins σ ties (tie.withParameters σ names) (bindInOrder names args a)
      (bindInOrder names args' a') := by
  induction names generalizing args args' tie a a' with
  | nil => cases tie <;> exact h
  | cons p names ih =>
    rw [List.mem_cons, not_or] at hnames
    rw [Tie.withParameters_cons, bindInOrder, bindInOrder]
    cases hargs with
    | nil => exact ih .nil hnames.2 (h.assign_parameter (Ne.symm hnames.1) (.value .void))
    | cons hfirst hrest =>
      exact ih hrest hnames.2 (h.assign_parameter (Ne.symm hnames.1) hfirst.datum)

theorem assignAll_joined (h : ActivationJoins σ ties tie a a')
    (hlength : args.length = names.length) :
    ActivationJoins σ ties (tie.withParameters σ names) (assignAll a (names.zip args))
      (assignAll a' (names.zip args')) := by
  induction hargs generalizing names tie a a' with
  | nil =>
    obtain rfl : names = [] := List.length_eq_zero_iff.mp hlength.symm
    cases tie <;> exact h
  | cons hfirst _ ih =>
    cases names with
    | nil => cases hlength
    | cons p names =>
      rw [List.mem_cons, not_or] at hnames
      rw [Tie.withParameters_cons]
      exact ih hnames.2 (h.assign_parameter (Ne.symm hnames.1) hfirst.datum)
        (Nat.succ.inj hlength)

omit hargs in
/-- At the start of a function all its variables hold the same. -/
theorem start_joined {body : List Stmt} {r r₀ : Region} {left next c₀ c₁ : LastWrite}
    (hbegins : σ.Begins names body r r₀ c₀) (hbody : Stmt.AllFlow σ r₀ left next c₀ body c₁)
    {start : Option Datum} (hstart : Option.Rel (Datum.Joins σ ties) start start) :
    ActivationJoins σ ties (r₀.tie .none)
      ((names ++ Stmt.allBound σ.dialect body).eraseDups.map fun n => (n, start))
      ((names ++ Stmt.allBound σ.dialect (Stmt.renameAll σ.joined body)).eraseDups.map
        fun n => (n, start)) := by
  obtain ⟨hbound, hfree⟩ := hbody.bound_joined
  rw [hbound]
  have hlookup : ∀ {l l' : List String} {n n' : String}, (n ∈ l ↔ n' ∈ l') →
      VariableJoins σ ties ((l.eraseDups.map fun n => (n, start)).lookup n)
        ((l'.eraseDups.map fun n => (n, start)).lookup n') := by
    intro l l' n n' hmem
    simp only [lookup_map_const, List.mem_eraseDups, hmem]
    split
    · exact .some hstart
    · exact .none
  cases hbegins with
  | elsewhere _ | apart _ _ _ =>
    -- Without two variables no name changes.
    have hsame : (Stmt.allBound σ.dialect body).map σ.joined = Stmt.allBound σ.dialect body := by
      refine (List.map_congr_left fun n hn => ?_).trans (List.map_id _)
      exact ((hfree n hn).resolve_right id).joined_eq
    rw [hsame]
    exact fun n => hlookup Iff.rfl
  | within _ =>
    have hkept : ∀ n, n ≠ σ.x → n ≠ σ.y →
        (n ∈ (Stmt.allBound σ.dialect body).map σ.joined ↔ n ∈ Stmt.allBound σ.dialect body) := by
      intro n hx hy
      rw [List.mem_map]
      constructor
      · rintro ⟨m, hm, rfl⟩
        have hmy : m ≠ σ.y := fun h => hx (if_pos h)
        rwa [Split.joined_of_ne hmy]
      · exact fun hn => ⟨n, hn, Split.joined_of_ne hy⟩
    refine ⟨fun n hx hy => hlookup ?_, fun n hn hxy => ?_⟩
    · rw [List.mem_append, List.mem_append, hkept n hx hy]
    · have hx : σ.x ∈ names ++ (Stmt.allBound σ.dialect body).map σ.joined := by
        have howns : σ.Owns (.within (names ++ Stmt.allBound σ.dialect body)) n := ⟨hn, hxy⟩
        rw [List.mem_append] at hn ⊢
        rcases hn with hparameter | hlocal
        · -- A parameter is not called `y`.
          rcases hxy with rfl | rfl
          · exact .inl hparameter
          · exact absurd hparameter hnames
        · exact .inr (List.mem_map.mpr ⟨n, hlocal, howns.joined_eq⟩)
      have hjoins := hlookup (iff_of_true hn hx)
      refine ⟨?_, ?_, fun _ => hjoins⟩
      · rw [lookup_map_const, if_pos (List.mem_eraseDups.mpr hn)]
        rfl
      · rw [lookup_map_const, if_pos (List.mem_eraseDups.mpr hx)]
        rfl

omit hnames in
/-- The activation of a function at its start. -/
theorem activation_joined {f : Closure} {r r₀ : Region} {left next c₀ c₁ : LastWrite}
    (hparameters : Stmt.parameterNames? σ.dialect f.parameters = some names)
    (hbegins : σ.Begins names f.body r r₀ c₀)
    (hbody : Stmt.AllFlow σ r₀ left next c₀ f.body c₁) :
    Option.Rel (ActivationJoins σ ties (r₀.tie c₀)) (activation σ.dialect f args)
      (activation σ.dialect { f with body := Stmt.renameAll σ.joined f.body } args') := by
  have hy := hbegins.y_notMem
  rw [hbegins.tie_eq]
  unfold activation
  simp only [hparameters, Option.bind_eq_bind, Option.bind_some]
  -- JavaScript leaves missing arguments undefined, Python wants exactly as many.
  cases hd : σ.dialect with
  | javaScript =>
    have hstart : Option.Rel (Datum.Joins σ ties) (some (.value .void)) (some (.value .void)) :=
      .some (.value .void)
    have hjoins := bindInOrder_joined hargs hy (start_joined hy hbegins hbody hstart)
    rw [hd] at hjoins
    exact .some hjoins
  | python =>
    obtain ⟨hunnamed, hunnamed'⟩ := name_eq_none hargs
    rw [bindExactly_unnamed hunnamed, bindExactly_unnamed hunnamed', ← hargs.length_eq]
    by_cases hlength : args.length = names.length
    · have hjoins := assignAll_joined hargs hy (start_joined hy hbegins hbody .none) hlength
      rw [hd] at hjoins
      rw [if_pos hlength, if_pos hlength]
      exact .some hjoins
    · rw [if_neg hlength, if_neg hlength]
      exact .none

end Functions

/-- Entering a function ties the two new activations.  What changes only their tie keeps those that
were there before. -/
theorem enter_joined {α : Type} {R : List Tie → α → α → Prop} {tie : Tie} {a a' : Activation}
    (hw : w.Joins σ ties w') (ha : ActivationJoins σ ties tie a a') {f f' : Nat → Running α}
    (hf : ∀ {v v'}, World.Joins σ (ties ++ [tie]) v v' →
      RunsJoined σ (some ties.length) (ties ++ [tie]) R (f ties.length v) (f' ties.length v')) :
    RunsJoined σ none ties R ((enter a >>= f) w) ((enter a' >>= f') w') := by
  have hkeeps := Keeps.push ties tie
  have hworld : World.Joins σ (ties ++ [tie]) { w with activations := w.activations.push a }
      { w' with activations := w'.activations.push a' } := by
    refine ⟨hw.environment, hw.console, ?_, ?_, hkeeps.same hw.outermost, fun i tie' htie => ?_⟩
    · rw [Array.size_push, hw.size, List.length_append, List.length_singleton]
    · rw [Array.size_push, hw.size', List.length_append, List.length_singleton]
    · dsimp only
      rw [getD_push, getD_push, hw.size, hw.size']
      -- The last activations are those that are entered, all others were there before.
      by_cases hi : i = ties.length
      · subst hi
        rw [List.getElem?_append_right (Nat.le_refl _), Nat.sub_self] at htie
        cases htie
        rw [if_pos rfl, if_pos rfl]
        exact ha.mono hkeeps
      · have hlt := (List.getElem?_eq_some_iff.mp htie).1
        rw [List.length_append, List.length_singleton] at hlt
        rw [List.getElem?_append_left (by omega)] at htie
        rw [if_neg hi, if_neg hi]
        exact (hw.activations i tie' htie).mono hkeeps
  have hrun := hf hworld
  have henter : ∀ (a : Activation) (f : Nat → Running α) (w : World),
      (enter a >>= f) w = f w.activations.size { w with activations := w.activations.push a } := by
    intro a f w
    rw [bind_apply]
    rfl
  rw [henter, henter, hw.size, hw.size']
  revert hrun
  generalize f _ _ = result
  generalize f' _ _ = result'
  intro hrun
  cases hrun with
  | ok hkept hafter hR => exact .ok hkept.enter hafter hR
  | error henvironment hconsole => exact .error henvironment hconsole

end ShaderScript
