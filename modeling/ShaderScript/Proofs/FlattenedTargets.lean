import ShaderScript.Proofs.CompoundAssignment

/-!
# Targets as the items they are made of

A target is a tree, and nothing keeps it from being an odd one.  `Flattens` tells which items it is
made of, in the order they are met: bases, literal and computed indices, fields, and what no target
may hold.  Resolving a target takes these items one by one, handing computed indices out to a step
of the caller's, which may fail and may depend on what it did before.
-/

namespace ShaderScript

open Lowering

/-! ## Items -/

/-- What a target is made of. -/
inductive TargetItem
  | base (name : String)
  | index (x : Float)
  | field (selection : String)
  /-- An index that is neither missing nor a literal. -/
  | computed (index : Node)
  | missingIndex
  /-- A node of a kind that targets do not have. -/
  | foreign

namespace TargetItem

/-- Whether a target may hold the item. -/
def fits : TargetItem → Bool
  | .missingIndex => false
  | .foreign => false
  | _ => true

/-- The name of a base. -/
def base? : TargetItem → Option String
  | .base name => some name
  | _ => none

end TargetItem

/-- The bases among items. -/
def bases (items : List TargetItem) : List String := items.filterMap TargetItem.base?

namespace Node

/-- The kinds of nodes that targets have. -/
def targetTags : List Tag :=
  [.identifier, .postfixExpression, .operator, .indexSelector, .fieldSelector, .integerLiteral,
    .floatLiteral]

/-- Whether a node is a number literal. -/
def isNumber : Node → Bool
  | .integerLiteral .. => true
  | .floatLiteral .. => true
  | _ => false

end Node

/-- The items of a target in order.  An empty place has none. -/
inductive Flattens : Node → List TargetItem → Prop
  | absent : Flattens .absent []
  | identifier (pos : Position) (name : String) : Flattens (.identifier pos name) [.base name]
  | fieldSelector (pos : Position) (selection : String) :
      Flattens (.fieldSelector pos selection) [.field selection]
  | integerLiteral (pos : Position) (v : Int) :
      Flattens (.integerLiteral pos v) [.index (Float.ofInt v)]
  | floatLiteral (pos : Position) (x : Float) : Flattens (.floatLiteral pos x) [.index x]
  | literalIndex (pos : Position) {index : Node} {items : List TargetItem}
      (hnumber : index.isNumber = true) (hindex : Flattens index items) :
      Flattens (.indexSelector pos index) items
  | missingIndex (pos : Position) : Flattens (.indexSelector pos .absent) [.missingIndex]
  | computedIndex (pos : Position) {index : Node} (hnumber : index.isNumber = false)
      (hpresent : index.isAbsent = false) :
      Flattens (.indexSelector pos index) [.computed index]
  | postfixExpression (pos : Position) {op : Operator} {e : Node} {first second : List TargetItem}
      (he : Flattens e first) (hop : Flattens (.operator op) second) :
      Flattens (.postfixExpression pos op e) (first ++ second)
  | selector (pos : Position) {node : Node} {items : List TargetItem} (h : Flattens node items) :
      Flattens (.operator (.selector pos node)) items
  | token (pos : Position) (text : String) : Flattens (.operator (.token pos text)) []
  | foreign {node : Node} {tag : Tag} (htag : node.tag? = some tag)
      (hother : tag ∉ Node.targetTags) : Flattens node [.foreign]

/-- Taking items in order hands each computed index to `emit`.  Between the state before and the
state after, the items give these selectors, and bases give none. -/
inductive Emits {σ γ : Type} (emit : Option (Node → ExceptT LoweringError (StateM σ) γ)) :
    List TargetItem → σ → List (ChainSelector γ) → σ → Prop
  | nil (state : σ) : Emits emit [] state [] state
  | base (name : String) {items : List TargetItem} {before after : σ}
      {selectors : List (ChainSelector γ)} (h : Emits emit items before selectors after) :
      Emits emit (.base name :: items) before selectors after
  | index (x : Float) {items : List TargetItem} {before after : σ}
      {selectors : List (ChainSelector γ)} (h : Emits emit items before selectors after) :
      Emits emit (.index x :: items) before (.index x :: selectors) after
  | field (selection : String) {items : List TargetItem} {before after : σ}
      {selectors : List (ChainSelector γ)} (h : Emits emit items before selectors after) :
      Emits emit (.field selection :: items) before (.field selection :: selectors) after
  | computed {f : Node → ExceptT LoweringError (StateM σ) γ} {index : Node} {code : γ}
      {items : List TargetItem} {before between after : σ} {selectors : List (ChainSelector γ)}
      (hemit : emit = some f) (hcode : f index before = (.ok code, between))
      (h : Emits emit items between selectors after) :
      Emits emit (.computed index :: items) before (.code code :: selectors) after

/-! ## Steps and items -/

namespace Target

/-- The item that a step of a target stands for. -/
def itemOf : TargetStep Node → TargetItem
  | .base name => .base name
  | .index x => .index x
  | .field selection => .field selection
  | .computed _ index => .computed index
  | .bad (.noSubscript _) => .missingIndex
  | .bad _ => .foreign

/-- The items of a target by its steps. -/
def items (target : Node) : List TargetItem := (steps target).map itemOf

/-- A target flattens to nothing but its items. -/
theorem eq_items_of_flattens {n : Node} {xs : List TargetItem} (h : Flattens n xs) :
    xs = items n := by
  induction h with
  | @literalIndex pos index xs hnumber _ ih =>
    cases index with
    | integerLiteral | floatLiteral => exact ih
    | _ => cases hnumber
  | @computedIndex pos index hnumber hpresent =>
    cases index with
    | integerLiteral | floatLiteral => cases hnumber
    | absent => cases hpresent
    | _ => rfl
  | @postfixExpression pos op e first second _ _ ihe ihop =>
    rw [ihe, ihop]
    cases op with
    | token | selector => simp [items, steps]
  | selector pos _ ih => rw [ih, items, items, steps]
  | @foreign node tag htag hother =>
    -- The nodes that belong to targets are excluded by their tags.
    cases node with
    | absent => cases htag
    | identifier | postfixExpression | operator | indexSelector | fieldSelector | integerLiteral
    | floatLiteral =>
      cases htag
      exact absurd (by decide) hother
    | _ => rfl
  | _ => rfl

theorem flattens_indexSelector (pos : Position) (index : Node) :
    Flattens (.indexSelector pos index) [itemOf (subscriptStep pos index index)] := by
  cases index with
  | absent => exact .missingIndex pos
  | integerLiteral pos' v => exact .literalIndex pos rfl (.integerLiteral pos' v)
  | floatLiteral pos' x => exact .literalIndex pos rfl (.floatLiteral pos' x)
  | _ => exact .computedIndex pos rfl rfl

/-- A target flattens to its items. -/
theorem flattens_items (n : Node) : Flattens n (items n) := by
  unfold items
  fun_induction steps n with
  | case1 => exact .absent
  | case2 pos name => exact .identifier pos name
  | case3 pos pos' selector e ihe ihs =>
    rw [List.map_append]
    exact .postfixExpression pos ihe (.selector pos' ihs)
  | case4 pos pos' text e ih =>
    have htoken := Flattens.postfixExpression pos ih (.token pos' text)
    rwa [List.append_nil] at htoken
  | case5 pos selector ih => exact .selector pos ih
  | case6 pos text => exact .token pos text
  | case7 pos index => exact flattens_indexSelector pos index
  | case8 pos selection => exact .fieldSelector pos selection
  | case9 pos v => exact .integerLiteral pos v
  | case10 pos x => exact .floatLiteral pos x
  | case11 n habsent hname hpart hstep hselector htoken hindex hfield hinteger hfloat =>
    -- All other cases are taken by now.
    cases n with
    | absent => exact (habsent rfl).elim
    | identifier pos name => exact (hname pos name rfl).elim
    | postfixExpression pos op e =>
      cases op with
      | token pos' text => exact (hstep pos pos' text e rfl).elim
      | selector pos' node => exact (hpart pos pos' node e rfl).elim
    | operator op =>
      cases op with
      | token pos text => exact (htoken pos text rfl).elim
      | selector pos node => exact (hselector pos node rfl).elim
    | indexSelector pos index => exact (hindex pos index rfl).elim
    | fieldSelector pos selection => exact (hfield pos selection rfl).elim
    | integerLiteral pos v => exact (hinteger pos v rfl).elim
    | floatLiteral pos x => exact (hfloat pos x rfl).elim
    | _ => exact .foreign rfl (by decide)

theorem flattens_iff (n : Node) (xs : List TargetItem) : Flattens n xs ↔ xs = items n := by
  refine ⟨eq_items_of_flattens, ?_⟩
  rintro rfl
  exact flattens_items n

section

variable {σ γ : Type} {emit : Option (Node → ExceptT LoweringError (StateM σ) γ)}

/-- An error that is passed on as the target sees it. -/
theorem tryCatch_inTarget (m : ExceptT LoweringError (StateM σ) γ) (before : σ) :
    (tryCatch m fun e => throw e.inTarget : ExceptT LoweringError (StateM σ) γ) before =
      ((m before).1.mapError LoweringError.inTarget, (m before).2) := by
  have hbind : ∀ next : Except LoweringError γ → StateM σ (Except LoweringError γ),
      (Bind.bind (m := StateM σ) m next) before = next (m before).1 (m before).2 := fun _ => rfl
  simp only [tryCatch, tryCatchThe, MonadExceptOf.tryCatch, ExceptT.tryCatch, ExceptT.mk]
  rw [hbind]
  rcases m before with ⟨_ | _, _⟩ <;> rfl

/-- What comes of a computed index. -/
theorem follow_computed (f : Node → ExceptT LoweringError (StateM σ) γ) (pos : Position)
    (index : Node) (rest : List (TargetStep Node)) (chain : Partial γ) (before : σ) :
    follow (some f) (.computed pos index :: rest) chain before =
      ExceptT.bindCont (m := StateM σ) (fun code => follow (some f) rest
          { chain with selectors := chain.selectors ++ [.code code] })
        ((f index before).1.mapError LoweringError.inTarget) (f index before).2 := by
  have hsteps : follow (some f) (.computed pos index :: rest) chain =
      (tryCatch (f index) fun e => throw e.inTarget) >>= fun code => follow (some f) rest
        { chain with selectors := chain.selectors ++ [.code code] } := by
    simp only [follow, advance, bind_assoc, pure_bind]
  have hrun : follow (some f) (.computed pos index :: rest) chain before =
      ExceptT.bindCont (m := StateM σ) (fun code => follow (some f) rest
          { chain with selectors := chain.selectors ++ [.code code] })
        ((tryCatch (f index) fun e => throw e.inTarget :
          ExceptT LoweringError (StateM σ) γ) before).1
        ((tryCatch (f index) fun e => throw e.inTarget :
          ExceptT LoweringError (StateM σ) γ) before).2 := by
    rw [hsteps]
    rfl
  rw [hrun, tryCatch_inTarget]

/-- Steps that are all taken are fit, have no second base, and add a selector for each other
item. -/
theorem emits_of_follow {steps : List (TargetStep Node)} {chain chain' : Partial γ}
    {before after : σ} (h : follow emit steps chain before = (.ok chain', after)) :
    (∀ item ∈ steps.map itemOf, item.fits = true) ∧
      chain.base.toList ++ bases (steps.map itemOf) = chain'.base.toList ∧
      ∃ selectors, chain'.selectors = chain.selectors ++ selectors ∧
        Emits emit (steps.map itemOf) before selectors after := by
  induction steps generalizing chain before with
  | nil =>
    cases h
    exact ⟨fun item hitem => absurd hitem List.not_mem_nil, List.append_nil _, [],
      (List.append_nil _).symm, .nil after⟩
  | cons step rest ih =>
    -- A selector is added behind those of the chain, ahead of those of the other steps.
    have hadd : ∀ {selector : ChainSelector γ} {between : σ},
        follow emit rest ⟨chain.base, chain.selectors ++ [selector]⟩ between = (.ok chain', after) →
        (∀ item ∈ rest.map itemOf, item.fits = true) ∧
          chain.base.toList ++ bases (rest.map itemOf) = chain'.base.toList ∧
          ∃ selectors, chain'.selectors = chain.selectors ++ selector :: selectors ∧
            Emits emit (rest.map itemOf) between selectors after := by
      intro selector between hrest
      obtain ⟨hfits, hbases, selectors, hselectors, hemits⟩ := ih hrest
      exact ⟨hfits, hbases, selectors, by rw [hselectors, List.append_assoc]; rfl, hemits⟩
    rw [List.map_cons, List.forall_mem_cons]
    cases step with
    | base name =>
      obtain ⟨base, selectors⟩ := chain
      cases base with
      | some first => cases h
      | none =>
        obtain ⟨hfits, hbases, selectors', hselectors, hemits⟩ := @ih ⟨some name, selectors⟩ _ h
        exact ⟨⟨rfl, hfits⟩, hbases, selectors', hselectors, .base name hemits⟩
    | index x =>
      obtain ⟨hfits, hbases, selectors, hselectors, hemits⟩ := hadd h
      exact ⟨⟨rfl, hfits⟩, hbases, _, hselectors, .index x hemits⟩
    | field selection =>
      obtain ⟨hfits, hbases, selectors, hselectors, hemits⟩ := hadd h
      exact ⟨⟨rfl, hfits⟩, hbases, _, hselectors, .field selection hemits⟩
    | bad error => cases h
    | computed pos index =>
      cases emit with
      | none => cases h
      | some f =>
        rw [follow_computed] at h
        rcases hcode : f index before with ⟨_ | code, between⟩ <;> rw [hcode] at h
        · cases h
        · obtain ⟨hfits, hbases, selectors, hselectors, hemits⟩ := hadd h
          exact ⟨⟨rfl, hfits⟩, hbases, _, hselectors, .computed rfl hcode hemits⟩

/-- Fit items with no second base are all taken. -/
theorem follow_of_emits {steps : List (TargetStep Node)} {chain : Partial γ} {base : Option String}
    {before after : σ} {selectors : List (ChainSelector γ)}
    (hbases : chain.base.toList ++ bases (steps.map itemOf) = base.toList)
    (h : Emits emit (steps.map itemOf) before selectors after) :
    follow emit steps chain before = (.ok ⟨base, chain.selectors ++ selectors⟩, after) := by
  induction steps generalizing chain before selectors with
  | nil =>
    cases h
    have hbase : chain.base = base := by
      have hsame : chain.base.toList = base.toList := by
        rw [← hbases]
        exact (List.append_nil _).symm
      cases hc : chain.base <;> cases hb : base <;> simp_all
    rw [follow, List.append_nil, ← hbase]
    rfl
  | cons step rest ih =>
    -- A selector is added behind those of the chain, ahead of those of the other steps.
    have hadd : ∀ {selector : ChainSelector γ} {between : σ} {selectors : List (ChainSelector γ)},
        chain.base.toList ++ bases (rest.map itemOf) = base.toList →
        Emits emit (rest.map itemOf) between selectors after →
        follow emit rest ⟨chain.base, chain.selectors ++ [selector]⟩ between =
          (.ok ⟨base, chain.selectors ++ selector :: selectors⟩, after) := by
      intro selector between selectors hrest hemits
      rw [@ih ⟨chain.base, chain.selectors ++ [selector]⟩ _ _ hrest hemits, List.append_assoc]
      rfl
    cases step with
    | base name =>
      obtain ⟨found, selectors⟩ := chain
      cases h with
      | base _ hemits =>
        cases found with
        | none => exact @ih ⟨some name, selectors⟩ _ _ hbases hemits
        | some first => cases base <;> simp [bases, itemOf, TargetItem.base?] at hbases
    | index x =>
      cases h with
      | index _ hemits => exact hadd hbases hemits
    | field selection =>
      cases h with
      | field _ hemits => exact hadd hbases hemits
    | bad error => cases error <;> cases h
    | computed pos index =>
      cases h with
      | computed hemit hcode hemits =>
        subst hemit
        rw [follow_computed, hcode]
        exact hadd hbases hemits

/-- Taking the items of a target fails for what they are, or because a computed index cannot be
emitted. -/
theorem error_of_follow {steps : List (TargetStep Node)} {chain : Partial γ} {before after : σ}
    {e : LoweringError} (h : follow emit steps chain before = (.error e, after)) :
    (∃ reason, e = .target reason) ∨
      ∃ f passed index rest selectors between failure,
        steps.map itemOf = passed ++ .computed index :: rest ∧
        Emits emit passed before selectors between ∧ emit = some f ∧
        f index between = (.error failure, after) ∧ e = failure.inTarget := by
  induction steps generalizing chain before with
  | nil => cases h
  | cons step rest ih =>
    -- An item that is taken comes before those at which the rest fails.
    have hpass : ∀ {chain : Partial γ} {between : σ},
        follow emit rest chain between = (.error e, after) →
        (∀ passed selectors state, Emits emit passed between selectors state →
          ∃ selectors', Emits emit (itemOf step :: passed) before selectors' state) →
        (∃ reason, e = .target reason) ∨
          ∃ f passed index later selectors between failure,
            (step :: rest).map itemOf = passed ++ .computed index :: later ∧
            Emits emit passed before selectors between ∧ emit = some f ∧
            f index between = (.error failure, after) ∧ e = failure.inTarget := by
      intro chain between hrest htaken
      refine (ih hrest).imp_right ?_
      rintro ⟨f, passed, index, later, selectors, state, failure, hitems, hemits, hfailure⟩
      obtain ⟨selectors', hemits'⟩ := htaken passed selectors state hemits
      exact ⟨f, itemOf step :: passed, index, later, selectors', state, failure,
        by rw [List.map_cons, hitems]; rfl, hemits', hfailure⟩
    cases step with
    | base name =>
      obtain ⟨base, selectors⟩ := chain
      cases base with
      | some first =>
        cases h
        exact .inl ⟨_, rfl⟩
      | none => exact hpass h fun _ selectors _ hemits => ⟨selectors, .base name hemits⟩
    | index x => exact hpass h fun _ _ _ hemits => ⟨_, .index x hemits⟩
    | field selection => exact hpass h fun _ _ _ hemits => ⟨_, .field selection hemits⟩
    | bad error =>
      cases h
      exact .inl ⟨error, rfl⟩
    | computed pos index =>
      cases emit with
      | none =>
        cases h
        exact .inl ⟨_, rfl⟩
      | some f =>
        rw [follow_computed] at h
        rcases hcode : f index before with ⟨failure | code, between⟩ <;> rw [hcode] at h
        · cases h
          exact .inr ⟨f, [], index, rest.map itemOf, [], before, failure, rfl, .nil before, rfl,
            hcode, rfl⟩
        · exact hpass h fun _ _ _ hemits => ⟨_, .computed rfl hcode hemits⟩

/-- Resolving takes the items of the target and asks for a base. -/
theorem resolve_run (target : Node) (before : σ) :
    resolve target emit before =
      if target.isAbsent then (.error (.target .emptyTarget), before)
      else ExceptT.bindCont (m := StateM σ) (complete target)
        (follow emit (steps target) {} before).1 (follow emit (steps target) {} before).2 := by
  rw [resolve_eq, resolveSteps]
  split <;> rfl

theorem bases_items_absent {target : Node} (h : target.isAbsent = true) :
    bases (items target) = [] := by
  rw [Node.eq_absent_of_isAbsent h]
  rfl

/-- A target is resolved exactly if its items are fit, can be emitted, and have one base. -/
theorem resolve_eq_ok_iff (target : Node) (chain : Chain γ) (before after : σ) :
    resolve target emit before = (.ok chain, after) ↔
      (∀ item ∈ items target, item.fits = true) ∧ bases (items target) = [chain.base] ∧
        Emits emit (items target) before chain.selectors after := by
  rw [resolve_run]
  by_cases habsent : target.isAbsent = true
  · rw [if_pos habsent, bases_items_absent habsent]
    refine ⟨fun h => ?_, fun h => ?_⟩
    · cases h
    · cases h.2.1
  · rw [if_neg habsent]
    constructor
    · intro h
      rcases hfollow : follow emit (steps target) {} before with ⟨_ | made, between⟩ <;>
        rw [hfollow] at h
      · cases h
      · obtain ⟨hfits, hbases, selectors, hselectors, hemits⟩ := emits_of_follow hfollow
        obtain ⟨base, made⟩ := made
        cases base with
        | none => cases h
        | some base =>
          cases h
          exact ⟨hfits, hbases, hselectors ▸ hemits⟩
    · rintro ⟨_, hbases, hemits⟩
      -- The chain starts without a base, so its base is the only one.
      have hone : (none : Option String).toList ++ bases (items target) =
          (some chain.base).toList := hbases
      have hfollow := @follow_of_emits _ _ _ _ {} _ _ _ _ hone hemits
      rw [hfollow]
      rfl

/-- A target that is not resolved is refused, or an index cannot be emitted. -/
theorem error_of_resolve {target : Node} {before after : σ} {e : LoweringError}
    (h : resolve target emit before = (.error e, after)) :
    (∃ reason, e = .target reason) ∨
      ∃ f passed index rest selectors between failure,
        items target = passed ++ .computed index :: rest ∧
        Emits emit passed before selectors between ∧ emit = some f ∧
        f index between = (.error failure, after) ∧ e = failure.inTarget := by
  rw [resolve_run] at h
  split at h
  · cases h
    exact .inl ⟨_, rfl⟩
  · rcases hfollow : follow emit (steps target) {} before with ⟨failure | made, between⟩ <;>
      rw [hfollow] at h
    · cases h
      exact error_of_follow hfollow
    · obtain ⟨base, made⟩ := made
      cases base with
      | some base => cases h
      | none =>
        cases h
        exact .inl ⟨_, rfl⟩

end

end Target

open Target

/-! ## Resolved targets -/

/-- For every target and every emitter, whatever state it works on: the target flattens to one list
of items.  It is resolved exactly if all items are fit, every computed index is emitted in turn, and
there is exactly one base; then the chain has that base, and a selector for each other item in
order.  If it is not resolved, the error is about the target, or it is the emitter's at the first
computed index that it fails on.  Lowering resolves its targets in this way, emitting the code of an
index. -/
theorem resolve_exact {σ γ : Type} (target : Node)
    (emit : Option (Node → ExceptT LoweringError (StateM σ) γ)) :
    (∃ items, (∀ xs, Flattens target xs ↔ xs = items) ∧
      ∀ before after : σ,
        (∀ chain, Target.resolve target emit before = (.ok chain, after) ↔
          (∀ item ∈ items, item.fits = true) ∧ bases items = [chain.base] ∧
            Emits emit items before chain.selectors after) ∧
        ∀ e, Target.resolve target emit before = (.error e, after) →
          (∃ reason, e = .target reason) ∨
            ∃ f passed index rest selectors between failure,
              items = passed ++ .computed index :: rest ∧
              Emits emit passed before selectors between ∧ emit = some f ∧
              f index between = (.error failure, after) ∧ e = failure.inTarget) ∧
    ∀ (s : Surroundings) (inside : Bool),
      Target.resolveSteps target (visitTarget s inside target) (some id) =
        Target.resolve target (some fun index => asOperand (visit s inside index)) := by
  refine ⟨⟨items target, flattens_iff target, fun before after => ⟨fun chain => ?_, fun e h => ?_⟩⟩,
    fun s inside => ?_⟩
  · exact resolve_eq_ok_iff target chain before after
  · exact error_of_resolve h
  -- A visit emits the indices while it flattens, which comes to the same.
  · rw [visitTarget_eq, resolve_eq, resolveSteps, resolveSteps, follow_map]

end ShaderScript
