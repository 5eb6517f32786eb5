import ShaderScript.Proofs.DescriptorSchema

/-!
# The shape of operators and declared names

An operator is meant to be a token, or a selector behind an expression, and a declared name to be an
identifier.  The operator of an expression is checked for that, but the node inside an operator node
and the one at a declared name are not, and a token may be empty.  `Descriptor.Slips` says that a
document slips through this way, somewhere in what is decoded.
-/

namespace ShaderScript

/-! ## Shape -/

/-- A token that is not empty, or a selector. -/
def Operator.Proper : Operator → Prop
  | .token _ text => text ≠ ""
  | .selector _ n => n.tag? ∈ [some Tag.indexSelector, some .fieldSelector]

/-- A node has the shape that its kind asks for. -/
def Node.Proper : Node → Prop
  | .operator op => op.Proper
  | .declaratorItem _ name _ => name.tag? = some .identifier
  | _ => True

/-- All nodes of a tree have their shape. -/
def Node.Shaped (n : Node) : Prop := ∀ path k, n.At path k → k.Proper

theorem Node.shaped_iff (n : Node) : n.Shaped ↔ n.Proper ∧ ∀ p ∈ n.parts, p.2.Shaped := by
  constructor
  · exact fun h => ⟨h [] n (.here n), fun p hp path k hk => h (p.1 ++ path) k (.inside hp hk)⟩
  · rintro ⟨hproper, hparts⟩ path k hk
    cases hk with
    | here => exact hproper
    | inside hpart hk => exact hparts _ hpart _ _ hk

theorem Node.shaped_selector {pos : Position} {s : Node}
    (hs : s.tag? ∈ [some Tag.indexSelector, some .fieldSelector]) (h : s.Shaped) :
    (Node.operator (.selector pos s)).Shaped := by
  refine (shaped_iff _).mpr ⟨hs, fun p hp => ?_⟩
  obtain rfl := List.mem_singleton.mp hp
  exact h

namespace Descriptor

open Document

/-! ## What slips through -/

variable {entries : List (String × Document)} {path : Path} {pos : Position} {n : Node} {tag : Tag}
  {key : String}

/-- The entry at a key is a node, but not one of the kinds asked for. -/
def Strays (entries : List (String × Document)) (key : String) (tags : List (Option Tag)) : Prop :=
  ∃ inner tag, lookup key entries = some (.table inner) ∧ HasTag inner tag ∧ some tag ∉ tags

/-- An entry of a table with a tag is taken although it does not have its shape. -/
inductive Slip (entries : List (String × Document)) : Tag → Prop
  | emptyToken {tag : Tag} (hreads : .operator ∈ reads tag ∨ .ownOperator ∈ reads tag)
      (h : lookup "operator" entries = some (.text "")) : Slip entries tag
  | noSelector (h : Strays entries "operator" [some .indexSelector, some .fieldSelector]) :
      Slip entries .operator
  | unnamed (h : present (fields entries) "name" = none) : Slip entries .declaratorItem
  | noIdentifier (h : Strays entries "name" [some .identifier]) : Slip entries .declaratorItem

/-- Something slips through, in a table or in a table inside it that is decoded. -/
inductive Slips : Document → Prop
  | here {entries : List (String × Document)} {tag : Tag} (htag : HasTag entries tag)
      (h : Slip entries tag) : Slips (.table entries)
  | child {entries : List (String × Document)} {tag : Tag} {r : Read} {key : String} {d : Document}
      (htag : HasTag entries tag) (hr : r ∈ reads tag) (hkey : r.nodeKey? = some key)
      (hd : lookup key entries = some d) (h : Slips d) : Slips (.table entries)
  | item {entries : List (String × Document)} {tag : Tag} {key : String} {items : List Document}
      {d : Document} (htag : HasTag entries tag) (hr : .children key ∈ reads tag)
      (hitems : lookup key entries = some (.list items)) (hd : d ∈ items) (h : Slips d) :
      Slips (.table entries)

theorem HasTag.unique {tag' : Tag} (h : HasTag entries tag) (h' : HasTag entries tag') :
    tag = tag' := by
  obtain ⟨name, hname, htag⟩ := h
  obtain ⟨name', hname', htag'⟩ := h'
  obtain rfl := Document.text.inj (Option.some.inj (hname.symm.trans hname'))
  exact Option.some.inj (htag.symm.trans htag')

variable {d : Document}

theorem entries_of_node (h : node d path = .ok n) : ∃ entries, d = .table entries := by
  cases d with
  | table entries => exact ⟨entries, rfl⟩
  | _ => simp only [node] at h; cases h

theorem entries_of_slips (h : Slips d) : ∃ entries, d = .table entries := by
  cases h <;> exact ⟨_, rfl⟩

/-- A node that is decoded at a key is of a kind asked for if and only if it does not stray. -/
theorem strays_iff {tags : List (Option Tag)} (hd : lookup key entries = some d)
    (hn : node d path = .ok n) : n.tag? ∈ tags ↔ ¬ Strays entries key tags := by
  obtain ⟨inner, rfl⟩ := entries_of_node hn
  obtain ⟨tag, pos, htag, hn, -⟩ := node_cases hn
  rw [hn]
  constructor
  · rintro hmem ⟨inner', tag', hinner', htag', hno⟩
    obtain rfl := Document.table.inj (Option.some.inj (hd.symm.trans hinner'))
    exact hno (htag.unique htag' ▸ hmem)
  · intro h
    by_contra hno
    exact h ⟨inner, tag, hd, htag, hno⟩

/-- An operator node has its shape if and only if nothing slips through. -/
theorem proper_of_ownOperator (h : ownOperator (fields entries) path pos = .ok n) :
    n.Proper ↔ ¬ Slip entries .operator := by
  unfold ownOperator at h
  split at h
  · cases h
  · rename_i field hfield
    obtain ⟨d, hd, rfl⟩ := eq_of_present hfield
    -- A text is the token itself; anything else has to be a selector.
    split at h
    · rename_i token hraw
      cases h
      obtain rfl : d = .text token := hraw
      constructor
      · rintro hproper (⟨-, hempty⟩ | ⟨inner, tag, hinner, -⟩)
        · exact hproper (Document.text.inj (Option.some.inj (hd.symm.trans hempty)))
        · cases hd.symm.trans hinner
      · rintro h (rfl : token = "")
        exact h (.emptyToken (.inr (by decide)) hd)
    · rename_i htext
      obtain ⟨s, hs, hn⟩ := bind_eq_ok.mp h
      cases hn
      refine (strays_iff hd hs).trans (not_congr ⟨.noSelector, ?_⟩)
      rintro (⟨-, hempty⟩ | h)
      · cases hd.symm.trans hempty
        exact absurd rfl (htext "")
      · exact h

/-- A declared name is an identifier if and only if nothing slips through. -/
theorem identifier_of_declaredName (h : declaredName (fields entries) path pos = .ok n) :
    n.tag? = some .identifier ↔ ¬ Slip entries .declaratorItem := by
  have hslip : Slip entries .declaratorItem ↔
      present (fields entries) "name" = none ∨ Strays entries "name" [some .identifier] := by
    constructor
    · rintro (⟨hreads, -⟩ | - | h | h)
      · exact absurd hreads (by decide)
      · exact .inl h
      · exact .inr h
    · rintro (h | h)
      · exact .unnamed h
      · exact .noIdentifier h
  rw [hslip]
  unfold declaredName at h
  split at h
  · rename_i hnone
    cases h
    exact iff_of_false (by simp [Node.tag?]) (fun h => h (.inl hnone))
  · rename_i field hfield
    obtain ⟨d, hd, rfl⟩ := eq_of_present hfield
    simp only [hfield, reduceCtorEq, false_or]
    split at h
    · rename_i s hraw
      cases h
      obtain rfl : d = .text s := hraw
      refine iff_of_true rfl ?_
      rintro ⟨inner, tag, hinner, -⟩
      cases hd.symm.trans hinner
    · rw [← strays_iff hd h, List.mem_singleton]

/-- A node has its shape if nothing slips through in its table. -/
theorem proper_of_build (hbuild : build (fields entries) path pos tag = .ok n)
    (htag : n.tag? = some tag) (h : ¬ Slip entries tag) : n.Proper := by
  cases n with
  | operator op =>
    cases htag
    exact (proper_of_ownOperator hbuild).mpr h
  | declaratorItem pos' name initializer =>
    cases htag
    obtain ⟨name', hname, hrest⟩ := bind_eq_ok.mp hbuild
    obtain ⟨initializer', -, hn⟩ := bind_eq_ok.mp hrest
    cases hn
    exact (identifier_of_declaredName hname).mpr h
  | _ => trivial

/-- If something slips through in the table of a node, the node or a part of it has no shape. -/
theorem exists_not_proper (hbuild : build (fields entries) path pos tag = .ok n)
    (hparts : readAll (fields entries) path pos (reads tag) = .ok n.parts)
    (h : Slip entries tag) : ¬ n.Proper ∨ ∃ p ∈ n.parts, ¬ p.2.Proper := by
  have hname : tag = .declaratorItem → ¬ n.Proper := by
    rintro rfl hproper
    obtain ⟨name, hname, hrest⟩ := bind_eq_ok.mp hbuild
    obtain ⟨initializer, -, hn⟩ := bind_eq_ok.mp hrest
    cases hn
    exact (identifier_of_declaredName hname).mp hproper h
  have hown : tag = .operator → ¬ n.Proper := by
    rintro rfl hproper
    exact (proper_of_ownOperator hbuild).mp hproper h
  cases h with
  | emptyToken hreads hempty =>
    obtain hreads | hreads := hreads
    · obtain ⟨found, hrun, hmem⟩ := run_of_readAll hparts hreads
      rw [Read.run, operator, present_fields hempty (by simp)] at hrun
      cases hrun
      exact .inr ⟨_, hmem _ List.mem_cons_self, fun hproper => hproper rfl⟩
    · refine .inl (hown ?_)
      revert hreads
      cases tag <;> decide
  | noSelector => exact .inl (hown rfl)
  | unnamed | noIdentifier => exact .inl (hname rfl)

/-! ## Where parts come from -/

/-- What a reading finds: nothing, a name, a token, or what a document inside the table describes,
as it is, as the selector of an operator or as an operator around a selector. -/
inductive Origin (entries : List (String × Document)) (r : Read) : Node → Prop
  | absent : Origin entries r .absent
  | identifier (pos : Position) (name : String) : Origin entries r (.identifier pos name)
  | token {s : String} (hr : r = .operator) (h : lookup "operator" entries = some (.text s)) :
      Origin entries r (.operator (.token .unknown s))
  | child {key : String} {d : Document} {path : Path} {m n : Node} (hkey : r.nodeKey? = some key)
      (hd : lookup key entries = some d) (hm : node d path = .ok m)
      (hshape : m.Shaped → n.Shaped) : Origin entries r n
  | item {key : String} {items : List Document} {d : Document} {path : Path} {n : Node}
      (hr : r = .children key) (hitems : lookup key entries = some (.list items)) (hd : d ∈ items)
      (hn : node d path = .ok n) : Origin entries r n

theorem mem_of_nodeItems {items : List Document} {i : Nat} {ns : List Node}
    (h : nodeItems items path i = .ok ns) (hn : n ∈ ns) :
    ∃ d ∈ items, ∃ path', node d path' = .ok n := by
  rw [nodeItems_eq] at h
  obtain ⟨hlength, hitems⟩ := List.forall₂_iff_get.mp (forall₂_of_eachFrom h)
  obtain ⟨k, hk, rfl⟩ := List.getElem_of_mem hn
  obtain ⟨j, hj⟩ := hitems k (hlength ▸ hk) hk
  exact ⟨_, List.getElem_mem _, _, hj⟩

theorem origin_of_operator {op : Operator} {first : Path}
    (h : operator (fields entries) path "operator" = .ok op) (hn : (first, n) ∈ op.places) :
    Origin entries .operator n := by
  unfold operator at h
  split at h
  · cases h
  · rename_i field hfield
    obtain ⟨d, hd, rfl⟩ := eq_of_present hfield
    split at h
    · rename_i token hraw
      cases h
      obtain rfl : d = .text token := hraw
      cases List.mem_singleton.mp hn
      exact .token rfl hd
    · split at h
      · cases h
      · -- An operator node: the operator in it, or the selector of that.
        rename_i op' hnode
        cases h
        obtain hn | hn := List.mem_append.mp hn
        · cases List.mem_singleton.mp hn
          exact .child rfl hd hnode id
        · exact .child rfl hd hnode fun h => ((Node.shaped_iff _).mp h).2 _ hn
      all_goals
        rename_i hnode
        cases h
      all_goals
        obtain hn | hn := List.mem_append.mp hn
        · cases List.mem_singleton.mp hn
          exact .child rfl hd hnode (Node.shaped_selector (by simp [Node.tag?]))
        · cases List.mem_singleton.mp hn
          exact .child rfl hd hnode id

/-- Where what a reading finds comes from. -/
theorem origin_of_run {r : Read} {found : Parts} {first : Path}
    (h : r.run (fields entries) path pos = .ok found) (hn : (first, n) ∈ found) :
    Origin entries r n := by
  cases r with
  | child key =>
    obtain ⟨m, hm, rfl⟩ := map_eq_ok_iff.mp h
    cases List.mem_singleton.mp hn
    unfold child at hm
    split at hm
    · cases hm
      exact .absent
    · rename_i field hfield
      obtain ⟨d, hd, rfl⟩ := eq_of_present hfield
      exact .child rfl hd hm id
  | children key =>
    obtain ⟨ms, hms, rfl⟩ := map_eq_ok_iff.mp h
    obtain ⟨i, hi, hpair⟩ := List.mem_mapIdx.mp hn
    cases hpair
    unfold children at hms
    split at hms
    · cases hms
      cases hi
    · rename_i field hfield
      obtain ⟨d, hd, rfl⟩ := eq_of_present hfield
      cases d with
      | list items =>
        simp only [nodes] at hms
        obtain ⟨d, hmem, path', hnode⟩ := mem_of_nodeItems hms (List.getElem_mem hi)
        exact .item rfl hd hmem hnode
      | _ => simp only [nodes] at hms; cases hms
  | operator =>
    obtain ⟨op, hop, rfl⟩ := map_eq_ok_iff.mp h
    exact origin_of_operator hop hn
  | ownOperator =>
    obtain ⟨m, hm, rfl⟩ := map_eq_ok_iff.mp h
    unfold ownOperator at hm
    split at hm
    · cases hm
    · rename_i field hfield
      obtain ⟨d, hd, rfl⟩ := eq_of_present hfield
      split at hm
      · cases hm
        cases hn
      · obtain ⟨s, hs, hm⟩ := bind_eq_ok.mp hm
        cases hm
        cases List.mem_singleton.mp hn
        exact .child rfl hd hs id
  | declaredName =>
    obtain ⟨m, hm, rfl⟩ := map_eq_ok_iff.mp h
    cases List.mem_singleton.mp hn
    unfold declaredName at hm
    split at hm
    · cases hm
      exact .absent
    · rename_i field hfield
      obtain ⟨d, hd, rfl⟩ := eq_of_present hfield
      split at hm
      · cases hm
        exact .identifier _ _
      · exact .child rfl hd hm id
  | _ =>
    -- The other readings find no nodes.
    obtain ⟨_, -, rfl⟩ := map_eq_ok_iff.mp h
    cases hn

theorem run_of_mem {fs : Fields} {rs : List Read} {parts : Parts} {p : Path × Node}
    (h : readAll fs path pos rs = .ok parts) (hp : p ∈ parts) :
    ∃ r ∈ rs, ∃ found, r.run fs path pos = .ok found ∧ p ∈ found := by
  induction rs generalizing parts with
  | nil =>
    cases h
    cases hp
  | cons first rest ih =>
    obtain ⟨found, more, hfirst, hmore, rfl⟩ := readAll_cons h
    obtain hp | hp := List.mem_append.mp hp
    · exact ⟨first, List.mem_cons_self, found, hfirst, hp⟩
    · obtain ⟨r, hr, found', hrun, hp⟩ := ih hmore hp
      exact ⟨r, List.mem_cons_of_mem first hr, found', hrun, hp⟩

/-! ## Trees -/

theorem sizeOf_lt_of_lookup (h : lookup key entries = some d) : sizeOf d < sizeOf entries := by
  induction entries with
  | nil => cases h
  | cons e rest ih =>
    rw [List.cons.sizeOf_spec]
    rw [lookup] at h
    split at h
    · rename_i d' hd'
      have := ih (hd'.trans h)
      omega
    · split at h
      · cases h
        have : sizeOf e = 1 + sizeOf e.1 + sizeOf e.2 := rfl
        omega
      · cases h

/-- If nothing slips through, the tree has its shape. -/
theorem shaped_of_node {path : Path} {n : Node} (hn : node d path = .ok n) (h : ¬ Slips d) :
    n.Shaped := by
  -- By induction on the document: a part comes from a smaller one, or is shaped as it stands.
  induction hsize : sizeOf d using Nat.strongRecOn generalizing d path n with
  | _ size ih =>
    subst hsize
    obtain ⟨entries, rfl⟩ := entries_of_node hn
    obtain ⟨tag, pos, htag, htag?, hbuild, hparts⟩ := node_cases hn
    have hproper := proper_of_build hbuild htag? fun hslip => h (.here htag hslip)
    refine (Node.shaped_iff n).mpr ⟨hproper, ?_⟩
    rintro ⟨first, m⟩ hm
    obtain ⟨r, hr, found, hrun, hm⟩ := run_of_mem hparts hm
    rw [Document.table.sizeOf_spec] at ih
    cases origin_of_run hrun hm with
    | absent | identifier =>
      exact (Node.shaped_iff _).mpr ⟨trivial, fun p hp => absurd hp List.not_mem_nil⟩
    | token hop htext =>
      subst hop
      refine (Node.shaped_iff _).mpr ⟨?_, fun p hp => absurd hp List.not_mem_nil⟩
      rintro rfl
      exact h (.here htag (.emptyToken (.inl hr) htext))
    | child hkey hd hnode hshape =>
      have := sizeOf_lt_of_lookup hd
      exact hshape (ih _ (by omega) hnode (fun hslips => h (.child htag hr hkey hd hslips)) rfl)
    | item hchildren hitems hmem hnode =>
      subst hchildren
      have := sizeOf_lt_of_lookup hitems
      rw [Document.list.sizeOf_spec] at this
      have := List.sizeOf_lt_of_mem hmem
      exact ih _ (by omega) hnode (fun hslips => h (.item htag hr hitems hmem hslips)) rfl

/-- If something slips through, the tree does not have its shape. -/
theorem not_shaped_of_node (h : Slips d) {path : Path} {n : Node} (hn : node d path = .ok n) :
    ¬ n.Shaped := by
  intro hshaped
  have hinside := ((Node.shaped_iff n).mp hshaped).2
  induction h generalizing path n with
  | here htag hslip =>
    obtain ⟨tag', pos, htag', -, hbuild, hparts⟩ := node_cases hn
    obtain rfl := htag.unique htag'
    obtain hno | ⟨p, hp, hno⟩ := exists_not_proper hbuild hparts hslip
    · exact hno (hshaped [] n (.here n))
    · exact hno (hinside p hp [] p.2 (.here p.2))
  | child htag hr hkey hd hslips ih =>
    obtain ⟨inner, rfl⟩ := entries_of_slips hslips
    -- Exchanging a part for itself tells where the part went.
    obtain ⟨-, m, hm, hsame, -⟩ := node_child hr hkey htag (fun _ _ => rfl) hd hd hn
    obtain ⟨n', hn', -, hpart⟩ := hsame m hm rfl
    obtain rfl : n' = n := Except.ok.inj (hn'.symm.trans hn)
    have hm' := hinside _ hpart
    exact ih hm hm' ((Node.shaped_iff m).mp hm').2
  | item htag hr hitems hmem hslips ih =>
    obtain ⟨before, after, rfl⟩ := List.append_of_mem hmem
    obtain ⟨-, m, hm, hsame, -⟩ := node_item hr htag (fun _ _ => rfl) hitems hitems hn
    obtain ⟨n', hn', -, hpart⟩ := hsame m hm
    obtain rfl : n' = n := Except.ok.inj (hn'.symm.trans hn)
    have hm' := hinside _ hpart
    exact ih hm hm' ((Node.shaped_iff m).mp hm').2

/-! ## Descriptors -/

/-- The tree of a shader is what stands in the descriptor. -/
theorem tree_of_ofDocument {root : List (String × Document)} {shader : Shader}
    (h : ofDocument (.table root) = .ok shader) :
    ∃ d, lookup "ast" root = some d ∧ node d [.key "ast"] = .ok shader.tree := by
  obtain ⟨tree, htree, hrest⟩ := bind_eq_ok.mp h
  unfold child at htree
  split at htree
  · cases htree
    cases hrest
  · rename_i field hfield
    obtain ⟨d, hd, rfl⟩ := eq_of_present hfield
    refine ⟨d, hd, ?_⟩
    have hnode : node d [.key "ast"] = .ok tree := htree
    obtain ⟨inner, rfl⟩ := entries_of_node hnode
    rw [ofDocument_table, child_ast hd, hnode] at h
    simp only [bind, Except.bind] at h
    split at h
    · cases h
    · obtain ⟨rest, -, rfl⟩ := map_eq_ok_iff.mp h
      exact hnode

/-- In the tree of a descriptor all operators are selectors or tokens that are not empty, and all
declared names are identifiers, if and only if nothing slips through. -/
theorem operators_shaped_iff {root : List (String × Document)} {shader : Shader}
    (h : ofDocument (.table root) = .ok shader) :
    shader.tree.Shaped ↔ ∀ d, lookup "ast" root = some d → ¬ Slips d := by
  obtain ⟨d, hd, hnode⟩ := tree_of_ofDocument h
  constructor
  · rintro hshaped d' hd' hslips
    obtain rfl := Option.some.inj (hd.symm.trans hd')
    exact not_shaped_of_node hslips hnode hshaped
  · exact fun h => shaped_of_node hnode (h d hd)

/-- A descriptor whose tree is an operator. -/
def operating (d : Document) : List (String × Document) :=
  [("ast", .table [("type", .text "Operator"), ("operator", d)])]

/-- A descriptor whose tree is one declared variable. -/
def declaring (entries : List (String × Document)) : List (String × Document) :=
  [("ast", .table (("type", .text "DeclaratorItem") :: entries))]

/-- A name by itself. -/
def identifierOf (name : String) : Document :=
  .table [("type", .text "Identifier"), ("name", .text name)]

/-- A token that is not empty has its shape. -/
theorem operators_shaped_iff_plus :
    ∃ shader, ofDocument (.table (operating (.text "+"))) = .ok shader ∧ shader.tree.Shaped := by
  refine ⟨_, rfl, (@operators_shaped_iff (operating (.text "+")) _ rfl).mpr ?_⟩
  rintro d hd hslips
  cases hd
  have htag : HasTag [("type", .text "Operator"), ("operator", .text "+")] .operator :=
    ⟨"Operator", rfl, rfl⟩
  cases hslips with
  | here htag' hslip =>
    obtain rfl := htag.unique htag'
    cases hslip with
    | emptyToken hreads h => exact absurd (Document.text.inj (Option.some.inj h)) (by decide)
    | noSelector h =>
      obtain ⟨inner, tag, hinner, -⟩ := h
      cases hinner
  | child htag' hr hkey hd h =>
    obtain rfl := htag.unique htag'
    cases List.mem_singleton.mp hr
    cases hkey
    cases hd
    cases h
  | item htag' hr =>
    obtain rfl := htag.unique htag'
    cases List.mem_singleton.mp hr

/-- A descriptor is decoded to a tree that does not have its shape. -/
def Misshapen (root : List (String × Document)) : Prop :=
  ∃ shader, ofDocument (.table root) = .ok shader ∧ ¬ shader.tree.Shaped

/-- An empty token, a selector that is a name, a missing name and a name that is an operator are all
taken. -/
theorem decode_takes_misshapen :
    Misshapen (operating (.text "")) ∧ Misshapen (operating (identifierOf "x")) ∧
      Misshapen (declaring []) ∧
      Misshapen (declaring
        [("name", .table [("type", .text "Operator"), ("operator", .text "+")])]) := by
  have hno : ∀ {n : Node}, ¬ n.Proper → ¬ n.Shaped :=
    fun {n} hno hshaped => hno (hshaped [] n (.here n))
  refine ⟨⟨_, rfl, hno (fun h => h rfl)⟩, ⟨_, rfl, hno ?_⟩, ⟨_, rfl, hno ?_⟩, ⟨_, rfl, hno ?_⟩⟩
  all_goals simp [Node.Proper, Operator.Proper, Node.tag?]

end Descriptor

end ShaderScript
