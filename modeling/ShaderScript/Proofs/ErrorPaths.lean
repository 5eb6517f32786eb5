import ShaderScript.Proofs.OperatorShape

/-!
# Where decoding errors point

A descriptor is decoded from the outside in: a table is read entry by entry, a list element by
element, and the first failure ends it all.  `Descriptor.Reached` says which nodes the decoder comes
to, each with the path at which it stands in the descriptor.  If such a node does not decode, its
error is that of the whole descriptor (`Reached.ofDocument_eq`), and the path of the error goes
through the node (`below_node`).  An element of a list of nodes is such a node if all elements
before it decode.

It is the same for the lists of variables, with one exception: an entry that is no variable, or that
has no name, is told by the path of the list alone.
-/

namespace ShaderScript

namespace Descriptor

open Document

variable {α β : Type} {fs : Fields} {path : Path} {pos : Position} {e : DecodeError}
  {entries root : List (String × Document)} {d : Document} {key : String}

/-! ## Errors at a path -/

/-- Whatever fails is told at the path or further inside. -/
def Below (path : Path) (r : Except DecodeError α) : Prop :=
  ∀ e, r = .error e → path <+: e.path

namespace Below

@[simp] theorem ok (a : α) : Below path (.ok a) := fun _ h => by cases h

@[simp] theorem error (cause : DecodeCause) :
    Below path (.error ⟨path, cause⟩ : Except DecodeError α) :=
  fun _ h => by cases h; exact List.prefix_rfl

theorem bind {r : Except DecodeError α} {f : α → Except DecodeError β} (hr : Below path r)
    (hf : ∀ a, Below path (f a)) : Below path (r >>= f) := by
  intro e h
  cases r with
  | error e' => exact hr e (congrArg _ (Except.error.inj h))
  | ok a => exact hf a e h

theorem map {r : Except DecodeError α} (f : α → β) (hr : Below path r) : Below path (r.map f) :=
  fun e h => hr e (map_eq_error_iff.mp h)

theorem mapError {r : Except NumeralError α} (f : NumeralError → DecodeCause) :
    Below path (r.mapError fun e => ⟨path, f e⟩) := by
  cases r with
  | error e => exact .error _
  | ok a => exact .ok a

theorem inside {first : Path} {r : Except DecodeError α} (hr : Below (path ++ first) r) :
    Below path r :=
  fun e h => (List.prefix_append path first).trans (hr e h)

end Below

theorem below_text : Below path (text fs path key) := by
  unfold text
  repeat' split
  all_goals simp

theorem below_texts : Below path (texts fs path key) := by
  have hitems : ∀ items, Below path (textItems path key items) := by
    intro items
    fun_induction textItems path key items with
    | case1 => exact .ok _
    | case2 s rest ih => exact ih.map _
    | case3 => exact .error _
  unfold texts
  repeat' split
  all_goals simp [hitems]

theorem below_boolean : Below path (boolean fs path key) := by
  unfold boolean
  repeat' split
  all_goals simp

theorem below_numberOf (d : Document) : Below path (numberOf path key d) := by
  unfold numberOf
  split
  · exact .mapError _
  · exact .mapError _
  · exact .mapError _
  · exact .error _

theorem below_number : Below path (number fs path key) := by
  unfold number
  split
  · exact .error _
  · exact below_numberOf _

theorem below_position : Below path (position fs path) := by
  unfold position plainNumber
  split
  · exact .ok _
  · split
    · refine .bind ?_ fun line => ?_
      · split
        · exact .error _
        · exact below_numberOf _
      · dsimp only
        split
        · exact .ok _
        · exact .bind (below_numberOf _) fun col => .ok _
    · exact .error _

theorem below_integerLiteral : Below path (integerLiteral fs path pos) := by
  refine .bind below_number fun x => ?_
  dsimp only
  split
  · exact .error _
  · split
    · exact .ok _
    · exact .error _

/-! ## The path of a node -/

/-- Nodes that stand at a key are told by the path of the key. -/
def FieldsBelow (fs : Fields) : Prop :=
  ∀ key field, present fs key = some field → ∀ path, Below path (field.node path) ∧
    Below path (field.nodes path)

theorem below_run (h : FieldsBelow fs) (r : Read) : Below path (r.run fs path pos) := by
  have hnode : ∀ {key field}, present fs key = some field →
      Below path (field.node (path ++ [Segment.key key])) :=
    fun hfield => (h _ _ hfield _).1.inside
  -- Only nested nodes fail deeper than at the field that is read.
  cases r <;> refine .map _ ?_
  case text => exact below_text
  case name => exact below_text.map _
  case texts => exact below_texts
  case boolean => exact below_boolean
  case number => exact below_number
  case integer => exact below_integerLiteral
  case child =>
    unfold child
    split
    · exact .ok _
    · exact hnode ‹_›
  case children =>
    unfold children
    split
    · exact .ok _
    · exact (h _ _ ‹_› _).2.inside
  case operator =>
    unfold operator
    split
    · exact .error _
    · rename_i field hfield
      split
      · exact .ok _
      · split
        · rename_i e he
          exact fun e' h => by cases h; exact hnode hfield e he
        · exact .ok _
        · exact .ok _
        · exact .ok _
        · exact .inside (.error _)
  case ownOperator =>
    unfold ownOperator
    split
    · exact .error _
    · split
      · exact .ok _
      · exact .bind (hnode ‹_›) fun _ => .ok _
  case declaredName =>
    unfold declaredName
    split
    · exact .ok _
    · split
      · exact .ok _
      · exact hnode ‹_›

theorem below_readAll (h : FieldsBelow fs) (rs : List Read) :
    Below path (readAll fs path pos rs) := by
  induction rs with
  | nil => exact .ok _
  | cons r rs ih =>
    intro e he
    rw [readAll] at he
    split at he
    · rename_i hr
      cases he
      exact below_run h r _ hr
    · exact ih.map _ e he

theorem below_nodeOfFields (h : FieldsBelow fs) (path : Path) :
    Below path (nodeOfFields fs path) := by
  refine .bind below_text fun name => ?_
  split
  · exact .error _
  · refine .bind below_position fun pos e he => ?_
    exact below_readAll h _ e (build_eq_error_iff.mp he)

theorem below_eachFrom {f : Nat → Document → Except DecodeError α} {items : List Document} (i : Nat)
    (h : ∀ d ∈ items, ∀ i, Below path (f i d)) : Below path (eachFrom f i items) := by
  induction items generalizing i with
  | nil => exact .ok _
  | cons d rest ih =>
    refine .bind (h d List.mem_cons_self i) fun x => ?_
    exact .bind (ih (i + 1) fun d hd => h d (List.mem_cons_of_mem _ hd)) fun xs => .ok _

/-- The path of an error goes through every node that fails. -/
theorem below_node (d : Document) :
    ∀ path, Below path (node d path) ∧ Below path (nodes d path) := by
  -- By induction on the document: what stands at a key or in a list is smaller.
  induction hsize : sizeOf d using Nat.strongRecOn generalizing d with
  | _ size ih =>
    subst hsize
    intro path
    cases d with
    | table entries =>
      simp only [node, nodes]
      refine ⟨below_nodeOfFields (fun key field hfield => ?_) path, .error _⟩
      obtain ⟨d, hd, rfl⟩ := eq_of_present hfield
      have hsmaller := sizeOf_lt_of_lookup hd
      exact ih _ (by rw [Document.table.sizeOf_spec]; omega) d rfl
    | list items =>
      simp only [node, nodes, nodeItems_eq]
      refine ⟨.error _, below_eachFrom 0 fun d hd i => ?_⟩
      have hsmaller := List.sizeOf_lt_of_mem hd
      exact (ih _ (by rw [Document.list.sizeOf_spec]; omega) d rfl _).1.inside
    | _ =>
      simp only [node, nodes]
      exact ⟨.error _, .error _⟩

/-! ## What the decoder comes to -/

/-- The table at a path is read up to an entry: its tag, its position and all entries that are read
before are fine. -/
def ReadsUpTo (entries : List (String × Document)) (path : Path) (pos : Position) (r : Read) :
    Prop :=
  ∃ tag before after, HasTag entries tag ∧ position (fields entries) path = .ok pos ∧
    reads tag = before ++ r :: after ∧
    ∀ r' ∈ before, ∃ found, r'.run (fields entries) path pos = .ok found

/-- A node fails as the entry does that it is read up to. -/
theorem ReadsUpTo.node_eq {r : Read} (h : ReadsUpTo entries path pos r)
    (hr : r.run (fields entries) path pos = .error e) : node (.table entries) path = .error e := by
  obtain ⟨tag, before, after, ⟨name, hname, htag⟩, hpos, hreads, hbefore⟩ := h
  have hall := build_eq_error_iff.mpr (hreads ▸ readAll_append hbefore hr)
  rw [node_table, nodeOfFields, text, present_fields hname (by simp)]
  simp only [bind, Except.bind, htag, hpos, hall]

/-- The decoder comes to a node of the descriptor `root`: all that it reads before is fine.  An
operator or a declared name may be a text, which is then no node; elsewhere a text is a node that
does not decode. -/
inductive Reached (root : List (String × Document)) : Document → Path → Prop
  | tree {d : Document} (hd : lookup "ast" root = some d) (hnull : d ≠ .null) :
      Reached root d [.key "ast"]
  | child {entries : List (String × Document)} {path : Path} {pos : Position} {r : Read}
      {key : String} {d : Document} (h : Reached root (.table entries) path)
      (hreads : ReadsUpTo entries path pos r) (hkey : r.nodeKey? = some key)
      (hd : lookup key entries = some d) (hnull : d ≠ .null)
      (htext : r = .child key ∨ ∀ s, d ≠ .text s) : Reached root d (path ++ [.key key])
  | element {entries : List (String × Document)} {path : Path} {pos : Position} {key : String}
      {before after : List Document} {d : Document} {ns : List Node}
      (h : Reached root (.table entries) path)
      (hreads : ReadsUpTo entries path pos (.children key))
      (hitems : lookup key entries = some (.list (before ++ d :: after)))
      (hbefore : nodeItems before (path ++ [.key key]) 0 = .ok ns) :
      Reached root d (path ++ [.key key] ++ [.index before.length])

/-- If a node that the decoder comes to does not decode, nor does the descriptor, for the same
reason. -/
theorem Reached.ofDocument_eq (h : Reached root d path) (hfails : node d path = .error e) :
    ofDocument (.table root) = .error e := by
  induction h with
  | tree hd hnull =>
    rw [ofDocument_table, Descriptor.child, present_fields hd hnull]
    simp only [List.nil_append, hfails]
    rfl
  | child h hreads hkey hd hnull htext ih =>
    refine ih (hreads.node_eq ?_)
    have hfield := present_fields hd hnull
    rcases htext with rfl | htext
    · rw [Read.run, Descriptor.child, hfield]
      exact congrArg (Except.map _) hfails
    · exact (decodes_of_nodeKey? hkey hfield htext).fails e hfails
  | element h hreads hitems hbefore ih =>
    refine ih (hreads.node_eq ?_)
    rw [run_children hitems, nodeItems_eq, eachFrom_append, ← nodeItems_eq, hbefore]
    simp only [Nat.zero_add, bind, Except.bind, hfails]
    rfl

/-! ## Variables -/

/-- The decoder comes to an element of a list of variables. -/
structure ReachedVariable (root : List (String × Document)) (key : String)
    (before : List Document) (d : Document) : Prop where
  tree : ∃ tree, child (fields root) [] "ast" = .ok tree ∧ tree.isAbsent = false
  key_mem : ∃ first others, variableKeys = first ++ key :: others ∧
    ∀ k ∈ first, ∃ vs, variableList (fields root) k = .ok vs
  list : ∃ after, lookup key root = some (.list (before ++ d :: after))
  before : ∃ vs, variableItems [.key key] 0 before = .ok vs

theorem ReachedVariable.ofDocument_eq {before : List Document}
    (h : ReachedVariable root key before d)
    (hfails : variableOf [.key key] before.length d = .error e) :
    ofDocument (.table root) = .error e := by
  obtain ⟨⟨tree, htree, habsent⟩, ⟨first, others, hkeys, hfirst⟩, ⟨after, hlist⟩, vs, hvs⟩ := h
  have hitems : variableList (fields root) key = .error e := by
    rw [variableList, present_fields hlist (by simp)]
    simp only [variableItems_eq, eachFrom_append] at hvs ⊢
    rw [hvs]
    simp only [Nat.zero_add, bind, Except.bind, hfails]
  rw [ofDocument_table, htree, surroundings_error hkeys hfirst hitems]
  simp only [bind, Except.bind, habsent]
  rfl

/-- What stands among variables and is no variable, or has no name. -/
def Misplaced : Document → Prop
  | .text _ => False
  | .table entries => (lookup "name" entries).getD .null ∈ [.null, .text ""]
  | _ => True

theorem plainText_cases (entries : List (String × Document)) (path : Path) (key : String) :
    (∃ cause, plainText entries path key = .error ⟨path, cause⟩ ∧
      (lookup key entries).getD .null ∉ [.null, .text ""]) ∨
      ∃ s, plainText entries path key = .ok s ∧
        (s = "" ↔ (lookup key entries).getD .null ∈ [.null, .text ""]) := by
  unfold plainText
  split <;> simp_all

/-- An entry of a list of variables fails at its own path, or at that of the list if it is no
variable or has no name. -/
theorem path_of_variableOf {i : Nat} (h : variableOf path i d = .error e) :
    (¬ Misplaced d ∧ e.path = path ++ [Segment.index i]) ∨ (Misplaced d ∧ e.path = path) := by
  cases d with
  | text s => cases h
  | table entries =>
    rw [variableOf] at h
    -- The name is read first, and the type only if there is a name.
    rcases plainText_cases entries (path ++ [Segment.index i]) "name" with
      ⟨cause, hname, hplaced⟩ | ⟨declared, hname, hempty⟩
    · rw [hname] at h
      cases h
      exact .inl ⟨hplaced, rfl⟩
    · simp only [hname, bind, Except.bind] at h
      split at h
      · rename_i hnone
        cases h
        exact .inr ⟨hempty.mp hnone, rfl⟩
      · rename_i hsome
        refine .inl ⟨fun hmisplaced => hsome (hempty.mpr hmisplaced), ?_⟩
        rcases plainText_cases entries (path ++ [Segment.index i]) "type" with
          ⟨cause, htype, -⟩ | ⟨type, htype, -⟩ <;> rw [htype] at h <;> cases h
        rfl
  | _ =>
    cases h
    exact .inr ⟨trivial, rfl⟩

theorem text_prefix {q : Path} (h : q <+: path) : q.text.toList <+: path.text.toList := by
  obtain ⟨rest, rfl⟩ := h
  simp [Path.text]

/-- Where the error of a descriptor points.  It is the error of every node that the decoder comes to
and that fails, and its path goes through that node; so it goes through the first element of a list
of nodes that does not decode.  It is the error of the first bad entry of a list of variables, and
its path goes through that entry unless it is no variable or has no name: then it stops at the
list. -/
theorem errors_point_at_elements (h : ofDocument (.table root) = .error e) :
    (∀ d path e', Reached root d path → node d path = .error e' → e' = e ∧ path <+: e.path) ∧
    (∀ key before d e', ReachedVariable root key before d →
      variableOf [.key key] before.length d = .error e' →
      e' = e ∧ ([.key key, .index before.length] <+: e.path ↔ ¬ Misplaced d) ∧
        (Misplaced d → e.path = [.key key])) ∧
    ∀ q : Path, q <+: e.path → q.text.toList <+: e.path.text.toList := by
  refine ⟨fun d path e' hreached hfails => ?_, fun key before d e' hreached hfails => ?_,
    fun q => text_prefix⟩
  · obtain rfl : e' = e := Except.error.inj ((hreached.ofDocument_eq hfails).symm.trans h)
    exact ⟨rfl, (below_node d path).1 e' hfails⟩
  · obtain rfl : e' = e := Except.error.inj ((hreached.ofDocument_eq hfails).symm.trans h)
    rcases path_of_variableOf hfails with ⟨hplaced, hpath⟩ | ⟨hmisplaced, hpath⟩
    · exact ⟨rfl, by simp [hplaced, hpath], fun hmisplaced => absurd hmisplaced hplaced⟩
    · refine ⟨rfl, iff_of_false ?_ fun hplaced => hplaced hmisplaced, fun _ => hpath⟩
      rw [hpath]
      intro hlonger
      simpa using hlonger.length_le

/-- Two statements, the second of which has no type. -/
def untypedProgram : List (String × Document) :=
  [("type", .text "Program"), ("statements", .list [identifierOf "x", .table []])]

/-- The error is about the second statement. -/
theorem errors_point_at_elements_statement :
    Reached [("ast", .table untypedProgram)] (.table []) [.key "ast", .key "statements", .index 1] ∧
      ∃ e, ofDocument (.table [("ast", .table untypedProgram)]) = .error e ∧
        [.key "ast", .key "statements", .index 1] <+: e.path := by
  have htree : Reached [("ast", .table untypedProgram)] (.table untypedProgram) [.key "ast"] :=
    .tree rfl (by simp)
  have hreads : ReadsUpTo untypedProgram [.key "ast"] .unknown (.children "statements") :=
    ⟨.program, [], [], ⟨"Program", rfl, rfl⟩, rfl, rfl, by simp⟩
  have hitems : lookup "statements" untypedProgram =
      some (.list ([identifierOf "x"] ++ .table [] :: [])) := rfl
  have hreached := htree.element hreads hitems rfl
  refine ⟨hreached, _, rfl, ?_⟩
  exact ((errors_point_at_elements rfl).1 _ _ _ hreached rfl).2

/-- A uniform without a name: the error points at the list of uniforms and not at its first entry,
which is the bad one. -/
theorem nameless_variable_not_pointed_at :
    ReachedVariable [("ast", .table [("type", .text "Program")]), ("uniforms", .list [.table []])]
        "uniforms" [] (.table []) ∧
      ∃ e, variableOf [.key "uniforms"] 0 (.table []) = .error e ∧
        ofDocument (.table [("ast", .table [("type", .text "Program")]),
          ("uniforms", .list [.table []])]) = .error e ∧
        ¬ [.key "uniforms", .index 0] <+: e.path ∧ e.path.text = "$.uniforms" := by
  refine ⟨⟨⟨_, rfl, rfl⟩, ⟨[], _, rfl, by simp⟩, ⟨[], rfl⟩, ⟨[], rfl⟩⟩, _, rfl, rfl, ?_, ?_⟩
  · decide
  · decide

end Descriptor

end ShaderScript
