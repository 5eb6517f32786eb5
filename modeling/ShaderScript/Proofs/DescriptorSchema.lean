import Mathlib.Data.List.Nodup
import ShaderScript.Proofs.Place
import ShaderScript.Proofs.VariedDocuments

/-!
# The schema of descriptors

`Descriptor.build` reads the entries of a table one after the other, as the tag of the table asks.
`Descriptor.reads` lists what it reads, and `Node.parts` lists the nodes inside a node, each with
the path to where it stood in the table.  `follows_build` says that building a node is nothing but
reading the list: the node has the tag, and its parts are those that were read.

So what a change of one entry does to the node can be told from the one reading that is about the
entry (`nodeOfFields_of_edited`): a node inside a table, a list or a descriptor may be exchanged for
another one.
-/

namespace ShaderScript

/-! ## Parts of nodes -/

/-- A node inside another, with the path to where it stands. -/
abbrev Parts := List (Path × Node)

/-- The node at a key. -/
def Parts.child (key : String) (n : Node) : Parts := [([.key key], n)]

/-- The nodes of a list at a key. -/
def Parts.items (key : String) (ns : List Node) : Parts :=
  ns.mapIdx fun i n => ([.key key, .index i], n)

/-- The node of a selector. -/
def Operator.parts : Operator → Parts
  | .token .. => []
  | .selector _ n => .child "operator" n

/-- What stands at the operator of an expression: the operator as a node, or its selector. -/
def Operator.places (op : Operator) : Parts := .child "operator" (.operator op) ++ op.parts

/-- The nodes right inside a node. -/
def Node.parts : Node → Parts
  | .program _ statements => .items "statements" statements
  | .preprocessor _ _ _ _ _ guarded => .items "guarded_statements" guarded
  | .functionCall _ _ arguments => .items "parameters" arguments
  | .functionPrototype _ _ returnType parameters =>
    .child "returnType" returnType ++ .items "parameters" parameters
  | .functionDeclaration _ _ returnType parameters body =>
    .child "returnType" returnType ++ .items "parameters" parameters ++ .child "body" body
  | .scope _ statements => .items "statements" statements
  | .ifStatement _ condition body otherwise =>
    .child "condition" condition ++ .child "body" body ++ .child "elseBody" otherwise
  | .forStatement _ initializer condition increment body =>
    .child "initializer" initializer ++ .child "condition" condition ++
      .child "increment" increment ++ .child "body" body
  | .whileStatement _ condition body => .child "condition" condition ++ .child "body" body
  | .doStatement _ condition body => .child "condition" condition ++ .child "body" body
  | .returnStatement _ value => .child "value" value
  | .expressionStatement _ expression => .child "expression" expression
  | .declarator _ declaredType items =>
    .child "typeAttribute" declaredType ++ .items "declarators" items
  | .declaratorItem _ name initializer => .child "name" name ++ .child "initializer" initializer
  | .invariant _ identifiers => .items "identifiers" identifiers
  | .parameter _ _ _ _ _ _ arraySize => .child "arraySize" arraySize
  | .structDefinition _ _ _ members declarators =>
    .items "members" members ++ .items "declarators" declarators
  | .operator op => op.parts
  | .postfixExpression _ op expression => op.places ++ .child "expression" expression
  | .unaryExpression _ op expression => op.places ++ .child "expression" expression
  | .binaryExpression _ op left right =>
    op.places ++ .child "left" left ++ .child "right" right
  | .ternaryExpression _ condition whenTrue whenFalse =>
    .child "condition" condition ++ .child "is_true" whenTrue ++ .child "is_false" whenFalse
  | .indexSelector _ index => .child "index" index
  | _ => []

/-- The node at a path inside a node. -/
inductive Node.At : Node → Path → Node → Prop
  | here (n : Node) : At n [] n
  | inside {n m k : Node} {first rest : Path} (hpart : (first, m) ∈ n.parts) (h : At m rest k) :
      At n (first ++ rest) k

/-! ## Readings -/

namespace Descriptor

open Document

/-- One entry of a table, and how it is read. -/
inductive Read
  | text (key : String)
  | name (key : String)
  | texts (key : String)
  | boolean (key : String)
  | number (key : String)
  | integer
  | child (key : String)
  | children (key : String)
  | operator
  | ownOperator
  | declaredName
  deriving DecidableEq

/-- The key of the entry. -/
def Read.key : Read → String
  | .text key => key
  | .name key => key
  | .texts key => key
  | .boolean key => key
  | .number key => key
  | .integer => "value"
  | .child key => key
  | .children key => key
  | .operator => "operator"
  | .ownOperator => "operator"
  | .declaredName => "name"

variable {r : Read} {tag : Tag} {inner root : List (String × Document)}

/-- What a table with a tag is read for, in this order. -/
def reads : Tag → List Read
  | .program => [.children "statements"]
  | .scope => [.children "statements"]
  | .preprocessor =>
    [.text "directive", .text "identifier", .texts "parameters", .text "value",
      .children "guarded_statements"]
  | .macroCall => [.text "macro_name", .texts "parameters"]
  | .functionCall => [.name "function_name", .children "parameters"]
  | .functionPrototype => [.name "name", .child "returnType", .children "parameters"]
  | .functionDeclaration =>
    [.name "name", .child "returnType", .children "parameters", .child "body"]
  | .ifStatement => [.child "condition", .child "body", .child "elseBody"]
  | .forStatement => [.child "initializer", .child "condition", .child "increment", .child "body"]
  | .whileStatement => [.child "condition", .child "body"]
  | .doStatement => [.child "condition", .child "body"]
  | .returnStatement => [.child "value"]
  | .continueStatement => []
  | .breakStatement => []
  | .discardStatement => []
  | .expressionStatement => [.child "expression"]
  | .declarator => [.child "typeAttribute", .children "declarators"]
  | .declaratorItem => [.declaredName, .child "initializer"]
  | .invariant => [.children "identifiers"]
  | .precision => [.text "precision", .text "typeName"]
  | .parameter =>
    [.name "name", .text "type_name", .text "typeQualifier", .text "parameterQualifier",
      .text "precision", .child "arraySize"]
  | .structDefinition => [.text "qualifier", .text "name", .children "members",
      .children "declarators"]
  | .type => [.text "name", .text "precision", .text "qualifier"]
  | .integerLiteral => [.integer]
  | .floatLiteral => [.number "value"]
  | .booleanLiteral => [.boolean "value"]
  | .identifier => [.name "name"]
  | .operator => [.ownOperator]
  | .postfixExpression => [.operator, .child "expression"]
  | .unaryExpression => [.operator, .child "expression"]
  | .binaryExpression => [.operator, .child "left", .child "right"]
  | .ternaryExpression => [.child "condition", .child "is_true", .child "is_false"]
  | .indexSelector => [.child "index"]
  | .fieldSelector => [.text "selection"]

section

variable (fs : Fields) (path : Path) (pos : Position)

/-- The parts that a reading finds. -/
def Read.run : Read → Except DecodeError Parts
  | .text key => (Descriptor.text fs path key).map fun _ => []
  | .name key => (Descriptor.name fs path key).map fun _ => []
  | .texts key => (Descriptor.texts fs path key).map fun _ => []
  | .boolean key => (Descriptor.boolean fs path key).map fun _ => []
  | .number key => (Descriptor.number fs path key).map fun _ => []
  | .integer => (integerLiteral fs path pos).map fun _ => []
  | .child key => (Descriptor.child fs path key).map (Parts.child key)
  | .children key => (Descriptor.children fs path key).map (Parts.items key)
  | .operator => (Descriptor.operator fs path "operator").map Operator.places
  | .ownOperator => (Descriptor.ownOperator fs path pos).map Node.parts
  | .declaredName => (Descriptor.declaredName fs path pos).map (Parts.child "name")

/-- The parts that readings find, one after the other. -/
def readAll : List Read → Except DecodeError Parts
  | [] => .ok []
  | r :: rs =>
    match r.run fs path pos with
    | .error e => .error e
    | .ok found => (readAll rs).map (found ++ ·)

end

section

variable {α : Type} {fs : Fields} {path : Path} {pos : Position} {n : Node} {rs : List Read}
  {parts : Parts} {e : DecodeError}

/-- What is computed from here on is what is left to read. -/
def Follows (fs : Fields) (path : Path) (pos : Position) (tag : Tag) (found : Parts)
    (rest : List Read) (r : Except DecodeError Node) : Prop :=
  r.map (fun n => (n.tag?, n.parts)) =
    (readAll fs path pos rest).map fun parts => (some tag, found ++ parts)

namespace Follows

variable {tag : Tag} {found : Parts} {read : Read} {rest : List Read}

theorem done (htag : n.tag? = some tag) (hparts : n.parts = found) :
    Follows fs path pos tag found [] (.ok n) := by
  simp [Follows, readAll, Except.map, htag, hparts]

theorem step {r : Except DecodeError α} {parts : α → Parts}
    (hread : read.run fs path pos = r.map parts) {f : α → Except DecodeError Node}
    (h : ∀ a, r = .ok a → Follows fs path pos tag (found ++ parts a) rest (f a)) :
    Follows fs path pos tag found (read :: rest) (r >>= f) := by
  unfold Follows
  cases r with
  | error e => rw [readAll, hread]; rfl
  | ok a =>
    have hrest := h a rfl
    unfold Follows at hrest
    rw [readAll, hread]
    show (f a).map _ = _
    rw [hrest]
    cases readAll fs path pos rest with
    | error e => rfl
    | ok more => simp [Except.map]

end Follows

theorem bind_ok (r : Except DecodeError α) : (r >>= fun a => .ok a) = r := by
  cases r <;> rfl

theorem eq_of_integerLiteral (h : integerLiteral fs path pos = .ok n) :
    ∃ i, n = .integerLiteral pos i := by
  obtain ⟨x, -, h⟩ := bind_eq_ok.mp h
  dsimp only at h
  split at h
  · cases h
  · split at h
    · exact ⟨_, (Except.ok.inj h).symm⟩
    · cases h

theorem eq_of_ownOperator (h : ownOperator fs path pos = .ok n) : ∃ op, n = .operator op := by
  unfold ownOperator at h
  split at h
  · cases h
  · split at h
    · exact ⟨_, (Except.ok.inj h).symm⟩
    · obtain ⟨selector, -, h⟩ := bind_eq_ok.mp h
      exact ⟨_, (Except.ok.inj h).symm⟩

/-- Building a node is reading what its tag asks for. -/
theorem follows_build (tag : Tag) :
    Follows fs path pos tag [] (reads tag) (build fs path pos tag) := by
  -- One step for each entry, in the order in which the tag asks for them.
  cases tag with
  | integerLiteral =>
    rw [build, ← bind_ok (integerLiteral fs path pos)]
    refine .step rfl fun n hn => ?_
    obtain ⟨i, rfl⟩ := eq_of_integerLiteral hn
    exact .done rfl rfl
  | operator =>
    rw [build, ← bind_ok (ownOperator fs path pos)]
    refine .step rfl fun n hn => ?_
    obtain ⟨op, rfl⟩ := eq_of_ownOperator hn
    exact .done rfl rfl
  | _ =>
    repeat refine .step rfl fun _ _ => ?_
    exact .done rfl rfl

/-- A node that is built has the parts that are read. -/
theorem parts_of_build (h : build fs path pos tag = .ok n) :
    n.tag? = some tag ∧ readAll fs path pos (reads tag) = .ok n.parts := by
  have hfollows := @follows_build fs path pos tag
  rw [Follows, h] at hfollows
  obtain ⟨parts, hparts, hsame⟩ := map_eq_ok_iff.mp hfollows.symm
  obtain ⟨htag, rfl⟩ := Prod.mk.inj hsame
  exact ⟨htag, hparts⟩

/-- A node is built if everything is read. -/
theorem build_of_readAll (h : readAll fs path pos (reads tag) = .ok parts) :
    ∃ n, build fs path pos tag = .ok n := by
  have hfollows := @follows_build fs path pos tag
  rw [Follows, h] at hfollows
  obtain ⟨n, hn, -⟩ := map_eq_ok_iff.mp hfollows
  exact ⟨n, hn⟩

theorem build_eq_error_iff :
    build fs path pos tag = .error e ↔ readAll fs path pos (reads tag) = .error e := by
  rw [← map_eq_error_iff, follows_build, map_eq_error_iff]

/-! ## All readings -/

theorem readAll_cons (h : readAll fs path pos (r :: rs) = .ok parts) :
    ∃ found more, r.run fs path pos = .ok found ∧ readAll fs path pos rs = .ok more ∧
      parts = found ++ more := by
  rw [readAll] at h
  split at h
  · cases h
  · rename_i found hfirst
    obtain ⟨more, hmore, rfl⟩ := map_eq_ok_iff.mp h
    exact ⟨found, more, hfirst, hmore, rfl⟩

/-- If all is read, each reading has found its parts. -/
theorem run_of_readAll (h : readAll fs path pos rs = .ok parts) (hr : r ∈ rs) :
    ∃ found, r.run fs path pos = .ok found ∧ ∀ p ∈ found, p ∈ parts := by
  induction rs generalizing parts with
  | nil => cases hr
  | cons first rest ih =>
    obtain ⟨found, more, hfirst, hrest, rfl⟩ := readAll_cons h
    rcases List.mem_cons.1 hr with rfl | hr
    · exact ⟨found, hfirst, fun p hp => List.mem_append_left _ hp⟩
    · obtain ⟨found', hrun, hmem⟩ := ih hrest hr
      exact ⟨found', hrun, fun p hp => List.mem_append_right _ (hmem p hp)⟩

theorem readAll_ok (h : ∀ r ∈ rs, ∃ found, r.run fs path pos = .ok found) :
    ∃ parts, readAll fs path pos rs = .ok parts := by
  induction rs with
  | nil => exact ⟨[], rfl⟩
  | cons first rest ih =>
    obtain ⟨found, hfirst⟩ := h first List.mem_cons_self
    obtain ⟨more, hrest⟩ := ih fun r hr => h r (List.mem_cons_of_mem first hr)
    exact ⟨found ++ more, by rw [readAll, hfirst, hrest]; rfl⟩

/-- The first reading that fails ends it all. -/
theorem readAll_append {before after : List Read}
    (hbefore : ∀ r' ∈ before, ∃ found, r'.run fs path pos = .ok found)
    (herror : r.run fs path pos = .error e) :
    readAll fs path pos (before ++ r :: after) = .error e := by
  induction before with
  | nil => rw [List.nil_append, readAll, herror]
  | cons first before ih =>
    obtain ⟨found, hfirst⟩ := hbefore first List.mem_cons_self
    rw [List.cons_append, readAll, hfirst, ih fun r hr => hbefore r (List.mem_cons_of_mem _ hr)]
    rfl

/-- If one reading alone fails, its error is the error of all. -/
theorem readAll_error (hr : r ∈ rs) (herror : r.run fs path pos = .error e)
    (h : ∀ r' ∈ rs, r' ≠ r → ∃ found, r'.run fs path pos = .ok found) :
    readAll fs path pos rs = .error e := by
  obtain ⟨before, after, rfl, hfirst⟩ := List.eq_append_cons_of_mem hr
  refine readAll_append (fun r' hr' => ?_) herror
  exact h r' (List.mem_append_left _ hr') fun heq => hfirst (heq ▸ hr')

/-! ## Changing one entry -/

/-- A reading depends on its entry alone. -/
theorem run_congr {fs' : Fields} (r : Read) (h : lookup r.key fs' = lookup r.key fs) :
    r.run fs' path pos = r.run fs path pos := by
  have hpresent : present fs' r.key = present fs r.key := by rw [present, present, h]
  cases r <;> simp only [Read.key] at h hpresent
  case number key => simp only [Read.run, Descriptor.number, h]
  case integer => simp only [Read.run, integerLiteral, Descriptor.number, h]
  all_goals
    simp only [Read.run, Descriptor.text, Descriptor.name, Descriptor.texts, Descriptor.boolean,
      Descriptor.child, Descriptor.children, Descriptor.operator, ownOperator, declaredName,
      hpresent]

theorem nodup_keys (tag : Tag) : ((reads tag).map Read.key).Nodup := by
  cases tag <;> decide

/-- No two readings of a table are about the same entry. -/
theorem eq_of_key_eq {r' : Read} (hr : r ∈ reads tag) (hr' : r' ∈ reads tag) (h : r'.key = r.key) :
    r' = r :=
  List.inj_on_of_nodup_map (nodup_keys tag) hr' hr h

/-- The tag and the position are not among the readings. -/
theorem key_ne (hr : r ∈ reads tag) : r.key ≠ "type" ∧ r.key ≠ "loc" := by
  have hkeys : ∀ key ∈ (reads tag).map Read.key, key ≠ "type" ∧ key ≠ "loc" := by
    cases tag <;> decide
  exact hkeys r.key (List.mem_map_of_mem hr)

/-- Tables that differ in the entry of one reading. -/
structure Edited (r : Read) (tag : Tag) (fs fs' : Fields) : Prop where
  mem : r ∈ reads tag
  tagged : ∀ path, ∃ name, text fs path "type" = .ok name ∧ Tag.ofName? name = some tag
  others : ∀ key, key ≠ r.key → lookup key fs' = lookup key fs

namespace Edited

variable {r : Read} {tag : Tag} {fs fs' : Fields}

/-- Only the node that is built may differ: the tag and the position are the same. -/
theorem nodeOfFields_eq (h : Edited r tag fs fs') :
    nodeOfFields fs path = (position fs path >>= fun pos => build fs path pos tag) ∧
      nodeOfFields fs' path = (position fs path >>= fun pos => build fs' path pos tag) := by
  obtain ⟨name, hname, htag⟩ := h.tagged path
  obtain ⟨htype, hloc⟩ := key_ne h.mem
  have hname' : text fs' path "type" = .ok name := by
    rw [← hname, text, text, present, present, h.others "type" htype.symm]
  have hposition : position fs' path = position fs path := by
    rw [position, position, present, present, h.others "loc" hloc.symm]
  unfold nodeOfFields
  rw [hname, hname', ← hposition]
  simp only [bind, Except.bind, htag, and_self]

end Edited

/-- If a table describes a node, so does one that differs in an entry which can be read, and the
node has the parts found there.  If the entry cannot be read, nor can the table. -/
theorem nodeOfFields_of_edited {fs' : Fields} (h : Edited r tag fs fs')
    (hn : nodeOfFields fs path = .ok n) :
    n.tag? = some tag ∧ ∃ pos, (∃ found, r.run fs path pos = .ok found) ∧
      (∀ found, r.run fs' path pos = .ok found → ∃ n', nodeOfFields fs' path = .ok n' ∧
        n'.tag? = some tag ∧ ∀ p ∈ found, p ∈ n'.parts) ∧
      ∀ e, r.run fs' path pos = .error e → nodeOfFields fs' path = .error e := by
  obtain ⟨hfs, hfs'⟩ := @Edited.nodeOfFields_eq path r tag fs fs' h
  rw [hfs] at hn
  obtain ⟨pos, hpos, hbuild⟩ := bind_eq_ok.mp hn
  rw [hpos] at hfs'
  obtain ⟨htag, hparts⟩ := parts_of_build hbuild
  -- All other readings succeed as before, so the one of the changed entry decides.
  have hothers : ∀ r' ∈ reads tag, r' ≠ r → ∃ found, r'.run fs' path pos = .ok found := by
    intro r' hr' hne
    obtain ⟨found, hrun, -⟩ := run_of_readAll hparts hr'
    have hkey : r'.key ≠ r.key := fun hkey => hne (eq_of_key_eq h.mem hr' hkey)
    exact ⟨found, by rw [run_congr r' (h.others r'.key hkey), hrun]⟩
  obtain ⟨found₀, hrun₀, -⟩ := run_of_readAll hparts h.mem
  refine ⟨htag, pos, ⟨found₀, hrun₀⟩, fun found hrun => ?_, fun e hrun => ?_⟩
  · obtain ⟨parts, hall⟩ : ∃ parts, readAll fs' path pos (reads tag) = .ok parts := by
      refine readAll_ok fun r' hr' => ?_
      by_cases hr : r' = r
      · exact ⟨found, hr ▸ hrun⟩
      · exact hothers r' hr' hr
    obtain ⟨n', hn'⟩ := build_of_readAll hall
    obtain ⟨htag', hparts'⟩ := parts_of_build hn'
    obtain ⟨found', hrun', hmem⟩ := run_of_readAll hparts' h.mem
    have hfound : found' = found := Except.ok.inj (hrun'.symm.trans hrun)
    exact ⟨n', hfs'.trans hn', htag', hfound ▸ hmem⟩
  · rw [hfs']
    exact build_eq_error_iff.mpr (readAll_error h.mem hrun hothers)

/-! ## Places of nodes -/

/-- The key at which a reading may find one node. -/
def Read.nodeKey? : Read → Option String
  | .child key => some key
  | .operator => some "operator"
  | .ownOperator => some "operator"
  | .declaredName => some "name"
  | _ => none

theorem Read.key_of_nodeKey? {key : String} (h : r.nodeKey? = some key) : r.key = key := by
  cases r <;> simp_all [Read.nodeKey?, Read.key]

/-- The tags of nodes that a reading takes: an operator is an operator node or a selector. -/
def Read.accepts (r : Read) (tag : Option Tag) : Bool :=
  r ≠ .operator || [some .operator, some .indexSelector, some .fieldSelector].contains tag

section Places

variable {r : Read} {key : String} {field : Field}

/-- A reading of an entry does nothing but decode a node, which it takes or refuses by its tag. -/
structure Read.Decodes (r : Read) (fs : Fields) (path : Path) (pos : Position) (key : String)
    (field : Field) : Prop where
  fails : ∀ e, field.node (path ++ [Segment.key key]) = .error e → r.run fs path pos = .error e
  takes : ∀ m, field.node (path ++ [Segment.key key]) = .ok m → r.accepts m.tag? = true →
    ∃ found, r.run fs path pos = .ok found ∧ ([.key key], m) ∈ found
  refuses : ∀ m, field.node (path ++ [Segment.key key]) = .ok m → r.accepts m.tag? = false →
    ∃ e, r.run fs path pos = .error e

theorem decodes_of_nodeKey? (hkey : r.nodeKey? = some key) (hfield : present fs key = some field)
    (hraw : ∀ s, field.raw ≠ .text s) : r.Decodes fs path pos key field := by
  -- All but the operator of an expression take every node.
  have hany : r ≠ .operator →
      r.run fs path pos = (field.node (path ++ [Segment.key key])).map (Parts.child key) →
      r.Decodes fs path pos key field := by
    refine fun hne hrun => ⟨fun e he => by rw [hrun, he]; rfl, fun m hm _ => ?_, fun m hm hno => ?_⟩
    · exact ⟨_, by rw [hrun, hm]; rfl, List.mem_singleton.2 rfl⟩
    · simp [Read.accepts, hne] at hno
  cases r with
  | child key' =>
    obtain rfl : key' = key := Option.some.inj hkey
    refine hany (by simp) ?_
    simp only [Read.run, Descriptor.child, hfield]
  | declaredName =>
    obtain rfl : "name" = key := Option.some.inj hkey
    refine hany (by simp) ?_
    simp only [Read.run, declaredName, hfield]
  | ownOperator =>
    obtain rfl : "operator" = key := Option.some.inj hkey
    refine hany (by simp) ?_
    simp only [Read.run, ownOperator, hfield]
    cases field.node (path ++ [Segment.key "operator"]) <;> rfl
  | operator =>
    obtain rfl : "operator" = key := Option.some.inj hkey
    refine ⟨fun e he => ?_, fun m hm haccepts => ?_, fun m hm hrefuses => ?_⟩
    all_goals simp only [Read.run, Descriptor.operator, *]
    · rfl
    · cases m with
      | operator op => exact ⟨_, rfl, List.mem_append_left _ (List.mem_singleton.2 rfl)⟩
      | indexSelector pos index | fieldSelector pos selection =>
        exact ⟨_, rfl, List.mem_append_right _ (List.mem_singleton.2 rfl)⟩
      | _ => cases haccepts
    · cases m with
      | operator op | indexSelector pos index | fieldSelector pos selection => cases hrefuses
      | _ => exact ⟨_, rfl⟩
  | _ => cases hkey

end Places

end

/-! ## Changing a node inside a descriptor -/

variable {α : Type} {fs : Fields} {e : DecodeError} {entries entries' : List (String × Document)}

/-- A table names its tag. -/
def HasTag (entries : List (String × Document)) (tag : Tag) : Prop :=
  ∃ name, lookup "type" entries = some (.text name) ∧ Tag.ofName? name = some tag

theorem present_fields {key : String} {d : Document} (h : lookup key entries = some d)
    (hnull : d ≠ .null) : present (fields entries) key = some ⟨d, node d, nodes d⟩ := by
  rw [present, lookup_fields, h]
  dsimp only [Option.map_some]
  split
  · exact absurd rfl hnull
  · rfl

/-- What is present was there. -/
theorem eq_of_present {key : String} {field : Field}
    (h : present (fields entries) key = some field) :
    ∃ d, lookup key entries = some d ∧ field = ⟨d, node d, nodes d⟩ := by
  unfold present at h
  rw [lookup_fields] at h
  cases hd : lookup key entries with
  | none => rw [hd] at h; cases h
  | some d =>
    rw [hd] at h
    dsimp only [Option.map_some] at h
    split at h
    · cases h
    · exact ⟨d, rfl, (Option.some.inj h).symm⟩

theorem edited_fields (hr : r ∈ reads tag) (htag : HasTag entries tag)
    (hothers : ∀ key, key ≠ r.key → lookup key entries' = lookup key entries) :
    Edited r tag (fields entries) (fields entries') where
  mem := hr
  tagged path := by
    obtain ⟨name, hname, htag⟩ := htag
    refine ⟨name, ?_, htag⟩
    rw [text, present_fields hname (by simp)]
  others key hkey := by rw [lookup_fields, lookup_fields, hothers key hkey]

section

variable {tag : Tag} {key : String} {path : Path} {n : Node}

theorem node_table (entries : List (String × Document)) (path : Path) :
    node (.table entries) path = nodeOfFields (fields entries) path := by
  rw [node]

theorem hasTag_of_text {name : String} (hname : text (fields entries) path "type" = .ok name)
    (htag : Tag.ofName? name = some tag) : HasTag entries tag := by
  have hfound := tag?_eq_some hname htag
  unfold tag? at hfound
  split at hfound
  · rename_i found hlookup
    exact ⟨found, hlookup, hfound⟩
  · cases hfound

/-- A table that describes a node names the tag of the node, and its parts are what is read. -/
theorem node_cases (h : node (.table entries) path = .ok n) :
    ∃ tag pos, HasTag entries tag ∧ n.tag? = some tag ∧
      build (fields entries) path pos tag = .ok n ∧
      readAll (fields entries) path pos (reads tag) = .ok n.parts := by
  rw [node_table] at h
  obtain ⟨name, hname, h⟩ := bind_eq_ok.mp h
  split at h
  · cases h
  · rename_i tag htag
    obtain ⟨pos, -, hbuild⟩ := bind_eq_ok.mp h
    obtain ⟨htag', hparts⟩ := parts_of_build hbuild
    exact ⟨tag, pos, hasTag_of_text hname htag, htag', hbuild, hparts⟩

/-- A node inside a table may be exchanged for one with the same tag. -/
theorem node_child {inner' : List (String × Document)} (hr : r ∈ reads tag)
    (hkey : r.nodeKey? = some key) (htag : HasTag entries tag)
    (hothers : ∀ k, k ≠ key → lookup k entries' = lookup k entries)
    (hinner : lookup key entries = some (.table inner))
    (hinner' : lookup key entries' = some (.table inner'))
    (hn : node (.table entries) path = .ok n) :
    n.tag? = some tag ∧ ∃ m, node (.table inner) (path ++ [Segment.key key]) = .ok m ∧
      (∀ m', node (.table inner') (path ++ [Segment.key key]) = .ok m' → m'.tag? = m.tag? →
        ∃ n', node (.table entries') path = .ok n' ∧ n'.tag? = some tag ∧
          ([.key key], m') ∈ n'.parts) ∧
      ∀ e, node (.table inner') (path ++ [Segment.key key]) = .error e →
        node (.table entries') path = .error e := by
  have hedited : Edited r tag (fields entries) (fields entries') :=
    edited_fields hr htag (by rw [Read.key_of_nodeKey? hkey]; exact hothers)
  rw [node_table] at hn
  obtain ⟨htag?, pos, ⟨found, hfound⟩, hok, herror⟩ := nodeOfFields_of_edited hedited hn
  refine ⟨htag?, ?_⟩
  have hread : r.Decodes (fields entries) path pos key _ :=
    decodes_of_nodeKey? hkey (present_fields hinner (by simp)) (by simp)
  have hread' : r.Decodes (fields entries') path pos key _ :=
    decodes_of_nodeKey? hkey (present_fields hinner' (by simp)) (by simp)
  cases hm : node (.table inner) (path ++ [Segment.key key]) with
  | error e => rw [hread.fails e hm] at hfound; cases hfound
  | ok m =>
    -- The node was taken before, so a node with its tag is taken too.
    have haccepts : r.accepts m.tag? = true := by
      by_contra hno
      obtain ⟨e, he⟩ := hread.refuses m hm (by simpa using hno)
      rw [he] at hfound
      cases hfound
    refine ⟨m, rfl, fun m' hm' hsame => ?_, fun e he => ?_⟩
    · obtain ⟨found', hfound', hmem⟩ := hread'.takes m' hm' (by rw [hsame, haccepts])
      obtain ⟨n', hn', htag', hparts⟩ := hok found' hfound'
      exact ⟨n', by rw [node_table, hn'], htag', hparts _ hmem⟩
    · rw [node_table]
      exact herror e (hread'.fails e he)

/-- What the elements of a list decode to, counted from `i`; the first failure ends it. -/
def eachFrom {α : Type} (f : Nat → Document → Except DecodeError α) :
    Nat → List Document → Except DecodeError (List α)
  | _, [] => .ok []
  | i, d :: rest => do return (← f i d) :: (← eachFrom f (i + 1) rest)

theorem nodeItems_eq (items : List Document) (path : Path) (i : Nat) :
    nodeItems items path i = eachFrom (fun i d => node d (path ++ [Segment.index i])) i items := by
  induction items generalizing i with
  | nil => rw [nodeItems, eachFrom]
  | cons d rest ih =>
    rw [nodeItems, eachFrom, ih]
    cases node d (path ++ [Segment.index i]) <;> rfl

theorem variableItems_eq (items : List Document) (path : Path) (i : Nat) :
    variableItems path i items = eachFrom (variableOf path) i items := by
  induction items generalizing i with
  | nil => rw [variableItems, eachFrom]
  | cons d rest ih =>
    rw [variableItems, eachFrom, ih]
    cases variableOf path i d <;> rfl

theorem forall₂_of_eachFrom {f : Nat → Document → Except DecodeError α} {i : Nat}
    {items : List Document} {xs : List α} (h : eachFrom f i items = .ok xs) :
    List.Forall₂ (fun d x => ∃ j, f j d = .ok x) items xs := by
  induction items generalizing i xs with
  | nil =>
    cases h
    exact .nil
  | cons d rest ih =>
    obtain ⟨x, hx, h⟩ := bind_eq_ok.mp h
    obtain ⟨ys, hys, h⟩ := bind_eq_ok.mp h
    cases h
    exact .cons ⟨i, hx⟩ (ih hys)

/-- The elements before one are decoded first, and those after it last. -/
theorem eachFrom_append (f : Nat → Document → Except DecodeError α) (i : Nat)
    (before : List Document) (d : Document) (after : List Document) :
    eachFrom f i (before ++ d :: after) = (do
      let xs ← eachFrom f i before
      let x ← f (i + before.length) d
      let ys ← eachFrom f (i + before.length + 1) after
      return xs ++ x :: ys) := by
  induction before generalizing i with
  | nil => rfl
  | cons first before ih =>
    rw [List.cons_append, eachFrom, ih, eachFrom, List.length_cons,
      show i + (before.length + 1) = i + 1 + before.length by omega]
    simp only [bind_assoc, pure_bind, List.cons_append]

/-- An element of a list of nodes may be exchanged for another node. -/
theorem nodeItems_exchange {before after : List Document} {d d' : Document} {i : Nat}
    {ns : List Node} (h : nodeItems (before ++ d :: after) path i = .ok ns) :
    ∃ m, node d (path ++ [Segment.index (i + before.length)]) = .ok m ∧
      (∀ m', node d' (path ++ [Segment.index (i + before.length)]) = .ok m' →
        ∃ ns', nodeItems (before ++ d' :: after) path i = .ok ns' ∧
          ns'[before.length]? = some m') ∧
      ∀ e, node d' (path ++ [Segment.index (i + before.length)]) = .error e →
        nodeItems (before ++ d' :: after) path i = .error e := by
  simp only [nodeItems_eq, eachFrom_append] at h ⊢
  obtain ⟨front, hfront, h⟩ := bind_eq_ok.mp h
  obtain ⟨m, hm, h⟩ := bind_eq_ok.mp h
  obtain ⟨back, hback, -⟩ := bind_eq_ok.mp h
  simp only [hfront, hback]
  refine ⟨m, hm, fun m' hm' => ⟨front ++ m' :: back, by rw [hm']; rfl, ?_⟩, fun e he => ?_⟩
  · simp [(forall₂_of_eachFrom hfront).length_eq]
  · rw [he]
    rfl

theorem run_children {pos : Position} {items : List Document}
    (hitems : lookup key entries = some (.list items)) :
    (Read.children key).run (fields entries) path pos =
      (nodeItems items (path ++ [Segment.key key]) 0).map (Parts.items key) := by
  rw [Read.run, children, present_fields hitems (by simp)]
  simp only [nodes]

/-- A node in a list inside a table may be exchanged for another. -/
theorem node_item {before after : List Document} {d d' : Document}
    (hr : Read.children key ∈ reads tag) (htag : HasTag entries tag)
    (hothers : ∀ k, k ≠ key → lookup k entries' = lookup k entries)
    (hitems : lookup key entries = some (.list (before ++ d :: after)))
    (hitems' : lookup key entries' = some (.list (before ++ d' :: after)))
    (hn : node (.table entries) path = .ok n) :
    n.tag? = some tag ∧ ∃ m, node d (path ++ [Segment.key key, .index before.length]) = .ok m ∧
      (∀ m', node d' (path ++ [Segment.key key, .index before.length]) = .ok m' →
        ∃ n', node (.table entries') path = .ok n' ∧ n'.tag? = some tag ∧
          ([.key key, .index before.length], m') ∈ n'.parts) ∧
      ∀ e, node d' (path ++ [Segment.key key, .index before.length]) = .error e →
        node (.table entries') path = .error e := by
  have hedited : Edited (.children key) tag (fields entries) (fields entries') :=
    edited_fields hr htag hothers
  have hpath : path ++ [Segment.key key, .index before.length] =
      path ++ [Segment.key key] ++ [Segment.index (0 + before.length)] := by simp
  rw [node_table] at hn
  obtain ⟨htag?, pos, ⟨found, hfound⟩, hok, herror⟩ := nodeOfFields_of_edited hedited hn
  refine ⟨htag?, ?_⟩
  rw [run_children hitems] at hfound
  simp only [run_children hitems'] at hok herror
  rw [hpath]
  -- The items around the exchanged one are read as before.
  obtain ⟨ns, hns, -⟩ := map_eq_ok_iff.mp hfound
  obtain ⟨m, hm, hitem, hfail⟩ := @nodeItems_exchange _ before after d d' 0 ns hns
  refine ⟨m, hm, fun m' hm' => ?_, fun e he => ?_⟩
  · obtain ⟨ns', hns', hget⟩ := hitem m' hm'
    obtain ⟨n', hn', htag', hparts⟩ := hok _ (by rw [hns']; rfl)
    refine ⟨n', by rw [node_table, hn'], htag', hparts _ ?_⟩
    apply List.mem_of_getElem? (i := before.length)
    simp [Parts.items, hget]
  · rw [node_table]
    exact herror e (by rw [hfail e he]; rfl)

end

/-! ## Descriptors -/

/-- What a descriptor says besides its tree. -/
def surroundings (fs : Fields) : Except DecodeError Shader := do
  let uniforms ← variableList fs "uniforms"
  let varyings ← variableList fs "varyings"
  let attributes ← variableList fs "attributes"
  let trap ← boolean fs [] "debugTrap"
  let alsoTrap ← boolean fs [] "shouldEmitDebuggerStatement"
  return { tree := .absent, uniforms, varyings, attributes, debugTrap := trap || alsoTrap }

/-- The lists of variables in the order in which they are read. -/
def variableKeys : List String := ["uniforms", "varyings", "attributes"]

theorem variableList_of_surroundings {shader : Shader} (h : surroundings fs = .ok shader) :
    ∀ key ∈ variableKeys, ∃ vs, variableList fs key = .ok vs := by
  obtain ⟨uniforms, huniforms, h⟩ := bind_eq_ok.mp h
  obtain ⟨varyings, hvaryings, h⟩ := bind_eq_ok.mp h
  obtain ⟨attributes, hattributes, -⟩ := bind_eq_ok.mp h
  simp [variableKeys, huniforms, hvaryings, hattributes]

/-- The first list of variables that fails decides. -/
theorem surroundings_error {before after : List String} {key : String}
    (hkeys : variableKeys = before ++ key :: after)
    (hbefore : ∀ k ∈ before, ∃ vs, variableList fs k = .ok vs)
    (h : variableList fs key = .error e) : surroundings fs = .error e := by
  rw [surroundings]
  rcases before with _ | ⟨k₁, _ | ⟨k₂, _ | ⟨k₃, more⟩⟩⟩ <;>
    simp only [variableKeys, List.nil_append, List.cons_append, List.cons.injEq] at hkeys
  · obtain ⟨rfl, -⟩ := hkeys
    rw [h]
    rfl
  · obtain ⟨rfl, rfl, -⟩ := hkeys
    obtain ⟨uniforms, huniforms⟩ := hbefore "uniforms" (by simp)
    rw [huniforms, h]
    rfl
  · obtain ⟨rfl, rfl, rfl, -⟩ := hkeys
    obtain ⟨uniforms, huniforms⟩ := hbefore "uniforms" (by simp)
    obtain ⟨varyings, hvaryings⟩ := hbefore "varyings" (by simp)
    rw [huniforms, hvaryings, h]
    rfl
  · have hempty := hkeys.2.2.2
    simp at hempty

theorem surroundings_congr {root' : List (String × Document)}
    (hothers : ∀ key, key ≠ "ast" → lookup key root' = lookup key root) :
    surroundings (fields root') = surroundings (fields root) := by
  have hpresent : ∀ key, key ≠ "ast" → present (fields root') key = present (fields root) key := by
    intro key hkey
    rw [present, present, lookup_fields, lookup_fields, hothers key hkey]
  simp (disch := decide) only [surroundings, variableList, boolean, hpresent]

/-- The tree of a descriptor is read first, and the rest does not look at it. -/
theorem ofDocument_table (root : List (String × Document)) :
    ofDocument (.table root) =
      (child (fields root) [] "ast" >>= fun tree =>
        if tree.isAbsent = true then .error ⟨[.key "ast"], .missingTree⟩
        else (surroundings (fields root)).map fun shader => { shader with tree := tree }) := by
  rw [ofDocument]
  refine congrArg _ (funext fun tree => ?_)
  by_cases habsent : tree.isAbsent = true
  · rw [if_pos habsent, if_pos habsent]
    rfl
  · -- The tree is put in at the end.
    rw [if_neg habsent, if_neg habsent]
    change _ = (fun shader : Shader => { shader with tree := tree }) <$> surroundings (fields root)
    simp only [surroundings, map_bind, map_pure]

theorem child_ast (htree : lookup "ast" root = some (.table inner)) :
    child (fields root) [] "ast" = node (.table inner) [.key "ast"] := by
  rw [child, present_fields htree (by simp)]
  rfl

/-- The tree of a descriptor may be exchanged for one with the same tag. -/
theorem ofDocument_tree {root' inner' : List (String × Document)} {shader : Shader}
    (htree : lookup "ast" root = some (.table inner))
    (htree' : lookup "ast" root' = some (.table inner'))
    (hothers : ∀ key, key ≠ "ast" → lookup key root' = lookup key root)
    (h : ofDocument (.table root) = .ok shader) :
    ∃ n, node (.table inner) [.key "ast"] = .ok n ∧
      (∀ n', node (.table inner') [.key "ast"] = .ok n' → n'.tag? = n.tag? →
        ofDocument (.table root') = .ok { shader with tree := n' }) ∧
      ∀ e, node (.table inner') [.key "ast"] = .error e → ofDocument (.table root') = .error e := by
  have habsent : ∀ n : Node, n.isAbsent = true ↔ n.tag? = none := by
    intro n
    cases n <;> simp [Node.isAbsent, Node.tag?]
  rw [ofDocument_table, child_ast htree] at h
  rw [ofDocument_table, child_ast htree', surroundings_congr hothers]
  obtain ⟨n, hn, h⟩ := bind_eq_ok.mp h
  simp only [habsent] at h ⊢
  split at h
  · cases h
  · rename_i htag
    obtain ⟨rest, hrest, rfl⟩ := map_eq_ok_iff.mp h
    refine ⟨n, hn, fun n' hn' hsame => ?_, fun e he => by rw [he]; rfl⟩
    rw [hn', hrest]
    exact if_neg (hsame ▸ htag)

end Descriptor

end ShaderScript
