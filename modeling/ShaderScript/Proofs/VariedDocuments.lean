import Mathlib.Data.List.Forall2
import ShaderScript.Syntax.Descriptor

/-!
# Descriptors that say the same

A descriptor can be written in several ways.  A number comes in another form in each file format, a
few numbers may be spelled as texts, and a name may be spelled with different characters that have
one normal form.  `Document.Varied` relates documents that differ in such ways only.  What
stands at a place decides which of them do not matter there: its `Role` tells what a number is for,
and its `Part` which texts are names.

Every reader of the decoder takes varied tables to the same outcome: the same value, or errors at
the same path (`SameOutcome`), and even the same errors if numbers keep their forms.  The proof
follows the readers up to `node_varied`, by induction on the documents.
-/

namespace ShaderScript

variable {α : Type}

namespace Document

/-! ## Places -/

/-- What a number in a document is for. -/
inductive Role
  | any
  /-- It is read as a number, and may be spelled as a text. -/
  | numeral
  /-- It is a part of a position. -/
  | location
  deriving DecidableEq

/-- Whether a table describes a literal. -/
def isLiteral (entries : List (String × Document)) : Bool :=
  match lookup "type" entries with
  | some (.text name) =>
    [some Tag.integerLiteral, some .floatLiteral, some .booleanLiteral].contains (Tag.ofName? name)
  | _ => false

/-- The role of an entry of a table. -/
def Role.within (role : Role) (entries : List (String × Document)) (key : String) : Role :=
  if key = "loc" then .location
  else if role = .location ∧ (key = "line" ∨ key = "col") then .numeral
  else if key = "value" ∧ isLiteral entries then .numeral
  else .any

/-- The number of a document that may be spelled as a text. -/
def numeral? : Document → Option (Except NumeralError Float)
  | .number value => some value.toFloat
  | .text digits => some (Numeral.read digits)
  | _ => none

/-- What is at a place of a descriptor. -/
inductive Part
  | descriptor
  /-- A list of variables. -/
  | globals
  /-- A variable: its name, or a table. -/
  | entry
  | name
  /-- A node, a list of nodes, or a value that is no name. -/
  | plain
  deriving DecidableEq

/-- The key under which a node has a name. -/
def nameKey? : Tag → Option String
  | .identifier => some "name"
  | .parameter => some "name"
  | .functionDeclaration => some "name"
  | .functionPrototype => some "name"
  | .declaratorItem => some "name"
  | .functionCall => some "function_name"
  | _ => none

/-- The tag of a node, from the entries of its table. -/
def tag? (entries : List (String × Document)) : Option Tag :=
  match lookup "type" entries with
  | some (.text name) => Tag.ofName? name
  | _ => none

namespace Part

/-- What is under a key of a table. -/
def under (part : Part) (entries : List (String × Document)) (key : String) : Part :=
  match part with
  | descriptor => if key ∈ ["uniforms", "varyings", "attributes"] then globals else plain
  | entry => if key = "name" then name else plain
  | _ => if (tag? entries).bind nameKey? = some key then name else plain

/-- What the elements of a list are. -/
def item : Part → Part
  | globals => entry
  | _ => plain

/-- Whether a node can be there. -/
def IsNode (part : Part) : Prop := part = plain ∨ part = name

end Part

section Places

variable {role : Role} {part : Part} {entries : List (String × Document)} {key : String} {tag : Tag}

theorem Role.within_eq_any (h : key ∉ ["loc", "value", "line", "col"]) :
    role.within entries key = .any := by
  simp only [List.mem_cons, List.not_mem_nil, or_false, not_or] at h
  rw [within, if_neg h.1, if_neg (by tauto), if_neg (by tauto)]

/-- A value is read as a number if the tag of its table is that of a literal. -/
theorem Role.mem_of_within (h : role.within entries "value" ≠ .any)
    (htag : tag? entries = some tag) :
    tag ∈ [Tag.integerLiteral, .floatLiteral, .booleanLiteral] := by
  have hliteral : isLiteral entries = true := by
    by_contra hno
    simp [within, hno] at h
  unfold tag? at htag
  unfold isLiteral at hliteral
  split at hliteral
  · rename_i hname
    rw [hname] at htag
    dsimp only at htag
    rw [htag] at hliteral
    simpa using hliteral
  · cases hliteral

/-- Only nodes have names here. -/
theorem Part.under_isNode (h : part.IsNode) (entries : List (String × Document)) (key : String) :
    (part.under entries key).IsNode := by
  rcases h with rfl | rfl <;> unfold under <;> dsimp only <;> split <;> simp [IsNode]

theorem Part.under_ne_globals (h : part.IsNode) (key : String) :
    part.under entries key ≠ .globals := by
  intro hglobals
  have hnode := under_isNode h entries key
  rw [hglobals] at hnode
  simp [IsNode] at hnode

theorem Part.under_eq_plain (h : part.IsNode) (hkey : (tag? entries).bind nameKey? ≠ some key) :
    part.under entries key = .plain := by
  rcases h with rfl | rfl
  · exact if_neg hkey
  · exact if_neg hkey

/-- Whatever the tag, there is no name under another key. -/
theorem Part.under_eq_plain_of_not_mem (h : part.IsNode) (hkey : key ∉ ["name", "function_name"]) :
    part.under entries key = .plain := by
  refine under_eq_plain h fun hname => ?_
  obtain ⟨tag, -, htag⟩ := Option.bind_eq_some_iff.1 hname
  apply hkey
  unfold nameKey? at htag
  split at htag <;> simp_all

end Places

/-- A spelling of a number is a number or a text. -/
theorem eq_of_numeral? {d : Document} {value : Except NumeralError Float}
    (h : d.numeral? = some value) : (∃ q, d = .number q) ∨ ∃ s, d = .text s := by
  cases d with
  | number q => exact .inl ⟨q, rfl⟩
  | text s => exact .inr ⟨s, rfl⟩
  | _ => cases h

theorem lookup_map {β : Type} (f : α → β) (key : String) (entries : List (String × α)) :
    lookup key (entries.map fun e => (e.1, f e.2)) = (lookup key entries).map f := by
  induction entries with
  | nil => rfl
  | cons e rest ih =>
    rw [List.map_cons, lookup, lookup, ih]
    cases lookup key rest with
    | some => rfl
    | none =>
      by_cases hkey : e.1 = key
      · simp [hkey]
      · simp [hkey]

/-- Lists with the same keys in the same order. -/
theorem lookup_of_forall₂ {R : String → α → α → Prop} {entries entries' : List (String × α)}
    (h : List.Forall₂ (fun e e' => e.1 = e'.1 ∧ R e.1 e.2 e'.2) entries entries') (key : String) :
    Option.Rel (R key) (lookup key entries) (lookup key entries') := by
  induction h with
  | nil => exact .none
  | @cons e e' rest rest' hfirst _ ih =>
    obtain ⟨hkey, hvalue⟩ := hfirst
    rw [lookup, lookup]
    generalize lookup key rest = found at ih ⊢
    generalize lookup key rest' = found' at ih ⊢
    cases ih with
    | some hlater => exact .some hlater
    | none =>
      by_cases hk : e.1 = key
      · simpa [hk, ← hkey] using hk ▸ hvalue
      · simp [hk, ← hkey]

/-- The entries of such lists, key by key. -/
theorem lookup_agree {R : String → α → α → Prop} {entries entries' : List (String × α)}
    (h : List.Forall₂ (fun e e' => e.1 = e'.1 ∧ R e.1 e.2 e'.2) entries entries') :
    (∀ key, (lookup key entries).isSome = (lookup key entries').isSome) ∧
      ∀ key a a', lookup key entries = some a → lookup key entries' = some a' → R key a a' := by
  refine ⟨fun key => ?_, fun key a a' ha ha' => ?_⟩
  · have hboth := lookup_of_forall₂ h key
    generalize lookup key entries = found at hboth ⊢
    generalize lookup key entries' = found' at hboth ⊢
    cases hboth with
    | none | some => rfl
  · have hboth := lookup_of_forall₂ h key
    rw [ha, ha'] at hboth
    cases hboth with
    | some hrel => exact hrel

variable {entries entries' : List (String × Document)} {items items' : List Document}

/-- The entries of tables that have the same keys, key by key. -/
theorem lookup_rel (hkeys : ∀ key, (lookup key entries).isSome = (lookup key entries').isSome)
    {R : String → Document → Document → Prop}
    (h : ∀ key d d', lookup key entries = some d → lookup key entries' = some d' → R key d d')
    (key : String) : Option.Rel (R key) (lookup key entries) (lookup key entries') := by
  have hboth := hkeys key
  cases hfound : lookup key entries with
  | none =>
    cases hfound' : lookup key entries' with
    | none => exact .none
    | some d' => simp [hfound, hfound'] at hboth
  | some d =>
    cases hfound' : lookup key entries' with
    | none => simp [hfound, hfound'] at hboth
    | some d' => exact .some (h key d d' hfound hfound')

theorem forall₂_of_getElem? {R : Document → Document → Prop}
    (hlength : items.length = items'.length)
    (h : ∀ (i : Nat) (d d' : Document), items[i]? = some d → items'[i]? = some d' → R d d') :
    List.Forall₂ R items items' := by
  refine List.forall₂_iff_get.2 ⟨hlength, fun i hi hi' => ?_⟩
  exact h i _ _ (List.getElem?_eq_getElem hi) (List.getElem?_eq_getElem hi')

/-! ## Varied documents -/

variable [NormalForm]

/-- Documents that differ in the forms of their numbers, unless `exact`, and in how names are spelt.
Lists are compared by their elements and tables by the values of their keys. -/
inductive Varied (exact : Bool) : Role → Part → Document → Document → Prop
  | same {role : Role} {part : Part} (d : Document) : Varied exact role part d d
  | number {role : Role} {part : Part} (hexact : exact = false) {value value' : Quantity}
      (h : value.toFloat = value'.toFloat) :
      Varied exact role part (.number value) (.number value')
  | numeral {part : Part} (hexact : exact = false) {d d' : Document}
      {value : Except NumeralError Float} (h : d.numeral? = some value)
      (h' : d'.numeral? = some value) : Varied exact .numeral part d d'
  | name {role : Role} {s s' : String} (h : NormalForm.normal s = NormalForm.normal s')
      (hempty : s = "" ↔ s' = "") : Varied exact role .name (.text s) (.text s')
  | entry {role : Role} {s s' : String} (h : NormalForm.normal s = NormalForm.normal s') :
      Varied exact role .entry (.text s) (.text s')
  | list {role : Role} {part : Part} {items items' : List Document}
      (hlength : items.length = items'.length)
      (h : ∀ (i : Nat) (d d' : Document), items[i]? = some d → items'[i]? = some d' →
        Varied exact .any part.item d d') :
      Varied exact role part (.list items) (.list items')
  | table {role : Role} {part : Part} {entries entries' : List (String × Document)}
      (hkeys : ∀ key, (lookup key entries).isSome = (lookup key entries').isSome)
      (h : ∀ key d d', lookup key entries = some d → lookup key entries' = some d' →
        Varied exact (role.within entries key) (part.under entries key) d d') :
      Varied exact role part (.table entries) (.table entries')

theorem Varied.eq_null_iff {exact : Bool} {role : Role} {part : Part} {d d' : Document}
    (h : Varied exact role part d d') : d = .null ↔ d' = .null := by
  cases h with
  | same => rfl
  | numeral _ h h' =>
    constructor
    · rintro rfl
      cases h
    · rintro rfl
      cases h'
  | _ => simp

end Document

namespace Descriptor

open Document

variable {exact : Bool} {role : Role} {part : Part} {d d' : Document} {items items' : List Document}
  {entries entries' : List (String × Document)} {key : String}

/-! ## Outcomes -/

/-- What counts of an error: its path, and its cause if that is asked for. -/
def seen (exact : Bool) (e : DecodeError) : Path × Option DecodeCause :=
  (e.path, if exact then some e.cause else none)

/-- The same value, or errors in which the same counts. -/
def SameOutcome {α : Type} (exact : Bool) (r r' : Except DecodeError α) : Prop :=
  r.mapError (seen exact) = r'.mapError (seen exact)

theorem mapError_bind {ε ε' β : Type} (g : ε → ε') (r : Except ε α) (f : α → Except ε β) :
    (r >>= f).mapError g = r.mapError g >>= fun a => (f a).mapError g := by
  cases r <;> rfl

namespace SameOutcome

variable {β : Type} {r r' : Except DecodeError α}

theorem ok (a : α) : SameOutcome exact (.ok a : Except DecodeError α) (.ok a) := rfl

theorem error {e e' : DecodeError} (h : seen exact e = seen exact e') :
    SameOutcome exact (.error e : Except DecodeError α) (.error e') := congrArg Except.error h

/-- Errors at one path, where only that counts. -/
theorem lax (hexact : exact = false) {e e' : DecodeError} (h : e.path = e'.path) :
    SameOutcome exact (.error e : Except DecodeError α) (.error e') := by
  subst hexact
  exact error (congrArg (·, none) h)

theorem refl (r : Except DecodeError α) : SameOutcome exact r r := rfl

theorem cases_seen (h : SameOutcome exact r r') : (∃ a, r = .ok a ∧ r' = .ok a) ∨
    ∃ e e', r = .error e ∧ r' = .error e' ∧ seen exact e = seen exact e' := by
  cases r with
  | ok a =>
    cases r' with
    | ok a' => exact .inl ⟨a, rfl, congrArg Except.ok (Except.ok.inj h).symm⟩
    | error e' => cases h
  | error e =>
    cases r' with
    | ok a' => cases h
    | error e' => exact .inr ⟨e, e', rfl, rfl, Except.error.inj h⟩

theorem cases_eq (h : SameOutcome exact r r') : (∃ a, r = .ok a ∧ r' = .ok a) ∨
    ∃ e e', r = .error e ∧ r' = .error e' ∧ e.path = e'.path := by
  refine h.cases_seen.imp_right ?_
  rintro ⟨e, e', he, he', hseen⟩
  exact ⟨e, e', he, he', congrArg Prod.fst hseen⟩

/-- Where causes count, nothing differs. -/
theorem eq (h : SameOutcome true r r') : r = r' := by
  obtain ⟨a, rfl, rfl⟩ | ⟨⟨path, cause⟩, ⟨path', cause'⟩, rfl, rfl, hseen⟩ := h.cases_seen
  · rfl
  · cases hseen
    rfl

theorem bind_of_ok (h : SameOutcome exact r r') {f f' : α → Except DecodeError β}
    (hf : ∀ a, r = .ok a → SameOutcome exact (f a) (f' a)) :
    SameOutcome exact (r >>= f) (r' >>= f') := by
  obtain ⟨a, rfl, rfl⟩ | ⟨e, e', rfl, rfl, he⟩ := h.cases_seen
  · exact hf a rfl
  · exact .error he

theorem bind (h : SameOutcome exact r r') {f f' : α → Except DecodeError β}
    (hf : ∀ a, SameOutcome exact (f a) (f' a)) : SameOutcome exact (r >>= f) (r' >>= f') :=
  h.bind_of_ok fun a _ => hf a

theorem map (h : SameOutcome exact r r') (f : α → β) : SameOutcome exact (r.map f) (r'.map f) :=
  h.bind fun a => .ok (f a)

end SameOutcome

/-! ## Readers -/

/-- What a number is read as depends on what it denotes; a failure is at the path of its table. -/
theorem numberOf_eq (path : Path) (key : String) (d : Document) :
    (∃ x, d.numeral? = some (.ok x) ∧ numberOf path key d = .ok x) ∨
      (∀ x, d.numeral? ≠ some (.ok x)) ∧ ∃ cause, numberOf path key d = .error ⟨path, cause⟩ := by
  -- A number and a text are read by the same rule.
  have hread : ∀ (r : Except NumeralError Float) (cause : NumeralError → DecodeCause),
      (∃ x, some r = some (.ok x) ∧
          r.mapError (fun e => (⟨path, cause e⟩ : DecodeError)) = .ok x) ∨
        (∀ x, some r ≠ some (.ok x)) ∧
          ∃ c, r.mapError (fun e => (⟨path, cause e⟩ : DecodeError)) = .error ⟨path, c⟩ := by
    intro r cause
    cases r with
    | ok x => exact .inl ⟨x, rfl, rfl⟩
    | error e => exact .inr ⟨by simp, _, rfl⟩
  cases d with
  | number value =>
    cases value with
    | decimal digits => exact hread _ _
    | integer form i => exact hread (.ok _) (.numeral "")
    | single x | double x => exact hread (.ok x) (.numeral "")
  | text digits => exact hread _ _
  | _ => exact .inr ⟨by simp [numeral?], _, rfl⟩

theorem numberOf_same (hexact : exact = false) (hsame : d.numeral? = d'.numeral?) (path : Path)
    (key : String) : SameOutcome exact (numberOf path key d) (numberOf path key d') := by
  rcases numberOf_eq path key d with ⟨x, hx, hd⟩ | ⟨hno, cause, hd⟩ <;>
    rcases numberOf_eq path key d' with ⟨x', hx', hd'⟩ | ⟨hno', cause', hd'⟩
  · have hvalue : x = x' := by simpa [hx, hx'] using hsame
    rw [hd, hd', hvalue]
    exact .ok x'
  · exact absurd (hsame.symm.trans hx) (hno' x)
  · exact absurd (hsame.trans hx') (hno x')
  · rw [hd, hd']
    exact .lax hexact rfl

variable [NormalForm]

/-- Entries that are varied, and decode to the same where they are nodes. -/
structure FieldVaried (exact : Bool) (role : Role) (part : Part) (field field' : Field) : Prop where
  raw : Varied exact role part field.raw field'.raw
  node : part ≠ .globals → ∀ path, SameOutcome exact (field.node path) (field'.node path)
  nodes : part ≠ .globals → ∀ path, SameOutcome exact (field.nodes path) (field'.nodes path)

/-- Tables whose entries are varied, each at its place. -/
def FieldsVaried (exact : Bool) (roles : String → Role) (parts : String → Part) (fs fs' : Fields) :
    Prop :=
  ∀ key, Option.Rel (FieldVaried exact (roles key) (parts key)) (lookup key fs) (lookup key fs')

theorem numberOf_varied (h : Varied exact role .plain d d') (path : Path) (key : String) :
    SameOutcome exact (numberOf path key d) (numberOf path key d') := by
  cases h with
  | number hexact h =>
    refine numberOf_same hexact ?_ path key
    exact congrArg some h
  | numeral hexact h h' => exact numberOf_same hexact (h.trans h'.symm) path key
  | same | list | table => exact .refl _

theorem textItems_varied (h : List.Forall₂ (Varied exact .any .plain) items items') (path : Path)
    (key : String) : SameOutcome exact (textItems path key items) (textItems path key items') := by
  induction h with
  | nil => exact .ok []
  | @cons d _ _ _ hfirst _ ih =>
    cases hfirst with
    | same =>
      cases d with
      | text s => exact ih.map (s :: ·)
      | _ => exact .refl _
    | number hexact => exact .lax hexact rfl
    | list | table => exact .refl _

section Readers

variable {roles : String → Role} {parts : String → Part} {fs fs' : Fields}
  (h : FieldsVaried exact roles parts fs fs') (path : Path)

include h

/-- An entry is missing in both tables, or varied in both. -/
@[elab_as_elim]
theorem present_varied {motive : Option Field → Option Field → Prop} (key : String)
    (hnone : motive none none)
    (hsome : ∀ raw raw' {node node' nodes nodes'}, Varied exact (roles key) (parts key) raw raw' →
      (parts key ≠ .globals → ∀ path, SameOutcome exact (node path) (node' path)) →
      (parts key ≠ .globals → ∀ path, SameOutcome exact (nodes path) (nodes' path)) →
      motive (some ⟨raw, node, nodes⟩) (some ⟨raw', node', nodes'⟩)) :
    motive (present fs key) (present fs' key) := by
  have hlookup := h key
  unfold present
  generalize lookup key fs = found at hlookup ⊢
  generalize lookup key fs' = found' at hlookup ⊢
  cases hlookup with
  | none => exact hnone
  | @some field field' hfield =>
    -- Null counts as missing, and varies to null only.
    have hnull := hfield.raw.eq_null_iff
    dsimp only
    split
    · rename_i hraw
      rw [hnull.1 hraw]
      exact hnone
    · rename_i hraw
      split
      · rename_i hraw'
        exact absurd (hnull.2 hraw') hraw
      · exact hsome _ _ hfield.raw hfield.node hfield.nodes

/-- The same, where neither numbers nor names may be spelled in other ways. -/
@[elab_as_elim]
theorem present_plain {motive : Option Field → Option Field → Prop} (hrole : roles key = .any)
    (hpart : parts key = .plain) (hnone : motive none none)
    (hsome : ∀ raw raw' {node node' nodes nodes'}, Varied exact .any .plain raw raw' →
      (∀ path, SameOutcome exact (node path) (node' path)) →
      motive (some ⟨raw, node, nodes⟩) (some ⟨raw', node', nodes'⟩)) :
    motive (present fs key) (present fs' key) := by
  refine present_varied h key hnone fun raw raw' _ _ _ _ hraw hnode _ => ?_
  rw [hrole, hpart] at hraw
  exact hsome raw raw' hraw (hnode (by rw [hpart]; decide))

theorem text_varied (hrole : roles key = .any) (hpart : parts key = .plain) :
    SameOutcome exact (text fs path key) (text fs' path key) := by
  unfold text
  refine present_plain h hrole hpart (.ok "") fun _ _ _ _ _ _ hraw _ => ?_
  cases hraw with
  | number hexact => exact .lax hexact rfl
  | same | list | table => exact .refl _

/-- A name is seen in its normal form only. -/
theorem name_varied (hrole : roles key = .any) :
    SameOutcome exact (name fs path key) (name fs' path key) := by
  unfold name text
  refine present_varied h key (.ok _) fun _ _ _ _ _ _ hraw _ _ => ?_
  rw [hrole] at hraw
  generalize parts key = part at hraw
  cases hraw with
  | number hexact => exact .lax hexact rfl
  | name hname | entry hname => exact congrArg Except.ok hname
  | same | list | table => exact .refl _

theorem texts_varied (hrole : roles key = .any) (hpart : parts key = .plain) :
    SameOutcome exact (texts fs path key) (texts fs' path key) := by
  unfold texts
  refine present_plain h hrole hpart (.ok []) fun _ _ _ _ _ _ hraw _ => ?_
  cases hraw with
  | number hexact => exact .lax hexact rfl
  | same | table => exact .refl _
  | list hlength hitems => exact textItems_varied (forall₂_of_getElem? hlength hitems) path key

/-- No spelling of a number is a truth value. -/
theorem boolean_varied (hpart : parts key = .plain) :
    SameOutcome exact (boolean fs path key) (boolean fs' path key) := by
  unfold boolean
  refine present_varied h key (.ok false) fun _ _ _ _ _ _ hraw _ _ => ?_
  rw [hpart] at hraw
  generalize roles key = role at hraw
  cases hraw with
  | number hexact => exact .lax hexact rfl
  | numeral hexact hvalue hvalue' =>
    rcases eq_of_numeral? hvalue with ⟨q, rfl⟩ | ⟨s, rfl⟩ <;>
      rcases eq_of_numeral? hvalue' with ⟨q', rfl⟩ | ⟨s', rfl⟩ <;> exact .lax hexact rfl
  | same | list | table => exact .refl _

theorem number_varied (hpart : parts key = .plain) :
    SameOutcome exact (number fs path key) (number fs' path key) := by
  have hlookup := h key
  rw [hpart] at hlookup
  unfold number
  generalize lookup key fs = found at hlookup ⊢
  generalize lookup key fs' = found' at hlookup ⊢
  cases hlookup with
  | none => exact .refl _
  | some hfield => exact numberOf_varied hfield.raw path key

theorem child_varied (hpart : parts key ≠ .globals) :
    SameOutcome exact (child fs path key) (child fs' path key) := by
  unfold child
  exact present_varied h key (.refl _) fun _ _ _ _ _ _ _ hnode _ => hnode hpart _

theorem children_varied (hpart : parts key ≠ .globals) :
    SameOutcome exact (children fs path key) (children fs' path key) := by
  unfold children
  exact present_varied h key (.ok []) fun _ _ _ _ _ _ _ _ hnodes => hnodes hpart _

/-- An operator is a text or a node; only a text can be told apart from a node here. -/
theorem operator_varied (hrole : roles key = .any) (hpart : parts key = .plain) :
    SameOutcome exact (operator fs path key) (operator fs' path key) := by
  unfold operator
  refine present_plain h hrole hpart (.refl _) fun raw _ _ _ _ _ hraw hnode => ?_
  dsimp only
  obtain ⟨n, hn, hn'⟩ | ⟨e, e', he, he', hseen⟩ := (hnode (path ++ [Segment.key key])).cases_seen
  · rw [hn, hn']
    cases hraw <;> exact .refl _
  · rw [he, he']
    cases hraw with
    | same =>
      cases raw with
      | text s => exact .refl _
      | _ => exact .error hseen
    | _ => exact .error hseen

theorem ownOperator_varied (hrole : roles "operator" = .any) (hpart : parts "operator" = .plain)
    (pos : Position) : SameOutcome exact (ownOperator fs path pos) (ownOperator fs' path pos) := by
  unfold ownOperator
  refine present_plain h hrole hpart (.refl _) fun raw _ _ _ _ _ hraw hnode => ?_
  have hbind := (hnode (path ++ [Segment.key "operator"])).map fun selector =>
    Node.operator (.selector pos selector)
  cases hraw with
  | same =>
    cases raw with
    | text s => exact .refl _
    | _ => exact hbind
  | _ => exact hbind

theorem declaredName_varied (hrole : roles "name" = .any) (hpart : parts "name" ≠ .globals)
    (pos : Position) :
    SameOutcome exact (declaredName fs path pos) (declaredName fs' path pos) := by
  unfold declaredName
  refine present_varied h "name" (.refl _) fun raw _ _ _ _ _ hraw hnode _ => ?_
  replace hnode := hnode hpart (path ++ [Segment.key "name"])
  rw [hrole] at hraw
  generalize parts "name" = part at hraw
  cases hraw with
  | same =>
    cases raw with
    | text s => exact .refl _
    | _ => exact hnode
  | name hname | entry hname => exact congrArg (fun s => Except.ok (Node.identifier pos s)) hname
  | _ => exact hnode

/-- The line and the column of a position may be spelled as texts. -/
theorem position_varied (hrole : roles "loc" = .location) (hpart : parts "loc" = .plain) :
    SameOutcome exact (position fs path) (position fs' path) := by
  unfold position
  refine present_varied h "loc" (.ok _) fun _ _ _ _ _ _ hraw _ _ => ?_
  rw [hrole, hpart] at hraw
  cases hraw with
  | number hexact => exact .lax hexact rfl
  | same | list => exact .refl _
  | @table _ _ entries entries' hkeys hentries =>
    -- `numberOf_varied` holds in any role, so nothing is asked of the role of the line.
    have hrel : ∀ key, key ∉ ["name", "function_name"] →
        Option.Rel (Varied exact (Role.location.within entries key) .plain) (lookup key entries)
          (lookup key entries') := by
      intro key hkey
      have hrel := lookup_rel hkeys hentries key
      rwa [Part.under_eq_plain_of_not_mem (.inl rfl) hkey] at hrel
    have hline := hrel "line" (by decide)
    have hcol := hrel "col" (by decide)
    have hnumber : SameOutcome exact (plainNumber entries path "line")
        (plainNumber entries' path "line") := by
      unfold plainNumber
      generalize lookup "line" entries = found at hline ⊢
      generalize lookup "line" entries' = found' at hline ⊢
      cases hline with
      | none => exact .refl _
      | some hd => exact numberOf_varied hd path "line"
    refine hnumber.bind fun line => ?_
    generalize lookup "col" entries = found at hcol ⊢
    generalize lookup "col" entries' = found' at hcol ⊢
    cases hcol with
    | none => exact .ok _
    | some hd => exact (numberOf_varied hd path "col").bind fun col => .ok _

/-- A node reads its name as a name, a literal its value as a number, and all else as it is. -/
theorem build_varied (hnode : ∀ key, parts key ≠ .globals)
    (hroles : ∀ key, key ∉ ["loc", "value", "line", "col"] → roles key = .any) {tag : Tag}
    (hparts : ∀ key, nameKey? tag ≠ some key → parts key = .plain)
    (hliteral : roles "value" ≠ .any → tag ∈ [Tag.integerLiteral, .floatLiteral, .booleanLiteral])
    (pos : Position) : SameOutcome exact (build fs path pos tag) (build fs' path pos tag) := by
  -- What is read agrees in what counts, whichever entry it is.
  have hchild := fun key => show Except.mapError _ _ = _ from child_varied h path (hnode key)
  have hchildren := fun key => show Except.mapError _ _ = _ from children_varied h path (hnode key)
  have hnumber := fun key hpart => show Except.mapError _ _ = _ from
    number_varied h path (hparts key hpart)
  have hboolean := fun key hpart => show Except.mapError _ _ = _ from
    boolean_varied h path (hparts key hpart)
  have hname := fun key hrole => show Except.mapError _ _ = _ from
    name_varied h path (hroles key hrole)
  have htext := fun key hrole hpart => show Except.mapError _ _ = _ from
    text_varied h path (hroles key hrole) (hparts key hpart)
  have htexts := fun key hrole hpart => show Except.mapError _ _ = _ from
    texts_varied h path (hroles key hrole) (hparts key hpart)
  have hoperator := fun key hrole hpart => show Except.mapError _ _ = _ from
    operator_varied h path (hroles key hrole) (hparts key hpart)
  have hdeclared : Except.mapError _ _ = _ :=
    declaredName_varied h path (hroles _ (by decide)) (hnode _) pos
  unfold SameOutcome
  cases tag with
  | preprocessor =>
    -- The value of a directive is a text, as it is no literal.
    have hvalue : Except.mapError _ _ = _ := text_varied h path
      (by_contra fun hrole => absurd (hliteral hrole) (by decide)) (hparts "value" (by decide))
    simp (disch := decide) only [build, mapError_bind, htext, htexts, hvalue, hchildren]
  | integerLiteral => exact (number_varied h path (hparts _ (by decide))).bind fun _ => .refl _
  | operator => exact ownOperator_varied h path (hroles _ (by decide)) (hparts _ (by decide)) pos
  | _ =>
    simp (disch := decide) only [build, mapError_bind, hchild, hchildren, hnumber, hboolean, htext,
      hname, htexts, hoperator, hdeclared]

end Readers

/-! ## Nodes -/

/-- The entries of a table, as the readers see them. -/
theorem lookup_fields (key : String) (entries : List (String × Document)) :
    lookup key (fields entries) = (lookup key entries).map fun d => ⟨d, node d, nodes d⟩ := by
  rw [← lookup_map]
  congr 1
  induction entries with
  | nil => simp [fields]
  | cons e rest ih => simp [fields, ih]

/-- A table that names a tag has it. -/
theorem tag?_eq_some {path : Path} {tagName : String} {tag : Tag}
    (htext : text (fields entries) path "type" = .ok tagName)
    (htag : Tag.ofName? tagName = some tag) : tag? entries = some tag := by
  have hempty : Tag.ofName? "" = none := by decide
  rw [text, present, lookup_fields] at htext
  unfold tag?
  cases hfound : lookup "type" entries with
  | none =>
    rw [hfound] at htext
    rw [← Except.ok.inj htext, hempty] at htag
    cases htag
  | some d =>
    rw [hfound] at htext
    cases d with
    | text name => rw [← htag, ← Except.ok.inj htext]
    | null =>
      rw [← Except.ok.inj htext, hempty] at htag
      cases htag
    | _ => cases htext

/-- Documents that are read alike. -/
structure ReadAlike (exact : Bool) (d d' : Document) : Prop where
  node : ∀ path, SameOutcome exact (node d path) (node d' path)
  nodes : ∀ path, SameOutcome exact (nodes d path) (nodes d' path)

theorem fields_varied {roles : String → Role} {parts : String → Part}
    (hkeys : ∀ key, (lookup key entries).isSome = (lookup key entries').isSome)
    (h : ∀ key d d', lookup key entries = some d → lookup key entries' = some d' →
      Varied exact (roles key) (parts key) d d' ∧ (parts key ≠ .globals → ReadAlike exact d d')) :
    FieldsVaried exact roles parts (fields entries) (fields entries') := by
  intro key
  have hrel := lookup_rel hkeys h key
  rw [lookup_fields, lookup_fields]
  generalize lookup key entries = found at hrel ⊢
  generalize lookup key entries' = found' at hrel ⊢
  cases hrel with
  | none => exact .none
  | some hd => exact .some ⟨hd.1, fun hpart => (hd.2 hpart).node, fun hpart => (hd.2 hpart).nodes⟩

theorem nodeOfFields_varied (hpart : part.IsNode)
    (h : FieldsVaried exact (role.within entries) (part.under entries) (fields entries)
      (fields entries')) (path : Path) :
    SameOutcome exact (nodeOfFields (fields entries) path)
      (nodeOfFields (fields entries') path) := by
  have hplain : ∀ key, key ∉ ["name", "function_name"] → part.under entries key = .plain :=
    fun key => Part.under_eq_plain_of_not_mem hpart
  refine (text_varied h path (Role.within_eq_any (by decide)) (hplain _ (by decide))).bind_of_ok
    fun tagName htext => ?_
  -- The tag says where there is a name or a number, so it is kept for the places.
  cases htag : Tag.ofName? tagName with
  | none => exact .refl _
  | some tag =>
    have htag? := tag?_eq_some htext htag
    refine (position_varied h path rfl (hplain _ (by decide))).bind fun pos => ?_
    exact build_varied h path (fun key => Part.under_ne_globals hpart key)
      (fun key => Role.within_eq_any)
      (fun key hkey => Part.under_eq_plain hpart (by rwa [htag?, Option.bind_some]))
      (fun hrole => Role.mem_of_within hrole htag?) pos

theorem nodeItems_varied (h : List.Forall₂ (ReadAlike exact) items items') (path : Path) (i : Nat) :
    SameOutcome exact (nodeItems items path i) (nodeItems items' path i) := by
  induction h generalizing i with
  | nil => exact .refl _
  | cons hfirst _ ih =>
    simp only [nodeItems]
    obtain ⟨n, hn, hn'⟩ | ⟨e, e', he, he', hseen⟩ :=
      (hfirst.node (path ++ [Segment.index i])).cases_seen
    · rw [hn, hn']
      exact (ih (i + 1)).map (n :: ·)
    · rw [he, he']
      exact .error hseen

/-- A number is neither a node nor a list of nodes, however it is spelled. -/
theorem readAlike_of_numeral? (hexact : exact = false) {value value' : Except NumeralError Float}
    (h : d.numeral? = some value) (h' : d'.numeral? = some value') : ReadAlike exact d d' := by
  constructor <;> intro path <;> rcases eq_of_numeral? h with ⟨q, rfl⟩ | ⟨s, rfl⟩ <;>
    rcases eq_of_numeral? h' with ⟨q', rfl⟩ | ⟨s', rfl⟩ <;> simp only [node, nodes] <;>
    exact .lax hexact rfl

/-- Varied documents describe the same node. -/
theorem node_varied (h : Varied exact role part d d') (hpart : part.IsNode) :
    ReadAlike exact d d' := by
  -- The role of a document says nothing about the node it is, so the induction is over all roles.
  induction h with
  | same => exact ⟨fun _ => .refl _, fun _ => .refl _⟩
  | number hexact => exact readAlike_of_numeral? hexact rfl rfl
  | numeral hexact h h' => exact readAlike_of_numeral? hexact h h'
  | name | entry =>
    refine ⟨fun path => ?_, fun path => ?_⟩
    · simp only [node]
      exact .refl _
    · simp only [nodes]
      exact .refl _
  | @list role part items items' hlength hitems ih =>
    have hitem : part.item.IsNode := by
      rcases hpart with rfl | rfl <;> exact .inl rfl
    refine ⟨fun path => ?_, fun path => ?_⟩
    · simp only [node]
      exact .refl _
    · simp only [nodes]
      exact nodeItems_varied (forall₂_of_getElem? hlength fun i d d' hd hd' =>
        ih i d d' hd hd' hitem) path 0
  | table hkeys hentries ih =>
    refine ⟨fun path => ?_, fun path => ?_⟩
    · simp only [node]
      have hfields := fields_varied hkeys fun key d d' hd hd' =>
        ⟨hentries key d d' hd hd', fun _ => ih key d d' hd hd' (Part.under_isNode hpart _ key)⟩
      exact nodeOfFields_varied hpart hfields path
    · simp only [nodes]
      exact .refl _

/-! ## Shaders -/

theorem plainText_varied
    (h : Option.Rel (Varied exact .any .plain) (lookup key entries) (lookup key entries'))
    (path : Path) :
    SameOutcome exact (plainText entries path key) (plainText entries' path key) := by
  unfold plainText
  generalize lookup key entries = found at h ⊢
  generalize lookup key entries' = found' at h ⊢
  cases h with
  | none => exact .refl _
  | some hd =>
    cases hd with
    | number hexact => exact .lax hexact rfl
    | same | list | table => exact .refl _

theorem plainName_varied
    (h : Option.Rel (Varied exact .any .name) (lookup key entries) (lookup key entries'))
    (path : Path) :
    SameOutcome exact
      ((plainText entries path key).map fun s => (NormalForm.normal s, decide (s = "")))
      ((plainText entries' path key).map fun s => (NormalForm.normal s, decide (s = ""))) := by
  unfold plainText
  generalize lookup key entries = found at h ⊢
  generalize lookup key entries' = found' at h ⊢
  cases h with
  | none => exact .refl _
  | some hd =>
    cases hd with
    | number hexact => exact .lax hexact rfl
    | name hname hempty =>
      exact congrArg Except.ok (Prod.ext hname (decide_eq_decide.2 hempty))
    | same | list | table => exact .refl _

theorem variableOf_varied (h : Varied exact .any .entry d d') (path : Path) (i : Nat) :
    SameOutcome exact (variableOf path i d) (variableOf path i d') := by
  cases h with
  | number hexact => exact .lax hexact rfl
  | same | list => exact .refl _
  | entry hname => exact congrArg (fun s => Except.ok (Variable.mk s "")) hname
  | @table _ _ entries entries' hkeys hentries =>
    have hrel := lookup_rel hkeys hentries
    have hname := plainName_varied (hrel "name") (path ++ [Segment.index i])
    have htype := plainText_varied (hrel "type") (path ++ [Segment.index i])
    simp only [variableOf]
    generalize plainText entries (path ++ [Segment.index i]) "name" = r at hname ⊢
    generalize plainText entries' (path ++ [Segment.index i]) "name" = r' at hname ⊢
    cases r with
    | error e =>
      cases r' with
      | error e' => exact .error (Except.error.inj hname)
      | ok s' => cases hname
    | ok s =>
      cases r' with
      | error e' => cases hname
      | ok s' =>
        -- A name is missing in one spelling if it is in the other.
        obtain ⟨hnormal, hempty⟩ := Prod.mk.inj (Except.ok.inj hname)
        simp only [bind, Except.bind, decide_eq_decide.1 hempty, hnormal]
        split
        · exact .refl _
        · exact htype.bind fun type => .ok _

theorem variableItems_varied (h : List.Forall₂ (Varied exact .any .entry) items items')
    (path : Path) (i : Nat) :
    SameOutcome exact (variableItems path i items) (variableItems path i items') := by
  induction h generalizing i with
  | nil => exact .ok []
  | cons hfirst _ ih =>
    unfold variableItems
    obtain ⟨v, hv, hv'⟩ | ⟨e, e', he, he', hseen⟩ := (variableOf_varied hfirst path i).cases_seen
    · rw [hv, hv']
      exact (ih (i + 1)).map (v :: ·)
    · rw [he, he']
      exact .error hseen

theorem variableList_varied {roles : String → Role} {parts : String → Part} {fs fs' : Fields}
    (h : FieldsVaried exact roles parts fs fs') (hrole : roles key = .any)
    (hpart : parts key = .globals) :
    SameOutcome exact (variableList fs key) (variableList fs' key) := by
  unfold variableList
  refine present_varied h key (.ok []) fun _ _ _ _ _ _ hraw _ _ => ?_
  rw [hrole, hpart] at hraw
  cases hraw with
  | number hexact => exact .lax hexact rfl
  | same | table => exact .refl _
  | list hlength hitems => exact variableItems_varied (forall₂_of_getElem? hlength hitems) _ 0

/-- Varied descriptors describe the same shader. -/
theorem ofDocument_varied (h : Varied exact .any .descriptor d d') :
    SameOutcome exact (ofDocument d) (ofDocument d') := by
  cases h with
  | number hexact => exact .lax hexact rfl
  | same | list => exact .refl _
  | @table _ _ entries entries' hkeys hentries =>
    -- Apart from the lists of variables, all entries are read as nodes or plain values.
    have hplain : ∀ key, Part.descriptor.under entries key ≠ .globals →
        Part.descriptor.under entries key = .plain := by
      intro key
      unfold Part.under
      dsimp only
      split <;> simp
    have hfields := fields_varied hkeys fun key d d' hd hd' =>
      have hvaried := hentries key d d' hd hd'
      ⟨hvaried, fun hpart => node_varied hvaried (.inl (hplain key hpart))⟩
    have hlist : ∀ key ∈ ["uniforms", "varyings", "attributes"],
        SameOutcome exact (variableList (fields entries) key)
          (variableList (fields entries') key) :=
      fun key hkey => variableList_varied hfields
        (Role.within_eq_any (by revert hkey; simp; rintro (rfl | rfl | rfl) <;> decide))
        (if_pos hkey)
    refine (child_varied hfields [] (by simp [Part.under])).bind fun tree => ?_
    by_cases htree : tree.isAbsent = true
    · rw [if_pos htree, if_pos htree]
      exact .refl _
    · rw [if_neg htree, if_neg htree]
      refine (hlist "uniforms" (by decide)).bind fun _ => ?_
      refine (hlist "varyings" (by decide)).bind fun _ => ?_
      refine (hlist "attributes" (by decide)).bind fun _ => ?_
      refine (boolean_varied hfields [] (by simp [Part.under])).bind fun _ => ?_
      exact (boolean_varied hfields [] (by simp [Part.under])).bind fun _ => .ok _

end Descriptor

end ShaderScript
