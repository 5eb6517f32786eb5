import ShaderScript.Compile
import ShaderScript.Proofs.VariedDocuments

/-!
# The spelling of names

The same name can be spelled with different characters, which have one normal form.
`Document.Respelled` relates descriptors that differ in the spelling of names only.  Which texts of
a descriptor are names is a matter of where they stand: `Part` says what is at a place, and a table
tells by its tag under which key it has a name.

Of the normal form nothing is needed but that only the empty text has an empty one: an entry of a
variable list without a name is an error.  Respelled documents are varied documents then, in which
numbers keep their forms (`Respelled.varied`).
-/

namespace ShaderScript

variable {items items' : List Document}

namespace Document

/-- Documents that differ in the spelling of names only.  Lists are compared by their elements and
tables by the values of their keys. -/
inductive Respelled [NormalForm] : Part → Document → Document → Prop
  | same {part : Part} (d : Document) : Respelled part d d
  | name {part : Part} (hpart : part = .name ∨ part = .entry) {s s' : String}
      (h : NormalForm.normal s = NormalForm.normal s') : Respelled part (.text s) (.text s')
  | list {part : Part} {items items' : List Document} (hlength : items.length = items'.length)
      (h : ∀ (i : Nat) (d d' : Document), items[i]? = some d → items'[i]? = some d' →
        Respelled part.item d d') :
      Respelled part (.list items) (.list items')
  | table {part : Part} {entries entries' : List (String × Document)}
      (hkeys : ∀ key, (lookup key entries).isSome = (lookup key entries').isSome)
      (h : ∀ key d d', lookup key entries = some d → lookup key entries' = some d' →
        Respelled (part.under entries key) d d') :
      Respelled part (.table entries) (.table entries')

theorem Respelled.varied [NormalForm] (hempty : ∀ s, NormalForm.normal s = "" ↔ s = "")
    {part : Part} {d d' : Document} (h : Respelled part d d') (role : Role) :
    Varied true role part d d' := by
  induction h generalizing role with
  | same d => exact .same d
  | name hpart h =>
    rcases hpart with rfl | rfl
    · exact .name h (by rw [← hempty, h, hempty])
    · exact .entry h
  | list hlength _ ih => exact .list hlength fun i d d' hd hd' => ih i d d' hd hd' .any
  | table hkeys _ ih => exact .table hkeys fun key d d' hd hd' => ih key d d' hd hd' _

end Document

namespace Descriptor

open Document

/-- **The spelling of a name makes no difference.**  Whatever the normal form, descriptors that
differ in the spelling of names only describe the same shader, or are wrong at the same path and for
the same reason, and so do files that hold them, in whatever format.  What becomes of the shader is
the same then: the script, the errors and the reports. -/
theorem decode_respelled [NormalForm] (hempty : ∀ s, NormalForm.normal s = "" ↔ s = "")
    {d d' : Document} (h : Respelled .descriptor d d') :
    ofDocument d = ofDocument d' ∧
    (∀ {α : Type} (read : α → Option Document) failure input input', read input = some d →
      read input' = some d' → ofFormat read failure input = ofFormat read failure input') ∧
    (∀ style, (ofDocument d).map (fun shader => generate style (some shader)) =
      (ofDocument d').map fun shader => generate style (some shader)) ∧
    ∀ options parent t, (ofDocument d).map (fun shader => compile options (some shader) parent t) =
      (ofDocument d').map fun shader => compile options (some shader) parent t := by
  have hsame := (ofDocument_varied (h.varied hempty _)).eq
  refine ⟨hsame, fun read failure input input' hread hread' => ?_, fun style => ?_,
    fun options parent t => ?_⟩
  · rw [ofFormat, ofFormat, hread, hread']
    dsimp only
    rw [hsame]
  · rw [hsame]
  · rw [hsame]

end Descriptor

namespace Document.Respelled

theorem table_of_forall₂ [NormalForm] {part : Part} {entries entries' : List (String × Document)}
    (h : List.Forall₂ (fun e e' => e.1 = e'.1 ∧ Respelled (part.under entries e.1) e.2 e'.2)
      entries entries') : Respelled part (.table entries) (.table entries') :=
  have hagree := lookup_agree (R := fun key => Respelled (part.under entries key)) h
  .table hagree.1 hagree.2

theorem list_of_forall₂ [NormalForm] {part : Part}
    (h : List.Forall₂ (Respelled part.item) items items') :
    Respelled part (.list items) (.list items') := by
  obtain ⟨hlength, hitems⟩ := List.forall₂_iff_get.1 h
  refine .list hlength fun i d d' hd hd' => ?_
  obtain ⟨hi, rfl⟩ := List.getElem?_eq_some_iff.1 hd
  obtain ⟨hi', rfl⟩ := List.getElem?_eq_some_iff.1 hd'
  exact hitems i hi hi'

end Document.Respelled

namespace Descriptor

open Document

/-- A shader with a function that is called with a variable; names stand in each form they have. -/
def namedDocument (name : String) : Document :=
  .table
    [("ast", .table
      [("type", .text "Program"), ("statements", .list
        [.table [("type", .text "FunctionDeclaration"), ("name", .text name)],
         .table [("type", .text "FunctionCall"), ("function_name", .text name), ("parameters", .list
          [.table [("type", .text "Identifier"), ("name", .text name)]])]])]),
     ("uniforms", .list [.text name, .table [("name", .text name), ("type", .text "float")]])]

theorem namedDocument_respelled [NormalForm] {name name' : String}
    (h : NormalForm.normal name = NormalForm.normal name') :
    Respelled .descriptor (namedDocument name) (namedDocument name') := by
  have hname : Respelled .name (.text name) (.text name') := .name (.inl rfl) h
  have hentry : Respelled .entry (.text name) (.text name') := .name (.inr rfl) h
  -- The tag of each table says which of its texts is a name.
  have hdeclared : Respelled .plain
      (.table [("type", .text "FunctionDeclaration"), ("name", .text name)])
      (.table [("type", .text "FunctionDeclaration"), ("name", .text name')]) :=
    .table_of_forall₂ (.cons ⟨rfl, .same _⟩ (.cons ⟨rfl, hname⟩ .nil))
  have hread : Respelled .plain (.table [("type", .text "Identifier"), ("name", .text name)])
      (.table [("type", .text "Identifier"), ("name", .text name')]) :=
    .table_of_forall₂ (.cons ⟨rfl, .same _⟩ (.cons ⟨rfl, hname⟩ .nil))
  have hcalled : Respelled .plain
      (.table [("type", .text "FunctionCall"), ("function_name", .text name), ("parameters", .list
        [.table [("type", .text "Identifier"), ("name", .text name)]])])
      (.table [("type", .text "FunctionCall"), ("function_name", .text name'), ("parameters", .list
        [.table [("type", .text "Identifier"), ("name", .text name')]])]) :=
    .table_of_forall₂ (.cons ⟨rfl, .same _⟩ (.cons ⟨rfl, hname⟩
      (.cons ⟨rfl, .list_of_forall₂ (.cons hread .nil)⟩ .nil)))
  have htyped : Respelled .entry (.table [("name", .text name), ("type", .text "float")])
      (.table [("name", .text name'), ("type", .text "float")]) :=
    .table_of_forall₂ (.cons ⟨rfl, hname⟩ (.cons ⟨rfl, .same _⟩ .nil))
  exact .table_of_forall₂
    (.cons ⟨rfl, .table_of_forall₂ (.cons ⟨rfl, .same _⟩
      (.cons ⟨rfl, .list_of_forall₂ (.cons hdeclared (.cons hcalled .nil))⟩ .nil))⟩
    (.cons ⟨rfl, .list_of_forall₂ (.cons hentry (.cons htyped .nil))⟩ .nil))

/-- A normal form that takes the sign of the unit of temperature for a letter. -/
def kelvinForm (s : String) : String := if s = "\u212A" then "K" else s

theorem kelvinForm_eq_empty_iff (s : String) : kelvinForm s = "" ↔ s = "" := by
  unfold kelvinForm
  split
  · rename_i h
    simp [h]
  · rfl

/-- The Kelvin sign, where its normal form is the letter. -/
theorem decode_respelled_kelvinSign :
    let _ : NormalForm := ⟨kelvinForm⟩
    Respelled .descriptor (namedDocument "\u212A") (namedDocument "K") ∧
      ∃ shader, ofDocument (namedDocument "\u212A") = .ok shader ∧
        shader.uniforms = [⟨"K", ""⟩, ⟨"K", "float"⟩] := by
  intro form
  have hrespelled : Respelled .descriptor (namedDocument "\u212A") (namedDocument "K") :=
    namedDocument_respelled (by decide)
  refine ⟨hrespelled, ?_⟩
  rw [(decode_respelled kelvinForm_eq_empty_iff hrespelled).1]
  exact ⟨_, rfl, rfl⟩

end Descriptor

end ShaderScript
