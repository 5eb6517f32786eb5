import Mathlib
import ShaderScript.Proofs.VariedDocuments

/-!
# Forms of numbers

A number comes in another form in each file format: as digits, as an integer of some width, as a
float.  `Document.Alike` relates documents that differ in the forms of their numbers and in the
order of their keys only.  A few numbers may also be spelled as texts: the value of a literal, and
the line and the column of a position (`Role`).

Alike documents are varied documents, whatever is a name in them (`Alike.varied`).
-/

namespace ShaderScript

namespace Document

variable {role : Role} {entries entries' : List (String × Document)} {d d' : Document}

/-- Documents that differ in the forms of their numbers only.  Lists are compared by their elements
and tables by the values of their keys. -/
inductive Alike : Role → Document → Document → Prop
  | null {role : Role} : Alike role .null .null
  | bool {role : Role} (value : Bool) : Alike role (.bool value) (.bool value)
  | number {role : Role} {value value' : Quantity} (h : value.toFloat = value'.toFloat) :
      Alike role (.number value) (.number value')
  | text {role : Role} (value : String) : Alike role (.text value) (.text value)
  | bytes {role : Role} (value : List UInt8) : Alike role (.bytes value) (.bytes value)
  | instant {role : Role} : Alike role .instant .instant
  | numeral {d d' : Document} {value : Except NumeralError Float} (h : d.numeral? = some value)
      (h' : d'.numeral? = some value) : Alike .numeral d d'
  | list {role : Role} {items items' : List Document} (hlength : items.length = items'.length)
      (h : ∀ (i : Nat) (d d' : Document), items[i]? = some d → items'[i]? = some d' →
        Alike .any d d') :
      Alike role (.list items) (.list items')
  | table {role : Role} {entries entries' : List (String × Document)}
      (hkeys : ∀ key, (lookup key entries).isSome = (lookup key entries').isSome)
      (h : ∀ key d d', lookup key entries = some d → lookup key entries' = some d' →
        Alike (role.within entries key) d d') :
      Alike role (.table entries) (.table entries')

theorem Alike.varied (h : Alike role d d') (part : Part) : Varied false role part d d' := by
  induction h generalizing part with
  | null | bool | text | bytes | instant => exact .same _
  | number h => exact .number rfl h
  | numeral h h' => exact .numeral rfl h h'
  | list hlength _ ih => exact .list hlength fun i d d' hd hd' => ih i d d' hd hd' part.item
  | table hkeys _ ih => exact .table hkeys fun key d d' hd hd' => ih key d d' hd hd' _

theorem Alike.table_of_forall₂
    (h : List.Forall₂ (fun e e' => e.1 = e'.1 ∧ Alike (role.within entries e.1) e.2 e'.2) entries
      entries') : Alike role (.table entries) (.table entries') :=
  have hagree := lookup_agree (R := fun key => Alike (role.within entries key)) h
  .table hagree.1 hagree.2

end Document

namespace Descriptor

open Document

/-- **The form of a number makes no difference.**  Documents that differ in the forms of their
numbers describe the same shader, or are wrong at the same path; so do files that hold such
documents, however the formats of the files are read. -/
theorem decode_alike {d d' : Document} (h : Alike .any d d') :
    ((∃ shader, ofDocument d = .ok shader ∧ ofDocument d' = .ok shader) ∨
      ∃ e e', ofDocument d = .error e ∧ ofDocument d' = .error e' ∧ e.path = e'.path) ∧
    ∀ {α β : Type} (read : α → Option Document) (read' : β → Option Document) failure failure' input
        input', read input = some d → read' input' = some d' →
      (∃ shader, ofFormat read failure input = .ok shader ∧
        ofFormat read' failure' input' = .ok shader) ∨
      ∃ e e', ofFormat read failure input = .error (.decode e) ∧
        ofFormat read' failure' input' = .error (.decode e') ∧ e.path = e'.path := by
  have hfile {α : Type} {read : α → Option Document} (failure : FileError) {input : α}
      {d : Document} (hread : read input = some d) :
      ofFormat read failure input = (ofDocument d).mapError .decode := by
    rw [ofFormat, hread]
  obtain ⟨shader, hd, hd'⟩ | ⟨e, e', hd, hd', he⟩ := (ofDocument_varied (h.varied _)).cases_eq
  · refine ⟨.inl ⟨shader, hd, hd'⟩, fun _ _ failure failure' _ _ hread hread' => .inl ⟨shader, ?_⟩⟩
    rw [hfile failure hread, hfile failure' hread', hd, hd']
    exact ⟨rfl, rfl⟩
  · refine ⟨.inr ⟨e, e', hd, hd', he⟩, fun _ _ failure failure' _ _ hread hread' =>
      .inr ⟨e, e', ?_⟩⟩
    rw [hfile failure hread, hfile failure' hread', hd, hd']
    exact ⟨rfl, rfl, he⟩

/-- A literal with its position, in digits. -/
def digitsDocument : Document :=
  .table
    [("ast", .table
      [("type", .text "IntegerLiteral"), ("value", .number (.decimal "2")),
       ("loc", .table [("line", .number (.decimal "3"))])])]

/-- The same literal with a byte for its value and a text for its line. -/
def packedDocument : Document :=
  .table
    [("ast", .table
      [("type", .text "IntegerLiteral"), ("value", .number (.integer .int8 2)),
       ("loc", .table [("line", .text "3")])])]

def packedBytes : List UInt8 :=
  [0x81, 0xA3, 0x61, 0x73, 0x74, 0x83,
    0xA4, 0x74, 0x79, 0x70, 0x65,
    0xAE, 0x49, 0x6E, 0x74, 0x65, 0x67, 0x65, 0x72, 0x4C, 0x69, 0x74, 0x65, 0x72, 0x61, 0x6C,
    0xA5, 0x76, 0x61, 0x6C, 0x75, 0x65, 0x02,
    0xA3, 0x6C, 0x6F, 0x63, 0x81, 0xA4, 0x6C, 0x69, 0x6E, 0x65, 0xA1, 0x33]

/-- Digits in one file, an integer and a text in the other. -/
theorem decode_alike_packed :
    Alike .any digitsDocument packedDocument ∧
      ∃ shader, ofJson digitsDocument.compact.toList = .ok shader ∧
        ofMessagePack packedBytes = .ok shader := by
  have htwo : (Quantity.decimal "2").toFloat = (Quantity.integer .int8 2).toFloat := by
    decide +kernel
  have hrole : Role.within .location [("line", Document.number (.decimal "3"))] "line" =
      .numeral := by decide
  have hloc : Alike .location (.table [("line", .number (.decimal "3"))])
      (.table [("line", .text "3")]) := by
    refine .table_of_forall₂ (.cons ⟨rfl, ?_⟩ .nil)
    rw [hrole]
    exact .numeral rfl rfl
  have halike : Alike .any digitsDocument packedDocument :=
    .table_of_forall₂ (.cons ⟨rfl, .table_of_forall₂
      (.cons ⟨rfl, .text _⟩ (.cons ⟨rfl, .number htwo⟩ (.cons ⟨rfl, hloc⟩ .nil)))⟩ .nil)
  -- The readers are run by the equations of the whole library.
  have hjson : Json.read digitsDocument.compact.toList = some digitsDocument := by cbv
  have hpacked : MessagePack.read packedBytes = some packedDocument := by cbv
  refine ⟨halike, ?_⟩
  rcases (decode_alike halike).2 _ _ .notJson .notMessagePack _ _ hjson hpacked with
    hsame | ⟨e, e', he, -⟩
  · exact hsame
  · have hok : (ofJson digitsDocument.compact.toList).toOption.isSome = true := by decide +kernel
    rw [ofJson, he] at hok
    cases hok

end Descriptor

end ShaderScript
