import ShaderScript.Proofs.DecimalNumerals
import ShaderScript.Proofs.DescriptorSchema
import ShaderScript.Proofs.PackedIntegers

/-!
# Integer literals in descriptors

The value of an integer literal is read as a double, however it is spelled.  So an integer of more
than 53 bits becomes the nearest one that is a double, and the limits of 64 bits hold for that one:
some integers just below the greatest are refused, and some just below the least are taken for it.

`Spells` says which integer an element spells, and `Revalued` relates descriptors that differ in the
value of one integer literal, wherever it stands.  `Takes` is what is to be shown of every element
around the literal; each hands it on to the next (`Takes.inside`).
-/

namespace ShaderScript

open Document

/-- The integer that an element of a descriptor spells: by a decimal numeral, as a number or as a
text, or by any of the encodings of the integer in bytes. -/
inductive Spells : Document → Int → Prop
  | decimal {d : Numeral.Spelling} {n : Int} (h : d.Denotes n) :
      Spells (.number (.decimal d.text)) n
  | text {d : Numeral.Spelling} {n : Int} (h : d.Denotes n) : Spells (.text d.text) n
  | packed {d : Document} {n : Int} {bytes rest : List UInt8} {fuel : Nat}
      (h : MessagePack.Packs bytes n)
      (hread : MessagePack.value (fuel + 1) (bytes ++ rest) = some (d, rest)) : Spells d n

namespace Descriptor

theorem log2_le_of_lt {m : Nat} (h : m < 2 ^ 64) : m.log2 ≤ 63 := by
  by_cases hm : m = 0
  · subst hm
    decide
  · exact Nat.le_of_lt_succ ((Nat.log2_lt hm).2 h)

/-- The integers whose nearest integers have 64 bits. -/
def InReach (n : Int) : Prop := leastInt64 - 1024 ≤ n ∧ n < -leastInt64 - 512

theorem InReach.log2_le {n : Int} (h : InReach n) : n.natAbs.log2 ≤ 63 := by
  obtain ⟨hlow, hhigh⟩ := h
  unfold leastInt64 at hlow hhigh
  exact log2_le_of_lt (by omega)

/-- An integer is read as the nearest double, unless it is far out of range. -/
theorem numberOf_of_spells {d : Document} {n : Int} (h : Spells d n) (path : Path) (key : String) :
    (∃ x, numberOf path key d = .ok x ∧ IsNearest x n) ∨
      (∃ cause, numberOf path key d = .error ⟨path, cause⟩) ∧ ¬ InReach n := by
  have hfar : 1023 ≤ n.natAbs.log2 → ¬ InReach n := by
    intro hlarge hreach
    have := hreach.log2_le
    omega
  cases h with
  | decimal h | text h =>
    rcases Numeral.read_of_denotes h with ⟨x, hx, hnearest⟩ | ⟨herror, hlarge⟩
    · exact .inl ⟨x, by rw [numberOf, hx]; rfl, hnearest⟩
    · exact .inr ⟨⟨_, by rw [numberOf, herror]; rfl⟩, hfar hlarge⟩
  | packed h hread =>
    obtain ⟨⟨hlow, hhigh⟩, form, hvalue⟩ := MessagePack.value_of_packs h
    -- Packed integers have at most 64 bits, so all of them are in reach.
    have hlog : n.natAbs.log2 ≤ 63 := by
      unfold leastInt64 at hlow
      unfold wordCount at hhigh
      exact log2_le_of_lt (by omega)
    rw [hvalue] at hread
    cases hread
    exact .inl ⟨Float.ofInt n, rfl, .ofInt (by omega)⟩

/-- The literal of an integer has the nearest integer as its value. -/
theorem integerLiteral_of_spells {fs : Fields} {path : Path} {pos : Position} {field : Field}
    {n : Int} (hfield : lookup "value" fs = some field) (h : Spells field.raw n) :
    (InReach n → integerLiteral fs path pos = .ok (.integerLiteral pos (nearestInteger n))) ∧
      (¬ InReach n → ∃ cause, integerLiteral fs path pos = .error ⟨path, cause⟩) := by
  have hnumber : number fs path "value" = numberOf path "value" field.raw := by
    rw [number, hfield]
  have hfits := fitsInt64_nearestInteger n
  change _ ↔ InReach n at hfits
  unfold integerLiteral
  rw [hnumber]
  -- The nearest double is whole, so only the test of its size can fail.
  rcases numberOf_of_spells h path "value" with ⟨x, hx, hnearest⟩ | ⟨⟨cause, herror⟩, hfar⟩
  · rw [hx]
    simp only [bind, Except.bind, hnearest.bne_truncate, hnearest.truncateToInt64?_eq]
    constructor
    · intro hreach
      rw [if_pos (hfits.2 hreach)]
      rfl
    · intro hfar
      rw [if_neg (mt hfits.1 hfar)]
      exact ⟨_, rfl⟩
  · rw [herror]
    exact ⟨fun hreach => absurd hreach hfar, fun _ => ⟨cause, rfl⟩⟩

/-- The value of an integer literal may be exchanged for an integer in reach. -/
theorem node_literal {entries entries' : List (String × Document)} {v' : Document} {path : Path}
    {n : Node} {i : Int} (htag : HasTag entries .integerLiteral)
    (hothers : ∀ k, k ≠ "value" → lookup k entries' = lookup k entries)
    (hv' : lookup "value" entries' = some v') (hn : node (.table entries) path = .ok n)
    (h : Spells v' i) :
    n.tag? = some .integerLiteral ∧ ∃ pos,
      (InReach i → node (.table entries') path =
        .ok (.integerLiteral pos (nearestInteger i))) ∧
      (¬ InReach i → ∃ cause, node (.table entries') path = .error ⟨path, cause⟩) := by
  have hedited : Edited .integer .integerLiteral (fields entries) (fields entries') :=
    edited_fields (by decide) htag hothers
  obtain ⟨hbuild, hbuild'⟩ := @Edited.nodeOfFields_eq path _ _ _ _ hedited
  rw [node_table, hbuild] at hn
  rw [node_table, hbuild']
  cases hpos : position (fields entries) path with
  | error e => rw [hpos] at hn; cases hn
  | ok pos =>
    rw [hpos] at hn
    obtain ⟨k, rfl⟩ := eq_of_integerLiteral hn
    have hfield : lookup "value" (fields entries') = some ⟨v', node v', nodes v'⟩ := by
      rw [lookup_fields, hv']
      rfl
    exact ⟨rfl, pos, integerLiteral_of_spells hfield h⟩

/-! ## Literals inside descriptors -/

/-- The second element has the value `v'` where the first one has the value `v`, in the integer
literal at a path.  Everything besides is the same. -/
inductive Revalued (v v' : Document) : Path → Document → Document → Prop
  | value {entries entries' : List (String × Document)} (htag : HasTag entries .integerLiteral)
      (hothers : ∀ k, k ≠ "value" → lookup k entries' = lookup k entries)
      (hv : lookup "value" entries = some v) (hv' : lookup "value" entries' = some v') :
      Revalued v v' [] (.table entries) (.table entries')
  | child {entries entries' : List (String × Document)} {tag : Tag} {r : Read} {key : String}
      {d d' : Document} {path : Path} (htag : HasTag entries tag) (hr : r ∈ reads tag)
      (hkey : r.nodeKey? = some key)
      (hothers : ∀ k, k ≠ key → lookup k entries' = lookup k entries)
      (hd : lookup key entries = some d) (hd' : lookup key entries' = some d')
      (h : Revalued v v' path d d') :
      Revalued v v' (.key key :: path) (.table entries) (.table entries')
  | item {entries entries' : List (String × Document)} {tag : Tag} {key : String}
      {before after : List Document} {d d' : Document} {path : Path} (htag : HasTag entries tag)
      (hr : Read.children key ∈ reads tag)
      (hothers : ∀ k, k ≠ key → lookup k entries' = lookup k entries)
      (hd : lookup key entries = some (.list (before ++ d :: after)))
      (hd' : lookup key entries' = some (.list (before ++ d' :: after)))
      (h : Revalued v v' path d d') :
      Revalued v v' (.key key :: .index before.length :: path) (.table entries) (.table entries')

/-- The element at `base` describes a node with a tag, whose literal at a path has the integer
nearest to `i`; or the integer is out of reach, and the literal is to blame. -/
def Takes (d : Document) (base path : Path) (tag : Option Tag) (i : Int) : Prop :=
  (InReach i → ∃ n pos, node d base = .ok n ∧ n.tag? = tag ∧
      n.At path (.integerLiteral pos (nearestInteger i))) ∧
    (¬ InReach i → ∃ cause, node d base = .error ⟨base ++ path, cause⟩)

/-- What holds of an element holds of the one around it, which hands on its node and its error. -/
theorem Takes.inside {inner d : Document} {base first rest : Path} {tag tag' : Option Tag} {i : Int}
    (h : Takes inner (base ++ first) rest tag i)
    (hok : ∀ m, node inner (base ++ first) = .ok m → m.tag? = tag →
      ∃ n, node d base = .ok n ∧ n.tag? = tag' ∧ (first, m) ∈ n.parts)
    (herror : ∀ e, node inner (base ++ first) = .error e → node d base = .error e) :
    Takes d base (first ++ rest) tag' i := by
  obtain ⟨hreach, hfar⟩ := h
  constructor
  · intro hi
    obtain ⟨m, pos, hm, htag, hat⟩ := hreach hi
    obtain ⟨n, hn, htag', hpart⟩ := hok m hm htag
    exact ⟨n, pos, hn, htag', .inside hpart hat⟩
  · intro hi
    obtain ⟨cause, he⟩ := hfar hi
    exact ⟨cause, by rw [herror _ he, List.append_assoc]⟩

namespace Revalued

variable {v v' : Document} {path : Path} {d d' : Document}

theorem tables (h : Revalued v v' path d d') :
    (∃ entries, d = .table entries) ∧ ∃ entries, d' = .table entries := by
  cases h <;> exact ⟨⟨_, rfl⟩, ⟨_, rfl⟩⟩

/-- An element that describes a node takes any integer into a literal inside. -/
theorem takes (h : Revalued v v' path d d') {i : Int} (hspells : Spells v' i) {base : Path}
    {n : Node} (hn : node d base = .ok n) : Takes d' base path n.tag? i := by
  -- Every element keeps its tag: an operator is exchanged for an operator only, and the elements
  -- around are built as before.
  induction h generalizing base n with
  | @value entries entries' htag hothers hv hv' =>
    obtain ⟨htag?, pos, hok, herror⟩ := node_literal htag hothers hv' hn hspells
    refine ⟨fun hi => ⟨_, pos, hok hi, htag?.symm, .here _⟩, fun hi => ?_⟩
    rw [List.append_nil]
    exact herror hi
  | @child entries entries' tag r key d d' path htag hr hkey hothers hd hd' h ih =>
    obtain ⟨⟨inner, rfl⟩, inner', rfl⟩ := h.tables
    obtain ⟨htag?, m, hm, hok, herror⟩ := node_child hr hkey htag hothers hd hd' hn
    rw [htag?]
    exact (ih hm).inside hok herror
  | @item entries entries' tag key before after d d' path htag hr hothers hd hd' h ih =>
    obtain ⟨htag?, m, hm, hok, herror⟩ := node_item hr htag hothers hd hd' hn
    rw [htag?]
    exact (ih hm).inside (fun m' hm' _ => hok m' hm') herror

end Revalued

/-! ## Descriptors -/

/-- What becomes of a document, read on its own or from a file in either format. -/
def Describes (d : Document) (result : Except DecodeError Shader) : Prop :=
  ofDocument d = result ∧
    (∀ cs, Json.read cs = some d → ofJson cs = result.mapError .decode) ∧
    ∀ bytes, MessagePack.read bytes = some d → ofMessagePack bytes = result.mapError .decode

theorem describes_of_eq {d : Document} {result : Except DecodeError Shader}
    (h : ofDocument d = result) : Describes d result := by
  refine ⟨h, fun cs hcs => ?_, fun bytes hbytes => ?_⟩
  · rw [ofJson, ofFormat, hcs, ← h]
  · rw [ofMessagePack, ofFormat, hbytes, ← h]

/-- **An integer literal has the nearest double as its value.**  Put any integer into an integer
literal of a descriptor, in any spelling.  If the nearest integer that is a double has 64 bits, the
descriptor still describes a shader, the same but for its tree, and the literal at this place has
that integer as its value; otherwise the descriptor is refused at the literal.  The value is the
integer itself exactly if all of its bits but the first 53 are zero. -/
theorem integer_literal_nearest {root root' : List (String × Document)} {tree tree' v v' : Document}
    {path : Path} {n : Int} {shader : Shader} (htree : lookup "ast" root = some tree)
    (htree' : lookup "ast" root' = some tree')
    (hothers : ∀ key, key ≠ "ast" → lookup key root' = lookup key root)
    (hplace : Revalued v v' path tree tree') (hn : Spells v' n)
    (hshader : ofDocument (.table root) = .ok shader) :
    (InReach n → ∃ t pos, Describes (.table root') (.ok { shader with tree := t }) ∧
        t.At path (.integerLiteral pos (nearestInteger n))) ∧
      (¬ InReach n → ∃ cause, Describes (.table root') (.error ⟨.key "ast" :: path, cause⟩)) ∧
      (nearestInteger n = n ↔ Binary64.unit n.natAbs ∣ n.natAbs) := by
  obtain ⟨⟨inner, rfl⟩, inner', rfl⟩ := hplace.tables
  obtain ⟨m, hm, hok, herror⟩ := ofDocument_tree htree htree' hothers hshader
  obtain ⟨hreach, hfar⟩ := hplace.takes hn hm
  refine ⟨fun hi => ?_, fun hi => ?_, nearestInteger_eq_self_iff n⟩
  · obtain ⟨t, pos, ht, htag, hat⟩ := hreach hi
    exact ⟨t, pos, describes_of_eq (hok t ht htag), hat⟩
  · obtain ⟨cause, he⟩ := hfar hi
    exact ⟨cause, describes_of_eq (herror _ he)⟩

/-- A literal whose value is a decimal. -/
def literalOf (digits : String) : Document :=
  .table [("type", .text "IntegerLiteral"), ("value", .number (.decimal digits))]

/-- A program that returns such a literal. -/
def returning (digits : String) : List (String × Document) :=
  [("ast", .table
    [("type", .text "Program"),
     ("statements",
      .list [.table [("type", .text "ReturnStatement"), ("value", literalOf digits)]])])]

theorem revalued_returning (digits digits' : String) :
    ∃ tree tree', lookup "ast" (returning digits) = some tree ∧
      lookup "ast" (returning digits') = some tree' ∧
      Revalued (.number (.decimal digits)) (.number (.decimal digits'))
        [.key "statements", .index 0, .key "value"] tree tree' := by
  have hliteral : Revalued (.number (.decimal digits)) (.number (.decimal digits')) []
      (literalOf digits) (literalOf digits') :=
    .value ⟨_, rfl, rfl⟩ (fun k hk => by simp [lookup, hk.symm]) rfl rfl
  have hreturn : Revalued (.number (.decimal digits)) (.number (.decimal digits')) [.key "value"]
      (.table [("type", .text "ReturnStatement"), ("value", literalOf digits)])
      (.table [("type", .text "ReturnStatement"), ("value", literalOf digits')]) :=
    .child ⟨_, rfl, rfl⟩ (List.mem_singleton_self _) rfl (fun k hk => by simp [lookup, hk.symm])
      rfl rfl hliteral
  exact ⟨_, _, rfl, rfl, @Revalued.item _ _ _ _ .program "statements" [] [] _ _ _ ⟨_, rfl, rfl⟩
    (by decide) (fun k hk => by simp [lookup, hk.symm]) rfl rfl hreturn⟩

/-- The digits of the least positive integer that is not a double. -/
def oddDigits : Numeral.Spelling where
  sign := none
  whole := ⟨"9007199254740993".toList, List.all_eq_true.1 (by decide)⟩
  fraction := none
  exponent := none
  digits_ne := by decide

/-- The least positive integer that is no double becomes even. -/
theorem integer_literal_nearest_odd :
    ∃ shader t pos, ofDocument (.table (returning "1")) = .ok shader ∧
      Describes (.table (returning "9007199254740993")) (.ok { shader with tree := t }) ∧
      t.At [.key "statements", .index 0, .key "value"] (.integerLiteral pos 9007199254740992) := by
  have hn : Spells (.number (.decimal "9007199254740993")) 9007199254740993 :=
    .decimal (d := oddDigits) ⟨9007199254740993, rfl, by decide⟩
  have hnearest : nearestInteger 9007199254740993 = 9007199254740992 := by decide +kernel
  obtain ⟨tree, tree', htree, htree', hplace⟩ := revalued_returning "1" "9007199254740993"
  have hothers : ∀ key, key ≠ "ast" →
      lookup key (returning "9007199254740993") = lookup key (returning "1") :=
    fun key hkey => by simp [returning, lookup, hkey.symm]
  obtain ⟨hreach, -⟩ := integer_literal_nearest htree htree' hothers hplace hn rfl
  obtain ⟨t, pos, ht, hat⟩ := hreach (by unfold InReach leastInt64; omega)
  rw [hnearest] at hat
  exact ⟨_, t, pos, rfl, ht, hat⟩

/-- Not every integer of 64 bits survives: the first is taken for its neighbour and the second is
refused; and one that has more than 64 bits is taken for the least. -/
theorem integer_literal_inexact :
    ofDocument (.table [("ast", literalOf "9007199254740993")]) =
        .ok { tree := .integerLiteral .unknown 9007199254740992 } ∧
      (∃ x, ofDocument (.table [("ast", literalOf "9223372036854775807")]) =
        .error ⟨[.key "ast"], .wideInteger x⟩) ∧
      ofDocument (.table [("ast", literalOf "-9223372036854775809")]) =
        .ok { tree := .integerLiteral .unknown leastInt64 } := by
  exact ⟨rfl, ⟨_, rfl⟩, rfl⟩

end Descriptor

end ShaderScript
