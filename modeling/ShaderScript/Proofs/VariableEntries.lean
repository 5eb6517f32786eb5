import ShaderScript.Proofs.DescriptorSchema

/-!
# The two spellings of a variable

An entry of a list of variables is a name, or a table with a name and maybe a type.  A name `x` and
a table that has the name `x` and no type (`Spelled`) stand for the same variable, and decoding does
not tell them apart, with one exception: the table must not have an empty name, but the name alone
may be empty.
-/

namespace ShaderScript

namespace Descriptor

open Document

variable {key x : String} {root root' entry : List (String × Document)} {path : Path} {i : Nat}
  {before after : List Document}

/-! ## Entries -/

/-- A table that has a name and no type. -/
def NameOnly (x : String) (entry : List (String × Document)) : Prop :=
  lookup "name" entry = some (.text x) ∧ (lookup "type" entry).getD .null = .null

/-- A table with nothing but a name is read as the name, unless it is empty. -/
theorem variableOf_nameOnly (h : NameOnly x entry) (path : Path) (i : Nat) :
    variableOf path i (.table entry) =
      if x = "" then .error ⟨path, .unnamedVariable⟩ else variableOf path i (.text x) := by
  obtain ⟨hname, htype⟩ := h
  have hempty : plainText entry (path ++ [Segment.index i]) "type" = .ok "" := by
    unfold plainText
    cases hfound : lookup "type" entry with
    | none => rfl
    | some d =>
      rw [hfound] at htype
      cases htype
      rfl
  have hdeclared : plainText entry (path ++ [Segment.index i]) "name" = .ok x := by
    rw [plainText, hname]
  simp only [variableOf, hdeclared, hempty]
  by_cases hx : x = ""
  · rw [if_pos hx]
    exact if_pos hx
  · rw [if_neg hx]
    exact if_neg hx

/-! ## Descriptors -/

/-- Descriptors that differ in one entry of the list of variables at a key: in the first it is the
name `x`, in the second a table with that name and no type. -/
structure Spelled (key x : String) (root root' : List (String × Document)) : Prop where
  key_mem : key ∈ variableKeys
  lists : ∃ before after entry, NameOnly x entry ∧
    lookup key root = some (.list (before ++ .text x :: after)) ∧
    lookup key root' = some (.list (before ++ .table entry :: after))
  others : ∀ k, k ≠ key → lookup k root' = lookup k root

namespace Spelled

/-- All that is read of a descriptor besides the list is the same. -/
theorem readers (h : Spelled key x root root') :
    child (fields root') [] "ast" = child (fields root) [] "ast" ∧
      (∀ k, k ≠ key → variableList (fields root') k = variableList (fields root) k) ∧
      ∀ k ∉ variableKeys, boolean (fields root') [] k = boolean (fields root) [] k := by
  have hpresent : ∀ k, k ≠ key → present (fields root') k = present (fields root) k := by
    intro k hk
    rw [present, present, lookup_fields, lookup_fields, h.others k hk]
  have hne : ∀ k ∉ variableKeys, k ≠ key := by
    rintro k hk rfl
    exact hk h.key_mem
  refine ⟨?_, fun k hk => ?_, fun k hk => ?_⟩
  · rw [child, child, hpresent "ast" (hne "ast" (by decide))]
  · rw [variableList, variableList, hpresent k hk]
  · rw [boolean, boolean, hpresent k (hne k hk)]

/-- The list with the table is read as the one with the name, unless the name is empty: then it is
refused, at the list if all entries before are fine. -/
theorem variableList_eq (h : Spelled key x root root') :
    (x ≠ "" → variableList (fields root') key = variableList (fields root) key) ∧
      (x = "" → ∃ e, variableList (fields root') key = .error e ∧
        ∀ vs, variableList (fields root) key = .ok vs → e = ⟨[.key key], .unnamedVariable⟩) := by
  obtain ⟨before, after, entry, hentry, hlist, hlist'⟩ := h.lists
  rw [variableList, variableList, present_fields hlist (by simp), present_fields hlist' (by simp)]
  simp only [variableItems_eq, eachFrom_append, variableOf_nameOnly hentry]
  refine ⟨fun hx => by rw [if_neg hx], fun hx => ?_⟩
  rw [if_pos hx]
  cases eachFrom (variableOf [.key key]) 0 before with
  | error e => exact ⟨e, rfl, fun vs hvs => by cases hvs⟩
  | ok vs => exact ⟨_, rfl, fun _ _ => rfl⟩

theorem surroundings_eq (h : Spelled key x root root') :
    (x ≠ "" → surroundings (fields root') = surroundings (fields root)) ∧
      (x = "" → (∀ shader, surroundings (fields root') ≠ .ok shader) ∧
        ∀ shader, surroundings (fields root) = .ok shader →
          surroundings (fields root') = .error ⟨[.key key], .unnamedVariable⟩) := by
  obtain ⟨-, hlists, hflags⟩ := h.readers
  refine ⟨fun hx => ?_, fun hx => ?_⟩
  · have hall : variableList (fields root') = variableList (fields root) := by
      funext k
      by_cases hk : k = key
      · rw [hk, h.variableList_eq.1 hx]
      · exact hlists k hk
    simp (disch := decide) only [surroundings, hall, hflags]
  · obtain ⟨e, he, hcause⟩ := h.variableList_eq.2 hx
    refine ⟨fun shader hok => ?_, fun shader hok => ?_⟩ <;>
      obtain ⟨vs, hvs⟩ := variableList_of_surroundings hok key h.key_mem
    · rw [he] at hvs
      cases hvs
    -- All lists before this one are read, so its error is the first.
    · obtain ⟨before, after, hkeys⟩ := List.append_of_mem h.key_mem
      have hnodup : (before ++ key :: after).Nodup := by
        rw [← hkeys]
        decide
      refine surroundings_error hkeys (fun k hk => ?_) (hcause vs hvs ▸ he)
      rw [hlists k]
      · exact variableList_of_surroundings hok k (by rw [hkeys]; exact List.mem_append_left _ hk)
      · rintro rfl
        exact (List.nodup_append.mp hnodup).2.2 _ hk _ List.mem_cons_self rfl

end Spelled

/-- **A variable may be spelled in two ways.**  Let two descriptors differ in one entry of a list of
variables, which is a name in the first and a table with that name and no type in the second.  They
describe the same shader, or both are wrong, exactly if the name is not empty or the first
descriptor is wrong anyway.  If the name is not empty, they are also wrong in the same place for the
same reason.  If it is, and the first descriptor has a shader, the second one is refused for its
variable without a name. -/
theorem entry_spellings_agree_iff (h : Spelled key x root root') :
    ((∃ shader, ofDocument (.table root) = .ok shader ∧ ofDocument (.table root') = .ok shader) ∨
        (∃ e e', ofDocument (.table root) = .error e ∧ ofDocument (.table root') = .error e') ↔
      x ≠ "" ∨ ∃ e, ofDocument (.table root) = .error e) ∧
    (x ≠ "" → ofDocument (.table root') = ofDocument (.table root)) ∧
    (x = "" → ∀ shader, ofDocument (.table root) = .ok shader →
      ofDocument (.table root') = .error ⟨[.key key], .unnamedVariable⟩) := by
  obtain ⟨hsame, hempty⟩ := h.surroundings_eq
  have hdecode := ofDocument_table root'
  rw [h.readers.1] at hdecode
  have hagree : x ≠ "" → ofDocument (.table root') = ofDocument (.table root) := by
    intro hx
    rw [hdecode, hsame hx, ← ofDocument_table]
  -- A table with an empty name is refused, if nothing before it is.
  have hfails : x = "" → ∃ e', ofDocument (.table root') = .error e' := by
    intro hx
    cases hroot' : ofDocument (.table root') with
    | error e' => exact ⟨e', rfl⟩
    | ok shader =>
      rw [hdecode] at hroot'
      obtain ⟨tree, -, hroot'⟩ := bind_eq_ok.mp hroot'
      split at hroot'
      · cases hroot'
      · obtain ⟨rest, hrest, -⟩ := map_eq_ok_iff.mp hroot'
        exact absurd hrest ((hempty hx).1 rest)
  refine ⟨⟨?_, ?_⟩, hagree, fun hx shader hroot => ?_⟩
  · rintro (⟨shader, -, hroot'⟩ | ⟨e, -, hroot, -⟩)
    · refine .inl fun hx => ?_
      obtain ⟨e', he'⟩ := hfails hx
      rw [he'] at hroot'
      cases hroot'
    · exact .inr ⟨e, hroot⟩
  · intro hor
    cases hroot : ofDocument (.table root) with
    | ok shader =>
      refine .inl ⟨shader, rfl, ?_⟩
      rw [hagree (hor.resolve_right (by simp [hroot])), hroot]
    | error e =>
      by_cases hx : x = ""
      · obtain ⟨e', he'⟩ := hfails hx
        exact .inr ⟨e, e', rfl, he'⟩
      · exact .inr ⟨e, e, rfl, by rw [hagree hx, hroot]⟩
  · rw [ofDocument_table] at hroot
    obtain ⟨tree, htree, hroot⟩ := bind_eq_ok.mp hroot
    split at hroot
    · cases hroot
    · rename_i habsent
      obtain ⟨rest, hrest, -⟩ := map_eq_ok_iff.mp hroot
      rw [hdecode, htree, (hempty hx).2 rest hrest]
      exact if_neg habsent

/-- A shader with one uniform. -/
def uniformDocument (entry : Document) : List (String × Document) :=
  [("ast", .table [("type", .text "Program")]), ("uniforms", .list [entry])]

theorem spelled_uniformDocument (x : String) :
    Spelled "uniforms" x (uniformDocument (.text x))
      (uniformDocument (.table [("name", .text x)])) where
  key_mem := by decide
  lists := ⟨[], [], [("name", .text x)], ⟨rfl, rfl⟩, rfl, rfl⟩
  others k hk := by
    have hlookup : ∀ entry, lookup k (uniformDocument entry) =
        if "ast" = k then some (.table [("type", .text "Program")]) else none := by
      intro entry
      simp [uniformDocument, lookup, hk.symm]
    rw [hlookup, hlookup]

/-- A uniform as a name alone, and in a table. -/
theorem entry_spellings_agree_iff_named :
    Spelled "uniforms" "u" (uniformDocument (.text "u"))
        (uniformDocument (.table [("name", .text "u")])) ∧
      ofDocument (.table (uniformDocument (.table [("name", .text "u")]))) =
        ofDocument (.table (uniformDocument (.text "u"))) :=
  ⟨spelled_uniformDocument "u",
    (entry_spellings_agree_iff (spelled_uniformDocument "u")).2.1 (by decide)⟩

/-- An empty name is taken for a variable as it is, and refused in a table. -/
theorem empty_name_taken_alone_only :
    Spelled "uniforms" "" (uniformDocument (.text ""))
        (uniformDocument (.table [("name", .text "")])) ∧
      (∃ shader, ofDocument (.table (uniformDocument (.text ""))) = .ok shader ∧
        shader.uniforms = [⟨"", ""⟩]) ∧
      ofDocument (.table (uniformDocument (.table [("name", .text "")]))) =
        .error ⟨[.key "uniforms"], .unnamedVariable⟩ :=
  ⟨spelled_uniformDocument "", ⟨_, rfl, rfl⟩, rfl⟩

end Descriptor

end ShaderScript
