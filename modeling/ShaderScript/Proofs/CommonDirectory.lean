import Mathlib.Data.List.Induction
import Mathlib.Data.List.Infix
import ShaderScript.Batch.Target
import ShaderScript.Proofs.CleanPath

/-!
# The common directory of files

`Batch.commonDir` starts at the directory of the first file and climbs from file to file, until it
finds a directory that holds the file.  It takes a way from a directory for one that leads out if
the text starts with two dots, so it also climbs past a directory whose entry is called `..name`.
Of all ways up past the files (`FilePath.Climbs`), it takes the one that ends deepest.
-/

namespace ShaderScript

namespace FilePath

variable {rooted : Bool} {names : List String}

/-! ## Paths that lead down -/

theorem Clean.of_plain (h : ∀ name ∈ names, Plain name) : Clean rooted names.reverse := by
  simpa using @Clean.append_plain rooted names [] trivial h

/-- A path that is made of names has them as components. -/
theorem components_down (h : ∀ name ∈ names, Plain name) :
    components (ofComponents rooted names) = names := by
  by_cases hne : names = []
  · cases rooted <;> rw [hne] <;> decide
  · exact components_ofComponents hne (.of_plain h)

theorem isAbsolute_down (h : ∀ name ∈ names, Plain name) :
    isAbsolute (ofComponents rooted names) = rooted := by
  by_cases hne : names = []
  · cases rooted <;> rw [hne] <;> decide
  · exact isAbsolute_ofComponents hne (.of_plain h)

theorem clean_down (h : ∀ name ∈ names, Plain name) :
    clean (ofComponents rooted names) = ofComponents rooted names := by
  rw [clean, components_down h, isAbsolute_down h]

/-- The directory of a path has one name less. -/
theorem dir_down (h : ∀ name ∈ names, Plain name) {last : String} (hlast : Plain last) :
    dir (ofComponents rooted (names ++ [last])) = ofComponents rooted names := by
  by_cases hne : names = []
  · have hskip : ∀ c ∈ last.toList.reverse, decide (c ≠ '/') = true := fun c hc =>
      decide_eq_true fun hslash => hlast.slash (hslash ▸ List.mem_reverse.1 hc)
    have hcut : ((if rooted then "/" else "") ++ last).toList.reverse.dropWhile (· ≠ '/') =
        if rooted then ['/'] else [] := by
      rw [String.toList_append, List.reverse_append, List.dropWhile_append_of_pos hskip]
      cases rooted <;> simp
    rw [hne, List.nil_append, ofComponents_eq (by simp), String.intercalate_singleton, dir, hcut]
    cases rooted <;> decide
  · exact dir_ofComponents hne (.of_plain h) hlast.slash

theorem length_le_length_ofComponents (h : ∀ name ∈ names, Plain name) :
    names.length ≤ (ofComponents rooted names).length := by
  induction names using List.reverseRecOn with
  | nil => exact Nat.zero_le _
  | append_singleton front last ih =>
    rw [List.forall_mem_append] at h
    by_cases hfront : front = []
    · have hlast := (h.2 last (List.mem_singleton_self last)).ne_empty
      have hlength : 0 < last.length := Nat.pos_of_ne_zero fun h0 => hlast (by simpa using h0)
      simp [hfront, ofComponents]
      omega
    · have hlength := ih h.1
      rw [ofComponents_concat hfront, String.length_append, String.length_append,
        List.length_append, show "/".length = 1 from rfl, List.length_singleton]
      omega

/-- The steps of a path that leads down, the relative top being empty. -/
theorem steps_down (h : ∀ name ∈ names, Plain name) :
    steps (if ofComponents rooted names = "." then "" else ofComponents rooted names) =
      (if rooted then [""] else []) ++ names := by
  by_cases hne : names = []
  · cases rooted <;> rw [hne] <;> decide
  · have htext : ∀ text, components text = [] → ofComponents rooted names ≠ text := by
      rintro _ htext rfl
      exact hne ((components_down h).symm.trans htext)
    rw [if_neg (htext "." (by decide)), steps, if_neg (htext "" (by decide)),
      if_neg (htext "/" (by decide)), pieces_ofComponents hne (.of_plain h)]

/-- Names that both paths start with are dropped. -/
theorem dropCommon_append (common start goal : List String) :
    dropCommon (common ++ start) (common ++ goal) = dropCommon start goal := by
  induction common with
  | nil => rfl
  | cons name rest ih => simp [dropCommon, ih]

/-- If all names are dropped, the other path starts with them. -/
theorem prefix_of_dropCommon {start goal : List String} (h : (dropCommon start goal).1 = []) :
    start <+: goal := by
  induction start generalizing goal with
  | nil => exact List.nil_prefix
  | cons name start ih =>
    cases goal with
    | nil => cases h
    | cons other goal =>
      rw [dropCommon] at h
      split at h
      · rename_i hsame
        exact hsame ▸ (List.prefix_cons_inj name).2 (ih h)
      · cases h

/-- A way starts with two dots if its first name does. -/
theorem startsWith_intercalate (name : String) (rest : List String) :
    ("/".intercalate (name :: rest)).startsWith ".." = name.startsWith ".." := by
  by_cases hrest : rest = []
  · rw [hrest, String.intercalate_singleton]
  · rw [String.intercalate_cons_of_ne_nil hrest, Bool.eq_iff_iff, String.startsWith_string_iff,
      String.startsWith_string_iff]
    -- The slash is none of the dots.
    rcases hname : name.toList with _ | ⟨c, _ | ⟨d, cs⟩⟩ <;> simp [hname]

/-- A directory is found to hold a file if it is the file, or if the file lies below it, behind a
name that does not start with two dots. -/
theorem holds_down_iff {file : List String} (h : ∀ name ∈ names, Plain name)
    (hfile : ∀ name ∈ file, Plain name) (hne : file ≠ []) :
    Batch.holds (ofComponents rooted names) (ofComponents rooted file) = true ↔
      file = names ∨ ∃ name rest, file = names ++ name :: rest ∧ name.startsWith ".." = false := by
  have hinj : ofComponents rooted file = ofComponents rooted names ↔ file = names := by
    refine ⟨fun heq => ?_, congrArg _⟩
    have hcomponents := congrArg components heq
    rwa [components_down h, components_down hfile] at hcomponents
  have htop : ofComponents rooted file ≠ "." := by
    intro htop
    exact hne ((components_down hfile).symm.trans (by rw [htop]; decide))
  have hgoal := @steps_down rooted _ hfile
  rw [if_neg htop] at hgoal
  have habsolute : isAbsolute (if ofComponents rooted names = "." then "" else
      ofComponents rooted names) = isAbsolute (ofComponents rooted file) := by
    rw [isAbsolute_down hfile]
    split
    · rename_i hdot
      rw [← @isAbsolute_down rooted _ h, hdot]
      decide
    · exact isAbsolute_down h
  unfold Batch.holds relative?
  rw [clean_down h, clean_down hfile]
  dsimp only
  by_cases heq : file = names
  · simp [heq]
  · rw [if_neg (hinj.not.2 heq), if_neg (not_not.2 habsolute), steps_down h, hgoal,
      dropCommon_append]
    by_cases hstart : names <+: file
    · -- The way leads down only, and its first name is the one behind the directory.
      obtain ⟨down, rfl⟩ := hstart
      have hdown : down ≠ [] := fun hdown => heq (by rw [hdown, List.append_nil])
      obtain ⟨name, rest, rfl⟩ := List.exists_cons_of_ne_nil hdown
      have hway := dropCommon_append names [] (name :: rest)
      rw [List.append_nil] at hway
      rw [hway]
      simp [dropCommon, startsWith_intercalate]
    · -- The way leads up first, and so starts with two dots.
      have hout : ¬(file = names ∨ ∃ name rest, file = names ++ name :: rest ∧
          name.startsWith ".." = false) := by
        rintro (hsame | ⟨name, rest, hsplit, -⟩)
        · exact heq hsame
        · exact hstart ⟨_, hsplit.symm⟩
      rw [iff_false_right hout]
      cases hway : dropCommon names file with
      | mk up down =>
        cases up with
        | nil => exact absurd (prefix_of_dropCommon (by rw [hway])) hstart
        | cons name up =>
          dsimp only
          split
          · rename_i relative hrelative
            split at hrelative
            · cases hrelative
            · rw [← Option.some.inj hrelative, List.map_cons, List.cons_append,
                startsWith_intercalate]
              simp
          · exact Bool.false_ne_true

/-! ## Climbing -/

/-- Climbing ends at the last directory of the way that is found to hold the file, or at the top. -/
theorem climb_down (file : String) (h : ∀ name ∈ names, Plain name) {fuel : Nat}
    (hfuel : names.length < fuel) : ∃ kept,
    Batch.climb file fuel (ofComponents rooted names) = ofComponents rooted kept ∧
      kept <+: names ∧ (kept = [] ∨ Batch.holds (ofComponents rooted kept) file = true) ∧
      ∀ other, other <+: names → Batch.holds (ofComponents rooted other) file = true →
        other <+: kept := by
  -- Climbing takes the last name away, so the names are built up from the front.
  induction names using List.reverseRecOn generalizing fuel with
  | nil =>
    obtain ⟨fuel, rfl⟩ := Nat.exists_eq_add_one_of_ne_zero (Nat.ne_of_gt hfuel)
    refine ⟨[], ?_, List.prefix_rfl, .inl rfl, fun _ hother _ => hother⟩
    have htop : dir (ofComponents rooted []) = ofComponents rooted [] := by
      cases rooted <;> decide
    simp [Batch.climb, htop]
  | append_singleton front last ih =>
    obtain ⟨fuel, rfl⟩ := Nat.exists_eq_add_one_of_ne_zero (Nat.ne_of_gt (Nat.zero_lt_of_lt hfuel))
    unfold Batch.climb
    split
    · rename_i hholds
      exact ⟨_, rfl, List.prefix_rfl, .inr hholds, fun _ hother _ => hother⟩
    · rename_i hholds
      have hfront : ∀ name ∈ front, Plain name := fun name hname => h name (by simp [hname])
      have hparent : ofComponents rooted front ≠ ofComponents rooted (front ++ [last]) := by
        intro heq
        have hcomponents := congrArg components heq
        rw [components_down hfront, components_down h] at hcomponents
        simp at hcomponents
      rw [dir_down hfront (h last (by simp)), if_neg hparent]
      obtain ⟨kept, hclimb, hkept, hend, hmost⟩ := ih hfront (by simpa using hfuel)
      refine ⟨kept, hclimb, hkept.trans (List.prefix_append _ _), hend,
        fun other hother hheld => ?_⟩
      rcases List.prefix_concat_iff.1 hother with rfl | hother
      · exact absurd hheld hholds
      · exact hmost other hother hheld

/-! ## Files -/

/-- A clean path that leads down from the root, or from the working directory, to some name. -/
structure IsFile (rooted : Bool) (file : String) : Prop where
  clean : clean file = file
  rooted : isAbsolute file = rooted
  down : ".." ∉ components file
  ne_nil : components file ≠ []

variable {file : String}

/-- The names on the way to a file are plain. -/
theorem IsFile.plain (h : IsFile rooted file) : ∀ name ∈ components file, Plain name := by
  have hall : ∀ {names}, Clean rooted names → ∀ name ∈ names, name ≠ "." := by
    intro names hclean
    induction names with
    | nil => simp
    | cons name rest ih => exact List.forall_mem_cons.2 ⟨hclean.1.2.2, ih hclean.2.2⟩
  have hclean := clean_components file
  rw [h.rooted] at hclean
  intro name hname
  have hreverse := List.mem_reverse.2 hname
  obtain ⟨hslash, hempty⟩ := hclean.mem name hreverse
  exact ⟨hslash, hempty, hall hclean name hreverse, fun hdots => h.down (hdots ▸ hname)⟩

theorem IsFile.eq_ofComponents (h : IsFile rooted file) :
    file = ofComponents rooted (components file) := by
  rw [← h.rooted]
  exact h.clean.symm

/-- Something lies below a directory. -/
def Contains (dir path : String) : Prop :=
  components dir <+: components path ∧ components dir ≠ components path

instance (dir path : String) : Decidable (Contains dir path) := inferInstanceAs (Decidable (_ ∧ _))

/-- A directory contains all files, and none below it does. -/
def IsDeepest (dir : String) (files : List String) : Prop :=
  (∀ file ∈ files, Contains dir file) ∧
    ∀ deeper, Contains dir deeper → ∃ file ∈ files, ¬Contains deeper file

/-- A directory contains what the directories below it contain. -/
theorem Contains.trans {dir between path : String} (h : Contains between path)
    (hdir : components dir <+: components between) : Contains dir path := by
  refine ⟨hdir.trans h.1, fun heq => h.2 ?_⟩
  exact h.1.eq_of_length_le (heq ▸ hdir.length_le)

/-- All directories that contain the files are above the deepest one. -/
theorem IsDeepest.reaches {dir other : String} {files : List String} (h : IsDeepest dir files)
    (hne : files ≠ []) (hother : ∀ file ∈ files, Contains other file) :
    components other <+: components dir := by
  obtain ⟨first, hfirst⟩ := List.exists_mem_of_ne_nil files hne
  rcases List.prefix_or_prefix_of_prefix (hother first hfirst).1 (h.1 first hfirst).1 with hle | hle
  · exact hle
  · by_cases heq : components dir = components other
    · exact heq ▸ List.prefix_rfl
    · obtain ⟨file, hfile, hnot⟩ := h.2 other ⟨hle, heq⟩
      exact absurd (hother file hfile) hnot

/-- There is a deepest directory above files, and below any that contains them. -/
theorem exists_isDeepest {dir first : String} {files : List String} (hfirst : first ∈ files)
    (h : ∀ file ∈ files, Contains dir file) : ∃ deepest, IsDeepest deepest files := by
  induction hn : (components first).length - (components dir).length using Nat.strongRecOn
    generalizing dir with
  | ind n ih =>
    by_cases hdeeper : ∃ deeper, Contains dir deeper ∧ ∀ file ∈ files, Contains deeper file
    · obtain ⟨deeper, hdir, hall⟩ := hdeeper
      have hlong := (h first hfirst).1.length_le
      have hshort : (components dir).length < (components deeper).length :=
        lt_of_not_ge fun hle => hdir.2 (hdir.1.eq_of_length_le hle)
      have hfits := (hall first hfirst).1.length_le
      exact ih _ (by omega) hall rfl
    · refine ⟨dir, h, fun deeper hdir => ?_⟩
      by_contra hnone
      exact hdeeper ⟨deeper, hdir, by simpa using hnone⟩

/-- Below the directory, the way to the file starts with a name that does not start with two dots;
or the directory is the top. -/
def Admits (dir file : String) : Prop :=
  components dir = [] ∨
    ∃ name rest, components file = components dir ++ name :: rest ∧ name.startsWith ".." = false

/-- A directory that admits a file contains it. -/
theorem Admits.contains {dir : String} (h : Admits dir file) (hne : components file ≠ []) :
    Contains dir file := by
  rcases h with htop | ⟨name, rest, hbelow, -⟩
  · exact ⟨htop ▸ List.nil_prefix, fun heq => hne (heq ▸ htop)⟩
  · exact ⟨⟨_, hbelow.symm⟩, fun heq => by simp [← heq] at hbelow⟩

/-- The text of a directory on the way to files. -/
structure IsAbove (rooted : Bool) (dir : String) (files : List String) : Prop where
  plain : ∀ name ∈ components dir, Plain name
  eq : dir = ofComponents rooted (components dir)
  above : ∀ file ∈ files, components dir <+: components file

/-- A way up past the files, from the directory of the first: at every further file it goes on, up
or not, to a directory that admits the file, or is it. -/
inductive Climbs : List String → String → Prop
  | first {dir file : String} (h : Contains dir file) : Climbs [file] dir
  | next {files : List String} {dir below file : String} (h : Climbs files below)
      (hup : components dir <+: components below)
      (hadmits : components file = components dir ∨ Admits dir file) : Climbs (files ++ [file]) dir

theorem Climbs.ne_nil {files : List String} {dir : String} (h : Climbs files dir) : files ≠ [] := by
  cases h <;> simp

/-- Only the names of the directory count. -/
theorem Climbs.congr {files : List String} {dir dir' : String} (h : Climbs files dir)
    (heq : components dir' = components dir) : Climbs files dir' := by
  cases h with
  | first h => exact .first (by rwa [Contains, heq])
  | next h hup hadmits => exact .next h (heq ▸ hup) (by rwa [Admits, heq])

/-- A way up starts above a file and never comes back to it. -/
theorem Climbs.contains_first {files : List String} {dir : String} (h : Climbs files dir) :
    ∃ first ∈ files, Contains dir first := by
  induction h with
  | @first dir file h => exact ⟨file, List.mem_singleton_self file, h⟩
  | next h hup hadmits ih =>
    obtain ⟨first, hfirst, hcontains⟩ := ih
    exact ⟨first, List.mem_append_left _ hfirst, hcontains.trans hup⟩

end FilePath

namespace Batch

open FilePath

variable {rooted : Bool} {file : String} {files : List String}

/-- One more file makes the common directory climb. -/
theorem commonDir_concat (hne : files ≠ []) (file : String) :
    commonDir (files ++ [file]) =
      climb file ((commonDir files).length + 1) (commonDir files) := by
  obtain ⟨first, rest, rfl⟩ := List.exists_cons_of_ne_nil hne
  simp [commonDir]

/-- One more file takes the common directory up to the last one that admits the file, or is it. -/
theorem commonDir_step (hne : files ≠ []) (hfile : IsFile rooted file)
    (h : IsAbove rooted (commonDir files) files) :
    let next := commonDir (files ++ [file])
    IsAbove rooted next (files ++ [file]) ∧ components next <+: components (commonDir files) ∧
      (components file = components next ∨ Admits next file) ∧
      ∀ dir, components dir <+: components (commonDir files) →
        components file = components dir ∨ Admits dir file →
          components dir <+: components next := by
  intro next
  -- Every name takes a character of the path, so its length is fuel enough.
  have hlength := @length_le_length_ofComponents rooted _ h.plain
  rw [← h.eq] at hlength
  obtain ⟨kept, hnext, hstart, hend, hmost⟩ :=
    @climb_down rooted _ file h.plain _ (Nat.lt_succ_of_le hlength)
  rw [← h.eq, ← commonDir_concat hne] at hnext
  have hkept : ∀ name ∈ kept, Plain name := fun name hname => h.plain name (hstart.subset hname)
  have hcomponents : components next = kept := by
    rw [show next = _ from hnext, components_down hkept]
  have hholds : ∀ {names}, (∀ name ∈ names, Plain name) → (holds (ofComponents rooted names) file =
      true ↔ components file = names ∨
        ∃ name rest, components file = names ++ name :: rest ∧ name.startsWith ".." = false) := by
    intro names hnames
    rw [← @holds_down_iff rooted _ _ hnames hfile.plain hfile.ne_nil, ← hfile.eq_ofComponents]
  have hheld : components file = components next ∨ Admits next file := by
    rw [Admits, hcomponents]
    rcases hend with htop | hheld
    · exact .inr (.inl htop)
    · exact ((hholds hkept).1 hheld).imp_right .inr
  rw [← hcomponents] at hstart hkept
  refine ⟨⟨hkept, by rw [hcomponents]; exact hnext, ?_⟩, hstart, hheld, fun dir hdir hadm => ?_⟩
  · rw [List.forall_mem_append, List.forall_mem_singleton]
    refine ⟨fun other hother => hstart.trans (h.above other hother), ?_⟩
    rcases hheld with heq | hadmits
    · rw [heq]
    · exact (hadmits.contains hfile.ne_nil).1
  · rw [hcomponents]
    have hplain : ∀ name ∈ components dir, Plain name := fun name hname =>
      h.plain name (hdir.subset hname)
    rcases hadm with heq | htop | hbelow
    · exact hmost _ hdir ((hholds hplain).2 (.inl heq))
    · exact htop ▸ List.nil_prefix
    · exact hmost _ hdir ((hholds hplain).2 (.inr hbelow))

/-- The directory of a single file. -/
theorem commonDir_singleton (h : IsFile rooted file) :
    IsAbove rooted (commonDir [file]) [file] ∧ IsDeepest (commonDir [file]) [file] := by
  obtain ⟨names, last, hsplit⟩ := (List.eq_nil_or_concat _).resolve_left h.ne_nil
  rw [List.concat_eq_append] at hsplit
  have hplain := h.plain
  rw [hsplit, List.forall_mem_append, List.forall_mem_singleton] at hplain
  have hdir : commonDir [file] = ofComponents rooted names := by
    rw [commonDir, List.foldl_nil, h.eq_ofComponents, hsplit, dir_down hplain.1 hplain.2]
  have hcomponents : components (commonDir [file]) = names := by rw [hdir, components_down hplain.1]
  have hcontains : Contains (commonDir [file]) file := by
    simp [Contains, hcomponents, hsplit]
  refine ⟨⟨hcomponents ▸ hplain.1, by rw [hcomponents, hdir], by simpa using hcontains.1⟩,
    by simpa using hcontains, fun deeper hdeeper => ⟨file, by simp, fun hfile => ?_⟩⟩
  -- There is no room for a directory between.
  rw [Contains, hsplit] at hfile
  rw [Contains, hcomponents] at hdeeper
  rcases List.prefix_concat_iff.1 hfile.1 with heq | hle
  · exact hfile.2 heq
  · exact hdeeper.2 (hdeeper.1.eq_of_length_le hle.length_le)

/-- The common directory is on the way to all files. -/
theorem commonDir_isAbove (hne : files ≠ []) (h : ∀ file ∈ files, IsFile rooted file) :
    IsAbove rooted (commonDir files) files := by
  induction files using List.reverseRecOn with
  | nil => exact absurd rfl hne
  | append_singleton front file ih =>
    rw [List.forall_mem_append, List.forall_mem_singleton] at h
    by_cases hfront : front = []
    · subst hfront
      exact (commonDir_singleton h.2).1
    · exact (commonDir_step hfront h.2 (ih hfront h.1)).1

/-- The common directory is reached on a way up past the files. -/
theorem climbs_commonDir (hne : files ≠ []) (h : ∀ file ∈ files, IsFile rooted file) :
    Climbs files (commonDir files) := by
  induction files using List.reverseRecOn with
  | nil => exact absurd rfl hne
  | append_singleton front file ih =>
    rw [List.forall_mem_append, List.forall_mem_singleton] at h
    by_cases hfront : front = []
    · subst hfront
      exact .first ((commonDir_singleton h.2).2.1 file (List.mem_singleton_self file))
    · obtain ⟨-, hup, hheld, -⟩ := commonDir_step hfront h.2 (commonDir_isAbove hfront h.1)
      exact .next (ih hfront h.1) hup hheld

/-- Every other such way ends above it: going up no further than one must is never a mistake. -/
theorem prefix_commonDir {dir : String} (hclimbs : Climbs files dir)
    (h : ∀ file ∈ files, IsFile rooted file) :
    components dir <+: components (commonDir files) := by
  induction hclimbs with
  | @first dir file hcontains =>
    have hdeepest := (commonDir_singleton (h file (List.mem_singleton_self file))).2
    exact hdeepest.reaches (by simp) (by simpa using hcontains)
  | @next front dir below file hbelow hup hadmits ih =>
    rw [List.forall_mem_append, List.forall_mem_singleton] at h
    obtain ⟨-, -, -, hmost⟩ :=
      commonDir_step hbelow.ne_nil h.2 (commonDir_isAbove hbelow.ne_nil h.1)
    exact hmost dir (hup.trans (ih h.1)) hadmits

/-- The common directory is the deepest one that contains the files exactly if there is a way up to
that one, and no file ends one. -/
theorem commonDir_isDeepest_iff (hne : files ≠ []) (h : ∀ file ∈ files, IsFile rooted file) :
    IsDeepest (commonDir files) files ↔
      (∃ dir, IsDeepest dir files ∧ Climbs files dir) ∧ ∀ file ∈ files, ¬Climbs files file := by
  have habove := commonDir_isAbove hne h
  constructor
  · intro hdeepest
    refine ⟨⟨_, hdeepest, climbs_commonDir hne h⟩, fun file hfile hclimbs => ?_⟩
    have hcontains := hdeepest.1 file hfile
    exact hcontains.2 (hcontains.1.eq_of_length_le (prefix_commonDir hclimbs h).length_le)
  · rintro ⟨⟨dir, hdeepest, hclimbs⟩, hends⟩
    have hall : ∀ file ∈ files, Contains (commonDir files) file := fun file hfile =>
      ⟨habove.above file hfile, fun heq => hends file hfile ((climbs_commonDir hne h).congr heq.symm)⟩
    have hsame := (hdeepest.reaches hne hall).eq_of_length_le
      (prefix_commonDir hclimbs h).length_le
    rw [IsDeepest] at hdeepest ⊢
    simpa only [Contains, hsame] using hdeepest

/-- The common directory contains all files if none of them is a directory of another. -/
theorem contains_of_apart (hne : files ≠ []) (h : ∀ file ∈ files, IsFile rooted file)
    (hapart : ∀ file ∈ files, ∀ other ∈ files, ¬Contains file other) :
    ∀ file ∈ files, Contains (commonDir files) file := by
  intro file hfile
  refine ⟨(commonDir_isAbove hne h).above file hfile, fun heq => ?_⟩
  obtain ⟨first, hfirst, hcontains⟩ := (climbs_commonDir hne h).contains_first
  exact hapart file hfile first hfirst (hcontains.trans (heq ▸ List.prefix_rfl))

/-- The common directory is the deepest one from the first file on exactly if no file leads away
from it by its name or by being a directory itself. -/
theorem commonDir_deepest_throughout_iff (h : ∀ file ∈ files, IsFile rooted file) :
    (∀ front, front ≠ [] → front <+: files → IsDeepest (commonDir front) front) ↔
      ∀ front file, front ≠ [] → front ++ [file] <+: files →
        (∃ other ∈ front, ¬Contains file other) ∧
          ∀ dir, IsDeepest dir (front ++ [file]) → Admits dir file := by
  have hstep : ∀ {front file}, front ≠ [] → front ++ [file] <+: files → _ :=
    fun {front file} hfront hstart => commonDir_step hfront (h file (hstart.subset (by simp)))
      (commonDir_isAbove hfront fun other hother => h other (hstart.subset (by simp [hother])))
  refine ⟨fun hright front file hfront hstart => ?_, fun hleft front => ?_⟩
  · obtain ⟨-, -, hheld, hmost⟩ := hstep hfront hstart
    have hnext := hright (front ++ [file]) (by simp) hstart
    have hfile : Contains (commonDir (front ++ [file])) file := hnext.1 file (by simp)
    constructor
    · by_contra hall
      have hup := (hright front hfront ((List.prefix_append _ _).trans hstart)).reaches hfront
        (by simpa using hall)
      exact hfile.2 (hfile.1.eq_of_length_le (hmost file hup (.inl rfl)).length_le)
    · intro dir hdir
      have hsame : components dir = components (commonDir (front ++ [file])) :=
        (hnext.reaches (by simp) hdir.1).eq_of_length_le (hdir.reaches (by simp) hnext.1).length_le
      rw [Admits, hsame]
      exact hheld.resolve_left hfile.2.symm
  · induction front using List.reverseRecOn with
    | nil => exact fun hnil => absurd rfl hnil
    | append_singleton front file ih =>
      intro _ hstart
      by_cases hfront : front = []
      · subst hfront
        exact (commonDir_singleton (h file (hstart.subset (by simp)))).2
      · have hbefore := ih hfront ((List.prefix_append front [file]).trans hstart)
        obtain ⟨⟨other, hother, hnot⟩, hadmits⟩ := hleft front file hfront hstart
        obtain ⟨-, hup, hheld, hmost⟩ := hstep hfront hstart
        have hall : ∀ other ∈ front, Contains (commonDir (front ++ [file])) other :=
          fun other hother => (hbefore.1 other hother).trans hup
        have hadmit := hheld.resolve_left fun heq =>
          hnot ((hall other hother).trans (heq ▸ List.prefix_rfl))
        have hnext : ∀ other ∈ front ++ [file], Contains (commonDir (front ++ [file])) other := by
          rw [List.forall_mem_append, List.forall_mem_singleton]
          exact ⟨hall, hadmit.contains (h file (hstart.subset (by simp))).ne_nil⟩
        -- The deepest directory is admitted on the way up, so the climb ends there.
        obtain ⟨deepest, hdeepest⟩ := @exists_isDeepest _ file _ (by simp) hnext
        have hbelow := hbefore.reaches hfront fun other hother =>
          hdeepest.1 other (by simp [hother])
        have hdown := hmost deepest hbelow (.inr (hadmits deepest hdeepest))
        have hsame := hdown.eq_of_length_le (hdeepest.reaches (by simp) hnext).length_le
        rw [IsDeepest] at hdeepest ⊢
        simpa only [Contains, hsame] using hdeepest

/-- The common directory of files, all rooted or all relative and leading down, is a clean path on
the way to every file, whatever the names are, and contains them all if none of them is a directory
of another.

It is the deepest directory that one gets to from the directory of the first file, going up past the
others and stopping only where the way to the file goes on with a name that does not start with two
dots, or at the top.  So it is the deepest directory that contains the files exactly if that one can
be got to, and no file is got to itself.

It is so for each initial part of the list exactly if no file but the first is a directory of all
those before it, and each, below the deepest directory that contains it and those before it, starts
with a name that does not start with two dots; only at the top does the name not matter. -/
theorem commonDir_deepest_iff (hne : files ≠ []) (h : ∀ file ∈ files, IsFile rooted file) :
    (isAbsolute (commonDir files) = rooted ∧ clean (commonDir files) = commonDir files ∧
      (∀ file ∈ files, components (commonDir files) <+: components file) ∧
      ((∀ file ∈ files, ∀ other ∈ files, ¬Contains file other) →
        ∀ file ∈ files, Contains (commonDir files) file)) ∧
    (Climbs files (commonDir files) ∧
      ∀ dir, Climbs files dir → components dir <+: components (commonDir files)) ∧
    (IsDeepest (commonDir files) files ↔
      (∃ dir, IsDeepest dir files ∧ Climbs files dir) ∧ ∀ file ∈ files, ¬Climbs files file) ∧
    ((∀ front, front ≠ [] → front <+: files → IsDeepest (commonDir front) front) ↔
      ∀ front file, front ≠ [] → front ++ [file] <+: files →
        (∃ other ∈ front, ¬Contains file other) ∧
          ∀ dir, IsDeepest dir (front ++ [file]) → Admits dir file) := by
  have habove := commonDir_isAbove hne h
  refine ⟨⟨?_, ?_, habove.above, contains_of_apart hne h⟩,
    ⟨climbs_commonDir hne h, fun dir hclimbs => prefix_commonDir hclimbs h⟩,
    commonDir_isDeepest_iff hne h, commonDir_deepest_throughout_iff h⟩
  · rw [habove.eq, isAbsolute_down habove.plain]
  · rw [habove.eq, clean_down habove.plain]

/-- The climb passes `a` at the second file, and the third leads to the top anyway. -/
theorem commonDir_deepest_iff_dotted :
    let files := ["a/b", "a/..c/d", "e/f"]
    IsDeepest (commonDir files) files := by
  intro files
  have hfiles : ∀ file ∈ files, IsFile false file := by
    simp only [files, List.forall_mem_cons]
    exact ⟨⟨by decide, by decide, by decide, by decide⟩,
      ⟨by decide, by decide, by decide, by decide⟩, ⟨by decide, by decide, by decide, by decide⟩,
      by simp⟩
  have htop : ∀ file, components file ≠ [] → Contains "." file := fun file hfile =>
    ⟨List.nil_prefix, fun heq => hfile heq.symm⟩
  have hdeepest : IsDeepest "." files := by
    refine ⟨fun file hfile => htop file (hfiles file hfile).ne_nil, fun deeper hdeeper => ?_⟩
    -- Nothing but the top leads to both `a` and `e`.
    by_contra hall
    push Not at hall
    obtain ⟨hfirst, -⟩ := hall "a/b" (by simp [files])
    obtain ⟨hlast, -⟩ := hall "e/f" (by simp [files])
    rw [show components "a/b" = ["a", "b"] by decide] at hfirst
    rw [show components "e/f" = ["e", "f"] by decide] at hlast
    cases hnames : components deeper with
    | nil => exact hdeeper.2 hnames.symm
    | cons name rest =>
      rw [hnames, List.cons_prefix_cons] at hfirst hlast
      exact absurd (hfirst.1.symm.trans hlast.1) (by decide)
  have hclimbs : Climbs files "." := by
    refine @Climbs.next ["a/b", "a/..c/d"] "." "." "e/f" ?_ List.prefix_rfl (.inr (.inl rfl))
    refine @Climbs.next ["a/b"] "." "." "a/..c/d" ?_ List.prefix_rfl (.inr (.inl rfl))
    exact .first (by decide)
  refine (commonDir_deepest_iff (by simp [files]) hfiles).2.2.1.2 ⟨⟨".", hdeepest, hclimbs⟩, ?_⟩
  intro file hfile hends
  obtain ⟨first, hfirst, hcontains⟩ := hends.contains_first
  have hapart : ∀ file ∈ files, ∀ other ∈ files, ¬Contains file other := by decide
  exact hapart file hfile first hfirst hcontains

/-- Both files are in `a`, and yet the climb goes past it. -/
theorem commonDir_passes_dotted_name :
    commonDir ["a/b", "a/..c/d"] = "." ∧ Contains "a" "a/b" ∧ Contains "a" "a/..c/d" := by
  have hway : relative? "a" "a/..c/d" = some "..c/d" := by decide
  have hbelow : relative? "." "a/..c/d" = some "a/..c/d" := by decide
  have hdir : dir "a/b" = "a" ∧ dir "a" = "." ∧ "a".length = 1 := by decide
  refine ⟨?_, by decide, by decide⟩
  simp [commonDir, hdir, climb, holds, hway, hbelow]

end Batch

end ShaderScript
