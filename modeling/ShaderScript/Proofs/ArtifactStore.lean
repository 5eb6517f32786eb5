import ShaderScript.Artifact
import ShaderScript.Proofs.TreeOutside

/-!
# Where a cache keeps its artifacts

All artifacts of a cache lie in one directory, each under a name of its own (`resolve_pathFor`).  As
long as that directory can be reached and every file in it holds an artifact that reads back,
looking an artifact up and keeping one never fail: `Stores.get` and `Stores.put` say what they do
to the directory, and that they touch nothing else.
-/

namespace ShaderScript

open FilePath FileTree

/-! ## Making a directory below one that is there -/

namespace FileTree

variable {t : FileTree} {path name : String} {names : List String} {place : Place}

/-- An empty name after a path leads to no other place. -/
theorem follow_append_empty {start : Place} (h : t.follow start names = .ok place)
    (hdir : t.find? place = some .directory) : t.follow start (names ++ [""]) = .ok place := by
  rw [follow_append, h]
  show t.follow place [""] = .ok place
  rw [follow_cons, hdir, step_empty]
  rfl

/-- Following a path with a plain name at its end. -/
theorem follow_concat_plain {start : Place} (hname : Plain name)
    (h : t.follow start (names ++ [name]) = .ok place) :
    ∃ parent, t.follow start names = .ok parent ∧ t.find? parent = some .directory ∧
      place = parent ++ [name] := by
  rw [follow_append] at h
  cases hparent : t.follow start names with
  | error fault => rw [hparent] at h; cases h
  | ok parent =>
    rw [hparent] at h
    replace h : t.follow parent [name] = .ok place := h
    rw [follow_cons, step_plain hname] at h
    split at h
    · cases h
    · cases h
    · rename_i hdir
      exact ⟨parent, rfl, hdir, (Except.ok.inj h).symm⟩

/-- A name that is not empty is the last one on a path only if no slash follows it. -/
theorem eq_of_concat_eq {front : List String} {last : String} {k : Nat} (hname : name ≠ "")
    (h : names ++ [name] = front ++ last :: List.replicate k "") : names = front := by
  cases k with
  | zero => exact (List.append_inj' h rfl).1
  | succ k =>
    have hend : names ++ [name] = (front ++ last :: List.replicate k "") ++ [""] := by
      rw [h, List.replicate_succ']
      simp
    exact absurd (List.singleton_inj.1 (List.append_inj' hend rfl).2) hname

/-- A path that ends in a name leads to the same place without slashes at its end. -/
theorem resolve_bare (hpieces : pieces path = names ++ [name]) (hname : name ≠ "") :
    t.resolve (String.ofList (path.toList.reverse.dropWhile (· = '/')).reverse) =
      t.resolve path := by
  obtain ⟨⟨k, hbare⟩, habsolute⟩ := pieces_dropSlashes path
  generalize String.ofList (path.toList.reverse.dropWhile (· = '/')).reverse = bare at *
  -- The path ends in a name, so no slash is dropped.
  have hzero : k = 0 := by
    cases k with
    | zero => rfl
    | succ k =>
      rw [hpieces, List.replicate_succ', ← List.append_assoc] at hbare
      exact absurd (List.singleton_inj.1 (List.append_inj' hbare rfl).2) hname
  rw [hzero, List.replicate_zero, List.append_nil] at hbare
  have hne : ∀ text, pieces text = names ++ [name] → text ≠ "" := by
    intro text htext hempty
    rw [hempty, show pieces "" = [] ++ [""] from rfl] at htext
    exact hname (List.singleton_inj.1 (List.append_inj' htext rfl).2).symm
  have hbare_ne : bare ≠ "" := hne bare (hbare ▸ hpieces)
  rw [resolve_eq hbare_ne, resolve_eq (hne path hpieces), start, start,
    habsolute.resolve_left hbare_ne, hbare]

/-- A directory is made where there is nothing yet, in one that is there. -/
theorem makeDirs_below (hpieces : pieces path = names ++ [name]) (hname : Plain name)
    (hresolve : t.resolve path = .ok place) (hfind : t.find? place = none) :
    t.makeDirs path = .ok (t.put place .directory) := by
  have hpath : path ≠ "" := by
    rintro rfl
    cases hresolve
  have hplace := hresolve
  rw [resolve_eq hpath, hpieces] at hplace
  obtain ⟨parent, hparent, hdir, hjoin⟩ := follow_concat_plain hname hplace
  have hentry : t.entry path = .error .missing := by
    unfold entry
    rw [hresolve]
    simp only [bind, Except.bind, hfind]
    rfl
  have hmake : t.makeDir path = .ok (t.put place .directory) := by
    unfold makeDir
    dsimp only
    rw [resolve_bare hpieces hname.ne_empty, hresolve]
    dsimp only
    rw [hfind, hjoin, List.dropLast_concat, hdir]
  -- The directory above is there, so that nothing is made on the way.
  obtain ⟨fuel, hfuel⟩ : ∃ fuel, path.length = fuel + 1 :=
    Nat.exists_eq_succ_of_ne_zero fun h => hpath (String.length_eq_zero_iff.1 h)
  have habove : (if (parentPath path).isEmpty then .ok t
      else makeDirsWith (fuel + 1) t (parentPath path)) = .ok t := by
    obtain ⟨front, last, k, hsplit, hempty | ⟨hne, hfront, habsolute⟩⟩ := pieces_parentPath path
    · rw [if_pos (by rw [hempty.1]; rfl)]
    · rw [hpieces] at hsplit
      have hnames : names = front := eq_of_concat_eq hname.ne_empty hsplit
      have habove : t.resolve (parentPath path) = .ok parent := by
        rw [resolve_eq hne, hfront, ← hnames, start, habsolute]
        exact follow_append_empty hparent hdir
      have hthere : t.entry (parentPath path) = .ok .directory := by
        unfold entry
        rw [habove]
        simp only [bind, Except.bind, hdir]
        rfl
      rw [if_neg (by simpa using hne), makeDirsWith_succ, hthere]
  rw [makeDirs, hfuel, makeDirsWith_succ, hentry]
  dsimp only
  rw [habove]
  dsimp only
  rw [hmake]

end FileTree

/-! ## The files of a cache -/

/-- The name of the file of a key. -/
def ArtifactKey.fileName (key : ArtifactKey) : String := key.digest ++ ".mp"

/-- A key whose digest is part of a name. -/
def ArtifactKey.Named (key : ArtifactKey) : Prop := '/' ∉ key.digest.toList

theorem ArtifactKey.fileName_inj {key key' : ArtifactKey} (h : key.fileName = key'.fileName) :
    key = key' := by
  have hdigest : key.digest = key'.digest := String.append_left_inj ".mp" |>.1 h
  cases key
  cases key'
  exact congrArg ArtifactKey.mk hdigest

theorem ArtifactKey.Named.plain {key : ArtifactKey} (h : key.Named) : Plain key.fileName := by
  have hlength : ∀ text : String, key.fileName = text → 3 ≤ text.length := by
    rintro text rfl
    rw [ArtifactKey.fileName, String.length_append, show ".mp".length = 3 from rfl]
    omega
  refine ⟨?_, ?_, ?_, ?_⟩
  · simp only [ArtifactKey.fileName, String.toList_append, List.mem_append, not_or]
    exact ⟨h, by decide⟩
  · intro htext
    exact absurd (hlength _ htext) (by decide)
  · intro htext
    exact absurd (hlength _ htext) (by decide)
  · intro htext
    exact absurd (hlength _ htext) (by decide)

theorem not_mem_toDigitsCore (fuel n : Nat) {digits : List Char} (h : '/' ∉ digits) :
    '/' ∉ Nat.toDigitsCore 16 fuel n digits := by
  induction fuel generalizing n digits with
  | zero => exact h
  | succ fuel ih =>
    have hcons : '/' ∉ Nat.digitChar (n % 16) :: digits := by
      rw [List.mem_cons, not_or]
      exact ⟨(Nat.digitChar_ne '/' rfl).symm, h⟩
    rw [Nat.toDigitsCore]
    split
    · exact hcons
    · exact ih _ hcons

theorem not_mem_hexText (width n : Nat) : '/' ∉ Text.hexText width n := by
  unfold Text.hexText
  intro h
  rcases List.mem_append.1 h with h | h
  · exact absurd (List.eq_of_mem_replicate h) (by decide)
  · exact not_mem_toDigitsCore _ n (by simp) h

/-- The keys of files are named by hexadecimal digits. -/
theorem Artifact.named_key (style : String) (bytes : List UInt8) : (key style bytes).Named := by
  show '/' ∉ (Digest.Words.hex _).toList
  rw [Digest.Words.hex, String.toList_ofList, List.mem_flatMap]
  rintro ⟨word, -, h⟩
  exact not_mem_hexText 8 _ h

namespace ArtifactCache

variable {c : ArtifactCache} {key : ArtifactKey} {t u : FileTree} {dir : Place}

theorem plain_artifacts : Plain "artifacts" := by constructor <;> decide

theorem clean_artifacts (c : ArtifactCache) :
    Clean (isAbsolute c.dir) (components c.dir ++ ["artifacts"]).reverse := by
  rw [List.reverse_append]
  exact (clean_components c.dir).append_plain (by simpa using plain_artifacts)

theorem artifactsDir_eq (c : ArtifactCache) :
    c.artifactsDir = ofComponents (isAbsolute c.dir) (components c.dir ++ ["artifacts"]) :=
  join_cons c.dir (by simp) (by simpa using plain_artifacts)

theorem pathFor_eq (hkey : key.Named) : c.pathFor key =
    ofComponents (isAbsolute c.dir) ((components c.dir ++ ["artifacts"]) ++ [key.fileName]) := by
  rw [List.append_assoc]
  exact join_cons c.dir (by simp) (by simpa using ⟨plain_artifacts, hkey.plain⟩)

theorem dir_pathFor (hkey : key.Named) : FilePath.dir (c.pathFor key) = c.artifactsDir := by
  rw [pathFor_eq hkey, dir_ofComponents (by simp) c.clean_artifacts hkey.plain.slash,
    artifactsDir_eq]

theorem pieces_artifactsDir (c : ArtifactCache) : pieces c.artifactsDir =
    ((if isAbsolute c.dir then [""] else []) ++ components c.dir) ++ ["artifacts"] := by
  rw [artifactsDir_eq, pieces_ofComponents (by simp) c.clean_artifacts, List.append_assoc]

theorem pathFor_eq_append (hkey : key.Named) :
    c.pathFor key = c.artifactsDir ++ "/" ++ key.fileName := by
  rw [pathFor_eq hkey, ofComponents_concat (by simp), artifactsDir_eq]

/-- The place of an artifact. -/
theorem resolve_pathFor (hkey : key.Named) (hplace : t.resolve c.artifactsDir = .ok dir) :
    t.resolve (c.pathFor key) = t.follow dir [key.fileName] := by
  have hne : c.artifactsDir ≠ "" := by
    intro h
    rw [h] at hplace
    cases hplace
  have hpath : c.pathFor key ≠ "" := by
    rw [pathFor_eq_append hkey, String.append_assoc]
    intro h
    exact hne (String.append_eq_empty_iff.1 h).1
  have habsolute : isAbsolute (c.pathFor key) = isAbsolute c.artifactsDir := by
    have hlist : c.artifactsDir.toList ≠ [] := String.toList_eq_nil_iff.not.2 hne
    have := isAbsolute_append hlist ("/" ++ key.fileName).toList
    rw [String.ofList_append, String.ofList_toList, String.ofList_toList, ← String.append_assoc,
      ← pathFor_eq_append hkey] at this
    exact this
  rw [resolve_eq hne] at hplace
  rw [resolve_eq hpath, pathFor_eq_append hkey, pieces_append, pieces_of_not_mem hkey.plain.slash,
    ← pathFor_eq_append hkey, start, habsolute, follow_append]
  rw [start] at hplace
  rw [hplace]
  rfl

/-- A tree in which a cache has a directory for its artifacts, and every file there is an artifact
kept under its key. -/
structure Stores (c : ArtifactCache) (dir : Place) (Kept : ArtifactKey → Artifact → Prop)
    (t : FileTree) : Prop where
  place : t.resolve c.artifactsDir = .ok dir
  directory : t.find? dir = none ∨ t.find? dir = some .directory
  files : ∀ key : ArtifactKey, t.find? (dir ++ [key.fileName]) = none ∨
    ∃ a, Kept key a ∧ t.find? (dir ++ [key.fileName]) = some (.file a.toBytes)

variable {Kept : ArtifactKey → Artifact → Prop}

/-- What is done elsewhere in the tree does not touch the artifacts. -/
theorem Stores.grows (h : Stores c dir Kept t) (hu : Grows dir t u) : Stores c dir Kept u := by
  refine ⟨resolve_of_directory hu.workingDir hu.directory h.place, ?_, fun key => ?_⟩
  · rw [hu.inside dir List.prefix_rfl]
    exact h.directory
  · rw [hu.inside _ (List.prefix_append dir _)]
    exact h.files key

/-- Looking a key up finds an artifact kept under it, or nothing. -/
theorem Stores.get (h : Stores c dir Kept t) (hkey : key.Named)
    (hread : ∀ a, Kept key a → Artifact.ofBytes? a.toBytes = some a ∧
      a.schema = Artifact.currentSchema) :
    c.get t key = .ok none ∨ ∃ a, Kept key a ∧ c.get t key = .ok (some a) := by
  have hresolve := resolve_pathFor hkey h.place
  rw [follow_cons, step_plain hkey.plain] at hresolve
  unfold ArtifactCache.get FileTree.read status entry
  -- There is no directory before the first artifact is written.
  rcases h.directory with hdir | hdir
  · rw [hresolve, hdir]
    exact .inl rfl
  · rw [hresolve, hdir]
    simp only [bind, Except.bind, follow]
    rcases h.files key with hfile | ⟨a, hkept, hfile⟩
    · rw [hfile]
      exact .inl rfl
    · obtain ⟨hbytes, hschema⟩ := hread a hkept
      rw [hfile]
      refine .inr ⟨a, hkept, ?_⟩
      simp only [pure, Except.pure, Except.mapError, hbytes, hschema, if_pos]

/-- Writing an artifact into the directory. -/
theorem Stores.write (h : Stores c dir Kept t) (hdir : t.find? dir = some .directory)
    (hkey : key.Named) {a : Artifact} (ha : Kept key a) :
    t.write (c.pathFor key) a.toBytes = .ok (t.put (dir ++ [key.fileName]) (.file a.toBytes)) ∧
      Stores c dir Kept (t.put (dir ++ [key.fileName]) (.file a.toBytes)) := by
  have hresolve : t.resolve (c.pathFor key) = .ok (dir ++ [key.fileName]) := by
    rw [resolve_pathFor hkey h.place, follow_cons, hdir, step_plain hkey.plain]
    rfl
  have hfile : t.find? (dir ++ [key.fileName]) ≠ some .directory := by
    rcases h.files key with hnone | ⟨b, -, hsome⟩
    · simp [hnone]
    · simp [hsome]
  constructor
  · unfold FileTree.write
    dsimp only
    rw [hresolve]
    dsimp only
    split
    · contradiction
    · rw [List.dropLast_concat, hdir]
  · -- The file is put where no directory stands, so all directories are kept.
    have hne : ∀ q, t.find? q = some .directory → q ≠ dir ++ [key.fileName] := by
      rintro q hq rfl
      exact hfile hq
    have hkeep : ∀ q, t.find? q = some .directory →
        (t.put (dir ++ [key.fileName]) (.file a.toBytes)).find? q = some .directory := by
      intro q hq
      rw [find?_put_ne (hne q hq), hq]
    refine ⟨resolve_of_directory (workingDir_put t _ _) hkeep h.place, .inr (hkeep dir hdir),
      fun other => ?_⟩
    by_cases hother : other.fileName = key.fileName
    · rw [ArtifactKey.fileName_inj hother, find?_put_self (by simp)]
      exact .inr ⟨a, ha, rfl⟩
    · rw [find?_put_ne (by simpa using hother)]
      exact h.files other

/-- Making the directory for artifacts. -/
theorem Stores.make (h : Stores c dir Kept t) (hdir : t.find? dir = none) :
    t.makeDirs c.artifactsDir = .ok (t.put dir .directory) ∧
      Stores c dir Kept (t.put dir .directory) := by
  refine ⟨makeDirs_below c.pieces_artifactsDir plain_artifacts h.place hdir, ?_⟩
  have hkeep : ∀ q, t.find? q = some .directory →
      (t.put dir .directory).find? q = some .directory := by
    intro q hq
    rw [find?_put_ne (by rintro rfl; rw [hdir] at hq; cases hq), hq]
  have hroot : dir ≠ [] := by
    rintro rfl
    cases hdir
  refine ⟨resolve_of_directory (workingDir_put t _ _) hkeep h.place, .inr (find?_put_self hroot),
    fun key => ?_⟩
  rw [find?_put_ne (by simp)]
  exact h.files key

/-- Keeping an artifact never fails, and touches nothing but the directory for artifacts. -/
theorem Stores.put (h : Stores c dir Kept t) (hkey : key.Named) {a : Artifact}
    (ha : Kept key { a with schema := Artifact.currentSchema }) :
    ∃ u, c.put t key a = .ok u ∧ Stores c dir Kept u ∧ Outside dir u t := by
  -- First the directory, where it is missing.
  obtain ⟨made, hmake, hmade, hdir, houtside⟩ : ∃ made, t.makeDirs c.artifactsDir = .ok made ∧
      Stores c dir Kept made ∧ made.find? dir = some .directory ∧ Outside dir made t := by
    rcases h.directory with hnone | hsome
    · obtain ⟨hmake, hmade⟩ := h.make hnone
      refine ⟨_, hmake, hmade, ?_, rfl, fun q hq => ?_⟩
      · exact find?_put_self (by rintro rfl; cases hnone)
      · exact find?_put_ne fun heq => hq (heq ▸ List.prefix_rfl)
    · have hentry : t.entry c.artifactsDir = .ok .directory := by
        unfold entry
        rw [h.place]
        simp only [bind, Except.bind, hsome]
        rfl
      exact ⟨t, by rw [makeDirs, makeDirsWith_succ, hentry], h, hsome, .refl dir t⟩
  obtain ⟨hwrite, hstores⟩ := hmade.write hdir hkey ha
  refine ⟨_, ?_, hstores, houtside.workingDir, fun q hq => ?_⟩
  · unfold ArtifactCache.put
    dsimp only
    rw [dir_pathFor hkey, hmake]
    dsimp only
    rw [hwrite]
  · rw [find?_put_ne (by rintro rfl; exact hq (List.prefix_append dir _)), houtside.find q hq]

end ArtifactCache

end ShaderScript
