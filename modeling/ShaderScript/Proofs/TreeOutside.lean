import ShaderScript.Proofs.CleanPath

/-!
# Trees that are alike outside a directory

Two trees that differ only at a place and below it cannot be told apart by operations on paths that
keep clear of that place.  `Outside` relates such trees, `Avoids` says which paths keep clear, and
each operation has a lemma that it does the same in both trees.  `Grows` is what such an operation
leaves as it is: everything inside the directory, and directories anywhere.
-/

namespace ShaderScript.FileTree

variable {names : List String}

/-! ## What stands at a place after an entry was put -/

theorem lookup_filter_ne {entries : List (Place × FileEntry)} {place q : Place} (h : q ≠ place) :
    (entries.filter fun (p, _) => p ≠ place).lookup q = entries.lookup q := by
  induction entries with
  | nil => rfl
  | cons entry rest ih =>
    obtain ⟨p, e⟩ := entry
    by_cases hp : p = place
    · have hq : (q == p) = false := beq_false_of_ne (hp ▸ h)
      rw [List.filter_cons_of_neg (by simpa using hp), ih, List.lookup_cons, hq]
    · rw [List.filter_cons_of_pos (by simpa using hp), List.lookup_cons, List.lookup_cons, ih]

theorem lookup_filter_self {entries : List (Place × FileEntry)} {place : Place} :
    (entries.filter fun (p, _) => p ≠ place).lookup place = none := by
  apply List.lookup_eq_none_iff.2
  intro entry hentry
  have hp := of_decide_eq_true (List.mem_filter.1 hentry).2
  exact bne_iff_ne.2 (Ne.symm hp)

variable {t t' u : FileTree} {place q dir : Place} {e : FileEntry} {path : String}

theorem find?_put_ne (h : q ≠ place) : (t.put place e).find? q = t.find? q := by
  unfold find?
  by_cases hq : q.isEmpty
  · rw [if_pos hq, if_pos hq]
  · have hlast : [(place, e)].lookup q = none := by
      rw [List.lookup_cons, beq_false_of_ne h]
      rfl
    rw [if_neg hq, if_neg hq, put, List.lookup_append, lookup_filter_ne h, hlast, Option.or_none]

theorem find?_put_self (h : place ≠ []) : (t.put place e).find? place = some e := by
  unfold find?
  rw [if_neg (by simpa using h), put, List.lookup_append, lookup_filter_self]
  simp

theorem workingDir_put (t : FileTree) (place : Place) (e : FileEntry) :
    (t.put place e).workingDir = t.workingDir := rfl

theorem find?_root : t.find? [] = some .directory := rfl

/-! ## The places on a path -/

/-- Where one name leads. -/
def step (place : Place) (name : String) : Place :=
  if name = "" ∨ name = "." then place
  else if name = ".." then place.dropLast
  else place ++ [name]

/-- The places that names lead to one after the other, whatever is there. -/
def trail (place : Place) : List String → List Place
  | [] => [place]
  | name :: rest => place :: trail (step place name) rest

/-- Where a path starts. -/
def start (t : FileTree) (path : String) : Place :=
  if FilePath.isAbsolute path then [] else t.workingDir

/-- A path that keeps clear of a directory, whatever is there. -/
def Avoids (t : FileTree) (dir : Place) (path : String) : Prop :=
  ∀ q ∈ trail (t.start path) (FilePath.pieces path), ¬ dir <+: q

instance : Decidable (t.Avoids dir path) :=
  inferInstanceAs (Decidable (∀ q ∈ trail (t.start path) (FilePath.pieces path), ¬ dir <+: q))

theorem step_empty (place : Place) : step place "" = place := by simp [step]

theorem step_plain {name : String} (h : FilePath.Plain name) : step place name = place ++ [name] := by
  simp [step, h.ne_empty, h.ne_dot, h.ne_dots]

theorem follow_cons (name : String) (rest : List String) :
    t.follow place (name :: rest) =
      match t.find? place with
      | none => .error .missing
      | some (.file _) => .error .notDirectory
      | some .directory => t.follow (step place name) rest := by
  rw [follow]
  cases t.find? place with
  | none => rfl
  | some e =>
    cases e with
    | file bytes => rfl
    | directory =>
      dsimp only [step]
      split
      · rfl
      · split <;> rfl

/-- Following names one after the other. -/
theorem follow_append (names rest : List String) :
    t.follow place (names ++ rest) = (t.follow place names).bind (t.follow · rest) := by
  induction names generalizing place with
  | nil => rfl
  | cons name names ih =>
    rw [List.cons_append, follow_cons, follow_cons]
    cases t.find? place with
    | none => rfl
    | some e =>
      cases e with
      | file bytes => rfl
      | directory => exact ih

theorem mem_trail_self (place : Place) (names : List String) : place ∈ trail place names := by
  cases names <;> simp [trail]

theorem mem_trail_append {rest : List String} :
    q ∈ trail place (names ++ rest) ↔
      q ∈ trail place names ∨ q ∈ trail (names.foldl step place) rest := by
  induction names generalizing place with
  | nil =>
    have := mem_trail_self place rest
    simp only [List.nil_append, trail, List.mem_singleton, List.foldl_nil]
    constructor
    · exact .inr
    · rintro (rfl | h)
      · exact this
      · exact h
  | cons name names ih =>
    simp only [List.cons_append, trail, List.mem_cons, List.foldl_cons, ih, or_assoc]

theorem foldl_step_mem_trail (place : Place) (names : List String) :
    names.foldl step place ∈ trail place names := by
  induction names generalizing place with
  | nil => simp [trail]
  | cons name names ih => exact List.mem_cons_of_mem _ (ih _)

/-- Where names lead if they can be followed. -/
theorem follow_eq_ok (h : t.follow place names = .ok q) : q = names.foldl step place := by
  induction names generalizing place with
  | nil => exact (Except.ok.inj h).symm
  | cons name names ih =>
    rw [follow_cons] at h
    split at h
    · cases h
    · cases h
    · exact ih h

theorem resolve_eq (h : path ≠ "") :
    t.resolve path = t.follow (t.start path) (FilePath.pieces path) := by
  rw [resolve, if_neg (by simpa using h)]
  rfl

theorem resolve_empty : t.resolve "" = .error .missing := rfl

/-- A path that keeps clear of a directory does not end in it. -/
theorem Avoids.not_below (h : t.Avoids dir path) (hq : t.resolve path = .ok q) : ¬ dir <+: q := by
  by_cases hpath : path = ""
  · rw [hpath, resolve_empty] at hq
    cases hq
  · rw [resolve_eq hpath] at hq
    rw [follow_eq_ok hq]
    exact h _ (foldl_step_mem_trail _ _)

theorem start_congr (h : u.workingDir = t.workingDir) : u.start path = t.start path := by
  rw [start, start, h]

theorem Avoids.congr (h : t.Avoids dir path) (hu : u.workingDir = t.workingDir) :
    u.Avoids dir path := by
  intro q hq
  rw [start_congr hu] at hq
  exact h q hq

/-- The path above a path keeps clear of what the path keeps clear of. -/
theorem Avoids.parent (h : t.Avoids dir path) (hne : parentPath path ≠ "") :
    t.Avoids dir (parentPath path) := by
  obtain ⟨names, name, k, hpath, ⟨hempty, -⟩ | ⟨-, hpieces, habsolute⟩⟩ :=
    FilePath.pieces_parentPath path
  · exact absurd hempty hne
  · intro q hq
    have hstart : t.start (parentPath path) = t.start path := by rw [start, start, habsolute]
    rw [hpieces, hstart, mem_trail_append] at hq
    apply h q
    rw [hpath, mem_trail_append]
    rcases hq with hq | hq
    · exact .inl hq
    · -- The empty name at the end leads nowhere else.
      simp only [trail, step_empty, List.mem_cons, List.not_mem_nil, or_false, or_self] at hq
      exact .inl (hq ▸ foldl_step_mem_trail _ _)

/-- A path without the slashes at its end keeps clear of what the path keeps clear of. -/
theorem Avoids.bare (h : t.Avoids dir path) :
    let bare := String.ofList (path.toList.reverse.dropWhile (· = '/')).reverse
    bare = "" ∨ t.Avoids dir bare := by
  obtain ⟨⟨k, hpieces⟩, hempty | habsolute⟩ := FilePath.pieces_dropSlashes path
  · exact .inl hempty
  · refine .inr fun q hq => h q ?_
    rw [start, habsolute] at hq
    rw [hpieces, mem_trail_append]
    exact .inl hq

/-! ## Trees that differ inside a directory -/

/-- Trees that are alike but for a place and what is below it. -/
structure Outside (dir : Place) (t t' : FileTree) : Prop where
  workingDir : t.workingDir = t'.workingDir
  find : ∀ q, ¬ dir <+: q → t.find? q = t'.find? q

/-- A tree with more or other files outside a directory.  Directories stay what they are. -/
structure Grows (dir : Place) (t u : FileTree) : Prop where
  workingDir : u.workingDir = t.workingDir
  inside : ∀ q, dir <+: q → u.find? q = t.find? q
  directory : ∀ q, t.find? q = some .directory → u.find? q = some .directory

theorem Outside.refl (dir : Place) (t : FileTree) : Outside dir t t := ⟨rfl, fun _ _ => rfl⟩

theorem Outside.trans {t'' : FileTree} (h : Outside dir t t') (h' : Outside dir t' t'') :
    Outside dir t t'' :=
  ⟨h.workingDir.trans h'.workingDir, fun q hq => (h.find q hq).trans (h'.find q hq)⟩

theorem Grows.refl (dir : Place) (t : FileTree) : Grows dir t t :=
  ⟨rfl, fun _ _ => rfl, fun _ h => h⟩

theorem Grows.trans {v : FileTree} (h : Grows dir t u) (h' : Grows dir u v) : Grows dir t v :=
  ⟨h'.workingDir.trans h.workingDir, fun q hq => (h'.inside q hq).trans (h.inside q hq),
    fun q hq => h'.directory q (h.directory q hq)⟩

/-- Where a path leads does not change as long as directories stay. -/
theorem follow_of_directory (hu : ∀ q, t.find? q = some .directory → u.find? q = some .directory)
    (h : t.follow place names = .ok q) : u.follow place names = .ok q := by
  induction names generalizing place with
  | nil => exact h
  | cons name names ih =>
    rw [follow_cons] at h ⊢
    split at h
    · cases h
    · cases h
    · rename_i hplace
      rw [hu place hplace]
      exact ih h

theorem resolve_of_directory (hdir : u.workingDir = t.workingDir)
    (hu : ∀ q, t.find? q = some .directory → u.find? q = some .directory)
    (h : t.resolve path = .ok q) : u.resolve path = .ok q := by
  by_cases hpath : path = ""
  · rw [hpath, resolve_empty] at h
    cases h
  · rw [resolve_eq hpath] at h ⊢
    rw [start_congr hdir]
    exact follow_of_directory hu h

/-- The same change keeps trees the same outside. -/
theorem Outside.put (h : Outside dir t t') (place : Place) (e : FileEntry) :
    Outside dir (t.put place e) (t'.put place e) := by
  refine ⟨h.workingDir, fun q hq => ?_⟩
  by_cases hplace : q = place
  · subst hplace
    by_cases hroot : q = []
    · rw [hroot, find?_root, find?_root]
    · rw [find?_put_self hroot, find?_put_self hroot]
  · rw [find?_put_ne hplace, find?_put_ne hplace, h.find q hq]

/-- What is put outside the directory, where no directory was. -/
theorem grows_put (hplace : ¬ dir <+: place) (hfind : t.find? place ≠ some .directory) :
    Grows dir t (t.put place e) := by
  refine ⟨rfl, fun q hq => ?_, fun q hq => ?_⟩
  · exact find?_put_ne fun h => hplace (h ▸ hq)
  · have hne : q ≠ place := fun h => hfind (h ▸ hq)
    rw [find?_put_ne hne, hq]

/-- Two runs of an operation: both fail for the same reason, or both end in trees that are alike
outside the directory. -/
inductive SameEnd (dir : Place) (t : FileTree) :
    Except FileFailure FileTree → Except FileFailure FileTree → Prop
  | ok {u u' : FileTree} (h : Outside dir u u') (hu : Grows dir t u) : SameEnd dir t (.ok u) (.ok u')
  | error (failure : FileFailure) : SameEnd dir t (.error failure) (.error failure)

namespace Outside

/-- Paths outside are followed alike. -/
theorem follow (h : Outside dir t t') (havoid : ∀ q ∈ trail place names, ¬ dir <+: q) :
    t.follow place names = t'.follow place names := by
  induction names generalizing place with
  | nil => rfl
  | cons name names ih =>
    rw [trail, List.forall_mem_cons] at havoid
    rw [follow_cons, follow_cons, h.find place havoid.1, ih havoid.2]

theorem resolve (h : Outside dir t t') (havoid : t.Avoids dir path) :
    t.resolve path = t'.resolve path := by
  by_cases hpath : path = ""
  · rw [hpath, resolve_empty, resolve_empty]
  · rw [resolve_eq hpath, resolve_eq hpath, ← start_congr h.workingDir]
    exact h.follow havoid

theorem entry (h : Outside dir t t') (havoid : t.Avoids dir path) :
    t.entry path = t'.entry path := by
  unfold FileTree.entry
  rw [← h.resolve havoid]
  cases hq : t.resolve path with
  | error fault => rfl
  | ok q =>
    have hfind := h.find q (havoid.not_below hq)
    simp only [bind, Except.bind, hfind]

theorem read (h : Outside dir t t') (havoid : t.Avoids dir path) : t.read path = t'.read path := by
  unfold FileTree.read status
  rw [h.entry havoid]

theorem find_dropLast (h : Outside dir t t') (hq : ¬ dir <+: q) :
    t.find? q.dropLast = t'.find? q.dropLast :=
  h.find _ fun hbelow => hq (hbelow.trans (List.dropLast_prefix q))

/-- Files outside are written alike. -/
theorem write (h : Outside dir t t') (havoid : t.Avoids dir path) (bytes : List UInt8) :
    SameEnd dir t (t.write path bytes) (t'.write path bytes) := by
  unfold FileTree.write
  dsimp only
  rw [← h.resolve havoid]
  cases hq : t.resolve path with
  | error fault => exact .error _
  | ok q =>
    have hout := havoid.not_below hq
    dsimp only
    rw [← h.find q hout, ← h.find_dropLast hout]
    split
    · exact .error _
    · rename_i hfind
      split
      · exact .ok (h.put q _) (grows_put hout hfind)
      · exact .error _
      · exact .error _

/-- Directories outside are made alike. -/
theorem makeDir (h : Outside dir t t') (havoid : t.Avoids dir path) :
    SameEnd dir t (t.makeDir path) (t'.makeDir path) := by
  unfold FileTree.makeDir
  dsimp only
  -- Without its slashes at the end the path may be empty, and then it leads nowhere.
  have hbare := havoid.bare
  dsimp only at hbare
  generalize String.ofList (path.toList.reverse.dropWhile (· = '/')).reverse = bare at hbare
  have hresolve : t.resolve bare = t'.resolve bare := by
    rcases hbare with rfl | hbare
    · rfl
    · exact h.resolve hbare
  rw [← hresolve]
  cases hq : t.resolve bare with
  | error fault => exact .error _
  | ok q =>
    have hout : ¬ dir <+: q := by
      rcases hbare with rfl | hbare
      · cases hq
      · exact hbare.not_below hq
    dsimp only
    rw [← h.find q hout, ← h.find_dropLast hout]
    split
    · exact .error _
    · rename_i hfind
      split
      · exact .ok (h.put q _) (grows_put hout (by rw [hfind]; simp))
      · exact .error _
      · exact .error _

end Outside

theorem makeDirsWith_succ (fuel : Nat) (t : FileTree) (path : String) :
    makeDirsWith (fuel + 1) t path =
      match t.entry path with
      | .ok .directory => .ok t
      | .ok (.file _) => .error ⟨"mkdir", path, .notDirectory⟩
      | .error _ =>
        match if (parentPath path).isEmpty then .ok t else makeDirsWith fuel t (parentPath path) with
        | .error failure => .error failure
        | .ok u =>
          match u.makeDir path with
          | .ok v => .ok v
          | .error failure =>
            if (u.entry path).toOption == some .directory then .ok u else .error failure := by
  rw [makeDirsWith]
  cases t.entry path with
  | ok e => cases e <;> rfl
  | error fault =>
    dsimp only
    -- The parent is made first, unless there is none.
    by_cases hempty : (parentPath path).isEmpty
    · rw [if_pos hempty, if_pos hempty]
      simp only [pure, Except.pure, bind, Except.bind]
      rfl
    · rw [if_neg hempty, if_neg hempty]
      cases makeDirsWith fuel t (parentPath path) <;> rfl

/-- So are the directories above them. -/
theorem Outside.makeDirsWith (h : Outside dir t t') (havoid : t.Avoids dir path) (fuel : Nat) :
    SameEnd dir t (FileTree.makeDirsWith fuel t path) (FileTree.makeDirsWith fuel t' path) := by
  induction fuel generalizing t t' path with
  | zero => exact .ok h (.refl dir t)
  | succ fuel ih =>
    rw [makeDirsWith_succ, makeDirsWith_succ, ← h.entry havoid]
    split
    · exact .ok h (.refl dir t)
    · exact .error _
    · -- The directory above is made first.
      have hparent : SameEnd dir t
          (if (parentPath path).isEmpty then .ok t
            else FileTree.makeDirsWith fuel t (parentPath path))
          (if (parentPath path).isEmpty then .ok t'
            else FileTree.makeDirsWith fuel t' (parentPath path)) := by
        by_cases hempty : (parentPath path).isEmpty
        · rw [if_pos hempty, if_pos hempty]
          exact .ok h (.refl dir t)
        · rw [if_neg hempty, if_neg hempty]
          exact ih h (havoid.parent (by simpa using hempty))
      generalize (if (parentPath path).isEmpty then .ok t
        else FileTree.makeDirsWith fuel t (parentPath path)) = r at hparent
      generalize (if (parentPath path).isEmpty then .ok t'
        else FileTree.makeDirsWith fuel t' (parentPath path)) = r' at hparent
      cases hparent with
      | error failure => exact .error failure
      | ok hu hgrows =>
        rename_i u u'
        have havoid' := havoid.congr hgrows.workingDir
        have hdir := hu.makeDir havoid'
        dsimp only
        rw [← hu.entry havoid']
        generalize u.makeDir path = s at hdir
        generalize u'.makeDir path = s' at hdir
        cases hdir with
        | ok hv hgrows' => exact .ok hv (hgrows.trans hgrows')
        | error failure =>
          dsimp only
          split
          · exact .ok hu hgrows
          · exact .error failure

theorem Outside.makeDirs (h : Outside dir t t') (havoid : t.Avoids dir path) :
    SameEnd dir t (t.makeDirs path) (t'.makeDirs path) :=
  h.makeDirsWith havoid _

end ShaderScript.FileTree
