import Mathlib.Data.List.Infix
import ShaderScript.Proofs.CleanPath
import ShaderScript.Proofs.FileCourse

/-!
# Where scripts go

The scripts of a batch run stay below the directory that is meant for them, and no two files write
to one path.

A script is placed by the way from the root to its file.  A clean way climbs at its start only
(`head?_of_suffix_steps`), so one that does not start with `..` climbs nowhere, and where it does,
the last name of the file is taken instead.  A new extension changes the last name and leaves the
directories alone (`pieces_withExtension`).
-/

namespace ShaderScript

variable {name : String} {front : List String}

namespace FilePath

variable {path : String}

/-! ## Ways that do not climb -/

/-- Whether a piece of a path leads anywhere. -/
def leads (name : String) : Bool := name ≠ "" && name ≠ "."

theorem push_of_not_leads (h : ¬ leads name) (rooted : Bool) (kept : List String) :
    push rooted kept name = kept := by
  have hskip : name = "" ∨ name = "." := by
    by_contra hne
    rw [not_or] at hne
    exact h (by simp [leads, hne])
  unfold push
  rw [if_pos hskip]

theorem plain_of_leads (h : leads name) (hslash : '/' ∉ name.toList) (hdots : name ≠ "..") :
    Plain name := by
  have hne : name ≠ "" ∧ name ≠ "." := by simpa [leads] using h
  exact ⟨hslash, hne.1, hne.2, hdots⟩

/-- Of names that do not climb, those that lead anywhere are added one after the other. -/
theorem foldl_push_of_not_mem {names : List String} (hslash : ∀ name ∈ names, '/' ∉ name.toList)
    (hdots : ".." ∉ names) (rooted : Bool) (kept : List String) :
    names.foldl (push rooted) kept = (names.filter leads).reverse ++ kept := by
  have hplain : ∀ name ∈ names.filter leads, Plain name := by
    intro name hname
    obtain ⟨hmem, hleads⟩ := List.mem_filter.1 hname
    exact plain_of_leads hleads (hslash name hmem) fun hname => hdots (hname ▸ hmem)
  rw [← foldl_push_plain hplain, List.foldl_filter]
  congr
  funext kept name
  by_cases hleads : leads name
  · rw [if_pos hleads]
  · rw [if_neg hleads, push_of_not_leads hleads]

/-- A path below another one has the components of both. -/
theorem join_of_not_mem {dir : String} (hdir : dir ≠ "") (hpath : path ≠ "")
    (hdots : ".." ∉ pieces path) :
    join [dir, path] =
      ofComponents (isAbsolute dir) (components dir ++ (pieces path).filter leads) := by
  have hparts : [dir, path].filter (· ≠ "") = [dir, path] := by simp [hdir, hpath]
  have htext : "/".intercalate [dir, path] = dir ++ "/" ++ path := by
    rw [String.intercalate_cons_of_ne_nil (List.cons_ne_nil _ _), String.intercalate_singleton]
  have habsolute : isAbsolute (dir ++ "/" ++ path) = isAbsolute dir := by
    have hlist : dir.toList ≠ [] := String.toList_eq_nil_iff.not.2 hdir
    have := isAbsolute_append hlist ("/" ++ path).toList
    rwa [String.ofList_append, String.ofList_toList, String.ofList_toList,
      ← String.append_assoc] at this
  rw [join_of_ne_nil (by rw [hparts]; exact List.cons_ne_nil _ _), hparts, htext, clean, habsolute,
    components, habsolute, pieces_append, List.foldl_append,
    foldl_push_of_not_mem (fun _ => not_mem_of_mem_pieces) hdots]
  simp [components]

theorem Clean.of_append {rooted : Bool} {rest : List String} (h : Clean rooted (front ++ rest)) :
    Clean rooted rest := by
  induction front with
  | nil => exact h
  | cons name front ih => exact ih h.2.2

/-- Dots in a clean path come first, and there are none in a rooted one. -/
theorem Clean.before_dots {rooted : Bool} {rest : List String}
    (h : Clean rooted (front ++ ".." :: rest).reverse) :
    rooted = false ∧ ∀ name ∈ front, name = ".." := by
  have hsplit : Clean rooted (rest.reverse ++ ".." :: front.reverse) := by simpa using h
  obtain ⟨hrooted, hfront⟩ := hsplit.of_append.2.1 rfl
  exact ⟨hrooted, fun name hname => hfront name (List.mem_reverse.2 hname)⟩

/-- The steps of a clean path. -/
theorem steps_clean (path : String) :
    (∃ name, steps (clean path) = [name] ∧ name ≠ "..") ∨
      components path ≠ [] ∧
        steps (clean path) = (if isAbsolute path then [""] else []) ++ components path := by
  by_cases hnone : components path = []
  · left
    -- Nothing is left of the path but its root, or a dot.
    cases hrooted : isAbsolute path with
    | true => exact ⟨"", by simp [clean, hnone, hrooted, ofComponents, steps], by decide⟩
    | false =>
      refine ⟨".", ?_, by decide⟩
      rw [clean, hnone, hrooted]
      decide
  · right
    refine ⟨hnone, ?_⟩
    have hpieces := pieces_ofComponents hnone (clean_components path)
    have hcomponents := components_ofComponents hnone (clean_components path)
    have hempty : clean path ≠ "" := by
      intro h
      rw [← clean, h] at hcomponents
      exact hnone hcomponents.symm
    have hroot : clean path ≠ "/" := by
      intro h
      rw [← clean, h] at hcomponents
      exact hnone (hcomponents.symm.trans (by decide))
    rw [steps, if_neg hempty, if_neg hroot]
    exact hpieces

/-- The end of a clean path climbs at its start, if at all. -/
theorem head?_of_suffix_steps {down : List String} (h : down <:+ steps (clean path))
    (hdots : ".." ∈ down) : down.head? = some ".." := by
  obtain ⟨front, rest, rfl⟩ := List.append_of_mem hdots
  obtain ⟨before, hsteps⟩ := h
  have hmem : ".." ∈ steps (clean path) := by rw [← hsteps]; simp
  have hclean := clean_components path
  rcases steps_clean path with ⟨name, hname, hne⟩ | ⟨-, hpath⟩
  · rw [hname, List.mem_singleton] at hmem
    exact absurd hmem.symm hne
  · cases hrooted : isAbsolute path with
    | true =>
      -- A rooted path does not climb.
      have hcomponents : ".." ∈ components path := by simpa [hpath, hrooted] using hmem
      obtain ⟨start, tail, hsplit⟩ := List.append_of_mem hcomponents
      rw [hsplit, hrooted] at hclean
      cases hclean.before_dots.1
    | false =>
      have hsplit : components path = before ++ front ++ ".." :: rest := by
        simpa [hpath, hrooted] using hsteps.symm
      rw [hsplit] at hclean
      cases front with
      | nil => rfl
      | cons name front => simp [hclean.before_dots.2 name (by simp)]

/-! ## Relative paths -/

theorem dropCommon_snd_suffix (start goal : List String) : (dropCommon start goal).2 <:+ goal := by
  fun_induction dropCommon start goal with
  | case1 start name goal ih => exact ih.trans (List.suffix_cons name goal)
  | case2 => exact List.suffix_rfl
  | case3 => exact List.suffix_rfl

theorem slash_of_mem_steps (h : name ∈ steps path) : '/' ∉ name.toList := by
  unfold steps at h
  split at h
  · cases h
  · split at h
    · rw [List.mem_singleton.1 h]
      decide
    · exact not_mem_of_mem_pieces h

/-- A way that starts with dots leads out. -/
theorem leavesDir_intercalate {names : List String} (h : names.head? = some "..") :
    Batch.leavesDir ("/".intercalate names) = true := by
  obtain ⟨rest, rfl⟩ : ∃ rest, names = ".." :: rest := by
    cases names with
    | nil => cases h
    | cons name rest => exact ⟨rest, by rw [Option.some.inj h]⟩
  by_cases hrest : rest = []
  · rw [hrest, String.intercalate_singleton]
    decide
  · rw [String.intercalate_cons_of_ne_nil hrest]
    simp [Batch.leavesDir]

/-- A way that does not lead out does not climb. -/
theorem not_mem_pieces_relative {root relative : String} (h : relative? root path = some relative)
    (hstays : Batch.leavesDir relative = false) : ".." ∉ pieces relative := by
  unfold relative? at h
  dsimp only at h
  split at h
  · rw [← Option.some.inj h]
    decide
  · generalize (if clean root = "." then "" else clean root) = start at h
    split at h
    · cases h
    · split at h
      · rename_i down hcommon
        rw [← Option.some.inj h] at hstays ⊢
        have hsuffix := dropCommon_snd_suffix (steps start) (steps (clean path))
        rw [hcommon] at hsuffix
        by_cases hdown : down = []
        · rw [hdown]
          decide
        · rw [pieces_intercalate hdown fun name hname => slash_of_mem_steps (hsuffix.subset hname)]
          intro hdots
          rw [leavesDir_intercalate (head?_of_suffix_steps hsuffix hdots)] at hstays
          cases hstays
      · rename_i up down hup hcommon
        split at h
        · cases h
        · -- The way starts with a climb.
          have hhead : (up.map (fun _ => "..") ++ down).head? = some ".." := by
            cases up with
            | nil => exact (hup rfl).elim
            | cons name up => rfl
          rw [← Option.some.inj h, leavesDir_intercalate hhead] at hstays
          cases hstays

/-! ## Extensions -/

/-- Whatever name follows the last slash of a text is its last piece. -/
theorem exists_pieces_concat (cs : List Char) : ∃ front, ∀ name : List Char, '/' ∉ name →
    pieces (String.ofList ((cs.reverse.dropWhile (· ≠ '/')).reverse ++ name)) =
      front ++ [String.ofList name] := by
  obtain ⟨-, -, -, hlast⟩ := exists_cut (· ≠ '/') cs
  generalize (cs.reverse.dropWhile (· ≠ '/')).reverse = kept at hlast ⊢
  have hpieces : ∀ name : List Char, '/' ∉ name →
      pieces (String.ofList name) = [String.ofList name] :=
    fun name hname => pieces_of_not_mem (by rwa [String.toList_ofList])
  rcases List.eq_nil_or_concat kept with rfl | ⟨front, c, hkept⟩
  · exact ⟨[], fun name hname => hpieces name hname⟩
  · rw [List.concat_eq_append] at hkept
    have hc : c = '/' := by simpa using hlast front c hkept
    refine ⟨pieces (String.ofList front), fun name hname => ?_⟩
    rw [← hpieces name hname, ← pieces_append]
    congr 1
    simp [String.ext_iff, hkept, hc]

theorem dropWhile_append_lastPiece (cs : List Char) :
    (cs.reverse.dropWhile (· ≠ '/')).reverse ++ lastPiece cs = cs := by
  rw [lastPiece, ← List.reverse_append, List.takeWhile_append_dropWhile, List.reverse_reverse]

theorem not_mem_lastPiece (cs : List Char) : '/' ∉ lastPiece cs := by
  intro h
  simpa using List.mem_takeWhile_imp (List.mem_reverse.1 h)

/-- An extension is the end of the last piece. -/
theorem length_extension_le (path : String) :
    (extension path).length ≤ (lastPiece path.toList).length := by
  unfold extension
  dsimp only
  split
  · rename_i hdot
    generalize lastPiece path.toList = piece at hdot ⊢
    -- The dot is not among the characters after it.
    have hlt : (piece.reverse.takeWhile (· ≠ '.')).length < piece.reverse.length := by
      refine lt_of_le_of_ne (List.takeWhile_sublist _).length_le fun hlength => ?_
      have hall : piece.reverse.takeWhile (· ≠ '.') = piece.reverse :=
        (List.takeWhile_sublist _).eq_of_length hlength
      have hmem : '.' ∈ piece.reverse.takeWhile (· ≠ '.') := by
        rw [hall]
        simpa using hdot
      simpa using List.mem_takeWhile_imp hmem
    rw [List.length_reverse] at hlt
    rw [String.length_ofList, List.length_cons, List.length_reverse]
    exact hlt
  · simp

/-- A new extension changes the last piece only. -/
theorem pieces_withExtension (path : String) {ext : String} (hext : '/' ∉ ext.toList) :
    ∃ front last stem, pieces path = front ++ [last] ∧
      pieces (withoutExtension path ++ ext) = front ++ [stem ++ ext] ∧ '/' ∉ stem.toList := by
  obtain ⟨front, hfront⟩ := exists_pieces_concat path.toList
  have hpath := dropWhile_append_lastPiece path.toList
  have hslash := not_mem_lastPiece path.toList
  have hle := length_extension_le path
  have htext : path = String.ofList path.toList := String.ofList_toList.symm
  unfold withoutExtension
  generalize (path.toList.reverse.dropWhile (· ≠ '/')).reverse = kept at hfront hpath
  generalize lastPiece path.toList = last at hpath hslash hle
  generalize (extension path).length = n at hle ⊢
  -- An extension is no longer than the last piece, so the cut is inside it.
  have hstem : '/' ∉ last.take (last.length - n) := fun h => hslash (List.mem_of_mem_take h)
  have hcut : path.toList.take (path.length - n) = kept ++ last.take (last.length - n) := by
    have hlength : path.length - n = kept.length + (last.length - n) := by
      rw [← String.length_toList, ← hpath, List.length_append]
      omega
    rw [hlength, ← hpath, List.take_length_add_append]
  refine ⟨front, String.ofList last, String.ofList (last.take (last.length - n)), ?_, ?_, ?_⟩
  · rw [htext, ← hpath]
    exact hfront last hslash
  · have hname := hfront (last.take (last.length - n) ++ ext.toList)
      (fun h => (List.mem_append.1 h).elim hstem hext)
    rwa [← List.append_assoc, ← hcut, String.ofList_append, String.ofList_append,
      String.ofList_toList] at hname
  · rwa [String.toList_ofList]

end FilePath

namespace Batch

open FilePath

/-! ## Containment -/

/-- A name that ends like a word is plain. -/
theorem plain_of_concat {front : List Char} {c : Char} (h : name.toList = front ++ [c])
    (hfront : '/' ∉ front) (hslash : c ≠ '/') (hdot : c ≠ '.') : Plain name := by
  have hlast : name.toList.getLast? = some c := by rw [h, List.getLast?_concat]
  refine ⟨?_, ?_, ?_, ?_⟩
  · rw [h]
    simp [hfront, hslash.symm]
  · rintro rfl
    simp at hlast
  · rintro rfl
    exact hdot (by simpa using hlast.symm)
  · rintro rfl
    exact hdot (by simpa using hlast.symm)

theorem plain_append_extension {style : Style} (hstyle : style = .javaScript ∨ style = .python)
    {stem : String} (h : '/' ∉ stem.toList) : Plain (stem ++ style.extension) := by
  rcases hstyle with rfl | rfl
  · have hjs : (stem ++ Style.javaScript.extension).toList =
        stem.toList ++ ['.', 'j'] ++ ['s'] := by simp [Style.javaScript]
    exact plain_of_concat hjs (by simp [h]) (by decide) (by decide)
  · have hpy : (stem ++ Style.python.extension).toList =
        stem.toList ++ ['.', 'p'] ++ ['y'] := by simp [Style.python]
    exact plain_of_concat hpy (by simp [h]) (by decide) (by decide)

theorem pieces_base (path : String) :
    pieces (base path) = ["", ""] ∨ ∃ name, pieces (base path) = [name] := by
  unfold base
  split
  · exact .inr ⟨".", by decide⟩
  · split
    · exact .inl (by decide)
    · refine .inr ⟨_, pieces_of_not_mem ?_⟩
      rw [String.toList_ofList]
      exact not_mem_lastPiece _

/-- The directories of a file's place do not climb. -/
theorem not_mem_pieces_placeBelow (root path : String) {last : String}
    (h : pieces (placeBelow root path) = front ++ [last]) : ".." ∉ front := by
  have hbase : pieces (base path) = front ++ [last] → ".." ∉ front := by
    intro h
    rcases pieces_base path with hpieces | ⟨name, hpieces⟩
    · rw [show front = [""] from (List.append_inj_left' ((h.symm.trans hpieces) :
        front ++ [last] = [""] ++ [""]) rfl)]
      decide
    · rw [show front = [] from (List.append_inj_left' ((h.symm.trans hpieces) :
        front ++ [last] = [] ++ [name]) rfl)]
      exact List.not_mem_nil
  unfold placeBelow at h
  split at h
  · rename_i relative hrelative
    split at h
    · exact hbase h
    · rename_i hstays
      have hdots := not_mem_pieces_relative hrelative (by simpa using hstays)
      rw [h] at hdots
      exact fun hmem => hdots (List.mem_append_left _ hmem)
  · exact hbase h

/-- A script goes to plain names below the directory for scripts. -/
theorem outputPath_eq {outDir : String} (hdir : outDir ≠ "") {style : Style}
    (hstyle : style = .javaScript ∨ style = .python) (root path : String) : ∃ names,
      names ≠ [] ∧ (∀ name ∈ names, Plain name) ∧
      outputPath outDir root style.extension path =
        ofComponents (isAbsolute outDir) (components outDir ++ names) := by
  have hext : '/' ∉ style.extension.toList := by
    rcases hstyle with rfl | rfl <;> decide
  obtain ⟨front, last, stem, hplace, htail, hstem⟩ :=
    pieces_withExtension (placeBelow root path) hext
  have hfront := not_mem_pieces_placeBelow root path hplace
  have hname := plain_append_extension hstyle hstem
  -- The extension changes the last name only, which it keeps from being dots.
  have hdots : ".." ∉ pieces (withoutExtension (placeBelow root path) ++ style.extension) := by
    rw [htail, List.mem_append, List.mem_singleton]
    rintro (hmem | heq)
    · exact hfront hmem
    · exact hname.ne_dots heq.symm
  have hpath : withoutExtension (placeBelow root path) ++ style.extension ≠ "" := by
    intro h
    rw [h] at htail
    have hlast := congrArg List.getLast? htail
    rw [List.getLast?_concat] at hlast
    exact hname.ne_empty (Option.some.inj hlast).symm
  refine ⟨_, ?_, ?_, join_of_not_mem hdir hpath hdots⟩
  · rw [htail]
    have hleads : leads (stem ++ style.extension) := by simp [leads, hname.ne_empty, hname.ne_dot]
    have hmem : stem ++ style.extension ∈ front ++ [stem ++ style.extension] := by simp
    exact List.ne_nil_of_mem (List.mem_filter.2 ⟨hmem, hleads⟩)
  · intro name hmem
    obtain ⟨hpiece, hleads⟩ := List.mem_filter.1 hmem
    exact plain_of_leads hleads (not_mem_of_mem_pieces hpiece) fun h => hdots (h ▸ hpiece)

/-! ## Rivals -/

theorem rivalsOf_ne_nil_iff {paths files : List String} (hlength : files.length = paths.length)
    (i : Nat) (path : String) :
    rivalsOf paths files i path ≠ [] ↔ ∃ j, j ≠ i ∧ paths[j]? = some path := by
  rw [rivalsOf, ne_eq, List.map_eq_nil_iff, List.filter_eq_nil_iff]
  push Not
  constructor
  · rintro ⟨⟨⟨p, file⟩, j⟩, hmem, hrival⟩
    obtain ⟨hp, hj⟩ : p = path ∧ j ≠ i := by simpa using hrival
    have hzip := List.mk_mem_zipIdx_iff_getElem?.1 hmem
    exact ⟨j, hj, hp ▸ (List.getElem?_zip_eq_some.1 hzip).1⟩
  · rintro ⟨j, hj, hpath⟩
    obtain ⟨hlt, -⟩ := List.getElem?_eq_some_iff.1 hpath
    have hfile : files[j]? = some files[j] := List.getElem?_eq_getElem (hlength ▸ hlt)
    refine ⟨((path, files[j]), j), ?_, by simp [hj]⟩
    exact List.mk_mem_zipIdx_iff_getElem?.2 (List.getElem?_zip_eq_some.2 ⟨hpath, hfile⟩)

/-- A target is where the script of its file goes, with the rivals it has there. -/
theorem getElem?_targets {files : List String} {outDir root extension : String} {i : Nat}
    {t : Target} (h : (targets files outDir root extension)[i]? = some t) :
    let paths := files.map
      (outputPath outDir (if root.isEmpty then commonDir files else root) extension)
    paths[i]? = some t.path ∧ t.rivals = rivalsOf paths files i t.path := by
  simp only [targets, List.getElem?_map, Option.map_eq_some_iff, List.getElem?_zipIdx] at h ⊢
  obtain ⟨⟨path, j⟩, ⟨name, ⟨file, hfile, rfl⟩, hpair⟩, rfl⟩ := h
  obtain ⟨rfl, rfl⟩ := Prod.mk.inj hpair
  exact ⟨⟨file, hfile, rfl⟩, by simp⟩

theorem map_path_targets (files : List String) (outDir root extension : String) :
    (targets files outDir root extension).map Target.path = files.map
      (outputPath outDir (if root.isEmpty then commonDir files else root) extension) := by
  simp only [targets, List.map_map]
  exact List.zipIdx_map_fst 0 _

/-- A script that has rivals is not written. -/
theorem tree_store_of_rivals {target : Target} (h : target.rivals ≠ []) (outDir : String)
    (p : Progression) (r : FileResult) : (store outDir target p r).2.tree = p.tree := by
  unfold store
  split
  · rfl
  · dsimp only
    rw [if_pos (by simpa using h)]
    rfl

section Requests

variable {request : Request}

theorem Request.targets_eq (hdir : request.outDir ≠ "") : request.targets =
    Batch.targets request.files request.outDir request.root request.style.extension := by
  rw [Request.targets, if_neg (by simpa using hdir)]

/-- A target has rivals if and only if it is the target of another file in the list. -/
theorem Request.rivals_ne_nil_iff (hdir : request.outDir ≠ "") {i : Nat} {t : Target}
    (h : request.targets[i]? = some t) :
    t.rivals ≠ [] ↔ ∃ j t', j ≠ i ∧ request.targets[j]? = some t' ∧ t'.path = t.path := by
  rw [Request.targets_eq hdir] at h ⊢
  obtain ⟨-, hrivals⟩ := getElem?_targets h
  rw [hrivals, rivalsOf_ne_nil_iff (by simp), ← map_path_targets]
  simp only [List.getElem?_map, Option.map_eq_some_iff, exists_and_left]

theorem Request.path_below (hdir : request.outDir ≠ "")
    (hstyle : request.style = .javaScript ∨ request.style = .python) {t : Target}
    (h : t ∈ request.targets) : ∃ names, names ≠ [] ∧ (∀ name ∈ names, Plain name) ∧
      t.path = ofComponents (isAbsolute request.outDir) (components request.outDir ++ names) := by
  rw [Request.targets_eq hdir] at h
  have hpath : t.path ∈ (Batch.targets request.files request.outDir request.root
    request.style.extension).map Target.path := List.mem_map_of_mem h
  rw [map_path_targets] at hpath
  obtain ⟨file, -, hfile⟩ := List.mem_map.1 hpath
  rw [← hfile]
  exact outputPath_eq hdir hstyle _ file

/-- What a file writes goes to its own target, which no other file has. -/
theorem Request.Handled.output {outcomes : List (FileResult × List BatchEvent)}
    (h : request.Handled outcomes) {i : Nat} {r : FileResult}
    (hr : (outcomes.map Prod.fst)[i]? = some r) : r.output = "" ∨
      ∃ t, request.targets[i]? = some t ∧ t.rivals = [] ∧ r.output = t.path := by
  rw [List.getElem?_map, Option.map_eq_some_iff] at hr
  obtain ⟨outcome, houtcome, rfl⟩ := hr
  obtain ⟨t, -, ht, hcourse⟩ := h.course houtcome
  rcases hcourse.output with hnone | ⟨hpath, hrivals⟩
  · exact .inl hnone
  · exact .inr ⟨t, ht, hrivals, hpath⟩

theorem Request.Handled.pairwise_output (hdir : request.outDir ≠ "")
    {outcomes : List (FileResult × List BatchEvent)} (h : request.Handled outcomes) :
    (outcomes.map Prod.fst).Pairwise fun r r' => r.output = "" ∨ r.output ≠ r'.output := by
  rw [List.pairwise_iff_getElem]
  intro i j hi hj hij
  generalize hr : (outcomes.map Prod.fst)[i] = r
  generalize hr' : (outcomes.map Prod.fst)[j] = r'
  by_cases hnone : r.output = ""
  · exact .inl hnone
  · right
    intro hsame
    rcases h.output (hr ▸ List.getElem?_eq_getElem hi) with hout | ⟨t, ht, hrivals, hpath⟩
    · exact hnone hout
    · rcases h.output (hr' ▸ List.getElem?_eq_getElem hj) with hout | ⟨t', ht', -, hpath'⟩
      · exact hnone (hsame.trans hout)
      · -- The other file would be a rival.
        have hpaths : t'.path = t.path := hpath'.symm.trans (hsame.symm.trans hpath)
        exact (Request.rivals_ne_nil_iff hdir ht).2 ⟨j, t', hij.ne', ht', hpaths⟩ hrivals

end Requests

/-- **No script leaves its directory, and no two go to one path.**  A target is marked as contested
if and only if another file of the list has the same one, and then nothing is written there; so of
two files at most one writes to a path.  Each target is a list of plain names below the directory
for scripts. -/
theorem outputs_apart (request : Request) (hdir : request.outDir ≠ "")
    (hstyle : request.style = .javaScript ∨ request.style = .python) :
    request.targets.length = request.files.length ∧
    (∀ (i : Nat) (t : Target), request.targets[i]? = some t →
      (t.rivals ≠ [] ↔ ∃ j t', j ≠ i ∧ request.targets[j]? = some t' ∧ t'.path = t.path)) ∧
    (∀ t ∈ request.targets, t.rivals ≠ [] →
      ∀ p r, (store request.outDir t p r).2.tree = p.tree) ∧
    (∀ t ∈ request.targets, ∃ names, names ≠ [] ∧ (∀ name ∈ names, Plain name) ∧
      t.path = ofComponents (isAbsolute request.outDir) (components request.outDir ++ names)) ∧
    ∀ s s' results, run request s = (.ok results, s') →
      (∀ (i : Nat) (r : FileResult), results[i]? = some r → r.output = "" ∨
        ∃ t, request.targets[i]? = some t ∧ t.rivals = [] ∧ r.output = t.path) ∧
      results.Pairwise fun r r' => r.output = "" ∨ r.output ≠ r'.output := by
  refine ⟨length_targets request, fun i t => Request.rivals_ne_nil_iff hdir,
    fun t _ hrivals => tree_store_of_rivals hrivals request.outDir,
    fun t => Request.path_below hdir hstyle, fun s s' results hrun => ?_⟩
  obtain ⟨outcomes, hhandled, rfl, -⟩ := run_handled hrun
  exact ⟨fun i r => hhandled.output, hhandled.pairwise_output hdir⟩

/-- A file, the same file by another path, and a file outside the root. -/
def crowdedRequest : Request where
  files := ["in/a.json", "in/./a.json", "up/c.json"]
  outDir := "out"
  root := "in"

def crowded : RunState where
  tree :=
    { entries :=
        [(["in"], .directory), (["in", "a.json"], .file blankBytes), (["up"], .directory),
         (["up", "c.json"], .file blankBytes)] }
  tracer := {}

/-- Two paths of one file want the same output; the third file has its own. -/
theorem outputs_apart_crowded :
    crowdedRequest.outDir ≠ "" ∧ crowdedRequest.style = .javaScript ∧
    crowdedRequest.targets =
      [⟨"out/a.js", ["in/./a.json"]⟩, ⟨"out/a.js", ["in/a.json"]⟩, ⟨"out/c.js", []⟩] ∧
    (run crowdedRequest crowded).1.toOption.map (List.map (·.output)) = some ["", "", "out/c.js"] ∧
    ∃ j t', j ≠ 0 ∧ crowdedRequest.targets[j]? = some t' ∧ t'.path = "out/a.js" := by
  have htargets : crowdedRequest.targets =
      [⟨"out/a.js", ["in/./a.json"]⟩, ⟨"out/a.js", ["in/a.json"]⟩, ⟨"out/c.js", []⟩] := by
    decide +kernel
  have hdir : crowdedRequest.outDir ≠ "" := by decide
  have hfirst : crowdedRequest.targets[0]? = some ⟨"out/a.js", ["in/./a.json"]⟩ := by
    rw [htargets]
    rfl
  exact ⟨hdir, rfl, htargets, by decide +kernel,
    ((outputs_apart crowdedRequest hdir (.inl rfl)).2.1 0 _ hfirst).1 (by simp)⟩

end Batch

end ShaderScript
