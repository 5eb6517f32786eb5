import Mathlib.Data.List.TakeWhile
import ShaderScript.FileTree

/-!
# The names on a path

A path is followed by its pieces, so texts of paths are told apart by what their pieces are.  The
first part of this module gives the pieces of texts that are put together or cut off; the second is
about clean paths: `join` appends plain names to the components of a path (`join_cons`), and `dir`
takes the last one off again (`dir_ofComponents`).
-/

namespace ShaderScript

namespace Text

variable {cs : List Char}

/-! ## Pieces between marks -/

variable {mark : Char}

theorem splitAt_cons_mark (cs : List Char) : splitAt mark (mark :: cs) = [] :: splitAt mark cs := by
  simp [splitAt]

theorem splitAt_cons {c : Char} (h : c ≠ mark) {piece : List Char} {rest : List (List Char)}
    (hcs : splitAt mark cs = piece :: rest) : splitAt mark (c :: cs) = (c :: piece) :: rest := by
  unfold splitAt at hcs ⊢
  rw [List.foldr_cons, if_neg h, hcs]

/-- There is always a first piece. -/
theorem exists_splitAt_eq_cons (mark : Char) (cs : List Char) :
    ∃ piece rest, splitAt mark cs = piece :: rest := by
  induction cs with
  | nil => exact ⟨[], [], rfl⟩
  | cons c cs ih =>
    by_cases h : c = mark
    · exact ⟨[], splitAt mark cs, by rw [h, splitAt_cons_mark]⟩
    · obtain ⟨piece, rest, hcs⟩ := ih
      exact ⟨c :: piece, rest, splitAt_cons h hcs⟩

/-- A mark divides the pieces before it from those after it. -/
theorem splitAt_append (xs ys : List Char) :
    splitAt mark (xs ++ mark :: ys) = splitAt mark xs ++ splitAt mark ys := by
  induction xs with
  | nil => rw [List.nil_append, splitAt_cons_mark]; rfl
  | cons c xs ih =>
    by_cases h : c = mark
    · rw [h, List.cons_append, splitAt_cons_mark, ih, splitAt_cons_mark, List.cons_append]
    · obtain ⟨piece, rest, hxs⟩ := exists_splitAt_eq_cons mark xs
      rw [hxs, List.cons_append] at ih
      rw [List.cons_append, splitAt_cons h ih, splitAt_cons h hxs, List.cons_append]

theorem splitAt_of_not_mem (h : mark ∉ cs) : splitAt mark cs = [cs] := by
  induction cs with
  | nil => rfl
  | cons c cs ih =>
    rw [List.mem_cons, not_or] at h
    exact splitAt_cons (Ne.symm h.1) (ih h.2)

/-- No piece has a mark in it. -/
theorem not_mem_of_mem_splitAt {piece : List Char} (h : piece ∈ splitAt mark cs) :
    mark ∉ piece := by
  induction cs generalizing piece with
  | nil =>
    rw [show splitAt mark [] = [[]] from rfl, List.mem_singleton] at h
    simp [h]
  | cons c cs ih =>
    by_cases hc : c = mark
    · rw [hc, splitAt_cons_mark, List.mem_cons] at h
      rcases h with rfl | h
      · simp
      · exact ih h
    · obtain ⟨first, rest, hcs⟩ := exists_splitAt_eq_cons mark cs
      rw [splitAt_cons hc hcs, List.mem_cons] at h
      rcases h with rfl | h
      · have hfirst := ih (hcs ▸ List.mem_cons_self)
        simp [hfirst, Ne.symm hc]
      · exact ih (hcs ▸ List.mem_cons_of_mem _ h)

/-- Marks at the end add empty pieces. -/
theorem splitAt_append_replicate (xs : List Char) (k : Nat) :
    splitAt mark (xs ++ List.replicate k mark) = splitAt mark xs ++ List.replicate k [] := by
  induction k with
  | zero => simp
  | succ k ih =>
    rw [List.replicate_succ', ← List.append_assoc, splitAt_append, ih, List.replicate_succ',
      List.append_assoc]
    rfl

end Text

namespace FilePath

open Text

variable {name : String} {names : List String}

/-! ## Pieces of paths -/

theorem pieces_append (p q : String) : pieces (p ++ "/" ++ q) = pieces p ++ pieces q := by
  have htext : (p ++ "/" ++ q).toList = p.toList ++ '/' :: q.toList := by simp
  rw [pieces, htext, splitAt_append, List.map_append]
  rfl

theorem pieces_of_not_mem (h : '/' ∉ name.toList) : pieces name = [name] := by
  rw [pieces, splitAt_of_not_mem h, List.map_singleton, String.ofList_toList]

theorem not_mem_of_mem_pieces {path : String} (h : name ∈ pieces path) : '/' ∉ name.toList := by
  obtain ⟨piece, hpiece, rfl⟩ := List.mem_map.1 h
  rw [String.toList_ofList]
  exact not_mem_of_mem_splitAt hpiece

/-- Slashes at the end add empty names. -/
theorem pieces_append_replicate (cs : List Char) (k : Nat) :
    pieces (String.ofList (cs ++ List.replicate k '/')) =
      pieces (String.ofList cs) ++ List.replicate k "" := by
  rw [pieces, pieces, String.toList_ofList, String.toList_ofList, splitAt_append_replicate,
    List.map_append, List.map_replicate]

/-- Cutting characters off the end of a text stops at one that is kept. -/
theorem exists_cut (p : Char → Bool) (cs : List Char) : ∃ tail,
    cs = (cs.reverse.dropWhile p).reverse ++ tail ∧ (∀ c ∈ tail, p c = true) ∧
      ∀ front c, (cs.reverse.dropWhile p).reverse = front ++ [c] → p c = false := by
  refine ⟨(cs.reverse.takeWhile p).reverse, ?_, fun c hc => ?_, fun front c hfront => ?_⟩
  · rw [← List.reverse_append, List.takeWhile_append_dropWhile, List.reverse_reverse]
  · exact List.mem_takeWhile_imp (List.mem_reverse.1 hc)
  · have hhead : cs.reverse.dropWhile p = c :: front.reverse := by
      rw [← List.reverse_reverse (cs.reverse.dropWhile p), hfront]
      simp
    have hne : cs.reverse.dropWhile p ≠ [] := by rw [hhead]; exact List.cons_ne_nil _ _
    have hkept := List.head_dropWhile_not p hne
    simpa [hhead] using hkept

theorem eq_replicate_of_forall {tail : List Char} (h : ∀ c ∈ tail, decide (c = '/') = true) :
    tail = List.replicate tail.length '/' :=
  List.eq_replicate_iff.2 ⟨rfl, fun c hc => of_decide_eq_true (h c hc)⟩

theorem isAbsolute_append {front : List Char} (h : front ≠ []) (tail : List Char) :
    isAbsolute (String.ofList (front ++ tail)) = isAbsolute (String.ofList front) := by
  cases front with
  | nil => exact absurd rfl h
  | cons c cs => simp [isAbsolute]

/-- A path without the slashes at its end. -/
theorem pieces_dropSlashes (path : String) :
    let bare := String.ofList (path.toList.reverse.dropWhile (· = '/')).reverse
    (∃ k, pieces path = pieces bare ++ List.replicate k "") ∧
      (bare = "" ∨ isAbsolute bare = isAbsolute path) := by
  obtain ⟨tail, hpath, htail, -⟩ := exists_cut (· = '/') path.toList
  rw [eq_replicate_of_forall htail] at hpath
  generalize (path.toList.reverse.dropWhile (· = '/')).reverse = bare at hpath
  rw [show path = String.ofList (bare ++ List.replicate tail.length '/') by
    rw [← hpath, String.ofList_toList]]
  refine ⟨⟨tail.length, pieces_append_replicate bare tail.length⟩, ?_⟩
  by_cases hbare : bare = []
  · exact .inl (by rw [hbare])
  · exact .inr (isAbsolute_append hbare _).symm

/-- The path before the last name, which may be followed by slashes.  It is empty if there is only
one name. -/
theorem pieces_parentPath (path : String) : ∃ names name k,
    pieces path = names ++ name :: List.replicate k "" ∧
      (FileTree.parentPath path = "" ∧ names = [] ∨
        FileTree.parentPath path ≠ "" ∧ pieces (FileTree.parentPath path) = names ++ [""] ∧
          isAbsolute (FileTree.parentPath path) = isAbsolute path) := by
  obtain ⟨tail, hpath, htail, -⟩ := exists_cut (· = '/') path.toList
  rw [eq_replicate_of_forall htail] at hpath
  obtain ⟨name, hbare, hname, hlast⟩ :=
    exists_cut (· ≠ '/') (path.toList.reverse.dropWhile (· = '/')).reverse
  rw [List.reverse_reverse] at hbare hlast
  have hparent : FileTree.parentPath path = String.ofList
    ((path.toList.reverse.dropWhile (· = '/')).dropWhile (· ≠ '/')).reverse := rfl
  generalize ((path.toList.reverse.dropWhile (· = '/')).dropWhile (· ≠ '/')).reverse = parent
    at hbare hlast hparent
  rw [hbare] at hpath
  have hslash : '/' ∉ (String.ofList name).toList := by
    rw [String.toList_ofList]
    intro hmem
    simpa using hname _ hmem
  have htext : path = String.ofList (parent ++ name ++ List.replicate tail.length '/') := by
    rw [← hpath, String.ofList_toList]
  rcases List.eq_nil_or_concat parent with hnil | ⟨front, c, hfront⟩
  · refine ⟨[], String.ofList name, tail.length, ?_, .inl ⟨by rw [hparent, hnil], rfl⟩⟩
    rw [htext, pieces_append_replicate, hnil, List.nil_append, pieces_of_not_mem hslash,
      List.nil_append, List.singleton_append]
  · -- The cutting stopped at a slash.
    rw [List.concat_eq_append] at hfront
    have hc : c = '/' := by simpa using hlast front c hfront
    subst hc hfront
    have hne : front ++ ['/'] ≠ [] := by simp
    have hpieces : pieces (String.ofList (front ++ ['/'] ++ name)) =
        pieces (String.ofList front) ++ [String.ofList name] := by
      rw [← pieces_of_not_mem hslash, ← pieces_append]
      congr 1
      simp [String.ext_iff]
    refine ⟨pieces (String.ofList front), String.ofList name, tail.length, ?_, .inr ⟨?_, ?_, ?_⟩⟩
    · rw [htext, pieces_append_replicate, hpieces]
      simp
    · intro h
      simp [hparent, String.ext_iff] at h
    · rw [hparent]
      exact pieces_append_replicate front 1
    · rw [hparent, htext, List.append_assoc, isAbsolute_append hne]

/-! ## Clean paths -/

/-- A name that leads one directory down. -/
structure Plain (name : String) : Prop where
  slash : '/' ∉ name.toList
  ne_empty : name ≠ ""
  ne_dot : name ≠ "."
  ne_dots : name ≠ ".."

/-- The components of a clean path, the last one first.  Dots lead up only, and only from where one
stands. -/
def Clean (rooted : Bool) : List String → Prop
  | [] => True
  | name :: rest =>
    ('/' ∉ name.toList ∧ name ≠ "" ∧ name ≠ ".") ∧
      (name = ".." → rooted = false ∧ ∀ other ∈ rest, other = "..") ∧ Clean rooted rest

namespace Clean

variable {rooted : Bool} {names : List String}

theorem mem (h : Clean rooted names) : ∀ name ∈ names, '/' ∉ name.toList ∧ name ≠ "" := by
  induction names with
  | nil => simp
  | cons first rest ih =>
    intro name hname
    rcases List.mem_cons.1 hname with rfl | hname
    · exact ⟨h.1.1, h.1.2.1⟩
    · exact ih h.2.2 name hname

theorem slash (h : Clean rooted names.reverse) : ∀ name ∈ names, '/' ∉ name.toList :=
  fun name hname => (h.mem name (List.mem_reverse.2 hname)).1

/-- Plain names may follow any clean path. -/
theorem append_plain {kept : List String} (h : Clean rooted kept)
    (hnames : ∀ name ∈ names, Plain name) : Clean rooted (names.reverse ++ kept) := by
  induction names generalizing kept with
  | nil => exact h
  | cons name rest ih =>
    rw [List.forall_mem_cons] at hnames
    obtain ⟨hname, hrest⟩ := hnames
    have hcons : Clean rooted (name :: kept) :=
      ⟨⟨hname.slash, hname.ne_empty, hname.ne_dot⟩, fun hdots => absurd hdots hname.ne_dots, h⟩
    rw [List.reverse_cons, List.append_assoc]
    exact ih hcons hrest

/-- Pushing a name keeps components clean. -/
theorem push (h : Clean rooted names) (hname : '/' ∉ name.toList) :
    Clean rooted (push rooted names name) := by
  unfold FilePath.push
  by_cases hskip : name = "" ∨ name = "."
  · rwa [if_pos hskip]
  · rw [if_neg hskip]
    rw [not_or] at hskip
    by_cases hdots : name = ".."
    · rw [if_pos hdots]
      cases names with
      | nil =>
        cases rooted with
        | true => trivial
        | false => exact ⟨by decide, fun _ => ⟨rfl, by simp⟩, trivial⟩
      | cons last rest =>
        dsimp only
        by_cases hlast : last = ".."
        · -- Dots after dots lead further up.
          obtain ⟨hrooted, hrest⟩ := h.2.1 hlast
          rw [if_pos hlast]
          refine ⟨by decide, fun _ => ⟨hrooted, fun other hother => ?_⟩, h⟩
          rcases List.mem_cons.1 hother with rfl | hother
          · exact hlast
          · exact hrest other hother
        · rw [if_neg hlast]
          exact h.2.2
    · rw [if_neg hdots]
      exact ⟨⟨hname, hskip.1, hskip.2⟩, fun hd => absurd hd hdots, h⟩

/-- A component that may stand where it is stays when it is pushed. -/
theorem push_eq (h : Clean rooted (name :: names)) :
    FilePath.push rooted names name = name :: names := by
  obtain ⟨⟨_, hempty, hdot⟩, hdots, _⟩ := h
  unfold FilePath.push
  rw [if_neg (not_or.2 ⟨hempty, hdot⟩)]
  by_cases hname : name = ".."
  · obtain ⟨hrooted, hnames⟩ := hdots hname
    rw [if_pos hname]
    cases names with
    | nil => simp [hrooted, hname]
    | cons last rest => simp [hnames last List.mem_cons_self, hname]
  · rw [if_neg hname]

theorem foldl_push (h : Clean rooted names.reverse) :
    names.foldl (FilePath.push rooted) [] = names.reverse := by
  induction hrev : names.reverse generalizing names with
  | nil =>
    rw [List.reverse_eq_nil_iff.1 hrev]
    rfl
  | cons last rest ih =>
    have hnames : names = rest.reverse ++ [last] := by
      rw [← List.reverse_reverse names, hrev, List.reverse_cons]
    rw [hrev] at h
    have hclean : Clean rooted rest.reverse.reverse := by rw [List.reverse_reverse]; exact h.2.2
    have hfront := ih hclean (List.reverse_reverse rest)
    rw [hnames, List.foldl_append, hfront, List.foldl_cons, List.foldl_nil, h.push_eq]

end Clean

theorem clean_components (path : String) : Clean (isAbsolute path) (components path).reverse := by
  have hfold : ∀ (names kept : List String), Clean (isAbsolute path) kept →
      (∀ name ∈ names, '/' ∉ name.toList) →
      Clean (isAbsolute path) (names.foldl (push (isAbsolute path)) kept) := by
    intro names
    induction names with
    | nil => exact fun kept h _ => h
    | cons name rest ih =>
      intro kept h hnames
      rw [List.forall_mem_cons] at hnames
      exact ih _ (h.push hnames.1) hnames.2
  rw [components, List.reverse_reverse]
  exact hfold _ [] trivial fun name => not_mem_of_mem_pieces

theorem pieces_intercalate (hne : names ≠ []) (h : ∀ name ∈ names, '/' ∉ name.toList) :
    pieces ("/".intercalate names) = names := by
  induction names with
  | nil => exact absurd rfl hne
  | cons name rest ih =>
    rw [List.forall_mem_cons] at h
    by_cases hrest : rest = []
    · rw [hrest, String.intercalate_singleton, pieces_of_not_mem h.1]
    · rw [String.intercalate_cons_of_ne_nil hrest, pieces_append, pieces_of_not_mem h.1,
        ih hrest h.2, List.singleton_append]

section OfComponents

variable {rooted : Bool} {names : List String}

theorem ofComponents_eq (hne : names ≠ []) :
    ofComponents rooted names = (if rooted then "/" else "") ++ "/".intercalate names := by
  rw [ofComponents, if_neg (by simpa using hne)]

theorem pieces_ofComponents (hne : names ≠ []) (h : Clean rooted names.reverse) :
    pieces (ofComponents rooted names) = (if rooted then [""] else []) ++ names := by
  rw [ofComponents_eq hne]
  cases rooted with
  | false => simp [pieces_intercalate hne h.slash]
  | true =>
    have hpieces := pieces_append "" ("/".intercalate names)
    rw [pieces_intercalate hne h.slash, show pieces "" = [""] from rfl,
      String.empty_append] at hpieces
    exact hpieces

/-- The text of clean components says whether it is rooted. -/
theorem isAbsolute_ofComponents (hne : names ≠ []) (h : Clean rooted names.reverse) :
    isAbsolute (ofComponents rooted names) = rooted := by
  rw [ofComponents_eq hne]
  cases rooted with
  | true => simp [isAbsolute]
  | false =>
    obtain ⟨first, rest, rfl⟩ := List.exists_cons_of_ne_nil hne
    obtain ⟨hslash, hempty⟩ := h.mem first (by simp)
    obtain ⟨c, cs, hfirst⟩ := List.exists_cons_of_ne_nil (String.toList_eq_nil_iff.not.2 hempty)
    have hc : c ≠ '/' := by
      intro hc
      simp [hfirst, hc] at hslash
    have htext : ∃ tail, ("/".intercalate (first :: rest)).toList = c :: tail := by
      cases rest with
      | nil => exact ⟨cs, by rw [String.intercalate_singleton, hfirst]⟩
      | cons second rest => simp [String.intercalate_cons_cons, hfirst]
    obtain ⟨tail, htail⟩ := htext
    simp [isAbsolute, htail, hc]

theorem components_ofComponents (hne : names ≠ []) (h : Clean rooted names.reverse) :
    components (ofComponents rooted names) = names := by
  have hpush : push rooted [] "" = [] := by simp [push]
  rw [components, isAbsolute_ofComponents hne h, pieces_ofComponents hne h]
  cases rooted with
  | false => simp [h.foldl_push]
  | true => simp [hpush, h.foldl_push]

/-- A clean text is cleaned no further. -/
theorem clean_ofComponents (hne : names ≠ []) (h : Clean rooted names.reverse) :
    clean (ofComponents rooted names) = ofComponents rooted names := by
  rw [clean, isAbsolute_ofComponents hne h, components_ofComponents hne h]

theorem ofComponents_concat (hne : names ≠ []) (name : String) :
    ofComponents rooted (names ++ [name]) = ofComponents rooted names ++ "/" ++ name := by
  have hjoin : ∀ names : List String, names ≠ [] →
      "/".intercalate (names ++ [name]) = "/".intercalate names ++ "/" ++ name := by
    intro names hne
    induction names with
    | nil => exact absurd rfl hne
    | cons first rest ih =>
      by_cases hrest : rest = []
      · simp [hrest, String.intercalate_cons_cons]
      · rw [List.cons_append, String.intercalate_cons_of_ne_nil (by simp), ih hrest,
          String.intercalate_cons_of_ne_nil hrest]
        simp only [String.append_assoc]
  rw [ofComponents_eq (by simp), ofComponents_eq hne, hjoin names hne]
  simp only [String.append_assoc]

/-- A slash at the end makes no difference to a path that is not empty. -/
theorem clean_append_slash {path : String} (hne : path ≠ "") : clean (path ++ "/") = clean path := by
  have hlist : path.toList ≠ [] := String.toList_eq_nil_iff.not.2 hne
  have habsolute : isAbsolute (path ++ "/") = isAbsolute path := by
    have := isAbsolute_append hlist ['/']
    rwa [String.ofList_append, String.ofList_toList] at this
  have hpieces : pieces (path ++ "/") = pieces path ++ [""] := by
    have := pieces_append path ""
    rwa [String.append_empty] at this
  have hpush : ∀ kept, push (isAbsolute path) kept "" = kept := by simp [push]
  rw [clean, clean, components, components, habsolute, hpieces, List.foldl_append, List.foldl_cons,
    List.foldl_nil, hpush]

/-- The directory of a clean path has all components but the last. -/
theorem dir_ofComponents (hne : names ≠ []) (h : Clean rooted names.reverse)
    (hname : '/' ∉ name.toList) :
    dir (ofComponents rooted (names ++ [name])) = ofComponents rooted names := by
  have hcut : ((ofComponents rooted (names ++ [name])).toList.reverse.dropWhile (· ≠ '/')).reverse =
      (ofComponents rooted names ++ "/").toList := by
    have hskip : ∀ c ∈ name.toList.reverse, decide (c ≠ '/') = true := by
      intro c hc
      have hmem := List.mem_reverse.1 hc
      exact decide_eq_true fun hslash => hname (hslash ▸ hmem)
    rw [ofComponents_concat hne, String.toList_append, List.reverse_append,
      List.dropWhile_append_of_pos hskip]
    simp
  have htext : ofComponents rooted names ≠ "" := by
    intro htext
    have hempty := pieces_ofComponents hne h
    have hmem := components_ofComponents hne h
    rw [htext] at hmem
    exact hne hmem.symm
  rw [dir, hcut, String.ofList_toList, clean_append_slash htext, clean_ofComponents hne h]

end OfComponents

theorem foldl_push_plain (h : ∀ name ∈ names, Plain name) (rooted : Bool) (kept : List String) :
    names.foldl (push rooted) kept = names.reverse ++ kept := by
  induction names generalizing kept with
  | nil => rfl
  | cons name rest ih =>
    rw [List.forall_mem_cons] at h
    have hname : push rooted kept name = name :: kept := by
      simp [push, h.1.ne_empty, h.1.ne_dot, h.1.ne_dots]
    rw [List.foldl_cons, hname, ih h.2]
    simp

theorem join_of_ne_nil {parts : List String} (h : parts.filter (· ≠ "") ≠ []) :
    join parts = clean ("/".intercalate (parts.filter (· ≠ ""))) := by
  unfold join
  split
  · contradiction
  · rfl

/-- Joining plain names to a path adds them to its components. -/
theorem join_cons (path : String) (hne : names ≠ []) (h : ∀ name ∈ names, Plain name) :
    join (path :: names) = ofComponents (isAbsolute path) (components path ++ names) := by
  have hkept : names.filter (· ≠ "") = names :=
    List.filter_eq_self.2 fun name hname => decide_eq_true (h name hname).ne_empty
  have hpieces : pieces ("/".intercalate names) = names :=
    pieces_intercalate hne fun name hname => (h name hname).slash
  by_cases hpath : path = ""
  · -- An empty path is left out, and the names stand alone.
    have hparts : (path :: names).filter (· ≠ "") = names := by
      rw [List.filter_cons_of_neg (by simp [hpath]), hkept]
    have hclean : Clean false (names.reverse ++ []) := Clean.append_plain trivial h
    rw [List.append_nil] at hclean
    have hcomponents : components path = [] := by rw [hpath]; rfl
    have habsolute : isAbsolute path = false := by rw [hpath]; rfl
    have htext : ofComponents false names = "/".intercalate names := by
      rw [ofComponents_eq hne]
      simp
    rw [join_of_ne_nil (by rw [hparts]; exact hne), hparts, hcomponents, habsolute, ← htext,
      clean_ofComponents hne hclean, List.nil_append]
  · have hparts : (path :: names).filter (· ≠ "") = path :: names := by
      rw [List.filter_cons_of_pos (by simpa using hpath), hkept]
    have habsolute : isAbsolute ("/".intercalate (path :: names)) = isAbsolute path := by
      have hlist : path.toList ≠ [] := String.toList_eq_nil_iff.not.2 hpath
      have := isAbsolute_append hlist ("/" ++ "/".intercalate names).toList
      rw [String.ofList_append, String.ofList_toList, String.ofList_toList] at this
      rw [String.intercalate_cons_of_ne_nil hne, String.append_assoc, this]
    have hall : pieces ("/".intercalate (path :: names)) = pieces path ++ names := by
      rw [String.intercalate_cons_of_ne_nil hne, pieces_append, hpieces]
    rw [join_of_ne_nil (by rw [hparts]; exact List.cons_ne_nil _ _), hparts, clean, habsolute,
      components, habsolute, hall, List.foldl_append, foldl_push_plain h]
    simp [components]

end FilePath

end ShaderScript
