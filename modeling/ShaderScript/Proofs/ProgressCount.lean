import Mathlib.Data.Bool.Basic
import Mathlib.Data.List.Dedup
import Mathlib.Data.List.Induction
import ShaderScript.Batch.Progress
import ShaderScript.Proofs.FileCourse
import ShaderScript.Proofs.Interleaving

/-!
# The count of finished files

The header of a progress view counts the files that need no more work.  Whether a file does is taken
from its last event alone, so the count goes down again if a file has an event that does not end it
after one that does.  A file whose script comes from the cache and is then written has one, and so
has a path that is listed twice; no other file has.

Files may be handled at the same time, so the events of a run come in any order that keeps the order
of each file (`Interleaving`).
-/

namespace ShaderScript

variable {file : String} {events : List BatchEvent}

/-! ## What the header counts -/

namespace Progress

/-- The view after events. -/
def follow (p : Progress) (events : List BatchEvent) : Progress := events.foldl apply p

/-- The counts that the header shows, before the events and after each of them. -/
def counts (p : Progress) : List BatchEvent → List Nat
  | [] => [p.finished]
  | e :: rest => p.finished :: (p.apply e).counts rest

/-- The count never goes down as events come in. -/
def Ascends (p : Progress) (events : List BatchEvent) : Prop := (p.counts events).Pairwise (· ≤ ·)

instance (p : Progress) (events : List BatchEvent) : Decidable (p.Ascends events) :=
  inferInstanceAs (Decidable ((p.counts events).Pairwise (· ≤ ·)))

theorem follow_concat (p : Progress) (events : List BatchEvent) (e : BatchEvent) :
    p.follow (events ++ [e]) = (p.follow events).apply e := by
  simp [follow]

/-- The items after an event: the last one of its file takes it. -/
def applyLast (e : BatchEvent) : List ProgressItem → List ProgressItem
  | [] => []
  | item :: rest =>
    if e.file ∈ rest.map ProgressItem.path then item :: applyLast e rest
    else if item.path = e.file then item.apply e :: rest
    else item :: rest

end Progress

/-- Whether each event of a file ends it. -/
def finals (events : List BatchEvent) (file : String) : List Bool :=
  (events.filter fun e => e.file = file).map ProgressItem.isFinal

/-- Whether the last event of a file ended it. -/
def ended (events : List BatchEvent) (file : String) : Bool :=
  (finals events file).getLast?.getD false

@[simp] theorem finals_nil (file : String) : finals [] file = [] := rfl

theorem finals_append (xs ys : List BatchEvent) (file : String) :
    finals (xs ++ ys) file = finals xs file ++ finals ys file := by
  simp [finals]

theorem finals_cons (e : BatchEvent) (events : List BatchEvent) (file : String) :
    finals (e :: events) file =
      if e.file = file then ProgressItem.isFinal e :: finals events file
      else finals events file := by
  by_cases h : e.file = file <;> simp [finals, h]

theorem Interleave.finals {xs ys zs : List BatchEvent} (h : Interleave xs ys zs) (file : String) :
    Interleave (ShaderScript.finals xs file) (ShaderScript.finals ys file)
      (ShaderScript.finals zs file) :=
  (h.filter _).map _

theorem ended_concat (events : List BatchEvent) (e : BatchEvent) (file : String) :
    ended (events ++ [e]) file =
      if e.file = file then ProgressItem.isFinal e else ended events file := by
  rw [ended, finals_append, finals_cons]
  by_cases h : e.file = file <;> simp [h, ended]

namespace Progress

variable {items : List ProgressItem}

/-- The items of a view after events: of items with one path only the last is ever final. -/
def Shows (events : List BatchEvent) : List ProgressItem → Prop
  | [] => True
  | item :: rest =>
    item.final = (item.path ∉ rest.map ProgressItem.path && ended events item.path) ∧
      Shows events rest

theorem find?_eq_none_iff {p : Progress} :
    p.find? file = none ↔ file ∉ p.items.map ProgressItem.path := by
  have hmem : (∀ x ∈ p.items.zipIdx, x.1.path ≠ file) ↔ ∀ item ∈ p.items, item.path ≠ file := by
    constructor
    · intro h item hitem
      obtain ⟨i, hi⟩ := List.mem_iff_getElem?.1 hitem
      exact h (item, i) (List.mk_mem_zipIdx_iff_getElem?.2 hi)
    · exact fun h x hx => h _ (List.fst_mem_of_mem_zipIdx hx)
  simpa [find?] using hmem

theorem find?_cons (p : Progress) (item : ProgressItem) (file : String) :
    find? { p with items := item :: p.items } file =
      ((p.find? file).map (· + 1)).or (if item.path = file then some 0 else none) := by
  have hshift : (item :: p.items).zipIdx.reverse =
      p.items.zipIdx.reverse.map (fun x => (x.1, x.2 + 1)) ++ [(item, 0)] := by
    rw [List.zipIdx_cons, List.zipIdx_succ, List.reverse_cons, List.map_reverse]
  rw [find?, find?, hshift, List.find?_append, List.find?_map, Option.map_or]
  congr 1
  · simp [Function.comp_def]
  · by_cases h : item.path = file <;> simp [h]

/-- Of items with one path the last takes an event. -/
theorem items_apply (p : Progress) (e : BatchEvent) : (p.apply e).items = applyLast e p.items := by
  obtain ⟨title, items, width, barWidth, done⟩ := p
  induction items with
  | nil => rfl
  | cons item rest ih =>
    have hfind := find?_cons ⟨title, rest, width, barWidth, done⟩ item e.file
    unfold apply at ih ⊢
    rw [applyLast, hfind]
    -- An item takes the event only if no later one has its path.
    cases hrest : find? ⟨title, rest, width, barWidth, done⟩ e.file with
    | none =>
      rw [if_neg (find?_eq_none_iff.1 hrest)]
      by_cases hitem : item.path = e.file
      · rw [if_pos hitem, if_pos hitem]
        rfl
      · rw [if_neg hitem, if_neg hitem]
        rfl
    | some i =>
      have hmem : e.file ∈ rest.map ProgressItem.path := by
        by_contra hno
        rw [find?_eq_none_iff.2 hno] at hrest
        cases hrest
      rw [hrest] at ih
      rw [if_pos hmem, ← ih]
      rfl

theorem path_applyLast (e : BatchEvent) (items : List ProgressItem) :
    (applyLast e items).map ProgressItem.path = items.map ProgressItem.path := by
  have hpath : ∀ item : ProgressItem, (item.apply e).path = item.path := by
    intro item
    unfold ProgressItem.apply
    dsimp only
    split <;> rfl
  induction items with
  | nil => rfl
  | cons item rest ih =>
    rw [applyLast]
    split
    · rw [List.map_cons, List.map_cons, ih]
    · split
      · rw [List.map_cons, List.map_cons, hpath]
      · rfl

/-- Events of other files do not change what items show. -/
theorem Shows.concat_of_not_mem {e : BatchEvent} (h : Shows events items)
    (he : e.file ∉ items.map ProgressItem.path) : Shows (events ++ [e]) items := by
  induction items with
  | nil => trivial
  | cons item rest ih =>
    rw [List.map_cons, List.mem_cons, not_or] at he
    refine ⟨?_, ih h.2 he.2⟩
    rw [h.1, ended_concat, if_neg he.1]

/-- An event keeps the items in step with the events. -/
theorem Shows.applyLast (h : Shows events items) (e : BatchEvent) :
    Shows (events ++ [e]) (applyLast e items) := by
  induction items with
  | nil => trivial
  | cons item rest ih =>
    rw [Progress.applyLast]
    split
    · rename_i hmem
      refine ⟨?_, ih h.2⟩
      rw [h.1, path_applyLast, ended_concat]
      -- If the event is about this path, a later item takes it.
      by_cases hfile : e.file = item.path
      · simp [← hfile, hmem]
      · rw [if_neg hfile]
    · rename_i hmem
      have hrest := h.2.concat_of_not_mem hmem
      split
      · rename_i hitem
        have hpath : (item.apply e).path = item.path := by
          have := path_applyLast e [item]
          simpa [Progress.applyLast, hitem] using this
        refine ⟨?_, hrest⟩
        rw [hpath, ended_concat, if_pos hitem.symm, hitem]
        simp only [hmem, not_false_eq_true, decide_true, Bool.true_and]
        rfl
      · rename_i hitem
        refine ⟨?_, hrest⟩
        rw [h.1, ended_concat, if_neg (Ne.symm hitem)]

theorem Shows.countP_final (h : Shows events items) : items.countP (·.final) =
      (items.map ProgressItem.path).dedup.countP (ended events) := by
  induction items with
  | nil => rfl
  | cons item rest ih =>
    rw [List.countP_cons, h.1, ih h.2, List.map_cons]
    by_cases hmem : item.path ∈ rest.map ProgressItem.path
    · rw [List.dedup_cons_of_mem hmem]
      simp [hmem]
    · rw [List.dedup_cons_of_notMem hmem, List.countP_cons]
      simp [hmem]

section Follow

variable (title : String) (files : List String) (events : List BatchEvent)

theorem follow_shows :
    ((start title files).follow events).items.map ProgressItem.path = files ∧
      Shows events ((start title files).follow events).items := by
  induction events using List.reverseRecOn with
  | nil =>
    refine ⟨by simp [follow, start, Function.comp_def], ?_⟩
    show Shows [] (files.map fun path => { path })
    induction files with
    | nil => trivial
    | cons file rest ih => exact ⟨by simp [ended], ih⟩
  | append_singleton events e ih =>
    rw [follow_concat, items_apply, path_applyLast]
    exact ⟨ih.1, ih.2.applyLast e⟩

/-- The header counts the files whose last event ended them. -/
theorem finished_follow : ((start title files).follow events).finished =
    files.dedup.countP (ended events) := by
  obtain ⟨hpaths, hshows⟩ := follow_shows title files events
  rw [finished, hshows.countP_final, hpaths]

/-- The count goes down only if an event opens its file again. -/
theorem finished_le_concat_iff (e : BatchEvent) :
    ((start title files).follow events).finished ≤
        ((start title files).follow (events ++ [e])).finished ↔
      (e.file ∈ files → ended events e.file ≤ ProgressItem.isFinal e) := by
  rw [finished_follow, finished_follow]
  -- Files other than the event's stay as they are.
  have hothers : ∀ others : List String, e.file ∉ others →
      others.countP (ended (events ++ [e])) = others.countP (ended events) := by
    intro others hother
    refine List.countP_congr fun file hfile => ?_
    have hne : e.file ≠ file := fun h => hother (h ▸ hfile)
    rw [ended_concat, if_neg hne]
  by_cases hmem : e.file ∈ files
  · have hperm := List.perm_cons_erase (List.mem_dedup.2 hmem)
    have herase : e.file ∉ files.dedup.erase e.file := (List.nodup_dedup files).not_mem_erase
    rw [hperm.countP_eq, hperm.countP_eq, List.countP_cons, List.countP_cons, hothers _ herase,
      ended_concat, if_pos rfl]
    cases ended events e.file <;> cases ProgressItem.isFinal e <;>
      simp [hmem, Bool.le_iff_imp]
  · rw [hothers _ (List.mem_dedup.not.2 hmem)]
    simp [hmem]

end Follow

theorem ascends_cons {p : Progress} {e : BatchEvent} :
    p.Ascends (e :: events) ↔ p.finished ≤ (p.apply e).finished ∧ (p.apply e).Ascends events := by
  have hcounts : ∃ rest, (p.apply e).counts events = (p.apply e).finished :: rest := by
    cases events with
    | nil | cons => exact ⟨_, rfl⟩
  obtain ⟨rest, hrest⟩ := hcounts
  rw [Ascends, Ascends, ← List.isChain_iff_pairwise, ← List.isChain_iff_pairwise, counts, hrest,
    List.isChain_cons_cons]

/-- The step of `ascends_iff`, for a view that has seen some events. -/
theorem follow_ascends_iff (title : String) (files : List String) (seen events : List BatchEvent) :
    ((start title files).follow seen).Ascends events ↔
      ∀ file ∈ files, (ended seen file :: finals events file).IsChain (· ≤ ·) := by
  induction events generalizing seen with
  | nil =>
    have hascends : ((start title files).follow seen).Ascends [] := List.pairwise_singleton _ _
    simp [hascends]
  | cons e events ih =>
    -- The event adds a link to the chain of its file, and none to the others.
    rw [ascends_cons, ← follow_concat, ih, finished_le_concat_iff]
    simp only [ended_concat, finals_cons]
    constructor
    · rintro ⟨hstep, hrest⟩ file hfile
      have hchain := hrest file hfile
      by_cases he : e.file = file
      · rw [if_pos he] at hchain ⊢
        rw [List.isChain_cons_cons]
        exact ⟨he ▸ hstep (he ▸ hfile), hchain⟩
      · rwa [if_neg he] at hchain ⊢
    · intro hall
      refine ⟨fun hfile => ?_, fun file hfile => ?_⟩
      · have hchain := hall e.file hfile
        rw [if_pos rfl, List.isChain_cons_cons] at hchain
        exact hchain.1
      · have hchain := hall file hfile
        by_cases he : e.file = file
        · rw [if_pos he] at hchain ⊢
          exact (List.isChain_cons_cons.1 hchain).2
        · rwa [if_neg he] at hchain ⊢

/-- The count never goes down if and only if no file that was ended is opened again. -/
theorem ascends_iff (title : String) (files : List String) (events : List BatchEvent) :
    (start title files).Ascends events ↔
      ∀ file ∈ files, (finals events file).Pairwise (· ≤ ·) := by
  have hstart := follow_ascends_iff title files [] events
  rw [show (start title files).follow [] = start title files from rfl] at hstart
  rw [hstart]
  refine forall₂_congr fun file _ => ?_
  rw [List.isChain_iff_pairwise, List.pairwise_cons]
  exact and_iff_right fun final _ => Bool.false_le final

end Progress

namespace Batch

open Progress

/-! ## The events of a run -/

/-- Whether a file is opened again after it was ended: its script comes from the cache and is then
written. -/
def Request.Reopens (request : Request) (r : FileResult) : Prop :=
  request.outDir ≠ "" ∧ r.cached = true ∧ r.diagnostic = ""

/-- The events of a file, from the one that puts it in line. -/
def trail (outcome : FileResult × List BatchEvent) : List BatchEvent :=
  queued outcome.1.path :: outcome.2

section Courses

variable {outDir : String} {target : Target} {r : FileResult} {events : List BatchEvent}

theorem isFinal_translate {status : Status}
    (h : status = .done ∨ status = .cached ∨ status = .error) (file : String) :
    ProgressItem.isFinal ⟨file, .translate, status, none⟩ = true := by
  rcases h with rfl | rfl | rfl <;> rfl

/-- A script that is written has an event that does not end its file, and each script one that
does. -/
theorem Ending.isFinal (h : Ending outDir target r events) :
    events.map ProgressItem.isFinal =
      if outDir ≠ "" ∧ r.diagnostic = "" then [false, true] else [true] := by
  cases h with
  | unwritten h _ status hstatus =>
    have hno : ¬ (outDir ≠ "" ∧ r.diagnostic = "") := by tauto
    rw [if_neg hno, List.map_singleton, isFinal_translate hstatus]
  | refused hdir hdiagnostic _ message =>
    rw [if_pos ⟨hdir, hdiagnostic⟩]
    rfl
  | written hdir hdiagnostic _ _ status hstatus =>
    rw [if_pos ⟨hdir, hdiagnostic⟩, List.map_cons, List.map_singleton,
      isFinal_translate (hstatus.imp_right .inl)]
    rfl

/-- The first event of a file does not end it and the last one does; none in between opens it
again, but for a script from the cache that is written. -/
theorem Course.isFinal (h : Course outDir target r events) :
    (∃ middle, events.map ProgressItem.isFinal = false :: middle ++ [true]) ∧
      ((events.map ProgressItem.isFinal).Pairwise (· ≤ ·) ↔
        ¬ (outDir ≠ "" ∧ r.cached = true ∧ r.diagnostic = "")) := by
  cases h with
  | unread hcached _ message =>
    exact ⟨⟨[], rfl⟩, by simp [ProgressItem.isFinal, hcached]⟩
  | uncompiled hcached _ message =>
    exact ⟨⟨[false], rfl⟩, by simp [ProgressItem.isFinal, hcached]⟩
  | @compiled hcached ending h =>
    have hfinal : (⟨r.path, .load, .working, none⟩ :: ⟨r.path, .translate, .working, none⟩ ::
        ending).map ProgressItem.isFinal = false :: false :: ending.map ProgressItem.isFinal := rfl
    rw [hfinal, h.isFinal]
    by_cases hwritten : outDir ≠ "" ∧ r.diagnostic = ""
    · rw [if_pos hwritten]
      exact ⟨⟨[false, false], rfl⟩, by simp [hcached]⟩
    · rw [if_neg hwritten]
      exact ⟨⟨[false], rfl⟩, by simp [hcached]⟩
  | @found hcached ending h =>
    have hfinal : (⟨r.path, .load, .working, none⟩ :: ⟨r.path, .translate, .cached, none⟩ ::
        ending).map ProgressItem.isFinal = false :: true :: ending.map ProgressItem.isFinal := rfl
    rw [hfinal, h.isFinal]
    by_cases hwritten : outDir ≠ "" ∧ r.diagnostic = ""
    · -- The file was ended by the cache, and is opened again to be written.
      rw [if_pos hwritten]
      exact ⟨⟨[true, false], rfl⟩, by simp [hcached, hwritten, Bool.le_iff_imp]⟩
    · rw [if_neg hwritten]
      refine ⟨⟨[true], rfl⟩, ?_⟩
      simp only [hcached, true_and]
      exact iff_of_true (by simp) hwritten

end Courses

/-- What a file came to is one of the courses. -/
def TakesCourse (outDir : String) (outcome : FileResult × List BatchEvent) : Prop :=
  ∃ target, Course outDir target outcome.1 outcome.2

section Trails

variable {outDir : String} {outcome : FileResult × List BatchEvent}

/-- All events of a file show whether they end it. -/
theorem finals_own (h : TakesCourse outDir outcome) :
    finals outcome.2 outcome.1.path = outcome.2.map ProgressItem.isFinal := by
  obtain ⟨target, hcourse⟩ := h
  have hown : outcome.2.filter (fun e => e.file = outcome.1.path) = outcome.2 :=
    List.filter_eq_self.2 fun e he => decide_eq_true (hcourse.file e he)
  rw [finals, hown]

theorem finals_trail (h : TakesCourse outDir outcome) :
    finals (trail outcome) outcome.1.path = false :: outcome.2.map ProgressItem.isFinal := by
  rw [trail, finals_cons, finals_own h]
  exact if_pos rfl

theorem finals_trail_of_ne (h : TakesCourse outDir outcome) (hne : file ≠ outcome.1.path) :
    finals (trail outcome) file = [] := by
  obtain ⟨target, hcourse⟩ := h
  have hnone : ∀ e ∈ trail outcome, e.file ≠ file := by
    intro e he
    rcases List.mem_cons.1 he with rfl | he
    · exact hne.symm
    · exact hcourse.file e he ▸ hne.symm
  rw [finals, List.filter_eq_nil_iff.2 (by simpa using hnone), List.map_nil]

end Trails

section Interleavings

variable {outDir : String} {outcomes : List (FileResult × List BatchEvent)}
  {events : List BatchEvent}

theorem finals_eq_nil_of_not_mem (hcourses : ∀ o ∈ outcomes, TakesCourse outDir o)
    (h : Interleaving (outcomes.map trail) events) (hfile : file ∉ outcomes.map (·.1.path)) :
    finals events file = [] := by
  induction outcomes generalizing events with
  | nil =>
    cases h
    rfl
  | cons o rest ih =>
    rw [List.forall_mem_cons] at hcourses
    rw [List.map_cons, List.mem_cons, not_or] at hfile
    cases h with
    | cons hrest hmerge =>
      have hfinals := hmerge.finals file
      rw [finals_trail_of_ne hcourses.1 hfile.1] at hfinals
      rw [hfinals.eq_of_nil_left, ih hcourses.2 hrest hfile.2]

theorem finals_ne_nil_of_mem (hcourses : ∀ o ∈ outcomes, TakesCourse outDir o)
    (h : Interleaving (outcomes.map trail) events) (hfile : file ∈ outcomes.map (·.1.path)) :
    finals events file ≠ [] := by
  induction outcomes generalizing events with
  | nil => cases hfile
  | cons o rest ih =>
    rw [List.forall_mem_cons] at hcourses
    cases h with
    | cons hrest hmerge =>
      intro hnil
      have hfinals := hmerge.finals file
      rw [hnil] at hfinals
      rcases List.mem_cons.1 hfile with rfl | hfile
      · have htrail := hfinals.eq_nil.1
        rw [finals_trail hcourses.1] at htrail
        cases htrail
      · exact ih hcourses.2 hrest hfile hfinals.eq_nil.2

/-- In any order the last event of a file is the last one of a trail, which ends it. -/
theorem eq_true_of_getLast?_finals (hcourses : ∀ o ∈ outcomes, TakesCourse outDir o)
    (h : Interleaving (outcomes.map trail) events) {final : Bool}
    (hlast : (finals events file).getLast? = some final) : final = true := by
  induction outcomes generalizing events with
  | nil =>
    cases h
    cases hlast
  | cons o rest ih =>
    rw [List.forall_mem_cons] at hcourses
    cases h with
    | cons hrest hmerge =>
      rcases (hmerge.finals file).getLast? hlast with htrail | hothers
      · by_cases hown : file = o.1.path
        · obtain ⟨target, hcourse⟩ := hcourses.1
          obtain ⟨middle, hmiddle⟩ := hcourse.isFinal.1
          rw [hown, finals_trail hcourses.1, hmiddle, ← List.cons_append,
            List.getLast?_concat] at htrail
          exact (Option.some.inj htrail).symm
        · rw [finals_trail_of_ne hcourses.1 hown] at htrail
          cases htrail
      · exact ih hcourses.2 hrest hothers

theorem ended_of_mem (hcourses : ∀ o ∈ outcomes, TakesCourse outDir o)
    (h : Interleaving (outcomes.map trail) events) (hfile : file ∈ outcomes.map (·.1.path)) :
    ended events file = true := by
  cases hlast : (finals events file).getLast? with
  | none =>
    have hnil := List.getLast?_eq_none_iff.1 hlast
    exact absurd hnil (finals_ne_nil_of_mem hcourses h hfile)
  | some final =>
    rw [ended, hlast]
    exact eq_true_of_getLast?_finals hcourses h hlast

/-- If no path is listed twice, the events of a file are those of its trail. -/
theorem finals_of_nodup (hcourses : ∀ o ∈ outcomes, TakesCourse outDir o)
    (hnodup : (outcomes.map (·.1.path)).Nodup) (h : Interleaving (outcomes.map trail) events)
    {outcome : FileResult × List BatchEvent} (hmem : outcome ∈ outcomes) :
    finals events outcome.1.path = false :: outcome.2.map ProgressItem.isFinal := by
  induction outcomes generalizing events with
  | nil => cases hmem
  | cons o rest ih =>
    rw [List.forall_mem_cons] at hcourses
    rw [List.map_cons, List.nodup_cons] at hnodup
    cases h with
    | cons hrest hmerge =>
      have hfinals := hmerge.finals outcome.1.path
      -- One of the two parts has no event of the file.
      rcases List.mem_cons.1 hmem with rfl | hmem
      · rw [finals_eq_nil_of_not_mem hcourses.2 hrest hnodup.1] at hfinals
        rw [hfinals.eq_of_nil_right, finals_trail hcourses.1]
      · have hne : outcome.1.path ≠ o.1.path := by
          intro hsame
          exact hnodup.1 (hsame ▸ List.mem_map_of_mem hmem)
        rw [finals_trail_of_ne hcourses.1 hne] at hfinals
        rw [hfinals.eq_of_nil_left, ih hcourses.2 hnodup.2 hrest hmem]

end Interleavings

/-! ## Files one after the other -/

/-- The order in which one worker handles the files: they are put in line, and then each is dealt
with to its end. -/
def oneByOne (outcomes : List (FileResult × List BatchEvent)) : List BatchEvent :=
  outcomes.map (fun o => queued o.1.path) ++ (outcomes.map Prod.snd).flatten

theorem interleaving_oneByOne (outcomes : List (FileResult × List BatchEvent)) :
    Interleaving (outcomes.map trail) (oneByOne outcomes) := by
  induction outcomes with
  | nil => exact .nil
  | cons o rest ih =>
    -- The first file goes on only after all others are put in line.
    have hlater := (Interleave.nil_right o.2).append (.nil_left (rest.map Prod.snd).flatten)
    have hmerge := (Interleave.nil_left (rest.map fun o => queued o.1.path)).append hlater
    rw [List.append_nil] at hmerge
    exact .cons ih hmerge.left

/-- One worker opens a file again if it is listed twice, or if its course does. -/
theorem nodup_of_pairwise {outDir : String} {outcomes : List (FileResult × List BatchEvent)}
    (hcourses : ∀ o ∈ outcomes, TakesCourse outDir o)
    (h : ∀ file, (finals (outcomes.map Prod.snd).flatten file).Pairwise (· ≤ ·)) :
    (outcomes.map (·.1.path)).Nodup ∧
      ∀ o ∈ outcomes, (o.2.map ProgressItem.isFinal).Pairwise (· ≤ ·) := by
  induction outcomes with
  | nil => simp
  | cons o rest ih =>
    rw [List.forall_mem_cons] at hcourses
    simp only [List.map_cons, List.flatten_cons, finals_append, List.pairwise_append] at h
    obtain ⟨hnodup, hrest⟩ := ih hcourses.2 fun file => (h file).2.1
    have hfirst : o.1.path ∉ rest.map (·.1.path) := by
      intro hmem
      obtain ⟨o', ho', hpath⟩ := List.mem_map.1 hmem
      -- The file is ended, and begins again at its second place.
      have hended : true ∈ finals o.2 o.1.path := by
        obtain ⟨target, hcourse⟩ := hcourses.1
        obtain ⟨middle, hmiddle⟩ := hcourse.isFinal.1
        rw [finals_own hcourses.1, hmiddle]
        simp
      have hopened : false ∈ finals o'.2 o.1.path := by
        obtain ⟨target, hcourse⟩ := hcourses.2 o' ho'
        obtain ⟨middle, hmiddle⟩ := hcourse.isFinal.1
        rw [← hpath, finals_own (hcourses.2 o' ho'), hmiddle]
        simp
      have hlater : false ∈ finals (rest.map Prod.snd).flatten o.1.path := by
        obtain ⟨e, he, hfinal⟩ := List.mem_map.1 hopened
        obtain ⟨hin, hfile⟩ := List.mem_filter.1 he
        have hflat := List.mem_flatten_of_mem (List.mem_map_of_mem ho') hin
        exact List.mem_map.2 ⟨e, List.mem_filter.2 ⟨hflat, hfile⟩, hfinal⟩
      exact absurd ((h o.1.path).2.2 true hended false hlater) (by decide)
    refine ⟨List.nodup_cons.2 ⟨hfirst, hnodup⟩, List.forall_mem_cons.2 ⟨?_, hrest⟩⟩
    have hown := (h o.1.path).1
    rwa [finals_own hcourses.1] at hown

/-! ## Whole runs -/

section Handled

variable {request : Request} {outcomes : List (FileResult × List BatchEvent)}

theorem Request.Handled.courses (h : request.Handled outcomes) :
    ∀ o ∈ outcomes, TakesCourse request.outDir o := by
  intro o ho
  obtain ⟨i, hi⟩ := List.mem_iff_getElem?.1 ho
  obtain ⟨target, -, -, hcourse⟩ := h.course hi
  exact ⟨target, hcourse⟩

theorem Request.Handled.map_path (h : request.Handled outcomes) :
    outcomes.map (·.1.path) = request.files := by
  have hpaths : List.Forall₂ (fun work (o : FileResult × List BatchEvent) => o.1.path = work.1)
      (request.files.zip request.targets) outcomes := h.imp fun _ _ hyields => hyields.course.1
  rw [← map_fst_zip_targets request]
  generalize request.files.zip request.targets = work at hpaths ⊢
  clear h
  induction hpaths with
  | nil => rfl
  | cons hfirst _ ih => rw [List.map_cons, List.map_cons, hfirst, ih]

/-- In any order all files are counted in the end. -/
theorem Request.Handled.finished (h : request.Handled outcomes) (title : String)
    (hevents : Interleaving (outcomes.map trail) events) :
    ((start title request.files).follow events).finished = request.files.dedup.length := by
  rw [finished_follow, List.countP_eq_length]
  intro file hfile
  refine ended_of_mem h.courses hevents ?_
  rw [h.map_path]
  exact List.mem_dedup.1 hfile

theorem Request.Handled.pairwise_iff (h : request.Handled outcomes)
    {o : FileResult × List BatchEvent} (ho : o ∈ outcomes) :
    (o.2.map ProgressItem.isFinal).Pairwise (· ≤ ·) ↔ ¬ request.Reopens o.1 := by
  obtain ⟨target, hcourse⟩ := h.courses o ho
  exact hcourse.isFinal.2

/-- If no path is listed twice and no file opened again, no order of the events lets the count go
down. -/
theorem Request.Handled.ascends (h : request.Handled outcomes) (title : String)
    (hnodup : request.files.Nodup) (hnone : ∀ o ∈ outcomes, ¬ request.Reopens o.1)
    (hevents : Interleaving (outcomes.map trail) events) :
    (start title request.files).Ascends events := by
  rw [ascends_iff]
  intro file hfile
  rw [← h.map_path] at hfile hnodup
  obtain ⟨o, ho, rfl⟩ := List.mem_map.1 hfile
  rw [finals_of_nodup h.courses hnodup hevents ho, List.pairwise_cons]
  exact ⟨fun final _ => Bool.false_le final, (h.pairwise_iff ho).2 (hnone o ho)⟩

/-- Otherwise it goes down when one worker handles the files. -/
theorem Request.Handled.ascends_oneByOne_iff (h : request.Handled outcomes) (title : String) :
    (start title request.files).Ascends (oneByOne outcomes) ↔
      request.files.Nodup ∧ ∀ o ∈ outcomes, ¬ request.Reopens o.1 := by
  constructor
  · intro hascends
    rw [ascends_iff] at hascends
    have hflat : ∀ file, (finals (outcomes.map Prod.snd).flatten file).Pairwise (· ≤ ·) := by
      intro file
      by_cases hfile : file ∈ request.files
      · have hall := hascends file hfile
        rw [oneByOne, finals_append, List.pairwise_append] at hall
        exact hall.2.1
      · -- A path that is not listed has no events.
        rw [← h.map_path] at hfile
        have hnone := finals_eq_nil_of_not_mem h.courses (interleaving_oneByOne outcomes) hfile
        rw [oneByOne, finals_append, List.append_eq_nil_iff] at hnone
        rw [hnone.2]
        exact List.Pairwise.nil
    obtain ⟨hnodup, hpairwise⟩ := nodup_of_pairwise h.courses hflat
    rw [h.map_path] at hnodup
    exact ⟨hnodup, fun o ho => (h.pairwise_iff ho).1 (hpairwise o ho)⟩
  · rintro ⟨hnodup, hnone⟩
    exact h.ascends title hnodup hnone (interleaving_oneByOne outcomes)

end Handled

/-- A run without results tells at most that its files are in line. -/
theorem run_error_events {request : Request} {s s' : RunState} {e : RunError}
    (h : run request s = (.error e, s')) : ∃ queue : List String,
      s'.events = s.events ++ queue.map queued := by
  rw [run_eq] at h
  split at h
  · cases h
  · split at h
    · obtain ⟨-, rfl⟩ := Prod.mk.inj h
      exact ⟨[], by simp⟩
    · dsimp only at h
      split at h
      · obtain ⟨-, rfl⟩ := Prod.mk.inj h
        exact ⟨request.files, rfl⟩
      · cases (Prod.mk.inj h).1

theorem ascends_queued (title : String) (files queue : List String) :
    (start title files).Ascends (queue.map queued) := by
  rw [ascends_iff]
  intro file _
  have hfalse : ∀ final ∈ finals (queue.map queued) file, final = false := by
    intro final hfinal
    obtain ⟨e, he, rfl⟩ := List.mem_map.1 hfinal
    obtain ⟨name, -, rfl⟩ := List.mem_map.1 (List.mem_filter.1 he).1
    rfl
  refine List.pairwise_of_forall_mem_list fun final hfinal final' _ => ?_
  rw [hfalse final hfinal]
  exact Bool.false_le final'

/-- **When progress goes backwards.**  The count of finished files goes down in some order of a
run's events if and only if a path is listed twice, or a script is taken from the cache and then
written; and then it goes down when one worker handles the files.  In the end each file is counted,
in any order.  A run without results never lets it go down. -/
theorem ascends_iff_not_reopened (title : String) (request : Request) :
    (∀ outcomes, request.Handled outcomes →
      ((∀ events, Interleaving (outcomes.map trail) events →
          (start title request.files).Ascends events) ↔
        request.files.Nodup ∧ ∀ o ∈ outcomes, ¬ request.Reopens o.1) ∧
      ∀ events, Interleaving (outcomes.map trail) events →
        ((start title request.files).follow events).finished = request.files.dedup.length) ∧
    (∀ s s' results, run request s = (.ok results, s') → ∃ outcomes events,
      request.Handled outcomes ∧ results = outcomes.map Prod.fst ∧
      s'.events = s.events ++ events ∧ Interleaving (outcomes.map trail) events ∧
      ((start title request.files).Ascends events ↔
        request.files.Nodup ∧ ∀ r ∈ results, ¬ request.Reopens r)) ∧
    ∀ s s' e, run request s = (.error e, s') → ∃ events,
      s'.events = s.events ++ events ∧ (start title request.files).Ascends events := by
  refine ⟨fun outcomes h => ⟨⟨fun hall => ?_, ?_⟩, fun events => h.finished title⟩,
    fun s s' results hrun => ?_, fun s s' e hrun => ?_⟩
  · exact (h.ascends_oneByOne_iff title).1 (hall _ (interleaving_oneByOne outcomes))
  · exact fun hnone events => h.ascends title hnone.1 hnone.2
  · obtain ⟨outcomes, h, rfl, hevents⟩ := run_handled hrun
    -- The run queues all files and then handles them in turn, as one worker does.
    have horder : request.files.map queued ++ (outcomes.map Prod.snd).flatten =
        oneByOne outcomes := by
      rw [oneByOne, ← h.map_path, List.map_map]
      rfl
    rw [horder] at hevents
    refine ⟨outcomes, oneByOne outcomes, h, rfl, hevents, interleaving_oneByOne outcomes, ?_⟩
    rw [h.ascends_oneByOne_iff title, List.forall_mem_map]
  · obtain ⟨queue, hqueue⟩ := run_error_events hrun
    exact ⟨_, hqueue, ascends_queued title request.files queue⟩

/-- Without a cache, copies of a file are counted one after the other. -/
theorem ascends_iff_not_reopened_uncached :
    (run copiesRequest.uncached copies).1.toOption.map (List.map (·.cached)) =
        some [false, false] ∧
      (start "" copiesRequest.files).Ascends (run copiesRequest.uncached copies).2.events := by
  have hcached : (run copiesRequest.uncached copies).1.toOption.map (List.map (·.cached)) =
      some [false, false] := by decide +kernel
  refine ⟨hcached, ?_⟩
  cases hrun : run copiesRequest.uncached copies with
  | mk result s' =>
    rw [hrun] at hcached
    cases result with
    | error e => cases hcached
    | ok results =>
      obtain ⟨outcomes, events, -, -, hevents, -, hascends⟩ :=
        (ascends_iff_not_reopened "" copiesRequest.uncached).2.1 _ _ _ hrun
      have hnone : ∀ r ∈ results, r.cached = false := by
        intro r hr
        have hmem := List.mem_map_of_mem (f := (·.cached)) hr
        rw [Option.some.inj hcached] at hmem
        simpa using hmem
      rw [show s'.events = events from hevents]
      refine hascends.2 ⟨by decide, fun r hr hreopens => ?_⟩
      exact absurd hreopens.2.1 (by simp [hnone r hr])

/-- The events of a run over two copies of a file, of which the second is taken from the cache. -/
def copiesEvents : List BatchEvent :=
  [queued "x/a.json", queued "y/a.json",
    ⟨"x/a.json", .load, .working, none⟩, ⟨"x/a.json", .translate, .working, none⟩,
    ⟨"x/a.json", .store, .working, none⟩, ⟨"x/a.json", .translate, .done, none⟩,
    ⟨"y/a.json", .load, .working, none⟩, ⟨"y/a.json", .translate, .cached, none⟩,
    ⟨"y/a.json", .store, .working, none⟩, ⟨"y/a.json", .translate, .cached, none⟩]

/-- The second copy is counted, then not, then counted again. -/
theorem counts_copies :
    copiesRequest.files.Nodup ∧ (run copiesRequest copies).2.events = copiesEvents ∧
      (start "" copiesRequest.files).counts copiesEvents = [0, 0, 0, 0, 0, 0, 1, 1, 2, 1, 2] ∧
      ¬ (start "" copiesRequest.files).Ascends (run copiesRequest copies).2.events := by
  have hevents : (run copiesRequest copies).2.events = copiesEvents := by decide +kernel
  have hcounts : (start "" copiesRequest.files).counts copiesEvents =
      [0, 0, 0, 0, 0, 0, 1, 1, 2, 1, 2] := by decide
  refine ⟨by decide, hevents, hcounts, ?_⟩
  rw [hevents, Ascends, hcounts]
  decide

end Batch

end ShaderScript
