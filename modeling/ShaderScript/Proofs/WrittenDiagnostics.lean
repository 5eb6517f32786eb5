import Mathlib.Algebra.Ring.Nat
import Mathlib.Data.List.Induction
import Mathlib.Tactic.SplitIfs
import ShaderScript.Diagnostic.Bag
import ShaderScript.Diagnostic.Golden

/-!
# Diagnostics in writing

A bag tells diagnostics apart by what is written of them.  The writing keeps codes, lines, columns
and messages apart (`Bag.dedupKey_eq_iff`), with two exceptions: all codes outside of the three
ranges are written `E0000`, and all positions that are not known are written as a hyphen.

The sorted lines of diagnostics show all that they are sorted by.  So the text is the same in
whatever order the diagnostics come (`GoldenLine.golden_lines_canonical`).
-/

namespace ShaderScript

/-! ## Numerals and codes -/

theorem natText_inj {m n : Nat} : natText m = natText n ↔ m = n := by
  refine ⟨fun h => ?_, congrArg natText⟩
  have hdigits := congrArg (Nat.ofDigitChars 10 · 0) (String.ofList_injective h)
  simpa only [Nat.ofDigitChars_ten_toDigits] using hdigits

theorem isDigit_of_mem_natText {c : Char} {n : Nat} (h : c ∈ (natText n).toList) :
    c.isDigit = true := by
  rw [natText, String.toList_ofList] at h
  exact Nat.isDigit_of_mem_toDigits (by decide) (by decide) h

theorem intText_eq (i : Int) : intText i = (if i < 0 then "-" else "") ++ natText i.natAbs := by
  unfold intText natText
  split <;> simp

theorem isDigit_of_mem_intText {c : Char} {i : Int} (h : c ∈ (intText i).toList) :
    c = '-' ∨ c.isDigit = true := by
  rw [intText_eq, String.toList_append, List.mem_append] at h
  refine h.imp (fun hsign => ?_) isDigit_of_mem_natText
  split at hsign <;> simp_all

/-- Different integers are written differently. -/
theorem intText_inj {i j : Int} : intText i = intText j ↔ i = j := by
  refine ⟨fun h => ?_, congrArg intText⟩
  have hminus : ∀ {m n}, "-" ++ natText m ≠ natText n := fun {_ n} hn =>
    absurd (isDigit_of_mem_natText (c := '-') (n := n) (by simp [← hn])) (by decide)
  rw [intText_eq, intText_eq] at h
  split at h <;> split at h
  · have habs := natText_inj.1 ((String.append_right_inj _).1 h)
    omega
  · simp [hminus] at h
  · simp [hminus.symm] at h
  · have habs := natText_inj.1 ((String.append_right_inj _).1 h)
    omega

namespace Code

/-- Whether the code is in one of the three ranges. -/
def isListed (c : Code) : Bool := 1000 ≤ c.number && c.number < 4000

/-- All codes that are not listed have one identifier. -/
theorem id_eq_iff {c d : Code} : c.id = d.id ↔ c = d ∨ c.isListed = false ∧ d.isListed = false := by
  obtain ⟨m⟩ := c
  obtain ⟨n⟩ := d
  have hnumber : (natText m).toList = (natText n).toList ↔ m = n :=
    String.toList_inj.trans natText_inj
  simp only [id, isListed]
  -- The first letter tells the range.
  split_ifs <;> simp [← String.toList_inj, hnumber] <;> omega

theorem all_isAlphanum_id (c : Code) : c.id.toList.all Char.isAlphanum = true := by
  have hnumber : (natText c.number).toList.all Char.isAlphanum = true := by
    rw [List.all_eq_true]
    intro x hx
    rw [Char.isAlphanum, isDigit_of_mem_natText hx, Bool.or_true]
  unfold id
  split_ifs
  case neg => decide
  all_goals simp only [String.toList_append, List.all_append, hnumber, Bool.and_true]; decide

end Code

/-! ## What is written -/

/-- Texts can be parted at their first separator. -/
theorem append_separator_inj {x : Char} {a a' b b' : List Char} (h : x ∉ a) (h' : x ∉ a') :
    a ++ x :: b = a' ++ x :: b' ↔ a = a' ∧ b = b' := by
  induction a generalizing a' with
  | nil => cases a' <;> grind
  | cons y ys ih => cases a' <;> grind

/-- A known position can be read off the text before a colon. -/
theorem Position.text_colon_inj {p q : Position} {a b : List Char} :
    p.text.toList ++ ':' :: a = q.text.toList ++ ':' :: b ↔
      (p = q ∨ p.isKnown = false ∧ q.isKnown = false) ∧ a = b := by
  have hcolon : ∀ i, ':' ∉ (intText i).toList := fun i h =>
    absurd (isDigit_of_mem_intText h) (by decide)
  have hnumber : ∀ {i j}, (intText i).toList = (intText j).toList ↔ i = j :=
    String.toList_inj.trans intText_inj
  -- A known line has no sign, so it is not written like an unknown one.
  have hline : ∀ {i : Int} {a b}, 0 < i → (intText i).toList ++ ':' :: a ≠ '-' :: ':' :: b := by
    intro i a b hi h
    have hsign := ((@append_separator_inj ':' _ ['-'] _ _ (hcolon i) (by decide)).1 h).1
    rw [intText_eq, if_neg (by omega), String.empty_append] at hsign
    exact absurd (isDigit_of_mem_natText (hsign ▸ List.mem_singleton_self '-')) (by decide)
  obtain ⟨line, col⟩ := p
  obtain ⟨line', col'⟩ := q
  simp only [Position.text, Position.isKnown, decide_eq_true_eq, decide_eq_false_iff_not]
  split_ifs with hp hq hq
  · simp [append_separator_inj (hcolon _) (hcolon _), hnumber, hp, and_assoc]
  · simp [hline hp, hp]
    omega
  · simp [(hline hq).symm, hq]
    omega
  · simp [hp, hq]

namespace Diagnostic

/-- Whether two diagnostics have the same code, position and message. -/
def sameEntry (d e : Diagnostic) : Bool :=
  d.code == e.code && d.pos == e.pos && d.message == e.message

/-- Whether the same is written for the code, position and message of two diagnostics. -/
def writtenAlike (d e : Diagnostic) : Bool :=
  (d.code == e.code || !d.code.isListed && !e.code.isListed) &&
    (d.pos == e.pos || !d.pos.isKnown && !e.pos.isKnown) && d.message == e.message

end Diagnostic

namespace Bag

/-- Keys are equal exactly if the diagnostics are written alike. -/
theorem dedupKey_eq_iff {d e : Diagnostic} :
    dedupKey d = dedupKey e ↔ d.writtenAlike e = true := by
  have hcolon : ∀ c : Code, ':' ∉ c.id.toList := fun c h =>
    absurd (List.all_eq_true.1 c.all_isAlphanum_id _ h) (by decide)
  rw [← String.toList_inj]
  simp [dedupKey, append_separator_inj (hcolon _) (hcolon _), Position.text_colon_inj,
    String.toList_inj, Code.id_eq_iff, Diagnostic.writtenAlike, and_assoc]

end Bag

/-! ## First entries -/

variable {α : Type}

/-- The elements of a list that no earlier one is the same as. -/
def firsts (same : α → α → Bool) (xs : List α) : List α :=
  (xs.zipIdx.filter fun x => !(xs.take x.2).any (same · x.1)).map Prod.fst

/-- A last item counts if nothing before it is the same. -/
theorem firsts_concat (same : α → α → Bool) (xs : List α) (x : α) :
    firsts same (xs ++ [x]) = firsts same xs ++ if xs.any (same · x) then [] else [x] := by
  have hbefore : ∀ y ∈ xs.zipIdx, (xs ++ [x]).take y.2 = xs.take y.2 := fun y hy =>
    List.take_append_of_le_length (Nat.le_of_lt (List.snd_lt_of_mem_zipIdx hy))
  unfold firsts
  rw [List.zipIdx_append, List.filter_append, List.map_append]
  congr 1
  · rw [List.filter_congr fun y hy => by rw [hbefore y hy]]
  · by_cases hx : xs.any (same · x) <;> simp [hx]

theorem mem_of_mem_firsts {same : α → α → Bool} {xs : List α} {x : α} (h : x ∈ firsts same xs) :
    x ∈ xs := by
  obtain ⟨y, hy, rfl⟩ := List.mem_map.1 h
  exact List.fst_mem_of_mem_zipIdx (List.mem_filter.1 hy).1

theorem firsts_firsts (same : α → α → Bool) (xs : List α) :
    firsts same (firsts same xs) = firsts same xs := by
  induction xs using List.reverseRecOn with
  | nil => rfl
  | append_singleton xs x ih =>
    rw [firsts_concat]
    split
    · rw [List.append_nil, ih]
    · rename_i hnew
      have hkept : (firsts same xs).any (same · x) = false := by
        simp only [List.any_eq_true, not_exists, not_and] at hnew
        simp only [List.any_eq_false]
        exact fun e he => hnew e (mem_of_mem_firsts he)
      rw [firsts_concat, ih, hkept]
      rfl

/-- Two notions of sameness, one wider than the other, leave the same elements exactly if every
repeat in the wider sense is one in the narrower sense. -/
theorem firsts_eq_iff {same wider : α → α → Bool} (h : ∀ x y, same x y = true → wider x y = true)
    (xs : List α) :
    firsts wider xs = firsts same xs ↔ ∀ x ∈ xs.zipIdx,
      (xs.take x.2).any (wider · x.1) = true → (xs.take x.2).any (same · x.1) = true := by
  have hany : ∀ x : α × Nat, (xs.take x.2).any (same · x.1) = true →
      (xs.take x.2).any (wider · x.1) = true := by
    simp only [List.any_eq_true]
    rintro x ⟨y, hy, hsame⟩
    exact ⟨y, hy, h y x.1 hsame⟩
  constructor
  · intro heq x hx hwider
    have hfilter : firsts wider xs = ((xs.zipIdx.filter fun x =>
        !(xs.take x.2).any (same · x.1)).filter fun x =>
          !(xs.take x.2).any (wider · x.1)).map Prod.fst := by
      rw [List.filter_filter, firsts]
      congr 1
      exact List.filter_congr fun x _ => by grind
    -- The two filters let through lists of one length, so the wider drops nothing more.
    have hlength := congrArg List.length (hfilter.symm.trans heq)
    rw [firsts, List.length_map, List.length_map, List.length_filter_eq_length_iff] at hlength
    by_contra hsame
    simpa [hwider] using hlength x (List.mem_filter.2 ⟨hx, by simpa using hsame⟩)
  · intro hall
    unfold firsts
    rw [List.filter_congr fun x hx => ?_]
    rw [Bool.eq_iff_iff.2 ⟨hall x hx, hany x⟩]

namespace Bag

theorem firstOfEach_concat (items : List Diagnostic) (seen : List String) (d : Diagnostic) :
    firstOfEach (items ++ [d]) seen = firstOfEach items seen ++
      if dedupKey d ∈ seen ∨ ∃ e ∈ items, dedupKey e = dedupKey d then [] else [d] := by
  induction items generalizing seen with
  | nil => simp [firstOfEach]
  | cons e rest ih =>
    simp only [List.cons_append, firstOfEach, ih, List.contains_iff_mem]
    split
    · congr 2
      simp only [List.mem_cons, exists_eq_or_imp]
      grind
    · rw [List.cons_append]
      congr 3
      simp only [List.mem_cons, exists_eq_or_imp]
      grind

/-- A bag keeps the first of the diagnostics that are written alike. -/
theorem firstOfEach_eq_firsts (items : List Diagnostic) :
    firstOfEach items [] = firsts Diagnostic.writtenAlike items := by
  induction items using List.reverseRecOn with
  | nil => rfl
  | append_singleton items d ih =>
    rw [firstOfEach_concat, firsts_concat, ih]
    simp [dedupKey_eq_iff]

/-- What `dedup` drops.  The items that stay are those for which no earlier item is written alike:
the message is the same, the code is the same or both are outside of the three ranges, and the
position is the same or both are unknown.  A second time changes nothing.  What stays is what no
earlier item has the same code, position and message as, exactly if codes outside of the ranges and
unknown positions are repeated as they are. -/
theorem dedup_drops_written_repeats (b : Bag) :
    b.dedup = { b with items := firsts Diagnostic.writtenAlike b.items } ∧
    b.dedup.dedup = b.dedup ∧
    (b.dedup.items = firsts Diagnostic.sameEntry b.items ↔ ∀ d ∈ b.items.zipIdx,
      (b.items.take d.2).any (·.writtenAlike d.1) = true →
        (b.items.take d.2).any (·.sameEntry d.1) = true) := by
  have hsame : ∀ d e : Diagnostic, d.sameEntry e = true → d.writtenAlike e = true := by
    simp +contextual [Diagnostic.sameEntry, Diagnostic.writtenAlike]
  refine ⟨?_, ?_, ?_⟩
  · rw [dedup, firstOfEach_eq_firsts]
  · simp only [dedup, firstOfEach_eq_firsts, firsts_firsts]
  · rw [dedup, firstOfEach_eq_firsts]
    exact firsts_eq_iff hsame b.items

/-- Two warnings at unknown positions with different columns are not repeats, yet one is dropped. -/
theorem dedup_drops_other_column :
    let first := Diagnostic.warning .unsupportedOperator ⟨0, 1⟩ "m"
    let second := Diagnostic.warning .unsupportedOperator ⟨0, 2⟩ "m"
    first.sameEntry second = false ∧
      (Bag.dedup { capacity := 2, items := [first, second] }).items = [first] := by
  decide

end Bag

/-! ## Sorted lines -/

/-- No break is left on the line. -/
theorem notMem_oneLine (message : String) : '\n' ∉ (oneLine message).toList := by
  have hjoined : ∀ cs, '\n' ∉ joinLines cs := by
    intro cs
    fun_induction joinLines cs <;> grind
  simp only [oneLine, Text.trim, String.toList_ofList, List.mem_reverse]
  intro h
  have hall := (List.dropWhile_sublist _).mem h
  exact hjoined _ ((List.dropWhile_sublist _).mem (List.mem_reverse.1 hall))

namespace GoldenLine

/-- The order of lines: by line, column, severity word, code and message. -/
def InOrder (a b : GoldenLine) : Prop :=
  a.pos.line < b.pos.line ∨ a.pos.line = b.pos.line ∧
    (a.pos.col < b.pos.col ∨ a.pos.col = b.pos.col ∧
      (a.severity < b.severity ∨ a.severity = b.severity ∧
        (a.code < b.code ∨ a.code = b.code ∧ a.message ≤ b.message)))

theorem not_before_iff {a b : GoldenLine} : (!before b a) = true ↔ InOrder a b := by
  unfold before InOrder
  grind

theorem InOrder.trans {a b c : GoldenLine} (h : InOrder a b) (h' : InOrder b c) : InOrder a c := by
  unfold InOrder at *
  grind

theorem inOrder_total (a b : GoldenLine) : InOrder a b ∨ InOrder b a := by
  unfold InOrder
  grind

/-- Only equal lines are in order both ways. -/
theorem InOrder.antisymm {a b : GoldenLine} (h : InOrder a b) (h' : InOrder b a) : a = b := by
  obtain ⟨⟨_, _⟩, _, _, _⟩ := a
  obtain ⟨⟨_, _⟩, _, _, _⟩ := b
  unfold InOrder at *
  grind

/-- The lines of diagnostics in order. -/
def sorted (ds : List Diagnostic) (withNotes : Bool) : List GoldenLine :=
  (ds.flatMap (ofDiagnostic withNotes)).mergeSort fun a b => !before b a

theorem sorted_inOrder (ds : List Diagnostic) (withNotes : Bool) :
    (sorted ds withNotes).Pairwise InOrder := by
  have hsorted := @List.pairwise_mergeSort GoldenLine (fun a b => !before b a)
    (fun a b c => by simpa only [not_before_iff] using InOrder.trans)
    (fun a b => by simpa only [Bool.or_eq_true, not_before_iff] using inOrder_total a b)
    (ds.flatMap (ofDiagnostic withNotes))
  simp only [not_before_iff] at hsorted
  exact hsorted

/-- Sorted lines do not depend on the order of the diagnostics. -/
theorem sorted_eq_of_perm {ds ds' : List Diagnostic} (h : ds.Perm ds') (withNotes : Bool) :
    sorted ds withNotes = sorted ds' withNotes := by
  refine List.Perm.eq_of_pairwise (fun _ _ _ _ => InOrder.antisymm) (sorted_inOrder ds withNotes)
    (sorted_inOrder ds' withNotes) ?_
  exact (List.mergeSort_perm _ _).trans ((h.flatMap_right _).trans (List.mergeSort_perm _ _).symm)

/-- The words in front of a position are letters and digits. -/
theorem notMem_words {x : Char} (hx : x.isAlphanum = false) {d : Diagnostic} {withNotes : Bool}
    {l : GoldenLine} (h : l ∈ ofDiagnostic withNotes d) :
    x ∉ l.severity.toList ∧ x ∉ l.code.toList := by
  have hword {s : String} (hs : s.toList.all Char.isAlphanum = true) : x ∉ s.toList := by
    intro hmem
    rw [List.all_eq_true.1 hs x hmem] at hx
    cases hx
  have hlabel : ∀ s : Severity, s.label.toList.all Char.isAlphanum = true := by
    intro s
    cases s <;> simp [Severity.label]
  rw [ofDiagnostic, List.mem_cons] at h
  rcases h with rfl | hnote
  · exact ⟨hword (hlabel _), hword (Code.all_isAlphanum_id _)⟩
  · split at hnote
    · obtain ⟨n, -, rfl⟩ := List.mem_map.1 hnote
      exact ⟨hword (s := "note") (by decide), hword (Code.all_isAlphanum_id _)⟩
    · cases hnote

theorem notMem_message {d : Diagnostic} {withNotes : Bool} {l : GoldenLine}
    (h : l ∈ ofDiagnostic withNotes d) : '\n' ∉ l.message.toList := by
  rw [ofDiagnostic, List.mem_cons] at h
  rcases h with rfl | hnote
  · exact notMem_oneLine _
  · split at hnote
    · obtain ⟨n, -, rfl⟩ := List.mem_map.1 hnote
      exact notMem_oneLine _
    · cases hnote

/-- The text of a line is one line. -/
theorem notMem_text {d : Diagnostic} {withNotes : Bool} {l : GoldenLine}
    (h : l ∈ ofDiagnostic withNotes d) : '\n' ∉ l.text.toList := by
  have hnumber : ∀ i, '\n' ∉ (intText i).toList := fun i h =>
    absurd (isDigit_of_mem_intText h) (by decide)
  obtain ⟨hseverity, hcode⟩ := notMem_words (x := '\n') (by decide) h
  simp [text, hseverity, hcode, notMem_message h, hnumber]

/-- A line shows all that it is made of. -/
theorem text_inj {d d' : Diagnostic} {withNotes withNotes' : Bool} {l l' : GoldenLine}
    (h : l ∈ ofDiagnostic withNotes d) (h' : l' ∈ ofDiagnostic withNotes' d')
    (htext : l.text = l'.text) : l = l' := by
  have hblank : ∀ i, ' ' ∉ (intText i).toList := fun i h =>
    absurd (isDigit_of_mem_intText h) (by decide)
  have hcolon : ∀ i, ':' ∉ (intText i).toList := fun i h =>
    absurd (isDigit_of_mem_intText h) (by decide)
  obtain ⟨hseverity, hcode⟩ := notMem_words (x := ' ') (by decide) h
  obtain ⟨hseverity', hcode'⟩ := notMem_words (x := ' ') (by decide) h'
  -- Each part ends at the first blank or colon after it.
  rw [← String.toList_inj] at htext
  simp only [text, String.toList_append, List.append_assoc, String.reduceToList, List.cons_append,
    List.nil_append, append_separator_inj hseverity hseverity', append_separator_inj hcode hcode',
    append_separator_inj (hcolon _) (hcolon _), append_separator_inj (hblank _) (hblank _),
    String.toList_inj, intText_inj] at htext
  obtain ⟨⟨line, col⟩, severity, code, message⟩ := l
  obtain ⟨⟨line', col'⟩, severity', code', message'⟩ := l'
  obtain ⟨rfl, rfl, rfl, rfl, rfl⟩ := htext
  rfl

/-- Each diagnostic has a line, and each note if notes are wanted. -/
theorem length_sorted (ds : List Diagnostic) (withNotes : Bool) :
    (sorted ds withNotes).length =
      ds.length + if withNotes then (ds.map (·.notes.length)).sum else 0 := by
  rw [sorted, List.length_mergeSort]
  induction ds with
  | nil => cases withNotes <;> rfl
  | cons d ds ih =>
    rw [List.flatMap_cons, List.length_append, ih]
    cases withNotes <;> simp [ofDiagnostic] <;> omega

/-- The text of diagnostics does not depend on the order they come in.  It has one line for each of
them and, if notes are wanted, one for each note, and the lines stand in order.  Each line tells its
position, severity, code and message: no other record is written like it. -/
theorem golden_lines_canonical (ds : List Diagnostic) (withNotes : Bool) :
    (∀ ds', ds'.Perm ds → goldenText ds' withNotes = goldenText ds withNotes) ∧
    ∃ lines : List GoldenLine, lines.Perm (ds.flatMap (ofDiagnostic withNotes)) ∧
      lines.length = ds.length + (if withNotes then (ds.map (·.notes.length)).sum else 0) ∧
      lines.Pairwise InOrder ∧ goldenText ds withNotes = "\n".intercalate (lines.map text) ∧
      (ds ≠ [] → (goldenText ds withNotes).toList.splitOn '\n' = lines.map (·.text.toList)) ∧
      ∀ l ∈ lines, ∀ d, ∀ l' ∈ ofDiagnostic withNotes d, l'.text = l.text → l' = l := by
  have htext : ∀ ds, goldenText ds withNotes = "\n".intercalate ((sorted ds withNotes).map text) :=
    fun _ => rfl
  have hmade : ∀ l ∈ sorted ds withNotes, ∃ d, l ∈ ofDiagnostic withNotes d := by
    intro l hl
    obtain ⟨d, -, hl⟩ := List.mem_flatMap.1 (List.mem_mergeSort.1 hl)
    exact ⟨d, hl⟩
  refine ⟨fun ds' h => ?_, sorted ds withNotes, List.mergeSort_perm _ _, length_sorted ds withNotes,
    sorted_inOrder ds withNotes, htext ds, fun hds => ?_, fun l hl d' l' hl' h => ?_⟩
  · rw [htext, htext, sorted_eq_of_perm h]
  · rw [htext, String.toList_intercalate, List.map_map]
    refine List.splitOn_intercalate '\n' ?_ ?_
    · intro line hline
      obtain ⟨l, hl, rfl⟩ := List.mem_map.1 hline
      obtain ⟨d, hl⟩ := hmade l hl
      exact notMem_text hl
    · intro hnil
      -- Every diagnostic has a line.
      have hlength := length_sorted ds withNotes
      rw [List.map_eq_nil_iff.1 hnil, List.length_nil] at hlength
      exact hds (List.length_eq_zero_iff.1 (by omega))
  · obtain ⟨d, hl⟩ := hmade l hl
    exact text_inj hl' hl h

end GoldenLine

end ShaderScript
