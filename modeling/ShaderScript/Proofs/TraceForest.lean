import Mathlib.Logic.Function.Basic
import ShaderScript.Compile

/-!
# The spans of a trace

The events of a trace are a forest: points, and spans that hold a forest between their begin and
their end.  `Forest` is this grammar, together with the parent that each event names and the numbers
that spans get as they begin.  What a reader of a trace asks is said without the grammar, by what
stands before and after an event: `Enclosed` for one span and `openAround` for the spans that an
event lies in.

The functions that trace their work are then followed one by one.  `Tracer.Records` says which
events reached the stream and the ring, and `Tracer.Traces` that they form a forest.
-/

namespace ShaderScript

variable {e : TraceEvent} {id : Nat}

/-! ## Spans around an event -/

namespace TraceEvent

/-- An event is the begin of a span. -/
def Begins (e : TraceEvent) (id : Nat) : Prop := e.kind = .spanBegin ∧ e.span = id

/-- An event is the end of a span. -/
def Ends (e : TraceEvent) (id : Nat) : Prop := e.kind = .spanEnd ∧ e.span = id

instance (e : TraceEvent) (id : Nat) : Decidable (e.Ends id) :=
  inferInstanceAs (Decidable (_ ∧ _))

instance (e : TraceEvent) (id : Nat) : Decidable (e.Begins id) :=
  inferInstanceAs (Decidable (_ ∧ _))

/-- The event before it was given its place among the recorded ones. -/
def unnumbered (e : TraceEvent) : TraceEvent := { e with sequence := 0 }

/-- The event where spans have other numbers. -/
def renumbered (f : Nat → Nat) (e : TraceEvent) : TraceEvent :=
  { e with span := f e.span, parent := f e.parent }

end TraceEvent

/-- The spans that begin in `before` and end in `after`, the outermost first. -/
def openAround (before after : List TraceEvent) : List Nat :=
  (before.filter fun b => b.kind = .spanBegin ∧ ∃ e ∈ after, e.Ends b.span).map (·.span)

/-- A span begins and ends once, and no other span crosses it: the spans that begin in between are
those that end in between. -/
inductive Enclosed (id : Nat) : List TraceEvent → Prop
  | intro {before inner after : List TraceEvent} {b e : TraceEvent} (hbegins : b.Begins id)
      (hends : e.Ends id) (hothers : ∀ x ∈ before ++ inner ++ after, x.span ≠ id)
      (hbalanced : ∀ other, (∃ x ∈ inner, x.Begins other) ↔ ∃ x ∈ inner, x.Ends other) :
      Enclosed id (before ++ b :: (inner ++ e :: after))

section OpenAround

variable {before after : List TraceEvent}

theorem openAround_append (before before' after : List TraceEvent) :
    openAround (before ++ before') after = openAround before after ++ openAround before' after := by
  simp [openAround]

theorem openAround_eq_nil
    (h : ∀ b ∈ before, b.kind = .spanBegin → ∀ e ∈ after, ¬ e.Ends b.span) :
    openAround before after = [] := by
  rw [openAround, List.map_eq_nil_iff, List.filter_eq_nil_iff]
  intro b hb hopen
  obtain ⟨hkind, e, he, hends⟩ := of_decide_eq_true hopen
  exact h b hb hkind e he hends

theorem openAround_append_right {later : List TraceEvent}
    (h : ∀ b ∈ before, b.kind = .spanBegin → ∀ e ∈ later, ¬ e.Ends b.span) :
    openAround before (after ++ later) = openAround before after := by
  unfold openAround
  congr 1
  apply List.filter_congr
  intro b hb
  refine decide_eq_decide.2 (and_congr_right fun hkind => ?_)
  constructor
  · rintro ⟨e, he, hends⟩
    obtain he | he := List.mem_append.1 he
    · exact ⟨e, he, hends⟩
    · exact absurd hends (h b hb hkind e he)
  · rintro ⟨e, he, hends⟩
    exact ⟨e, List.mem_append_left _ he, hends⟩

theorem openAround_cons {b : TraceEvent} (hb : b.Begins id) (he : e.Ends id) (hmem : e ∈ after) :
    openAround (b :: before) after = id :: openAround before after := by
  obtain ⟨hkind, rfl⟩ := hb
  have hopen : b.kind = .spanBegin ∧ ∃ e ∈ after, e.Ends b.span := ⟨hkind, e, hmem, he⟩
  simp [openAround, hopen]

end OpenAround

theorem Enclosed.within {id : Nat} {es left right : List TraceEvent} (h : Enclosed id es)
    (hothers : ∀ x ∈ left ++ right, x.span ≠ id) : Enclosed id (left ++ (es ++ right)) := by
  cases h with
  | @intro before inner after b e hbegins hends hinside hbalanced =>
    have hall : ∀ x ∈ (left ++ before) ++ inner ++ (after ++ right), x.span ≠ id := by
      intro x hx
      simp only [List.mem_append] at hx hinside hothers
      grind
    have hsplit : left ++ (before ++ b :: (inner ++ e :: after) ++ right) =
        (left ++ before) ++ b :: (inner ++ e :: (after ++ right)) := by simp
    rw [hsplit]
    exact .intro hbegins hends hall hbalanced

/-- A span begins once and ends once. -/
def Once (id : Nat) (es : List TraceEvent) : Prop :=
  es.countP (·.Begins id) = 1 ∧ es.countP (·.Ends id) = 1

theorem Enclosed.once {id : Nat} {es : List TraceEvent} (h : Enclosed id es) : Once id es := by
  cases h with
  | @intro before inner after b e hbegins hends hothers _ =>
    have hnone (p : TraceEvent → Bool) (hp : ∀ x, p x = true → x.span = id) :
        before.countP p = 0 ∧ inner.countP p = 0 ∧ after.countP p = 0 := by
      simp only [List.countP_eq_zero]
      exact ⟨fun x hx h => hothers x (by simp [hx]) (hp x h),
        fun x hx h => hothers x (by simp [hx]) (hp x h),
        fun x hx h => hothers x (by simp [hx]) (hp x h)⟩
    obtain ⟨h₁, h₂, h₃⟩ := hnone (·.Begins id) fun x hx => (of_decide_eq_true hx).2
    obtain ⟨h₁', h₂', h₃'⟩ := hnone (·.Ends id) fun x hx => (of_decide_eq_true hx).2
    have hb : ¬ b.Ends id := fun h => absurd (hbegins.1.symm.trans h.1) (by decide)
    have he : ¬ e.Begins id := fun h => absurd (hends.1.symm.trans h.1) (by decide)
    simp [Once, h₁, h₂, h₃, h₁', h₂', h₃', hbegins, hends, hb, he]

/-! ## Forests -/

/-- Two ways to cut a list at an element: one comes first, or they are the same. -/
theorem append_cons_cases {α : Type} {xs ys xs' ys' : List α} {a a' : α}
    (h : xs ++ a :: ys = xs' ++ a' :: ys') :
    (∃ zs, xs = xs' ++ a' :: zs ∧ ys' = zs ++ a :: ys) ∨ (xs = xs' ∧ a = a' ∧ ys = ys') ∨
      ∃ zs, xs' = xs ++ a :: zs ∧ ys = zs ++ a' :: ys' := by
  obtain ⟨zs, rfl, hzs⟩ | ⟨zs, rfl, hzs⟩ := List.append_eq_append_iff.1 h
  · cases zs with
    | nil => simp_all
    | cons z zs =>
      obtain ⟨rfl, rfl⟩ := List.cons.inj hzs
      exact .inr (.inr ⟨zs, rfl, rfl⟩)
  · cases zs with
    | nil => simp_all
    | cons z zs =>
      obtain ⟨rfl, rfl⟩ := List.cons.inj hzs
      exact .inl ⟨zs, rfl, rfl⟩

/-- The events of whole spans and points under a span, the spans numbered from the one after `n` up
to `m`. -/
inductive Forest : (parent n : Nat) → List TraceEvent → (m : Nat) → Prop
  | nil {parent n : Nat} : Forest parent n [] n
  | point {parent n m : Nat} {e : TraceEvent} {es : List TraceEvent} (hkind : e.kind = .point)
      (hspan : e.span = 0) (hparent : e.parent = parent) (h : Forest parent n es m) :
      Forest parent n (e :: es) m
  | span {parent n k m : Nat} {b e : TraceEvent} {inner rest : List TraceEvent}
      (hbegins : b.Begins (n + 1)) (hbegin : b.parent = parent) (hends : e.Ends (n + 1))
      (hend : e.parent = parent) (hinner : Forest (n + 1) (n + 1) inner k)
      (hrest : Forest parent k rest m) : Forest parent n (b :: (inner ++ e :: rest)) m

namespace Forest

variable {parent n m : Nat} {es : List TraceEvent}

variable {before : List TraceEvent}

theorem le (h : Forest parent n es m) : n ≤ m := by
  induction h with
  | nil => exact Nat.le_refl _
  | point _ _ _ _ ih => exact ih
  | span _ _ _ _ _ _ ihinner ihrest => omega

theorem append {fs : List TraceEvent} {k : Nat} (h : Forest parent n es k)
    (h' : Forest parent k fs m) : Forest parent n (es ++ fs) m := by
  induction h with
  | nil => exact h'
  | point hkind hspan hparent _ ih => exact .point hkind hspan hparent (ih h')
  | span hbegins hbegin hends hend hinner _ _ ihrest =>
    rw [List.cons_append, List.append_assoc, List.cons_append]
    exact .span hbegins hbegin hends hend hinner (ihrest h')

/-- Events of other spans than those of the forest are not in it. -/
theorem span_eq (h : Forest parent n es m) (he : e ∈ es) :
    e.kind = .point ∧ e.span = 0 ∨
      (e.kind = .spanBegin ∨ e.kind = .spanEnd) ∧ n < e.span ∧ e.span ≤ m := by
  induction h with
  | nil => cases he
  | point hkind hspan _ _ ih =>
    obtain rfl | he := List.mem_cons.1 he
    · exact .inl ⟨hkind, hspan⟩
    · exact ih he
  | span hbegins _ hends _ hinner hrest ihinner ihrest =>
    -- Spans are numbered from the outer to the inner, and on to those behind.
    have hle := hinner.le
    have hle' := hrest.le
    have hbegin := hbegins.2
    have hend := hends.2
    simp only [List.mem_cons, List.mem_append] at he
    obtain rfl | he | rfl | he := he
    · exact .inr ⟨.inl hbegins.1, by omega, by omega⟩
    · obtain hpoint | ⟨hkind, hgt, hspan⟩ := ihinner he
      · exact .inl hpoint
      · exact .inr ⟨hkind, by omega, by omega⟩
    · exact .inr ⟨.inr hends.1, by omega, by omega⟩
    · obtain hpoint | ⟨hkind, hgt, hspan⟩ := ihrest he
      · exact .inl hpoint
      · exact .inr ⟨hkind, by omega, hspan⟩

theorem span_mem_range (h : Forest parent n es m) (he : e ∈ es) (hkind : e.kind ≠ .point) :
    n < e.span ∧ e.span ≤ m := by
  obtain ⟨hpoint, _⟩ | ⟨_, hrange⟩ := h.span_eq he
  · exact absurd hpoint hkind
  · exact hrange

theorem span_ne (h : Forest parent n es m) (hpos : 0 < id) (hid : id ≤ n ∨ m < id) :
    ∀ e ∈ es, e.span ≠ id := by
  intro e he
  obtain ⟨_, hspan⟩ | ⟨_, hgt, hle⟩ := h.span_eq he
  · omega
  · omega

/-- The spans of a forest are those of its numbers. -/
theorem exists_begins (h : Forest parent n es m) (hgt : n < id) (hle : id ≤ m) :
    (∃ e ∈ es, e.Begins id) ∧ ∃ e ∈ es, e.Ends id := by
  induction h with
  | nil => omega
  | point _ _ _ _ ih =>
    obtain ⟨⟨x, hx, hbegins⟩, y, hy, hends⟩ := ih hgt hle
    exact ⟨⟨x, .tail _ hx, hbegins⟩, y, .tail _ hy, hends⟩
  | @span parent n k m b e inner rest hbegins _ hends _ _ _ ihinner ihrest =>
    by_cases hown : id = n + 1
    · subst hown
      exact ⟨⟨b, by simp, hbegins⟩, e, by simp, hends⟩
    · by_cases hin : id ≤ k
      · obtain ⟨⟨x, hx, hbegins⟩, y, hy, hends⟩ := ihinner (by omega) hin
        exact ⟨⟨x, by simp [hx], hbegins⟩, y, by simp [hy], hends⟩
      · obtain ⟨⟨x, hx, hbegins⟩, y, hy, hends⟩ := ihrest (by omega) hle
        exact ⟨⟨x, by simp [hx], hbegins⟩, y, by simp [hy], hends⟩

/-- In a forest the spans that begin are those that end. -/
theorem balanced (h : Forest parent n es m) (id : Nat) :
    (∃ e ∈ es, e.Begins id) ↔ ∃ e ∈ es, e.Ends id := by
  constructor
  · rintro ⟨e, he, hkind, rfl⟩
    obtain ⟨hgt, hle⟩ := h.span_mem_range he (by rw [hkind]; decide)
    exact (h.exists_begins hgt hle).2
  · rintro ⟨e, he, hkind, rfl⟩
    obtain ⟨hgt, hle⟩ := h.span_mem_range he (by rw [hkind]; decide)
    exact (h.exists_begins hgt hle).1

/-- Each span of a forest begins and ends once and is crossed by no other. -/
theorem enclosed (h : Forest parent n es m) (hgt : n < id) (hle : id ≤ m) : Enclosed id es := by
  induction h with
  | nil => omega
  | @point parent n m e es _ hspan _ _ ih =>
    have hothers : ∀ x ∈ [e] ++ [], x.span ≠ id := by
      simp [hspan]
      omega
    simpa using (ih hgt hle).within hothers
  | @span parent n k m b e inner rest hbegins _ hends _ hinner hrest ihinner ihrest =>
    -- The span is the first one, lies in it, or comes after it; its number tells which.
    have hfirst : b.span = n + 1 ∧ e.span = n + 1 := ⟨hbegins.2, hends.2⟩
    have hk := hinner.le
    by_cases hown : id = n + 1
    · subst hown
      have hothers : ∀ x ∈ [] ++ inner ++ rest, x.span ≠ n + 1 := by
        intro x hx
        simp only [List.nil_append, List.mem_append] at hx
        obtain hx | hx := hx
        · exact hinner.span_ne (by omega) (.inl (by omega)) x hx
        · exact hrest.span_ne (by omega) (.inl (by omega)) x hx
      rw [← List.nil_append (b :: _)]
      exact .intro hbegins hends hothers hinner.balanced
    · by_cases hin : id ≤ k
      · have hothers : ∀ x ∈ [b] ++ e :: rest, x.span ≠ id := by
          intro x hx
          simp only [List.singleton_append, List.mem_cons] at hx
          obtain rfl | rfl | hx := hx
          · omega
          · omega
          · exact hrest.span_ne (by omega) (.inl hin) x hx
        exact (ihinner (by omega) hin).within hothers
      · have hothers : ∀ x ∈ (b :: (inner ++ [e])) ++ [], x.span ≠ id := by
          intro x hx
          simp only [List.append_nil, List.mem_cons, List.mem_append, List.not_mem_nil,
            or_false] at hx
          obtain rfl | hx | rfl := hx
          · omega
          · exact hinner.span_ne (by omega) (.inr (by omega)) x hx
          · omega
        simpa using (ihrest (by omega) hle).within hothers

/-- No span of a forest ends outside. -/
theorem not_ends {later : List TraceEvent} (h : Forest parent n es m)
    (hbefore : ∀ b ∈ before, b ∈ es) (hlater : ∀ e ∈ later, e.span = 0 ∨ e.span ≤ n ∨ m < e.span) :
    ∀ b ∈ before, b.kind = .spanBegin → ∀ e ∈ later, ¬ e.Ends b.span := by
  intro b hb hkind e he hends
  have houtside := hlater e he
  rw [hends.2] at houtside
  have hrange := h.span_mem_range (hbefore b hb) (by rw [hkind]; decide)
  omega

/-- The parent of an event of a forest is the innermost span around it. -/
theorem parent_eq (h : Forest parent n es m) {after : List TraceEvent}
    (hsplit : es = before ++ e :: after) :
    (openAround before after).getLastD parent = e.parent := by
  induction h generalizing before after e with
  | nil => simp at hsplit
  | @point parent n m p es hkind hspan hparent h ih =>
    cases before with
    | nil =>
      obtain ⟨rfl, rfl⟩ := List.cons.inj hsplit
      exact hparent.symm
    | cons first before =>
      obtain ⟨rfl, hrest⟩ := List.cons.inj hsplit
      have hnone : openAround [p] after = [] := by
        refine openAround_eq_nil fun x hx hbegin => ?_
        obtain rfl := List.mem_singleton.1 hx
        exact absurd (hkind.symm.trans hbegin) (by decide)
      rw [← List.singleton_append, openAround_append, hnone, List.nil_append]
      exact ih hrest
  | @span parent n k m b b' inner rest hbegins hbegin hends hend hinner hrest ihinner ihrest =>
    have hn := hinner.le
    have hoff : ∀ x ∈ rest, x.span = 0 ∨ x.span ≤ n + 1 ∨ k < x.span := by
      intro x hx
      obtain ⟨_, hspan⟩ | ⟨_, hgt, _⟩ := hrest.span_eq hx
      · exact .inl hspan
      · exact .inr (.inr hgt)
    -- Once the span has ended, neither it nor a span in it is open.
    have hclosed : ∀ later, (∀ x ∈ later, x ∈ rest) → openAround (b :: inner) later = [] := by
      intro later hlater
      have hown : openAround [b] later = [] := by
        refine openAround_eq_nil fun x hx _ e he hlast => ?_
        obtain rfl := List.mem_singleton.1 hx
        rw [hbegins.2] at hlast
        exact hrest.span_ne (Nat.succ_pos n) (.inl hn) e (hlater e he) hlast.2
      have hin : openAround inner later = [] :=
        openAround_eq_nil (hinner.not_ends (fun _ hx => hx) fun e he => hoff e (hlater e he))
      rw [← List.singleton_append, openAround_append, hown, hin, List.nil_append]
    cases before with
    | nil =>
      obtain ⟨rfl, rfl⟩ := List.cons.inj hsplit
      exact hbegin.symm
    | cons first before =>
      obtain ⟨rfl, hcut⟩ := List.cons.inj hsplit
      obtain ⟨between, hin, rfl⟩ | ⟨rfl, rfl, rfl⟩ | ⟨between, rfl, hin⟩ :=
        append_cons_cases hcut
      · -- The event lies in the span.
        have hlater : openAround before (between ++ b' :: rest) = openAround before between := by
          refine openAround_append_right (hinner.not_ends (fun x hx => ?_) fun x hx => ?_)
          · rw [hin]
            exact List.mem_append_left _ hx
          · obtain rfl | hx := List.mem_cons.1 hx
            · exact .inr (.inl (Nat.le_of_eq hends.2))
            · exact hoff x hx
        rw [openAround_cons hbegins hends (by simp), hlater, List.getLastD_cons]
        exact ihinner hin
      · rw [hclosed rest fun _ hx => hx]
        exact hend.symm
      · -- The event comes after the span.
        have hpieces : b :: (inner ++ b' :: between) = (b :: inner) ++ ([b'] ++ between) := by simp
        have hpast : openAround [b'] after = [] := by
          refine openAround_eq_nil fun x hx hkind => ?_
          obtain rfl := List.mem_singleton.1 hx
          exact absurd (hends.1.symm.trans hkind) (by decide)
        rw [hpieces, openAround_append, openAround_append, hpast, List.nil_append,
          hclosed after fun x hx => by simp [hin, hx], List.nil_append]
        exact ihrest hin

/-! ### A span around a forest -/

section Around

variable {own : Nat} {b e : TraceEvent} (h : Forest parent n es m) (hle : own ≤ n)
  (hbegins : b.Begins own) (hends : e.Ends own)

include h hle hbegins hends

/-- A span around a forest leaves all spans enclosed, whatever the parents are. -/
theorem enclosed_around (hpos : 0 < own) {x : TraceEvent} (hx : x ∈ b :: (es ++ [e]))
    (hkind : x.kind ≠ .point) : Enclosed x.span (b :: (es ++ [e])) := by
  have hne := h.span_ne hpos (.inl hle)
  have hown : Enclosed own (b :: (es ++ [e])) := by
    rw [← List.nil_append (b :: _)]
    exact .intro hbegins hends (by simpa using hne) h.balanced
  simp only [List.mem_cons, List.mem_append, List.not_mem_nil, or_false] at hx
  obtain rfl | hx | rfl := hx
  · exact hbegins.2 ▸ hown
  · obtain ⟨hgt, hmost⟩ := h.span_mem_range hx hkind
    have hothers : ∀ y ∈ [b] ++ [e], y.span ≠ x.span := by
      simp [hbegins.2, hends.2]
      omega
    exact (h.enclosed hgt hmost).within hothers
  · exact hends.2 ▸ hown

/-- What is open around an event of a forest, seen from outside. -/
theorem openAround_around {after : List TraceEvent} {x : TraceEvent}
    (hsplit : es = before ++ x :: after) :
    openAround (b :: before) (after ++ [e]) = own :: openAround before after := by
  rw [openAround_cons hbegins hends (by simp), openAround_append_right]
  refine h.not_ends (fun y hy => by simp [hsplit, hy]) fun y hy => ?_
  obtain rfl := List.mem_singleton.1 hy
  exact .inr (.inl (hends.2 ▸ hle))

end Around

end Forest

/-- Each event but those of the span `own` names as its parent the innermost span around it. -/
def ParentsRight (own : Nat) (es : List TraceEvent) : Prop :=
  ∀ before e after, es = before ++ e :: after → e.span ≠ own →
    (openAround before after).getLast? = some e.parent

/-- The parents in a span around a forest are right exactly if the forest is the one of the span, or
empty. -/
theorem Forest.parentsRight_around_iff {parent n m own : Nat} {es : List TraceEvent}
    {b : TraceEvent} (h : Forest parent n es m) (hle : own ≤ n) (hbegins : b.Begins own)
    (hends : e.Ends own) (hpos : 0 < own) :
    ParentsRight own (b :: (es ++ [e])) ↔ es = [] ∨ parent = own := by
  constructor
  · intro hright
    cases es with
    | nil => exact .inl rfl
    | cons x rest =>
      -- The first event of the forest has only the span around it.
      have hfirst : x :: rest = [] ++ x :: rest := rfl
      have hparent : parent = x.parent := h.parent_eq hfirst
      have hopen := h.openAround_around hle hbegins hends hfirst
      have hx := hright [b] x (rest ++ [e]) rfl (h.span_ne hpos (.inl hle) x (.head _))
      rw [hopen] at hx
      exact .inr (hparent.trans (Option.some.inj hx).symm)
  · rintro hcase before x after hsplit hne
    cases before with
    | nil =>
      obtain ⟨rfl, -⟩ := List.cons.inj hsplit
      exact absurd hbegins.2 hne
    | cons first before =>
      obtain ⟨rfl, hcut⟩ := List.cons.inj hsplit
      obtain ⟨between, hin, rfl⟩ | ⟨-, rfl, -⟩ | ⟨between, -, hin⟩ := append_cons_cases hcut
      · obtain rfl | rfl := hcase
        · simp at hin
        · rw [h.openAround_around hle hbegins hends hin, List.getLast?_cons, ← h.parent_eq hin]
          simp [List.getLastD_eq_getLast?]
      · exact absurd hends.2 hne
      · simp at hin

/-! ## Other numbers -/

section Renumbered

variable {f : Nat → Nat} (hf : f.Injective)

include hf

theorem begins_renumbered : (e.renumbered f).Begins (f id) ↔ e.Begins id :=
  and_congr_right fun _ => hf.eq_iff

theorem ends_renumbered : (e.renumbered f).Ends (f id) ↔ e.Ends id :=
  and_congr_right fun _ => hf.eq_iff

theorem openAround_renumbered (before after : List TraceEvent) :
    openAround (before.map (·.renumbered f)) (after.map (·.renumbered f)) =
      (openAround before after).map f := by
  rw [openAround, openAround, List.filter_map, List.map_map, List.map_map]
  congr 1
  refine List.filter_congr fun b _ => decide_eq_decide.2 (and_congr_right fun _ => ?_)
  simp only [List.mem_map]
  constructor
  · rintro ⟨_, ⟨e, he, rfl⟩, hends⟩
    exact ⟨e, he, (ends_renumbered hf).1 hends⟩
  · rintro ⟨e, he, hends⟩
    exact ⟨_, ⟨e, he, rfl⟩, (ends_renumbered hf).2 hends⟩

theorem Enclosed.renumbered {es : List TraceEvent} (h : Enclosed id es) :
    Enclosed (f id) (es.map (·.renumbered f)) := by
  cases h with
  | @intro before inner after b e hbegins hends hothers hbalanced =>
    simp only [List.map_append, List.map_cons]
    refine .intro ((begins_renumbered hf).2 hbegins) ((ends_renumbered hf).2 hends) ?_ fun other => ?_
    · simp only [← List.map_append]
      intro x' hx' heq
      obtain ⟨x, hx, rfl⟩ := List.mem_map.1 hx'
      exact hothers x hx (hf heq)
    · -- The numbers of spans in between are numbers of spans before.
      simp only [List.mem_map]
      constructor
      · rintro ⟨_, ⟨x, hx, rfl⟩, hkind, rfl⟩
        obtain ⟨y, hy, hlast⟩ := (hbalanced x.span).1 ⟨x, hx, hkind, rfl⟩
        exact ⟨_, ⟨y, hy, rfl⟩, (ends_renumbered hf).2 hlast⟩
      · rintro ⟨_, ⟨x, hx, rfl⟩, hkind, rfl⟩
        obtain ⟨y, hy, hfirst⟩ := (hbalanced x.span).2 ⟨x, hx, hkind, rfl⟩
        exact ⟨_, ⟨y, hy, rfl⟩, (begins_renumbered hf).2 hfirst⟩

theorem parentsRight_renumbered {own : Nat} {es : List TraceEvent} :
    ParentsRight (f own) (es.map (·.renumbered f)) ↔ ParentsRight own es := by
  have hopen (before after : List TraceEvent) (e : TraceEvent) :
      (openAround (before.map (·.renumbered f)) (after.map (·.renumbered f))).getLast? =
          some (e.renumbered f).parent ↔
        (openAround before after).getLast? = some e.parent := by
    rw [openAround_renumbered hf, List.getLast?_map]
    exact (Option.map_injective hf).eq_iff' rfl
  constructor
  · rintro h before e after rfl hne
    have hright := h (before.map (·.renumbered f)) (e.renumbered f) (after.map (·.renumbered f))
      (by rw [List.map_append, List.map_cons]) fun heq => hne (hf heq)
    exact (hopen before after e).1 hright
  · intro h before' e' after' hsplit hne
    obtain ⟨before, rest, rfl, rfl, hrest⟩ := List.map_eq_append_iff.1 hsplit
    obtain ⟨e, after, rfl, rfl, rfl⟩ := List.map_eq_cons_iff.1 hrest
    exact (hopen before after e).2 (h before e after rfl fun heq => hne (congrArg f heq))

end Renumbered

/-! ## What a tracer records -/

/-- The stream after one more event. -/
def TraceStream.write (s : TraceStream) (e : TraceEvent) : TraceStream :=
  { s with output := s.output ++ TraceEvent.text s.format e }

namespace TraceLevel

theorem admits_pass {l : TraceLevel} (h : l.admits .driver = true) : l.admits .pass = true := by
  cases l <;> first | rfl | exact absurd h (by decide)

theorem admits_node {l : TraceLevel} (h : l.admits .pass = false) : l.admits .node = false := by
  cases l <;> first | rfl | exact absurd h (by decide)

end TraceLevel

namespace Tracer

/-- Between two states of a tracer some events were recorded: each was written to the stream and
pushed into the ring, as far as there are any, with a number of its own in each. -/
structure Records (t : Tracer) (es : List TraceEvent) (t' : Tracer) : Prop where
  level : t'.level = t.level
  stream : ∃ written : List TraceEvent, written.map (·.unnumbered) = es.map (·.unnumbered) ∧
    t'.stream = t.stream.map fun s => written.foldl TraceStream.write s
  ring : ∃ pushed : List TraceEvent, pushed.map (·.unnumbered) = es.map (·.unnumbered) ∧
    t'.ring = t.ring.map fun r => pushed.foldl TraceRing.push r

namespace Records

variable {t t' t'' : Tracer} {es fs : List TraceEvent}

theorem refl (t : Tracer) : t.Records [] t :=
  ⟨rfl, ⟨[], rfl, by simp⟩, [], rfl, by simp⟩

theorem trans (h : t.Records es t') (h' : t'.Records fs t'') : t.Records (es ++ fs) t'' := by
  obtain ⟨hlevel, ⟨written, hwritten, hstream⟩, pushed, hpushed, hring⟩ := h
  obtain ⟨hlevel', ⟨written', hwritten', hstream'⟩, pushed', hpushed', hring'⟩ := h'
  refine ⟨hlevel'.trans hlevel, ⟨written ++ written', ?_, ?_⟩, pushed ++ pushed', ?_, ?_⟩
  · rw [List.map_append, List.map_append, hwritten, hwritten']
  · simp [hstream', hstream, Function.comp_def]
  · rw [List.map_append, List.map_append, hpushed, hpushed']
  · simp [hring', hring, Function.comp_def]

end Records

section Emit

variable {t : Tracer} {e : TraceEvent}

/-- A level that admits something is not off. -/
theorem isEnabled_of_admits {scope : TraceScope} (h : t.level.admits scope = true) :
    t.isEnabled = true := by
  unfold isEnabled
  cases hlevel : t.level with
  | off =>
    rw [hlevel] at h
    exact h
  | _ => rfl

theorem emitStream_eq (h : t.stream = none ∨ t.streamTakes e = true) : ∃ events,
    t.emitStream e = { t with
      stream := t.stream.map fun s => s.write { e with sequence := t.events + 1 }, events } := by
  obtain ⟨level, stream, ring, events, spans⟩ := t
  cases stream with
  | none => exact ⟨events, rfl⟩
  | some s =>
    have htakes : streamTakes ⟨level, some s, ring, events, spans⟩ e = true := by simpa using h
    exact ⟨events + 1, if_pos htakes⟩

theorem emitRing_eq (h : t.ringTakes e = true) : ∃ events,
    t.emitRing e = { t with
      ring := t.ring.map fun r => r.push { e with sequence := t.events + 1 }, events } := by
  obtain ⟨level, stream, ring, events, spans⟩ := t
  cases ring with
  | none => exact ⟨events, rfl⟩
  | some r => exact ⟨events + 1, if_pos h⟩

/-- An event that stream and ring take is recorded, and begins no span by itself. -/
theorem emit_records (hstream : t.stream = none ∨ t.streamTakes e = true)
    (hring : t.ringTakes e = true) : t.Records [e] (t.emit e) ∧ (t.emit e).spans = t.spans := by
  -- The ring is asked after the stream has numbered the event, which leaves the level alone.
  obtain ⟨events, hwrite⟩ := emitStream_eq hstream
  have hlevel : (t.emitStream e).level = t.level := by rw [hwrite]
  have hring' : (t.emitStream e).ringTakes e = true := by
    rw [ringTakes, isEnabled, hlevel]
    exact hring
  obtain ⟨events', hpush⟩ := emitRing_eq hring'
  rw [emit, hpush, hwrite]
  exact ⟨⟨rfl, ⟨[{ e with sequence := t.events + 1 }], rfl, rfl⟩,
    [{ e with sequence := events + 1 }], rfl, rfl⟩, rfl⟩

/-- An event is recorded if the level admits its scope. -/
theorem emit_admitted (h : t.level.admits e.scope = true) :
    t.Records [e] (t.emit e) ∧ (t.emit e).spans = t.spans :=
  emit_records (.inr (by simp [streamTakes, h])) (by simp [ringTakes, isEnabled_of_admits h, h])

end Emit

theorem wants_eq_admits (t : Tracer) (scope : TraceScope) :
    t.wants scope = t.level.admits scope := by
  obtain ⟨level, _, _, _, _⟩ := t
  cases level <;> rfl

end Tracer

namespace Span

/-- Spans that differ only in what they have to say at their end. -/
structure Same (s s' : Span) : Prop where
  id : s.id = s'.id
  parent : s.parent = s'.parent
  scope : s.scope = s'.scope

theorem Same.refl (s : Span) : s.Same s := ⟨rfl, rfl, rfl⟩

theorem Same.withExtra {s s' : Span} (h : s.Same s') (key value : String) :
    (s.withExtra key value).Same s' := by
  unfold Span.withExtra
  split
  · exact h
  · exact ⟨h.id, h.parent, h.scope⟩

@[simp] theorem withExtra_empty (key value : String) : ({} : Span).withExtra key value = {} := rfl

end Span

namespace Tracer

/-- Between two states of a tracer whole spans and points were recorded, under a span. -/
structure Traces (t : Tracer) (parent : Nat) (es : List TraceEvent) (t' : Tracer) : Prop where
  records : t.Records es t'
  forest : Forest parent t.spans es t'.spans

theorem Traces.refl (t : Tracer) (parent : Nat) : t.Traces parent [] t := ⟨.refl t, .nil⟩

theorem Traces.trans {t t' t'' : Tracer} {parent : Nat} {es fs : List TraceEvent}
    (h : t.Traces parent es t') (h' : t'.Traces parent fs t'') : t.Traces parent (es ++ fs) t'' :=
  ⟨h.records.trans h'.records, h.forest.append h'.forest⟩

section Spans

variable {t : Tracer} {scope : TraceScope} {name : String} {parent : Nat}

theorem begin_of_not_admits (h : t.level.admits scope = false) (name : String) (parent : Nat) :
    t.begin scope name parent = ({}, t) :=
  if_neg (by simp [wants_eq_admits, h])

theorem begin_of_admits (h : t.level.admits scope = true) (name : String) (parent : Nat) :
    (t.begin scope name parent).1 = { id := t.spans + 1, parent, scope, name } ∧
    (t.begin scope name parent).2.spans = t.spans + 1 ∧
    ∃ b, b.Begins (t.spans + 1) ∧ b.parent = parent ∧ b.name = name ∧
      t.Records [b] (t.begin scope name parent).2 := by
  rw [begin, if_pos ((wants_eq_admits t scope).trans h)]
  obtain ⟨hrecords, hspans⟩ := emit_admitted (t := { t with spans := t.spans + 1 })
    (e := { kind := .spanBegin, scope, span := t.spans + 1, parent, name }) h
  exact ⟨rfl, hspans, _, ⟨rfl, rfl⟩, rfl, rfl, hrecords.level, hrecords.stream, hrecords.ring⟩

theorem level_begin (t : Tracer) (scope : TraceScope) (name : String) (parent : Nat) :
    (t.begin scope name parent).2.level = t.level := by
  cases h : t.level.admits scope with
  | false => rw [begin_of_not_admits h]
  | true =>
    obtain ⟨-, -, b, -, -, -, hrecords⟩ := begin_of_admits h name parent
    exact hrecords.level

theorem finish_of_admits {s : Span} (h : t.level.admits s.scope = true) (hid : s.id ≠ 0)
    (detail : String) : (t.finish s detail).spans = t.spans ∧
      ∃ e, e.Ends s.id ∧ e.parent = s.parent ∧ t.Records [e] (t.finish s detail) := by
  rw [finish, if_neg hid]
  obtain ⟨hrecords, hspans⟩ := emit_admitted (t := t)
    (e := { kind := .spanEnd, scope := s.scope, span := s.id, parent := s.parent, name := s.name,
            detail, extra := withExtra s.extra "dur" "?" }) h
  exact ⟨hspans, _, ⟨rfl, rfl⟩, rfl, hrecords⟩

/-- Work under a span of its own: a span that is recorded encloses what the work records. -/
theorem Traces.span {t' : Tracer} {es : List TraceEvent} {s : Span}
    (h : t.level.admits scope = true)
    (hwork : (t.begin scope name parent).2.Traces (t.begin scope name parent).1.id es t')
    (hsame : s.Same (t.begin scope name parent).1) (detail : String) :
    ∃ b e, t.Traces parent (b :: (es ++ [e])) (t'.finish s detail) := by
  obtain ⟨hspan, hspans, b, hbegins, hbegin, -, hfirst⟩ := begin_of_admits h name parent
  rw [hspan] at hwork hsame
  have hlevel : t'.level = t.level := hwork.records.level.trans hfirst.level
  obtain ⟨hspans', e, hends, hend, hlast⟩ :=
    finish_of_admits (t := t') (s := s) (by rwa [hlevel, hsame.scope]) (by simp [hsame.id]) detail
  have hforest := hwork.forest
  rw [hspans] at hforest
  refine ⟨b, e, (hfirst.trans hwork.records).trans hlast, ?_⟩
  -- Ending a span begins none, so the numbers go as far as those of the work.
  rw [hspans']
  rw [hsame.id] at hends
  exact .span hbegins hbegin hends (hend.trans hsame.parent) hforest .nil

theorem begin_finish_traces (h : t.level.admits scope = true) (name : String) (parent : Nat)
    (detail : String) : ∃ b e, t.Traces parent [b, e]
      ((t.begin scope name parent).2.finish (t.begin scope name parent).1 detail) :=
  (Traces.refl _ _).span h (.refl _) detail

/-- A point is recorded or it is not. -/
theorem point_traces (t : Tracer) (scope : TraceScope) (name detail : String) (parent : Nat) :
    ∃ es, t.Traces parent es (t.point scope name detail parent) := by
  unfold point
  split
  · rename_i hwants
    rw [wants_eq_admits] at hwants
    obtain ⟨hrecords, hspans⟩ := emit_admitted (t := t)
      (e := { kind := .point, scope, parent, name, detail }) hwants
    refine ⟨_, hrecords, ?_⟩
    rw [hspans]
    exact .point rfl rfl rfl .nil
  · exact ⟨[], .refl t parent⟩

end Spans

end Tracer

/-! ## Compiling -/

theorem traceReports_traces (reports : List Diagnostic) (parent : Nat) (t : Tracer) :
    ∃ es, t.Traces parent es (traceReports reports parent t) := by
  induction reports generalizing t with
  | nil => exact ⟨[], .refl t parent⟩
  | cons d reports ih =>
    obtain ⟨es, hfirst⟩ :=
      t.point_traces .node (if d.isError then "rejected" else "degraded") d.message parent
    obtain ⟨fs, hrest⟩ := ih (t.point .node (if d.isError then "rejected" else "degraded")
      d.message parent)
    exact ⟨es ++ fs, hfirst.trans hrest⟩

theorem tracedGenerate_traces {t : Tracer} (h : t.level.admits .pass = true) (style : Style)
    (shader : Option Shader) (parent : Nat) :
    ∃ es, t.Traces parent es (tracedGenerate style shader parent t).2 := by
  obtain ⟨es, hreports⟩ := traceReports_traces (generate style shader).reports
    (t.begin .pass "generate" parent).1.id (t.begin .pass "generate" parent).2
  obtain ⟨b, e, htraces⟩ := hreports.span h (.refl _) ""
  exact ⟨_, htraces⟩

/-- Compiling a shader records a forest, which is empty only if the shader is not compiled. -/
theorem compile_traces {t : Tracer} (h : t.level.admits .pass = true) (options : CompileOptions)
    (shader : Option Shader) (parent : Nat) : ∃ es,
      t.Traces parent es (compile options shader parent t).2 ∧
      (es = [] ↔ options.cancelled = true ∨
        (options.engine <|> Engine.ofStyle? options.style) = none) := by
  unfold compile
  split
  · rename_i hcancelled
    exact ⟨[], .refl t parent, by simp [hcancelled]⟩
  · rename_i hcancelled
    split
    · rename_i hengine
      exact ⟨[], .refl t parent, by simp [hengine]⟩
    · rename_i engine hengine
      dsimp only
      generalize hs : Span.withExtra (Span.withExtra _ _ _) _ _ = s
      have hsame : s.Same (t.begin .pass "translate" parent).1 :=
        hs ▸ ((Span.Same.refl _).withExtra _ _).withExtra _ _
      have hlevel := t.level_begin .pass "translate" parent
      generalize hbegun : t.begin .pass "translate" parent = begun at hsame hlevel ⊢
      -- However the work ends, its span is not empty.
      have hclosed : ∀ {t' : Tracer} {es : List TraceEvent} {s' : Span},
          begun.2.Traces s.id es t' → s'.Same begun.1 →
          ∃ es, t.Traces parent es (t'.finish s' "") ∧ (es = [] ↔ options.cancelled = true ∨
            (options.engine <|> Engine.ofStyle? options.style) = none) := by
        intro t' es s' hwork hsame'
        subst hbegun
        rw [hsame.id] at hwork
        obtain ⟨b, e, htraces⟩ := hwork.span h hsame' ""
        exact ⟨_, htraces, by simp [hcancelled, hengine]⟩
      have hpass : begun.2.level.admits .pass = true := by rwa [hlevel]
      obtain ⟨es, hgenerate⟩ := tracedGenerate_traces hpass options.style shader s.id
      generalize tracedGenerate options.style shader s.id begun.2 = generated at hgenerate ⊢
      split
      · exact hclosed hgenerate hsame
      · split
        · exact hclosed hgenerate (hsame.withExtra _ _)
        · have hloading : ∀ detail, ∃ es, begun.2.Traces s.id es
              ((generated.2.begin .pass "materialize" s.id).2.finish
                (generated.2.begin .pass "materialize" s.id).1 detail) := by
            intro detail
            have hpass' : generated.2.level.admits .pass = true := by
              rwa [hgenerate.records.level]
            obtain ⟨b, e, hload⟩ := Tracer.begin_finish_traces hpass' "materialize" s.id detail
            exact ⟨_, hgenerate.trans hload⟩
          split
          · obtain ⟨es, hloaded⟩ := hloading ""
            exact hclosed hloaded hsame
          · obtain ⟨es, hloaded⟩ := hloading "failed"
            exact hclosed hloaded hsame
          · obtain ⟨es, hloaded⟩ := hloading "failed"
            exact hclosed hloaded hsame

section Untraced

variable {t : Tracer} (h : t.level.admits .pass = false)

include h

theorem traceReports_untraced (reports : List Diagnostic) (parent : Nat) :
    traceReports reports parent t = t := by
  have hpoint : ∀ name detail, t.point .node name detail parent = t := fun name detail =>
    if_neg (by simp [Tracer.wants_eq_admits, TraceLevel.admits_node h])
  induction reports with
  | nil => rfl
  | cons d reports ih =>
    rw [traceReports, List.foldl_cons, hpoint]
    exact ih

theorem tracedGenerate_untraced (style : Style) (shader : Option Shader) (parent : Nat) :
    (tracedGenerate style shader parent t).2 = t := by
  rw [tracedGenerate, Tracer.begin_of_not_admits h]
  exact traceReports_untraced h _ _

/-- At a level that records no phases, compiling leaves the tracer as it was. -/
theorem compile_untraced (options : CompileOptions) (shader : Option Shader) (parent : Nat) :
    (compile options shader parent t).2 = t := by
  unfold compile
  split
  · rfl
  · split
    · rfl
    · -- Spans that are not recorded have nothing to say and end in silence.
      simp only [Tracer.begin_of_not_admits h, Span.withExtra_empty]
      have hgenerate := tracedGenerate_untraced h options.style shader 0
      generalize tracedGenerate options.style shader 0 t = generated at hgenerate ⊢
      obtain ⟨generation, t'⟩ := generated
      obtain rfl : t' = t := hgenerate
      simp only [Tracer.begin_of_not_admits h]
      split
      · rfl
      · split
        · rfl
        · split <;> rfl

end Untraced

end ShaderScript
