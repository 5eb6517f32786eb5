import Mathlib.Data.List.Induction
import ShaderScript.Proofs.TraceForest

/-!
# What a ring keeps

A ring has a slot for each event that it keeps.  The slots are taken in turn, and from the last one
it goes back to the first.  `TraceRing.Sound` is what pushing maintains: the next slot is one of the
ring's, and until all are in use it is the first one that is not.
-/

namespace ShaderScript

namespace TraceRing

/-- The slots are in use up to the next one, or all of them. -/
structure Sound (r : TraceRing) : Prop where
  head : r.head < r.capacity
  slots : r.slots.length = if r.full then r.capacity else r.head

theorem sound_empty {capacity : Nat} (h : 0 < capacity) : Sound { capacity } := ⟨h, rfl⟩

section Push

variable {r : TraceRing} (h : r.Sound) (e : TraceEvent)

include h

/-- Pushing goes on to the next slot, or back to the first one when all are in use. -/
theorem push_cases :
    (r.head + 1 < r.capacity ∧ (r.push e).head = r.head + 1 ∧ (r.push e).full = r.full) ∨
      (r.head + 1 = r.capacity ∧ (r.push e).head = 0 ∧ (r.push e).full = true) := by
  have hhead := h.head
  by_cases hlast : r.head + 1 = r.capacity
  · exact .inr ⟨hlast, by simp [push, hlast], by simp [push, hlast]⟩
  · have hlt : r.head + 1 < r.capacity := by omega
    have hmod := Nat.mod_eq_of_lt hlt
    exact .inl ⟨hlt, hmod, by simp [push, hmod]⟩

theorem length_slots_push :
    (r.push e).slots.length = if r.full then r.capacity else r.head + 1 := by
  have hhead := h.head
  have hslots := h.slots
  simp only [push, List.length_append, List.length_take, List.length_cons, List.length_drop, hslots]
  split <;> omega

theorem Sound.push : (r.push e).Sound := by
  have hlength := length_slots_push h e
  obtain ⟨hlt, hhead, hfull⟩ | ⟨hlast, hhead, hfull⟩ := push_cases h e
  · refine ⟨by rwa [hhead], ?_⟩
    rw [hlength, hfull, hhead]
    rfl
  · refine ⟨by rw [hhead]; exact Nat.zero_lt_of_lt h.head, ?_⟩
    rw [hlength, hfull, if_pos rfl, hlast, ite_self]
    rfl

theorem length_events : r.events.length = r.slots.length := by
  have hslots := h.slots
  unfold events
  split <;> rename_i hfull
  · simp only [List.length_append, List.length_drop, List.length_take]
    omega
  · simp only [hfull, Bool.false_eq_true, if_false] at hslots
    simp [hslots]

/-- The slots from the one after the next come first: they are the oldest, if they are in use. -/
theorem events_push_eq :
    (r.push e).events = r.slots.drop (r.head + 1) ++ (r.slots.take r.head ++ [e]) := by
  have hhead := h.head
  have hslots := h.slots
  have htake : (r.slots.take r.head).length = r.head := by
    rw [List.length_take, hslots]
    split <;> omega
  have hpush : (r.push e).slots = (r.slots.take r.head ++ [e]) ++ r.slots.drop (r.head + 1) := by
    simp [TraceRing.push]
  have hlength : (r.slots.take r.head ++ [e]).length = r.head + 1 := by simp [htake]
  -- Behind the last slot the head goes back, and from then on the ring is full.
  obtain ⟨-, hnext, hsame⟩ | ⟨hlast, hnext, hfull⟩ := push_cases h e
  · rw [events, hnext, hsame, hpush, List.drop_left' hlength, List.take_left' hlength]
    split
    · rfl
    · rename_i hfull
      rw [if_neg hfull] at hslots
      rw [List.drop_eq_nil_of_le (by omega), List.nil_append]
  · have hdrop : r.slots.drop (r.head + 1) = [] := by
      refine List.drop_eq_nil_of_le ?_
      rw [hslots]
      split <;> omega
    simp [events, hnext, hfull, hpush, hdrop]

/-- The new event comes last; if all slots were in use, the oldest makes room. -/
theorem events_push :
    (r.push e).events = (r.events ++ [e]).drop (r.events.length + 1 - r.capacity) := by
  have hhead := h.head
  have hslots := h.slots
  rw [events_push_eq h, length_events h, hslots, events]
  split
  · rename_i hfull
    rw [if_pos hfull] at hslots
    have hpos : 1 ≤ (r.slots.drop r.head).length := by
      rw [List.length_drop]
      omega
    rw [Nat.add_sub_cancel_left, List.append_assoc, List.drop_append_of_le_length hpos,
      List.drop_drop]
  · rename_i hfull
    rw [if_neg hfull] at hslots
    rw [List.drop_eq_nil_of_le (by omega), List.nil_append, Nat.sub_eq_zero_of_le hhead,
      List.drop_zero]

end Push

theorem sound_foldl_push {r : TraceRing} (h : r.Sound) (es : List TraceEvent) :
    (es.foldl push r).Sound ∧ (es.foldl push r).capacity = r.capacity := by
  induction es generalizing r with
  | nil => exact ⟨h, rfl⟩
  | cons e es ih => exact ih (h.push e)

/-- A ring holds the last events that were pushed. -/
theorem events_foldl_push {capacity : Nat} (h : 0 < capacity) (es : List TraceEvent) :
    (es.foldl push { capacity }).events = es.drop (es.length - capacity) := by
  induction es using List.reverseRecOn with
  | nil => simp [events]
  | append_singleton es e ih =>
    -- Before the oldest event makes room, the ring holds the end of the list with the new event.
    have hpushed : es.drop (es.length - capacity) ++ [e] =
        (es ++ [e]).drop (es.length - capacity) :=
      (List.drop_append_of_le_length (Nat.sub_le _ _)).symm
    obtain ⟨hsound, hcapacity⟩ := sound_foldl_push (sound_empty h) es
    rw [List.foldl_append, List.foldl_cons, List.foldl_nil, events_push hsound, ih, hcapacity,
      hpushed, List.drop_drop, List.length_drop, List.length_append, List.length_singleton]
    congr 1
    dsimp only
    omega

theorem capacity_ofCapacity_pos (capacity : Int) : 0 < (ofCapacity capacity).capacity := by
  unfold ofCapacity
  split
  · decide
  · dsimp only
    omega

end TraceRing

/-- Whether the ring of a level accepts an event: the error level accepts all, and the heartbeat is
accepted unless nothing is. -/
def TraceLevel.accepts (l : TraceLevel) (e : TraceEvent) : Bool :=
  l == .error || l.admits e.scope || (e.kind == .heartbeat && l != .off)

namespace Tracer

variable {t t' t'' : Tracer}

theorem ringTakes_eq (t : Tracer) (e : TraceEvent) : t.ringTakes e = t.level.accepts e := by
  rw [Bool.eq_iff_iff, ringTakes, isEnabled, TraceLevel.accepts]
  cases t.level <;> simp [TraceLevel.admits]

/-- Between two states of a tracer some numbered events were pushed into the ring, if there is one,
and the numbers ascend. -/
structure Pushed (t : Tracer) (events : List TraceEvent) (t' : Tracer) : Prop where
  level : t'.level = t.level
  ring : t'.ring = t.ring.map fun r => events.foldl TraceRing.push r
  count : t.events ≤ t'.events
  numbers : ∀ e ∈ events, t.events < e.sequence ∧ e.sequence ≤ t'.events
  ascending : events.Pairwise (·.sequence < ·.sequence)

namespace Pushed

variable {events events' : List TraceEvent}

theorem refl (t : Tracer) : t.Pushed [] t :=
  ⟨rfl, by simp, Nat.le_refl _, fun _ he => absurd he List.not_mem_nil, .nil⟩

theorem trans (h : t.Pushed events t') (h' : t'.Pushed events' t'') :
    t.Pushed (events ++ events') t'' where
  level := h'.level.trans h.level
  ring := by
    rw [h'.ring, h.ring, Option.map_map]
    simp [Function.comp_def]
  count := Nat.le_trans h.count h'.count
  numbers e he := by
    have hcount := h.count
    have hcount' := h'.count
    obtain he | he := List.mem_append.mp he
    · have := h.numbers e he
      omega
    · have := h'.numbers e he
      omega
  ascending := by
    refine List.pairwise_append.mpr ⟨h.ascending, h'.ascending, fun e he e' he' => ?_⟩
    have hlast := (h.numbers e he).2
    have hnext := (h'.numbers e' he').1
    omega

end Pushed

/-- The stream may use up a number, and leaves the ring alone. -/
theorem emitStream_pushed (t : Tracer) (e : TraceEvent) : t.Pushed [] (t.emitStream e) := by
  unfold emitStream
  split
  · exact .refl t
  · split
    · exact ⟨rfl, by simp, Nat.le_succ _, fun _ he => absurd he List.not_mem_nil, .nil⟩
    · exact .refl t

/-- An event is pushed if the level accepts it. -/
theorem emitRing_pushed {r : TraceRing} (hring : t.ring = some r) (e : TraceEvent) :
    ∃ events, t.Pushed events (t.emitRing e) ∧
      events.map (·.unnumbered) = ([e].filter t.level.accepts).map (·.unnumbered) := by
  have hfilter : [e].filter t.level.accepts = if t.ringTakes e then [e] else [] := by
    rw [List.filter_cons, List.filter_nil, ringTakes_eq]
  rw [hfilter, emitRing, hring]
  dsimp only
  cases t.ringTakes e with
  | true =>
    refine ⟨[{ e with sequence := t.events + 1 }], ⟨rfl, by simp [hring], Nat.le_succ _, ?_, ?_⟩, ?_⟩
    · intro e' he'
      obtain rfl := List.mem_singleton.mp he'
      exact ⟨Nat.lt_succ_self _, Nat.le_refl _⟩
    · exact List.pairwise_singleton _ _
    · simp
      rfl
  | false => exact ⟨[], .refl t, by simp⟩

/-- What a run of `emit` pushes into the ring: the events that the level accepts. -/
theorem foldl_emit_pushed {r : TraceRing} (hring : t.ring = some r) (es : List TraceEvent) :
    ∃ events, t.Pushed events (es.foldl emit t) ∧
      events.map (·.unnumbered) = (es.filter t.level.accepts).map (·.unnumbered) := by
  induction es generalizing t r with
  | nil => exact ⟨[], .refl t, rfl⟩
  | cons e es ih =>
    have hstream := t.emitStream_pushed e
    have hring' : (t.emitStream e).ring = some r := by rw [hstream.ring, hring]; rfl
    obtain ⟨first, hfirst, hmapped⟩ := emitRing_pushed hring' e
    have hstep := hstream.trans hfirst
    rw [List.nil_append] at hstep
    have hring'' : (t.emit e).ring = some (first.foldl TraceRing.push r) := by
      rw [emit, hstep.ring, hring]
      rfl
    obtain ⟨rest, hrest, hmapped'⟩ := ih hring''
    refine ⟨first ++ rest, hstep.trans hrest, ?_⟩
    rw [List.map_append, hmapped, hmapped', hstream.level, emit, hstep.level, ← List.map_append,
      ← List.filter_append, List.singleton_append]

/-- The events in the ring of a tracer, the oldest first. -/
def kept (t : Tracer) : List TraceEvent := t.ring.elim [] (·.events)

/-- **A ring keeps the latest events.**  However many events a tracer with a new ring is handed, the
ring keeps the last of those that its level accepts, as many as it has room for, in their order and
with numbers that ascend. -/
theorem ring_keeps_latest (t : Tracer) (capacity : Int) (es : List TraceEvent) :
    let ring := TraceRing.ofCapacity capacity
    let accepted := es.filter t.level.accepts
    let latest := (es.foldl emit { t with ring := some ring }).kept
    latest.map (·.unnumbered) =
        (accepted.drop (accepted.length - ring.capacity)).map (·.unnumbered) ∧
      latest.length = min ring.capacity accepted.length ∧
      latest.Pairwise (·.sequence < ·.sequence) := by
  intro ring accepted latest
  obtain ⟨events, hpushed, hmapped⟩ :=
    foldl_emit_pushed (t := { t with ring := some ring }) rfl es
  have hlength : events.length = accepted.length := by
    simpa using congrArg List.length hmapped
  have hlatest : latest = events.drop (accepted.length - ring.capacity) := by
    rw [← hlength, ← TraceRing.events_foldl_push (TraceRing.capacity_ofCapacity_pos capacity)]
    simp only [latest, kept, hpushed.ring, Option.map_some, Option.elim_some]
    rfl
  refine ⟨?_, ?_, ?_⟩
  · rw [hlatest, List.map_drop, hmapped, List.map_drop]
  · rw [hlatest, List.length_drop, hlength]
    omega
  · rw [hlatest]
    exact hpushed.ascending.drop

end Tracer

end ShaderScript
