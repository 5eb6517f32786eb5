import ShaderScript.Proofs.RingContents

/-!
# The ring of the error level

A ring of the error level takes events of any scope, so that what led up to a failure can be shown.
But a span or a point asks the level before anything is handed to the ring, and the error level
admits no scope.  So compiling leaves such a ring empty, whatever it would have kept.
-/

namespace ShaderScript

namespace Tracer

/-- A new tracer with a ring only. -/
def withRing (level : TraceLevel) (capacity : Int) : Tracer := new level .ring .text "" capacity

/-- What the ring of a tracer holds, apart from the numbers of the events. -/
def held (t : Tracer) : List TraceEvent := (t.ring.elim [] (·.events)).map (·.unnumbered)

/-- What a ring holds that was empty before. -/
theorem Records.held_eq {t t' : Tracer} {es : List TraceEvent} {capacity : Nat}
    (h : t.Records es t') (hring : t.ring = some { capacity }) (hpos : 0 < capacity) :
    t'.held = (es.map (·.unnumbered)).drop (es.length - capacity) := by
  obtain ⟨pushed, hpushed, hring'⟩ := h.ring
  have hlength : pushed.length = es.length := by simpa using congrArg List.length hpushed
  rw [held, hring', hring, Option.map_some, Option.elim_some, TraceRing.events_foldl_push hpos,
    List.map_drop, hpushed, hlength]

/-- A ring of the error level keeps all it is handed, of any scope. -/
theorem records_of_error {t : Tracer} (hlevel : t.level = .error) (hstream : t.stream = none)
    (es : List TraceEvent) : t.Records es (es.foldl emit t) := by
  induction es generalizing t with
  | nil => exact .refl t
  | cons e es ih =>
    have hfirst := (emit_records (e := e) (.inl hstream) (by rw [ringTakes_eq, hlevel]; rfl)).1
    have hlevel' : (t.emit e).level = .error := hfirst.level.trans hlevel
    have hstream' : (t.emit e).stream = none := by
      obtain ⟨written, -, hwritten⟩ := hfirst.stream
      rw [hwritten, hstream, Option.map_none]
    exact hfirst.trans (ih hlevel' hstream')

end Tracer

/-- **The ring of the error level sees nothing.**  Compiling leaves such a ring empty.  Handed the
events that a ring of the debug level records, it would hold all that the other one holds.  So the
two hold the same if and only if the shader is not compiled at all. -/
theorem compile_held_error_iff (options : CompileOptions) (shader : Option Shader) (parent : Nat)
    (capacity : Int) :
    (compile options shader parent (.withRing .error capacity)).2 = .withRing .error capacity ∧
    (∃ es, (Tracer.withRing .debug capacity).Traces parent es
        (compile options shader parent (.withRing .debug capacity)).2 ∧
      (es.foldl Tracer.emit (.withRing .error capacity)).held =
        (compile options shader parent (.withRing .debug capacity)).2.held) ∧
    ((compile options shader parent (.withRing .error capacity)).2.held =
        (compile options shader parent (.withRing .debug capacity)).2.held ↔
      options.cancelled = true ∨ (options.engine <|> Engine.ofStyle? options.style) = none) := by
  obtain ⟨es, htraces, hempty⟩ := compile_traces (t := .withRing .debug capacity)
    (show TraceLevel.admits .debug .pass = true from rfl) options shader parent
  have hsilent := compile_untraced (t := .withRing .error capacity)
    (show TraceLevel.admits .error .pass = false from rfl) options shader parent
  have hring : ∀ level, level ≠ .off → (Tracer.withRing level capacity).ring =
      some { capacity := (TraceRing.ofCapacity capacity).capacity } := by
    intro level hlevel
    rw [Tracer.withRing, Tracer.new, if_neg hlevel]
    rfl
  -- A ring has room for at least one event, so it shows whether there were any.
  have hpos := TraceRing.capacity_ofCapacity_pos capacity
  have hdebug := htraces.records.held_eq (hring .debug (by decide)) hpos
  have herror := (Tracer.records_of_error (t := .withRing .error capacity) rfl rfl es).held_eq
    (hring .error (by decide)) hpos
  refine ⟨hsilent, ⟨es, htraces, herror.trans hdebug.symm⟩, ?_⟩
  have hnothing : (Tracer.withRing .error capacity).held = [] := rfl
  rw [hsilent, ← hempty, hdebug, hnothing, eq_comm, List.drop_eq_nil_iff, List.length_map,
    ← List.length_eq_zero_iff]
  omega

/-- A shader without functions. -/
def blankShader : Shader := { tree := .program .unknown [] }

/-- Of a compilation with three spans the ring of the error level keeps nothing. -/
theorem error_ring_misses_spans :
    (compile {} (some blankShader) 0 (.withRing .error 0)).2.held = [] ∧
      (compile {} (some blankShader) 0 (.withRing .debug 0)).2.held.map
          (fun e => (e.kind.name, e.name, e.span, e.parent)) =
        [("begin", "translate", 1, 0), ("begin", "generate", 2, 1), ("end", "generate", 2, 1),
         ("begin", "materialize", 3, 1), ("end", "materialize", 3, 1),
         ("end", "translate", 1, 0)] := by
  decide +kernel

end ShaderScript
