import Mathlib.Data.List.Induction
import Mathlib.Data.List.Nodup
import Mathlib.Data.String.Basic
import Mathlib.Logic.Function.Basic
import ShaderScript.Environment

/-!
# The history of the globals

An environment is asked for values and told new ones, and records every access.  There are three
views of its state: the values it has now, those it began with, and the record.  Replaying what was
written on what it began with (`Access.replay`) gives what it has now, and the record alone tells
what each read found: what was written last before it (`Access.lastWritten`), or else what was there
from the beginning.
-/

namespace ShaderScript

/-- A call of an environment. -/
inductive Call
  | get (name : String)
  | set (name : String) (value : Value)

namespace Access

/-- The call that an access records. -/
def call : Access → Call
  | get name _ => .get name
  | set name value => .set name value

/-- The answer to the recorded call.  A read that found nothing fails. -/
def answer : Access → Except String Value
  | get name none => .error (Environment.undefinedText name)
  | get _ (some value) => .ok value
  | set .. => .ok .void

/-- What was written to a global last. -/
def lastWritten (name : String) (accesses : List Access) : Option Value :=
  accesses.reverse.findSome? fun
    | set n value => if n = name then some value else none
    | get .. => none

/-- The values after an access. -/
def overwrite (values : String → Option Value) : Access → String → Option Value
  | set name value => Function.update values name (some value)
  | get .. => values

/-- The values with everything overwritten that was written, in order. -/
def replay (values : String → Option Value) (accesses : List Access) : String → Option Value :=
  accesses.foldl overwrite values

/-- What replaying leaves in a global was written last, or was there from the beginning. -/
theorem replay_apply (values : String → Option Value) (accesses : List Access) (name : String) :
    replay values accesses name = (lastWritten name accesses).or (values name) := by
  induction accesses using List.reverseRecOn with
  | nil => rfl
  | append_singleton accesses a ih =>
    rw [replay, List.foldl_append, List.foldl_cons, List.foldl_nil, lastWritten,
      List.reverse_append, List.reverse_singleton, List.singleton_append, List.findSome?_cons]
    cases a with
    | get n value => exact ih
    | set n value =>
      by_cases h : n = name
      · subst h
        simp [overwrite]
      · simp only [overwrite, if_neg h, Function.update_of_ne (Ne.symm h)]
        exact ih

end Access

namespace Environment

/-! ## Calls -/

/-- Performs a call, and gives its answer. -/
def perform (e : Environment) : Call → Except String Value × Environment
  | .get name => ((e.get name).1.elim (.error (undefinedText name)) .ok, (e.get name).2)
  | .set name value => (.ok .void, e.set name value)

/-- Performs calls in order, and gives their answers. -/
def performAll (e : Environment) : List Call → List (Except String Value) × Environment
  | [] => ([], e)
  | call :: calls =>
    let (answer, e) := e.perform call
    let (answers, e) := e.performAll calls
    (answer :: answers, e)

/-- The access that a call is recorded by. -/
def accessFor (e : Environment) : Call → Access
  | .get name => .get name (e.find? name)
  | .set name value => .set name value

section Perform

variable (e : Environment) (c : Call)

theorem call_accessFor : (e.accessFor c).call = c := by cases c <;> rfl

theorem accesses_perform : (e.perform c).2.accesses = e.accesses ++ [e.accessFor c] := by
  cases c <;> rfl

theorem answer_accessFor : (e.perform c).1 = (e.accessFor c).answer := by
  cases c with
  | set name value => rfl
  | get name =>
    simp only [perform, get, accessFor]
    cases e.find? name <;> rfl

end Perform

/-! ## Values -/

theorem lookup_put (name : String) (value : Value) (values : List (String × Value)) (n : String) :
    (put name value values).lookup n =
      Function.update (fun n => values.lookup n) name (some value) n := by
  rw [Function.update_apply]
  induction values with
  | nil => by_cases h : n = name <;> simp [put, h]
  | cons entry rest ih =>
    obtain ⟨m, v⟩ := entry
    unfold put
    split
    · subst m
      by_cases h : n = name
      · simp [h]
      · rw [if_neg h, List.lookup_cons, List.lookup_cons, beq_false_of_ne h]
    · rename_i hm
      by_cases h : n = m
      · subst h
        simp [hm]
      · rw [List.lookup_cons, List.lookup_cons, beq_false_of_ne h, ih]

theorem isSome_lookup_iff (values : List (String × Value)) (n : String) :
    (values.lookup n).isSome = true ↔ n ∈ values.map Prod.fst := by
  rw [← not_iff_not, Bool.not_eq_true, Option.isSome_eq_false_iff, Option.isNone_iff_eq_none,
    List.lookup_eq_none_iff, List.mem_map]
  simp only [bne_iff_ne, not_exists, not_and, ne_comm]

theorem nodup_put (name : String) (value : Value) {values : List (String × Value)}
    (h : (values.map Prod.fst).Nodup) : ((put name value values).map Prod.fst).Nodup := by
  induction values with
  | nil => exact List.nodup_singleton name
  | cons entry rest ih =>
    obtain ⟨m, v⟩ := entry
    obtain ⟨hm, hrest⟩ := List.nodup_cons.mp h
    unfold put
    split
    · subst m
      exact h
    · rename_i hne
      refine List.nodup_cons.mpr ⟨?_, ih hrest⟩
      rw [← isSome_lookup_iff, lookup_put, Function.update_of_ne hne, isSome_lookup_iff]
      exact hm

/-- A call changes the values as the access says that records it. -/
theorem find?_perform (e : Environment) (c : Call) (name : String) :
    (e.perform c).2.find? name = Access.overwrite e.find? (e.accessFor c) name := by
  cases c with
  | set n value => exact lookup_put n value e.values name
  | get n => rfl

variable {e : Environment} {seed : List (String × Value)}

theorem nodup_perform (h : (e.values.map Prod.fst).Nodup) (c : Call) :
    ((e.perform c).2.values.map Prod.fst).Nodup := by
  cases c with
  | set n value => exact nodup_put n value h
  | get n => exact h

/-- The names are in order and are those of the globals with a value. -/
theorem names_spec (h : (e.values.map Prod.fst).Nodup) :
    e.names.Pairwise (· < ·) ∧ ∀ name, name ∈ e.names ↔ (e.find? name).isSome = true := by
  constructor
  · have hsorted : e.names.Pairwise (· ≤ ·) := by
      refine (List.pairwise_mergeSort ?_ ?_ _).imp fun h => of_decide_eq_true h
      · intro a b c hab hbc
        exact decide_eq_true (le_trans (of_decide_eq_true hab) (of_decide_eq_true hbc))
      · intro a b
        simpa using le_total a b
    have hnodup : e.names.Nodup := (List.mergeSort_perm _ _).nodup_iff.mpr h
    exact (hsorted.and hnodup).imp fun h => lt_of_le_of_ne h.1 h.2
  · intro name
    rw [names, List.mem_mergeSort, find?, isSome_lookup_iff]

/-! ## Histories -/

/-- The record of an environment that began with some values is a history of its values. -/
structure History (seed : List (String × Value)) (e : Environment) : Prop where
  /-- What was written is there, on top of what was there from the beginning. -/
  values : ∀ name, e.find? name = Access.replay (fun n => seed.lookup n) e.accesses name
  /-- A read found what had been written last, or else what was there from the beginning. -/
  reads : ∀ before name value after, e.accesses = before ++ .get name value :: after →
    value = (Access.lastWritten name before).or (seed.lookup name)
  /-- No global has two values. -/
  nodup : (e.values.map Prod.fst).Nodup

theorem history_ofValues (h : (seed.map Prod.fst).Nodup) :
    (ofValues seed).History seed where
  values _ := rfl
  reads before name value after hsplit := by simp [ofValues] at hsplit
  nodup := h

/-- A call keeps the record a history. -/
theorem History.perform (h : e.History seed) (c : Call) : (e.perform c).2.History seed := by
  have hrecord := e.accesses_perform c
  constructor
  · intro name
    have hvalues : e.find? = Access.replay (fun n => seed.lookup n) e.accesses := funext h.values
    rw [find?_perform, hrecord, hvalues, Access.replay, Access.replay, List.foldl_append]
    rfl
  · intro before name value after hsplit
    rw [hrecord] at hsplit
    obtain rfl | ⟨rest, last, rfl⟩ := List.eq_nil_or_concat after
    · -- The call itself is the read.
      obtain ⟨rfl, hread⟩ := List.append_inj' hsplit rfl
      have hnow := h.values name
      rw [Access.replay_apply] at hnow
      rw [← hnow]
      cases c with
      | set => cases hread
      | get n =>
        cases hread
        rfl
    · rw [List.concat_eq_append, ← List.cons_append, ← List.append_assoc] at hsplit
      exact h.reads before name value rest (List.append_inj' hsplit rfl).1
  · exact nodup_perform h.nodup c

/-- What a sequence of calls adds to the record. -/
theorem performAll_spec (h : e.History seed) (calls : List Call) : ∃ new : List Access,
      (e.performAll calls).2.accesses = e.accesses ++ new ∧ new.map Access.call = calls ∧
      (e.performAll calls).1 = new.map Access.answer ∧ (e.performAll calls).2.History seed := by
  induction calls generalizing e with
  | nil => exact ⟨[], (List.append_nil _).symm, rfl, rfl, h⟩
  | cons c calls ih =>
    obtain ⟨new, haccesses, hcalls, hanswers, hhistory⟩ := ih (h.perform c)
    refine ⟨e.accessFor c :: new, ?_, ?_, ?_, hhistory⟩
    · rw [performAll, haccesses, accesses_perform, List.append_assoc, List.singleton_append]
    · rw [List.map_cons, call_accessFor, hcalls]
    · rw [List.map_cons, ← answer_accessFor, ← hanswers, performAll]

/-- **The record is a history of the globals.**  Whatever values an environment begins with, one for
each name, and whatever it is called for, its record has one access for each call, in order, from
which the answers can be told.  A read found what had been written last, or else the value from the
beginning, or else nothing, and then it failed.  In the end the values are those from the beginning,
overwritten by what was written, and the names are theirs, in order. -/
theorem accesses_are_history (seed : List (String × Value)) (hseed : (seed.map Prod.fst).Nodup)
    (calls : List Call) :
    let answers := ((ofValues seed).performAll calls).1
    let e := ((ofValues seed).performAll calls).2
    e.accesses.map Access.call = calls ∧ answers = e.accesses.map Access.answer ∧
      (∀ before name value after, e.accesses = before ++ .get name value :: after →
        value = (Access.lastWritten name before).or (seed.lookup name)) ∧
      (∀ name, e.find? name = Access.replay (fun n => seed.lookup n) e.accesses name) ∧
      e.names.Pairwise (· < ·) ∧ ∀ name, name ∈ e.names ↔ (e.find? name).isSome = true := by
  obtain ⟨new, haccesses, hcalls, hanswers, hhistory⟩ :=
    performAll_spec (history_ofValues hseed) calls
  obtain ⟨hsorted, hnames⟩ := names_spec hhistory.nodup
  have hnew : ((ofValues seed).performAll calls).2.accesses = new := haccesses
  refine ⟨?_, ?_, hhistory.reads, hhistory.values, hsorted, hnames⟩
  · rw [hnew, hcalls]
  · rw [hnew, hanswers]

/-- One global with a value. -/
def litSeed : List (String × Value) := [("lit", .bool true)]

/-- A read that fails, and reads after writes of two globals. -/
def litCalls : List Call :=
  [.get "dim", .set "dim" (.bool false), .get "lit", .set "lit" (.bool false), .get "lit",
    .get "dim"]

/-- Two globals are read and written in turn. -/
theorem accesses_are_history_lit :
    (litSeed.map Prod.fst).Nodup ∧
      ((ofValues litSeed).performAll litCalls).2.accesses.map Access.call = litCalls ∧
      ((ofValues litSeed).performAll litCalls).2.names.Pairwise (· < ·) := by
  have h := accesses_are_history litSeed (by decide) litCalls
  exact ⟨by decide, h.1, h.2.2.2.2.1⟩

end Environment

end ShaderScript
