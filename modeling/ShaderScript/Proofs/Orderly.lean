import ShaderScript.Script.Run

/-!
# Orderly runs

The dialects part where a script does what one of them forgives: it reads a variable before it has a
value, calls a function with too few arguments, or tests what is no truth value.  They also part at
a `return` whose value stands behind a comment that goes over the end of a line.  A run is orderly
if none of this happens.  `orderly` follows the run in the stricter dialect, and tells at each step
whether what the step relies on is there.

Besides, in that dialect `continue` goes past the test at the end of a loop.  A run is *guarded* if
it is orderly and `continue` is only met there where the test would have been passed unseen
(`passesUnseen`): it would have been true, with no access recorded and nothing done to the console.
-/

namespace ShaderScript

open Running

deriving instance DecidableEq for Console

/-! ## Orderly steps -/

/-- Whether what follows a step is in order; nothing follows one that failed. -/
def Running.andThen {α : Type} (r : Except Halt α × World) (next : α → World → Bool) : Bool :=
  match r with
  | (.ok a, w) => next a w
  | (.error _, _) => true

/-- Whether a test gives a truth value, and what follows is in order. -/
def Running.decides (r : Except Halt Datum × World) (next : Bool → World → Bool) : Bool :=
  match r with
  | (.ok (.value (.bool b)), w) => next b w
  | (.ok _, _) => false
  | (.error _, _) => true

/-- Whether a variable of the script holds a value. -/
def Running.holdsValue (scope : List Nat) (name : String) (w : World) : Bool :=
  match readVariable scope name w with
  | (.ok (.value _), _) => true
  | _ => false

/-- Whether what is to be called can be read: a variable of the script must hold something. -/
def Running.holdsCallee (scope : List Nat) (callee : Slot) (w : World) : Bool :=
  match callee with
  | .binding name =>
    match readVariable scope name w with
    | (.ok _, _) => true
    | _ => false
  | .global _ => true

/-- Whether a test made in a world gives true, and nothing of it can be seen: no access to a global
was recorded, and the console is as it was. -/
def Running.passesUnseen (w : World) (r : Except Halt Datum × World) : Bool :=
  match r with
  | (.ok (.value (.bool true)), after) =>
    after.environment.accesses.length == w.environment.accesses.length &&
      decide (after.console = w.console)
  | _ => false

section

-- Whether `continue` may only skip tests that are passed unseen.
variable (guarded : Bool)

mutual

/-- Whether the evaluation of an expression is orderly. -/
def orderly : Nat → List Nat → Expr → World → Bool
  | 0, _, _, _ => true
  | fuel + 1, scope, e, w =>
    match e with
    | .read (.binding name) => holdsValue scope name w
    | .invoke _ args => orderlyArguments fuel scope (Expr.givenArguments .python args) w
    | .call callee args =>
      holdsCallee scope callee w &&
        andThen (readSlot .python scope callee w) fun f w =>
          orderlyArguments fuel scope (Expr.givenArguments .python args) w &&
            andThen (evaluateArguments .python fuel scope (Expr.givenArguments .python args) w)
              fun args w => orderlyCall fuel f args w
    | .choose condition whenTrue whenFalse =>
      orderly fuel scope condition w &&
        decides (evaluate .python fuel scope condition w) fun b w =>
          if b then orderly fuel scope whenTrue w else orderly fuel scope whenFalse w
    | .inert _ operand => orderly fuel scope operand w
    | .write (.binding _) value => orderly fuel scope value w
    | .write (.global _) value =>
      orderlyArguments fuel scope (Expr.givenArguments .python [value]) w
    | _ => true

/-- Whether the evaluation of arguments is orderly. -/
def orderlyArguments : Nat → List Nat → List Expr → World → Bool
  | 0, _, _, _ => true
  | _ + 1, _, [], _ => true
  | fuel + 1, scope, e :: rest, w =>
    orderly fuel scope e w &&
      andThen (evaluate .python fuel scope e w) fun _ w => orderlyArguments fuel scope rest w

/-- Whether a call is orderly: there are as many arguments as parameters. -/
def orderlyCall : Nat → Datum → List Argument → World → Bool
  | 0, _, _, _ => true
  | _ + 1, .value _, _, _ => true
  | fuel + 1, .function f, args, w =>
    args.length == f.parameters.length &&
      match activation .python f args with
      | none => true
      | some a => andThen (enter a w) fun i w => orderlyAll fuel (i :: f.scope) f.body w

/-- Whether the execution of a statement is orderly. -/
def orderlyStep : Nat → List Nat → Stmt → World → Bool
  | 0, _, _, _ => true
  | fuel + 1, scope, s, w =>
    match s with
    | .eval e => orderly fuel scope e w
    | .declare _ initial => orderly fuel scope initial w
    | .ret value => !value.breaksLine && orderly fuel scope value w
    | .branch condition body otherwise =>
      orderly fuel scope condition w &&
        decides (evaluate .python fuel scope condition w) fun b w =>
          if b then orderlyAll fuel scope body w
          else
            match otherwise with
            | none => true
            | some other => orderlyAll fuel scope other w
    | .loop condition body => orderlyWhile fuel scope condition body w
    | .doLoop condition body => orderlyUntil fuel scope condition body w
    | _ => true

/-- Whether the execution of statements is orderly, up to the first that jumps. -/
def orderlyAll : Nat → List Nat → List Stmt → World → Bool
  | 0, _, _, _ => true
  | _ + 1, _, [], _ => true
  | fuel + 1, scope, s :: rest, w =>
    orderlyStep fuel scope s w &&
      andThen (execute .python fuel scope s w) fun flow w =>
        match flow with
        | .normal => orderlyAll fuel scope rest w
        | _ => true

/-- Whether a loop with the test before its body is orderly. -/
def orderlyWhile : Nat → List Nat → Expr → List Stmt → World → Bool
  | 0, _, _, _, _ => true
  | fuel + 1, scope, condition, body, w =>
    orderly fuel scope condition w &&
      decides (evaluate .python fuel scope condition w) fun b w =>
        !b || orderlyAll fuel scope body w &&
          andThen (executeAll .python fuel scope body w) fun flow w =>
            match flow with
            | .returned _ | .left => true
            | _ => orderlyWhile fuel scope condition body w

/-- Whether a loop with the test after its body is orderly. -/
def orderlyUntil : Nat → List Nat → Expr → List Stmt → World → Bool
  | 0, _, _, _, _ => true
  | fuel + 1, scope, condition, body, w =>
    orderlyAll fuel scope body w &&
      andThen (executeAll .python fuel scope body w) fun flow w =>
        match flow with
        | .returned _ | .left => true
        | .next =>
          (!guarded ||
            orderly fuel scope condition w &&
              passesUnseen w (evaluate .python fuel scope condition w)) &&
            orderlyUntil fuel scope condition body w
        | .normal =>
          orderly fuel scope condition w &&
            decides (evaluate .python fuel scope condition w) fun b w =>
              !b || orderlyUntil fuel scope condition body w

end

end

/-- Whether the run of a script is orderly. -/
def Script.isOrderly (guarded : Bool) (s : Script) (environment : Environment) (console : Console) :
    Bool :=
  let start := (Stmt.allBound .python s.body).eraseDups.map fun n => (n, none)
  andThen (enter start { environment, console, activations := #[[]] }) fun i w =>
    orderlyAll guarded runFuel [i, 0] s.body w &&
      andThen (executeAll .python runFuel [i, 0] s.body w) fun flow w =>
        match flow with
        | .returned _ => true
        | _ =>
          let trap : Running Datum :=
            if s.trap then callCatalog .python "breakpoint" [] else pure (.value .void)
          andThen (trap w) fun _ w => orderly guarded runFuel [i, 0] s.entry w

/-! ## Steps as functions of the world -/

namespace Running

variable {α β : Type}

/-- A step and what follows it. -/
theorem bind_apply (m : Running α) (f : α → Running β) (w : World) :
    (m >>= f) w =
      match m w with
      | (.ok a, after) => f a after
      | (.error e, after) => (.error e, after) := by
  change ExceptT.bindCont f (m w).1 (m w).2 = _
  rcases m w with ⟨_ | _, _⟩ <;> rfl

theorem get_apply (w : World) : (get : Running World) w = (.ok w, w) := rfl

theorem set_apply (after w : World) : (set after : Running PUnit) w = (.ok ⟨⟩, after) := rfl

/-- What a call of the catalog amounts to, given the answer. -/
def answered (d : Dialect) (r : Except Interrupt Value × Console) (w : World) :
    Except Halt Datum × World :=
  match r with
  | (.ok v, console) => (.ok (d.incoming v), { w with console })
  | (.error i, console) => (.error (.interrupt i), { w with console })

theorem mapM_liftExcept_apply (d : Dialect) (args : List Argument) (w : World) :
    (args.mapM fun a => (callCatalog.liftExcept (d.outgoing a.datum) : Running Value)) w =
      (args.mapM fun a => d.outgoing a.datum, w) := by
  induction args with
  | nil => rfl
  | cons a args ih =>
    rw [List.mapM_cons, List.mapM_cons, bind_apply]
    cases d.outgoing a.datum with
    | error h => rfl
    | ok v =>
      change ((args.mapM fun a => (callCatalog.liftExcept (d.outgoing a.datum) : Running Value)) >>=
        fun values => pure (v :: values)) w = _
      rw [bind_apply, ih]
      cases args.mapM fun a => d.outgoing a.datum <;> rfl

/-- A call of the catalog as a function of the world. -/
theorem callCatalog_apply (d : Dialect) (member : String) (args : List Argument) (w : World) :
    callCatalog d member args w =
      if args.any fun a => a.name.isSome then (.error .scriptError, w)
      else
        match args.mapM fun a => d.outgoing a.datum with
        | .error h => (.error h, w)
        | .ok values => answered d (Catalog.call member values w.console) w := by
  unfold callCatalog
  split
  · rfl
  · dsimp only
    rw [bind_apply, mapM_liftExcept_apply]
    cases args.mapM fun a => d.outgoing a.datum with
    | error h => rfl
    | ok values =>
      dsimp only
      rw [bind_apply, get_apply]
      dsimp only
      rw [bind_apply, set_apply]
      rcases Catalog.call member values w.console with ⟨_ | _, _⟩ <;> rfl

/-- The datum that a name stands for, if it has one. -/
def datum? (w : World) (scope : List Nat) (name : String) : Option Datum :=
  match findActivation w name scope with
  | none => none
  | some i => ((w.activations.getD i []).lookup name).join

/-- Reading a variable of the script leaves the world as it is. -/
theorem readVariable_apply (scope : List Nat) (name : String) (w : World) :
    readVariable scope name w =
      match datum? w scope name with
      | some datum => (.ok datum, w)
      | none => (.error .scriptError, w) := by
  unfold readVariable datum?
  rw [bind_apply, get_apply]
  dsimp only
  cases findActivation w name scope with
  | none => rfl
  | some i =>
    dsimp only
    rcases (w.activations.getD i []).lookup name with _ | _ | _ <;> rfl

end Running

/-- Arguments that are no assignments are evaluated one by one. -/
theorem evaluateArguments_cons (d : Dialect) (fuel : Nat) (scope : List Nat) {e : Expr}
    (hwrite : ∀ name value, e ≠ .write (.binding name) value) (rest : List Expr) :
    evaluateArguments d (fuel + 1) scope (e :: rest) = (do
      let datum ← evaluate d fuel scope e
      let others ← evaluateArguments d fuel scope rest
      pure ({ datum } :: others)) := by
  simp only [evaluateArguments]
  split
  · exact absurd rfl (hwrite _ _)
  · rfl

/-- A choice whose condition is no assignment. -/
theorem evaluate_choose (d : Dialect) (fuel : Nat) (scope : List Nat) {condition : Expr}
    (h : d = .javaScript → ∀ name value, condition.pastComments ≠ .write (.binding name) value)
    (whenTrue whenFalse : Expr) :
    evaluate d (fuel + 1) scope (.choose condition whenTrue whenFalse) =
      evaluate d fuel scope condition >>= fun datum =>
        if d.isTrue datum then evaluate d fuel scope whenTrue
        else evaluate d fuel scope whenFalse := by
  simp only [evaluate]
  split
  · rename_i name value heq
    exact absurd heq (h rfl name value)
  · rfl

theorem readCallee_python (scope : List Nat) (callee : Slot) :
    readCallee .python scope callee = readSlot .python scope callee := by
  cases callee <;> rfl

end ShaderScript
