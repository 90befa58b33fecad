import Mathlib.Data.List.Basic
import Mathlib.Logic.Function.Basic

/-! Tasks on an event loop, and those that await them shielded. A task is done once; its callbacks are
scheduled then, and each runs some time later. -/
namespace LlmGateway.Lib.Futures

inductive Outcome (R E : Type) where
  | result (value : R)
  | exception (error : E)
  | cancelled
  deriving DecidableEq

/-- A future waits with its callbacks until it is done. -/
inductive Future (R E C : Type) where
  | pending (callbacks : List C)
  | done (outcome : Outcome R E)

def Future.outcome {R E C : Type} : Future R E C → Option (Outcome R E)
  | .pending _ => none
  | .done outcome => some outcome

@[simp, grind =] theorem Future.outcome_pending {R E C : Type} (callbacks : List C) :
    (Future.pending callbacks : Future R E C).outcome = none := rfl

@[simp, grind =] theorem Future.outcome_done {R E C : Type} (outcome : Outcome R E) :
    (Future.done outcome : Future R E C).outcome = some outcome := rfl

@[simp, grind =] theorem Future.outcome_eq_some {R E C : Type} {f : Future R E C} {outcome : Outcome R E} :
    f.outcome = some outcome ↔ f = .done outcome := by
  cases f <;> simp [Future.outcome]

/-- What the loop runs once a future is done: a program's own callback, the two that `shield` adds for
the waiter `w`, and the one that wakes it. -/
inductive Callback (W F : Type) where
  | own (callback : F)
  | innerDone (w : W)
  | outerDone (w : W)
  | wakeup (w : W)
  deriving DecidableEq

def Callback.waiter {W F : Type} : Callback W F → Option W
  | .own _ => none
  | .innerDone w | .outerDone w | .wakeup w => some w

/-- One `await asyncio.shield(task)`. -/
structure Waiter (T W F R E : Type) where
  task : T
  /-- What `shield` returns, and the waiter is suspended at. -/
  outer : Future R E (Callback W F)
  mustCancel : Bool
  /-- Whether its own task was ever asked to cancel here. -/
  cancelled : Bool
  received : Option (Outcome R E)

structure Loop (T W F R E : Type) where
  tasks : T → Option (Future R E (Callback W F))
  waiters : W → Option (Waiter T W F R E)
  ready : List (Callback W F)

namespace Loop
variable {T W F R E : Type}

def initial : Loop T W F R E := ⟨fun _ => none, fun _ => none, []⟩

section Steps
variable [DecidableEq T] [DecidableEq W] [DecidableEq F]

/-- `asyncio.ensure_future`, and `add_done_callback` for each of `callbacks`. -/
def start (l : Loop T W F R E) (t : T) (callbacks : List F) : Option (Loop T W F R E) :=
  match l.tasks t with
  | some _ => none
  | none => some { l with tasks := Function.update l.tasks t (some (.pending (callbacks.map .own))) }

/-- `await asyncio.shield(t)`: a task that is done answers at once. -/
def await (l : Loop T W F R E) (w : W) (t : T) : Option (Loop T W F R E) :=
  match l.waiters w, l.tasks t with
  | none, some (.pending callbacks) => some { l with
      tasks := Function.update l.tasks t (some (.pending (callbacks ++ [.innerDone w])))
      waiters := Function.update l.waiters w (some ⟨t, .pending [.outerDone w, .wakeup w], false, false, none⟩) }
  | none, some (.done outcome) => some { l with
      waiters := Function.update l.waiters w (some ⟨t, .done outcome, false, false, some outcome⟩) }
  | _, _ => none

/-- The task's coroutine returns or raises. -/
def complete (l : Loop T W F R E) (t : T) (outcome : Outcome R E) : Option (Loop T W F R E) :=
  match l.tasks t with
  | some (.pending callbacks) => some { l with
      tasks := Function.update l.tasks t (some (.done outcome))
      ready := l.ready ++ callbacks }
  | _ => none

/-- `Task.cancel` on the waiter's task, suspended here: the outer future is cancelled, or where it is
done already, the task when it wakes. -/
def cancel (l : Loop T W F R E) (w : W) : Option (Loop T W F R E) :=
  match l.waiters w with
  | some ⟨t, .pending callbacks, mustCancel, _, none⟩ => some { l with
      waiters := Function.update l.waiters w (some ⟨t, .done .cancelled, mustCancel, true, none⟩)
      ready := l.ready ++ callbacks }
  | some ⟨t, .done outcome, _, _, none⟩ => some { l with
      waiters := Function.update l.waiters w (some ⟨t, .done outcome, true, true, none⟩) }
  | _ => none

/-- A callback, off the queue. What a program's own does is the program's. -/
def call (l : Loop T W F R E) : Callback W F → Loop T W F R E
  | .own _ => l
  | .innerDone w =>
    match l.waiters w with
    | none => l
    | some waiter =>
      match waiter.outer, l.tasks waiter.task with
      | .pending callbacks, some (.done outcome) => { l with
          waiters := Function.update l.waiters w (some { waiter with outer := .done outcome })
          ready := l.ready ++ callbacks }
      -- a cancelled outer future is left as it is
      | _, _ => l
  | .outerDone w =>
    match l.waiters w with
    | none => l
    | some waiter =>
      match l.tasks waiter.task with
      | some (.pending callbacks) =>
        { l with tasks := Function.update l.tasks waiter.task (some (.pending (callbacks.filter (· ≠ .innerDone w)))) }
      | _ => l
  | .wakeup w =>
    match l.waiters w with
    | none => l
    | some waiter =>
      let received := if waiter.mustCancel then some .cancelled else waiter.outer.outcome
      { l with waiters := Function.update l.waiters w (some { waiter with received := received }) }

/-- The loop runs a callback that is ready. -/
def run (l : Loop T W F R E) (callback : Callback W F) : Option (Loop T W F R E) :=
  if callback ∈ l.ready then some ({ l with ready := l.ready.erase callback }.call callback) else none

end Steps

/-! ### What each step does -/

/-- What the task came to. -/
def outcome (l : Loop T W F R E) (t : T) : Option (Outcome R E) := (l.tasks t).bind Future.outcome

/-- The task waits, and will schedule the program's own callback. -/
def Holds (l : Loop T W F R E) (t : T) (f : F) : Prop :=
  ∃ callbacks, l.tasks t = some (.pending callbacks) ∧ .own f ∈ callbacks

/-- Each waiter is still there, awaits what it did, and is as cancelled as it was. -/
def Follows (l l' : Loop T W F R E) : Prop :=
  ∀ w waiter, l.waiters w = some waiter → ∃ waiter', l'.waiters w = some waiter' ∧ waiter'.task = waiter.task ∧
    waiter'.cancelled = waiter.cancelled

variable {l l' : Loop T W F R E} {t : T} {w : W} {o : Outcome R E}

section Tasks
variable [DecidableEq T]

theorem start_eq_some {callbacks : List F} : l.start t callbacks = some l' ↔ l.tasks t = none ∧
    l' = { l with tasks := Function.update l.tasks t (some (.pending (callbacks.map .own))) } := by
  cases ht : l.tasks t <;> simp [start, ht, eq_comm]

theorem complete_eq_some : l.complete t o = some l' ↔ ∃ callbacks, l.tasks t = some (.pending callbacks) ∧
    l' = ⟨Function.update l.tasks t (some (.done o)), l.waiters, l.ready ++ callbacks⟩ := by
  cases ht : l.tasks t with
  | none => simp [complete, ht]
  | some f => cases f <;> simp [complete, ht, eq_comm]

theorem start_spec {callbacks : List F} (step : l.start t callbacks = some l') :
    l.tasks t = none ∧ (∀ t', l'.tasks t' = none ↔ t' ≠ t ∧ l.tasks t' = none) ∧
      (∀ t', l'.outcome t' = l.outcome t') ∧
      (∀ t' f, l'.Holds t' f ↔ l.Holds t' f ∨ t' = t ∧ f ∈ callbacks) ∧ l'.ready = l.ready ∧
      l'.waiters = l.waiters := by
  obtain ⟨ht, rfl⟩ := start_eq_some.mp step
  refine ⟨ht, fun t' => ?_, fun t' => ?_, fun t' f => ?_, rfl, rfl⟩
  · by_cases heq : t' = t <;> simp [heq]
  · by_cases heq : t' = t <;> simp [Loop.outcome, heq, ht]
  · by_cases heq : t' = t <;> simp [Holds, heq, ht]

theorem complete_spec (step : l.complete t o = some l') :
    l.outcome t = none ∧ (∀ t', l'.tasks t' = none ↔ l.tasks t' = none) ∧
      (∀ t', l'.outcome t' = if t' = t then some o else l.outcome t') ∧
      (∀ t' f, l'.Holds t' f ↔ t' ≠ t ∧ l.Holds t' f) ∧
      (∀ f, .own f ∈ l'.ready ↔ .own f ∈ l.ready ∨ l.Holds t f) ∧ l'.waiters = l.waiters := by
  obtain ⟨callbacks, ht, rfl⟩ := complete_eq_some.mp step
  refine ⟨by simp [Loop.outcome, ht], fun t' => ?_, fun t' => ?_, fun t' f => ?_, fun f => ?_, rfl⟩
  · by_cases heq : t' = t <;> simp [heq, ht]
  · by_cases heq : t' = t <;> simp [Loop.outcome, heq]
  · by_cases heq : t' = t <;> simp [Holds, heq]
  · simp [Holds, ht]

end Tasks

section Waiters
variable [DecidableEq W]

theorem await_eq_some [DecidableEq T] : l.await w t = some l' ↔ l.waiters w = none ∧
    ((∃ callbacks, l.tasks t = some (.pending callbacks) ∧
      l' = ⟨Function.update l.tasks t (some (.pending (callbacks ++ [.innerDone w]))),
        Function.update l.waiters w (some ⟨t, .pending [.outerDone w, .wakeup w], false, false, none⟩), l.ready⟩) ∨
    ∃ outcome, l.tasks t = some (.done outcome) ∧
      l' = { l with waiters := Function.update l.waiters w (some ⟨t, .done outcome, false, false, some outcome⟩) }) := by
  cases hw : l.waiters w with
  | some waiter => simp [await, hw]
  | none =>
    cases ht : l.tasks t with
    | none => simp [await, hw, ht]
    | some f => cases f <;> simp [await, hw, ht, eq_comm]

theorem await_spec [DecidableEq T] (step : l.await w t = some l') : l.waiters w = none ∧ l.Follows l' ∧
    ∃ waiter, l'.waiters w = some waiter ∧ waiter.task = t ∧ waiter.cancelled = false := by
  obtain ⟨hw, ⟨callbacks, ht, rfl⟩ | ⟨outcome, ht, rfl⟩⟩ := await_eq_some.mp step
  · exact ⟨hw, fun w' waiter hw' => ⟨waiter, by grind, rfl, rfl⟩, _, Function.update_self .., rfl, rfl⟩
  · exact ⟨hw, fun w' waiter hw' => ⟨waiter, by grind, rfl, rfl⟩, _, Function.update_self .., rfl, rfl⟩

theorem cancel_eq_some : l.cancel w = some l' ↔ ∃ waiter, l.waiters w = some waiter ∧ waiter.received = none ∧
    ((∃ callbacks, waiter.outer = .pending callbacks ∧ l' = { l with
      waiters := Function.update l.waiters w (some { waiter with outer := .done .cancelled, cancelled := true })
      ready := l.ready ++ callbacks }) ∨
    ∃ outcome, waiter.outer = .done outcome ∧ l' = { l with
      waiters := Function.update l.waiters w (some { waiter with mustCancel := true, cancelled := true }) }) := by
  cases hw : l.waiters w with
  | none => simp [cancel, hw]
  | some waiter =>
    obtain ⟨t, outer, mustCancel, cancelled, received⟩ := waiter
    cases outer <;> cases received <;> simp [cancel, hw, eq_comm]

theorem cancel_spec (step : l.cancel w = some l') : (∀ w', w' ≠ w → l'.waiters w' = l.waiters w') ∧
    ∃ waiter waiter', l.waiters w = some waiter ∧ l'.waiters w = some waiter' ∧ waiter'.task = waiter.task := by
  obtain ⟨waiter, hw, -, ⟨callbacks, -, rfl⟩ | ⟨outcome, -, rfl⟩⟩ := cancel_eq_some.mp step
  · exact ⟨fun w' hne => Function.update_of_ne hne .., waiter, _, hw, Function.update_self .., rfl⟩
  · exact ⟨fun w' hne => Function.update_of_ne hne .., waiter, _, hw, Function.update_self .., rfl⟩

end Waiters

section Callbacks
variable [DecidableEq T] [DecidableEq W] [DecidableEq F]

theorem run_eq_some {callback : Callback W F} : l.run callback = some l' ↔
    callback ∈ l.ready ∧ l' = ({ l with ready := l.ready.erase callback } : Loop T W F R E).call callback := by
  simp [Loop.run, eq_comm]

theorem follows_run {callback : Callback W F} (step : l.run callback = some l') : l.Follows l' := by
  obtain ⟨-, rfl⟩ := run_eq_some.mp step
  intro w waiter hw
  cases callback with
  | own f => exact ⟨waiter, hw, rfl, rfl⟩
  | innerDone w' =>
    simp only [call]
    split
    · exact ⟨waiter, hw, rfl, rfl⟩
    · split <;> grind
  | outerDone w' =>
    simp only [call]
    split
    · exact ⟨waiter, hw, rfl, rfl⟩
    · split <;> exact ⟨waiter, hw, rfl, rfl⟩
  | wakeup w' =>
    simp only [call]
    split <;> grind

end Callbacks
end Loop
end LlmGateway.Lib.Futures
