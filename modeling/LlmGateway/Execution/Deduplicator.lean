import LlmGateway.Lib.Shield

/-! `deduplicator.py`: callers of one key share one operation, and whichever of them gives up, the others
receive what it comes to. -/
namespace LlmGateway.Execution
open Lib Lib.Futures

namespace Deduplicator

/-- `_forget`, the callback of a task it holds under a key. -/
structure Forget (T K : Type) where
  done : T
  key : K
  deriving DecidableEq

structure State (T W K R E : Type) where
  loop : Loop T W (Forget T K) R E
  inFlight : K → Option T
  /-- The key that each operation was started for. -/
  started : T → Option K

inductive Action (T W K R E : Type) where
  /-- The call `w` of `coalesce`. Its `operation()`, if it is called, is the task `t`, unless it raises.
  Either name is a new one. -/
  | coalesce (w : W) (key : K) (t : T) (raises : Option E)
  | complete (t : T) (outcome : Outcome R E)
  | cancel (w : W)
  | run (callback : Callback W (Forget T K))

variable {T W K R E : Type} [DecidableEq T] [DecidableEq W] [DecidableEq K]

namespace State

def initial : State T W K R E := ⟨.initial, fun _ => none, fun _ => none⟩

def coalesce (s : State T W K R E) (w : W) (key : K) (t : T) (raises : Option E) : Option (State T W K R E) :=
  match s.inFlight key with
  | some task => (s.loop.await w task).map fun loop => { s with loop }
  | none =>
    let started := Function.update s.started t (some key)
    match raises with
    | none => do
      let loop ← s.loop.start t [⟨t, key⟩]
      let loop ← loop.await w t
      some { loop, inFlight := Function.update s.inFlight key (some t), started }
    -- `operation()` itself raises: there is no task to keep, the operation is over as it begins
    | some error => do
      let loop ← s.loop.start t []
      let loop ← loop.complete t (.exception error)
      let loop ← loop.await w t
      some { s with loop, started }

/-- What `_forget` does. -/
def forget (s : State T W K R E) (f : Forget T K) : State T W K R E :=
  if s.inFlight f.key = some f.done then { s with inFlight := Function.update s.inFlight f.key none } else s

def step (s : State T W K R E) : Action T W K R E → Option (State T W K R E)
  | .coalesce w key t raises => s.coalesce w key t raises
  | .complete t outcome => (s.loop.complete t outcome).map fun loop => { s with loop }
  | .cancel w => (s.loop.cancel w).map fun loop => { s with loop }
  | .run callback =>
    (s.loop.run callback).map fun loop =>
      match callback with
      | .own f => { s with loop }.forget f
      | _ => { s with loop }

def run : State T W K R E → List (Action T W K R E) → Option (State T W K R E)
  | s, [] => some s
  | s, a :: actions => (s.step a).bind fun s' => s'.run actions

/-- An operation of `key` that has neither returned nor raised. -/
def Unfinished (s : State T W K R E) (key : K) (t : T) : Prop := s.started t = some key ∧ s.loop.outcome t = none

/-- What every reachable state keeps. -/
structure Tracks (s : State T W K R E) : Prop where
  sound : s.loop.Sound
  known : ∀ t, s.loop.tasks t ≠ none ↔ s.started t ≠ none
  unfinished : ∀ key t, s.Unfinished key t → s.inFlight key = some t ∧ s.loop.Holds t ⟨t, key⟩
  entry : ∀ key t, s.inFlight key = some t → s.started t = some key ∧
    (s.loop.outcome t = none ∨ .own ⟨t, key⟩ ∈ s.loop.ready)
  held : ∀ t f, s.loop.Holds t f → f.done = t ∧ s.started t = some f.key
  forgetting : ∀ f, .own f ∈ s.loop.ready → s.loop.outcome f.done ≠ none ∧ s.started f.done = some f.key

variable {s s' : State T W K R E} {w : W} {key : K} {t : T} {outcome : Outcome R E}
  {loop : Loop T W (Forget T K) R E}

theorem tracks_initial : (initial : State T W K R E).Tracks where
  sound := Loop.sound_initial
  known _ := by simp [initial, Loop.initial]
  unfinished _ _ h := by cases h.1
  entry _ _ h := by cases h
  held _ _ h := by
    obtain ⟨_, ht, -⟩ := h
    cases ht
  forgetting _ h := by cases h

theorem Tracks.unseen (h : s.Tracks) (sound : loop.Sound) (unseen : s.loop.Unseen loop) :
    ({ s with loop } : State T W K R E).Tracks where
  sound
  known t := (not_congr (unseen.known t)).trans (h.known t)
  unfinished key t live := by
    rw [Unfinished, unseen.outcome] at live
    obtain ⟨there, holds⟩ := h.unfinished key t live
    exact ⟨there, (unseen.holds ..).mpr holds⟩
  entry key t there := by
    rw [unseen.outcome, unseen.ready]
    exact h.entry key t there
  held t f holds := h.held t f ((unseen.holds ..).mp holds)
  forgetting f ready := by
    rw [unseen.outcome]
    exact h.forgetting f ((unseen.ready f).mp ready)

/-- A key without an entry has no unfinished operation, so one may begin. -/
theorem Tracks.begins (h : s.Tracks) (free : s.inFlight key = none) (start : s.loop.start t [⟨t, key⟩] = some loop) :
    ({ loop, inFlight := Function.update s.inFlight key (some t), started := Function.update s.started t (some key) } :
      State T W K R E).Tracks := by
  obtain ⟨new, known, outcomes, holds, ready, -⟩ := Loop.start_spec start
  have unstarted : s.started t = none := by
    by_contra started
    exact (h.known t).mpr started new
  have unfinished : loop.outcome t = none := by rw [outcomes, Loop.outcome, new]; rfl
  refine ⟨h.sound.start start, fun t' => ?_, fun key' t' live => ?_, fun key' t' there => ?_, fun t' f held => ?_,
    fun f scheduled => ?_⟩
  · have before := h.known t'
    grind
  · have before := h.unfinished key' t'
    grind [Unfinished]
  · have before := h.entry key' t'
    grind
  · have before := h.held t' f
    grind
  · have before := h.forgetting f
    grind

variable (key) in
/-- An operation that raises before it has become a task. -/
theorem Tracks.fails {loop' : Loop T W (Forget T K) R E} (h : s.Tracks) (start : s.loop.start t [] = some loop)
    (complete : loop.complete t outcome = some loop') :
    ({ s with loop := loop', started := Function.update s.started t (some key) } : State T W K R E).Tracks := by
  obtain ⟨new, known, outcomes, holds, ready, -⟩ := Loop.start_spec start
  obtain ⟨-, known', outcomes', holds', ready', -⟩ := Loop.complete_spec complete
  have unstarted : s.started t = none := by
    by_contra started
    exact (h.known t).mpr started new
  have unheld : ∀ f, ¬ s.loop.Holds t f := by
    rintro f ⟨callbacks, there, -⟩
    grind
  refine ⟨(h.sound.start start).complete complete, fun t' => ?_, fun key' t' live => ?_, fun key' t' there => ?_,
    fun t' f held => ?_, fun f scheduled => ?_⟩
  · have before := h.known t'
    grind
  · have before := h.unfinished key' t'
    grind [Unfinished]
  · have before := h.entry key' t'
    grind
  · have before := h.held t' f
    grind
  · have before := h.forgetting f
    grind

theorem Tracks.complete (h : s.Tracks) (complete : s.loop.complete t outcome = some loop) :
    ({ s with loop } : State T W K R E).Tracks := by
  obtain ⟨pending, known, outcomes, holds, ready, -⟩ := Loop.complete_spec complete
  refine ⟨h.sound.complete complete, fun t' => ?_, fun key' t' live => ?_, fun key' t' there => ?_, fun t' f held => ?_,
    fun f scheduled => ?_⟩
  · exact (not_congr (known t')).trans (h.known t')
  · have before := h.unfinished key' t'
    grind [Unfinished]
  · have before := h.entry key' t' there
    have waiting := h.unfinished key' t'
    grind [Unfinished]
  · exact h.held t' f ((holds t' f).mp held).2
  · have before := h.forgetting f
    have held := h.held t f
    grind

omit [DecidableEq W] in
theorem loop_forget (s : State T W K R E) (f : Forget T K) : (s.forget f).loop = s.loop := by
  unfold forget
  split <;> rfl

omit [DecidableEq W] in
theorem started_forget (s : State T W K R E) (f : Forget T K) : (s.forget f).started = s.started := by
  unfold forget
  split <;> rfl

/-- The callback of a finished operation takes out its own entry and no other. -/
theorem Tracks.inFlight_forget {f : Forget T K} (h : s.Tracks) (scheduled : .own f ∈ s.loop.ready)
    (loop : Loop T W (Forget T K) R E) (key' : K) (t' : T) :
    (({ s with loop } : State T W K R E).forget f).inFlight key' = some t' ↔
      s.inFlight key' = some t' ∧ t' ≠ f.done := by
  obtain ⟨finished, started⟩ := h.forgetting f scheduled
  have before := h.entry key' t'
  unfold forget
  split
  · by_cases heq : key' = f.key <;> grind
  · grind

theorem Tracks.forget {f : Forget T K} (h : s.Tracks) (run : s.loop.run (.own f) = some loop) :
    (({ s with loop } : State T W K R E).forget f).Tracks := by
  have sound := h.sound.run run
  obtain ⟨scheduled, rfl⟩ := Loop.run_eq_some.mp run
  have entries := h.inFlight_forget scheduled { s.loop with ready := s.loop.ready.erase (.own f) }
  obtain ⟨finished, started⟩ := h.forgetting f scheduled
  refine ⟨?_, fun t' => ?_, fun key' t' live => ?_, fun key' t' there => ?_, fun t' f' held => ?_,
    fun f' scheduled' => ?_⟩
  · rw [loop_forget]
    exact sound
  · rw [loop_forget, started_forget]
    exact h.known t'
  · rw [Unfinished, loop_forget, started_forget] at live
    obtain ⟨there, held⟩ := h.unfinished key' t' live
    rw [loop_forget]
    refine ⟨(entries key' t').mpr ⟨there, ?_⟩, held⟩
    rintro rfl
    exact finished live.2
  · obtain ⟨there, other⟩ := (entries key' t').mp there
    obtain ⟨started', before⟩ := h.entry key' t' there
    rw [loop_forget, started_forget]
    refine ⟨started', before.imp_right fun scheduled' => (List.mem_erase_of_ne ?_).mpr scheduled'⟩
    intro heq
    cases heq
    exact other rfl
  · rw [loop_forget] at held
    rw [started_forget]
    exact h.held t' f' held
  · rw [loop_forget] at scheduled'
    rw [loop_forget, started_forget]
    exact h.forgetting f' (List.mem_of_mem_erase scheduled')

/-- A call awaits what is in flight under its key, or else what it starts. -/
theorem coalesce_spec {raises : Option E} (step : s.coalesce w key t raises = some s') :
    ∃ loop, loop.await w ((s.inFlight key).getD t) = some s'.loop ∧
      ((∃ task, s.inFlight key = some task ∧ loop = s.loop ∧ s'.inFlight = s.inFlight ∧ s'.started = s.started) ∨
      (s.inFlight key = none ∧ s'.started = Function.update s.started t (some key) ∧
        ((s.loop.start t [⟨t, key⟩] = some loop ∧ s'.inFlight = Function.update s.inFlight key (some t)) ∨
        ∃ error before, raises = some error ∧ s.loop.start t [] = some before ∧
          before.complete t (.exception error) = some loop ∧ s'.inFlight = s.inFlight))) := by
  unfold State.coalesce at step
  cases there : s.inFlight key with
  | some task =>
    rw [there] at step
    obtain ⟨loop, await, rfl⟩ := Option.map_eq_some_iff.mp step
    exact ⟨s.loop, await, .inl ⟨task, rfl, rfl, rfl, rfl⟩⟩
  | none =>
    rw [there] at step
    cases raises with
    | none =>
      obtain ⟨loop, start, step⟩ := Option.bind_eq_some_iff.mp step
      obtain ⟨loop', await, step⟩ := Option.bind_eq_some_iff.mp step
      cases step
      exact ⟨loop, await, .inr ⟨rfl, rfl, .inl ⟨start, rfl⟩⟩⟩
    | some error =>
      obtain ⟨before, start, step⟩ := Option.bind_eq_some_iff.mp step
      obtain ⟨loop, complete, step⟩ := Option.bind_eq_some_iff.mp step
      obtain ⟨loop', await, step⟩ := Option.bind_eq_some_iff.mp step
      cases step
      exact ⟨loop, await, .inr ⟨rfl, rfl, .inr ⟨error, before, rfl, start, complete, rfl⟩⟩⟩

theorem Tracks.coalesce {raises : Option E} (h : s.Tracks) (step : s.coalesce w key t raises = some s') :
    s'.Tracks := by
  obtain ⟨loop', inFlight', started'⟩ := s'
  obtain ⟨loop, await, ⟨task, -, rfl, rfl, rfl⟩ |
    ⟨free, rfl, ⟨start, rfl⟩ | ⟨error, before, -, start, complete, rfl⟩⟩⟩ := coalesce_spec step
  · exact h.unseen (h.sound.await await) (Loop.unseen_await await)
  · have begun := h.begins free start
    exact begun.unseen (begun.sound.await await) (Loop.unseen_await await)
  · have failed := h.fails key start complete
    exact failed.unseen (failed.sound.await await) (Loop.unseen_await await)

/-- One case for each action. -/
theorem Tracks.step {a : Action T W K R E} (h : s.Tracks) (step : s.step a = some s') : s'.Tracks := by
  cases a with
  | coalesce w key t raises => exact h.coalesce step
  | complete t outcome =>
    obtain ⟨loop, complete, rfl⟩ := Option.map_eq_some_iff.mp step
    exact h.complete complete
  | cancel w =>
    obtain ⟨loop, cancel, rfl⟩ := Option.map_eq_some_iff.mp step
    exact h.unseen (h.sound.cancel cancel) (h.sound.unseen_cancel cancel).2
  | run callback =>
    obtain ⟨loop, run, rfl⟩ := Option.map_eq_some_iff.mp step
    cases callback with
    | own f => exact h.forget run
    | innerDone w | outerDone w | wakeup w => exact h.unseen (h.sound.run run) (h.sound.unseen_run run rfl)

theorem Tracks.run {actions : List (Action T W K R E)} (h : s.Tracks) (run : s.run actions = some s') : s'.Tracks := by
  induction actions generalizing s with
  | nil =>
    cases run
    exact h
  | cons a actions ih =>
    obtain ⟨s₁, step, run⟩ := Option.bind_eq_some_iff.mp run
    exact ih (h.step step) run

/-! ### What a run does to an operation and to a call -/

/-- What an operation has come to is its own doing: what it returned or raised. -/
theorem outcome_step {a : Action T W K R E} (h : s.Tracks) (step : s.step a = some s') (t : T) :
    s'.loop.outcome t = s.loop.outcome t ∨ s.loop.outcome t = none ∧ ∃ o, s'.loop.outcome t = some o ∧
      (a = .complete t o ∨ ∃ w key error, a = .coalesce w key t (some error) ∧ o = .exception error) := by
  cases a with
  | coalesce w key t' raises =>
    obtain ⟨loop, await, ⟨task, -, rfl, -⟩ | ⟨-, -, ⟨start, -⟩ | ⟨error, before, rfl, start, complete, -⟩⟩⟩ :=
      coalesce_spec step
    · exact .inl ((Loop.unseen_await await).outcome t)
    · exact .inl (((Loop.unseen_await await).outcome t).trans ((Loop.start_spec start).2.2.1 t))
    · have began := (Loop.start_spec start).2.2.1 t
      obtain ⟨pending, -, outcomes, -⟩ := Loop.complete_spec complete
      rw [(Loop.unseen_await await).outcome t, outcomes t, ← began]
      by_cases heq : t = t'
      · subst heq
        exact .inr ⟨pending, .exception error, if_pos rfl, .inr ⟨w, key, error, rfl, rfl⟩⟩
      · exact .inl (if_neg heq)
  | complete t' outcome =>
    obtain ⟨loop, complete, rfl⟩ := Option.map_eq_some_iff.mp step
    obtain ⟨pending, -, outcomes, -⟩ := Loop.complete_spec complete
    rw [outcomes t]
    by_cases heq : t = t'
    · subst heq
      exact .inr ⟨pending, outcome, if_pos rfl, .inl rfl⟩
    · exact .inl (if_neg heq)
  | cancel w =>
    obtain ⟨loop, cancel, rfl⟩ := Option.map_eq_some_iff.mp step
    exact .inl ((h.sound.unseen_cancel cancel).2.outcome t)
  | run callback =>
    obtain ⟨loop, run, rfl⟩ := Option.map_eq_some_iff.mp step
    cases callback with
    | own f =>
      obtain ⟨-, rfl⟩ := Loop.run_eq_some.mp run
      exact .inl (congrFun (congrArg Loop.outcome (loop_forget _ f)) t)
    | innerDone w | outerDone w | wakeup w => exact .inl ((h.sound.unseen_run run rfl).outcome t)

theorem outcome_run {actions : List (Action T W K R E)} (h : s.Tracks) (run : s.run actions = some s') {t : T}
    {o : Outcome R E} (ended : s'.loop.outcome t = some o) : s.loop.outcome t = some o ∨ .complete t o ∈ actions ∨
      ∃ w key error, .coalesce w key t (some error) ∈ actions ∧ o = .exception error := by
  induction actions generalizing s with
  | nil =>
    cases run
    exact .inl ended
  | cons a actions ih =>
    obtain ⟨s₁, step, run⟩ := Option.bind_eq_some_iff.mp run
    rcases ih (h.step step) run with earlier | completed | ⟨w, key, error, raised, rfl⟩
    · rcases outcome_step h step t with same | ⟨-, o', now, rfl | ⟨w, key, error, rfl, rfl⟩⟩
      · exact .inl (same ▸ earlier)
      · cases now.symm.trans earlier
        exact .inr (.inl List.mem_cons_self)
      · cases now.symm.trans earlier
        exact .inr (.inr ⟨w, key, error, List.mem_cons_self, rfl⟩)
    · exact .inr (.inl (List.mem_cons_of_mem _ completed))
    · exact .inr (.inr ⟨w, key, error, List.mem_cons_of_mem _ raised, rfl⟩)

/-- `w` awaits `task`, an operation of `key`, and is not cancelled unless `gone`. -/
def Awaits (s : State T W K R E) (w : W) (key : K) (task : T) (gone : Prop) : Prop :=
  s.started task = some key ∧ ∃ waiter, s.loop.waiters w = some waiter ∧ waiter.task = task ∧
    (waiter.cancelled = true → gone)

omit [DecidableEq T] [DecidableEq W] [DecidableEq K] in
theorem Awaits.follows {gone gone' : Prop} {task : T} (h : s.Awaits w key task gone) (follows : s.loop.Follows s'.loop)
    (known : s'.started task = s.started task) (later : gone → gone') : s'.Awaits w key task gone' := by
  obtain ⟨keyed, waiter, hw, awaits, calm⟩ := h
  obtain ⟨waiter', hw', awaits', calm'⟩ := follows w waiter hw
  exact ⟨known.trans keyed, waiter', hw', awaits'.trans awaits, fun cancelled => later (calm (calm' ▸ cancelled))⟩

/-- A task that is new has no key yet. -/
theorem Tracks.unstarted {callbacks : List (Forget T K)} (h : s.Tracks) (start : s.loop.start t callbacks = some loop) :
    s.started t = none := by
  by_contra started
  exact (h.known t).mpr started (Loop.start_spec start).1

theorem follows_coalesce {raises : Option E} (h : s.Tracks) (step : s.coalesce w key t raises = some s') :
    s.loop.Follows s'.loop ∧ ∀ task key', s.started task = some key' → s'.started task = s.started task := by
  have new : ∀ {callbacks loop}, s.loop.start t callbacks = some loop → ∀ task key', s.started task = some key' →
      Function.update s.started t (some key) task = s.started task := by
    intro callbacks loop start task key' keyed
    apply Function.update_of_ne
    rintro rfl
    cases keyed.symm.trans (h.unstarted start)
  obtain ⟨loop, await, ⟨task, -, rfl, -, heq⟩ | ⟨-, heq, ⟨start, -⟩ | ⟨error, before, -, start, complete, -⟩⟩⟩ :=
    coalesce_spec step
  · exact ⟨(Loop.await_spec await).2.1, fun _ _ _ => by rw [heq]⟩
  · obtain ⟨-, -, -, -, -, same⟩ := Loop.start_spec start
    have follows := (Loop.await_spec await).2.1
    rw [Loop.Follows, same] at follows
    exact ⟨follows, heq ▸ new start⟩
  · obtain ⟨-, -, -, -, -, same⟩ := Loop.start_spec start
    obtain ⟨-, -, -, -, -, same'⟩ := Loop.complete_spec complete
    have follows := (Loop.await_spec await).2.1
    rw [Loop.Follows, same', same] at follows
    exact ⟨follows, heq ▸ new start⟩

theorem Awaits.step {a : Action T W K R E} {gone : Prop} {task : T} (h : s.Tracks) (awaits : s.Awaits w key task gone)
    (step : s.step a = some s') : s'.Awaits w key task (gone ∨ a = .cancel w) := by
  cases a with
  | coalesce w' key' t raises =>
    obtain ⟨follows, known⟩ := follows_coalesce h step
    exact awaits.follows follows (known task key awaits.1) .inl
  | complete t outcome =>
    obtain ⟨loop, complete, rfl⟩ := Option.map_eq_some_iff.mp step
    obtain ⟨-, -, -, -, -, same⟩ := Loop.complete_spec complete
    exact awaits.follows (fun w waiter hw => ⟨waiter, same ▸ hw, rfl, rfl⟩) rfl .inl
  | cancel w' =>
    obtain ⟨loop, cancel, rfl⟩ := Option.map_eq_some_iff.mp step
    obtain ⟨others, old, new, hold, hnew, same⟩ := Loop.cancel_spec cancel
    obtain ⟨keyed, waiter, hw, awaited, calm⟩ := awaits
    by_cases heq : w = w'
    · subst heq
      cases hold.symm.trans hw
      exact ⟨keyed, new, hnew, same.trans awaited, fun _ => .inr rfl⟩
    · exact ⟨keyed, waiter, (others w heq).trans hw, awaited, fun cancelled => .inl (calm cancelled)⟩
  | run callback =>
    obtain ⟨loop, run, rfl⟩ := Option.map_eq_some_iff.mp step
    have follows := Loop.follows_run run
    cases callback with
    | own f =>
      apply awaits.follows _ _ .inl
      · rw [loop_forget]
        exact follows
      · rw [started_forget]
    | innerDone w | outerDone w | wakeup w => exact awaits.follows follows rfl .inl

theorem Awaits.run {actions : List (Action T W K R E)} {gone : Prop} {task : T} (h : s.Tracks)
    (awaits : s.Awaits w key task gone) (run : s.run actions = some s') :
    s'.Awaits w key task (gone ∨ .cancel w ∈ actions) := by
  induction actions generalizing s gone with
  | nil =>
    cases run
    exact awaits.follows (fun w waiter hw => ⟨waiter, hw, rfl, rfl⟩) rfl .inl
  | cons a actions ih =>
    obtain ⟨s₁, step, run⟩ := Option.bind_eq_some_iff.mp run
    apply (ih (h.step step) (awaits.step h step) run).follows (fun w waiter hw => ⟨waiter, hw, rfl, rfl⟩) rfl
    rintro ((gone | rfl) | later)
    · exact .inl gone
    · exact .inr List.mem_cons_self
    · exact .inr (List.mem_cons_of_mem _ later)

/-- The operation that a call joins, or starts. -/
theorem Tracks.awaits {raises : Option E} (h : s.Tracks) (step : s.step (.coalesce w key t raises) = some s') :
    s'.Awaits w key ((s.inFlight key).getD t) False := by
  obtain ⟨loop, await, cases⟩ := coalesce_spec step
  obtain ⟨-, -, waiter, hw, awaited, calm⟩ := Loop.await_spec await
  refine ⟨?_, waiter, hw, awaited, fun cancelled => by rw [calm] at cancelled; cases cancelled⟩
  rcases cases with ⟨task, there, -, -, heq⟩ | ⟨free, heq, -⟩
  · rw [there, heq]
    exact (h.entry key task there).1
  · rw [free, heq]
    exact Function.update_self ..

theorem run_append {before after : List (Action T W K R E)} :
    s.run (before ++ after) = (s.run before).bind (·.run after) := by
  induction before generalizing s with
  | nil => rfl
  | cons a before ih =>
    rw [List.cons_append, run, run, Option.bind_assoc]
    exact congrArg _ (funext fun s' => ih)

theorem loop_run {callback : Callback W (Forget T K)} (step : s.step (.run callback) = some s') :
    s.loop.run callback = some s'.loop := by
  obtain ⟨loop, run, rfl⟩ := Option.map_eq_some_iff.mp step
  cases callback with
  | own f => exact run.trans (congrArg some (loop_forget { s with loop } f).symm)
  | innerDone w | outerDone w | wakeup w => exact run

/-- Callbacks run out: each leaves less to run than there was. -/
theorem Tracks.runs_out {callbacks : List (Callback W (Forget T K))} (h : s.Tracks)
    (run : s.run (callbacks.map .run) = some s') : callbacks.length + s'.loop.work ≤ s.loop.work := by
  induction callbacks generalizing s with
  | nil =>
    cases run
    exact Nat.le_of_eq (Nat.zero_add _)
  | cons callback callbacks ih =>
    obtain ⟨s₁, step, run⟩ := Option.bind_eq_some_iff.mp run
    have rest := ih (h.step step) run
    have less := h.sound.work_run (loop_run step)
    rw [List.length_cons]
    omega

/-- The map holds exactly the unfinished operations, once no callback is left to run. -/
theorem Tracks.inFlight_iff (h : s.Tracks) (idle : s.loop.ready = []) (key : K) (t : T) :
    s.inFlight key = some t ↔ s.Unfinished key t := by
  constructor
  · intro there
    obtain ⟨keyed, live | scheduled⟩ := h.entry key t there
    · exact ⟨keyed, live⟩
    · rw [idle] at scheduled
      cases scheduled
  · exact fun live => (h.unfinished key t live).1

end State

/-- What holds after `actions`, of all that happened and of all that can happen next. -/
structure Coalesced (actions : List (Action T W K R E)) (s : State T W K R E) : Prop where
  single : ∀ key t t', s.Unfinished key t → s.Unfinished key t' → t = t'
  /-- Cancelling a caller leaves every operation as it is. -/
  shielded : ∀ w s', s.step (.cancel w) = some s' → s'.loop.tasks = s.loop.tasks ∧ s'.inFlight = s.inFlight
  /-- An operation comes to what it returns or raises itself. -/
  own : ∀ t o, s.loop.outcome t = some o → .complete t o ∈ actions ∨
    ∃ w key error, .coalesce w key t (some error) ∈ actions ∧ o = .exception error
  /-- Each call has joined what was in flight under its key, or else has started its own, and receives that
  operation's outcome unless it is cancelled. -/
  answered : ∀ before w key t raises after, actions = before ++ .coalesce w key t raises :: after →
    ∃ earlier task waiter, State.initial.run before = some earlier ∧ task = (earlier.inFlight key).getD t ∧
      s.started task = some key ∧ s.loop.waiters w = some waiter ∧ (.cancel w ∉ after →
        (∀ o, waiter.received = some o → s.loop.outcome task = some o) ∧
        (s.loop.ready = [] → waiter.received = s.loop.outcome task))
  forgets : ∀ f s', s.step (.run (.own f)) = some s' → s.loop.outcome f.done ≠ none ∧
    ∀ key t, s'.inFlight key = some t ↔ s.inFlight key = some t ∧ t ≠ f.done
  idle : s.loop.ready = [] → ∀ key t, s.inFlight key = some t ↔ s.Unfinished key t
  /-- Callbacks can always run, and there is an end to them. -/
  runs : ∀ callback ∈ s.loop.ready, s.step (.run callback) ≠ none
  runs_out : ∀ (callbacks : List (Callback W (Forget T K))) s', s.run (callbacks.map .run) = some s' →
    callbacks.length ≤ s.loop.work

theorem coalescing {actions : List (Action T W K R E)} {s : State T W K R E}
    (reached : State.initial.run actions = some s) : Coalesced actions s := by
  have tracks := State.tracks_initial.run reached
  refine ⟨fun key t t' live live' => ?_, fun w s' step => ?_, fun t o ended => ?_,
    fun before w key t raises after heq => ?_, fun f s' step => ?_, tracks.inFlight_iff, fun callback ready => ?_,
    fun callbacks s' run => ?_⟩
  · have there := (tracks.unfinished key t live).1
    have there' := (tracks.unfinished key t' live').1
    exact Option.some.inj (there.symm.trans there')
  · obtain ⟨loop, cancel, rfl⟩ := Option.map_eq_some_iff.mp step
    exact ⟨(tracks.sound.unseen_cancel cancel).1, rfl⟩
  · rcases State.outcome_run State.tracks_initial reached ended with impossible | own
    · cases impossible
    · exact own
  · rw [heq, State.run_append] at reached
    obtain ⟨earlier, reached, run⟩ := Option.bind_eq_some_iff.mp reached
    obtain ⟨called, step, run⟩ := Option.bind_eq_some_iff.mp run
    have tracks' := State.tracks_initial.run reached
    obtain ⟨keyed, waiter, hw, awaits, calm⟩ := (tracks'.awaits step).run (tracks'.step step) run
    refine ⟨earlier, _, waiter, reached, rfl, keyed, hw, fun uncancelled => ?_⟩
    rw [← awaits]
    apply tracks.sound.received hw
    rw [← Bool.not_eq_true]
    intro cancelled
    rcases calm cancelled with impossible | later
    · exact impossible
    · exact uncancelled later
  · obtain ⟨loop, run, rfl⟩ := Option.map_eq_some_iff.mp step
    have scheduled := (Loop.run_eq_some.mp run).1
    exact ⟨(tracks.forgetting f scheduled).1, tracks.inFlight_forget scheduled loop⟩
  · intro stuck
    have called := Option.map_eq_none_iff.mp stuck
    rw [Loop.run, if_pos ready] at called
    cases called
  · have bound := tracks.runs_out run
    omega

/-- One caller gives up and another joins; a third comes after the operation has ended and before it is
forgotten, and a fourth after that. -/
theorem coalescing_late :
    ∃ s : State Nat Nat Nat Nat Nat, State.initial.run
      [.coalesce 0 7 0 none, .coalesce 1 7 9 none, .cancel 0, .complete 0 (.result 5), .coalesce 2 7 9 none,
        .run (.own ⟨0, 7⟩), .coalesce 3 7 1 none, .run (.wakeup 0), .run (.innerDone 1), .run (.wakeup 1)] = some s ∧
      (s.loop.waiters 0).map Waiter.received = some (some .cancelled) ∧
      (s.loop.waiters 1).map Waiter.received = some (some (.result 5)) ∧
      (s.loop.waiters 2).map Waiter.received = some (some (.result 5)) ∧ s.Unfinished 7 1 ∧
      Coalesced [.coalesce 0 7 0 none, .coalesce 1 7 9 none, .cancel 0, .complete 0 (.result 5), .coalesce 2 7 9 none,
        .run (.own ⟨0, 7⟩), .coalesce 3 7 1 none, .run (.wakeup 0), .run (.innerDone 1), .run (.wakeup 1)] s :=
  ⟨_, rfl, rfl, rfl, rfl, ⟨rfl, rfl⟩, coalescing rfl⟩

end Deduplicator
end LlmGateway.Execution
