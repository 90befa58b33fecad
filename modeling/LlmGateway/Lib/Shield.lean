import LlmGateway.Lib.Futures
import Mathlib

/-! Those that await a task shielded: whatever becomes of the others, each receives what the task comes
to unless it is cancelled itself, and none of them ever touches the task. -/
namespace LlmGateway.Lib.Futures

/-- What a waiter is in when a callback of its own is called. -/
def Waiter.Calls {T W F R E : Type} (tasks : T → Option (Future R E (Callback W F)))
    (waiter : Waiter T W F R E) : Callback W F → Prop
  | .own _ => True
  -- so that no outcome is ever set a second time, which would raise
  | .innerDone _ => (∃ outcome, tasks waiter.task = some (.done outcome)) ∧
      ∀ outcome, waiter.outer = .done outcome → outcome = .cancelled
  | .outerDone _ => waiter.outer.outcome ≠ none
  | .wakeup _ => waiter.outer.outcome ≠ none ∧ waiter.received = none

theorem Waiter.Calls.mono {T W F R E : Type} {tasks tasks' : T → Option (Future R E (Callback W F))}
    {waiter : Waiter T W F R E} {callback : Callback W F} (h : waiter.Calls tasks callback)
    (done : ∀ outcome, tasks waiter.task = some (.done outcome) → tasks' waiter.task = some (.done outcome)) :
    waiter.Calls tasks' callback := by
  cases callback with
  | own | outerDone | wakeup => exact h
  | innerDone =>
    obtain ⟨⟨outcome, ht⟩, settled⟩ := h
    exact ⟨⟨outcome, done outcome ht⟩, settled⟩

namespace Loop
variable {T W F R E : Type} [DecidableEq W] [DecidableEq F] {l l' : Loop T W F R E} {t : T} {w : W}
  {waiter : Waiter T W F R E} {o : Outcome R E}

/-! ### What every reachable loop keeps -/

/-- A waiter is suspended with its task, or about to wake, or has received. -/
structure Kept (l : Loop T W F R E) (w : W) (waiter : Waiter T W F R E) : Prop where
  task : l.tasks waiter.task ≠ none
  suspended : ∀ callbacks, waiter.outer = .pending callbacks →
    waiter.received = none ∧ callbacks = [.outerDone w, .wakeup w] ∧
      (∀ inner, l.tasks waiter.task = some (.pending inner) → .innerDone w ∈ inner) ∧
      (∀ outcome, l.tasks waiter.task = some (.done outcome) → .innerDone w ∈ l.ready)
  waking : ∀ outcome, waiter.outer = .done outcome → waiter.received = none → .wakeup w ∈ l.ready
  exact : ∀ outcome, waiter.outer = .done outcome →
    l.tasks waiter.task = some (.done outcome) ∨ outcome = .cancelled ∧ waiter.cancelled = true
  mustCancel : waiter.mustCancel = true → waiter.cancelled = true
  received : ∀ outcome, waiter.received = some outcome → waiter.cancelled = false →
    l.tasks waiter.task = some (.done outcome)

omit [DecidableEq W] [DecidableEq F] in
/-- What a step leaves of a waiter that it does not touch: the callbacks still to come for it stay. -/
theorem Kept.frame (before : l.Kept w waiter) (known : l'.tasks waiter.task ≠ none)
    (done : ∀ outcome, l'.tasks waiter.task = some (.done outcome) ↔ l.tasks waiter.task = some (.done outcome))
    (held : ∀ inner', l'.tasks waiter.task = some (.pending inner') →
      ∃ inner, l.tasks waiter.task = some (.pending inner) ∧ (.innerDone w ∈ inner → .innerDone w ∈ inner'))
    (innerDone : .innerDone w ∈ l.ready → .innerDone w ∈ l'.ready)
    (wakeup : .wakeup w ∈ l.ready → .wakeup w ∈ l'.ready) : l'.Kept w waiter where
  task := known
  suspended callbacks houter := by
    obtain ⟨waits, heq, inner, ready⟩ := before.suspended callbacks houter
    refine ⟨waits, heq, fun inner' ht => ?_, fun outcome ht => innerDone (ready outcome ((done outcome).mp ht))⟩
    obtain ⟨callbacks', ht', stays⟩ := held inner' ht
    exact stays (inner callbacks' ht')
  waking outcome houter waits := wakeup (before.waking outcome houter waits)
  exact outcome houter := (before.exact outcome houter).imp (done outcome).mpr id
  mustCancel := before.mustCancel
  received outcome received calm := (done outcome).mpr (before.received outcome received calm)

omit [DecidableEq W] [DecidableEq F] in
/-- The same where the step leaves its task alone. -/
theorem Kept.frame_task (before : l.Kept w waiter) (task : l'.tasks waiter.task = l.tasks waiter.task)
    (innerDone : .innerDone w ∈ l.ready → .innerDone w ∈ l'.ready)
    (wakeup : .wakeup w ∈ l.ready → .wakeup w ∈ l'.ready) : l'.Kept w waiter := by
  refine before.frame ?_ (fun outcome => ?_) (fun inner ht => ?_) innerDone wakeup
  · rw [task]
    exact before.task
  · rw [task]
  · rw [task] at ht
    exact ⟨inner, ht, id⟩

def Callable (l : Loop T W F R E) (callback : Callback W F) : Prop :=
  ∀ w, callback.waiter = some w → ∃ waiter, l.waiters w = some waiter ∧ waiter.Calls l.tasks callback

/-- Sound, but for what is kept of the waiter whose callback is running. -/
structure SoundBut (running : Option W) (l : Loop T W F R E) : Prop where
  kept : ∀ w waiter, running ≠ some w → l.waiters w = some waiter → l.Kept w waiter
  callable : ∀ callback ∈ l.ready, l.Callable callback
  once : ∀ callback : Callback W F, callback.waiter ≠ none → l.ready.count callback ≤ 1
  inner : ∀ t callbacks, l.tasks t = some (.pending callbacks) → ∀ callback ∈ callbacks, callback.waiter ≠ none →
    callbacks.count callback ≤ 1 ∧ ∃ w waiter, callback = .innerDone w ∧ l.waiters w = some waiter ∧ waiter.task = t

def Sound (l : Loop T W F R E) : Prop := l.SoundBut none

theorem sound_initial : (initial : Loop T W F R E).Sound where
  kept _ _ _ h := by cases h
  callable _ h := by cases h
  once _ _ := Nat.zero_le 1
  inner _ _ h := by cases h

/-- Nothing is scheduled for a waiter that is not there. -/
theorem SoundBut.fresh {running : Option W} (h : l.SoundBut running) (hw : l.waiters w = none) :
    ∀ callback ∈ l.ready, callback.waiter ≠ some w := by
  intro callback hm hown
  obtain ⟨waiter, there, -⟩ := h.callable callback hm w hown
  grind

theorem SoundBut.calls {running : Option W} (h : l.SoundBut running) (hw : l.waiters w = some waiter) :
    ∀ callback ∈ l.ready, callback.waiter = some w → waiter.Calls l.tasks callback := by
  intro callback hm hown
  obtain ⟨waiter', hw', called⟩ := h.callable callback hm w hown
  cases hw.symm.trans hw'
  exact called

/-- Another record for the waiter `w`, and its callbacks scheduled. -/
theorem SoundBut.set_waiter (more : List (Callback W F)) (h : l.SoundBut (some w))
    (heq : l' = ⟨l.tasks, Function.update l.waiters w (some waiter), l.ready ++ more⟩) (kept : l'.Kept w waiter)
    (own : ∀ callback ∈ l.ready ++ more, callback.waiter = some w → waiter.Calls l.tasks callback)
    (only : ∀ callback ∈ more, callback.waiter = some w ∧ callback ∉ l.ready) (nodup : more.Nodup)
    (same : ∀ old, l.waiters w = some old → waiter.task = old.task) : l'.Sound := by
  subst heq
  constructor
  · intro w' waiter' _ hw'
    by_cases heq : w' = w
    · subst heq
      cases (Function.update_self ..).symm.trans hw'
      exact kept
    · have before := h.kept w' waiter' (fun same => heq (Option.some.inj same).symm)
        ((Function.update_of_ne heq ..).symm.trans hw')
      exact before.frame_task rfl (List.mem_append_left more) (List.mem_append_left more)
  · intro callback hm w' hown
    by_cases heq : w' = w
    · subst heq
      exact ⟨waiter, Function.update_self .., own callback hm hown⟩
    · obtain ⟨waiter', hw', called⟩ := h.callable callback (by grind) w' hown
      exact ⟨waiter', by grind, called⟩
  · intro callback hown
    rw [List.count_append]
    by_cases hm : callback ∈ more
    · rw [List.count_eq_zero_of_not_mem (only callback hm).2, Nat.zero_add]
      exact List.nodup_iff_count_le_one.mp nodup callback
    · rw [List.count_eq_zero_of_not_mem hm]
      exact h.once callback hown
  · intro t callbacks ht callback hm hown
    have held := h.inner t callbacks ht callback hm hown
    grind

theorem Sound.keeps (h : l.Sound) (hw : l.waiters w = some waiter) : l.Kept w waiter :=
  h.kept w waiter (Option.some_ne_none w).symm hw

theorem Sound.but (h : l.Sound) : l.SoundBut (some w) :=
  ⟨fun _ _ _ => h.keeps, h.callable, h.once, h.inner⟩

theorem SoundBut.resume (h : l.SoundBut (some w)) (hw : l.waiters w = some waiter) (kept : l.Kept w waiter) :
    l.Sound := by
  refine ⟨fun w' waiter' _ hw' => ?_, h.callable, h.once, h.inner⟩
  by_cases heq : w' = w
  · subst heq
    cases hw.symm.trans hw'
    exact kept
  · exact h.kept w' waiter' (by grind) hw'

/-- A waiter that is not cancelled receives what its task came to, once no callback is left to run. -/
theorem Sound.received (h : l.Sound) (hw : l.waiters w = some waiter) (calm : waiter.cancelled = false) :
    (∀ outcome, waiter.received = some outcome → l.outcome waiter.task = some outcome) ∧
      (l.ready = [] → waiter.received = l.outcome waiter.task) := by
  have kept := h.keeps hw
  have exact : ∀ outcome, waiter.received = some outcome → l.outcome waiter.task = some outcome := by
    intro outcome received
    rw [Loop.outcome, kept.received outcome received calm]
    rfl
  refine ⟨exact, fun idle => ?_⟩
  cases received : waiter.received with
  | some outcome => exact (exact outcome received).symm
  | none =>
    cases houter : waiter.outer with
    | done outcome => exact absurd (kept.waking outcome houter received) (by rw [idle]; exact List.not_mem_nil)
    | pending callbacks =>
      cases ht : l.tasks waiter.task with
      | none => exact absurd ht kept.task
      | some f =>
        cases f with
        | pending inner => simp [Loop.outcome, ht]
        | done outcome =>
          have ready := (kept.suspended callbacks houter).2.2.2 outcome ht
          rw [idle] at ready
          cases ready

/-- The tasks and the program's own callbacks are as they were: all that has changed is about waiters. -/
structure Unseen (l l' : Loop T W F R E) : Prop where
  known : ∀ t, l'.tasks t = none ↔ l.tasks t = none
  outcome : ∀ t, l'.outcome t = l.outcome t
  holds : ∀ t f, l'.Holds t f ↔ l.Holds t f
  ready : ∀ f, .own f ∈ l'.ready ↔ .own f ∈ l.ready

/-! ### Each step -/

theorem Sound.cancel (h : l.Sound) (step : l.cancel w = some l') : l'.Sound := by
  obtain ⟨waiter, hw, waits, ⟨callbacks, houter, rfl⟩ | ⟨outcome, houter, rfl⟩⟩ := cancel_eq_some.mp step
  · have before := h.keeps hw
    obtain ⟨-, rfl, -⟩ := before.suspended callbacks houter
    have called := h.calls hw
    apply h.but.set_waiter _ rfl
    · constructor <;> grind [Kept]
    · intro callback hm hown
      have earlier := called callback
      cases callback <;> grind [Waiter.Calls, Callback.waiter]
    · intro callback hm
      have earlier := called callback
      cases callback <;> grind [Waiter.Calls, Callback.waiter]
    · simp
    · grind
  · have before := h.keeps hw
    apply h.but.set_waiter [] (by rw [List.append_nil])
    · constructor <;> grind [Kept]
    · intro callback hm hown
      have called := h.calls hw callback (List.append_nil l.ready ▸ hm) hown
      cases callback <;> exact called
    · exact fun _ hm => absurd hm List.not_mem_nil
    · exact List.nodup_nil
    · grind

theorem Sound.unseen_cancel (h : l.Sound) (step : l.cancel w = some l') : l'.tasks = l.tasks ∧ l.Unseen l' := by
  obtain ⟨waiter, hw, -, ⟨callbacks, houter, rfl⟩ | ⟨outcome, -, rfl⟩⟩ := cancel_eq_some.mp step
  · obtain ⟨-, rfl, -⟩ := (h.keeps hw).suspended callbacks houter
    exact ⟨rfl, fun _ => Iff.rfl, fun _ => rfl, fun _ _ => Iff.rfl, fun f => by simp⟩
  · exact ⟨rfl, fun _ => Iff.rfl, fun _ => rfl, fun _ _ => Iff.rfl, fun _ => Iff.rfl⟩

/-- A callback is off the queue when it is called. -/
theorem Sound.erase {callback : Callback W F} (h : l.Sound) (hm : callback ∈ l.ready) :
    ({ l with ready := l.ready.erase callback } : Loop T W F R E).SoundBut callback.waiter ∧
      (callback.waiter ≠ none → callback ∉ l.ready.erase callback) := by
  constructor
  · constructor
    · intro w waiter hother hw
      have before := h.keeps hw
      have others : ∀ c : Callback W F, c.waiter = some w → (c ∈ l.ready.erase callback ↔ c ∈ l.ready) := by
        intro c hc
        apply List.mem_erase_of_ne
        rintro rfl
        exact hother hc
      exact before.frame_task rfl (others (.innerDone w) rfl).mpr (others (.wakeup w) rfl).mpr
    · intro c hc
      exact h.callable c (List.mem_of_mem_erase hc)
    · intro c hown
      exact Nat.le_trans (List.erase_sublist.count_le c) (h.once c hown)
    · exact h.inner
  · intro hown there
    have twice := List.count_pos_iff.mpr there
    rw [List.count_erase_self] at twice
    have single := h.once callback hown
    omega

variable [DecidableEq T]

theorem Sound.start {callbacks : List F} (h : l.Sound) (step : l.start t callbacks = some l') : l'.Sound := by
  obtain ⟨ht, rfl⟩ := start_eq_some.mp step
  constructor
  · intro w waiter _ hw
    have before := h.keeps hw
    have other : waiter.task ≠ t := fun heq => before.task (heq ▸ ht)
    exact before.frame_task (Function.update_of_ne other ..) id id
  · intro callback hm w hown
    obtain ⟨waiter, hw, called⟩ := h.callable callback hm w hown
    exact ⟨waiter, hw, called.mono (by grind)⟩
  · exact h.once
  · intro t' callbacks' ht'
    have held := h.inner t' callbacks'
    grind [Callback.waiter]

theorem Sound.complete (h : l.Sound) (step : l.complete t o = some l') : l'.Sound := by
  obtain ⟨callbacks, ht, rfl⟩ := complete_eq_some.mp step
  have held := h.inner t callbacks ht
  constructor
  · intro w waiter _ hw
    have before := h.keeps hw
    have suspended := before.suspended
    by_cases heq : waiter.task = t
    · constructor <;> grind [Kept]
    · exact before.frame_task (Function.update_of_ne heq ..) (List.mem_append_left callbacks)
        (List.mem_append_left callbacks)
  · intro callback hm w hown
    rcases List.mem_append.mp hm with hm | hm
    · obtain ⟨waiter, hw, called⟩ := h.callable callback hm w hown
      exact ⟨waiter, hw, called.mono (by grind)⟩
    · obtain ⟨-, w', waiter, rfl, hw, rfl⟩ := held callback hm (by grind)
      cases hown
      have before := h.keeps hw
      refine ⟨waiter, hw, ⟨o, Function.update_self ..⟩, fun outcome houter => ?_⟩
      rcases before.exact outcome houter with done | ⟨rfl, -⟩
      · cases ht.symm.trans done
      · rfl
  · intro callback hown
    rw [List.count_append]
    by_cases hm : callback ∈ callbacks
    · obtain ⟨single, w, waiter, rfl, hw, rfl⟩ := held callback hm hown
      have unscheduled : .innerDone w ∉ l.ready := by
        intro there
        obtain ⟨waiter', hw', ⟨outcome', ht'⟩, -⟩ := h.callable _ there w rfl
        grind
      rw [List.count_eq_zero_of_not_mem unscheduled]
      omega
    · rw [List.count_eq_zero_of_not_mem hm]
      exact h.once callback hown
  · intro t' callbacks' ht'
    have held' := h.inner t' callbacks'
    grind

theorem Sound.await (h : l.Sound) (step : l.await w t = some l') : l'.Sound := by
  obtain ⟨hw, ⟨callbacks, ht, rfl⟩ | ⟨outcome, ht, rfl⟩⟩ := await_eq_some.mp step
  · have unscheduled := h.fresh hw
    have unheld : ∀ t callbacks, l.tasks t = some (.pending callbacks) → .innerDone w ∉ callbacks := by
      intro t callbacks ht hm
      obtain ⟨-, w', waiter, heq, hw', -⟩ := h.inner t callbacks ht _ hm (Option.some_ne_none w)
      grind
    constructor
    · intro w' waiter _ hw'
      by_cases heq : w' = w
      · subst heq
        cases (Function.update_self ..).symm.trans hw'
        constructor <;> grind
      · have before := h.keeps ((Function.update_of_ne heq ..).symm.trans hw')
        by_cases same : waiter.task = t
        · subst same
          refine before.frame ?_ (fun outcome => ?_) (fun inner ht' => ⟨callbacks, ht, ?_⟩) id id
          · simp
          · simp [ht]
          · cases (Function.update_self ..).symm.trans ht'
            exact List.mem_append_left _
        · exact before.frame_task (Function.update_of_ne same ..) id id
    · intro callback hm w' hown
      obtain ⟨waiter, hw', called⟩ := h.callable callback hm w' hown
      exact ⟨waiter, by grind, called.mono (by grind)⟩
    · exact h.once
    · intro t' callbacks' ht' callback hm hown
      by_cases heq : t' = t
      · subst heq
        cases (Function.update_self ..).symm.trans ht'
        rcases List.mem_append.mp hm with hm | hm
        · have held := h.inner t' _ ht callback hm hown
          grind
        · grind
      · have held := h.inner t' callbacks'
        grind
  · apply h.but.set_waiter [] (by rw [List.append_nil])
    · constructor <;> grind
    · intro callback hm hown
      exact absurd hown (h.fresh hw callback (List.append_nil l.ready ▸ hm))
    · exact fun _ hm => absurd hm List.not_mem_nil
    · exact List.nodup_nil
    · grind

omit [DecidableEq F] in
theorem unseen_await (step : l.await w t = some l') : l.Unseen l' := by
  obtain ⟨-, ⟨callbacks, ht, rfl⟩ | ⟨outcome, ht, rfl⟩⟩ := await_eq_some.mp step
  · refine ⟨fun t' => ?_, fun t' => ?_, fun t' f => ?_, fun f => Iff.rfl⟩
    · by_cases heq : t' = t <;> simp [heq, ht]
    · by_cases heq : t' = t <;> simp [Loop.outcome, heq, ht]
    · by_cases heq : t' = t <;> simp [Holds, heq, ht]
  · exact ⟨fun _ => Iff.rfl, fun _ => rfl, fun _ _ => Iff.rfl, fun _ => Iff.rfl⟩

theorem Sound.innerDone (h : l.Sound) (ready : .innerDone w ∈ l.ready) :
    (({ l with ready := l.ready.erase (.innerDone w) } : Loop T W F R E).call (.innerDone w)).Sound := by
  obtain ⟨but, gone⟩ := h.erase ready
  obtain ⟨waiter, hw, ⟨outcome, ht⟩, settled⟩ := h.callable _ ready w rfl
  have before := h.keeps hw
  have called := but.calls hw
  cases houter : waiter.outer with
  | done outcome' =>
    simp only [call, hw, houter]
    have wakeup : (.wakeup w : Callback W F) ∈ l.ready.erase (.innerDone w) ↔ .wakeup w ∈ l.ready :=
      List.mem_erase_of_ne (by simp)
    apply but.resume hw
    constructor <;> grind [Kept]
  | pending callbacks =>
    obtain ⟨waits, rfl, -⟩ := before.suspended callbacks houter
    simp only [call, hw, houter, ht]
    apply but.set_waiter _ rfl
    · constructor <;> grind [Kept]
    · intro callback hm hown
      have earlier := called callback
      have gone := gone (Option.some_ne_none w)
      cases callback <;> grind [Waiter.Calls, Callback.waiter]
    · intro callback hm
      have earlier := called callback
      cases callback <;> grind [Waiter.Calls, Callback.waiter]
    · simp
    · grind

theorem Sound.outerDone (h : l.Sound) (ready : .outerDone w ∈ l.ready) :
    (({ l with ready := l.ready.erase (.outerDone w) } : Loop T W F R E).call (.outerDone w)).Sound := by
  obtain ⟨but, -⟩ := h.erase ready
  obtain ⟨waiter, hw, settled⟩ := h.callable _ ready w rfl
  have before := h.keeps hw
  have inner : (.innerDone w : Callback W F) ∈ l.ready.erase (.outerDone w) ↔ .innerDone w ∈ l.ready :=
    List.mem_erase_of_ne (by simp)
  have wakeup : (.wakeup w : Callback W F) ∈ l.ready.erase (.outerDone w) ↔ .wakeup w ∈ l.ready :=
    List.mem_erase_of_ne (by simp)
  have sound : ({ l with ready := l.ready.erase (.outerDone w) } : Loop T W F R E).Sound :=
    but.resume hw (before.frame_task rfl inner.mpr wakeup.mpr)
  cases ht : l.tasks waiter.task with
  | none => exact absurd ht before.task
  | some f =>
    cases f with
    | done outcome =>
      simp only [call, hw, ht]
      exact sound
    | pending callbacks =>
      simp only [call, hw, ht]
      constructor
      · intro w' waiter' _ hw'
        have kept := sound.keeps hw'
        by_cases heq : w' = w
        · subst heq
          cases hw.symm.trans hw'
          constructor <;> grind [Kept, Waiter.Calls]
        · by_cases same : waiter'.task = waiter.task
          · refine kept.frame ?_ (fun outcome => ?_) (fun inner ht' => ⟨callbacks, same ▸ ht, ?_⟩) id id
            · simp [same]
            · simp [same, ht]
            · rw [same] at ht'
              cases (Function.update_self ..).symm.trans ht'
              exact fun stays => List.mem_filter.mpr ⟨stays, by simp [heq]⟩
          · exact kept.frame_task (Function.update_of_ne same ..) id id
      · intro callback hm w' hown
        obtain ⟨waiter', hw', called⟩ := sound.callable callback hm w' hown
        exact ⟨waiter', hw', called.mono (by grind)⟩
      · exact sound.once
      · intro t callbacks' ht' callback hm hown
        by_cases heq : t = waiter.task
        · subst heq
          cases (Function.update_self ..).symm.trans ht'
          obtain ⟨single, held⟩ := h.inner _ callbacks ht callback (List.mem_of_mem_filter hm) hown
          exact ⟨Nat.le_trans (List.filter_sublist.count_le callback) single, held⟩
        · exact h.inner t callbacks' (by grind) callback hm hown

theorem Sound.wakeup (h : l.Sound) (ready : .wakeup w ∈ l.ready) :
    (({ l with ready := l.ready.erase (.wakeup w) } : Loop T W F R E).call (.wakeup w)).Sound := by
  obtain ⟨but, gone⟩ := h.erase ready
  obtain ⟨waiter, hw, settled, waits⟩ := h.callable _ ready w rfl
  have before := h.keeps hw
  simp only [call, hw]
  apply but.set_waiter [] (by rw [List.append_nil])
  · constructor <;> grind [Kept]
  · intro callback hm hown
    rw [List.append_nil] at hm
    have called := but.calls hw callback hm hown
    have gone := gone (Option.some_ne_none w)
    cases callback <;> grind [Waiter.Calls, Callback.waiter]
  · exact fun _ hm => absurd hm List.not_mem_nil
  · exact List.nodup_nil
  · grind

theorem Sound.run {callback : Callback W F} (h : l.Sound) (step : l.run callback = some l') : l'.Sound := by
  unfold Loop.run at step
  split_ifs at step with ready
  cases step
  cases callback with
  | own f => exact (h.erase ready).1
  | innerDone w => exact h.innerDone ready
  | outerDone w => exact h.outerDone ready
  | wakeup w => exact h.wakeup ready

theorem Sound.unseen_run {callback : Callback W F} (h : l.Sound) (step : l.run callback = some l')
    (hown : callback.waiter = some w) : l.Unseen l' := by
  obtain ⟨ready, rfl⟩ := run_eq_some.mp step
  obtain ⟨waiter, hw, called⟩ := h.callable callback ready w hown
  have others : ∀ f, .own f ∈ l.ready.erase callback ↔ .own f ∈ l.ready := by
    intro f
    apply List.mem_erase_of_ne
    rintro rfl
    cases hown
  have off : l.Unseen { l with ready := l.ready.erase callback } :=
    ⟨fun _ => Iff.rfl, fun _ => rfl, fun _ _ => Iff.rfl, others⟩
  cases callback with
  | own f => exact off
  | innerDone w' =>
    cases hown
    cases houter : waiter.outer with
    | done outcome =>
      simp only [call, hw, houter]
      exact off
    | pending callbacks =>
      obtain ⟨outcome, ht⟩ := called.1
      obtain ⟨-, rfl, -⟩ := (h.keeps hw).suspended callbacks houter
      simp only [call, hw, houter, ht]
      exact ⟨off.known, off.outcome, off.holds, fun f => by simp [others f]⟩
  | outerDone w' =>
    cases hown
    simp only [call, hw]
    split
    · next callbacks ht =>
      refine ⟨fun t => ?_, fun t => ?_, fun t f => ?_, others⟩
      · by_cases heq : t = waiter.task <;> simp [heq, ht]
      · by_cases heq : t = waiter.task <;> simp [Loop.outcome, heq, ht]
      · by_cases heq : t = waiter.task <;> simp [Holds, heq, ht]
    · exact off
  | wakeup w' =>
    cases hown
    simp only [call, hw]
    exact ⟨off.known, off.outcome, off.holds, off.ready⟩

/-! ### Callbacks run out -/

/-- The callbacks that follow from one: a finished task may schedule two for each of its waiters. -/
def weight : Callback W F → Nat
  | .innerDone _ => 3
  | _ => 1

def work (l : Loop T W F R E) : Nat := (l.ready.map weight).sum

theorem Sound.work_run {callback : Callback W F} (h : l.Sound) (step : l.run callback = some l') :
    l'.work < l.work := by
  obtain ⟨ready, rfl⟩ := run_eq_some.mp step
  have off : l.work = weight callback + ((l.ready.erase callback).map weight).sum :=
    ((List.perm_cons_erase ready).map weight).sum_nat.trans (List.sum_cons ..)
  cases callback with
  | own f => simp only [call, work, weight] at *; omega
  | innerDone w =>
    obtain ⟨waiter, hw, ⟨outcome, ht⟩, -⟩ := h.callable _ ready w rfl
    cases houter : waiter.outer with
    | done outcome' => simp only [call, hw, houter, work, weight] at *; omega
    | pending callbacks =>
      obtain ⟨-, rfl, -⟩ := (h.keeps hw).suspended callbacks houter
      simp only [call, hw, houter, ht, work, List.map_append, List.sum_append, weight] at *
      simp [weight]
      omega
  | outerDone w =>
    simp only [call]
    split <;> [skip; split] <;> simp only [work, weight] at * <;> omega
  | wakeup w =>
    simp only [call]
    split <;> simp only [work, weight] at * <;> omega

end Loop
end LlmGateway.Lib.Futures
