import LlmGateway.Gateway.System

/-! What a step of the gateway can do, and the induction over its runs. -/
namespace LlmGateway.Gateway
open Lib.ReadCommitted Ledger Accounting Execution
open Ledger.Sql hiding reserve settle release

variable {pg : Postgres} {κ : Type} [DecidableEq κ] {env : Setting κ} {s s' : State pg κ}

/-- What every step that meets `C` keeps holds at the end of a run along which every step does. -/
theorem State.run_rule {C : State pg κ → Action pg → Prop} {P : State pg κ → Prop}
    (step : ∀ {s s' a}, C s a → s.step env a = some s' → P s → P s') {as : List (Action pg)}
    (hp : P s) (along : s.Along env C as) (hr : s.run env as = some s') : P s' := by
  induction as generalizing s with
  | nil =>
    cases hr
    exact hp
  | cons a as ih =>
    obtain ⟨s₁, h₁, hr⟩ := Option.bind_eq_some_iff.mp hr
    exact ih (step along.1 h₁ hp) (along.2 s₁ h₁) hr

/-- Everything a step can do. -/
inductive Does (env : Setting κ) (s : State pg κ) : Action pg → State pg κ → Prop where
  | arrive {request streamed} : Does env s (.arrive request streamed)
      { s with callers := s.callers ++ [⟨request, streamed, .looking⟩] }
  | hit {c available caller entry} (hc : s.callers[c]? = some caller)
      (hw : caller.waiting = .looking) (hh : s.hit env caller available = some entry) :
      Does env s (.lookup c available) (s.setWaiting c (.returned (.cache entry)))
  | stream {c available caller} (hc : s.callers[c]? = some caller) (hw : caller.waiting = .looking)
      (hh : s.hit env caller available = none) (hs : caller.streamed = true) :
      Does env s (.lookup c available) (s.launch c caller)
  | join {c available caller o} (hc : s.callers[c]? = some caller) (hw : caller.waiting = .looking)
      (hh : s.hit env caller available = none) (hs : caller.streamed = false)
      (ho : s.inFlight caller.request.correlationId = some o) :
      Does env s (.lookup c available) (s.setWaiting c (.awaiting o))
  | begin {c available caller} (hc : s.callers[c]? = some caller) (hw : caller.waiting = .looking)
      (hh : s.hit env caller available = none) (hs : caller.streamed = false)
      (ho : s.inFlight caller.request.correlationId = none) :
      Does env s (.lookup c available)
        { s.launch c caller with
          inFlight := Function.update s.inFlight caller.request.correlationId
            (some s.operations.length) }
  | operate {o event op move s'} (ho : s.operations[o]? = some op)
      (hm : op.move env (s.answers o) event = some move) (ha : s.apply env o op move = some s') :
      Does env s (.operate o event) s'
  | forget {o inFlight} (hf : ∀ id o', inFlight id = some o' → s.inFlight id = some o') :
      Does env s (.forget o) { s with inFlight := inFlight }
  | collect {c caller o op ending} (hc : s.callers[c]? = some caller)
      (hw : caller.waiting = .awaiting o) (ho : s.operations[o]? = some op)
      (he : op.phase = .ended ending) :
      Does env s (.collect c) (s.setWaiting c (.returned (.operation o)))
  | ledger {action ledger} (hb : ∀ t call, action ≠ .begin t call)
      (hl : s.ledger.step (Sql.ledger pg) action = some ledger) :
      Does env s (.ledger action) { s with ledger := ledger }
  | elsewhere {asked response} : Does env s (.elsewhere asked response)
      { s with cache := Function.update s.cache (computeCacheKey env asked)
                          (response.map (⟨·, asked⟩)) }

private theorem does_lookup {c : CallId} {caller : Caller} (available : Bool)
    (hc : s.callers[c]? = some caller) (hw : caller.waiting = .looking) :
    Does env s (.lookup c available) (s.afterLookup env c caller available) := by
  unfold State.afterLookup
  split
  next entry hh => exact .hit hc hw hh
  next hh =>
    cases hs : caller.streamed with
    | true =>
      rw [if_pos rfl]
      exact .stream hc hw hh hs
    | false =>
      rw [if_neg Bool.false_ne_true, State.coalesce]
      split
      next o ho => exact .join hc hw hh hs ho
      next ho => exact .begin hc hw hh hs ho

private theorem does_forget {o : OpId} {id : CorrelationId} :
    Does env s (.forget o) (if s.inFlight id = some o then
      { s with inFlight := Function.update s.inFlight id none } else s) := by
  split_ifs with hi
  · refine .forget fun id' o' h => ?_
    by_cases heq : id' = id
    · rw [heq, Function.update_self] at h
      cases h
    · rwa [Function.update_of_ne heq] at h
  · exact .forget fun _ _ h => h

theorem State.step_cases {a : Action pg} (h : s.step env a = some s') : Does env s a s' := by
  cases a with
  | arrive request streamed =>
    cases h
    exact .arrive
  | lookup c available =>
    simp only [State.step] at h
    split at h
    next caller hc =>
      split_ifs at h with hw
      cases h
      exact does_lookup available hc hw
    next => cases h
  | operate o event =>
    simp only [State.step] at h
    split at h
    next op ho =>
      obtain ⟨move, hm, ha⟩ := Option.bind_eq_some_iff.mp h
      exact .operate ho hm ha
    next => cases h
  | forget o =>
    simp only [State.step] at h
    split at h
    next request _ _ ho =>
      rw [← apply_ite some] at h
      cases h
      exact does_forget
    next => cases h
  | collect c =>
    simp only [State.step] at h
    split at h
    next o hc =>
      split at h
      next ho =>
        cases h
        exact .collect hc rfl ho rfl
      next => cases h
    next => cases h
  | ledger action =>
    cases action with
    | begin t call => cases h
    | exec t seen =>
      obtain ⟨l, hl, rfl⟩ := Option.map_eq_some_iff.mp h
      exact .ledger (fun _ _ h => by cases h) hl
    | abort t =>
      obtain ⟨l, hl, rfl⟩ := Option.map_eq_some_iff.mp h
      exact .ledger (fun _ _ h => by cases h) hl
    | tick now =>
      obtain ⟨l, hl, rfl⟩ := Option.map_eq_some_iff.mp h
      exact .ledger (fun _ _ h => by cases h) hl
  | elsewhere asked response =>
    cases h
    exact .elsewhere

/-- What an operation's move does to the state. -/
theorem State.apply_eq_some {o : OpId} {op : Operation} {move : Move}
    (h : s.apply env o op move = some s') :
    (match move.call with
      | none => s'.ledger = s.ledger
      | some (use, call) => s.ledger.step (Sql.ledger pg) (.begin (txn o use) call) =
          some s'.ledger) ∧
      s' = { s with
        ledger := s'.ledger
        operations := s.operations.set o { op with phase := move.phase }
        produced := s.produced ++ (move.produced.map (op.request.asked, ·)).toList
        cache := match move.stores with
          | none => s.cache
          | some response => Function.update s.cache (computeCacheKey env op.request.asked)
              (some ⟨response, op.request.asked⟩) } := by
  obtain ⟨ledger, hl, rfl⟩ := Option.map_eq_some_iff.mp h
  refine ⟨?_, rfl⟩
  cases hc : move.call with
  | none =>
    rw [hc] at hl
    cases hl
    rfl
  | some use => simpa only [hc] using hl

omit [DecidableEq κ] in
theorem State.setWaiting_callers (c c' : CallId) (waiting : Waiting) :
    (s.setWaiting c waiting).callers[c']? =
      s.callers[c']?.map fun caller =>
        if c = c' then { caller with waiting := waiting } else caller := by
  rw [State.setWaiting, List.getElem?_modify]
  rfl

/-- What stands at `o'` after `o` was overwritten. -/
theorem getElem?_set_new {α : Type} {l : List α} {o o' : Nat} {x new found : α}
    (h : l[o]? = some x) (hf : (l.set o new)[o']? = some found) :
    (o' = o ∧ found = new) ∨ (o' ≠ o ∧ l[o']? = some found) := by
  by_cases ho : o' = o
  · subst ho
    rw [List.getElem?_set_self (List.getElem?_eq_some_iff.mp h).1] at hf
    exact .inl ⟨rfl, (Option.some.inj hf).symm⟩
  · rw [List.getElem?_set_ne (Ne.symm ho)] at hf
    exact .inr ⟨ho, hf⟩

/-- The operation at `o'` after the one at `o` moved to another phase. -/
theorem getElem?_set_phase {operations : List Operation} {o o' : OpId} {op found : Operation}
    {phase : Phase} (h : operations[o]? = some op)
    (hf : (operations.set o { op with phase := phase })[o']? = some found) :
    (o' = o ∧ found = { op with phase := phase }) ∨ (o' ≠ o ∧ operations[o']? = some found) :=
  getElem?_set_new h hf

/-- What stands at `o` after an operation was started or a caller arrived. -/
theorem getElem?_append_new {α : Type} {l : List α} {o : Nat} {new found : α}
    (hf : (l ++ [new])[o]? = some found) :
    (o = l.length ∧ found = new) ∨ l[o]? = some found := by
  by_cases hlt : o < l.length
  · rw [List.getElem?_append_left hlt] at hf
    exact .inr hf
  · rw [List.getElem?_append_right (by omega), List.getElem?_singleton] at hf
    split_ifs at hf with hz
    exact .inl ⟨by omega, (Option.some.inj hf).symm⟩

end LlmGateway.Gateway
