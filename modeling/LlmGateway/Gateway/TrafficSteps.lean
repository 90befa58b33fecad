import LlmGateway.Gateway.Steps
import LlmGateway.Gateway.Traffic

/-! What a step of the mixed traffic can do. -/
namespace LlmGateway.Gateway
open Lib.ReadCommitted Ledger Accounting Execution
open Ledger.Sql hiding reserve settle release

variable {pg : Postgres} {κ : Type}

/-- The outputs an event stands for. -/
def Event.Told (streamed : Bool) (outputs : List ProviderOutput) : Event → Prop
  | .chunk content => outputs = [.event (.chunk content)]
  | .respond response _ =>
    match streamed with
    | false => outputs = [.response response]
    | true => response.ok = true →
        ∃ usage, outputs = [.event (.completed usage)] ∧ response = { ok := true, usage := usage }
  | _ => outputs = []

theorem ProviderOutput.toEvent_told {output : ProviderOutput} {price : PriceLookup}
    {streamed : Bool} {event : Event} (h : output.toEvent price streamed = some event) :
    event.Told streamed [output] := by
  unfold ProviderOutput.toEvent at h
  dsimp only at h
  split at h
  next => cases h; rfl
  next => cases h; rfl
  next usage => cases h; exact fun _ => ⟨usage, rfl, rfl⟩
  next => cases h; exact fun hok => by cases hok
  next => cases h; exact fun hok => by cases hok
  next => cases h

theorem Event.told_nothing {event : Event} {streamed : Bool} (h : event.provided = false) :
    event.Told streamed [] := by
  cases event <;> first | rfl | cases h

section Stores
variable {env : Setting κ} {op : Operation}

private theorem estimate_stores (price : PriceLookup) : (op.estimate env price).stores = none := by
  unfold Operation.estimate
  split
  · rfl
  · rfl
  · split <;> rfl

private theorem afterReserve_stores (e : Money) (answer : Answer) :
    (op.afterReserve env e answer).stores = none := by
  unfold Operation.afterReserve
  split <;> rfl

private theorem accountFor_stores (response : ProviderResponse) (price : PriceLookup) :
    (op.accountFor env response price).stores = none := by
  unfold Operation.accountFor
  split
  · rfl
  · split
    · rfl
    · split_ifs <;> rfl

private theorem afterSettle_stores (response : ProviderResponse) (price : PriceLookup)
    (detail : SettlementDetail) (answer : Answer) :
    (op.afterSettle env response price detail answer).stores = none := by
  unfold Operation.afterSettle
  split
  · rfl
  · split_ifs <;> rfl

private theorem afterRelease_stores (ending : Ending) (answer : Answer) :
    (op.afterRelease ending answer).stores = none := by
  unfold Operation.afterRelease
  split <;> rfl

/-- What an operation stores is the completion it ends with. -/
theorem Operation.move_stores {answers : LedgerUse → Option Answer} {event : Event} {move : Move}
    {stored : CachedResponse} (hm : op.move env answers event = some move)
    (h : move.stores = some stored) :
    ∃ response price detail, move.phase = .ended (.delivered response price detail) ∧
      stored = ⟨response.provider, op.request.asked.provider.model, response.content⟩ := by
  have nothing {none' : Option CachedResponse} (hn : none' = none) : none' ≠ some stored := by
    rw [hn]
    exact Option.some_ne_none stored |>.symm
  unfold Operation.move at hm
  split at hm
  next => cases hm; cases h
  next =>
    obtain ⟨_, _, rfl⟩ := Option.map_eq_some_iff.mp hm
    exact absurd h (nothing (estimate_stores _))
  next =>
    obtain ⟨_, _, rfl⟩ := Option.map_eq_some_iff.mp hm
    exact absurd h (nothing (afterReserve_stores _ _))
  next =>
    split_ifs at hm
    cases hm
    cases h
  next =>
    cases hm
    exact absurd h (nothing (accountFor_stores _ _))
  next =>
    obtain ⟨_, _, rfl⟩ := Option.map_eq_some_iff.mp hm
    exact absurd h (nothing (afterSettle_stores _ _ _ _))
  next =>
    obtain ⟨_, _, rfl⟩ := Option.map_eq_some_iff.mp hm
    exact absurd h (nothing (afterRelease_stores _ _))
  next response price detail available hphase =>
    cases hm
    dsimp only at h
    split_ifs at h
    cases h
    exact ⟨response, price, detail, rfl, rfl⟩
  next => cases hm

end Stores

section Steps
variable [DecidableEq κ] {d : Deployment κ} {s s' : Traffic pg κ}

/-- Everything a step can do. -/
inductive Traffic.Does (d : Deployment κ) (s : Traffic pg κ) : Traffic pg κ → Prop where
  | arrive {organizationId request streamed} : Does d s
      { s with callers := s.callers ++ [⟨organizationId, request, streamed, .looking⟩] }
  | replay {c caller available now response} (hc : s.callers[c]? = some caller)
      (hh : s.hit d caller available now = some response) :
      Does d s (s.setServed c (.replayed response
        (s.writers (caller.organizationId, d.key caller.organizationId caller.request.asked))))
  | wait {c served} (hs : ∀ response writer, served ≠ .replayed response writer) :
      Does d s (s.setServed c served)
  | launch {c caller inFlight} : Does d s { s.launch c caller with inFlight := inFlight }
  | advance {o t event outputs now s'} (ho : s.operations[o]? = some t)
      (told : event.Told t.operation.streamed outputs)
      (ha : s.advance d o t event outputs now = some s') : Does d s s'
  | abandon {o t releases s'} (ho : s.operations[o]? = some t)
      (ha : s.abandon o t releases = some s') : Does d s s'
  | forget {inFlight} : Does d s { s with inFlight := inFlight }
  | ledger {action ledger} (hb : ∀ t call, action ≠ .begin t call)
      (hl : s.ledger.step (Sql.ledger pg) action = some ledger) :
      Does d s { s with ledger := ledger }

private theorem traffic_lookup {c : CallId} {caller : TenantCaller} (available : Bool)
    (now : Timestamp) (hc : s.callers[c]? = some caller) :
    Traffic.Does d s (s.afterLookup d c caller available now) := by
  unfold Traffic.afterLookup
  split
  next response hh => exact .replay hc hh
  next =>
    cases caller.streamed with
    | true =>
      rw [if_pos rfl]
      exact .launch
    | false =>
      rw [if_neg Bool.false_ne_true, Traffic.coalesce]
      dsimp only
      split
      next o _ => exact .wait fun _ _ h => by cases h
      next => exact .launch

theorem Traffic.step_cases {a : TrafficAction pg} (h : s.step d a = some s') :
    Traffic.Does d s s' := by
  cases a with
  | arrive organizationId request streamed =>
    cases h
    exact .arrive
  | lookup c available now =>
    simp only [Traffic.step] at h
    split at h
    next caller hc =>
      split_ifs at h
      cases h
      exact traffic_lookup available now hc
    next => cases h
  | operate o event now =>
    simp only [Traffic.step] at h
    split at h
    next t ho =>
      split_ifs at h with hp
      exact .advance ho (Event.told_nothing (Bool.eq_false_iff.mpr hp)) h
    next => cases h
  | provide o output price =>
    simp only [Traffic.step] at h
    split at h
    next t ho =>
      obtain ⟨event, he, ha⟩ := Option.bind_eq_some_iff.mp h
      exact .advance ho (ProviderOutput.toEvent_told he) ha
    next => cases h
  | abandon o releases =>
    simp only [Traffic.step] at h
    split at h
    next t ho => exact .abandon ho h
    next => cases h
  | forget o =>
    simp only [Traffic.step] at h
    split at h
    next t ho =>
      split_ifs at h
      · cases h
        exact .forget
      · cases h
        exact .forget
    next => cases h
  | collect c =>
    simp only [Traffic.step] at h
    split at h
    next o hc =>
      split at h
      next t ho =>
        split_ifs at h
        cases h
        exact .wait fun _ _ h => by cases h
      next => cases h
    next => cases h
  | ledger action =>
    cases action with
    | begin t call => cases h
    | exec t seen =>
      obtain ⟨l, hl, rfl⟩ := Option.map_eq_some_iff.mp h
      exact .ledger (fun _ _ h => by cases h) hl
    | abort t =>
      obtain ⟨l, hl, rfl⟩ := Option.map_eq_some_iff.mp h
      exact .ledger (fun _ _ h => by cases h) hl
    | tick now =>
      obtain ⟨l, hl, rfl⟩ := Option.map_eq_some_iff.mp h
      exact .ledger (fun _ _ h => by cases h) hl

/-- What an operation's going on does to the state. -/
theorem Traffic.advance_eq_some {o : OpId} {t : TenantOperation} {event : Event}
    {outputs : List ProviderOutput} {now : Timestamp}
    (h : s.advance d o t event outputs now = some s') :
    ∃ move ledger, t.over = false ∧
      t.operation.move (d.setting t.organizationId) (s.answers o) event = some move ∧
      (match move.call with
        | none => ledger = s.ledger
        | some (use, call) =>
          s.ledger.step (Sql.ledger pg) (.begin (ownTxn o use) call) = some ledger) ∧
      s' =
        (let moved := { s with
          ledger := ledger
          operations := s.operations.set o { t with
            operation := { t.operation with phase := move.phase }
            outputs := t.outputs ++ outputs } }
        match move.stores with
        | none => moved
        | some response => moved.put d o t now response) := by
  unfold Traffic.advance at h
  split_ifs at h with hover
  obtain ⟨move, hm, ha⟩ := Option.bind_eq_some_iff.mp h
  obtain ⟨ledger, hl, rfl⟩ := Option.map_eq_some_iff.mp ha
  refine ⟨move, ledger, Bool.eq_false_iff.mpr hover, hm, ?_, rfl⟩
  cases hc : move.call with
  | none =>
    rw [hc] at hl
    cases hl
    rfl
  | some use => simpa only [hc] using hl

omit [DecidableEq κ] in
theorem Traffic.abandon_eq_some {o : OpId} {t : TenantOperation} {releases : Bool}
    (h : s.abandon o t releases = some s') :
    ∃ ledger, t.over = false ∧
      (ledger = s.ledger ∨ ∃ call,
        s.ledger.step (Sql.ledger pg) (.begin (exitTxn o) call) = some ledger) ∧
      s' = { s with
        ledger := ledger
        operations := s.operations.set o { t with abandoned := true } } := by
  unfold Traffic.abandon at h
  split at h
  next => cases h
  next hover =>
    obtain ⟨ledger, hl, rfl⟩ := Option.map_eq_some_iff.mp h
    refine ⟨ledger, Bool.eq_false_iff.mpr fun h => hover (.inl h), ?_, rfl⟩
    split_ifs at hl
    · exact .inr ⟨_, hl⟩
    · exact .inl (Option.some.inj hl).symm

omit [DecidableEq κ] in
theorem Traffic.setServed_callers (c c' : CallId) (served : Served) :
    (s.setServed c served).callers[c']? =
      s.callers[c']?.map fun caller =>
        if c = c' then { caller with served := served } else caller := by
  rw [Traffic.setServed, List.getElem?_modify]
  rfl

omit [DecidableEq κ] in
theorem Traffic.hit_stored {caller : TenantCaller} {available : Bool} {now : Timestamp}
    {response : CachedResponse} (h : s.hit d caller available now = some response) :
    ∃ entry, s.cache.store (caller.organizationId,
      d.key caller.organizationId caller.request.asked) = some entry ∧
      entry.response = response := by
  unfold Traffic.hit at h
  split_ifs at h
  have got := (Option.filter_eq_some_iff.mp h).1
  unfold InMemoryResponseCache.get at got
  split at got
  next => cases got
  next entry hs =>
    split_ifs at got
    exact ⟨entry, hs, Option.some.inj got⟩

end Steps

end LlmGateway.Gateway
