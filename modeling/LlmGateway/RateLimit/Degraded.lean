import LlmGateway.RateLimit.Redis
import Mathlib.Algebra.Order.BigOperators.Group.Finset
import Mathlib.Algebra.BigOperators.Ring.Finset
import Mathlib.Data.Fintype.Card

/-! `DegradedRateLimiter`: replicas that share a bucket at Redis and fall back on one of their own
when it cannot answer. -/
namespace LlmGateway.RateLimit
open Ledger Lib

structure DegradedRateLimiter where
  localBuckets : OrgId → Option Bucket
  degraded : Bool

/-- `DegradedRateLimiter.acquire`, once the shared limiter has decided or raised
`RateLimiterUnavailableError`. -/
def DegradedRateLimiter.acquire (policy : RateLimitPolicy) (limiter : DegradedRateLimiter)
    (organizationId : OrgId) (now : ℚ) : Option RateLimitDecision → DegradedRateLimiter × RateLimitDecision
  | none =>
    let (buckets, _, _, decision) := (tokenBucketRateLimiter policy).step limiter.localBuckets (organizationId, now)
    ({ limiter with localBuckets := buckets, degraded := true }, decision)
  | some decision => ({ limiter with degraded := false }, decision)

/-- A request that calls `acquire`, at one of the replicas. -/
structure Request (N : Nat) where
  replica : Fin N
  organizationId : OrgId

/-- What a bucket said, and what its clock read. -/
structure Verdict where
  now : ℚ
  decision : RateLimitDecision

/-- What `acquire` returned, and whether the shared store decided it. -/
structure Decided extends Verdict where
  shared : Bool

/-- The replicas and their store. `replied` has what the script said to a request, received or not. -/
structure Fleet (N : Nat) where
  store : RedisStore
  replicas : Fin N → DegradedRateLimiter
  replied : Nat → Option Verdict
  decided : Nat → Option Decided

/-- The script runs for a request, a key goes, a request receives the script's reply, or its call
raises, whether or not the script has run or is still going to. -/
inductive FleetEvent where
  | script (request : Nat) (now : ℚ)
  | vanish (key : String) (now : ℚ)
  | answered (request : Nat)
  | unavailable (request : Nat) (now : ℚ)

namespace FleetEvent

def now : FleetEvent → Option ℚ
  | .script _ now | .vanish _ now | .unavailable _ now => some now
  | .answered _ => none

end FleetEvent

section
variable {N : Nat} (policy : RateLimitPolicy) (keyPrefix : String) (requests : Nat → Request N)

def FleetEvent.Enabled (fleet : Fleet N) : FleetEvent → Prop
  | .script r _ => fleet.replied r = none
  | .vanish key now => (RedisEvent.vanish key now).Enabled fleet.store
  | .answered r => fleet.replied r ≠ none ∧ fleet.decided r = none
  | .unavailable r _ => fleet.decided r = none

namespace Fleet

def init : Fleet N := ⟨fun _ => none, fun _ => ⟨fun _ => none, false⟩, fun _ => none, fun _ => none⟩

def decide (fleet : Fleet N) (r : Nat) (now : ℚ) (reply : Option Verdict) : Fleet N :=
  let request := requests r
  let (limiter, decision) := (fleet.replicas request.replica).acquire policy request.organizationId now
    (reply.map (·.decision))
  { fleet with
    replicas := Function.update fleet.replicas request.replica limiter
    decided := Function.update fleet.decided r (some ⟨⟨now, decision⟩, reply.isSome⟩) }

def step (fleet : Fleet N) : FleetEvent → Fleet N
  | .script r now =>
    let (store, answer) := (redisRateLimiter policy keyPrefix).step fleet.store (.acquire (requests r).organizationId now)
    { fleet with
      store
      replied := Function.update fleet.replied r (answer.map fun a => ⟨now, a.2.2⟩) }
  | .vanish key now =>
    { fleet with store := ((redisRateLimiter policy keyPrefix).step fleet.store (.vanish key now)).1 }
  | .answered r =>
    match fleet.replied r with
    | none => fleet
    | some reply => decide policy requests fleet r reply.now (some reply)
  | .unavailable r now => decide policy requests fleet r now none

/-- The fleet is where the events lead to from the start. -/
inductive Run : List FleetEvent → Fleet N → Prop where
  | start : Run [] init
  | step {events : List FleetEvent} {fleet : Fleet N} {e : FleetEvent} (run : Run events fleet)
      (enabled : e.Enabled fleet) : Run (events ++ [e]) (step policy keyPrefix requests fleet e)

end Fleet

/-- What the events do at the store. -/
def sharedEvents (events : List FleetEvent) : List RedisEvent :=
  events.filterMap fun
    | .script r now => some (.acquire (requests r).organizationId now)
    | .vanish key now => some (.vanish key now)
    | _ => none

/-- The requests the script has run for. -/
def scripted (events : List FleetEvent) : List Nat :=
  events.filterMap fun
    | .script r _ => some r
    | _ => none

/-- The calls of a replica's own bucket. -/
def localCalls (replica : Fin N) (events : List FleetEvent) : List (OrgId × ℚ) :=
  events.filterMap fun
    | .unavailable r now =>
      if (requests r).replica = replica then some ((requests r).organizationId, now) else none
    | _ => none

/-- The requests that fell back on it. -/
def fellBack (replica : Fin N) (events : List FleetEvent) : List Nat :=
  events.filterMap fun
    | .unavailable r _ => if (requests r).replica = replica then some r else none
    | _ => none

/-- A verdict, as the answer its bucket gave. -/
def Verdict.answer (v : Verdict) (r : Nat) : OrgId × ℚ × RateLimitDecision :=
  ((requests r).organizationId, v.now, v.decision)

/-- What the events did at the store, and what the requests know of it. -/
structure TracksStore (events : List FleetEvent) (fleet : Fleet N) : Prop where
  store : fleet.store =
    ((redisRateLimiter policy keyPrefix).run (fun _ => none) (sharedEvents requests events)).1
  lawful : Lawful policy keyPrefix (fun _ => none) (sharedEvents requests events)
  answers : ((redisRateLimiter policy keyPrefix).run (fun _ => none) (sharedEvents requests events)).2.filterMap id =
    (scripted events).filterMap fun r => (fleet.replied r).map fun v => v.answer requests r
  ran : ∀ r, r ∈ scripted events ↔ fleet.replied r ≠ none
  received : ∀ r, ∀ d ∈ fleet.decided r, d.shared = true → fleet.replied r = some d.toVerdict

/-- What the events did at a replica's own bucket. -/
structure TracksLocal (events : List FleetEvent) (fleet : Fleet N) (replica : Fin N) : Prop where
  buckets : (fleet.replicas replica).localBuckets =
    ((tokenBucketRateLimiter policy).run (fun _ => none) (localCalls requests replica events)).1
  answers : ((tokenBucketRateLimiter policy).run (fun _ => none) (localCalls requests replica events)).2 =
    (fellBack requests replica events).filterMap fun r => (fleet.decided r).map fun d => d.answer requests r
  fell : ∀ r ∈ fellBack requests replica events, fleet.decided r ≠ none
  fallen : ∀ r, (requests r).replica = replica → ∀ d ∈ fleet.decided r, d.shared = false →
    r ∈ fellBack requests replica events

end

section
variable {N : Nat} {policy : RateLimitPolicy} {keyPrefix : String} {requests : Nat → Request N}
  {events : List FleetEvent} {fleet : Fleet N}

theorem lawful_concat {store : RedisStore} {events : List RedisEvent} {e : RedisEvent} :
    Lawful policy keyPrefix store (events ++ [e]) ↔ Lawful policy keyPrefix store events ∧
      e.Enabled ((redisRateLimiter policy keyPrefix).run store events).1 := by
  induction events generalizing store with
  | nil => simp [Lawful, Machine.run]
  | cons e' events ih =>
    rw [List.cons_append, Lawful, Lawful, ih, and_assoc]
    rfl

private theorem step_answered {r : Nat} {v : Verdict} (hv : fleet.replied r = some v) :
    fleet.step policy keyPrefix requests (.answered r) = fleet.decide policy requests r v.now (some v) := by
  rw [Fleet.step, hv]

private theorem step_unavailable {r : Nat} {now : ℚ} :
    fleet.step policy keyPrefix requests (.unavailable r now) = fleet.decide policy requests r now none :=
  rfl

/-- A request that is decided knows what the script said to it, if that is what decided. -/
private theorem TracksStore.decide (h : TracksStore policy keyPrefix requests events fleet) {r : Nat}
    {now : ℚ} {reply : Option Verdict} (known : ∀ v ∈ reply, fleet.replied r = some v ∧ v.now = now) :
    TracksStore policy keyPrefix requests events (fleet.decide policy requests r now reply) where
  store := h.store
  lawful := h.lawful
  answers := h.answers
  ran := h.ran
  received r' d hd shared := by
    by_cases hr : r' = r
    · subst hr
      simp only [Fleet.decide, Function.update_self, Option.mem_def, Option.some.injEq] at hd
      subst hd
      obtain ⟨v, rfl⟩ := Option.isSome_iff_exists.mp shared
      obtain ⟨replied, rfl⟩ := known v rfl
      exact replied
    · simp only [Fleet.decide, Function.update_of_ne hr] at hd
      exact h.received r' d hd shared

private theorem TracksStore.elsewhere (h : TracksStore policy keyPrefix requests events fleet)
    {e : FleetEvent} (shared : sharedEvents requests (events ++ [e]) = sharedEvents requests events)
    (log : scripted (events ++ [e]) = scripted events) :
    TracksStore policy keyPrefix requests (events ++ [e]) fleet := by
  refine ⟨?_, ?_, ?_, ?_, h.received⟩
  · rw [shared, h.store]
  · rw [shared]
    exact h.lawful
  · rw [shared, log, h.answers]
  · rw [log]
    exact h.ran

private theorem TracksStore.step (h : TracksStore policy keyPrefix requests events fleet) {e : FleetEvent}
    (enabled : e.Enabled fleet) :
    TracksStore policy keyPrefix requests (events ++ [e]) (fleet.step policy keyPrefix requests e) := by
  cases e with
  | script r now =>
    have fresh : r ∉ scripted events := fun hr => (h.ran r).mp hr enabled
    have shared : sharedEvents requests (events ++ [.script r now]) =
        sharedEvents requests events ++ [.acquire (requests r).organizationId now] :=
      List.filterMap_append
    have log : scripted (events ++ [.script r now]) = scripted events ++ [r] := List.filterMap_append
    have replied : ∀ r', r' ≠ r →
        (fleet.step policy keyPrefix requests (.script r now)).replied r' = fleet.replied r' :=
      fun r' hr => Function.update_of_ne hr ..
    have own : (fleet.step policy keyPrefix requests (.script r now)).replied r =
        ((redisRateLimiter policy keyPrefix).step fleet.store
          (.acquire (requests r).organizationId now)).2.map fun a => ⟨now, a.2.2⟩ :=
      Function.update_self ..
    refine ⟨?_, ?_, ?_, fun r' => ?_, fun r' d hd hs => ?_⟩
    · rw [shared, Machine.run_concat, ← h.store]
      rfl
    · rw [shared, lawful_concat]
      exact ⟨h.lawful, trivial⟩
    · rw [shared, Machine.run_concat, log, List.filterMap_append, List.filterMap_append, h.answers]
      refine congrArg₂ (· ++ ·) (List.filterMap_congr fun r' hr' => ?_) ?_
      · rw [replied r' fun he => fresh (he ▸ hr')]
      · rw [← h.store]
        simp only [List.filterMap_cons, List.filterMap_nil, own]
        rfl
    · rw [log, List.mem_append, List.mem_singleton]
      by_cases hr : r' = r
      · subst hr
        simp [own, redisRateLimiter]
      · rw [replied r' hr, ← h.ran, or_iff_left hr]
    · have known := h.received r' d hd hs
      rwa [replied r']
      rintro rfl
      rw [enabled] at known
      cases known
  | vanish key now =>
    have shared : sharedEvents requests (events ++ [.vanish key now]) =
        sharedEvents requests events ++ [.vanish key now] := List.filterMap_append
    have log : scripted (events ++ [.vanish key now]) = scripted events := by
      simp [scripted]
    refine ⟨?_, ?_, ?_, ?_, h.received⟩
    · rw [shared, Machine.run_concat, ← h.store]
      rfl
    · rw [shared, lawful_concat, ← h.store]
      exact ⟨h.lawful, enabled⟩
    · rw [shared, Machine.run_concat, log, List.filterMap_append, h.answers]
      exact List.append_nil _
    · rw [log]
      exact h.ran
  | answered r =>
    obtain ⟨v, hv⟩ := Option.ne_none_iff_exists'.mp enabled.1
    rw [step_answered hv]
    refine TracksStore.decide (h.elsewhere (by simp [sharedEvents]) (by simp [scripted])) ?_
    rintro _ ⟨⟩
    exact ⟨hv, rfl⟩
  | unavailable r now =>
    have later : TracksStore policy keyPrefix requests (events ++ [.unavailable r now]) fleet :=
      h.elsewhere (by simp [sharedEvents]) (by simp [scripted])
    rw [step_unavailable]
    refine later.decide fun v hv => ?_
    cases hv

/-- A step that does not call the replica's bucket. -/
private theorem TracksLocal.elsewhere {fleet' : Fleet N} {replica : Fin N} {e : FleetEvent}
    (h : TracksLocal policy requests events fleet replica)
    (calls : localCalls requests replica (events ++ [e]) = localCalls requests replica events)
    (log : fellBack requests replica (events ++ [e]) = fellBack requests replica events)
    (buckets : (fleet'.replicas replica).localBuckets = (fleet.replicas replica).localBuckets)
    (kept : ∀ r, fleet.decided r ≠ none → fleet'.decided r = fleet.decided r)
    (new : ∀ r, ∀ d ∈ fleet'.decided r, d ∈ fleet.decided r ∨ d.shared = true ∨ (requests r).replica ≠ replica) :
    TracksLocal policy requests (events ++ [e]) fleet' replica where
  buckets := by rw [calls, buckets, h.buckets]
  answers := by
    rw [calls, log, h.answers]
    exact List.filterMap_congr fun r hr => by rw [kept r (h.fell r hr)]
  fell r hr := by
    rw [log] at hr
    rw [kept r (h.fell r hr)]
    exact h.fell r hr
  fallen r hi d hd own := by
    rw [log]
    rcases new r d hd with hd | shared | other
    · exact h.fallen r hi d hd own
    · rw [own] at shared
      cases shared
    · exact absurd hi other

private theorem decide_kept {r : Nat} {now : ℚ} {reply : Option Verdict} (undecided : fleet.decided r = none) :
    ∀ r', fleet.decided r' ≠ none →
      (fleet.decide policy requests r now reply).decided r' = fleet.decided r' := by
  intro r' decided
  refine Function.update_of_ne ?_ ..
  rintro rfl
  exact decided undecided

private theorem decide_new {r r' : Nat} {now : ℚ} {reply : Option Verdict} {d : Decided}
    (hd : d ∈ (fleet.decide policy requests r now reply).decided r') :
    d ∈ fleet.decided r' ∨ r' = r ∧ d.now = now ∧ d.shared = reply.isSome := by
  by_cases hr : r' = r
  · subst hr
    simp only [Fleet.decide, Function.update_self, Option.mem_def, Option.some.injEq] at hd
    subst hd
    exact .inr ⟨rfl, rfl, rfl⟩
  · simp only [Fleet.decide, Function.update_of_ne hr] at hd
    exact .inl hd

private theorem decide_elsewhere {replica : Fin N} {r : Nat} {now : ℚ} {reply : Option Verdict}
    (hi : (requests r).replica ≠ replica ∨ reply.isSome = true) :
    ((fleet.decide policy requests r now reply).replicas replica).localBuckets =
      (fleet.replicas replica).localBuckets := by
  by_cases same : replica = (requests r).replica
  · subst same
    obtain ⟨v, rfl⟩ := Option.isSome_iff_exists.mp (hi.resolve_left fun ne => ne rfl)
    simp [Fleet.decide, DegradedRateLimiter.acquire]
  · simp [Fleet.decide, Function.update_of_ne same]

private theorem TracksLocal.step {replica : Fin N} (h : TracksLocal policy requests events fleet replica)
    {e : FleetEvent} (enabled : e.Enabled fleet) :
    TracksLocal policy requests (events ++ [e]) (fleet.step policy keyPrefix requests e) replica := by
  cases e with
  | script r now =>
    exact h.elsewhere (by simp [localCalls]) (by simp [fellBack]) rfl (fun _ _ => rfl)
      fun _ _ hd => .inl hd
  | vanish key now =>
    exact h.elsewhere (by simp [localCalls]) (by simp [fellBack]) rfl (fun _ _ => rfl)
      fun _ _ hd => .inl hd
  | answered r =>
    obtain ⟨v, hv⟩ := Option.ne_none_iff_exists'.mp enabled.1
    rw [step_answered hv]
    refine h.elsewhere (by simp [localCalls]) (by simp [fellBack]) (decide_elsewhere (.inr rfl))
      (decide_kept enabled.2) fun r' d hd => ?_
    exact (decide_new hd).imp_right fun new => .inl new.2.2
  | unavailable r now =>
    rw [step_unavailable]
    by_cases hi : (requests r).replica = replica
    · subst hi
      have calls : localCalls requests (requests r).replica (events ++ [.unavailable r now]) =
          localCalls requests (requests r).replica events ++ [((requests r).organizationId, now)] := by
        simp [localCalls]
      have log : fellBack requests (requests r).replica (events ++ [.unavailable r now]) =
          fellBack requests (requests r).replica events ++ [r] := by
        simp [fellBack]
      have kept : ∀ r', fleet.decided r' ≠ none →
          (fleet.decide policy requests r now none).decided r' = fleet.decided r' := decide_kept enabled
      have fresh : r ∉ fellBack requests (requests r).replica events := fun hr => h.fell r hr enabled
      refine ⟨?_, ?_, ?_, ?_⟩
      · rw [calls, Machine.run_concat, ← h.buckets]
        simp [Fleet.decide, DegradedRateLimiter.acquire]
      · rw [calls, log, Machine.run_concat, List.filterMap_append, h.answers]
        refine congrArg₂ (· ++ ·) (List.filterMap_congr fun r' hr' => ?_) ?_
        · rw [kept r' (h.fell r' hr')]
        · rw [← h.buckets]
          simp [Fleet.decide, DegradedRateLimiter.acquire, Verdict.answer,
            tokenBucketRateLimiter, Machine.keyed, bucketMachine]
      · intro r' hr'
        rw [log, List.mem_append, List.mem_singleton] at hr'
        rcases hr' with hr' | rfl
        · rw [kept r' (h.fell r' hr')]
          exact h.fell r' hr'
        · simp [Fleet.decide]
      · intro r' hi' d hd own
        rw [log, List.mem_append, List.mem_singleton]
        exact (decide_new hd).imp (fun hd => h.fallen r' hi' d hd own) fun new => new.1
    · refine h.elsewhere (by simp [localCalls, hi]) (by simp [fellBack, hi]) (decide_elsewhere (.inl hi))
        (decide_kept enabled) fun r' d hd => ?_
      refine (decide_new hd).imp_right fun new => .inr ?_
      rwa [new.1]

/-- A request the shared store did not decide is one whose call raised. -/
private theorem raised_of_decided (run : Fleet.Run policy keyPrefix requests events fleet) :
    ∀ r, ∀ d ∈ fleet.decided r, d.shared = false → .unavailable r d.now ∈ events := by
  induction run with
  | start => intro r d hd; cases hd
  | @step events fleet e _ enabled ih =>
    intro r d hd own
    have old : d ∈ fleet.decided r → .unavailable r d.now ∈ events ++ [e] :=
      fun hd => List.mem_append_left _ (ih r d hd own)
    cases e with
    | script r' now => exact old hd
    | vanish key now => exact old hd
    | answered r' =>
      obtain ⟨v, hv⟩ := Option.ne_none_iff_exists'.mp enabled.1
      rw [step_answered hv] at hd
      rcases decide_new hd with hd | ⟨-, -, shared⟩
      · exact old hd
      · rw [own] at shared
        cases shared
    | unavailable r' now =>
      rw [step_unavailable] at hd
      rcases decide_new hd with hd | ⟨rfl, rfl, -⟩
      · exact old hd
      · exact List.mem_append_right _ List.mem_cons_self

theorem Fleet.Run.tracks (run : Fleet.Run policy keyPrefix requests events fleet) :
    TracksStore policy keyPrefix requests events fleet ∧
      ∀ replica, TracksLocal policy requests events fleet replica := by
  induction run with
  | start =>
    have undecided : ∀ {α : Type} {a : α}, a ∉ (none : Option α) := nofun
    refine ⟨⟨rfl, trivial, rfl, fun r => by simp [scripted, Fleet.init], fun r d hd => ?_⟩, fun replica =>
      ⟨rfl, rfl, fun r hr => ?_, fun r _ d hd => ?_⟩⟩
    · exact absurd hd undecided
    · exact absurd hr List.not_mem_nil
    · exact absurd hd undecided
  | step _ enabled ih => exact ⟨ih.1.step enabled, fun replica => (ih.2 replica).step enabled⟩

end

/-- A request of the organization was admitted within the window, by the clock of the bucket that
decided. -/
def Fleet.Admitted {N : Nat} (requests : Nat → Request N) (fleet : Fleet N) (org : OrgId) (s t : ℚ)
    (r : Nat) : Prop :=
  (requests r).organizationId = org ∧
    ∃ d ∈ fleet.decided r, s ≤ d.now ∧ d.now ≤ t ∧ d.decision.allowed = true

instance {N : Nat} (requests : Nat → Request N) (fleet : Fleet N) (org : OrgId) (s t : ℚ) (r : Nat) :
    Decidable (fleet.Admitted requests org s t r) :=
  inferInstanceAs (Decidable ((requests r).organizationId = org ∧
    ∃ d ∈ fleet.decided r, s ≤ d.now ∧ d.now ≤ t ∧ d.decision.allowed = true))

/-- No call of the organization raised within the window. -/
def AnsweredThroughout {N : Nat} (requests : Nat → Request N) (events : List FleetEvent) (org : OrgId)
    (s t : ℚ) : Prop :=
  ∀ r now, .unavailable r now ∈ events → (requests r).organizationId = org → ¬ (s ≤ now ∧ now ≤ t)

section
variable {N : Nat} {policy : RateLimitPolicy} {keyPrefix : String} {requests : Nat → Request N}
  {events : List FleetEvent} {fleet : Fleet N} {org : OrgId} {s t : ℚ}

private theorem allowedWithin_ofKey (answers : List (OrgId × ℚ × RateLimitDecision)) :
    allowedWithin s t (Machine.ofKey org answers) =
      answers.countP fun a => (s ≤ a.2.1 ∧ a.2.1 ≤ t ∧ a.2.2.allowed = true) ∧ a.1 = org := by
  rw [allowedWithin, Machine.ofKey, List.countP_map, List.countP_filter]
  simp only [Function.comp_apply, Bool.decide_and]

/-- Requests that a log answers with leave are as many as its answers at most. -/
private theorem card_le_allowedWithin {δ : Type} {admitted : Finset Nat} {log : List Nat}
    {f : Nat → Option δ} (verdict : δ → Verdict)
    (h : ∀ r ∈ admitted, r ∈ log ∧ (requests r).organizationId = org ∧
      ∃ d ∈ f r, s ≤ (verdict d).now ∧ (verdict d).now ≤ t ∧ (verdict d).decision.allowed = true) :
    admitted.card ≤ allowedWithin s t (Machine.ofKey org
      (log.filterMap fun r => (f r).map fun d => (verdict d).answer requests r)) := by
  rw [allowedWithin_ofKey, List.countP_filterMap, List.countP_eq_length_filter]
  refine (Finset.card_le_card fun r hr => ?_).trans (List.toFinset_card_le _)
  obtain ⟨logged, own, v, hv, inside⟩ := h r hr
  rw [List.mem_toFinset, List.mem_filter]
  refine ⟨logged, ?_⟩
  rw [Option.mem_def.mp hv]
  simpa [Verdict.answer, own] using inside

private theorem pairwise_filterMap_of_now {α : Type} {f : FleetEvent → Option α} {time : α → ℚ}
    (clock : (events.filterMap FleetEvent.now).Pairwise (· ≤ ·))
    (hf : ∀ e, ∀ a ∈ f e, e.now = some (time a)) : ((events.filterMap f).map time).Pairwise (· ≤ ·) := by
  rw [List.pairwise_map, List.pairwise_filterMap]
  rw [List.pairwise_filterMap] at clock
  exact clock.imp fun h a ha a' ha' => h _ (hf _ a ha) _ (hf _ a' ha')

/-- The bucket that decided a request: the shared one, or a replica's own. -/
private def decidedBy (requests : Nat → Request N) (fleet : Fleet N) (r : Nat) : Option (Fin N) :=
  if (fleet.decided r).any (·.shared) then none else some (requests r).replica

private theorem shared_admitted_le (run : Fleet.Run policy keyPrefix requests events fleet)
    (clock : (events.filterMap FleetEvent.now).Pairwise (· ≤ ·)) (hst : s ≤ t) {admitted : Finset Nat}
    (h : ∀ r ∈ admitted, fleet.Admitted requests org s t r ∧ decidedBy requests fleet r = none) :
    (admitted.card : ℚ) ≤ policy.burst + policy.requestsPerSecond * (t - s) := by
  have tracks := run.tracks.1
  have steady : ((sharedEvents requests events).map RedisEvent.now).Pairwise (· ≤ ·) := by
    refine pairwise_filterMap_of_now clock fun e a ha => ?_
    cases e <;> cases ha <;> rfl
  have calls : (((sharedEvents requests events).filterMap RedisEvent.call).map Prod.snd).Pairwise (· ≤ ·) := by
    rw [List.pairwise_map, List.pairwise_filterMap]
    rw [List.pairwise_map] at steady
    refine steady.imp fun {e e'} h a ha a' ha' => ?_
    cases e <;> cases ha
    cases e' <;> cases ha'
    exact h
  have bound := (limiter_meets_spec policy _ org calls).bounded s t hst
  rw [← redis_decides_as_in_memory policy keyPrefix _ steady tracks.lawful, tracks.answers] at bound
  refine le_trans (Nat.cast_le.mpr (card_le_allowedWithin id fun r hr => ?_)) bound
  obtain ⟨⟨own, d, hd, inside⟩, shared⟩ := h r hr
  have received : fleet.replied r = some d.toVerdict := by
    apply tracks.received r d hd
    rw [decidedBy, Option.mem_def.mp hd] at shared
    by_contra no
    rw [Option.any_some, if_neg no] at shared
    cases shared
  refine ⟨(tracks.ran r).mpr ?_, own, d.toVerdict, received, inside⟩
  rw [received]
  exact Option.some_ne_none _

private theorem local_admitted_le (run : Fleet.Run policy keyPrefix requests events fleet)
    (clock : (events.filterMap FleetEvent.now).Pairwise (· ≤ ·)) (hst : s ≤ t) {admitted : Finset Nat}
    {replica : Fin N}
    (h : ∀ r ∈ admitted, fleet.Admitted requests org s t r ∧ decidedBy requests fleet r = some replica) :
    (admitted.card : ℚ) ≤ policy.burst + policy.requestsPerSecond * (t - s) := by
  have tracks := run.tracks.2 replica
  have calls : ((localCalls requests replica events).map Prod.snd).Pairwise (· ≤ ·) := by
    refine pairwise_filterMap_of_now clock fun e a ha => ?_
    cases e with
    | unavailable r now =>
      simp only [Option.mem_def, Option.ite_none_right_eq_some] at ha
      obtain ⟨-, ha⟩ := ha
      cases ha
      rfl
    | _ => cases ha
  have bound := (limiter_meets_spec policy _ org calls).bounded s t hst
  rw [tracks.answers] at bound
  refine le_trans (Nat.cast_le.mpr (card_le_allowedWithin Decided.toVerdict fun r hr => ?_)) bound
  obtain ⟨⟨own, d, hd, inside⟩, source⟩ := h r hr
  rw [decidedBy, Option.mem_def.mp hd, Option.any_some] at source
  split_ifs at source with shared
  exact ⟨tracks.fallen r (Option.some.inj source) d hd (Bool.not_eq_true _ ▸ shared), own, d, hd, inside⟩

end

/-- Degraded mode stays bounded: whatever the requests and wherever the shared store fails them,
within a window the replicas admit no more than all the buckets together would, and no more than
the shared one while it answers. -/
theorem degraded_mode_bounded {N : Nat} (policy : RateLimitPolicy) (keyPrefix : String)
    (requests : Nat → Request N) {events : List FleetEvent} {fleet : Fleet N}
    (run : Fleet.Run policy keyPrefix requests events fleet)
    (clock : (events.filterMap FleetEvent.now).Pairwise (· ≤ ·)) (org : OrgId) (s w : ℚ) (hw : 0 ≤ w)
    (admitted : Finset Nat) (h : ∀ r ∈ admitted, fleet.Admitted requests org s (s + w) r) :
    (admitted.card : ℚ) ≤ (N + 1) * (policy.burst + policy.requestsPerSecond * w) ∧
      (AnsweredThroughout requests events org s (s + w) →
        (admitted.card : ℚ) ≤ policy.burst + policy.requestsPerSecond * w) := by
  have window : s ≤ s + w := le_add_of_nonneg_right hw
  have width : s + w - s = w := add_sub_cancel_left s w
  constructor
  · have each : ∀ bucket : Option (Fin N), ((admitted.filter (decidedBy requests fleet · = bucket)).card : ℚ) ≤
        policy.burst + policy.requestsPerSecond * w := by
      intro bucket
      rw [← width]
      have filtered : ∀ r ∈ admitted.filter (decidedBy requests fleet · = bucket),
          fleet.Admitted requests org s (s + w) r ∧ decidedBy requests fleet r = bucket := by
        intro r hr
        exact ⟨h r (Finset.mem_filter.mp hr).1, (Finset.mem_filter.mp hr).2⟩
      cases bucket with
      | none => exact shared_admitted_le run clock window filtered
      | some replica => exact local_admitted_le run clock window filtered
    calc (admitted.card : ℚ)
        = ∑ bucket : Option (Fin N), ((admitted.filter (decidedBy requests fleet · = bucket)).card : ℚ) := by
          rw [← Nat.cast_sum, ← Finset.card_eq_sum_card_fiberwise fun r _ => Finset.mem_univ _]
      _ ≤ ∑ _ : Option (Fin N), (policy.burst + policy.requestsPerSecond * w) :=
          Finset.sum_le_sum fun bucket _ => each bucket
      _ = (N + 1) * (policy.burst + policy.requestsPerSecond * w) := by
          rw [Finset.sum_const, Finset.card_univ, Fintype.card_option, Fintype.card_fin, nsmul_eq_mul,
            Nat.cast_add_one]
  · intro answered
    rw [← width]
    refine shared_admitted_le run clock window fun r hr => ⟨h r hr, ?_⟩
    obtain ⟨own, d, hd, after, before, -⟩ := h r hr
    have shared : d.shared = true := by
      by_contra no
      have raised := raised_of_decided run r d hd (Bool.not_eq_true _ ▸ no)
      exact answered r d.now raised own ⟨after, before⟩
    rw [decidedBy, Option.mem_def.mp hd, Option.any_some, if_pos shared]

/-- Two requests of one organization at two replicas. The first is admitted by the shared store; the
second is refused there, its call raises all the same, and its own replica admits it. -/
def pair : Nat → Request 2 := fun r => ⟨if r = 0 then 0 else 1, 1⟩

def outage : List FleetEvent := [.script 0 0, .answered 0, .script 1 0, .unavailable 1 0]

def afterOutage : Fleet 2 := outage.foldl (Fleet.step single "gateway" pair) Fleet.init

theorem degraded_mode_bounded_in_an_outage :
    Fleet.Run single "gateway" pair outage afterOutage ∧
      (∀ r ∈ ({0, 1} : Finset Nat), afterOutage.Admitted pair 1 0 (0 + 0) r) ∧
      ((({0, 1} : Finset Nat).card : ℚ) ≤ ((2 : Nat) + 1) * (single.burst + single.requestsPerSecond * 0)) := by
  have first : Fleet.Run single "gateway" pair [.script 0 0] _ := .step .start rfl
  have second : Fleet.Run single "gateway" pair [.script 0 0, .answered 0] _ :=
    .step first ⟨by decide +kernel, rfl⟩
  have third : Fleet.Run single "gateway" pair [.script 0 0, .answered 0, .script 1 0] _ := .step second rfl
  have run : Fleet.Run single "gateway" pair outage afterOutage := .step third rfl
  have admitted : ∀ r ∈ ({0, 1} : Finset Nat), afterOutage.Admitted pair 1 0 (0 + 0) r := by
    decide +kernel
  exact ⟨run, admitted, (degraded_mode_bounded single "gateway" pair run (by decide) 1 0 0 le_rfl _ admitted).1⟩

end LlmGateway.RateLimit
