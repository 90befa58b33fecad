import LlmGateway.Execution.Operation

/-! `InMemoryCircuitBreaker`: a three-state circuit for each organization and provider. -/
namespace LlmGateway.Health
open Ledger Execution

inductive CircuitState where
  | closed
  | opened
  | halfOpen
  deriving DecidableEq, Repr

structure Circuit where
  state : CircuitState := .closed
  consecutiveFailures : Nat := 0
  openedAt : Option Timestamp := none
  deriving DecidableEq, Repr

/-- `cooldown` is in microseconds. -/
structure CircuitBreakerConfig where
  failureThreshold : Nat
  cooldown : Int
  threshold_pos : 1 ≤ failureThreshold
  cooldown_nonneg : 0 ≤ cooldown

structure ProviderCircuit where
  provider : String
  state : CircuitState
  deriving DecidableEq, Repr

/-- `TRANSIENT_PROVIDER_ERROR_CATEGORIES`. -/
def transient : ProviderErrorCategory → Bool
  | .timeout | .rateLimited | .serverError => true
  | .invalidRequest | .authentication => false

abbrev CircuitKey := OrgId × String

section Entry
variable (config : CircuitBreakerConfig) (now : Timestamp)

/-- `_on_success`, on the circuit's entry in the dictionary. -/
def onSuccess (entry : Option Circuit) : Option Circuit :=
  entry.map fun _ => { state := .closed, consecutiveFailures := 0, openedAt := none }

def trip (circuit : Circuit) : Circuit :=
  { circuit with state := .opened, openedAt := some now }

/-- `_on_transient_failure`. -/
def onTransientFailure (entry : Option Circuit) : Circuit :=
  let circuit := entry.getD {}
  if circuit.state = .halfOpen then trip now circuit
  else
    let circuit := { circuit with consecutiveFailures := circuit.consecutiveFailures + 1 }
    if circuit.state = .closed ∧ circuit.consecutiveFailures ≥ config.failureThreshold then
      trip now circuit
    else circuit

/-- Whether a result is a transient fault. -/
def fault (result : ProviderCallResult) : Bool := !result.ok && result.errorCategory.any transient

def observeEntry (result : ProviderCallResult) (entry : Option Circuit) : Option Circuit :=
  if result.ok then onSuccess entry
  else if result.errorCategory.any transient then some (onTransientFailure config now entry)
  else entry

/-- The cooldown of an open circuit has passed. -/
def recovering (circuit : Circuit) : Bool :=
  circuit.state = .opened && circuit.openedAt.any fun openedAt => now - openedAt ≥ config.cooldown

/-- What `assess` leaves of one entry, and the state it reports. -/
def assessEntry : Option Circuit → Option Circuit × CircuitState
  | none => (none, .closed)
  | some circuit =>
    let circuit := if recovering config now circuit then { circuit with state := .halfOpen }
      else circuit
    (some circuit, circuit.state)

end Entry

abbrev InMemoryCircuitBreaker := CircuitKey → Option Circuit

/-- A call, with the clock reading it takes. -/
inductive BreakerCall where
  | observe (now : Timestamp) (organizationId : OrgId) (provider : String)
      (result : ProviderCallResult)
  | assess (now : Timestamp) (organizationId : OrgId) (providers : List String)

namespace InMemoryCircuitBreaker
variable (config : CircuitBreakerConfig) (breaker : InMemoryCircuitBreaker)

def observe (now : Timestamp) (organizationId : OrgId) (provider : String)
    (result : ProviderCallResult) : InMemoryCircuitBreaker :=
  Function.update breaker (organizationId, provider)
    (observeEntry config now result (breaker (organizationId, provider)))

def assess (now : Timestamp) (organizationId : OrgId) :
    InMemoryCircuitBreaker → List String → InMemoryCircuitBreaker × List ProviderCircuit
  | breaker, [] => (breaker, [])
  | breaker, provider :: providers =>
    let (entry, state) := assessEntry config now (breaker (organizationId, provider))
    let (breaker, rest) := assess now organizationId
      (Function.update breaker (organizationId, provider) entry) providers
    (breaker, ⟨provider, state⟩ :: rest)

/-- The breaker after a call, and what the call reports. -/
def call : BreakerCall → InMemoryCircuitBreaker × List ProviderCircuit
  | .observe now org provider result => (breaker.observe config now org provider result, [])
  | .assess now org providers => assess config now org breaker providers

/-- The breaker after a history of calls, oldest first. -/
def after (calls : List BreakerCall) : InMemoryCircuitBreaker :=
  calls.foldl (fun breaker c => (breaker.call config c).1) fun _ => none

/-- The circuit of a key; one never seen is closed. -/
def circuit (k : CircuitKey) : Circuit := (breaker k).getD {}

end InMemoryCircuitBreaker

namespace BreakerCall

/-- The call is for the key. -/
def concerns (k : CircuitKey) : BreakerCall → Bool
  | .observe _ org provider _ => (org, provider) = k
  | .assess _ org providers => org = k.1 ∧ k.2 ∈ providers

/-- The call observes a success of the key. -/
def succeeds (k : CircuitKey) : BreakerCall → Bool
  | .observe _ org provider result => (org, provider) = k && result.ok
  | .assess .. => false

/-- The call observes a transient fault of the key. -/
def faults (k : CircuitKey) : BreakerCall → Bool
  | .observe _ org provider result => (org, provider) = k && fault result
  | .assess .. => false

def now : BreakerCall → Timestamp
  | .observe now .. | .assess now .. => now

/-- The states a call's report has for the key. -/
def reported (k : CircuitKey) (report : List ProviderCircuit) : BreakerCall → List CircuitState
  | .observe .. => []
  | .assess _ org _ =>
    if org = k.1 then (report.filter fun r => r.provider = k.2).map (·.state) else []

/-- What the call does to the key's entry. -/
def entry (config : CircuitBreakerConfig) (k : CircuitKey) (entry : Option Circuit) :
    BreakerCall → Option Circuit
  | .observe now org provider result =>
    if (org, provider) = k then observeEntry config now result entry else entry
  | .assess now org providers =>
    if org = k.1 ∧ k.2 ∈ providers then (assessEntry config now entry).1 else entry

end BreakerCall

variable {config : CircuitBreakerConfig} {now : Timestamp} {breaker : InMemoryCircuitBreaker}
  {k : CircuitKey}

namespace InMemoryCircuitBreaker

/-- A second look at the same time finds what the first one left. -/
theorem assessEntry_idem (entry : Option Circuit) :
    assessEntry config now (assessEntry config now entry).1 = assessEntry config now entry := by
  cases entry with
  | none => rfl
  | some circuit =>
    simp only [assessEntry]
    by_cases h : recovering config now circuit = true
    · have probing : recovering config now { circuit with state := .halfOpen } = false := rfl
      simp only [h, if_true, probing, Bool.false_eq_true, if_false]
    · simp only [h, Bool.false_eq_true, if_false]

theorem assessEntry_state : (assessEntry config now (breaker k)).2 =
    if recovering config now (breaker.circuit k) then .halfOpen
    else (breaker.circuit k).state := by
  unfold circuit
  cases breaker k with
  | none => rfl
  | some circuit =>
    simp only [assessEntry, Option.getD_some]
    split_ifs <;> rfl

theorem assess_apply (org : OrgId) (providers : List String) :
    (assess config now org breaker providers).1 k =
      if org = k.1 ∧ k.2 ∈ providers then (assessEntry config now (breaker k)).1 else breaker k := by
  induction providers generalizing breaker with
  | nil => simp [assess]
  | cons provider providers ih =>
    simp only [assess]
    rw [ih]
    by_cases hk : (org, provider) = k
    · subst hk
      simp only [Function.update_self, assessEntry_idem, List.mem_cons, true_or, and_self, if_true,
        true_and]
      split_ifs <;> rfl
    · rw [Function.update_of_ne (Ne.symm hk)]
      have other : org = k.1 → k.2 ≠ provider := fun h h' => hk (Prod.ext h h'.symm)
      refine if_congr (and_congr_right fun h => ?_) rfl rfl
      rw [List.mem_cons, or_iff_right (other h)]

/-- A call acts on each key's entry alone. -/
theorem call_apply (c : BreakerCall) : (breaker.call config c).1 k = c.entry config k (breaker k) := by
  cases c with
  | observe now org provider result =>
    simp only [call, observe, BreakerCall.entry]
    split_ifs with h
    · rw [h, Function.update_self]
    · rw [Function.update_of_ne (Ne.symm h)]
  | assess now org providers => exact assess_apply org providers

theorem assess_states (org : OrgId) (provider : String) (providers : List String) :
    ((assess config now org breaker providers).2.filter fun r => r.provider = provider).map
        (·.state) =
      List.replicate (providers.count provider)
        (assessEntry config now (breaker (org, provider))).2 := by
  induction providers generalizing breaker with
  | nil => rfl
  | cons p providers ih =>
    simp only [assess]
    by_cases hp : p = provider
    · subst hp
      rw [List.filter_cons_of_pos (by simp), List.map_cons, ih, Function.update_self,
        assessEntry_idem, List.count_cons_self, List.replicate_succ]
    · rw [List.filter_cons_of_neg (by simpa using hp), ih,
        Function.update_of_ne (fun h => hp (Prod.mk.inj h).2.symm), List.count_cons_of_ne hp]

theorem after_concat (calls : List BreakerCall) (c : BreakerCall) :
    after config (calls ++ [c]) = ((after config calls).call config c).1 := by
  rw [after, List.foldl_append]
  rfl

end InMemoryCircuitBreaker
end LlmGateway.Health
