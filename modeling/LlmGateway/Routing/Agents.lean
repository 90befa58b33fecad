import LlmGateway.Health.BreakerSpec
import Mathlib.Data.List.MinMax
import Mathlib.Data.Prod.Lex
import Mathlib.Data.String.Basic

/-! `AgentRuntime.decide`: how a request's provider is chosen from its candidates' circuits. -/
namespace LlmGateway.Routing
open Ledger Health

inductive RoutingOutcome where
  | selected
  | noCandidate
  | blockedByPolicy
  | budgetExceeded
  | allUnhealthy
  deriving DecidableEq, Repr

structure HealthDecision where
  healthyCandidates : List String
  degradedCandidates : List String
  excludedCandidates : List String
  deriving DecidableEq, Repr

structure RoutingCandidate where
  provider : String
  degraded : Bool := false
  deriving DecidableEq, Repr

structure RoutingDecision where
  outcome : RoutingOutcome
  selectedProvider : Option String := none
  deriving DecidableEq, Repr

/-- `HealthAgent._assess`, from what the breaker reports. -/
def HealthDecision.ofAssessments (assessments : List ProviderCircuit) : HealthDecision where
  healthyCandidates := (assessments.filter fun a => a.state = .closed).map (·.provider)
  degradedCandidates := (assessments.filter fun a => a.state = .halfOpen).map (·.provider)
  excludedCandidates := (assessments.filter fun a => a.state = .opened).map (·.provider)

/-- The candidates `ProviderAgent` ranks: healthy, then degraded. -/
def HealthDecision.usable (health : HealthDecision) : List RoutingCandidate :=
  health.healthyCandidates.map (⟨·, false⟩) ++ health.degradedCandidates.map (⟨·, true⟩)

namespace HealthTieredRoutingStrategy

def key (c : RoutingCandidate) : Bool ×ₗ String := toLex (c.degraded, c.provider)

def select (candidates : List RoutingCandidate) : Option String :=
  (candidates.argmin key).map (·.provider)

end HealthTieredRoutingStrategy

/-- What `PolicyAgent` and `CostAgent` were built to answer. -/
structure AgentRuntime where
  allow : Bool := true
  withinBudget : Bool := true

section
variable (config : CircuitBreakerConfig) (runtime : AgentRuntime)

/-- The decision, with the breaker it leaves. -/
def AgentRuntime.decide (breaker : InMemoryCircuitBreaker) (now : Timestamp)
    (organizationId : OrgId) (candidates : List String) :
    InMemoryCircuitBreaker × RoutingDecision :=
  if !runtime.allow then (breaker, ⟨.blockedByPolicy, none⟩)
  else if !runtime.withinBudget then (breaker, ⟨.budgetExceeded, none⟩)
  else
    let (breaker, assessments) := breaker.assess config now organizationId candidates
    let health := HealthDecision.ofAssessments assessments
    if health.healthyCandidates = [] ∧ health.degradedCandidates = [] ∧ candidates ≠ [] then
      (breaker, ⟨.allUnhealthy, none⟩)
    else
      match HealthTieredRoutingStrategy.select health.usable with
      | some provider => (breaker, ⟨.selected, some provider⟩)
      | none => (breaker, ⟨.noCandidate, none⟩)

/-- The state an assessment of the provider reports. -/
def assessed (breaker : InMemoryCircuitBreaker) (now : Timestamp) (organizationId : OrgId)
    (provider : String) : CircuitState :=
  (assessEntry config now (breaker (organizationId, provider))).2

end

variable {config : CircuitBreakerConfig} {runtime : AgentRuntime}
  {breaker : InMemoryCircuitBreaker} {now : Timestamp} {org : OrgId} {candidates : List String}

private theorem mem_circuits {l : List ProviderCircuit} {r : ProviderCircuit} :
    r ∈ l ↔ r.state ∈ (l.filter fun x => x.provider = r.provider).map (·.state) := by
  constructor
  · intro h
    exact List.mem_map_of_mem (List.mem_filter.mpr ⟨h, decide_eq_true rfl⟩)
  · intro h
    obtain ⟨⟨provider, state⟩, hx, hstate⟩ := List.mem_map.mp h
    obtain ⟨hmem, hprovider⟩ := List.mem_filter.mp hx
    rw [decide_eq_true_eq] at hprovider
    obtain ⟨provider', state'⟩ := r
    cases hprovider
    cases hstate
    exact hmem

theorem assessed_eq {p : String} : assessed config breaker now org p =
    if recovering config now (breaker.circuit (org, p)) then .halfOpen
    else (breaker.circuit (org, p)).state :=
  InMemoryCircuitBreaker.assessEntry_state

theorem assessed_closed {p : String} : assessed config breaker now org p = .closed ↔
    (breaker.circuit (org, p)).state = .closed := by
  rw [assessed_eq]
  split_ifs with hr
  · rw [opened_of_recovering hr]
    decide
  · rfl

theorem assessed_halfOpen {p : String} : assessed config breaker now org p = .halfOpen ↔
    (breaker.circuit (org, p)).state = .halfOpen ∨
      recovering config now (breaker.circuit (org, p)) = true := by
  rw [assessed_eq]
  split_ifs with hr
  · exact ⟨fun _ => .inr hr, fun _ => rfl⟩
  · rw [or_iff_left hr]

/-- An assessment reports each candidate in its state. -/
theorem mem_assess {r : ProviderCircuit} :
    r ∈ (InMemoryCircuitBreaker.assess config now org breaker candidates).2 ↔
      r.provider ∈ candidates ∧ r.state = assessed config breaker now org r.provider := by
  rw [mem_circuits, InMemoryCircuitBreaker.assess_states, List.mem_replicate, ne_eq,
    List.count_eq_zero, not_not, assessed]

theorem mem_tier {state : CircuitState} {p : String} :
    p ∈ (((InMemoryCircuitBreaker.assess config now org breaker candidates).2.filter
        fun a => a.state = state).map (·.provider)) ↔
      p ∈ candidates ∧ assessed config breaker now org p = state := by
  simp only [List.mem_map, List.mem_filter, mem_assess, decide_eq_true_eq]
  constructor
  · rintro ⟨a, ⟨⟨hp, hs⟩, hstate⟩, rfl⟩
    exact ⟨hp, hs.symm.trans hstate⟩
  · rintro ⟨hp, hs⟩
    exact ⟨⟨p, state⟩, ⟨⟨hp, hs.symm⟩, rfl⟩, rfl⟩

/-- The candidates that may be selected: those not open, degraded when half-open. -/
theorem mem_usable {c : RoutingCandidate} :
    c ∈ (HealthDecision.ofAssessments
        (InMemoryCircuitBreaker.assess config now org breaker candidates).2).usable ↔
      c.provider ∈ candidates ∧ assessed config breaker now org c.provider =
        if c.degraded then .halfOpen else .closed := by
  obtain ⟨provider, degraded⟩ := c
  rw [HealthDecision.usable, List.mem_append, List.mem_map, List.mem_map]
  cases degraded with
  | false =>
    simp only [RoutingCandidate.mk.injEq, and_true, exists_eq_right, Bool.true_eq_false, and_false,
      exists_const, or_false]
    exact mem_tier
  | true =>
    simp only [RoutingCandidate.mk.injEq, and_true, exists_eq_right, Bool.false_eq_true, and_false,
      exists_const, false_or]
    exact mem_tier

namespace HealthTieredRoutingStrategy

theorem key_lt {c d : RoutingCandidate} :
    key c < key d ↔ (c.degraded < d.degraded ∨ c.degraded = d.degraded ∧ c.provider < d.provider) :=
  Prod.Lex.toLex_lt_toLex

/-- A provider is selected when it is a candidate's and no candidate ranks before that one. -/
theorem select_eq_some {candidates : List RoutingCandidate} {p : String} :
    select candidates = some p ↔
      ∃ c ∈ candidates, c.provider = p ∧ ∀ d ∈ candidates, ¬ key d < key c := by
  constructor
  · intro h
    obtain ⟨c, hc, rfl⟩ := Option.map_eq_some_iff.mp h
    exact ⟨c, List.argmin_mem hc, rfl, fun d hd => List.not_lt_of_mem_argmin hd hc⟩
  · rintro ⟨c, hc, rfl, least⟩
    obtain ⟨b, hb⟩ : ∃ b, candidates.argmin key = some b := by
      rw [← Option.ne_none_iff_exists', ne_eq, List.argmin_eq_none]
      exact List.ne_nil_of_mem hc
    have same : key b = key c :=
      le_antisymm (List.le_of_mem_argmin hc hb) (not_lt.mp (least b (List.argmin_mem hb)))
    rw [select, hb, Option.map_some, (Prod.mk.inj (toLex_inj.mp same)).2]

end HealthTieredRoutingStrategy

theorem AgentRuntime.decide_breaker (runtime : AgentRuntime) (candidates : List String) :
    (runtime.decide config breaker now org candidates).1 =
      if runtime.allow = true ∧ runtime.withinBudget = true then
        (InMemoryCircuitBreaker.assess config now org breaker candidates).1
      else breaker := by
  unfold decide
  cases runtime.allow with
  | false => rfl
  | true =>
    cases runtime.withinBudget with
    | false => rfl
    | true =>
      simp only [Bool.not_true, Bool.false_eq_true, if_false, and_self, if_true]
      split_ifs
      · rfl
      · split <;> rfl

theorem decide_selects (allow : runtime.allow = true)
    (budget : runtime.withinBudget = true) :
    (runtime.decide config breaker now org candidates).2.selectedProvider =
      HealthTieredRoutingStrategy.select (HealthDecision.ofAssessments
        (InMemoryCircuitBreaker.assess config now org breaker candidates).2).usable := by
  simp only [AgentRuntime.decide, allow, budget, Bool.not_true, Bool.false_eq_true, if_false]
  split_ifs with hnone
  · rw [HealthDecision.usable, hnone.1, hnone.2.1]
    rfl
  · split
    · next h => rw [h]
    · next h => rw [h]

theorem AgentRuntime.decide_allowed {p : String}
    (h : (runtime.decide config breaker now org candidates).2.selectedProvider = some p) :
    runtime.allow = true ∧ runtime.withinBudget = true := by
  cases hallow : runtime.allow with
  | false => simp [decide, hallow] at h
  | true =>
    cases hbudget : runtime.withinBudget with
    | false => simp [decide, hallow, hbudget] at h
    | true => exact ⟨rfl, rfl⟩

theorem AgentRuntime.decide_mem {p : String}
    (h : (runtime.decide config breaker now org candidates).2.selectedProvider = some p) :
    p ∈ candidates := by
  obtain ⟨hallow, hbudget⟩ := decide_allowed h
  rw [decide_selects hallow hbudget, HealthTieredRoutingStrategy.select_eq_some] at h
  obtain ⟨c, hc, rfl, _⟩ := h
  exact (mem_usable.mp hc).1

/-- A half-open provider is selected when it is a candidate, no candidate is closed and none that
is half-open has a smaller name. -/
theorem AgentRuntime.decide_degraded {p : String}
    (hp : assessed config breaker now org p = .halfOpen) :
    (runtime.decide config breaker now org candidates).2.selectedProvider = some p ↔
      runtime.allow = true ∧ runtime.withinBudget = true ∧ p ∈ candidates ∧
        ∀ q ∈ candidates, assessed config breaker now org q ≠ .closed ∧
          (assessed config breaker now org q = .halfOpen → ¬ q < p) := by
  cases hallow : runtime.allow with
  | false => simp [decide, hallow]
  | true =>
    cases hbudget : runtime.withinBudget with
    | false => simp [decide, hallow, hbudget]
    | true =>
      rw [decide_selects hallow hbudget, HealthTieredRoutingStrategy.select_eq_some]
      simp only [true_and, mem_usable, HealthTieredRoutingStrategy.key_lt]
      constructor
      · rintro ⟨⟨_, degraded⟩, ⟨hmem, hstate⟩, rfl, least⟩
        rw [hp] at hstate
        cases degraded with
        | false => cases hstate
        | true =>
          refine ⟨hmem, fun q hq => ⟨fun hc => ?_, fun hh hlt => ?_⟩⟩
          · exact least ⟨q, false⟩ ⟨hq, hc⟩ (.inl (show false < true by decide))
          · exact least ⟨q, true⟩ ⟨hq, hh⟩ (.inr ⟨rfl, hlt⟩)
      · rintro ⟨hmem, best⟩
        refine ⟨⟨p, true⟩, ⟨hmem, hp⟩, rfl, ?_⟩
        rintro ⟨q, degraded⟩ ⟨hq, hstate⟩ hlt
        obtain ⟨notClosed, notSmaller⟩ := best q hq
        cases degraded with
        | false => exact notClosed hstate
        | true =>
          rcases hlt with hlt | ⟨_, hlt⟩
          · exact absurd hlt (lt_irrefl true)
          · exact notSmaller hstate hlt

end LlmGateway.Routing
