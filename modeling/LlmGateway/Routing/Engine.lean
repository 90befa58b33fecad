import Mathlib
import LlmGateway.Routing.Agents

/-! `AgentOrchestratedRoutingEngine`: the chain of agents with its shared context and reasoning
trace, over a provider catalog. A `float` is carried as its text. -/
namespace LlmGateway.Routing.Engine
open Ledger Health

inductive Detail where
  | count (n : Nat)
  | float (repr : String)
  | texts (l : List String)
  deriving DecidableEq, Repr

structure ReasoningStep where
  agent : String
  summary : String
  detail : List (String × Detail) := []
  deriving DecidableEq, Repr

structure PlannerDecision where
  intent : String
  complexity : String
  requiredCapabilities : List String := []
  deriving DecidableEq, Repr

structure PolicyDecision where
  allowed : Bool
  reason : Option String := none
  allowedProviders : List String := []
  allowedRegions : List String := []
  deriving DecidableEq, Repr

structure CostDecision where
  estimatedCost : String
  currency : String := "USD"
  withinBudget : Bool := true
  budgetRemaining : Option String := none
  deriving DecidableEq, Repr

/-- A request's entries, as `str` shows them. -/
abbrev Request := String → Option String

structure AgentContext where
  organizationId : OrgId
  correlationId : String
  request : Request
  candidates : List String
  planner : Option PlannerDecision := none
  policy : Option PolicyDecision := none
  cost : Option CostDecision := none
  health : Option HealthDecision := none
  selectedProvider : Option String := none
  confidence : Option ℚ := none

/-- The complete decision; `RoutingDecision` has its outcome and selection. -/
structure ExplainedDecision extends RoutingDecision where
  organizationId : OrgId
  correlationId : String
  decidedAt : Timestamp
  reasoningSteps : List ReasoningStep
  plannerResult : Option PlannerDecision
  policyResult : Option PolicyDecision
  costResult : Option CostDecision
  healthResult : Option HealthDecision
  confidence : Option ℚ
  deriving DecidableEq

structure PlannerAgent where
  name : String := "planner"

structure PolicyAgent where
  name : String := "policy"
  allow : Bool := true
  reason : Option String := none

structure CostAgent where
  name : String := "cost"
  estimatedCost : String := "0.0"
  withinBudget : Bool := true

/-- `breaker` says whether one is wired. -/
structure HealthAgent where
  name : String := "health"
  breaker : Bool := false
  unhealthy : List String := []

inductive RoutingStrategy where
  | healthTiered

def RoutingStrategy.select : RoutingStrategy → List RoutingCandidate → Option String
  | .healthTiered => HealthTieredRoutingStrategy.select

structure ProviderAgent where
  name : String := "provider"
  strategy : Option RoutingStrategy := none

def longPromptChars : Nat := 2000

def PlannerAgent.contribute (agent : PlannerAgent) (context : AgentContext) : AgentContext × ReasoningStep :=
  let modality := (context.request "modality").getD "chat"
  let prompt := (context.request "prompt").getD ""
  let complexity := if longPromptChars ≤ prompt.length then "high" else "low"
  let capabilities := if modality = "" then [] else [modality]
  ({ context with planner := some ⟨modality, complexity, capabilities⟩ },
    { agent := agent.name
      summary := s!"intent={modality} complexity={complexity}"
      detail := [("prompt_chars", .count prompt.length), ("capabilities", .texts capabilities)] })

def PolicyAgent.contribute (agent : PolicyAgent) (context : AgentContext) : AgentContext × ReasoningStep :=
  -- an empty reason reads as none does
  let reason := (agent.reason.filter (· ≠ "")).getD "policy"
  ({ context with policy := some { allowed := agent.allow, reason := agent.reason } },
    { agent := agent.name, summary := if agent.allow then "allowed" else s!"denied: {reason}" })

def CostAgent.contribute (agent : CostAgent) (context : AgentContext) : AgentContext × ReasoningStep :=
  let verdict := if agent.withinBudget then "within budget" else "budget exceeded"
  let estimate := agent.estimatedCost
  ({ context with cost := some { estimatedCost := estimate, withinBudget := agent.withinBudget } },
    { agent := agent.name
      summary := s!"estimate={estimate} ({verdict})"
      detail := [("estimated_cost", .float estimate)] })

section
variable (config : CircuitBreakerConfig) (now : Timestamp)

def HealthAgent.contribute (agent : HealthAgent) (breaker : InMemoryCircuitBreaker)
    (context : AgentContext) : InMemoryCircuitBreaker × AgentContext × ReasoningStep :=
  let (breaker, health) : InMemoryCircuitBreaker × HealthDecision :=
    if agent.breaker then
      let (breaker, assessments) := breaker.assess config now context.organizationId context.candidates
      (breaker, .ofAssessments assessments)
    else
      (breaker, ⟨context.candidates.filter (· ∉ agent.unhealthy), [],
        context.candidates.filter (· ∈ agent.unhealthy)⟩)
  let healthy := health.healthyCandidates.length
  let degraded := health.degradedCandidates.length
  let excluded := health.excludedCandidates.length
  (breaker, { context with health := some health },
    { agent := agent.name
      summary := s!"{healthy} healthy, {degraded} degraded, {excluded} excluded"
      detail := [("healthy", .texts health.healthyCandidates),
        ("degraded", .texts health.degradedCandidates), ("excluded", .texts health.excludedCandidates)] })

def ProviderAgent.select (agent : ProviderAgent) (candidates : List RoutingCandidate) : Option String :=
  match agent.strategy with
  | some strategy => strategy.select candidates
  | none => candidates.head?.map (·.provider)

def ProviderAgent.contribute (agent : ProviderAgent) (context : AgentContext) : AgentContext × ReasoningStep :=
  let health := context.health.getD ⟨[], [], []⟩
  let candidates := health.usable
  match agent.select candidates with
  | some selected =>
    let usable := candidates.length
    let tier := if selected ∈ health.degradedCandidates then "degraded" else "healthy"
    ({ context with selectedProvider := some selected, confidence := some (1 / usable) },
      { agent := agent.name, summary := s!"selected {selected} ({tier}) from {usable} usable candidate(s)" })
  | none => (context, { agent := agent.name, summary := "no usable candidate to select" })

inductive BaseAgent where
  | planner (agent : PlannerAgent)
  | policy (agent : PolicyAgent)
  | cost (agent : CostAgent)
  | health (agent : HealthAgent)
  | provider (agent : ProviderAgent)

/-- The agents with what they change: the context, and the breaker a health agent asks. -/
def BaseAgent.contribute (breaker : InMemoryCircuitBreaker) (context : AgentContext) :
    BaseAgent → InMemoryCircuitBreaker × AgentContext × ReasoningStep
  | .planner agent => (breaker, agent.contribute context)
  | .policy agent => (breaker, agent.contribute context)
  | .cost agent => (breaker, agent.contribute context)
  | .health agent => agent.contribute config now breaker context
  | .provider agent => (breaker, agent.contribute context)

def terminalOutcome (context : AgentContext) : Option RoutingOutcome :=
  if context.policy.any (!·.allowed) then some .blockedByPolicy
  else if context.cost.any (!·.withinBudget) then some .budgetExceeded
  else if context.health.any (fun h => h.healthyCandidates = [] ∧ h.degradedCandidates = []) ∧
      context.candidates ≠ [] then some .allUnhealthy
  else none

/-- The loop of `AgentRuntime.decide` over the agents that are left. -/
def consult (breaker : InMemoryCircuitBreaker) (context : AgentContext) (steps : List ReasoningStep) :
    List BaseAgent → InMemoryCircuitBreaker × AgentContext × List ReasoningStep × RoutingOutcome
  | [] => (breaker, context, steps, if context.selectedProvider.isSome then .selected else .noCandidate)
  | agent :: agents =>
    let (breaker, context, step) := agent.contribute config now breaker context
    let steps := steps ++ [step]
    match terminalOutcome context with
    | some outcome => (breaker, context, steps, outcome)
    | none => consult breaker context steps agents

/-- `_build`: a name that is empty has no confidence. -/
def build (decidedAt : Timestamp) (context : AgentContext) (steps : List ReasoningStep)
    (outcome : RoutingOutcome) : ExplainedDecision :=
  let selected := if outcome = .selected then context.selectedProvider else none
  { outcome, selectedProvider := selected, organizationId := context.organizationId,
    correlationId := context.correlationId, decidedAt, reasoningSteps := steps,
    plannerResult := context.planner, policyResult := context.policy, costResult := context.cost,
    healthResult := context.health,
    confidence := if (selected.filter (· ≠ "")).isSome then context.confidence else none }

/-- A chain of agents, never an empty one. -/
structure AgentRuntime where
  agents : List BaseAgent
  nonempty : agents ≠ []

/-- The clock is read by the breaker and again when the decision is built. -/
def AgentRuntime.decide (runtime : AgentRuntime) (breaker : InMemoryCircuitBreaker) (decidedAt : Timestamp)
    (organizationId : OrgId) (correlationId : String) (request : Request) (candidates : List String) :
    InMemoryCircuitBreaker × ExplainedDecision :=
  let context : AgentContext := { organizationId, correlationId, request, candidates }
  let (breaker, context, steps, outcome) := consult config now breaker context [] runtime.agents
  (breaker, build decidedAt context steps outcome)

structure ProviderDescriptor where
  name : String
  model : String
  region : String := "global"
  deriving DecidableEq, Repr

/-- What a catalog holds at one time, for every organization. -/
abbrev ProviderCatalog := OrgId → List ProviderDescriptor

def ProviderCatalog.candidates (catalog : ProviderCatalog) (organizationId : OrgId) :
    List ProviderDescriptor :=
  catalog organizationId

def ProviderCatalog.get (catalog : ProviderCatalog) (organizationId : OrgId) (name : String) :
    Option ProviderDescriptor :=
  (catalog organizationId).find? (·.name = name)

structure RoutingExecution where
  decision : ExplainedDecision
  provider : Option ProviderDescriptor := none
  deriving DecidableEq

/-- The runtime selected a provider the catalog does not have. -/
structure RoutingIntegrityError where
  selected : Option String
  deriving DecidableEq

/-- `route`, with what the catalog holds when its candidates are read and when the selected one is. -/
def route (runtime : AgentRuntime) (catalog later : ProviderCatalog) (breaker : InMemoryCircuitBreaker)
    (decidedAt : Timestamp) (organizationId : OrgId) (correlationId : String) (request : Request) :
    InMemoryCircuitBreaker × Except RoutingIntegrityError RoutingExecution :=
  let candidates := catalog.candidates organizationId
  let (breaker, decision) := runtime.decide config now breaker decidedAt organizationId correlationId request
    (candidates.map (·.name))
  if decision.outcome ≠ .selected then (breaker, .ok { decision })
  else
    match later.get organizationId (decision.selectedProvider.getD "") with
    | none => (breaker, .error ⟨decision.selectedProvider⟩)
    | some provider => (breaker, .ok { decision, provider := some provider })

/-- The chain a deployment wires: the health agent asks a breaker and the provider agent ranks by
its tiers. -/
def chain (planner : PlannerAgent) (policy : PolicyAgent) (cost : CostAgent) (health provider : String) :
    AgentRuntime :=
  ⟨[.planner planner, .policy policy, .cost cost, .health { name := health, breaker := true },
    .provider { name := provider, strategy := some .healthTiered }], nofun⟩

end

section
variable {config : CircuitBreakerConfig} {now decidedAt : Timestamp} {breaker : InMemoryCircuitBreaker}
  {planner : PlannerAgent} {policy : PolicyAgent} {cost : CostAgent} {health provider : String}
  {org : OrgId} {correlationId : String} {request : Request} {candidates : List String}

/-- The provider agent writes the selection alone. -/
theorem ProviderAgent.contribute_terminal (agent : ProviderAgent) (context : AgentContext) :
    terminalOutcome (agent.contribute context).1 = terminalOutcome context := by
  rw [ProviderAgent.contribute]
  split <;> rfl

theorem ProviderAgent.contribute_step (agent : ProviderAgent) (context : AgentContext) :
    (agent.contribute context).2.agent = agent.name := by
  rw [ProviderAgent.contribute]
  split <;> rfl

theorem ProviderAgent.contribute_selected {agent : ProviderAgent} {context : AgentContext}
    (fresh : context.selectedProvider = none) :
    (agent.contribute context).1.selectedProvider =
      agent.select (context.health.getD ⟨[], [], []⟩).usable := by
  rw [ProviderAgent.contribute]
  split
  · next h => rw [h]
  · next h => rw [h, fresh]

section
variable {context : AgentContext} {steps : List ReasoningStep} {agent : BaseAgent} {agents : List BaseAgent}

theorem consult_undecided (h : terminalOutcome (agent.contribute config now breaker context).2.1 = none) :
    consult config now breaker context steps (agent :: agents) =
      consult config now (agent.contribute config now breaker context).1
        (agent.contribute config now breaker context).2.1
        (steps ++ [(agent.contribute config now breaker context).2.2]) agents := by
  simp only [consult, h]

theorem consult_decided (outcome : RoutingOutcome)
    (h : terminalOutcome (agent.contribute config now breaker context).2.1 = some outcome) :
    consult config now breaker context steps (agent :: agents) =
      ((agent.contribute config now breaker context).1, (agent.contribute config now breaker context).2.1,
        steps ++ [(agent.contribute config now breaker context).2.2], outcome) := by
  simp only [consult, h]

end

/-- What a decision has of its chain: the breaker it leaves, outcome and selection, and who spoke. -/
structure Explains (full : InMemoryCircuitBreaker × ExplainedDecision)
    (short : InMemoryCircuitBreaker × RoutingDecision) (spoken : RoutingOutcome → List String) : Prop where
  breaker : full.1 = short.1
  decision : full.2.toRoutingDecision = short.2
  trace : full.2.reasoningSteps.map (·.agent) = spoken short.2.outcome

theorem Explains.of_consulted {short : InMemoryCircuitBreaker × RoutingDecision}
    {spoken : RoutingOutcome → List String}
    {r : InMemoryCircuitBreaker × AgentContext × List ReasoningStep × RoutingOutcome}
    {context : AgentContext} {steps : List ReasoningStep} {outcome : RoutingOutcome}
    (consulted : r = (short.1, context, steps, outcome))
    (decided : (build decidedAt context steps outcome).toRoutingDecision = short.2)
    (spoke : steps.map (·.agent) = spoken short.2.outcome) :
    Explains (r.1, build decidedAt r.2.1 r.2.2.1 r.2.2.2) short spoken := by
  subst consulted
  exact ⟨rfl, decided, spoke⟩

/-- What the breaker reports of the candidates, by tiers. -/
def tiers (config : CircuitBreakerConfig) (now : Timestamp) (breaker : InMemoryCircuitBreaker) (org : OrgId)
    (candidates : List String) : HealthDecision :=
  .ofAssessments (breaker.assess config now org candidates).2

/-- Nothing can be selected though there are candidates. -/
def AllExcluded (health : HealthDecision) (candidates : List String) : Prop :=
  health.healthyCandidates = [] ∧ health.degradedCandidates = [] ∧ candidates ≠ []

instance (health : HealthDecision) (candidates : List String) : Decidable (AllExcluded health candidates) :=
  inferInstanceAs (Decidable (_ ∧ _ ∧ _))

theorem terminalOutcome_health {context : AgentContext} {health : HealthDecision}
    (allowed : context.policy.any (!·.allowed) = false) (within : context.cost.any (!·.withinBudget) = false) :
    terminalOutcome { context with health := some health } =
      if AllExcluded health context.candidates then some .allUnhealthy else none := by
  simp only [terminalOutcome, allowed, within, Bool.false_eq_true, if_false, Option.any_some,
    decide_eq_true_eq, and_assoc]
  rfl

theorem decide_wired : (Routing.AgentRuntime.mk true true).decide config breaker now org candidates =
    ((breaker.assess config now org candidates).1,
      if AllExcluded (tiers config now breaker org candidates) candidates then ⟨.allUnhealthy, none⟩
      else match HealthTieredRoutingStrategy.select (tiers config now breaker org candidates).usable with
        | some selected => ⟨.selected, some selected⟩
        | none => ⟨.noCandidate, none⟩) := by
  by_cases h : AllExcluded (tiers config now breaker org candidates) candidates
  · rw [if_pos h]
    exact if_pos h
  · rw [if_neg h]
    refine (if_neg h).trans ?_
    rw [tiers]
    cases HealthTieredRoutingStrategy.select
      (HealthDecision.ofAssessments (breaker.assess config now org candidates).2).usable with
    | none => rfl
    | some selected => rfl

section
variable {context : AgentContext} {steps : List ReasoningStep}

/-- The health agent's part, with a breaker wired. -/
theorem health_contributes (config : CircuitBreakerConfig) (now : Timestamp) (breaker : InMemoryCircuitBreaker)
    (context : AgentContext) (health : String) : ∃ step : ReasoningStep, step.agent = health ∧
    BaseAgent.contribute config now breaker context (.health { name := health, breaker := true }) =
      ((breaker.assess config now context.organizationId context.candidates).1,
        { context with health := some (tiers config now breaker context.organizationId context.candidates) },
        step) :=
  ⟨_, rfl, rfl⟩

/-- The health and the provider agent, once the others have let a request through. -/
theorem consult_health
    (allowed : context.policy.any (!·.allowed) = false) (within : context.cost.any (!·.withinBudget) = false)
    (fresh : context.selectedProvider = none) :
    ∃ context' steps' outcome,
      consult config now breaker context steps [.health { name := health, breaker := true },
          .provider { name := provider, strategy := some .healthTiered }] =
        (((Routing.AgentRuntime.mk true true).decide config breaker now context.organizationId
          context.candidates).1, context', steps', outcome) ∧
      (build decidedAt context' steps' outcome).toRoutingDecision =
        ((Routing.AgentRuntime.mk true true).decide config breaker now context.organizationId
          context.candidates).2 ∧
      steps'.map (·.agent) = steps.map (·.agent) ++
        if ((Routing.AgentRuntime.mk true true).decide config breaker now context.organizationId
          context.candidates).2.outcome = .allUnhealthy then [health] else [health, provider] := by
  obtain ⟨step, spoke, contributed⟩ := health_contributes config now breaker context health
  have terminal : terminalOutcome { context with
      health := some (tiers config now breaker context.organizationId context.candidates) } = _ :=
    terminalOutcome_health allowed within
  rw [decide_wired]
  by_cases h : AllExcluded (tiers config now breaker context.organizationId context.candidates) context.candidates
  · rw [if_pos h] at terminal ⊢
    rw [consult_decided .allUnhealthy (by rw [contributed, terminal]), contributed]
    refine ⟨_, _, _, rfl, rfl, ?_⟩
    rw [List.map_append, List.map_singleton, spoke, if_pos rfl]
  · rw [if_neg h] at terminal ⊢
    rw [consult_undecided (by rw [contributed, terminal]), contributed, consult_undecided]
    · refine ⟨_, _, _, rfl, ?_, ?_⟩
      · have selected : (ProviderAgent.contribute { name := provider, strategy := some .healthTiered }
            { context with health := some (tiers config now breaker context.organizationId context.candidates) }
            ).1.selectedProvider = _ := ProviderAgent.contribute_selected fresh
        simp only [build, BaseAgent.contribute, selected, Option.getD_some, ProviderAgent.select,
          RoutingStrategy.select]
        cases HealthTieredRoutingStrategy.select
          (tiers config now breaker context.organizationId context.candidates).usable with
        | none => rfl
        | some p => rfl
      · have who := ProviderAgent.contribute_step { name := provider, strategy := some .healthTiered }
          { context with health := some (tiers config now breaker context.organizationId context.candidates) }
        rw [if_neg]
        · rw [List.map_append, List.map_append, List.map_singleton, List.map_singleton, spoke, List.append_assoc]
          exact congrArg (fun name => steps.map (·.agent) ++ [health, name]) who
        · split <;> simp
    · exact (ProviderAgent.contribute_terminal _ _).trans terminal

end

/-- The agents that speak before a decision is reached. -/
def spoken (planner : PlannerAgent) (policy : PolicyAgent) (cost : CostAgent) (health provider : String) :
    RoutingOutcome → List String
  | .blockedByPolicy => [planner.name, policy.name]
  | .budgetExceeded => [planner.name, policy.name, cost.name]
  | .allUnhealthy => [planner.name, policy.name, cost.name, health]
  | .selected | .noCandidate => [planner.name, policy.name, cost.name, health, provider]

private theorem spoken_wired (breaker : InMemoryCircuitBreaker) (candidates : List String) :
    spoken planner policy cost health provider
        ((Routing.AgentRuntime.mk true true).decide config breaker now org candidates).2.outcome =
      [planner.name, policy.name, cost.name] ++
        if ((Routing.AgentRuntime.mk true true).decide config breaker now org candidates).2.outcome =
          .allUnhealthy then [health] else [health, provider] := by
  rw [decide_wired]
  by_cases h : AllExcluded (tiers config now breaker org candidates) candidates
  · rw [if_pos h]
    rfl
  · rw [if_neg h]
    split <;> rfl

/-- The chain explains the decision that is made without a trace. -/
theorem chain_explains (config : CircuitBreakerConfig) (now decidedAt : Timestamp)
    (breaker : InMemoryCircuitBreaker) (planner : PlannerAgent) (policy : PolicyAgent) (cost : CostAgent)
    (health provider : String) (org : OrgId) (correlationId : String) (request : Request)
    (candidates : List String) :
    Explains
      ((chain planner policy cost health provider).decide config now breaker decidedAt org correlationId
        request candidates)
      ((Routing.AgentRuntime.mk policy.allow cost.withinBudget).decide config breaker now org candidates)
      (spoken planner policy cost health provider) := by
  rw [AgentRuntime.decide, chain, consult_undecided rfl]
  cases hp : policy.allow with
  | false =>
    rw [consult_decided .blockedByPolicy (by simp [BaseAgent.contribute, PlannerAgent.contribute, PolicyAgent.contribute, terminalOutcome, hp])]
    exact ⟨rfl, rfl, rfl⟩
  | true =>
    rw [consult_undecided (by simp [BaseAgent.contribute, PlannerAgent.contribute, PolicyAgent.contribute, terminalOutcome, hp])]
    cases hc : cost.withinBudget with
    | false =>
      rw [consult_decided .budgetExceeded (by simp [BaseAgent.contribute, PlannerAgent.contribute, PolicyAgent.contribute, CostAgent.contribute,
        terminalOutcome, hp, hc])]
      exact ⟨rfl, rfl, rfl⟩
    | true =>
      rw [consult_undecided (by simp [BaseAgent.contribute, PlannerAgent.contribute, PolicyAgent.contribute,
        CostAgent.contribute, terminalOutcome, hp, hc])]
      have let_through : (cost.contribute (policy.contribute (planner.contribute
          { organizationId := org, correlationId, request, candidates }).1).1).1.policy.any (!·.allowed) = false := by
        simp [PolicyAgent.contribute, CostAgent.contribute, hp]
      have affordable : (cost.contribute (policy.contribute (planner.contribute
          { organizationId := org, correlationId, request, candidates }).1).1).1.cost.any (!·.withinBudget) = false := by
        simp [CostAgent.contribute, hc]
      obtain ⟨context, steps, outcome, consulted, decided, spoke⟩ := consult_health let_through affordable rfl
      refine .of_consulted consulted decided (spoke.trans ?_)
      rw [spoken_wired]
      rfl

end
end LlmGateway.Routing.Engine
