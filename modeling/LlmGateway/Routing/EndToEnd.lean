import LlmGateway.Routing.Engine

/-! What `route` returns: the first closed candidate by name, or else the first half-open one, with
its descriptor, however the catalog is ordered. -/
namespace LlmGateway.Routing.Engine
open Ledger Health

section
variable {config : CircuitBreakerConfig} {now : Timestamp} {breaker : InMemoryCircuitBreaker} {org : OrgId}
  {candidates : List String}

/-- Of the candidates in a state, the first by name. -/
structure Least (state : String → CircuitState) (wanted : CircuitState) (candidates : List String)
    (p : String) : Prop where
  mem : p ∈ candidates
  inState : state p = wanted
  least : ∀ q ∈ candidates, state q = wanted → p ≤ q

private theorem exists_least {state : String → CircuitState} {wanted : CircuitState}
    (h : ∃ p ∈ candidates, state p = wanted) : ∃ p, Least state wanted candidates p := by
  obtain ⟨p, hp, hs⟩ := h
  have some : p ∈ candidates.filter (state · = wanted) := List.mem_filter.mpr ⟨hp, decide_eq_true hs⟩
  obtain ⟨m, hm⟩ : ∃ m, (candidates.filter (state · = wanted)).argmin id = Option.some m := by
    rw [← Option.ne_none_iff_exists', ne_eq, List.argmin_eq_none]
    exact List.ne_nil_of_mem some
  obtain ⟨hmem, hstate⟩ := List.mem_filter.mp (List.argmin_mem hm)
  refine ⟨m, hmem, of_decide_eq_true hstate, fun q hq hw => ?_⟩
  exact List.le_of_mem_argmin (List.mem_filter.mpr ⟨hq, decide_eq_true hw⟩) hm

/-- A closed candidate that is least is what the chain selects. -/
private theorem decide_closed {p : String} (h : Least (assessed config breaker now org) .closed candidates p) :
    ((Routing.AgentRuntime.mk true true).decide config breaker now org candidates).2.selectedProvider = some p := by
  rw [decide_selects rfl rfl, HealthTieredRoutingStrategy.select_eq_some]
  refine ⟨⟨p, false⟩, mem_usable.mpr ⟨h.mem, h.inState⟩, rfl, ?_⟩
  rintro ⟨q, degraded⟩ hq hlt
  obtain ⟨hq, hstate⟩ := mem_usable.mp hq
  rcases HealthTieredRoutingStrategy.key_lt.mp hlt with hlt | ⟨rfl, hlt⟩
  · exact absurd hlt (not_lt.mpr (Bool.false_le _))
  · exact absurd (h.least q hq hstate) (not_le.mpr hlt)

private theorem decide_halfOpen {p : String} (none_closed : ∀ q ∈ candidates, assessed config breaker now org q ≠ .closed)
    (h : Least (assessed config breaker now org) .halfOpen candidates p) :
    ((Routing.AgentRuntime.mk true true).decide config breaker now org candidates).2.selectedProvider = some p := by
  rw [Routing.AgentRuntime.decide_degraded h.inState]
  exact ⟨rfl, rfl, h.mem, fun q hq => ⟨none_closed q hq, fun hs => not_lt.mpr (h.least q hq hs)⟩⟩

private theorem allExcluded_iff : AllExcluded (tiers config now breaker org candidates) candidates ↔
    candidates ≠ [] ∧ ∀ p ∈ candidates, assessed config breaker now org p = .opened := by
  have healthy : (tiers config now breaker org candidates).healthyCandidates = [] ↔
      ∀ p ∈ candidates, assessed config breaker now org p ≠ .closed := by
    rw [List.eq_nil_iff_forall_not_mem]
    exact forall_congr' fun p => (not_congr mem_tier).trans not_and
  have degraded : (tiers config now breaker org candidates).degradedCandidates = [] ↔
      ∀ p ∈ candidates, assessed config breaker now org p ≠ .halfOpen := by
    rw [List.eq_nil_iff_forall_not_mem]
    exact forall_congr' fun p => (not_congr mem_tier).trans not_and
  rw [AllExcluded, healthy, degraded]
  constructor
  · rintro ⟨notClosed, notHalf, some⟩
    refine ⟨some, fun p hp => ?_⟩
    cases hs : assessed config breaker now org p with
    | closed => exact absurd hs (notClosed p hp)
    | halfOpen => exact absurd hs (notHalf p hp)
    | opened => rfl
  · rintro ⟨some, opened⟩
    refine ⟨fun p hp hs => ?_, fun p hp hs => ?_, some⟩ <;>
    · rw [opened p hp] at hs
      cases hs


private theorem decision_of_selected {p : String}
    (h : ((Routing.AgentRuntime.mk true true).decide config breaker now org candidates).2.selectedProvider = some p) :
    ((Routing.AgentRuntime.mk true true).decide config breaker now org candidates).2 = ⟨.selected, some p⟩ := by
  rw [decide_wired] at h ⊢
  split_ifs at h ⊢ with excluded
  · cases hs : HealthTieredRoutingStrategy.select (tiers config now breaker org candidates).usable with
    | none => simp [hs] at h
    | some q => simpa [hs] using h

/-- The four ways a decision can go. -/
inductive Decides (state : String → CircuitState) (candidates : List String) : RoutingDecision → Prop where
  | noCandidate (h : candidates = []) : Decides state candidates ⟨.noCandidate, none⟩
  | allUnhealthy (h : candidates ≠ []) (opened : ∀ p ∈ candidates, state p = .opened) :
      Decides state candidates ⟨.allUnhealthy, none⟩
  | closed {p : String} (h : Least state .closed candidates p) : Decides state candidates ⟨.selected, some p⟩
  | halfOpen {p : String} (none_closed : ∀ q ∈ candidates, state q ≠ .closed)
      (h : Least state .halfOpen candidates p) : Decides state candidates ⟨.selected, some p⟩

theorem decides : Decides (assessed config breaker now org) candidates
    ((Routing.AgentRuntime.mk true true).decide config breaker now org candidates).2 := by
  by_cases closed : ∃ p ∈ candidates, assessed config breaker now org p = .closed
  · obtain ⟨p, hp⟩ := exists_least closed
    rw [decision_of_selected (decide_closed hp)]
    exact .closed hp
  · have none_closed : ∀ p ∈ candidates, assessed config breaker now org p ≠ .closed :=
      fun p hp hs => closed ⟨p, hp, hs⟩
    by_cases half : ∃ p ∈ candidates, assessed config breaker now org p = .halfOpen
    · obtain ⟨p, hp⟩ := exists_least half
      rw [decision_of_selected (decide_halfOpen none_closed hp)]
      exact .halfOpen none_closed hp
    · have opened : ∀ p ∈ candidates, assessed config breaker now org p = .opened := by
        intro p hp
        cases hs : assessed config breaker now org p with
        | closed => exact absurd hs (none_closed p hp)
        | halfOpen => exact absurd ⟨p, hp, hs⟩ half
        | opened => rfl
      by_cases empty : candidates = []
      · subst empty
        exact .noCandidate rfl
      · have excluded := allExcluded_iff.mpr ⟨empty, opened⟩
        rw [decide_wired, if_pos excluded]
        exact .allUnhealthy empty opened

private theorem Least.of_perm {state : String → CircuitState} {wanted : CircuitState} {reordered : List String}
    {p : String} (h : Least state wanted reordered p) (perm : reordered.Perm candidates) :
    Least state wanted candidates p :=
  ⟨perm.mem_iff.mp h.mem, h.inState, fun q hq => h.least q (perm.mem_iff.mpr hq)⟩

private theorem Least.unique {state : String → CircuitState} {wanted : CircuitState} {p q : String}
    (hp : Least state wanted candidates p) (hq : Least state wanted candidates q) : p = q :=
  le_antisymm (hp.least q hq.mem hq.inState) (hq.least p hp.mem hp.inState)

private theorem Decides.of_perm {state : String → CircuitState} {reordered : List String} {d : RoutingDecision}
    (h : Decides state reordered d) (perm : reordered.Perm candidates) : Decides state candidates d := by
  cases h with
  | noCandidate h =>
    subst h
    exact .noCandidate perm.nil_eq.symm
  | allUnhealthy h opened =>
    refine .allUnhealthy (fun empty => h ?_) fun p hp => opened p (perm.mem_iff.mpr hp)
    subst empty
    exact perm.eq_nil
  | closed h => exact .closed (h.of_perm perm)
  | halfOpen none_closed h =>
    exact .halfOpen (fun q hq => none_closed q (perm.mem_iff.mpr hq)) (h.of_perm perm)

/-- What is decided is decided by the candidates' states. -/
private theorem Decides.unique {state : String → CircuitState} {d d' : RoutingDecision}
    (h : Decides state candidates d) (h' : Decides state candidates d') : d = d' := by
  cases h with
  | noCandidate empty =>
    subst empty
    cases h' with
    | noCandidate => rfl
    | allUnhealthy some => exact absurd rfl some
    | closed h => exact absurd h.mem List.not_mem_nil
    | halfOpen _ h => exact absurd h.mem List.not_mem_nil
  | allUnhealthy some opened =>
    cases h' with
    | noCandidate empty => exact absurd empty some
    | allUnhealthy => rfl
    | closed h => exact absurd ((opened _ h.mem).symm.trans h.inState) (by decide)
    | halfOpen _ h => exact absurd ((opened _ h.mem).symm.trans h.inState) (by decide)
  | closed h =>
    cases h' with
    | noCandidate empty => exact absurd (empty ▸ h.mem) List.not_mem_nil
    | allUnhealthy _ opened => exact absurd ((opened _ h.mem).symm.trans h.inState) (by decide)
    | closed h' => rw [h.unique h']
    | halfOpen none_closed _ => exact absurd h.inState (none_closed _ h.mem)
  | halfOpen none_closed h =>
    cases h' with
    | noCandidate empty => exact absurd (empty ▸ h.mem) List.not_mem_nil
    | allUnhealthy _ opened => exact absurd ((opened _ h.mem).symm.trans h.inState) (by decide)
    | closed h' => exact absurd h'.inState (none_closed _ h'.mem)
    | halfOpen _ h' => rw [h.unique h']

end

section
variable {config : CircuitBreakerConfig} {now decidedAt : Timestamp} {breaker : InMemoryCircuitBreaker}
  {planner : PlannerAgent} {policy : PolicyAgent} {cost : CostAgent} {health provider : String}
  {org : OrgId} {correlationId : String} {request : Request} {catalog later : ProviderCatalog}

private theorem get_eq {d : ProviderDescriptor} (distinct : ((catalog org).map (·.name)).Nodup)
    (hd : d ∈ catalog org) : catalog.get org d.name = some d := by
  rw [ProviderCatalog.get]
  obtain ⟨e, he⟩ : ∃ e, (catalog org).find? (·.name = d.name) = some e := by
    rw [← Option.isSome_iff_exists, List.find?_isSome]
    exact ⟨d, hd, decide_eq_true rfl⟩
  have same : e.name = d.name := by simpa using List.find?_some he
  rw [he, List.inj_on_of_nodup_map distinct (List.mem_of_find?_eq_some he) hd same]

/-- A selected provider is returned with its descriptor. -/
structure Selects (execution : RoutingExecution) (d : ProviderDescriptor) : Prop where
  outcome : execution.decision.outcome = .selected
  selectedProvider : execution.decision.selectedProvider = some d.name
  provider : execution.provider = some d

/-- What routing owes a request that policy and budget let through, by the states of the circuits. -/
structure RouteSpec (state : String → CircuitState) (offered : List ProviderDescriptor)
    (spoken : RoutingOutcome → List String) (execution : RoutingExecution) : Prop where
  closed : (∃ d ∈ offered, state d.name = .closed) → ∃ d ∈ offered, Selects execution d ∧
    Least state .closed (offered.map (·.name)) d.name
  halfOpen : (∀ d ∈ offered, state d.name ≠ .closed) → (∃ d ∈ offered, state d.name = .halfOpen) →
    ∃ d ∈ offered, Selects execution d ∧ Least state .halfOpen (offered.map (·.name)) d.name
  allUnhealthy : execution.decision.outcome = .allUnhealthy ↔
    offered ≠ [] ∧ ∀ d ∈ offered, state d.name = .opened
  noCandidate : execution.decision.outcome = .noCandidate ↔ offered = []
  never_opened : ∀ p, execution.decision.selectedProvider = some p →
    state p ≠ .opened ∧ ∃ d ∈ offered, d.name = p ∧ Selects execution d
  unselected : execution.decision.selectedProvider = none → execution.provider = none
  trace : execution.decision.reasoningSteps.map (·.agent) = spoken execution.decision.outcome

/-- A selected name is a candidate's, and so has its descriptor. -/
private theorem Decides.resolves {state : String → CircuitState} {d : RoutingDecision} {p : String}
    (h : Decides state ((catalog org).map (·.name)) d) (selected : d.selectedProvider = some p)
    (distinct : ((catalog org).map (·.name)).Nodup) :
    d.outcome = .selected ∧ state p ≠ .opened ∧
      ∃ found ∈ catalog org, found.name = p ∧ catalog.get org p = some found := by
  have offered : p ∈ (catalog org).map (·.name) →
      ∃ found ∈ catalog org, found.name = p ∧ catalog.get org p = some found := by
    intro hp
    obtain ⟨found, hf, rfl⟩ := List.mem_map.mp hp
    exact ⟨found, hf, rfl, get_eq distinct hf⟩
  cases h with
  | noCandidate => cases selected
  | allUnhealthy => cases selected
  | closed h =>
    cases selected
    refine ⟨rfl, ?_, offered h.mem⟩
    rw [h.inState]
    decide
  | halfOpen _ h =>
    cases selected
    refine ⟨rfl, ?_, offered h.mem⟩
    rw [h.inState]
    decide

private theorem Decides.unselected {state : String → CircuitState} {candidates : List String} {d : RoutingDecision}
    (h : Decides state candidates d) (none_selected : d.selectedProvider = none) : d.outcome ≠ .selected := by
  cases h with
  | noCandidate => exact RoutingOutcome.noConfusion
  | allUnhealthy => exact RoutingOutcome.noConfusion
  | closed => cases none_selected
  | halfOpen => cases none_selected

/-- What `route` returns resolves what was decided. -/
private theorem route_resolves (allow : policy.allow = true) (within : cost.withinBudget = true)
    (distinct : ((catalog org).map (·.name)).Nodup) (steady : later org = catalog org) :
    ∃ execution, (route config now (chain planner policy cost health provider) catalog later breaker decidedAt
        org correlationId request).2 = .ok execution ∧
      Decides (assessed config breaker now org) ((catalog org).map (·.name)) execution.decision.toRoutingDecision ∧
      execution.provider = execution.decision.selectedProvider.bind (catalog.get org) ∧
      execution.decision.reasoningSteps.map (·.agent) =
        spoken planner policy cost health provider execution.decision.outcome := by
  have explained := chain_explains config now decidedAt breaker planner policy cost health provider org
    correlationId request ((catalog org).map (·.name))
  rw [allow, within] at explained
  rw [route, ProviderCatalog.candidates]
  generalize AgentRuntime.decide .. = decided at explained ⊢
  obtain ⟨left, decision⟩ := decided
  have made : decision.toRoutingDecision = _ := explained.decision
  have how : Decides (assessed config breaker now org) ((catalog org).map (·.name)) decision.toRoutingDecision := by
    rw [made]
    exact decides
  have trace : decision.reasoningSteps.map (·.agent) =
      spoken planner policy cost health provider decision.outcome := by
    rw [made]
    exact explained.trace
  cases hs : decision.selectedProvider with
  | none =>
    have unselected : decision.outcome ≠ .selected := how.unselected hs
    refine ⟨⟨decision, none⟩, by simp only [if_pos unselected], how, ?_, trace⟩
    rw [hs]
    rfl
  | some p =>
    obtain ⟨outcome, -, found, hf, -, hget⟩ := how.resolves hs distinct
    have again : later.get org p = some found := by
      rwa [ProviderCatalog.get, steady]
    refine ⟨⟨decision, some found⟩, ?_, how, ?_, trace⟩
    · simp only [if_neg (not_not_intro outcome), hs, Option.getD_some, again]
    · rw [hs]
      exact hget.symm

private theorem Decides.allUnhealthy_iff {state : String → CircuitState} {candidates : List String}
    {d : RoutingDecision} (h : Decides state candidates d) :
    d.outcome = .allUnhealthy ↔ candidates ≠ [] ∧ ∀ p ∈ candidates, state p = .opened := by
  constructor
  · intro outcome
    cases h with
    | allUnhealthy some opened => exact ⟨some, opened⟩
    | _ => cases outcome
  · rintro ⟨some, opened⟩
    rw [h.unique (.allUnhealthy some opened)]

private theorem Decides.noCandidate_iff {state : String → CircuitState} {candidates : List String}
    {d : RoutingDecision} (h : Decides state candidates d) : d.outcome = .noCandidate ↔ candidates = [] := by
  constructor
  · intro outcome
    cases h with
    | noCandidate empty => exact empty
    | _ => cases outcome
  · intro empty
    rw [h.unique (.noCandidate empty)]

/-- A decision that is made and resolved is what routing owes. -/
private theorem Decides.routeSpec {state : String → CircuitState} {spoken : RoutingOutcome → List String}
    {execution : RoutingExecution}
    (h : Decides state ((catalog org).map (·.name)) execution.decision.toRoutingDecision)
    (distinct : ((catalog org).map (·.name)).Nodup)
    (resolved : execution.provider = execution.decision.selectedProvider.bind (catalog.get org))
    (trace : execution.decision.reasoningSteps.map (·.agent) = spoken execution.decision.outcome) :
    RouteSpec state (catalog org) spoken execution := by
  have selects : ∀ p, execution.decision.selectedProvider = some p →
      state p ≠ .opened ∧ ∃ d ∈ catalog org, d.name = p ∧ Selects execution d := by
    intro p hp
    obtain ⟨outcome, usable, d, hd, rfl, hget⟩ := h.resolves hp distinct
    refine ⟨usable, d, hd, rfl, outcome, hp, ?_⟩
    rw [resolved, hp]
    exact hget
  constructor
  case closed =>
    rintro ⟨d, hd, closed⟩
    obtain ⟨p, hp⟩ := exists_least ⟨d.name, List.mem_map_of_mem hd, closed⟩
    have selected := congrArg RoutingDecision.selectedProvider (h.unique (.closed hp))
    obtain ⟨-, e, he, rfl, selects⟩ := selects p selected
    exact ⟨e, he, selects, hp⟩
  case halfOpen =>
    rintro none_closed ⟨d, hd, half⟩
    obtain ⟨p, hp⟩ := exists_least ⟨d.name, List.mem_map_of_mem hd, half⟩
    have others : ∀ q ∈ (catalog org).map (·.name), state q ≠ .closed := by
      intro q hq
      obtain ⟨e, he, rfl⟩ := List.mem_map.mp hq
      exact none_closed e he
    have selected := congrArg RoutingDecision.selectedProvider (h.unique (.halfOpen others hp))
    obtain ⟨-, e, he, rfl, selects⟩ := selects p selected
    exact ⟨e, he, selects, hp⟩
  case allUnhealthy => rw [h.allUnhealthy_iff, ne_eq, List.map_eq_nil_iff, List.forall_mem_map]
  case noCandidate => rw [h.noCandidate_iff, List.map_eq_nil_iff]
  case never_opened => exact selects
  case unselected =>
    intro none_selected
    rw [resolved, none_selected]
    rfl
  case trace => exact trace

/-- Routing end to end, when policy and budget let the request through, the candidates have names of
their own and the catalog stays as it is during the call: `route` returns, it meets its
specification, and in whatever order the catalog lists its providers. -/
theorem route_meets_spec (config : CircuitBreakerConfig) (now decidedAt : Timestamp)
    (breaker : InMemoryCircuitBreaker) (planner : PlannerAgent) (policy : PolicyAgent) (cost : CostAgent)
    (health provider : String) (catalog later : ProviderCatalog) (org : OrgId) (correlationId : String)
    (request : Request) (allow : policy.allow = true) (within : cost.withinBudget = true)
    (distinct : ((catalog org).map (·.name)).Nodup) (steady : later org = catalog org) :
    ∃ execution, (route config now (chain planner policy cost health provider) catalog later breaker decidedAt
        org correlationId request).2 = .ok execution ∧
      RouteSpec (assessed config breaker now org) (catalog org) (spoken planner policy cost health provider)
        execution ∧
      ∀ reordered : ProviderCatalog, (reordered org).Perm (catalog org) →
        ∃ execution', (route config now (chain planner policy cost health provider) reordered reordered breaker
            decidedAt org correlationId request).2 = .ok execution' ∧
          execution'.decision.toRoutingDecision = execution.decision.toRoutingDecision ∧
          execution'.provider = execution.provider := by
  obtain ⟨execution, returned, how, resolved, trace⟩ : ∃ execution, (route config now (chain planner policy
      cost health provider) catalog later breaker decidedAt org correlationId request).2 = .ok execution ∧ _ :=
    route_resolves allow within distinct steady
  refine ⟨execution, returned, how.routeSpec distinct resolved trace, fun reordered perm => ?_⟩
  have names : ((reordered org).map (·.name)).Perm ((catalog org).map (·.name)) := perm.map _
  have distinct' : ((reordered org).map (·.name)).Nodup := names.nodup_iff.mpr distinct
  obtain ⟨execution', returned', how', resolved', -⟩ : ∃ execution, (route config now (chain planner policy
      cost health provider) reordered reordered breaker decidedAt org correlationId request).2 = .ok execution ∧ _ :=
    route_resolves allow within distinct' rfl
  have same : execution'.decision.toRoutingDecision = execution.decision.toRoutingDecision :=
    (how'.of_perm names).unique how
  refine ⟨execution', returned', same, ?_⟩
  rw [resolved, resolved', same]
  cases hs : execution.decision.selectedProvider with
  | none => rfl
  | some p =>
    obtain ⟨-, -, d, hd, rfl, hget⟩ := how.resolves hs distinct
    rw [Option.bind_some, Option.bind_some, hget]
    exact get_eq distinct' (perm.mem_iff.mpr hd)

end
def twoProviders : ProviderCatalog := fun _ => [⟨"openai", "gpt", "global"⟩, ⟨"anthropic", "claude", "eu"⟩]

private theorem five_pos : 1 ≤ 5 := by decide

private theorem half_minute_nonneg : (0 : Int) ≤ 30000000 := by decide

def fiveFailures : CircuitBreakerConfig where
  failureThreshold := 5
  cooldown := 30000000
  threshold_pos := five_pos
  cooldown_nonneg := half_minute_nonneg

/-- The circuit of the first by name is open: the other one is selected. -/
def anthropicDown : InMemoryCircuitBreaker :=
  Function.update (fun _ => none) (1, "anthropic") (some ⟨.opened, 5, some 0⟩)

theorem route_meets_spec_two_providers :
    ∃ execution, (route fiveFailures 10 (chain {} {} {} "health" "provider") twoProviders
        twoProviders anthropicDown 11 1 "c" (fun _ => none)).2 = .ok execution ∧
      RouteSpec (assessed fiveFailures anthropicDown 10 1) (twoProviders 1)
        (spoken {} {} {} "health" "provider") execution := by
  obtain ⟨execution, returned, meets, -⟩ := route_meets_spec fiveFailures 10 11 anthropicDown
    {} {} {} "health" "provider" twoProviders twoProviders 1 "c" (fun _ => none) rfl rfl (by decide) rfl
  exact ⟨execution, returned, meets⟩

end LlmGateway.Routing.Engine
