import LlmGateway.Lib.OrderBy
import LlmGateway.Persistence.CatalogTables
import LlmGateway.Routing.EndToEnd

/-! `SqlProviderCatalog`: one descriptor for each provider that has an enabled model, read again at each
call, and routing over two such reads. -/
namespace LlmGateway.Routing.Engine
open Ledger Health Persistence Lib.OrderBy

/-- The order the database sorts text in. -/
structure Collation where
  le : String → String → Prop
  decidable : DecidableRel le
  total : ∀ a b, le a b ∨ le b a
  trans : ∀ {a b c}, le a b → le b c → le a c
  antisymm : ∀ {a b}, le a b → le b a → a = b

/-- By code point, as the collation "C" of an UTF-8 database. -/
def codePoints : Collation where
  le := (· ≤ ·)
  decidable := inferInstance
  total := le_total
  trans := le_trans
  antisymm := le_antisymm

/-- A row of the catalog's query. -/
structure CatalogRow where
  providerName : String
  region : Option String
  modelName : String
  deriving DecidableEq, Repr

/-- `ORDER BY provider.name, model.name`. -/
def Collation.rowLe (coll : Collation) (a b : CatalogRow) : Prop :=
  coll.le a.providerName b.providerName ∧ (a.providerName = b.providerName → coll.le a.modelName b.modelName)

def defaultRegion : String := "global"

/-- What the query selects, before its order. -/
def catalogRows (σ : CatalogTables) (org : OrgId) : List CatalogRow :=
  let τ := σ.shown org
  (τ.provider.filter fun p => p.organizationId = org ∧ p.isEnabled).flatMap fun p =>
    (τ.model.filter fun m => m.providerId = p.id ∧ m.organizationId = org ∧ m.isEnabled).map fun m =>
      ⟨p.name, p.region, m.name⟩

def CatalogRow.descriptor (row : CatalogRow) : ProviderDescriptor where
  name := row.providerName
  model := row.modelName
  region := (row.region.filter (· ≠ "")).getD defaultRegion

/-- What reading the catalog raises, with the kind of what failed. -/
structure ProviderCatalogUnavailableError where
  kind : String
  deriving DecidableEq, Repr

instance (coll : Collation) : DecidableRel coll.rowLe :=
  have := coll.decidable
  fun _ _ => inferInstanceAs (Decidable (_ ∧ (_ → _)))

namespace SqlProviderCatalog
variable (coll : Collation)

/-- What the catalog makes of the tables. -/
def offered (σ : CatalogTables) : ProviderCatalog := fun org =>
  (firstPerKey (·.providerName) (orderBy coll.rowLe (catalogRows σ org))).map (·.descriptor)

/-- `_descriptors`, from what the database answers. -/
def descriptors (read : Except String CatalogTables) (org : OrgId) :
    Except ProviderCatalogUnavailableError (List ProviderDescriptor) :=
  match read with
  | .error kind => .error ⟨kind⟩
  | .ok σ => .ok (offered coll σ org)

def candidates (read : Except String CatalogTables) (org : OrgId) :
    Except ProviderCatalogUnavailableError (List ProviderDescriptor) :=
  descriptors coll read org

def get (read : Except String CatalogTables) (org : OrgId) (name : String) :
    Except ProviderCatalogUnavailableError (Option ProviderDescriptor) := do
  let offers ← descriptors coll read org
  return offers.find? (·.name = name)

end SqlProviderCatalog

/-- What keeps `route` from returning. -/
inductive RouteFailure where
  | unavailable (e : ProviderCatalogUnavailableError)
  | integrity (e : RoutingIntegrityError)
  deriving DecidableEq

/-- `route` over the database, with its answers when the candidates are read and when the selected one is. -/
def routeSql (coll : Collation) (config : CircuitBreakerConfig) (now : Timestamp) (runtime : AgentRuntime)
    (read reread : Except String CatalogTables) (breaker : InMemoryCircuitBreaker) (decidedAt : Timestamp)
    (org : OrgId) (correlationId : String) (request : Request) :
    InMemoryCircuitBreaker × Except RouteFailure RoutingExecution :=
  match SqlProviderCatalog.candidates coll read org with
  | .error e => (breaker, .error (.unavailable e))
  | .ok candidates =>
    let (breaker, decision) := runtime.decide config now breaker decidedAt org correlationId request
      (candidates.map (·.name))
    if decision.outcome ≠ .selected then (breaker, .ok { decision })
    else
      match SqlProviderCatalog.get coll reread org (decision.selectedProvider.getD "") with
      | .error e => (breaker, .error (.unavailable e))
      | .ok none => (breaker, .error (.integrity ⟨decision.selectedProvider⟩))
      | .ok (some provider) => (breaker, .ok { decision, provider := some provider })

/-! ### What the catalog offers -/

/-- An enabled model of a provider, both the tenant's. -/
structure Served (σ : CatalogTables) (org : OrgId) (p : ProviderRow) (m : ModelRow) : Prop where
  provider : p ∈ σ.provider
  providerOrg : p.organizationId = org
  providerEnabled : p.isEnabled
  model : m ∈ σ.model
  modelOrg : m.organizationId = org
  modelEnabled : m.isEnabled
  behind : m.providerId = p.id

/-- A tenant's enabled provider with the first of its enabled models by name. -/
structure Offers (coll : Collation) (σ : CatalogTables) (org : OrgId) (p : ProviderRow) (m : ModelRow)
    (d : ProviderDescriptor) : Prop where
  served : Served σ org p m
  first : ∀ other, Served σ org p other → coll.le m.name other.name
  name : d.name = p.name
  model : d.model = m.name
  region : d.region = (p.region.filter (· ≠ "")).getD defaultRegion

/-- What a catalog should list: the tenant's providers with an enabled model, each once and by name. -/
structure Listing (coll : Collation) (σ : CatalogTables) (org : OrgId) (offers : List ProviderDescriptor) : Prop where
  exact : ∀ d, d ∈ offers ↔ ∃ p m, Offers coll σ org p m d
  complete : ∀ p m, Served σ org p m → ∃ d ∈ offers, d.name = p.name
  once : (offers.map (·.name)).Nodup
  ordered : (offers.map (·.name)).Pairwise coll.le

section
variable {coll : Collation} {σ : CatalogTables} {org : OrgId} {a b : CatalogRow} {d : ProviderDescriptor}

theorem Collation.refl (coll : Collation) (s : String) : coll.le s s := (coll.total s s).elim id id

instance : Std.Total coll.rowLe where
  total a b := by
    by_cases same : a.providerName = b.providerName
    · have level := coll.refl a.providerName
      rcases coll.total a.modelName b.modelName with h | h
      · exact .inl ⟨same ▸ level, fun _ => h⟩
      · exact .inr ⟨same ▸ level, fun _ => h⟩
    · rcases coll.total a.providerName b.providerName with h | h
      · exact .inl ⟨h, fun eq => absurd eq same⟩
      · exact .inr ⟨h, fun eq => absurd eq.symm same⟩

instance : IsTrans CatalogRow coll.rowLe where
  trans a b c ab bc := by
    refine ⟨coll.trans ab.1 bc.1, fun same => ?_⟩
    have ba : coll.le b.providerName a.providerName := same ▸ bc.1
    have eq : a.providerName = b.providerName := coll.antisymm ab.1 ba
    exact coll.trans (ab.2 eq) (bc.2 (eq.symm.trans same))

theorem mem_catalogRows : a ∈ catalogRows σ org ↔ ∃ p m, Served σ org p m ∧ a = ⟨p.name, p.region, m.name⟩ := by
  simp only [catalogRows, List.mem_flatMap, List.mem_map, List.mem_filter, CatalogTables.mem_shown_provider,
    CatalogTables.mem_shown_model, decide_eq_true_eq]
  constructor
  · rintro ⟨p, ⟨⟨hp, tenant⟩, -, enabled⟩, m, ⟨⟨hm, modelTenant⟩, behind, -, modelEnabled⟩, rfl⟩
    exact ⟨p, m, ⟨hp, tenant, enabled, hm, modelTenant, modelEnabled, behind⟩, rfl⟩
  · rintro ⟨p, m, s, rfl⟩
    exact ⟨p, ⟨⟨s.provider, s.providerOrg⟩, s.providerOrg, s.providerEnabled⟩, m,
      ⟨⟨s.model, s.modelOrg⟩, s.behind, s.modelOrg, s.modelEnabled⟩, rfl⟩

theorem Served.same_provider {p q : ProviderRow} {m n : ModelRow} (h : Served σ org p m) (h' : Served σ org q n)
    (name : p.name = q.name) : p = q :=
  σ.provider_of_name h.provider h'.provider (h.providerOrg.trans h'.providerOrg.symm) name

/-- No two rows of a provider are level. -/
theorem catalogRows_apart (ha : a ∈ catalogRows σ org) (hb : b ∈ catalogRows σ org)
    (name : a.providerName = b.providerName) (ab : coll.rowLe a b) (ba : coll.rowLe b a) : a = b := by
  obtain ⟨p, m, served, rfl⟩ := mem_catalogRows.mp ha
  obtain ⟨q, n, served', rfl⟩ := mem_catalogRows.mp hb
  obtain rfl : p = q := served.same_provider served' name
  have model : m.name = n.name := coll.antisymm (ab.2 rfl) (ba.2 rfl)
  rw [model]

/-- The catalog offers the tenant's providers with an enabled model, and each with the first. -/
theorem mem_offered : d ∈ SqlProviderCatalog.offered coll σ org ↔ ∃ p m, Offers coll σ org p m d := by
  simp only [SqlProviderCatalog.offered, List.mem_map]
  constructor
  · rintro ⟨row, picked, rfl⟩
    obtain ⟨there, least⟩ := (mem_firstPerKey_orderBy fun a ha b hb => catalogRows_apart ha hb).mp picked
    obtain ⟨p, m, served, rfl⟩ := mem_catalogRows.mp there
    refine ⟨p, m, served, fun other also => ?_, rfl, rfl, rfl⟩
    exact (least ⟨p.name, p.region, other.name⟩ (mem_catalogRows.mpr ⟨p, other, also, rfl⟩) rfl).2 rfl
  · rintro ⟨p, m, offers⟩
    refine ⟨⟨p.name, p.region, m.name⟩, (mem_firstPerKey_orderBy fun a ha b hb => catalogRows_apart ha hb).mpr
      ⟨mem_catalogRows.mpr ⟨p, m, offers.served, rfl⟩, fun b hb name => ?_⟩, ?_⟩
    · obtain ⟨q, other, also, rfl⟩ := mem_catalogRows.mp hb
      obtain rfl : q = p := also.same_provider offers.served name
      exact ⟨coll.refl _, fun _ => offers.first other also⟩
    · obtain ⟨name, model, region⟩ := d
      obtain ⟨-, -, rfl, rfl, rfl⟩ := offers
      rfl

theorem offered_listing : Listing coll σ org (SqlProviderCatalog.offered coll σ org) where
  exact _ := mem_offered
  complete p m served := by
    have there : (⟨p.name, p.region, m.name⟩ : CatalogRow) ∈ orderBy coll.rowLe (catalogRows σ org) :=
      mem_orderBy.mpr (mem_catalogRows.mpr ⟨p, m, served, rfl⟩)
    obtain ⟨row, picked, same⟩ := exists_firstPerKey (·.providerName) there
    exact ⟨row.descriptor, List.mem_map_of_mem picked, same⟩
  once := by
    rw [SqlProviderCatalog.offered, List.map_map]
    exact firstPerKey_nodup (orderBy coll.rowLe (catalogRows σ org))
  ordered := by
    rw [SqlProviderCatalog.offered, List.map_map, List.pairwise_map]
    exact ((orderBy_pairwise (catalogRows σ org)).sublist (firstPerKey_sublist _)).imp fun ahead => ahead.1

end

/-! ### Routing over two reads -/

/-- What the chain decides over the names it is given. -/
inductive Ruled (policy : PolicyAgent) (cost : CostAgent) (state : String → CircuitState) (names : List String) :
    RoutingDecision → Prop where
  | blocked (denied : policy.allow = false) : Ruled policy cost state names ⟨.blockedByPolicy, none⟩
  | exceeded (allowed : policy.allow = true) (spent : cost.withinBudget = false) :
      Ruled policy cost state names ⟨.budgetExceeded, none⟩
  | decided {d : RoutingDecision} (allowed : policy.allow = true) (within : cost.withinBudget = true)
      (h : Decides state names d) : Ruled policy cost state names d

/-- What routing makes of the two answers of the database. -/
inductive RoutedSql (coll : Collation) (org : OrgId) (ruled : List String → RoutingDecision → Prop)
    (read reread : Except String CatalogTables) : Except RouteFailure RoutingExecution → Prop where
  | unread {kind : String} (h : read = .error kind) : RoutedSql coll org ruled read reread (.error (.unavailable ⟨kind⟩))
  | unselected {σ : CatalogTables} {offers : List ProviderDescriptor} {decision : ExplainedDecision} (h : read = .ok σ)
      (listing : Listing coll σ org offers) (decided : ruled (offers.map (·.name)) decision.toRoutingDecision)
      (unselected : decision.outcome ≠ .selected ∧ decision.selectedProvider = none) :
      RoutedSql coll org ruled read reread (.ok { decision })
  | unreread {σ : CatalogTables} {offers : List ProviderDescriptor} {d : ProviderDescriptor} {kind : String}
      (h : read = .ok σ) (listing : Listing coll σ org offers) (offered : d ∈ offers)
      (decided : ruled (offers.map (·.name)) ⟨.selected, some d.name⟩)
      (again : reread = .error kind) : RoutedSql coll org ruled read reread (.error (.unavailable ⟨kind⟩))
  | withdrawn {σ τ : CatalogTables} {offers : List ProviderDescriptor} {d : ProviderDescriptor}
      (h : read = .ok σ) (listing : Listing coll σ org offers) (offered : d ∈ offers)
      (decided : ruled (offers.map (·.name)) ⟨.selected, some d.name⟩)
      (again : reread = .ok τ) (gone : ∀ q n e, Offers coll τ org q n e → e.name ≠ d.name) :
      RoutedSql coll org ruled read reread (.error (.integrity ⟨some d.name⟩))
  | routed {σ τ : CatalogTables} {offers : List ProviderDescriptor} {q : ProviderRow} {n : ModelRow}
      {d e : ProviderDescriptor} {decision : ExplainedDecision} (h : read = .ok σ) (listing : Listing coll σ org offers)
      (offered : d ∈ offers) (decided : ruled (offers.map (·.name)) decision.toRoutingDecision)
      (selected : decision.toRoutingDecision = ⟨.selected, some d.name⟩)
      (again : reread = .ok τ) (still : Offers coll τ org q n e) (name : e.name = d.name) :
      RoutedSql coll org ruled read reread (.ok { decision, provider := some e })

section
variable {coll : Collation} {config : CircuitBreakerConfig} {now decidedAt : Timestamp} {breaker : InMemoryCircuitBreaker}
  {planner : PlannerAgent} {policy : PolicyAgent} {cost : CostAgent} {health provider : String}
  {org : OrgId} {correlationId : String} {request : Request} {σ : CatalogTables} {names : List String}

/-- A decision either selects one of the names or selects nothing. -/
theorem Ruled.selects {state : String → CircuitState} {d : RoutingDecision} (h : Ruled policy cost state names d) :
    (d.outcome ≠ .selected ∧ d.selectedProvider = none) ∨ ∃ name ∈ names, d = ⟨.selected, some name⟩ := by
  cases h with
  | blocked => exact .inl ⟨RoutingOutcome.noConfusion, rfl⟩
  | exceeded => exact .inl ⟨RoutingOutcome.noConfusion, rfl⟩
  | decided _ _ h =>
    cases h with
    | noCandidate => exact .inl ⟨RoutingOutcome.noConfusion, rfl⟩
    | allUnhealthy => exact .inl ⟨RoutingOutcome.noConfusion, rfl⟩
    | closed h => exact .inr ⟨_, h.mem, rfl⟩
    | halfOpen _ h => exact .inr ⟨_, h.mem, rfl⟩

theorem decide_ruled : Ruled policy cost (assessed config breaker now org) names
    ((chain planner policy cost health provider).decide config now breaker decidedAt org correlationId request
      names).2.toRoutingDecision := by
  rw [(chain_explains config now decidedAt breaker planner policy cost health provider org correlationId request
    names).decision]
  cases allow : policy.allow with
  | false => exact .blocked allow
  | true =>
    cases within : cost.withinBudget with
    | false => exact .exceeded allow within
    | true => exact .decided allow within decides

theorem candidates_ok : SqlProviderCatalog.candidates coll (.ok σ) org = .ok (SqlProviderCatalog.offered coll σ org) :=
  rfl

/-- What a name resolves to is what the catalog offers under it. -/
theorem get_offered {name : String} : SqlProviderCatalog.get coll (.ok σ) org name =
    .ok ((SqlProviderCatalog.offered coll σ org).find? (·.name = name)) := rfl

theorem find?_offered_eq_none {name : String} : (SqlProviderCatalog.offered coll σ org).find? (·.name = name) = none ↔
    ∀ q n e, Offers coll σ org q n e → e.name ≠ name := by
  rw [List.find?_eq_none]
  constructor
  · intro h q n e offers
    simpa using h e (mem_offered.mpr ⟨q, n, offers⟩)
  · intro h e he
    obtain ⟨q, n, offers⟩ := mem_offered.mp he
    simpa using h q n e offers

/-- Where both reads are answered, routing over the database is routing over what the tables offered each time. -/
theorem routeSql_eq_route {τ : CatalogTables} (runtime : AgentRuntime) :
    routeSql coll config now runtime (.ok σ) (.ok τ) breaker decidedAt org correlationId request =
      (route config now runtime (SqlProviderCatalog.offered coll σ) (SqlProviderCatalog.offered coll τ) breaker
        decidedAt org correlationId request).map id (Except.mapError .integrity) := by
  rw [routeSql, candidates_ok, route, ProviderCatalog.candidates]
  simp only [get_offered, ProviderCatalog.get]
  by_cases outcome : (runtime.decide config now breaker decidedAt org correlationId request
      ((SqlProviderCatalog.offered coll σ org).map (·.name))).2.outcome = .selected
  · simp only [if_neg (not_not_intro outcome)]
    cases List.find? _ (SqlProviderCatalog.offered coll τ org) <;> rfl
  · simp only [if_pos outcome]
    rfl

/-- Routing over the database, whatever the tables hold at each of its two reads: the chain decides over the
tenant's providers with an enabled model, each listed once and by name, by the states of the circuits; who is
returned is one whom the second read offers, under that name; and a selection fails exactly when it was withdrawn
in between. -/
theorem routeSql_routed (coll : Collation) (config : CircuitBreakerConfig) (now decidedAt : Timestamp)
    (breaker : InMemoryCircuitBreaker) (planner : PlannerAgent) (policy : PolicyAgent) (cost : CostAgent)
    (health provider : String) (read reread : Except String CatalogTables) (org : OrgId) (correlationId : String)
    (request : Request) :
    RoutedSql coll org (Ruled policy cost (assessed config breaker now org)) read reread
      (routeSql coll config now (chain planner policy cost health provider) read reread breaker decidedAt org
        correlationId request).2 := by
  cases read with
  | error kind => exact .unread rfl
  | ok σ =>
    simp only [routeSql, candidates_ok]
    generalize made : AgentRuntime.decide .. = decided
    have ruled : Ruled policy cost (assessed config breaker now org)
        ((SqlProviderCatalog.offered coll σ org).map (·.name)) decided.2.toRoutingDecision := made ▸ decide_ruled
    obtain ⟨left, decision⟩ := decided
    rcases ruled.selects with none_selected | ⟨name, offered, selected⟩
    · simp only [if_pos none_selected.1]
      exact .unselected rfl offered_listing ruled none_selected
    · obtain ⟨d, hd, rfl⟩ := List.mem_map.mp offered
      have outcome : decision.outcome = .selected := congrArg RoutingDecision.outcome selected
      have chosen : decision.selectedProvider = some d.name := congrArg RoutingDecision.selectedProvider selected
      simp only [outcome, chosen, ne_eq, not_true_eq_false, if_false, Option.getD_some]
      cases reread with
      | error kind => exact .unreread rfl offered_listing hd (selected ▸ ruled) rfl
      | ok τ =>
        rw [get_offered]
        cases found : (SqlProviderCatalog.offered coll τ org).find? (·.name = d.name) with
        | none => exact .withdrawn rfl offered_listing hd (selected ▸ ruled) rfl (find?_offered_eq_none.mp found)
        | some e =>
          obtain ⟨q, n, still⟩ := mem_offered.mp (List.mem_of_find?_eq_some found)
          have name : e.name = d.name := by simpa using List.find?_some found
          exact .routed rfl offered_listing hd ruled selected rfl still name

end
end LlmGateway.Routing.Engine
