import LlmGateway.Auth.Store
import Mathlib.Data.Rat.Defs

/-! The tables of providers, models and prices, and what row security shows one tenant of them. -/
namespace LlmGateway.Persistence
open Ledger Auth

structure ProviderRow where
  id : Uuid
  organizationId : OrgId
  name : String
  region : Option String
  isEnabled : Bool
  deriving DecidableEq, Repr

structure ModelRow where
  id : Uuid
  organizationId : OrgId
  providerId : Uuid
  name : String
  isEnabled : Bool
  deriving DecidableEq, Repr

/-- A price from an instant on, until another if there is one. -/
structure PriceRow where
  organizationId : OrgId
  modelId : Uuid
  currency : String
  inputPricePer1k : ℚ
  outputPricePer1k : ℚ
  effectiveFrom : Timestamp
  effectiveTo : Option Timestamp
  deriving DecidableEq, Repr

/-- The tables with their keys. -/
structure CatalogTables where
  provider : List ProviderRow
  model : List ModelRow
  priceTable : List PriceRow
  provider_id : (provider.map (·.id)).Nodup
  provider_org_name : (provider.map fun row => (row.organizationId, row.name)).Nodup
  model_id : (model.map (·.id)).Nodup
  model_provider_name : (model.map fun row => (row.providerId, row.name)).Nodup
  price_model_effective : (priceTable.map fun row => (row.modelId, row.effectiveFrom)).Nodup

private theorem nodup_map_filter {α κ : Type} {key : α → κ} {rows : List α} (h : (rows.map key).Nodup) (p : α → Bool) :
    ((rows.filter p).map key).Nodup :=
  h.sublist (List.filter_sublist.map key)

/-- What a unit of work that is bound to a tenant is shown. -/
def CatalogTables.shown (σ : CatalogTables) (org : OrgId) : CatalogTables where
  provider := σ.provider.filter (·.organizationId = org)
  model := σ.model.filter (·.organizationId = org)
  priceTable := σ.priceTable.filter (·.organizationId = org)
  provider_id := nodup_map_filter σ.provider_id _
  provider_org_name := nodup_map_filter σ.provider_org_name _
  model_id := nodup_map_filter σ.model_id _
  model_provider_name := nodup_map_filter σ.model_provider_name _
  price_model_effective := nodup_map_filter σ.price_model_effective _

section
variable {σ : CatalogTables} {org : OrgId}

@[simp] theorem CatalogTables.mem_shown_provider {row : ProviderRow} :
    row ∈ (σ.shown org).provider ↔ row ∈ σ.provider ∧ row.organizationId = org := by
  simp [shown]

@[simp] theorem CatalogTables.mem_shown_model {row : ModelRow} :
    row ∈ (σ.shown org).model ↔ row ∈ σ.model ∧ row.organizationId = org := by
  simp [shown]

@[simp] theorem CatalogTables.mem_shown_priceTable {row : PriceRow} :
    row ∈ (σ.shown org).priceTable ↔ row ∈ σ.priceTable ∧ row.organizationId = org := by
  simp [shown]

/-- A tenant's provider, by its name. -/
theorem CatalogTables.provider_of_name {p q : ProviderRow} (hp : p ∈ σ.provider) (hq : q ∈ σ.provider)
    (tenant : p.organizationId = q.organizationId) (name : p.name = q.name) : p = q :=
  List.inj_on_of_nodup_map σ.provider_org_name hp hq (Prod.ext tenant name)

/-- A provider's model, by its name. -/
theorem CatalogTables.model_of_name {m n : ModelRow} (hm : m ∈ σ.model) (hn : n ∈ σ.model)
    (provider : m.providerId = n.providerId) (name : m.name = n.name) : m = n :=
  List.inj_on_of_nodup_map σ.model_provider_name hm hn (Prod.ext provider name)

/-- A model's price, by the instant it starts at. -/
theorem CatalogTables.price_of_start {a b : PriceRow} (ha : a ∈ σ.priceTable) (hb : b ∈ σ.priceTable)
    (model : a.modelId = b.modelId) (start : a.effectiveFrom = b.effectiveFrom) : a = b :=
  List.inj_on_of_nodup_map σ.price_model_effective ha hb (Prod.ext model start)

end
end LlmGateway.Persistence
