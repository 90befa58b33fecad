import LlmGateway.Execution.Operation

/-! `compute_cache_key` and `InMemoryResponseCache`. -/
namespace LlmGateway.Execution
open Ledger Accounting

variable {κ : Type}

/-- `compute_cache_key`, over the payload's canonical JSON. -/
def computeCacheKey (sha256 : String → κ) (organizationId : OrgId) (provider : ProviderDescriptor)
    (payload : String) : κ :=
  sha256 (organizationId.str ++ "\x00" ++ provider.name ++ "\x00" ++ provider.model ++ "\x00" ++
    payload)

structure CacheEntry where
  response : CachedResponse
  expiresAt : Timestamp
  deriving DecidableEq, Repr

/-- The entries by organization and digest. -/
structure InMemoryResponseCache (κ : Type) where
  store : OrgId × κ → Option CacheEntry

namespace InMemoryResponseCache

def get (cache : InMemoryResponseCache κ) (now : Timestamp) (organizationId : OrgId) (key : κ) :
    Option CachedResponse :=
  match cache.store (organizationId, key) with
  | none => none
  | some entry => if entry.expiresAt ≤ now then none else some entry.response

def put [DecidableEq κ] (cache : InMemoryResponseCache κ) (ttl now : Timestamp)
    (organizationId : OrgId) (key : κ) (response : CachedResponse) : InMemoryResponseCache κ :=
  ⟨Function.update cache.store (organizationId, key) (some ⟨response, now + ttl⟩)⟩

end InMemoryResponseCache
end LlmGateway.Execution
