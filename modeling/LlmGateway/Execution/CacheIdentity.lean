import LlmGateway.Execution.ResponseCache
import LlmGateway.Ledger.Uuid
import LlmGateway.Lib.JsonText

/-! `compute_cache_key` over payloads: which requests share a key. -/
namespace LlmGateway.Execution
open Ledger Lib

variable {κ : Type}

/-- What a key is computed of. A dictionary has a key once, and the names have no NUL. -/
structure CacheRequest where
  organizationId : OrgId
  provider : String
  model : String
  payload : Json.Members Empty
  provider_plain : '\x00' ∉ provider.toList
  model_plain : '\x00' ∉ model.toList
  distinct : Json.Distinct (.obj payload)

namespace CacheRequest

def canonicalPayload (r : CacheRequest) : Option String :=
  (Json.dumps false true (.obj r.payload)).map String.ofList

/-- The string that is hashed. -/
def material (r : CacheRequest) : Option String :=
  r.canonicalPayload.map fun canonical =>
    r.organizationId.str ++ "\x00" ++ r.provider ++ "\x00" ++ r.model ++ "\x00" ++ canonical

def cacheKey (sha256 : String → κ) (r : CacheRequest) : Option κ := r.material.map sha256

/-- The same request: payloads may differ in the order of their keys. -/
def Same (a b : CacheRequest) : Prop :=
  a.organizationId = b.organizationId ∧ a.provider = b.provider ∧ a.model = b.model ∧
    Json.Same (.obj a.payload) (.obj b.payload)

/-- The key of the response cache, over the canonical payload. -/
theorem cacheKey_eq_computeCacheKey (sha256 : String → κ) (r : CacheRequest) : r.cacheKey sha256 =
    r.canonicalPayload.map (computeCacheKey sha256 r.organizationId ⟨r.provider, r.model⟩) :=
  Option.map_map ..

/-- A hashed string is the four parts set off by NULs. -/
private theorem material_some {r : CacheRequest} {s : String} (h : r.material = some s) :
    ∃ canonical, Json.dumps false true (.obj r.payload) = some canonical ∧
      s.toList = r.organizationId.str.toList ++ '\x00' :: (r.provider.toList ++ '\x00' ::
        (r.model.toList ++ '\x00' :: canonical)) := by
  unfold material canonicalPayload at h
  obtain ⟨_, hcanonical, rfl⟩ := Option.map_eq_some_iff.mp h
  obtain ⟨canonical, hdumps, rfl⟩ := Option.map_eq_some_iff.mp hcanonical
  refine ⟨canonical, hdumps, ?_⟩
  simp only [String.toList_append, String.toList_ofList, List.append_assoc]
  rfl

end CacheRequest

/-- Two requests have the same string hashed, and so the same key, exactly when they are the same. -/
theorem cache_identity {a b : CacheRequest} {s s' : String} (ha : a.material = some s) (hb : b.material = some s') :
    (s = s' ↔ a.Same b) ∧ ∀ {κ : Type} (sha256 : String → κ), Function.Injective sha256 →
      (a.cacheKey sha256 = b.cacheKey sha256 ↔ a.Same b) := by
  have told : s = s' ↔ a.Same b := by
    obtain ⟨canonical, hdumps, parts⟩ := CacheRequest.material_some ha
    obtain ⟨canonical', hdumps', parts'⟩ := CacheRequest.material_some hb
    have payloads := Json.dumps_sorted_eq_iff a.distinct b.distinct hdumps hdumps'
    have no_nul : ∀ org : OrgId, '\x00' ∉ org.str.toList := fun org => OrgId.notMem_str (by decide) (by decide) org
    constructor
    · rintro rfl
      rw [parts] at parts'
      obtain ⟨org, rest⟩ := append_separator_inj (no_nul _) (no_nul _) parts'
      obtain ⟨provider, rest⟩ := append_separator_inj a.provider_plain b.provider_plain rest
      obtain ⟨model, rest⟩ := append_separator_inj a.model_plain b.model_plain rest
      exact ⟨OrgId.str_injective (String.toList_injective org), String.toList_injective provider,
        String.toList_injective model, payloads.mp rest⟩
    · rintro ⟨org, provider, model, payload⟩
      refine String.toList_injective ?_
      rw [parts, parts', org, provider, model, payloads.mpr payload]
  refine ⟨told, fun sha256 inj => ?_⟩
  rw [CacheRequest.cacheKey, CacheRequest.cacheKey, ha, hb, Option.map_some, Option.map_some, Option.some_inj,
    inj.eq_iff]
  exact told

private def promptRequest (payload : Json.Members Empty) (distinct : Json.Distinct (.obj payload)) : CacheRequest where
  organizationId := 7
  provider := "openai"
  model := "gpt-4o"
  payload := payload
  provider_plain := by decide
  model_plain := by decide
  distinct := distinct

private theorem distinct_pair {k k' : String} (h : k ≠ k') (n n' : Int) :
    Json.Distinct (.obj [(k, .int n), (k', .int n')] : Json Empty) := by
  refine .obj (by simpa using h) fun member hm => ?_
  rcases List.mem_cons.mp hm with rfl | hm
  · exact .int n
  · exact List.mem_singleton.mp hm ▸ .int n'

private def seedFirst : CacheRequest := promptRequest [("seed", .int 1), ("n", .int 2)] (distinct_pair (by decide) 1 2)

private def seedLast : CacheRequest := promptRequest [("n", .int 2), ("seed", .int 1)] (distinct_pair (by decide) 2 1)

theorem cache_identity_reordered : ∃ s s' : String, seedFirst.material = some s ∧ seedLast.material = some s' ∧
    (s = s' ↔ seedFirst.Same seedLast) :=
  ⟨_, _, rfl, rfl, (cache_identity (a := seedFirst) (b := seedLast) rfl rfl).1⟩

end LlmGateway.Execution
