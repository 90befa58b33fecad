import LlmGateway.Auth.Ports
import LlmGateway.Lib.Unique

/-! Virtual API keys: the two-phase lookup of a presented key, and what is then checked of its record. Each
statement of a lookup sees the tables as they are when it runs. -/
namespace LlmGateway.Auth
open Ledger

inductive ApiKeyStatus where
  | active
  | revoked
  | expired
  deriving DecidableEq, Repr

/-- The identity attached to a request, with the scopes it carries. -/
structure ScopedPrincipal extends Principal where
  scopes : List String
  deriving DecidableEq, Repr

structure ApiKeyRow where
  id : Uuid
  organizationId : OrgId
  keyPrefix : String
  keyHash : Bytes
  status : ApiKeyStatus
  expiresAt : Option Timestamp
  deriving DecidableEq, Repr

structure ApiKeyScopeRow where
  apiKeyId : Uuid
  scope : String
  organizationId : OrgId
  deriving DecidableEq, Repr

/-- `api_key` and `api_key_scope`, with the keys of the first. -/
structure ApiKeyTables where
  apiKeys : List ApiKeyRow
  apiKeyScopes : List ApiKeyScopeRow
  prefix_unique : (apiKeys.map (·.keyPrefix)).Nodup
  id_unique : (apiKeys.map (·.id)).Nodup

structure ApiKeyRecord where
  id : Uuid
  organizationId : OrgId
  keyHash : String
  scopes : List String
  isActive : Bool
  expiresAt : Option Timestamp
  deriving DecidableEq, Repr

namespace ApiKeyTables
variable (σ : ApiKeyTables)

/-- `gateway_api_key_tenant(prefix)`: past the tenant policy, the organization of an active key and no more. -/
def tenantOfPrefix (keyPrefix : String) : Option OrgId :=
  (σ.apiKeys.find? fun key => key.keyPrefix = keyPrefix ∧ key.status = .active).map (·.organizationId)

/-- The key of this prefix, among those the policy shows the tenant. -/
def keyOfPrefix (bound : OrgId) (keyPrefix : String) : Option ApiKeyRow :=
  (σ.apiKeys.filter (·.organizationId = bound)).find? (·.keyPrefix = keyPrefix)

/-- The scopes of this key, among those the policy shows the tenant. -/
def scopesOf (bound : OrgId) (apiKeyId : Uuid) : List String :=
  ((σ.apiKeyScopes.filter (·.organizationId = bound)).filter (·.apiKeyId = apiKeyId)).map (·.scope)

end ApiKeyTables

/-- What the statements of one lookup find: the tables, or an error of the database or of the network. -/
structure Lookup where
  resolve : Except String ApiKeyTables
  key : Except String ApiKeyTables
  scopes : Except String ApiKeyTables

/-- `SqlApiKeyRepository.get_by_prefix`, in a unit of work bound to the tenant. -/
def SqlApiKeyRepository.getByPrefix (lookup : Lookup) (bound : OrgId) (keyPrefix : String) :
    Except String (Option ApiKeyRecord) :=
  match lookup.key with
  | .error e => .error e
  | .ok σ =>
    match σ.keyOfPrefix bound keyPrefix with
    | none => .ok none
    | some row =>
      match lookup.scopes with
      | .error e => .error e
      | .ok σ =>
        .ok (some { id := row.id
                    organizationId := row.organizationId
                    keyHash := toHex row.keyHash
                    scopes := σ.scopesOf bound row.id
                    isActive := row.status = .active
                    expiresAt := row.expiresAt })

/-- `TenantScopedApiKeyRepository.get_by_prefix`. A store that cannot be read has no keys. -/
def TenantScopedApiKeyRepository.getByPrefix (lookup : Lookup) (keyPrefix : String) : Option ApiKeyRecord :=
  match lookup.resolve with
  | .error _ => none
  | .ok σ =>
    match σ.tenantOfPrefix keyPrefix with
    | none => none
    | some organizationId =>
      match SqlApiKeyRepository.getByPrefix lookup organizationId keyPrefix with
      | .error _ => none
      | .ok record => record

/-- `CredentialInvalidError`, with its message. -/
structure CredentialInvalid where
  message : String
  deriving DecidableEq, Repr

/-- What both kinds of secret are checked for, in this order. -/
def checkSecret (invalid expired : String) (isActive : Bool) (expiresAt : Option Timestamp) (now : Timestamp)
    (verified : Bool) : Except CredentialInvalid Unit :=
  if !isActive then .error ⟨invalid⟩
  else if expiresAt.any (now > ·) then .error ⟨expired⟩
  else if !verified then .error ⟨invalid⟩
  else .ok ()

section
-- SHA-256 of the UTF-8 text.
variable (sha256 : String → Bytes)

def hashSecret (secret : String) : String := toHex (sha256 secret)

def verifySecret (presented storedHashHex : String) : Bool := hashSecret sha256 presented = storedHashHex

def apiKeyPrefixLength : Nat := 16

def apiKeyPrefix : String := "elg_"

def extractPrefix (secret : String) : String := String.ofList (secret.toList.take apiKeyPrefixLength)

/-- `AuthenticateApiKey.__call__`; `now` is read after the lookup. -/
def AuthenticateApiKey (lookup : Lookup) (now : Timestamp) (presentedSecret : String) :
    Except CredentialInvalid ScopedPrincipal :=
  match TenantScopedApiKeyRepository.getByPrefix lookup (extractPrefix presentedSecret) with
  | none => .error ⟨"invalid API key"⟩
  | some record =>
    match checkSecret "invalid API key" "API key expired" record.isActive record.expiresAt now
      (verifySecret sha256 presentedSecret record.keyHash) with
    | .error e => .error e
    | .ok () =>
      .ok { principalType := .apiKey
            subjectId := record.id
            organizationId := record.organizationId
            scopes := record.scopes }

end

/-! ### Which presented keys are accepted -/

private theorem hexByte_inj {a b : UInt8} (h : Lib.fixedDigits 16 2 a.toNat = Lib.fixedDigits 16 2 b.toNat) : a = b := by
  have small : ∀ x : UInt8, x.toNat < 16 ^ 2 := fun x => x.toNat_lt
  exact UInt8.toNat_inj.mp (Lib.fixedDigits_inj (by decide) (by decide) (small a) (small b) h)

theorem toHex_injective : Function.Injective toHex := by
  intro a
  induction a with
  | nil =>
    intro b h
    cases b with
    | nil => rfl
    | cons y b =>
      have := congrArg List.length (String.ofList_injective h)
      simp at this
      omega
  | cons x a ih =>
    intro b h
    have digits := String.ofList_injective h
    cases b with
    | nil =>
      have := congrArg List.length digits
      simp at this
    | cons y b =>
      rw [List.flatMap_cons, List.flatMap_cons] at digits
      obtain ⟨first, rest⟩ := List.append_inj digits (by simp)
      rw [hexByte_inj first, ih (congrArg String.ofList rest)]

theorem checkSecret_ok {invalid expired : String} {isActive : Bool} {expiresAt : Option Timestamp} {now : Timestamp}
    {verified : Bool} : checkSecret invalid expired isActive expiresAt now verified = .ok () ↔
      isActive = true ∧ (∀ e ∈ expiresAt, now ≤ e) ∧ verified = true := by
  unfold checkSecret
  cases isActive with
  | false => simp
  | true =>
    cases expiresAt with
    | none => cases verified <;> simp
    | some e =>
      by_cases late : e < now
      · simp [late]
      · cases verified <;> simp [late, not_lt.mp late]

namespace ApiKeyTables
variable {σ : ApiKeyTables} {keyPrefix : String} {org : OrgId} {key : ApiKeyRow}

variable (keyPrefix) in
/-- A prefix has one key. -/
theorem prefix_alone {p : ApiKeyRow → Bool} (hp : ∀ key, p key → key.keyPrefix = keyPrefix) :
    ∀ a ∈ σ.apiKeys, ∀ b ∈ σ.apiKeys, p a → p b → a = b :=
  fun _ ha _ hb pa pb => Lib.Unique.key_inj σ.prefix_unique ha hb ((hp _ pa).trans (hp _ pb).symm)

theorem tenantOfPrefix_eq_some : σ.tenantOfPrefix keyPrefix = some org ↔
    ∃ key ∈ σ.apiKeys, key.keyPrefix = keyPrefix ∧ key.status = .active ∧ key.organizationId = org := by
  have alone := prefix_alone (σ := σ) keyPrefix
    (p := fun key => key.keyPrefix = keyPrefix ∧ key.status = .active) fun key h => (of_decide_eq_true h).1
  rw [tenantOfPrefix, Option.map_eq_some_iff]
  constructor
  · rintro ⟨key, found, rfl⟩
    obtain ⟨there, checked⟩ := (Lib.Unique.find?_eq_some_iff alone).mp found
    obtain ⟨hp, active⟩ := of_decide_eq_true checked
    exact ⟨key, there, hp, active, rfl⟩
  · rintro ⟨key, there, hp, active, rfl⟩
    exact ⟨key, (Lib.Unique.find?_eq_some_iff alone).mpr ⟨there, decide_eq_true ⟨hp, active⟩⟩, rfl⟩

theorem keyOfPrefix_eq_some : σ.keyOfPrefix org keyPrefix = some key ↔
    key ∈ σ.apiKeys ∧ key.organizationId = org ∧ key.keyPrefix = keyPrefix := by
  have alone := prefix_alone (σ := σ) keyPrefix (p := (·.keyPrefix = keyPrefix)) fun key h => of_decide_eq_true h
  have shown_alone : ∀ a ∈ σ.apiKeys.filter (·.organizationId = org), ∀ b ∈ σ.apiKeys.filter (·.organizationId = org),
      decide (a.keyPrefix = keyPrefix) = true → decide (b.keyPrefix = keyPrefix) = true → a = b :=
    fun a ha b hb => alone a (List.mem_filter.mp ha).1 b (List.mem_filter.mp hb).1
  rw [keyOfPrefix, Lib.Unique.find?_eq_some_iff shown_alone, List.mem_filter, decide_eq_true_iff, decide_eq_true_iff,
    and_assoc]

end ApiKeyTables

/-- The key that the lookup finds and the secret opens. -/
structure Opens (sha256 : String → Bytes) (lookup : Lookup) (now : Timestamp) (secret : String) (key : ApiKeyRow) :
    Prop where
  resolved : ∃ σ, lookup.resolve = .ok σ ∧ ∃ first ∈ σ.apiKeys, first.keyPrefix = extractPrefix secret ∧
    first.status = .active ∧ first.organizationId = key.organizationId
  read : ∃ σ, lookup.key = .ok σ ∧ key ∈ σ.apiKeys
  keyPrefix : key.keyPrefix = extractPrefix secret
  active : key.status = .active
  unexpired : ∀ e ∈ key.expiresAt, now ≤ e
  hash : key.keyHash = sha256 secret

private theorem sqlGetByPrefix_iff {lookup : Lookup} {org : OrgId} {keyPrefix : String} {record : ApiKeyRecord} :
    SqlApiKeyRepository.getByPrefix lookup org keyPrefix = .ok (some record) ↔
      ∃ σ key σ', lookup.key = .ok σ ∧ lookup.scopes = .ok σ' ∧ key ∈ σ.apiKeys ∧ key.organizationId = org ∧
        key.keyPrefix = keyPrefix ∧ record = ⟨key.id, key.organizationId, toHex key.keyHash, σ'.scopesOf org key.id,
          key.status = .active, key.expiresAt⟩ := by
  unfold SqlApiKeyRepository.getByPrefix
  cases hk : lookup.key with
  | error e => simp
  | ok σ =>
    dsimp only
    cases hrow : σ.keyOfPrefix org keyPrefix with
    | none =>
      have missing : ∀ key, ¬ (key ∈ σ.apiKeys ∧ key.organizationId = org ∧ key.keyPrefix = keyPrefix) := by
        intro key h
        rw [ApiKeyTables.keyOfPrefix_eq_some.mpr h] at hrow
        cases hrow
      constructor
      · intro h
        cases h
      · rintro ⟨_, key, _, ⟨⟩, -, there, ho, hp, -⟩
        exact absurd ⟨there, ho, hp⟩ (missing key)
    | some row =>
      have found := ApiKeyTables.keyOfPrefix_eq_some.mp hrow
      cases hs : lookup.scopes with
      | error e => simp
      | ok σ' =>
        constructor
        · intro h
          cases h
          exact ⟨σ, row, σ', rfl, rfl, found.1, found.2.1, found.2.2, rfl⟩
        · rintro ⟨_, key, _, ⟨⟩, ⟨⟩, there, ho, hp, rfl⟩
          rw [ApiKeyTables.keyOfPrefix_eq_some.mpr ⟨there, ho, hp⟩] at hrow
          cases hrow
          rfl

private theorem scopedGetByPrefix_iff {lookup : Lookup} {keyPrefix : String} {record : ApiKeyRecord} :
    TenantScopedApiKeyRepository.getByPrefix lookup keyPrefix = some record ↔
      ∃ σ org, lookup.resolve = .ok σ ∧ σ.tenantOfPrefix keyPrefix = some org ∧
        SqlApiKeyRepository.getByPrefix lookup org keyPrefix = .ok (some record) := by
  unfold TenantScopedApiKeyRepository.getByPrefix
  cases hr : lookup.resolve with
  | error e => simp
  | ok σ =>
    cases ho : σ.tenantOfPrefix keyPrefix with
    | none => simp [ho]
    | some org =>
      dsimp only
      cases hg : SqlApiKeyRepository.getByPrefix lookup org keyPrefix with
      | error e => simp [ho, hg]
      | ok found => simp [ho, hg]

/-- A presented secret is accepted for the one key that it opens, with that key's tenant and scopes: whatever
changes the tables between the statements of the lookup. -/
theorem apiKey_authenticated_iff (sha256 : String → Bytes) (lookup : Lookup) (now : Timestamp) (secret : String)
    (principal : ScopedPrincipal) : AuthenticateApiKey sha256 lookup now secret = .ok principal ↔
      ∃ key σ, Opens sha256 lookup now secret key ∧ lookup.scopes = .ok σ ∧
        principal = ⟨⟨.apiKey, key.id, key.organizationId⟩, σ.scopesOf key.organizationId key.id⟩ := by
  unfold AuthenticateApiKey
  constructor
  · intro h
    split at h
    · cases h
    rename_i record found
    obtain ⟨σ₁, org, resolved, tenant, selected⟩ := scopedGetByPrefix_iff.mp found
    obtain ⟨σ₂, key, σ₃, read, scopes, there, rfl, hp, rfl⟩ := sqlGetByPrefix_iff.mp selected
    obtain ⟨first, there₁, hp₁, active₁, same⟩ := ApiKeyTables.tenantOfPrefix_eq_some.mp tenant
    split at h
    · cases h
    rename_i checked
    cases h
    obtain ⟨active, unexpired, verified⟩ := checkSecret_ok.mp checked
    refine ⟨key, σ₃, ⟨⟨σ₁, resolved, first, there₁, hp₁, active₁, same⟩, ⟨σ₂, read, there⟩, hp, ?_, unexpired, ?_⟩,
      scopes, rfl⟩
    · exact of_decide_eq_true active
    · exact (toHex_injective (of_decide_eq_true verified)).symm
  · rintro ⟨key, σ₃, opens, scopes, rfl⟩
    obtain ⟨σ₁, resolved, first, there₁, hp₁, active₁, same⟩ := opens.resolved
    obtain ⟨σ₂, read, there⟩ := opens.read
    have tenant := ApiKeyTables.tenantOfPrefix_eq_some.mpr ⟨first, there₁, hp₁, active₁, same⟩
    have selected := sqlGetByPrefix_iff.mpr ⟨σ₂, key, σ₃, read, scopes, there, rfl, opens.keyPrefix, rfl⟩
    rw [scopedGetByPrefix_iff.mpr ⟨σ₁, _, resolved, tenant, selected⟩]
    have checked : checkSecret "invalid API key" "API key expired" (key.status = .active) key.expiresAt now
        (verifySecret sha256 secret (toHex key.keyHash)) = .ok () := by
      refine checkSecret_ok.mpr ⟨decide_eq_true opens.active, opens.unexpired, decide_eq_true ?_⟩
      rw [opens.hash, hashSecret]
    dsimp only
    rw [checked]

end LlmGateway.Auth
