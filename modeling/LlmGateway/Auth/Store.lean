import LlmGateway.Ledger.Port

/-! The tables of sessions, refresh tokens, federated identities and login states, and the statements
the repositories issue on them. -/
namespace LlmGateway.Auth
open Ledger

abbrev Uuid := OrgId

/-- The value of a `bytea` column. -/
abbrev Bytes := List UInt8

structure SessionRecord where
  id : Uuid
  userId : Uuid
  organizationId : OrgId
  createdAt : Timestamp
  expiresAt : Timestamp
  revokedAt : Option Timestamp := none
  deriving DecidableEq, Repr

/-- A record holds its hash in hex, a row in bytes. -/
structure RefreshTokenRecord (H : Type) where
  id : Uuid
  sessionId : Uuid
  organizationId : OrgId
  tokenHash : H
  expiresAt : Timestamp
  rotatedTo : Option Uuid := none
  revokedAt : Option Timestamp := none
  deriving DecidableEq, Repr

structure OAuthIdentityRecord where
  id : Uuid
  organizationId : OrgId
  userId : Uuid
  provider : String
  subject : String
  deriving DecidableEq, Repr

structure OidcLoginStateRecord (H : Type) where
  id : Uuid
  organizationId : OrgId
  stateHash : H
  nonceHash : H
  codeVerifier : String
  provider : String
  redirectUri : String
  expiresAt : Timestamp
  deriving DecidableEq, Repr

abbrev TokenRow := RefreshTokenRecord Bytes
abbrev LoginStateRow := OidcLoginStateRecord Bytes

/-- The tables, with their keys. Rows stand in the order of their insertion. -/
structure Store where
  sessions : List SessionRecord
  refreshTokens : List TokenRow
  oauthIdentities : List OAuthIdentityRecord
  oidcLoginStates : List LoginStateRow
  session_pkey : (sessions.map (·.id)).Nodup
  refresh_token_pkey : (refreshTokens.map (·.id)).Nodup
  refresh_token_hash_key : (refreshTokens.map (·.tokenHash)).Nodup
  refresh_token_session_fkey : ∀ row ∈ refreshTokens, row.sessionId ∈ sessions.map (·.id)
  oauth_identity_provider_subject_key : (oauthIdentities.map fun row => (row.provider, row.subject)).Nodup
  oidc_login_state_state_hash_key : (oidcLoginStates.map (·.stateHash)).Nodup

def emptyStore : Store where
  sessions := []
  refreshTokens := []
  oauthIdentities := []
  oidcLoginStates := []
  session_pkey := List.nodup_nil
  refresh_token_pkey := List.nodup_nil
  refresh_token_hash_key := List.nodup_nil
  refresh_token_session_fkey := nofun
  oauth_identity_provider_subject_key := List.nodup_nil
  oidc_login_state_state_hash_key := List.nodup_nil

def SessionRecord.revoke (now : Timestamp) (id : Uuid) (row : SessionRecord) : SessionRecord :=
  if row.id = id then { row with revokedAt := some now } else row

def RefreshTokenRecord.rotate (id rotatedTo : Uuid) (row : TokenRow) : TokenRow :=
  if row.id = id then { row with rotatedTo := some rotatedTo } else row

def RefreshTokenRecord.revoke (now : Timestamp) (sessionId : Uuid) (row : TokenRow) : TokenRow :=
  if row.sessionId = sessionId then { row with revokedAt := some now } else row

section Columns
variable (row : SessionRecord) (token : TokenRow) (now : Timestamp) (id rotatedTo : Uuid)

@[simp] theorem SessionRecord.revoke_id : (row.revoke now id).id = row.id := by
  unfold revoke
  split <;> rfl

theorem SessionRecord.revoke_self : (row.revoke now row.id).revokedAt = some now := by simp [revoke]

/-- A revocation is never taken back. -/
theorem SessionRecord.revoke_revoked (h : row.revokedAt ≠ none) : (row.revoke now id).revokedAt ≠ none := by
  unfold revoke
  split
  · exact Option.some_ne_none now
  · exact h

@[simp] theorem RefreshTokenRecord.rotate_id : (token.rotate id rotatedTo).id = token.id := by
  unfold rotate
  split <;> rfl

@[simp] theorem RefreshTokenRecord.rotate_sessionId : (token.rotate id rotatedTo).sessionId = token.sessionId := by
  unfold rotate
  split <;> rfl

@[simp] theorem RefreshTokenRecord.rotate_tokenHash : (token.rotate id rotatedTo).tokenHash = token.tokenHash := by
  unfold rotate
  split <;> rfl

theorem RefreshTokenRecord.rotate_self : (token.rotate token.id rotatedTo).rotatedTo = some rotatedTo := by
  simp [rotate]

theorem RefreshTokenRecord.rotate_rotated (h : token.rotatedTo ≠ none) :
    (token.rotate id rotatedTo).rotatedTo ≠ none := by
  unfold rotate
  split
  · exact Option.some_ne_none rotatedTo
  · exact h

@[simp] theorem RefreshTokenRecord.revoke_id : (token.revoke now id).id = token.id := by
  unfold revoke
  split <;> rfl

@[simp] theorem RefreshTokenRecord.revoke_sessionId : (token.revoke now id).sessionId = token.sessionId := by
  unfold revoke
  split <;> rfl

@[simp] theorem RefreshTokenRecord.revoke_tokenHash : (token.revoke now id).tokenHash = token.tokenHash := by
  unfold revoke
  split <;> rfl

@[simp] theorem RefreshTokenRecord.revoke_rotatedTo : (token.revoke now id).rotatedTo = token.rotatedTo := by
  unfold revoke
  split <;> rfl

end Columns

namespace Store
variable (σ : Store)

private theorem columns_kept {A B : Type} {f : A → A} {g : A → B} (h : ∀ a, g (f a) = g a) (rows : List A) :
    (rows.map f).map g = rows.map g := by
  rw [List.map_map]
  exact List.map_congr_left fun a _ => h a

/-- `session_expiry_ck` wants a session that ends after it begins. -/
def addSession (record : SessionRecord) : Option Store :=
  if fresh : record.id ∉ σ.sessions.map (·.id) ∧ record.createdAt < record.expiresAt then
    some { σ with
      sessions := σ.sessions ++ [record]
      session_pkey := by
        rw [List.map_append]
        exact List.Nodup.append σ.session_pkey (List.nodup_singleton _) (by simpa using fresh.1)
      refresh_token_session_fkey := by
        intro row hrow
        rw [List.map_append]
        exact List.mem_append_left _ (σ.refresh_token_session_fkey row hrow) }
  else none

def getSession (id : Uuid) : Option SessionRecord := σ.sessions.find? (·.id = id)

theorem getSession_eq {id : Uuid} {row : SessionRecord} (h : σ.getSession id = some row) :
    row ∈ σ.sessions ∧ row.id = id :=
  ⟨List.mem_of_find?_eq_some h, by simpa using List.find?_some h⟩

def revokeSession (id : Uuid) (now : Timestamp) : Store :=
  { σ with
    sessions := σ.sessions.map (·.revoke now id)
    session_pkey := by
      rw [columns_kept fun row => SessionRecord.revoke_id row now id]
      exact σ.session_pkey
    refresh_token_session_fkey := by
      rw [columns_kept fun row => SessionRecord.revoke_id row now id]
      exact σ.refresh_token_session_fkey }

def addRefreshToken (row : TokenRow) : Option Store :=
  if fresh : row.id ∉ σ.refreshTokens.map (·.id) ∧ row.tokenHash ∉ σ.refreshTokens.map (·.tokenHash) ∧
      row.sessionId ∈ σ.sessions.map (·.id) then
    some { σ with
      refreshTokens := σ.refreshTokens ++ [row]
      refresh_token_pkey := by
        rw [List.map_append]
        exact List.Nodup.append σ.refresh_token_pkey (List.nodup_singleton _) (by simpa using fresh.1)
      refresh_token_hash_key := by
        rw [List.map_append]
        exact List.Nodup.append σ.refresh_token_hash_key (List.nodup_singleton _) (by simpa using fresh.2.1)
      refresh_token_session_fkey := by
        intro row' hrow
        rcases List.mem_append.mp hrow with old | new
        · exact σ.refresh_token_session_fkey row' old
        · rw [List.mem_singleton] at new
          exact new ▸ fresh.2.2 }
  else none

def getByHash (tokenHash : Bytes) : Option TokenRow := σ.refreshTokens.find? (·.tokenHash = tokenHash)

theorem getByHash_eq {tokenHash : Bytes} {row : TokenRow} (h : σ.getByHash tokenHash = some row) :
    row ∈ σ.refreshTokens ∧ row.tokenHash = tokenHash :=
  ⟨List.mem_of_find?_eq_some h, by simpa using List.find?_some h⟩

def mapTokens (f : TokenRow → TokenRow) (id : ∀ row, (f row).id = row.id)
    (tokenHash : ∀ row, (f row).tokenHash = row.tokenHash) (sessionId : ∀ row, (f row).sessionId = row.sessionId) :
    Store :=
  { σ with
    refreshTokens := σ.refreshTokens.map f
    refresh_token_pkey := by
      rw [columns_kept id]
      exact σ.refresh_token_pkey
    refresh_token_hash_key := by
      rw [columns_kept tokenHash]
      exact σ.refresh_token_hash_key
    refresh_token_session_fkey := by
      intro _ mapped
      obtain ⟨row, hrow, rfl⟩ := List.mem_map.mp mapped
      rw [sessionId]
      exact σ.refresh_token_session_fkey row hrow }

def markRotated (id rotatedTo : Uuid) : Store :=
  σ.mapTokens (·.rotate id rotatedTo) (·.rotate_id id rotatedTo) (·.rotate_tokenHash id rotatedTo)
    (·.rotate_sessionId id rotatedTo)

def revokeSessionTokens (sessionId : Uuid) (now : Timestamp) : Store :=
  σ.mapTokens (·.revoke now sessionId) (·.revoke_id now sessionId) (·.revoke_tokenHash now sessionId)
    (·.revoke_sessionId now sessionId)

def getBySubject (provider subject : String) : Option OAuthIdentityRecord :=
  σ.oauthIdentities.find? fun row => row.provider = provider ∧ row.subject = subject

theorem getBySubject_eq {provider subject : String} {row : OAuthIdentityRecord}
    (h : σ.getBySubject provider subject = some row) :
    row ∈ σ.oauthIdentities ∧ row.provider = provider ∧ row.subject = subject :=
  ⟨List.mem_of_find?_eq_some h, by simpa using List.find?_some h⟩

/-- `DELETE .. RETURNING`. -/
def deleteLoginState (stateHash : Bytes) : Option LoginStateRow × Store :=
  (σ.oidcLoginStates.find? (·.stateHash = stateHash),
    { σ with
      oidcLoginStates := σ.oidcLoginStates.filter (·.stateHash ≠ stateHash)
      oidc_login_state_state_hash_key := σ.oidc_login_state_state_hash_key.sublist
        (List.filter_sublist.map _) })

end Store
end LlmGateway.Auth
