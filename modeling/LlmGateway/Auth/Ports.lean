import LlmGateway.Audit.Chain
import LlmGateway.Auth.Store
import LlmGateway.Lib.Interleaved

/-! What the authentication use cases call: repositories, the clock and the sources of ids and secrets,
the token service, the audit sink and the identity provider. -/
namespace LlmGateway.Auth
open Ledger Lib.Interleaved
open Audit (AuthAuditEvent PrincipalType)

structure Principal where
  principalType : PrincipalType
  subjectId : Uuid
  organizationId : OrgId
  deriving DecidableEq, Repr

structure IssuedTokens where
  accessToken : String
  refreshToken : String
  deriving DecidableEq, Repr

structure OidcTokenResponse where
  idToken : String
  deriving DecidableEq, Repr

/-- The verified claim the login uses. -/
structure OidcIdTokenClaims where
  subject : String
  deriving DecidableEq, Repr

inductive Raised where
  | tokenInvalid (message : String)
  | tokenExpired (message : String)
  | refreshReuse (message : String)
  | sessionRevoked (message : String)
  | oidcStateInvalid (message : String)
  | oidcIdentity (message : String)
  /-- `bytes.fromhex` was given something else. -/
  | notHex
  /-- A constraint of the database. -/
  | integrity
  /-- Whatever a port outside the program raises. -/
  | port (message : String)
  deriving DecidableEq, Repr

/-- What a step may draw from outside. -/
structure World where
  now : Timestamp
  uuid4 : Uuid
  generateToken : String
  accessToken : Except Raised String
  exchangeCode : Except Raised OidcTokenResponse
  verifyIdToken : Except Raised OidcIdTokenClaims

/-- A repository statement or a call of another port. -/
inductive Op where
  | now
  | uuid4
  | generateToken
  | addSession (record : SessionRecord)
  | getSession (sessionId : Uuid)
  | revokeSession (sessionId : Uuid)
  | addRefreshToken (record : RefreshTokenRecord String)
  | getByHash (tokenHash : String)
  | markRotated (tokenId rotatedTo : Uuid)
  | revokeSessionTokens (sessionId : Uuid)
  | consume (stateHash : String) (now : Timestamp)
  | getBySubject (provider subject : String)
  | issueAccessToken (principal : Principal) (ttl : Timestamp)
  | exchangeCode (code codeVerifier redirectUri : String)
  | verifyIdToken (idToken expectedNonceHash : String)
  | record (event : AuthAuditEvent)
  deriving DecidableEq

@[reducible] def Op.Answer : Op → Type
  | .now => Timestamp
  | .uuid4 => Uuid
  | .generateToken => String
  | .addSession _ => Unit
  | .getSession _ => Option SessionRecord
  | .revokeSession _ => Unit
  | .addRefreshToken _ => Unit
  | .getByHash _ => Option (RefreshTokenRecord String)
  | .markRotated _ _ => Unit
  | .revokeSessionTokens _ => Unit
  | .consume _ _ => Option (OidcLoginStateRecord String)
  | .getBySubject _ _ => Option OAuthIdentityRecord
  | .issueAccessToken _ _ => String
  | .exchangeCode _ _ _ => OidcTokenResponse
  | .verifyIdToken _ _ => OidcIdTokenClaims
  | .record _ => Unit

/-- The value of a hexadecimal digit, of either case. -/
def hexDigit (c : Char) : Option Nat :=
  if '0' ≤ c ∧ c ≤ '9' then some (c.toNat - '0'.toNat)
  else if 'a' ≤ c ∧ c ≤ 'f' then some (c.toNat - 'a'.toNat + 10)
  else if 'A' ≤ c ∧ c ≤ 'F' then some (c.toNat - 'A'.toNat + 10)
  else none

/-- The white space `bytes.fromhex` skips between bytes. -/
def isSpace (c : Char) : Bool := c ∈ [' ', '\t', '\n', '\x0b', '\x0c', '\r']

/-- `bytes.fromhex`. -/
def fromHex : List Char → Option Bytes
  | [] => some []
  | [c] => if isSpace c then some [] else none
  | c :: d :: rest =>
    if isSpace c then fromHex (d :: rest)
    else (hexDigit c).bind fun high => (hexDigit d).bind fun low =>
      (fromHex rest).map (UInt8.ofNat (16 * high + low) :: ·)

/-- `_to_bytes`. -/
def toBytes (hexHash : String) : Option Bytes := fromHex hexHash.toList

/-- `_to_hex`. -/
def toHex (value : Bytes) : String := String.ofList (value.flatMap fun b => Lib.fixedDigits 16 2 b.toNat)

def RefreshTokenRecord.withHash {H H' : Type} (record : RefreshTokenRecord H) (tokenHash : H') : RefreshTokenRecord H' :=
  { record with tokenHash }

def OidcLoginStateRecord.toRecord (row : LoginStateRow) : OidcLoginStateRecord String :=
  { row with stateHash := toHex row.stateHash, nonceHash := toHex row.nonceHash }

/-- `SqlOidcLoginStateStore.consume`: an expired row is deleted too, and treated as absent. -/
def consume (σ : Store) (stateHash : String) (now : Timestamp) : Except Raised (Option (OidcLoginStateRecord String) × Store) :=
  match toBytes stateHash with
  | none => .error .notHex
  | some hash =>
    let (row, σ') := σ.deleteLoginState hash
    .ok ((row.filter fun row => ¬ row.expiresAt ≤ now).map (·.toRecord), σ')

def ofConstraint (inserted : Option Store) : Except Raised (Unit × Store) :=
  match inserted with
  | none => .error .integrity
  | some σ => .ok ((), σ)

def perform (w : World) (σ : Store) : (o : Op) → Except Raised (o.Answer × Store)
  | .now => .ok (w.now, σ)
  | .uuid4 => .ok (w.uuid4, σ)
  | .generateToken => .ok (w.generateToken, σ)
  | .addSession record => ofConstraint (σ.addSession record)
  | .getSession sessionId => .ok (σ.getSession sessionId, σ)
  | .revokeSession sessionId => .ok ((), σ.revokeSession sessionId w.now)
  | .addRefreshToken record =>
    match toBytes record.tokenHash with
    | none => .error .notHex
    | some hash => ofConstraint (σ.addRefreshToken (record.withHash hash))
  | .getByHash tokenHash =>
    match toBytes tokenHash with
    | none => .error .notHex
    | some hash => .ok ((σ.getByHash hash).map fun row => row.withHash (toHex row.tokenHash), σ)
  | .markRotated tokenId rotatedTo => .ok ((), σ.markRotated tokenId rotatedTo)
  | .revokeSessionTokens sessionId => .ok ((), σ.revokeSessionTokens sessionId w.now)
  | .consume stateHash now => consume σ stateHash now
  | .getBySubject provider subject => .ok (σ.getBySubject provider subject, σ)
  | .issueAccessToken _ _ => w.accessToken.map (·, σ)
  | .exchangeCode _ _ _ => w.exchangeCode.map (·, σ)
  | .verifyIdToken _ _ => w.verifyIdToken.map (·, σ)
  -- the composite sink logs what a sink raises, and goes on
  | .record _ => .ok ((), σ)

/-- The ports of the use cases, over the tables. -/
@[reducible] def ports : Ports where
  State := Store
  World := World
  Op := Op
  Answer := Op.Answer
  Raised := Raised
  perform := perform

/-- What every operation keeps: a token its identity and its successor, a session its revocation. -/
structure Evolves (σ σ' : Store) : Prop where
  token : ∀ row ∈ σ.refreshTokens, ∃ row' ∈ σ'.refreshTokens, row'.id = row.id ∧ row'.sessionId = row.sessionId ∧
    row'.tokenHash = row.tokenHash ∧ (row.rotatedTo ≠ none → row'.rotatedTo ≠ none)
  session : ∀ row ∈ σ.sessions, ∃ row' ∈ σ'.sessions, row'.id = row.id ∧
    (row.revokedAt ≠ none → row'.revokedAt ≠ none)

theorem Evolves.refl (σ : Store) : Evolves σ σ where
  token row h := ⟨row, h, rfl, rfl, rfl, id⟩
  session row h := ⟨row, h, rfl, id⟩

namespace Store
variable {σ σ' : Store}

theorem addSession_eq {record : SessionRecord} (h : σ.addSession record = some σ') :
    σ'.sessions = σ.sessions ++ [record] ∧ σ'.refreshTokens = σ.refreshTokens ∧
      σ'.oauthIdentities = σ.oauthIdentities ∧ σ'.oidcLoginStates = σ.oidcLoginStates := by
  unfold addSession at h
  split at h
  · cases h
    exact ⟨rfl, rfl, rfl, rfl⟩
  · cases h

theorem addSession_fresh {record : SessionRecord} (h : σ.addSession record = some σ') :
    record.id ∉ σ.sessions.map (·.id) := by
  unfold addSession at h
  split at h
  · rename_i fresh
    exact fresh.1
  · cases h

theorem addRefreshToken_eq {row : TokenRow} (h : σ.addRefreshToken row = some σ') :
    σ'.refreshTokens = σ.refreshTokens ++ [row] ∧ σ'.sessions = σ.sessions ∧
      σ'.oauthIdentities = σ.oauthIdentities ∧ σ'.oidcLoginStates = σ.oidcLoginStates := by
  unfold addRefreshToken at h
  split at h
  · cases h
    exact ⟨rfl, rfl, rfl, rfl⟩
  · cases h

theorem evolves_addSession {record : SessionRecord} (h : σ.addSession record = some σ') : Evolves σ σ' := by
  obtain ⟨sessions, tokens, -⟩ := addSession_eq h
  constructor
  · rw [tokens]
    exact (Evolves.refl σ).token
  · intro row hrow
    rw [sessions]
    exact ⟨row, List.mem_append_left _ hrow, rfl, id⟩

theorem evolves_addRefreshToken {row : TokenRow} (h : σ.addRefreshToken row = some σ') : Evolves σ σ' := by
  obtain ⟨tokens, sessions, -⟩ := addRefreshToken_eq h
  constructor
  · intro row' hrow
    rw [tokens]
    exact ⟨row', List.mem_append_left _ hrow, rfl, rfl, rfl, id⟩
  · rw [sessions]
    exact (Evolves.refl σ).session

theorem evolves_revokeSession (id : Uuid) (now : Timestamp) : Evolves σ (σ.revokeSession id now) where
  token := (Evolves.refl σ).token
  session row h := ⟨_, List.mem_map_of_mem h, row.revoke_id now id, row.revoke_revoked now id⟩

theorem evolves_markRotated (id rotatedTo : Uuid) : Evolves σ (σ.markRotated id rotatedTo) where
  token row h := ⟨_, List.mem_map_of_mem h, row.rotate_id id rotatedTo, row.rotate_sessionId id rotatedTo,
    row.rotate_tokenHash id rotatedTo, row.rotate_rotated id rotatedTo⟩
  session := (Evolves.refl σ).session

theorem evolves_revokeSessionTokens (id : Uuid) (now : Timestamp) : Evolves σ (σ.revokeSessionTokens id now) where
  token row h := ⟨_, List.mem_map_of_mem h, row.revoke_id now id, row.revoke_sessionId now id,
    row.revoke_tokenHash now id, by rw [row.revoke_rotatedTo]; exact fun rotated => rotated⟩
  session := (Evolves.refl σ).session

end Store

section Perform
variable {w : World} {σ σ' : Store}

theorem ofConstraint_ok {inserted : Option Store} {r : Unit} (h : ofConstraint inserted = .ok (r, σ')) :
    inserted = some σ' := by
  cases inserted with
  | none => cases h
  | some _ =>
    cases h
    rfl

/-- A port outside the program leaves the tables alone. -/
theorem outside_same {α : Type} {answer : Except Raised α} {r : α} (h : answer.map (·, σ) = .ok (r, σ')) : σ' = σ := by
  cases answer with
  | error => cases h
  | ok =>
    cases h
    rfl

theorem perform_addRefreshToken {record : RefreshTokenRecord String} {r : Unit}
    (h : perform w σ (.addRefreshToken record) = .ok (r, σ')) :
    ∃ hash, toBytes record.tokenHash = some hash ∧ σ.addRefreshToken (record.withHash hash) = some σ' := by
  simp only [perform] at h
  split at h
  · cases h
  · rename_i hash bytes
    exact ⟨hash, bytes, ofConstraint_ok h⟩

theorem perform_getByHash {tokenHash : String} {r : Option (RefreshTokenRecord String)}
    (h : perform w σ (.getByHash tokenHash) = .ok (r, σ')) : σ' = σ ∧ ∃ hash, toBytes tokenHash = some hash ∧
      r = (σ.getByHash hash).map fun row => row.withHash (toHex row.tokenHash) := by
  simp only [perform] at h
  split at h
  · cases h
  · rename_i hash bytes
    cases h
    exact ⟨rfl, hash, bytes, rfl⟩

theorem perform_consume {stateHash : String} {now : Timestamp} {r : Option (OidcLoginStateRecord String)}
    (h : perform w σ (.consume stateHash now) = .ok (r, σ')) :
    ∃ hash, toBytes stateHash = some hash ∧ σ' = (σ.deleteLoginState hash).2 ∧
      r = ((σ.deleteLoginState hash).1.filter fun row => ¬ row.expiresAt ≤ now).map (·.toRecord) := by
  simp only [perform, consume] at h
  split at h
  · cases h
  · rename_i hash bytes
    cases h
    exact ⟨hash, bytes, rfl, rfl⟩

theorem perform_evolves {o : Op} {r : o.Answer} (h : perform w σ o = .ok (r, σ')) : Evolves σ σ' := by
  cases o with
  | now | uuid4 | generateToken | getSession | getBySubject | record =>
    cases h
    exact .refl σ
  | addSession => exact Store.evolves_addSession (ofConstraint_ok h)
  | revokeSession =>
    cases h
    exact Store.evolves_revokeSession _ _
  | addRefreshToken =>
    obtain ⟨_, -, added⟩ := perform_addRefreshToken h
    exact Store.evolves_addRefreshToken added
  | getByHash =>
    obtain ⟨rfl, -⟩ := perform_getByHash h
    exact .refl σ'
  | markRotated =>
    cases h
    exact Store.evolves_markRotated _ _
  | revokeSessionTokens =>
    cases h
    exact Store.evolves_revokeSessionTokens _ _
  | consume =>
    obtain ⟨_, -, rfl, -⟩ := perform_consume h
    exact ⟨(Evolves.refl σ).token, (Evolves.refl σ).session⟩
  | issueAccessToken | exchangeCode | verifyIdToken =>
    rw [outside_same h]
    exact .refl σ

end Perform
end LlmGateway.Auth
