import LlmGateway.Auth.Ports

/-! `CompleteOidcLogin`: a login state is consumed, the provider's word is verified, and a session minted. -/
namespace LlmGateway.Auth
open Ledger Lib.Interleaved
open Audit (AuthAuditEvent PrincipalType)

abbrev LoginProgram := Program ports IssuedTokens

/-- The arguments of `execute`. -/
structure LoginCall where
  organizationId : OrgId
  stateHash : String
  code : String
  redirectUri : String
  deriving DecidableEq, Repr

/-- `_record`, with the value of an `AuthenticationDecision`. -/
def loginEvent (decision : String) (organizationId : OrgId) (subjectId : Option Uuid) (detail : Option String) :
    AuthAuditEvent :=
  { action := "oidc.login", result := decision, organizationId := some organizationId,
    principalType := some PrincipalType.user.value, subjectId, detail }

/-- A refusal is audited before it is raised. -/
def refuseLogin (organizationId : OrgId) (detail : String) (e : Raised) : LoginProgram :=
  .perform (.record (loginEvent "invalid_token" organizationId none (some detail))) fun _ => .raise e

section
variable (hashSecret : String → String) (accessTokenTtl sessionTtl : Timestamp)

def mintTokens (organizationId : OrgId) (userId sessionId : Uuid) (now : Timestamp) : LoginProgram :=
  .perform (.issueAccessToken ⟨.user, userId, organizationId⟩ accessTokenTtl) fun accessToken =>
    .perform .generateToken fun refreshToken =>
      .perform .uuid4 fun tokenId =>
        .perform (.addRefreshToken
            { id := tokenId, sessionId, organizationId, tokenHash := hashSecret refreshToken,
              expiresAt := now + sessionTtl }) fun _ =>
          .perform (.record (loginEvent "success" organizationId (some userId) none)) fun _ =>
            .ret ⟨accessToken, refreshToken⟩

def mintSession (organizationId : OrgId) (userId : Uuid) (now : Timestamp) : LoginProgram :=
  .perform .uuid4 fun sessionId =>
    .perform (.addSession
        { id := sessionId, userId, organizationId, createdAt := now, expiresAt := now + sessionTtl }) fun _ =>
      mintTokens hashSecret accessTokenTtl sessionTtl organizationId userId sessionId now

/-- The local user of a verified subject. -/
def resolveIdentity (organizationId : OrgId) (provider : String) (claims : OidcIdTokenClaims) (now : Timestamp) :
    LoginProgram :=
  .perform (.getBySubject provider claims.subject) fun found =>
    match found with
    | none => refuseLogin organizationId "oidc_identity_unknown"
        (.oidcIdentity "no local identity is linked to this federated subject")
    | some identity => mintSession hashSecret accessTokenTtl sessionTtl organizationId identity.userId now

/-- The code is redeemed and the id token verified against the nonce of the consumed state. -/
def redeemCode (call : LoginCall) (loginState : OidcLoginStateRecord String) (now : Timestamp) : LoginProgram :=
  .perform (.exchangeCode call.code loginState.codeVerifier
      (if call.redirectUri = "" then loginState.redirectUri else call.redirectUri)) fun tokenResponse =>
    .perform (.verifyIdToken tokenResponse.idToken loginState.nonceHash) fun claims =>
      resolveIdentity hashSecret accessTokenTtl sessionTtl call.organizationId loginState.provider claims now

def completeOidcLogin (call : LoginCall) : LoginProgram :=
  .perform .now fun now =>
    .perform (.consume call.stateHash now) fun found =>
      match found with
      | none => refuseLogin call.organizationId "oidc_state_unknown_expired_or_replayed"
          (.oidcStateInvalid "OIDC state is unknown, expired, or already used")
      | some loginState =>
        if loginState.organizationId ≠ call.organizationId then
          refuseLogin call.organizationId "oidc_state_tenant_mismatch"
            (.oidcStateInvalid "OIDC state does not belong to this organization")
        else redeemCode hashSecret accessTokenTtl sessionTtl call loginState now

end
end LlmGateway.Auth
