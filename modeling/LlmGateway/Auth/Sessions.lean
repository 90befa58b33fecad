import LlmGateway.Auth.Ports

/-! `IssueSession`, `RefreshSession` and `Logout`. -/
namespace LlmGateway.Auth
open Ledger Lib.Interleaved
open Audit (AuthAuditEvent PrincipalType)

structure Lifetimes where
  accessTtl : Timestamp
  refreshTtl : Timestamp
  sessionTtl : Timestamp

/-- `Logout` answers nothing. -/
abbrev SessionProgram := Program ports (Option IssuedTokens)

section
variable (hashSecret : String → String) (ttl : Lifetimes)

def recordThen (event : AuthAuditEvent) (next : SessionProgram) : SessionProgram :=
  .perform (.record event) fun _ => next

/-- The access token, the audit record and the answer. -/
def issueTokens (action : String) (userId organizationId : Uuid) (refreshToken : String) : SessionProgram :=
  .perform (.issueAccessToken ⟨.user, userId, organizationId⟩ ttl.accessTtl) fun accessToken =>
    recordThen
      { action, result := "success", organizationId := some organizationId,
        principalType := some PrincipalType.user.value, subjectId := some userId }
      (.ret (some ⟨accessToken, refreshToken⟩))

def issueSession (userId organizationId : Uuid) : SessionProgram :=
  .perform .now fun now =>
    .perform .uuid4 fun sessionId =>
      .perform (.addSession
          { id := sessionId, userId, organizationId, createdAt := now, expiresAt := now + ttl.sessionTtl }) fun _ =>
        .perform .generateToken fun refreshSecret =>
          .perform .uuid4 fun tokenId =>
            .perform (.addRefreshToken
                { id := tokenId, sessionId, organizationId, tokenHash := hashSecret refreshSecret,
                  expiresAt := now + ttl.refreshTtl }) fun _ =>
              issueTokens ttl "session.created" userId organizationId refreshSecret

/-- A rotated or revoked token is taken for a stolen copy. -/
def reuseDetected (token : RefreshTokenRecord String) : SessionProgram :=
  .perform (.revokeSessionTokens token.sessionId) fun _ =>
    .perform (.revokeSession token.sessionId) fun _ =>
      recordThen
        { action := "refresh.reuse_detected", result := "failure", organizationId := some token.organizationId,
          detail := some "rotated or revoked refresh token replayed; session revoked" }
        (.raise (.refreshReuse "refresh token reuse detected"))

def rotate (token : RefreshTokenRecord String) (session : SessionRecord) (now : Timestamp) : SessionProgram :=
  .perform .generateToken fun newSecret =>
    .perform .uuid4 fun newId =>
      .perform (.addRefreshToken
          { id := newId, sessionId := token.sessionId, organizationId := token.organizationId,
            tokenHash := hashSecret newSecret, expiresAt := now + ttl.refreshTtl }) fun _ =>
        .perform (.markRotated token.id newId) fun _ =>
          issueTokens ttl "session.refreshed" session.userId session.organizationId newSecret

def refreshLive (token : RefreshTokenRecord String) : SessionProgram :=
  .perform .now fun now =>
    if now > token.expiresAt then .raise (.tokenExpired "refresh token expired")
    else .perform (.getSession token.sessionId) fun found =>
      match found with
      | none => .raise (.sessionRevoked "session is no longer active")
      | some session =>
        if session.revokedAt.isSome ∨ now > session.expiresAt then
          .raise (.sessionRevoked "session is no longer active")
        else rotate hashSecret ttl token session now

def refreshSession (presentedRefresh : String) : SessionProgram :=
  .perform (.getByHash (hashSecret presentedRefresh)) fun found =>
    match found with
    | none => .raise (.tokenInvalid "unknown refresh token")
    | some token =>
      if token.rotatedTo.isSome ∨ token.revokedAt.isSome then reuseDetected token
      else refreshLive hashSecret ttl token

def logout (sessionId : Uuid) : SessionProgram :=
  .perform (.revokeSession sessionId) fun _ =>
    .perform (.revokeSessionTokens sessionId) fun _ =>
      recordThen { action := "session.logout", result := "success" } (.ret none)

inductive SessionCall where
  | issueSession (userId organizationId : Uuid)
  | refreshSession (presentedRefresh : String)
  | logout (sessionId : Uuid)
  deriving DecidableEq, Repr

def sessionProgram : SessionCall → SessionProgram
  | .issueSession userId organizationId => issueSession hashSecret ttl userId organizationId
  | .refreshSession presentedRefresh => refreshSession hashSecret ttl presentedRefresh
  | .logout sessionId => logout sessionId

end
end LlmGateway.Auth
