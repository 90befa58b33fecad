import LlmGateway.Auth.TokenService
import LlmGateway.Lib.Str
import LlmGateway.RateLimit.TokenBucket
import LlmGateway.Reflection.ReflectiveExecutor
import LlmGateway.Serving.Ruling
import LlmGateway.Streaming.Coordinator

/-! The way of an inference request: authenticated, let through by the rate limit, and answered by the route. -/
namespace LlmGateway.Serving
open Lib Auth
open Audit (PrincipalType AuthAuditEvent)
open Execution (ExecutionOutcome Content)
open RateLimit (RateLimitDecision RateLimitPolicy Bucket tokenBucketRateLimiter)
open Reflection (ReflectionResult)
open Streaming (StreamSession Events)

/-- `InferenceBody`, as it is accepted. -/
structure InferenceBody where
  prompt : String
  model : Option String := none
  stream : Bool := false
  asked : prompt ≠ ""

/-- A request at the inference route: its id, its `Authorization` header, and its body where that is accepted. -/
structure HttpRequest where
  requestId : String
  authorization : Option String
  body : Option InferenceBody

structure ErrorBody where
  type : String
  code : String
  message : String
  requestId : String
  retryable : Option Bool := none
  retryAfterSeconds : Option Int := none
  deriving DecidableEq, Repr

inductive HttpResponse where
  | error (status : Nat) (body : ErrorBody)
  /-- The body was not accepted. -/
  | unprocessable
  /-- An exception went through. -/
  | internal
  | completed (content : Option Content) (provider : String) (cached : Bool) (attempts : Nat) (requestId : String)
  | eventStream (events : Events) (cached : Bool) (requestId : String)

/-- A response with the headers the rate limit sets. -/
structure Answered where
  response : HttpResponse
  retryAfter : Option Int := none
  rateLimit : Option String := none

/-! ### Authentication -/

/-- How `authenticate` fails: by `TokenExpiredError`, another `AuthError`, or another exception. -/
inductive AuthFailure where
  | expired
  | invalid
  | raised

def AuthFailure.of : Raised → AuthFailure
  | .tokenExpired _ => .expired
  | .tokenInvalid _ | .refreshReuse _ | .sessionRevoked _ | .oidcStateInvalid _ | .oidcIdentity _ => .invalid
  | .notHex | .integrity | .port _ => .raised

/-- What can be verified at a moment: API keys and tokens. -/
structure Credentials where
  apiKey : String → Except CredentialInvalid ScopedPrincipal
  verify : String → Except Raised ScopedPrincipal

/-- `BearerTokenAuthenticator`. -/
def BearerTokenAuthenticator (credentials : Credentials) (credential : String) : Except AuthFailure ScopedPrincipal :=
  (credentials.verify credential).mapError .of

/-- `CompositeAuthenticator`. -/
def CompositeAuthenticator (credentials : Credentials) (credential : String) : Except AuthFailure ScopedPrincipal :=
  if apiKeyPrefix.toList <+: credential.toList then (credentials.apiKey credential).mapError fun _ => .invalid
  else BearerTokenAuthenticator credentials credential

inductive AuthenticationMethod where
  | jwt
  | apiKey
  | serviceAccount
  deriving DecidableEq, Repr

def AuthenticationMethod.value : AuthenticationMethod → String
  | jwt => "jwt"
  | apiKey => "api_key"
  | serviceAccount => "service_account"

/-- `_method_for_principal`, of the credential the principal presented. -/
def methodFor (credential : String) : PrincipalType → AuthenticationMethod
  | .serviceAccount => .serviceAccount
  | .apiKey => .apiKey
  | .user => if apiKeyPrefix.toList <+: credential.toList then .apiKey else .jwt

inductive Authenticated where
  | anonymous
  | verified (principal : ScopedPrincipal)
  | rejected (response : HttpResponse)

/-- The credential of a header, where that begins with `Bearer `. -/
def credentialOf (header : String) : Option String :=
  if "Bearer ".toList <+: header.toList then some (String.ofList (Str.strip Str.isspace (header.toList.drop 7))) else none

def unauthorized401 (request : HttpRequest) (code message result : String) : Authenticated × List AuthAuditEvent :=
  (.rejected (.error 401 { type := "authentication_error", code, message, requestId := request.requestId }),
    [{ action := "request.rejected", result, detail := some code }])

/-- `AuthenticationMiddleware.dispatch`, up to `call_next`, with what it records. -/
def AuthenticationMiddleware (authenticate : String → Except AuthFailure ScopedPrincipal) (request : HttpRequest) :
    Authenticated × List AuthAuditEvent :=
  match request.authorization with
  | none => (.anonymous, [])
  | some header =>
    match credentialOf header with
    | none =>
      unauthorized401 request "invalid_authorization_header" "Malformed Authorization header." "invalid_token"
    | some credential =>
      match authenticate credential with
      | .error .expired => unauthorized401 request "token_expired" "Access token has expired." "expired"
      | .error .invalid => unauthorized401 request "invalid_credential" "Authentication failed." "invalid_token"
      | .error .raised => (.rejected .internal, [])
      | .ok principal =>
        (.verified principal, [{ action := "request.authenticated"
                                 result := "success"
                                 organizationId := some principal.organizationId
                                 principalType := some principal.principalType.value
                                 subjectId := some principal.subjectId
                                 detail := some (methodFor credential principal.principalType).value }])

/-! ### The rate limit -/

/-- `acquire` at a time: a decision, or none where the limiter is unavailable. -/
structure RateLimiter (L : Type) where
  acquire : L → Uuid → ℚ → L × Option RateLimitDecision

/-- `InMemoryTokenBucketRateLimiter`, which is always available. -/
def inMemoryLimiter (policy : RateLimitPolicy) : RateLimiter (Uuid → Option Bucket) where
  acquire buckets organizationId now :=
    let (buckets, _, _, decision) := (tokenBucketRateLimiter policy).step buckets (organizationId, now)
    (buckets, some decision)

/-- `_rate_limit_value`. -/
def rateLimitValue (decision : RateLimitDecision) : String :=
  "limit=" ++ toString decision.limit ++ ", remaining=" ++ toString decision.remaining ++
    ", reset=" ++ toString decision.resetSeconds

def rateLimitUnavailable (requestId : String) : Answered where
  response := .error 503
    { type := "availability_error"
      code := "rate_limit_unavailable"
      message := "Request rate could not be verified, so the request was not accepted."
      requestId
      retryable := some true }

def rateLimited (decision : RateLimitDecision) (requestId : String) : Answered where
  response := .error 429
    { type := "rate_limit_error"
      code := "rate_limited"
      message := "Too many requests. Retry after the indicated delay."
      requestId
      retryable := some true
      retryAfterSeconds := decision.retryAfterSeconds }
  retryAfter := decision.retryAfterSeconds
  rateLimit := some (rateLimitValue decision)

/-! ### The route -/

/-- `InferenceRequest`. -/
structure InferenceRequest where
  correlationId : String
  payload : Json.Members Empty

/-- `_inference_payload`. -/
def inferencePayload (body : InferenceBody) : Json.Members Empty :=
  ("prompt", .str body.prompt) :: (body.model.map fun model => ("model", Json.str model)).toList

def infer (principal : ScopedPrincipal) (requestId : String) (body : InferenceBody) : Call InferenceRequest where
  context := ⟨requestId, some principal.organizationId, some principal.subjectId, []⟩
  attributes := declare ["inference:invoke"] "POST /v1/inference" (inferencePayload body)
  request := ⟨requestId, inferencePayload body⟩
  streams := body.stream

def failure (status : Nat) (type code message requestId : String) (retryable : Bool) : HttpResponse :=
  .error status { type, code, message, requestId, retryable := some retryable }

def authenticationRequired (requestId : String) : HttpResponse :=
  failure 401 "authentication_error" "authentication_required" "This endpoint requires an authenticated principal."
    requestId false

/-- `served.refusal_reason or …`. -/
def Reason.orGeneric : Reason → String
  | .text s => if s = "" then genericBlockReason else s
  | _ => genericBlockReason

/-- `_translate_refusal`. -/
def translateRefusal (reason : Reason) (requestId : String) : HttpResponse :=
  failure 403 "permission_error" "permission_denied" reason.orGeneric requestId false

/-- `_EXECUTION_ERRORS`. -/
def executionError (requestId : String) : ExecutionOutcome → Option HttpResponse
  | .budgetDenied => some (failure 402 "budget_error" "budget_exceeded"
      "The organization's budget for this request is exhausted." requestId false)
  | .budgetUnavailable => some (failure 503 "availability_error" "budget_unavailable"
      "Budget could not be verified, so the request was not executed." requestId true)
  | .notRouted => some (failure 503 "availability_error" "no_eligible_provider"
      "No eligible provider is available for this request." requestId true)
  | .notAccountable => some (failure 503 "availability_error" "accounting_unavailable"
      "This request could not be accounted for and was not served." requestId false)
  | .cacheHit | .executed => none

def providerFailed (requestId : String) : HttpResponse :=
  failure 502 "provider_error" "provider_failed" "The upstream provider failed to complete this request." requestId true

section
variable {W ρ E : Type}

/-- What the route makes of what the service answers. -/
def translate (requestId : String) : Except PyError (Reply ρ ReflectionResult E StreamSession) → HttpResponse
  | .error _ => .internal
  | .ok (.stream served) =>
    match served.session with
    | none => translateRefusal served.admission.reason requestId
    | some session =>
      match executionError requestId session.outcome with
      | some response => response
      | none =>
        match session.events with
        | none => providerFailed requestId
        | some events => .eventStream events (session.outcome = .cacheHit) requestId
  | .ok (.whole served) =>
    match served.reflection with
    | none => translateRefusal served.admission.reason requestId
    | some reflection =>
      match executionError requestId reflection.final.outcome with
      | some response => response
      | none =>
        if reflection.final.response.ok then
          .completed reflection.final.response.content reflection.final.response.provider
            (reflection.final.outcome = .cacheHit) reflection.attempts.length requestId
        else providerFailed requestId

end
end LlmGateway.Serving
