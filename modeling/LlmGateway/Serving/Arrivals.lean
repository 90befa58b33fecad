import LlmGateway.Lib.Process
import LlmGateway.Serving.Ingress

/-! Requests at the inference route in any interleaving: each is authenticated, asked of the rate limit, taken by the
route and handled by the service, with the others' steps in between. -/
namespace LlmGateway.Serving
open Lib Auth
open Audit (AuthAuditEvent)
open RateLimit (RateLimitDecision)
open Reflection (ReflectionResult)
open Streaming (StreamSession)

namespace Deployment
variable {W ρ Q R E S : Type} (deployment : Deployment W ρ Q R E S) (call : Call Q)

theorem isSome_of_admitted {α : Type} (a : α) {admission : AdmissionOutcome ρ} (h : admission.admitted = true) :
    (some a).isSome = admission.admitted := h.symm

theorem isSome_of_refused {α : Type} {admission : AdmissionOutcome ρ} (h : ¬ admission.admitted = true) :
    (none : Option α).isSome = admission.admitted := (Bool.eq_false_iff.mpr h).symm

/-- The admission of a call, by what the world is then. -/
def admitCall (w : W) : W × Except PyError (AdmissionOutcome ρ) :=
  let made := (deployment.service call.attributes w).pipeline.admitRequest call.context w
  (made.world, made.result)

/-- `serve`, in the steps in which it meets the world. -/
def serveSteps : Process W (Except PyError (Reply ρ R E S)) :=
  .perform (deployment.admitCall call) fun
    | .error e => .done (.error e)
    | .ok admission =>
      if h : admission.admitted = true then
        match routingExecution admission with
        | .error e => .done (.error e)
        | .ok routed =>
          .perform (deployment.execute routed call.request) fun
            | .error e => .done (.error e)
            | .ok reflection =>
              .perform (deployment.evaluate routed call.request reflection) fun
                | .error e => .done (.error e)
                | .ok evaluation => .done (.ok (.whole ⟨admission, some reflection, some evaluation, isSome_of_admitted reflection h⟩))
      else .done (.ok (.whole ⟨admission, none, none, isSome_of_refused h⟩))

/-- `serve_stream`, in the steps in which it meets the world. -/
def streamSteps : Process W (Except PyError (Reply ρ R E S)) :=
  .perform (deployment.admitCall call) fun
    | .error e => .done (.error e)
    | .ok admission =>
      if h : admission.admitted = true then
        match routingExecution admission with
        | .error e => .done (.error e)
        | .ok routed =>
          .perform (deployment.openStream routed call.request) fun
            | .error e => .done (.error e)
            | .ok session => .done (.ok (.stream ⟨admission, some session, isSome_of_admitted session h⟩))
      else .done (.ok (.stream ⟨admission, none, isSome_of_refused h⟩))

def handleSteps : Process W (Except PyError (Reply ρ R E S)) :=
  if call.streams then deployment.streamSteps call else deployment.serveSteps call

/-- With nothing in between the steps come to what the service does. -/
theorem handleSteps_alone (w : W) : (deployment.handleSteps call).alone w = deployment.handle call w := by
  unfold handleSteps handle
  split
  · simp only [streamSteps, Process.alone_perform, admitCall, InferenceService.serveStream]
    cases ((deployment.service call.attributes w).pipeline.admitRequest call.context w).result with
    | error e => rfl
    | ok admission =>
      by_cases h : admission.admitted = true
      · simp only [dif_pos h, InferenceService.streaming]
        cases routingExecution admission with
        | error e => rfl
        | ok routed =>
          simp only [Process.alone_perform, service]
          generalize deployment.openStream routed call.request _ = opened
          obtain ⟨left, session⟩ := opened
          cases session <;> rfl
      · simp only [dif_neg h]
        rfl
  · simp only [serveSteps, Process.alone_perform, admitCall, InferenceService.serve]
    cases ((deployment.service call.attributes w).pipeline.admitRequest call.context w).result with
    | error e => rfl
    | ok admission =>
      by_cases h : admission.admitted = true
      · simp only [dif_pos h, InferenceService.execution]
        cases routingExecution admission with
        | error e => rfl
        | ok routed =>
          simp only [Process.alone_perform, service]
          generalize deployment.execute routed call.request _ = executed
          obtain ⟨left, reflection⟩ := executed
          cases reflection with
          | error e => rfl
          | ok reflection =>
            simp only [Process.alone_perform]
            generalize deployment.evaluate routed call.request reflection left = evaluated
            obtain ⟨left, evaluation⟩ := evaluated
            cases evaluation <;> rfl
      · simp only [dif_neg h]
        rfl

end Deployment

/-- What the service replies to a call, or raises. -/
abbrev ServiceReply (ρ E : Type) := Except PyError (Reply ρ ReflectionResult E StreamSession)

/-- The authenticator takes API keys where row security is enabled. The service handles a call in steps, and with
nothing in between as `handle` does. -/
structure Application (L W ρ E : Type) where
  rlsEnabled : Bool
  limiter : RateLimiter L
  deployment : Deployment W ρ InferenceRequest ReflectionResult E StreamSession
  handling : Call InferenceRequest → Process W (ServiceReply ρ E)
  handling_alone : ∀ call w, (handling call).alone w = deployment.handle call w

/-- How far a request has come: into the application, past the authentication, past the rate limit, to the
service, or to its response. -/
inductive Progress (W ρ E : Type) where
  | arrived
  | authenticated (principal : ScopedPrincipal)
  | letIn (admitted : Option (ScopedPrincipal × ℚ × RateLimitDecision))
  | serving (decision : RateLimitDecision) (rest : Process W (ServiceReply ρ E))
  | answered (answer : Answered)

/-- A request, with what could be verified when it was authenticated, and with the reading and the answer of the
limiter when that was asked. -/
structure Connection (W ρ E : Type) where
  request : HttpRequest
  credentials : Option Credentials := none
  asked : Option (ℚ × Option RateLimitDecision) := none
  progress : Progress W ρ E := .arrived

/-- A call the service was given. -/
structure Handled where
  connection : Nat
  principal : ScopedPrincipal
  decidedAt : ℚ
  call : Call InferenceRequest

/-- The limiter, the service's world and the connections; and a record of the responses, of the audit log, of the
limiter's decisions, of the calls the service was given, and of its replies. -/
structure Ingress (L W ρ E : Type) where
  limiter : L
  world : W
  connections : Nat → Option (Connection W ρ E) := fun _ => none
  answers : List (Nat × Answered) := []
  audit : List AuthAuditEvent := []
  acquired : List (Nat × Uuid × ℚ × RateLimitDecision) := []
  handled : List Handled := []
  replies : List (ServiceReply ρ E) := []

/-- How a request gets on: it is authenticated by what can be verified then, asked of the limiter, which reads
its clock, or taken by the route; or the service takes a step of its call. -/
inductive Advance where
  | authenticate (credentials : Credentials)
  | acquire (now : ℚ)
  | route
  | proceed

inductive IngressStep where
  | arrive (connection : Nat) (request : HttpRequest)
  | advance (connection : Nat) (how : Advance)

section
variable {L W ρ E : Type} (app : Application L W ρ E)

def Application.authenticate (credentials : Credentials) : String → Except AuthFailure ScopedPrincipal :=
  if app.rlsEnabled then CompositeAuthenticator credentials else BearerTokenAuthenticator credentials

namespace Ingress
variable (s : Ingress L W ρ E) (c : Nat) (connection : Connection W ρ E)

def put : Ingress L W ρ E := { s with connections := Function.update s.connections c (some connection) }

def answer (answered : Answered) : Ingress L W ρ E :=
  { s.put c { connection with progress := .answered answered } with answers := s.answers ++ [(c, answered)] }

/-- `AuthenticationMiddleware`. -/
def authenticate (credentials : Credentials) : Ingress L W ρ E :=
  let (authenticated, recorded) := AuthenticationMiddleware (app.authenticate credentials) connection.request
  let s := { s with audit := s.audit ++ recorded }
  let connection := { connection with credentials := some credentials }
  match authenticated with
  | .rejected response => s.answer c connection ⟨response, none, none⟩
  | .anonymous => s.put c { connection with progress := .letIn none }
  | .verified principal => s.put c { connection with progress := .authenticated principal }

/-- `RateLimitMiddleware.dispatch`, up to `call_next`, of an authenticated request. -/
def acquire (principal : ScopedPrincipal) (now : ℚ) : Ingress L W ρ E :=
  match app.limiter.acquire s.limiter principal.organizationId now with
  | (limiter, none) =>
    { s with limiter }.answer c { connection with asked := some (now, none) }
      (rateLimitUnavailable connection.request.requestId)
  | (limiter, some decision) =>
    let s := { s with limiter, acquired := s.acquired ++ [(c, principal.organizationId, now, decision)] }
    let connection := { connection with asked := some (now, some decision) }
    if decision.allowed then s.put c { connection with progress := .letIn (some (principal, now, decision)) }
    else s.answer c connection (rateLimited decision connection.request.requestId)

/-- The headers of the rate limit go on every response the route makes. -/
def advertise (decision : RateLimitDecision) : HttpResponse → Answered
  | .internal => ⟨.internal, none, none⟩
  | response => ⟨response, none, some (rateLimitValue decision)⟩

/-- The route gives the service an authenticated request. -/
def serve (principal : ScopedPrincipal) (now : ℚ) (decision : RateLimitDecision) (body : InferenceBody) :
    Ingress L W ρ E :=
  let call := infer principal connection.request.requestId body
  { s.put c { connection with progress := .serving decision (app.handling call) } with
    handled := s.handled ++ [⟨c, principal, now, call⟩] }

/-- The route. A body that is not accepted is answered before it is asked who sent it. -/
def route (admitted : Option (ScopedPrincipal × ℚ × RateLimitDecision)) : Ingress L W ρ E :=
  match connection.request.body, admitted with
  | none, none => s.answer c connection ⟨.unprocessable, none, none⟩
  | none, some (_, _, decision) => s.answer c connection (advertise decision .unprocessable)
  | some _, none => s.answer c connection ⟨authenticationRequired connection.request.requestId, none, none⟩
  | some body, some (principal, now, decision) => s.serve app c connection principal now decision body

/-- The service goes on with a call, or has replied to it. -/
def proceed (decision : RateLimitDecision) : Process W (ServiceReply ρ E) → Ingress L W ρ E
  | .done reply =>
    { s.answer c connection (advertise decision (translate connection.request.requestId reply)) with
      replies := s.replies ++ [reply] }
  | .step effect next =>
    { s.put c { connection with progress := .serving decision (next s.world) } with world := effect s.world }

/-- It gets on, where it has come as far as that and no further. -/
def advance (how : Advance) : Ingress L W ρ E :=
  match how, connection.progress with
  | .authenticate credentials, .arrived => s.authenticate app c connection credentials
  | .acquire now, .authenticated principal => s.acquire app c connection principal now
  | .route, .letIn admitted => s.route app c connection admitted
  | .proceed, .serving decision rest => s.proceed c connection decision rest
  | _, _ => s

/-- A connection is used once. -/
def step : IngressStep → Ingress L W ρ E
  | .arrive c request =>
    match s.connections c with
    | some _ => s
    | none => s.put c { request }
  | .advance c how =>
    match s.connections c with
    | some connection => s.advance app c connection how
    | none => s

def run (steps : List IngressStep) : Ingress L W ρ E := steps.foldl (step app) s

end Ingress
end
end LlmGateway.Serving
