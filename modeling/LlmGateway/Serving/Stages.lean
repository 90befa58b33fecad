import LlmGateway.Lib.JsonText
import LlmGateway.Serving.InferenceService
import Mathlib.Data.Finset.Basic
import Mathlib.Data.String.Basic

/-! The stages a deployment wires: authorization, policy and routing, in this order; what they make of a request,
and what `InferenceService` then does with it. -/
namespace LlmGateway.Serving
open Lib

abbrev Uuid := BitVec 128

/-- What stands in `required_permissions`. -/
inductive RawRequirement where
  | text (s : String)
  | items (l : List String)
  | other (shown : String)
  deriving DecidableEq, Repr

/-- What stands in `request`: nothing, a dict, another object that is false, empty or not iterable, or one
that is true. -/
inductive RawPayload where
  | absent
  | object (members : Json.Members Empty)
  | falsy (isIterable : Bool)
  | other

/-- `StageContext.attributes`, as far as the stages read it. -/
structure RequestAttributes where
  requiredPermissions : Option RawRequirement
  resource : Option String
  request : RawPayload

/-- `declare(*permissions, resource=resource)` with a request payload. -/
def declare (permissions : List String) (resource : String) (payload : Json.Members Empty) : RequestAttributes :=
  ⟨some (.items permissions), some resource, .object payload⟩

section
variable {W ρ : Type}

/-- A result with its annotations. -/
def StageResult.make (action : StageAction) (reason : Reason) (annotations : List (String × PyValue ρ)) : StageResult ρ :=
  ⟨.member action, reason, .mapping (.ok fun key => annotations.lookup key)⟩

/-! ### Authorization -/

structure PermissionResolver where
  resolve : Uuid → Uuid → Finset String

/-- `_required`. A bare string is one permission. -/
def RequestAttributes.required (attributes : RequestAttributes) : Option (Finset String) :=
  attributes.requiredPermissions.map fun
    | .text s => {s}
    | .items l => l.toFinset
    | .other shown => {shown}

def AuthorizationStage.name : String := "authorization"

def AuthorizationStage.deny (attributes : RequestAttributes) (reason : String) (flag : String × PyValue ρ) : Behaviour ρ :=
  .returns (.make .block (.text reason)
    [("stage", .text name), ("resource", attributes.resource.elim .foreign .text), flag])

/-- `AuthorizationStage.before_request`. -/
def AuthorizationStage.beforeRequest (resolver : PermissionResolver) (attributes : RequestAttributes)
    (context : StageContext) : Behaviour ρ :=
  match attributes.required with
  | none => deny attributes "request declares no permission requirement" ("undeclared", .bool true)
  | some required =>
    match context.organizationId, context.principalId with
    | some organizationId, some principalId =>
      let missing := required \ resolver.resolve principalId organizationId
      if missing.Nonempty then
        deny attributes "principal lacks the required permissions" ("missing_permissions", .foreign)
      else
        .returns (.make .continue_ .none [("stage", .text name), ("authorized", .bool true),
          ("resource", attributes.resource.elim .foreign .text)])
    | _, _ => deny attributes "unauthenticated request" ("unauthenticated", .bool true)

def AuthorizationStage (resolver : PermissionResolver) (attributes : RequestAttributes) : PipelineStage W ρ where
  name := AuthorizationStage.name
  beforeRequest := AuthorizationStage.beforeRequest resolver attributes
  effect _ w := w

/-! ### Policy -/

structure PolicyQuery where
  organizationId : Uuid
  correlationId : String
  payload : Json.Members Empty

/-- A denial carries a reason. -/
inductive PolicyVerdict where
  | allow (rule : String)
  | deny (reason rule : String) (explained : reason ≠ "")

/-- What `evaluate` does: a verdict, `PolicyEngineUnavailableError`, another exception, or another object. -/
inductive EngineAnswer where
  | verdict (verdict : PolicyVerdict)
  | unavailable (detail : String)
  | raises (detail : String)
  | returnsOther (typeName : String)

structure PolicyEngine where
  evaluate : PolicyQuery → EngineAnswer

def denialReason : String := "request rejected by policy"

/-- `LocalPolicyEngine.evaluate`, of a limit that is at least one. -/
def LocalPolicyEngine (maxRequestBytes : Nat) : PolicyEngine where
  evaluate query :=
    match Json.dumps false true (.obj query.payload) with
    | none => .verdict (.deny denialReason "max_request_bytes" (by decide))
    | some encoded =>
      if (String.ofList encoded).utf8ByteSize > maxRequestBytes then
        .verdict (.deny denialReason "max_request_bytes" (by decide))
      else .verdict (.allow "max_request_bytes")

def PolicyStage.name : String := "policy"

def PolicyStage.block (reason : String) (annotations : List (String × PyValue ρ)) : Behaviour ρ :=
  .returns (.make .block (.text reason) (("stage", .text name) :: annotations))

/-- `attributes.get("request") or {}`, where that is a dict. -/
def RawPayload.orEmpty : RawPayload → Option (Json.Members Empty)
  | .object members => some members
  | .absent | .falsy _ => some []
  | .other => none

/-- `PolicyStage.before_request`. -/
def PolicyStage.beforeRequest (engine : PolicyEngine) (attributes : RequestAttributes) (context : StageContext) :
    Behaviour ρ :=
  match context.organizationId with
  | none => block denialReason [("untenanted", .bool true)]
  | some organizationId =>
    match attributes.request.orEmpty with
    | none => block denialReason [("malformed_payload", .bool true)]
    | some payload =>
      match engine.evaluate ⟨organizationId, context.correlationId, payload⟩ with
      | .unavailable detail => block denialReason [("policy_unavailable", .bool true), ("detail", .text detail)]
      | .raises detail => block denialReason [("policy_error", .bool true), ("detail", .text detail)]
      | .returnsOther typeName =>
        block denialReason [("malformed_verdict", .bool true), ("detail", .text ("engine returned " ++ typeName))]
      | .verdict (.deny reason rule _) => block reason [("policy_denied", .bool true), ("rule", .text rule)]
      | .verdict (.allow rule) =>
        .returns (.make .continue_ .none [("stage", .text name), ("policy_allowed", .bool true), ("rule", .text rule)])

def PolicyStage (engine : PolicyEngine) (attributes : RequestAttributes) : PipelineStage W ρ where
  name := PolicyStage.name
  beforeRequest := PolicyStage.beforeRequest engine attributes
  effect _ w := w

/-! ### Routing -/

/-- `route`, over the world it meets, where the catalog and the circuit breaker are: the execution it returns
or the exception it raises, and the world it leaves. -/
structure RoutingEngine (W ρ : Type) where
  route : Uuid → String → Json.Members Empty → W → W × Except String ρ

def AgentRoutingStage.name : String := "agent_routing"

/-- `dict(attributes.get("request", {}))`. -/
def RawPayload.dict : RawPayload → Except String (Json.Members Empty)
  | .object members => .ok members
  | .absent | .falsy true => .ok []
  | .falsy false | .other => .error "TypeError"

/-- `AgentRoutingStage.before_request`, in the world it meets. -/
def AgentRoutingStage.beforeRequest (engine : RoutingEngine W ρ) (attributes : RequestAttributes) (met : W)
    (context : StageContext) : Behaviour ρ :=
  match context.organizationId with
  | none => .returns (.make .continue_ .none [])
  | some organizationId =>
    match attributes.request.dict with
    | .error e => .raises (.ok e)
    | .ok request =>
      match (engine.route organizationId context.correlationId request met).2 with
      | .error e => .raises (.ok e)
      | .ok execution => .returns (.make .annotate .none [(routingExecutionKey, .routing execution)])

def AgentRoutingStage.effect (engine : RoutingEngine W ρ) (attributes : RequestAttributes) (context : StageContext)
    (w : W) : W :=
  match context.organizationId, attributes.request.dict with
  | some organizationId, .ok request => (engine.route organizationId context.correlationId request w).1
  | _, _ => w

def AgentRoutingStage (engine : RoutingEngine W ρ) (attributes : RequestAttributes) (met : W) : PipelineStage W ρ where
  name := AgentRoutingStage.name
  beforeRequest := AgentRoutingStage.beforeRequest engine attributes met
  effect := AgentRoutingStage.effect engine attributes

/-- The pipeline the container builds, as a request with these attributes meets it: authorization and policy
leave the world as it is, so routing meets it as it was. -/
def requestPipeline (resolver : PermissionResolver) (policy : PolicyEngine) (routing : RoutingEngine W ρ)
    (attributes : RequestAttributes) (met : W) : RequestPipeline W ρ where
  stages := [AuthorizationStage resolver attributes, PolicyStage policy attributes,
    AgentRoutingStage routing attributes met]
  nonempty := by simp
  unique := show [AuthorizationStage.name, PolicyStage.name, AgentRoutingStage.name].Nodup by decide

end
end LlmGateway.Serving
