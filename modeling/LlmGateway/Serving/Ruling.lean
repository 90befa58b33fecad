import LlmGateway.Serving.Stages

/-! What the wired stages make of a request, and what a run of requests leaves behind. -/
namespace LlmGateway.Serving
open Lib

/-- What becomes of a request: a stage refuses it for a reason, or it is routed. -/
inductive Ruling (ρ : Type) where
  | refused (stage reason : String)
  | routed (execution : ρ)

/-- The first thing held against a request decides. -/
def Ruling.of {ρ : Type} : Option String → Option String → Option ρ → Ruling ρ
  | some reason, _, _ => .refused AuthorizationStage.name reason
  | none, some reason, _ => .refused PolicyStage.name reason
  | none, none, none => .refused AgentRoutingStage.name genericBlockReason
  | none, none, some execution => .routed execution

/-- The engines behind the stages, and what serves an admitted request. -/
structure Deployment (W ρ Q R E S : Type) where
  resolver : PermissionResolver
  policy : PolicyEngine
  routing : RoutingEngine W ρ
  execute : ρ → Q → W → W × Except PyError R
  evaluate : ρ → Q → R → W → W × Except PyError E
  openStream : ρ → Q → W → W × Except PyError S

/-- A request as it is served: who asks, what is declared of it, its body, and whether it streams. -/
structure Call (Q : Type) where
  context : StageContext
  attributes : RequestAttributes
  request : Q
  streams : Bool

section
variable {W ρ Q R E S : Type}

/-- The records of an admission, as far as they transport a routing execution. -/
def carried (records : List (StageRecord ρ)) : List ρ :=
  records.filterMap fun record =>
    match record.annotations routingExecutionKey with
    | some (.routing execution) => some execution
    | _ => none

theorem carried_append (records made : List (StageRecord ρ)) :
    carried (records ++ made) = carried records ++ carried made :=
  List.filterMap_append

theorem routingExecution_eq (outcome : AdmissionOutcome ρ) :
    routingExecution outcome = match carried outcome.records with
      | execution :: _ => .ok execution
      | [] => .error "RoutingTransportError" := rfl

/-- What authorization has against a request. -/
def unauthorized (resolver : PermissionResolver) (attributes : RequestAttributes) (context : StageContext) :
    Option String :=
  match attributes.required, context.organizationId, context.principalId with
  | none, _, _ => some "request declares no permission requirement"
  | some required, some organizationId, some principalId =>
    if required ⊆ resolver.resolve principalId organizationId then none
    else some "principal lacks the required permissions"
  | some _, _, _ => some "unauthenticated request"

/-- What policy has against it. -/
def objection (policy : PolicyEngine) (attributes : RequestAttributes) (context : StageContext) : Option String :=
  match context.organizationId, attributes.request.orEmpty with
  | some organizationId, some payload =>
    match policy.evaluate ⟨organizationId, context.correlationId, payload⟩ with
    | .verdict (.allow _) => none
    | .verdict (.deny reason _ _) => some reason
    | _ => some denialReason
  | _, _ => some denialReason

/-- Where routing sends it, from the world it meets. -/
def destination (routing : RoutingEngine W ρ) (attributes : RequestAttributes) (context : StageContext) (met : W) :
    Option ρ :=
  match context.organizationId, attributes.request.dict with
  | some organizationId, .ok request => (routing.route organizationId context.correlationId request met).2.toOption
  | _, _ => none

namespace Deployment
variable (deployment : Deployment W ρ Q R E S) (call : Call Q) (w : W)

def service (attributes : RequestAttributes) (met : W) : InferenceService W ρ Q R E S :=
  ⟨requestPipeline deployment.resolver deployment.policy deployment.routing attributes met, deployment.execute,
    deployment.evaluate, deployment.openStream⟩

/-- Neither authorization nor policy has anything against it. -/
def reaches : Bool :=
  (unauthorized deployment.resolver call.attributes call.context).isNone &&
    (objection deployment.policy call.attributes call.context).isNone

def ruling : Ruling ρ :=
  .of (unauthorized deployment.resolver call.attributes call.context)
    (objection deployment.policy call.attributes call.context)
    (destination deployment.routing call.attributes call.context w)

/-- The world once the request is ruled on. -/
def considered : W :=
  bif deployment.reaches call then AgentRoutingStage.effect deployment.routing call.attributes call.context w else w

end Deployment

/-- What a request that was routed brings back. -/
inductive Product (R E S : Type) where
  | answer (reflection : R) (evaluation : E)
  | session (session : S)

inductive Reply (ρ R E S : Type) where
  | whole (served : ServedInference ρ R E)
  | stream (served : ServedStream ρ S)

namespace Reply

def admission : Reply ρ R E S → AdmissionOutcome ρ
  | whole served => served.admission
  | stream served => served.admission

def product : Reply ρ R E S → Option (Product R E S)
  | whole ⟨_, some reflection, some evaluation, _⟩ => some (.answer reflection evaluation)
  | whole _ => none
  | stream ⟨_, some session, _⟩ => some (.session session)
  | stream _ => none

end Reply

namespace Deployment
variable (deployment : Deployment W ρ Q R E S)

/-- `serve` or `serve_stream`. -/
def handle (call : Call Q) (w : W) : W × Except PyError (Reply ρ R E S) :=
  if call.streams then
    let served := (deployment.service call.attributes w).serveStream call.context call.request w
    (served.1, served.2.map .stream)
  else
    let served := (deployment.service call.attributes w).serve call.context call.request w
    (served.1, served.2.map .whole)

/-- The routed request is streamed, or executed and then evaluated. -/
def perform (execution : ρ) (call : Call Q) (w : W) : W × Except PyError (Product R E S) :=
  if call.streams then
    let opened := deployment.openStream execution call.request w
    (opened.1, opened.2.map .session)
  else
    match deployment.execute execution call.request w with
    | (w, .error e) => (w, .error e)
    | (w, .ok reflection) =>
      let evaluated := deployment.evaluate execution call.request reflection w
      (evaluated.1, evaluated.2.map (.answer reflection))

end Deployment

/-! ### What each stage makes of a request -/

/-- The stage lets the request pass and transports nothing. -/
def Passes (stage : PipelineStage W ρ) (context : StageContext) : Prop :=
  ∃ record, runStage stage context = .ok record ∧ record.action = .member .continue_ ∧
    carried [record] = []

def Stops (stage : PipelineStage W ρ) (context : StageContext) (reason : String) : Prop :=
  ∃ record, runStage stage context = .ok record ∧ record.action = .member .block ∧
    record.stage = stage.name ∧ record.reason = .text reason ∧ reason ≠ ""

section
variable {context : StageContext} {stage : PipelineStage W ρ} {attributes : RequestAttributes}

/-- A stage result with a reason to block. -/
theorem stops_of_block {reason : String} {annotations : List (String × PyValue ρ)}
    (h : stage.beforeRequest context = .returns (.make .block (.text reason) annotations)) (explained : reason ≠ "") :
    Stops stage context reason := by
  refine ⟨⟨stage.name, .member .block, .text reason, fun key => annotations.lookup key⟩, ?_, rfl, rfl, rfl, explained⟩
  have told : (StageResult.make .block (.text reason) annotations).unexplained = .ok false := by
    simp [StageResult.make, StageResult.unexplained, Action.isBlock, Reason.first, explained, Except.map]
  simp only [runStage, h, told]
  rfl

theorem stops_of_raises {detail : String} (h : stage.beforeRequest context = .raises (.ok detail)) :
    Stops stage context genericBlockReason := by
  refine ⟨_, by simp only [runStage, h]; rfl, rfl, rfl, rfl, by decide⟩

theorem passes_of_continue {annotations : List (String × PyValue ρ)}
    (h : stage.beforeRequest context = .returns (.make .continue_ .none annotations))
    (quiet : annotations.lookup routingExecutionKey = none) : Passes stage context := by
  refine ⟨⟨stage.name, .member .continue_, .none, fun key => annotations.lookup key⟩, ?_, rfl, ?_⟩
  · simp only [runStage, h]
    rfl
  · simp [carried, quiet]

/-- A stage with nothing against the request lets it pass, and stops it otherwise. -/
def Turned (stage : PipelineStage W ρ) (context : StageContext) : Option String → Prop
  | some reason => Stops stage context reason
  | none => Passes stage context

/-- A stage that stops the request, or transports where it is sent. -/
def Sends (stage : PipelineStage W ρ) (context : StageContext) : Option ρ → Prop
  | none => Stops stage context genericBlockReason
  | some execution => ∃ record, runStage stage context = .ok record ∧ record.action = .member .annotate ∧
      carried [record] = [execution]

variable (context attributes) in
theorem authorization_turned (resolver : PermissionResolver) :
    Turned (AuthorizationStage (W := W) (ρ := ρ) resolver attributes) context
      (unauthorized resolver attributes context) := by
  have asked : (AuthorizationStage (W := W) (ρ := ρ) resolver attributes).beforeRequest context =
      AuthorizationStage.beforeRequest resolver attributes context := rfl
  simp only [AuthorizationStage.beforeRequest, AuthorizationStage.deny] at asked
  rw [unauthorized]
  cases hr : attributes.required with
  | none => exact stops_of_block (by rw [asked, hr]) (by decide)
  | some required =>
    cases ho : context.organizationId with
    | none => exact stops_of_block (by rw [asked, hr, ho]) (by decide)
    | some organizationId =>
      cases hp : context.principalId with
      | none => exact stops_of_block (by rw [asked, hr, ho, hp]) (by decide)
      | some principalId =>
        simp only [hr, ho, hp, Finset.sdiff_nonempty] at asked
        by_cases granted : required ⊆ resolver.resolve principalId organizationId
        · simp only [if_pos granted]
          exact passes_of_continue (by rw [asked, if_neg (not_not_intro granted)]) rfl
        · simp only [if_neg granted]
          exact stops_of_block (by rw [asked, if_pos granted]) (by decide)

variable (context attributes) in
theorem policy_turned (policy : PolicyEngine) :
    Turned (PolicyStage (W := W) (ρ := ρ) policy attributes) context (objection policy attributes context) := by
  have asked : (PolicyStage (W := W) (ρ := ρ) policy attributes).beforeRequest context =
      PolicyStage.beforeRequest policy attributes context := rfl
  simp only [PolicyStage.beforeRequest, PolicyStage.block] at asked
  rw [objection]
  cases ho : context.organizationId with
  | none => exact stops_of_block (by rw [asked, ho]) (by decide)
  | some organizationId =>
    cases hp : attributes.request.orEmpty with
    | none => exact stops_of_block (by rw [asked, ho, hp]) (by decide)
    | some payload =>
      simp only [ho, hp] at asked ⊢
      cases answer : policy.evaluate ⟨organizationId, context.correlationId, payload⟩ with
      | unavailable detail => exact stops_of_block (by rw [asked, answer]) (by decide)
      | raises detail => exact stops_of_block (by rw [asked, answer]) (by decide)
      | returnsOther typeName => exact stops_of_block (by rw [asked, answer]) (by decide)
      | verdict verdict =>
        cases verdict with
        | allow rule => exact passes_of_continue (by rw [asked, answer]) rfl
        | deny reason rule explained => exact stops_of_block (by rw [asked, answer]) explained

variable (attributes) in
/-- A request with a tenant is stopped when routing raises, and otherwise carries its execution on. -/
theorem routing_turned (routing : RoutingEngine W ρ) (met : W) {organizationId : Uuid}
    (ho : context.organizationId = some organizationId) :
    Sends (AgentRoutingStage routing attributes met) context (destination routing attributes context met) := by
  have asked : (AgentRoutingStage routing attributes met).beforeRequest context =
      AgentRoutingStage.beforeRequest routing attributes met context := rfl
  simp only [AgentRoutingStage.beforeRequest, ho] at asked
  rw [destination, ho]
  cases hd : attributes.request.dict with
  | error e => exact stops_of_raises (by rw [asked, hd])
  | ok request =>
    simp only [hd] at asked ⊢
    cases answer : (routing.route organizationId context.correlationId request met).2 with
    | error e => exact stops_of_raises (by rw [asked, answer])
    | ok execution =>
      rw [answer] at asked
      refine ⟨⟨AgentRoutingStage.name, .member .annotate, .none,
        fun key => [(routingExecutionKey, PyValue.routing execution)].lookup key⟩, ?_, rfl, ?_⟩
      · simp only [runStage, asked]
        rfl
      · simp [carried, routingExecutionKey]

/-! ### What the chain makes of it -/

theorem admitFrom_passes {record : StageRecord ρ} (run : runStage stage context = .ok record)
    {action : StageAction} (acts : record.action = .member action) (on : action ≠ .block)
    (stages : List (PipelineStage W ρ)) (records : List (StageRecord ρ)) (w : W) :
    (admitFrom context (stage :: stages) records w).world =
        (admitFrom context stages (records ++ [record]) (stage.effect context w)).world ∧
      (admitFrom context (stage :: stages) records w).result =
        (admitFrom context stages (records ++ [record]) (stage.effect context w)).result := by
  have value : record.action.value = .ok () := by rw [acts, Action.value]
  have open_ : record.blocked = false := by simp [StageRecord.blocked, acts, Action.isBlock, on]
  simp only [admitFrom, run, value, open_, Bool.false_eq_true, if_false, and_self]

/-- The chain ends where a stage stops the request, with that stage and its reason. -/
theorem admitFrom_stops {reason : String} (stops : Stops stage context reason) (stages : List (PipelineStage W ρ))
    (records : List (StageRecord ρ)) (w : W) :
    (admitFrom context (stage :: stages) records w).world = stage.effect context w ∧
      ∃ outcome, (admitFrom context (stage :: stages) records w).result = .ok outcome ∧
        outcome.blockedBy = some stage.name ∧ outcome.reason = .text reason := by
  obtain ⟨record, run, acts, named, tells, explained⟩ := stops
  have value : record.action.value = .ok () := by rw [acts, Action.value]
  have blocked : record.blocked = true := by simp [StageRecord.blocked, acts, Action.isBlock]
  have second : record.reason.second = .ok true := by simp [tells, Reason.second, explained]
  simp only [admitFrom, run, value, blocked, if_true, true_and]
  refine ⟨⟨records ++ [record], some record.stage, record.reason, by simp, fun _ => second, fun h => by cases h⟩,
    ?_, congrArg some named, tells⟩
  unfold refusal
  split
  · rfl
  · next h => rw [second] at h; cases h
  · next h => rw [second] at h; cases h

/-- An admission in keeping with a ruling. -/
def Ruling.Made (outcome : AdmissionOutcome ρ) : Ruling ρ → Prop
  | .refused stage reason => outcome.blockedBy = some stage ∧ outcome.reason = .text reason
  | .routed execution => outcome.blockedBy = none ∧ routingExecution outcome = .ok execution

end

section
variable (deployment : Deployment W ρ Q R E S) (call : Call Q) (w : W)

theorem organizationId_of_authorized
    (h : unauthorized deployment.resolver call.attributes call.context = none) :
    ∃ organizationId, call.context.organizationId = some organizationId := by
  unfold unauthorized at h
  split at h
  · cases h
  · next organizationId _ _ ho _ => exact ⟨organizationId, ho⟩
  · cases h

/-- The chain rules as the engines behind its stages do. -/
theorem admitRequest_ruling :
    ((deployment.service call.attributes w).pipeline.admitRequest call.context w).world = deployment.considered call w ∧
      ∃ outcome, ((deployment.service call.attributes w).pipeline.admitRequest call.context w).result = .ok outcome ∧
        (deployment.ruling call w).Made outcome := by
  have first := authorization_turned (W := W) (ρ := ρ) call.context call.attributes deployment.resolver
  have second := policy_turned (W := W) (ρ := ρ) call.context call.attributes deployment.policy
  show (admitFrom call.context _ [] w).world = _ ∧ ∃ outcome, (admitFrom call.context _ [] w).result = _ ∧ _
  simp only [Deployment.service, requestPipeline, Deployment.considered, Deployment.reaches, Deployment.ruling]
  cases hu : unauthorized deployment.resolver call.attributes call.context with
  | some reason =>
    rw [hu] at first
    obtain ⟨world, outcome, result, by_, why⟩ := admitFrom_stops first
      [PolicyStage deployment.policy call.attributes, AgentRoutingStage deployment.routing call.attributes w] [] w
    exact ⟨by rw [world]; rfl, outcome, result, by_, why⟩
  | none =>
    rw [hu] at first
    obtain ⟨authorized, run, acts, quiet⟩ := first
    obtain ⟨world, result⟩ := admitFrom_passes run acts (by decide)
      [PolicyStage deployment.policy call.attributes, AgentRoutingStage deployment.routing call.attributes w] [] w
    rw [world, result]
    cases hp : objection deployment.policy call.attributes call.context with
    | some reason =>
      rw [hp] at second
      obtain ⟨world, outcome, result, by_, why⟩ := admitFrom_stops second
        [AgentRoutingStage deployment.routing call.attributes w] ([] ++ [authorized])
        ((AuthorizationStage deployment.resolver call.attributes).effect call.context w)
      exact ⟨by rw [world]; rfl, outcome, result, by_, why⟩
    | none =>
      rw [hp] at second
      obtain ⟨allowed, run', acts', quiet'⟩ := second
      obtain ⟨world, result⟩ := admitFrom_passes run' acts' (by decide)
        [AgentRoutingStage deployment.routing call.attributes w] ([] ++ [authorized])
        ((AuthorizationStage deployment.resolver call.attributes).effect call.context w)
      rw [world, result]
      obtain ⟨organizationId, ho⟩ := organizationId_of_authorized deployment call hu
      have third := routing_turned call.attributes deployment.routing w ho
      cases hd : destination deployment.routing call.attributes call.context w with
      | none =>
        rw [hd] at third
        obtain ⟨world, outcome, result, by_, why⟩ := admitFrom_stops third [] ([] ++ [authorized] ++ [allowed]) w
        exact ⟨world, outcome, result, by_, why⟩
      | some execution =>
        rw [hd] at third
        obtain ⟨sent, run'', acts'', carries⟩ := third
        obtain ⟨world, result⟩ := admitFrom_passes run'' acts'' (by decide) [] ([] ++ [authorized] ++ [allowed]) w
        refine ⟨world, ⟨[authorized, allowed, sent], none, .none, by simp, fun h => absurd rfl h, fun _ => rfl⟩,
          result, rfl, ?_⟩
        have only : carried [authorized, allowed, sent] = [execution] := by
          rw [show [authorized, allowed, sent] = [authorized] ++ ([allowed] ++ [sent]) from rfl, carried_append,
            carried_append, quiet, quiet', carries]
          rfl
        rw [routingExecution_eq, only]

/-! ### What is answered -/

/-- The answer a ruling calls for: a refusal naming the stage and its reason, or what performing the
routed request brings. -/
def Ruling.Answered (deployment : Deployment W ρ Q R E S) (call : Call Q) (w : W)
    (answer : W × Except PyError (Reply ρ R E S)) : Ruling ρ → Prop
  | .refused stage reason => answer.1 = w ∧ ∃ reply, answer.2 = .ok reply ∧ reply.product = none ∧
      reply.admission.blockedBy = some stage ∧ reply.admission.reason = .text reason
  | .routed execution => answer.1 = (deployment.perform execution call w).1 ∧
      answer.2.map Reply.product = (deployment.perform execution call w).2.map some

section
variable {service : InferenceService W ρ Q R E S} {context : StageContext} {request : Q} {w : W}
  {outcome : AdmissionOutcome ρ} (result : (service.pipeline.admitRequest context w).result = .ok outcome)

variable (request) in
include result in
theorem serve_of_refused (h : outcome.admitted = false) :
    service.serve context request w =
        ((service.pipeline.admitRequest context w).world, .ok ⟨outcome, none, none, h.symm⟩) ∧
      service.serveStream context request w =
        ((service.pipeline.admitRequest context w).world, .ok ⟨outcome, none, h.symm⟩) := by
  have unadmitted : ¬ outcome.admitted = true := by simp [h]
  simp only [InferenceService.serve, InferenceService.serveStream, result, dif_neg unadmitted, and_self]

variable (request) in
include result in
theorem serve_of_admitted (h : outcome.admitted = true) :
    service.serve context request w = service.execution request outcome h (service.pipeline.admitRequest context w).world ∧
      service.serveStream context request w =
        service.streaming request outcome h (service.pipeline.admitRequest context w).world := by
  simp only [InferenceService.serve, InferenceService.serveStream, result, dif_pos h, and_self]

end

/-- An admitted request brings what performing it where it is sent brings. -/
theorem execution_performs (attributes : RequestAttributes) (met : W) {outcome : AdmissionOutcome ρ}
    (h : outcome.admitted = true) {execution : ρ} (sent : routingExecution outcome = .ok execution) :
    if call.streams then
      ((deployment.service attributes met).streaming call.request outcome h w).1 = (deployment.perform execution call w).1 ∧
        (((deployment.service attributes met).streaming call.request outcome h w).2.map Reply.stream).map Reply.product =
          (deployment.perform execution call w).2.map some
    else
      ((deployment.service attributes met).execution call.request outcome h w).1 = (deployment.perform execution call w).1 ∧
        (((deployment.service attributes met).execution call.request outcome h w).2.map Reply.whole).map Reply.product =
          (deployment.perform execution call w).2.map some := by
  unfold Deployment.perform
  split
  · cases ho : deployment.openStream execution call.request w with
    | mk w' opened => cases opened <;> simp [InferenceService.streaming, sent, Deployment.service, ho, Reply.product, Except.map]
  · cases he : deployment.execute execution call.request w with
    | mk w' executed =>
      cases executed with
      | error e => simp [InferenceService.execution, sent, Deployment.service, he, Except.map]
      | ok reflection =>
        cases hv : deployment.evaluate execution call.request reflection w' with
        | mk w'' evaluated =>
          cases evaluated <;> simp [InferenceService.execution, sent, Deployment.service, he, hv, Reply.product, Except.map]

theorem handle_ruling : (deployment.ruling call w).Answered deployment call (deployment.considered call w)
    (deployment.handle call w) := by
  obtain ⟨world, outcome, result, made⟩ := admitRequest_ruling deployment call w
  rw [← world]
  cases hr : deployment.ruling call w with
  | refused stage reason =>
    rw [hr] at made
    obtain ⟨by_, why⟩ := made
    obtain ⟨served, streamed⟩ := serve_of_refused call.request result
      (by simp [AdmissionOutcome.admitted, by_])
    unfold Deployment.handle
    split
    · simp only [streamed]
      exact ⟨rfl, _, rfl, rfl, by_, why⟩
    · simp only [served]
      exact ⟨rfl, _, rfl, rfl, by_, why⟩
  | routed execution =>
    rw [hr] at made
    obtain ⟨by_, sent⟩ := made
    have admitted : outcome.admitted = true := by simp [AdmissionOutcome.admitted, by_]
    obtain ⟨served, streamed⟩ := serve_of_admitted call.request result admitted
    have performs := execution_performs deployment call
      ((deployment.service call.attributes w).pipeline.admitRequest call.context w).world call.attributes w admitted sent
    unfold Deployment.handle
    split at performs
    · simp only [streamed, if_pos ‹call.streams›]
      exact performs
    · simp only [served, if_neg ‹¬call.streams›]
      exact performs

/-! ### Runs -/

namespace Deployment

/-- A run of requests: the world it leaves, and each request with the world it met and its answer. -/
def run (deployment : Deployment W ρ Q R E S) :
    List (Call Q) → W → W × List (Call Q × W × (W × Except PyError (Reply ρ R E S)))
  | [], w => (w, [])
  | call :: calls, w =>
    let answer := deployment.handle call w
    let rest := run deployment calls answer.1
    (rest.1, (call, w, answer) :: rest.2)

end Deployment

/-- A request that authorization or policy holds something against leaves no trace. -/
theorem handle_unreached (unreached : deployment.reaches call = false) : (deployment.handle call w).1 = w := by
  have answered := handle_ruling deployment call w
  have considered : deployment.considered call w = w := by rw [Deployment.considered, unreached, cond_false]
  rw [considered, Deployment.ruling] at answered
  rw [Deployment.reaches] at unreached
  cases hu : unauthorized deployment.resolver call.attributes call.context with
  | some reason =>
    rw [hu] at answered
    exact answered.1
  | none =>
    cases hp : objection deployment.policy call.attributes call.context with
    | some reason =>
      rw [hu, hp] at answered
      exact answered.1
    | none =>
      rw [hu, hp] at unreached
      cases unreached

end
end
end LlmGateway.Serving
