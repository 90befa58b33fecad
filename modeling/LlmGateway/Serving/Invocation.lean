import LlmGateway.Authorization.Seed
import LlmGateway.Serving.Ruling

/-! Inference requests interleaved with the administration of roles, memberships and key scopes. -/
namespace LlmGateway.Serving
open Authorization

def inferencePermission : String := "inference:invoke"

/-- The resolver over the tables as they are. -/
def sqlAuthority (σ : RbacTables) : PermissionResolver := ⟨SqlPermissionResolver.resolve (.ok σ)⟩

inductive Event (Q : Type) where
  | administer (write : RbacWrite)
  | serve (call : Call Q)

/-- A request served, with the tables and the world it met. -/
structure Visit (W ρ Q R E S : Type) where
  tables : RbacTables
  world : W
  call : Call Q
  answer : W × Except PyError (Reply ρ R E S)

section
variable {W ρ Q R E S : Type} (deployment : Deployment W ρ Q R E S)

def Deployment.under (σ : RbacTables) : Deployment W ρ Q R E S := { deployment with resolver := sqlAuthority σ }

/-- The requests of a run, each resolved against the tables its writes have left. -/
def Deployment.visits : List (Event Q) → RbacTables → W → List (Visit W ρ Q R E S)
  | [], _, _ => []
  | .administer write :: events, σ, w => visits events (σ.write write) w
  | .serve call :: events, σ, w =>
    let answer := (deployment.under σ).handle call w
    ⟨σ, w, call, answer⟩ :: visits events σ answer.1

/-- While no write of a run grants the permission to a role, no role carries it at any of its requests; and each
is answered as it is ruled on. -/
theorem visits_withheld {σ : RbacTables} {events : List (Event Q)} (withheld : Withheld σ inferencePermission)
    (withholds : ∀ write, .administer write ∈ events → write.Withholds σ.permissions inferencePermission) (w : W) :
    ∀ visit ∈ deployment.visits events σ w, Withheld visit.tables inferencePermission ∧
      visit.answer = (deployment.under visit.tables).handle visit.call visit.world := by
  induction events generalizing σ w with
  | nil => exact fun visit h => absurd h List.not_mem_nil
  | cons event events ih =>
    cases event with
    | administer write =>
      refine ih (withheld_write withheld (withholds write List.mem_cons_self)) (fun later h => ?_) w
      rw [permissions_write]
      exact withholds later (List.mem_cons_of_mem _ h)
    | serve call =>
      intro visit h
      rcases List.mem_cons.mp h with rfl | h
      · exact ⟨withheld, rfl⟩
      · exact ih withheld (fun later h => withholds later (List.mem_cons_of_mem _ h)) _ visit h

/-- What authorization has against an inference request where no role carries the permission. -/
theorem unauthorized_invocation {σ : RbacTables} (withheld : Withheld σ inferencePermission)
    {attributes : RequestAttributes} (declared : attributes.requiredPermissions = some (.items [inferencePermission]))
    {context : StageContext} {organizationId principalId : Uuid} (ho : context.organizationId = some organizationId)
    (hp : context.principalId = some principalId) :
    unauthorized (sqlAuthority σ) attributes context =
      if ⟨principalId, inferencePermission, organizationId⟩ ∈ σ.apiKeyScopes then none
      else some "principal lacks the required permissions" := by
  have required : attributes.required = some {inferencePermission} := by
    simp [RequestAttributes.required, declared]
  simp only [unauthorized, required, ho, hp, sqlAuthority, Finset.singleton_subset_iff, mem_resolve,
    holds_of_withheld withheld]

/-- An inference request is ruled on by policy and routing where its principal is an API key with that scope in its
organization, and is otherwise refused for lack of the permission. -/
def Visit.ByScope (visit : Visit W ρ Q R E S) : Prop :=
  visit.call.attributes.requiredPermissions = some (.items [inferencePermission]) →
  ∀ organizationId principalId, visit.call.context.organizationId = some organizationId →
  visit.call.context.principalId = some principalId →
  (⟨principalId, inferencePermission, organizationId⟩ ∈ visit.tables.apiKeyScopes ∧
      (Ruling.of none (objection deployment.policy visit.call.attributes visit.call.context)
        (destination deployment.routing visit.call.attributes visit.call.context visit.world)).Answered
        (deployment.under visit.tables) visit.call ((deployment.under visit.tables).considered visit.call visit.world)
        visit.answer) ∨
    (⟨principalId, inferencePermission, organizationId⟩ ∉ visit.tables.apiKeyScopes ∧
      (Ruling.refused AuthorizationStage.name "principal lacks the required permissions").Answered
        (deployment.under visit.tables) visit.call visit.world visit.answer)

/-- From tables a migration has seeded, and while no write grants the permission to a role, scopes alone decide who
may ask for inference, whatever memberships and roles say. -/
theorem invocation_by_key {draws : Draws} {σ τ : RbacTables} (constrained : Constrained σ)
    (withheld : Withheld σ inferencePermission) (seeded : σ.seed draws = some τ) (events : List (Event Q))
    (withholds : ∀ write, .administer write ∈ events → write.Withholds τ.permissions inferencePermission) (w : W) :
    ∀ visit ∈ deployment.visits events τ w, visit.ByScope deployment := by
  intro visit h declared organizationId principalId ho hp
  have none_ := withheld_of_seed constrained seeded withheld invoke_outside
  obtain ⟨ungranted, handled⟩ := visits_withheld deployment none_ withholds w visit h
  have ruled := handle_ruling (deployment.under visit.tables) visit.call visit.world
  have against := unauthorized_invocation ungranted declared ho hp
  rw [← handled, Deployment.ruling] at ruled
  by_cases there : ⟨principalId, inferencePermission, organizationId⟩ ∈ visit.tables.apiKeyScopes
  · rw [if_pos there] at against
    rw [show unauthorized (deployment.under visit.tables).resolver _ _ = none from against] at ruled
    exact .inl ⟨there, ruled⟩
  · rw [if_neg there] at against
    have still : (deployment.under visit.tables).considered visit.call visit.world = visit.world := by
      rw [Deployment.considered, Deployment.reaches,
        show unauthorized (deployment.under visit.tables).resolver _ _ = _ from against]
      rfl
    rw [still, show unauthorized (deployment.under visit.tables).resolver _ _ = _ from against] at ruled
    exact .inr ⟨there, ruled⟩

end

/-- Policy allows up to a kilobyte, and everything is routed to the same place. -/
def toyDeployment : Deployment Nat Unit Unit Unit Unit Unit where
  resolver := sqlAuthority freshTables
  policy := LocalPolicyEngine 1024
  routing := ⟨fun _ _ _ w => (w, .ok ())⟩
  execute _ _ w := (w + 1, .ok ())
  evaluate _ _ _ w := (w, .ok ())
  openStream _ _ w := (w, .ok ())

def toyCall : Call Unit :=
  ⟨⟨"r", some 1, some 7, []⟩, declare [inferencePermission] "POST /v1/inference" [], (), false⟩

theorem invocation_by_key_fresh : ∃ τ, freshTables.seed freshDraws = some τ ∧
    ∀ visit ∈ toyDeployment.visits
      [.administer (.addMembership ⟨1, some 7, none, 0, .active⟩), .serve toyCall,
        .administer (.addScope ⟨7, inferencePermission, 1⟩), .serve toyCall] τ 0,
      visit.ByScope toyDeployment := by
  obtain ⟨τ, seeded⟩ := fresh_seeded
  refine ⟨τ, seeded, invocation_by_key toyDeployment fresh_constrained
    (fun _ h => absurd h List.not_mem_nil) seeded _ (fun write h => ?_) 0⟩
  simp only [List.mem_cons, Event.administer.injEq, reduceCtorEq, List.not_mem_nil, or_false, false_or] at h
  rcases h with rfl | rfl <;> trivial

end LlmGateway.Serving
