import LlmGateway.Serving.Pipeline

/-! `InferenceService`: what a request that is not admitted leaves behind. -/
namespace LlmGateway.Serving

/-- An admitted request has a result, a refused one has none. -/
structure ServedInference (ρ R E : Type) where
  admission : AdmissionOutcome ρ
  reflection : Option R
  evaluation : Option E
  executed : reflection.isSome = admission.admitted

structure ServedStream (ρ S : Type) where
  admission : AdmissionOutcome ρ
  session : Option S
  opened : session.isSome = admission.admitted

/-- The admission chain, and whatever executes, evaluates or streams a request it admits, over a
world of ledger, cache, breaker, providers and deduplicator. -/
structure InferenceService (W ρ Q R E S : Type) where
  pipeline : RequestPipeline W ρ
  execute : ρ → Q → W → W × Except PyError R
  evaluate : ρ → Q → R → W → W × Except PyError E
  openStream : ρ → Q → W → W × Except PyError S

def routingExecutionKey : String := "routing_execution"

section
variable {W ρ Q R E S : Type}

/-- `_routing_execution`: the first record that transports one. -/
def routingExecution (admission : AdmissionOutcome ρ) : Except PyError ρ :=
  let carried := admission.records.filterMap fun record =>
    match record.annotations routingExecutionKey with
    | some (.routing execution) => some execution
    | _ => none
  match carried with
  | execution :: _ => .ok execution
  | [] => .error "RoutingTransportError"

namespace InferenceService
variable (service : InferenceService W ρ Q R E S) (context : StageContext) (request : Q) (w : W)

/-- The admitted part of `serve`. -/
def execution (admission : AdmissionOutcome ρ) (h : admission.admitted = true) (w : W) :
    W × Except PyError (ServedInference ρ R E) :=
  match routingExecution admission with
  | .error e => (w, .error e)
  | .ok routed =>
    match service.execute routed request w with
    | (w, .error e) => (w, .error e)
    | (w, .ok reflection) =>
      match service.evaluate routed request reflection w with
      | (w, .error e) => (w, .error e)
      | (w, .ok evaluation) => (w, .ok ⟨admission, some reflection, some evaluation, h.symm⟩)

def serve : W × Except PyError (ServedInference ρ R E) :=
  let made := service.pipeline.admitRequest context w
  match made.result with
  | .error e => (made.world, .error e)
  | .ok admission =>
    if h : admission.admitted = true then service.execution request admission h made.world
    else (made.world, .ok ⟨admission, none, none, (Bool.eq_false_iff.mpr h).symm⟩)

/-- The admitted part of `serve_stream`. -/
def streaming (admission : AdmissionOutcome ρ) (h : admission.admitted = true) (w : W) :
    W × Except PyError (ServedStream ρ S) :=
  match routingExecution admission with
  | .error e => (w, .error e)
  | .ok routed =>
    match service.openStream routed request w with
    | (w, .error e) => (w, .error e)
    | (w, .ok session) => (w, .ok ⟨admission, some session, h.symm⟩)

def serveStream : W × Except PyError (ServedStream ρ S) :=
  let made := service.pipeline.admitRequest context w
  match made.result with
  | .error e => (made.world, .error e)
  | .ok admission =>
    if h : admission.admitted = true then service.streaming request admission h made.world
    else (made.world, .ok ⟨admission, none, (Bool.eq_false_iff.mpr h).symm⟩)

end InferenceService

/-- Admission fails closed: it returns, admits only what every stage approved, and refuses with the
records of the stages that ran, the last of which refused. A refused request leaves the world as
those stages left it: untouched, when they do nothing to it. -/
structure FailsClosed (service : InferenceService W ρ Q R E S) (context : StageContext)
    (request : Q) (w : W) : Prop where
  returns : ∃ outcome, (service.pipeline.admitRequest context w).result = .ok outcome
  admittedOnlyIf : ∀ outcome, (service.pipeline.admitRequest context w).result = .ok outcome →
    outcome.admitted = true →
    ∀ stage ∈ service.pipeline.stages, (stage.beforeRequest context).Approves
  admittedWhen : (∀ stage ∈ service.pipeline.stages,
      (stage.beforeRequest context).Approves ∧ (stage.beforeRequest context).Mapped) →
    ∃ outcome, (service.pipeline.admitRequest context w).result = .ok outcome ∧
      outcome.admitted = true
  refused : ∀ outcome, (service.pipeline.admitRequest context w).result = .ok outcome →
    outcome.admitted = false → ∃ before stage after made record,
      service.pipeline.stages = before ++ stage :: after ∧
      before.map (runStage · context) = made.map .ok ∧ runStage stage context = .ok record ∧
      (∀ earlier ∈ made, earlier.blocked = false) ∧ record.blocked = true ∧
      outcome.records = made ++ [record] ∧
      (service.pipeline.admitRequest context w).invoked = (before ++ [stage]).map (·.name) ∧
      outcome.blockedBy = some stage.name ∧ outcome.reason.second = .ok true ∧
      (service.serve context request w).1 = leaving context (before ++ [stage]) w ∧
      (service.serveStream context request w).1 = leaving context (before ++ [stage]) w
  untouched : ∀ outcome, (service.pipeline.admitRequest context w).result = .ok outcome →
    outcome.admitted = false →
    (∀ stage ∈ service.pipeline.stages, ∀ w, stage.effect context w = w) →
    (service.serve context request w).1 = w ∧ (service.serveStream context request w).1 = w

/-- Some stage refuses, every one before it continuing; or all continue, each with a
`StageAction`. -/
def Orderly (stages : List (PipelineStage W ρ)) (context : StageContext) : Prop :=
  (∃ before stage after, stages = before ++ stage :: after ∧
      (∀ earlier ∈ before, (earlier.beforeRequest context).Continues) ∧
      (stage.beforeRequest context).Refuses) ∨
    ∀ stage ∈ stages, (stage.beforeRequest context).Continues ∧
      (stage.beforeRequest context).Approves

theorem not_refuses_of_approves {behaviour : Behaviour ρ} (h : behaviour.Approves) :
    ¬ behaviour.Refuses := by
  cases behaviour with
  | raises detail => exact h.elim
  | returnsOther typeName => exact h.elim
  | returns result =>
    obtain ⟨action, ha, hne⟩ := h
    rintro ⟨hb, _⟩
    rw [ha] at hb
    exact hne (of_decide_eq_true hb)

section
variable {service : InferenceService W ρ Q R E S} {context : StageContext} {w : W}

/-- Stages that all continue admit the request. -/
theorem admit_of_continues (hc : ∀ stage ∈ service.pipeline.stages,
      (stage.beforeRequest context).Continues) :
    ∃ outcome, (service.pipeline.admitRequest context w).result = .ok outcome ∧
      outcome.admitted = true := by
  obtain ⟨made, hmade, _, rest⟩ := admitFrom_continues hc
  have run := rest [] [] w
  rw [List.append_nil] at run
  have some : made ≠ [] := by
    rintro rfl
    exact service.pipeline.nonempty (List.map_eq_nil_iff.mp hmade)
  refine ⟨⟨made, none, .none, some, fun h => absurd rfl h, fun _ => rfl⟩, ?_, rfl⟩
  rw [RequestPipeline.admitRequest, run]
  simp [admitFrom, admission, some]

/-- A stage that refuses after others that continue. -/
theorem admit_of_refuses {before after : List (PipelineStage W ρ)} {stage : PipelineStage W ρ}
    (hs : service.pipeline.stages = before ++ stage :: after)
    (hc : ∀ earlier ∈ before, (earlier.beforeRequest context).Continues)
    (hr : (stage.beforeRequest context).Refuses) :
    ∃ made record outcome, before.map (runStage · context) = made.map .ok ∧
      (∀ earlier ∈ made, earlier.blocked = false) ∧
      runStage stage context = .ok record ∧ record.blocked = true ∧
      service.pipeline.admitRequest context w =
        ⟨leaving context (before ++ [stage]) w, (before ++ [stage]).map (·.name), .ok outcome⟩ ∧
      outcome.records = made ++ [record] ∧ outcome.blockedBy = some stage.name := by
  obtain ⟨made, hmade, hopen, rest⟩ := admitFrom_continues hc
  obtain ⟨record, outcome, run, blocked, ended, hrecords, hby, _⟩ :=
    admitFrom_refuses hr after ([] ++ made) (leaving context before w)
  refine ⟨made, record, outcome, hmade, hopen, run, blocked, ?_, hrecords, hby⟩
  rw [RequestPipeline.admitRequest, hs, rest, ended]
  simp [leaving]

/-- A stage that neither continues nor refuses makes the admission raise. -/
theorem admit_raises {before after : List (PipelineStage W ρ)} {stage : PipelineStage W ρ}
    (hs : service.pipeline.stages = before ++ stage :: after)
    (hc : ∀ earlier ∈ before, (earlier.beforeRequest context).Continues)
    (hn : ¬ (stage.beforeRequest context).Continues)
    (hr : ¬ (stage.beforeRequest context).Refuses) :
    ∃ e, (service.pipeline.admitRequest context w).result = .error e := by
  obtain ⟨made, _, _, rest⟩ := admitFrom_continues hc
  rw [RequestPipeline.admitRequest, hs, rest]
  exact admitFrom_raises hn hr after _ _

private theorem failsClosed_of_refuses {request : Q} {before after : List (PipelineStage W ρ)}
    {stage : PipelineStage W ρ} (hs : service.pipeline.stages = before ++ stage :: after)
    (hc : ∀ earlier ∈ before, (earlier.beforeRequest context).Continues)
    (hr : (stage.beforeRequest context).Refuses) : FailsClosed service context request w := by
  obtain ⟨made, record, outcome, hmade, hopen, run, blocked, ended, hrecords, hby⟩ :=
    admit_of_refuses (w := w) hs hc hr
  have result : (service.pipeline.admitRequest context w).result = .ok outcome := by rw [ended]
  have refused : outcome.admitted = false := by simp [AdmissionOutcome.admitted, hby]
  have unexecuted : ¬ outcome.admitted = true := by simp [refused]
  have served : (service.serve context request w).1 = leaving context (before ++ [stage]) w := by
    simp only [InferenceService.serve, ended, dif_neg unexecuted]
  have streamed : (service.serveStream context request w).1 =
      leaving context (before ++ [stage]) w := by
    simp only [InferenceService.serveStream, ended, dif_neg unexecuted]
  have only : ∀ outcome', (service.pipeline.admitRequest context w).result = .ok outcome' →
      outcome' = outcome := fun _ h => Except.ok.inj (h.symm.trans result)
  refine ⟨⟨outcome, result⟩, fun outcome' h admitted => ?_, fun approved => ?_,
    fun outcome' h _ => ?_, fun outcome' h _ idle => ?_⟩
  · rw [only outcome' h, refused] at admitted
    cases admitted
  · have here : stage ∈ service.pipeline.stages := by simp [hs]
    exact absurd hr (not_refuses_of_approves (approved stage here).1)
  · cases only outcome' h
    exact ⟨before, stage, after, made, record, hs, hmade, run, hopen, blocked, hrecords,
      by rw [ended], hby, outcome.explained (by simp [hby]), served, streamed⟩
  · have left : leaving context (before ++ [stage]) w = w := by
      refine leaving_of_idle fun s hmem => idle s ?_
      rw [hs]
      rcases List.mem_append.mp hmem with h | h
      · exact List.mem_append_left _ h
      · exact List.mem_append_right _ (List.mem_singleton.mp h ▸ List.mem_cons_self)
    exact ⟨served.trans left, streamed.trans left⟩

private theorem failsClosed_of_approved {request : Q}
    (hc : ∀ stage ∈ service.pipeline.stages, (stage.beforeRequest context).Continues ∧
      (stage.beforeRequest context).Approves) : FailsClosed service context request w := by
  obtain ⟨outcome, result, admitted⟩ := admit_of_continues (w := w) fun s hs => (hc s hs).1
  refine ⟨⟨outcome, result⟩, fun _ _ _ s hs => (hc s hs).2, fun _ => ⟨outcome, result, admitted⟩,
    fun outcome' h refused => ?_, fun outcome' h refused => ?_⟩
  · rw [Except.ok.inj (h.symm.trans result), admitted] at refused
    cases refused
  · rw [Except.ok.inj (h.symm.trans result), admitted] at refused
    cases refused

end

/-- Admission fails closed if and only if some stage refuses after others that continue, or all
continue with a `StageAction`. -/
theorem fails_closed_iff_orderly (service : InferenceService W ρ Q R E S) (context : StageContext)
    (request : Q) (w : W) :
    FailsClosed service context request w ↔ Orderly service.pipeline.stages context := by
  constructor
  · intro closed
    rcases chain_split context service.pipeline.stages with all | ⟨before, stage, after, hs, hc, hn⟩
    · obtain ⟨outcome, result, admitted⟩ := admit_of_continues (w := w) all
      have approved := closed.admittedOnlyIf outcome result admitted
      exact .inr fun s hs => ⟨all s hs, approved s hs⟩
    · by_cases hr : (stage.beforeRequest context).Refuses
      · exact .inl ⟨before, stage, after, hs, hc, hr⟩
      · obtain ⟨e, raised⟩ := admit_raises (w := w) hs hc hn hr
        obtain ⟨outcome, result⟩ := closed.returns
        rw [raised] at result
        cases result
  · rintro (⟨before, stage, after, hs, hc, hr⟩ | approved)
    · exact failsClosed_of_refuses hs hc hr
    · exact failsClosed_of_approved approved

/-- A stage answers with the text "continue" where a `StageAction` belongs, and admission raises. -/
theorem textual_action_raises : ¬ ∀ (service : InferenceService Unit Unit Unit Unit Unit Unit)
    (context : StageContext), FailsClosed service context () () := by
  intro claim
  let stage : PipelineStage Unit Unit :=
    ⟨"policy", fun _ => .returns ⟨.foreign (.error "AttributeError"), .none, .mapping (.ok fun _ => none)⟩,
      fun _ w => w⟩
  obtain ⟨outcome, result⟩ := (claim ⟨⟨[stage], by simp, by simp⟩, fun _ _ w => (w, .ok ()),
    fun _ _ _ w => (w, .ok ()), fun _ _ w => (w, .ok ())⟩ ⟨"x", none, none, []⟩).returns
  cases result

end
end LlmGateway.Serving
