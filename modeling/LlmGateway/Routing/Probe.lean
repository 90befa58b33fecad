import LlmGateway.Routing.Agents
import LlmGateway.Health.Cooldown

/-! How many requests of one organization are in flight to a recovering provider, over every order
of routing decisions and outcomes. -/
namespace LlmGateway.Routing
open Ledger Health Execution

/-- A request on its way to its provider: the state of the circuit it was selected in, and how
many outcomes of that provider had been observed by then. -/
structure Flight where
  provider : String
  state : CircuitState
  outcomes : Nat
  deriving DecidableEq, Repr

/-- The breaker, the requests in flight, and how many successes and transient faults of each
provider were observed. -/
structure Traffic where
  breaker : InMemoryCircuitBreaker := fun _ => none
  inFlight : List Flight := []
  outcomes : String → Nat := fun _ => 0

inductive TrafficStep where
  | route (now : Timestamp) (candidates : List String)
  /-- The call of a request in flight ends and is observed. -/
  | complete (i : Nat) (now : Timestamp) (result : ProviderCallResult)
  /-- A request ends with nothing observed. -/
  | leave (i : Nat)

section
variable (config : CircuitBreakerConfig) (runtime : AgentRuntime) (org : OrgId)

/-- A success or a transient fault. -/
def conclusive (result : ProviderCallResult) : Bool := result.ok || fault result

namespace Traffic

def step (t : Traffic) : TrafficStep → Traffic
  | .route now candidates =>
    let (breaker, decision) := runtime.decide config t.breaker now org candidates
    match decision.selectedProvider with
    | none => { t with breaker := breaker }
    | some p =>
      { t with
        breaker := breaker
        inFlight := t.inFlight ++ [⟨p, (breaker.circuit (org, p)).state, t.outcomes p⟩] }
  | .complete i now result =>
    match t.inFlight[i]? with
    | none => t
    | some f =>
      { breaker := t.breaker.observe config now org f.provider result
        inFlight := t.inFlight.eraseIdx i
        outcomes := if conclusive result then
            Function.update t.outcomes f.provider (t.outcomes f.provider + 1)
          else t.outcomes }
  | .leave i => { t with inFlight := t.inFlight.eraseIdx i }

def after (steps : List TrafficStep) : Traffic := steps.foldl (step config runtime org) {}

/-- The requests in flight that were selected while the circuit was half-open, with no success or
transient fault of the provider observed since. -/
def probes (t : Traffic) (p : String) : List Flight :=
  t.inFlight.filter fun f => f.provider = p ∧ f.state = .halfOpen ∧ f.outcomes = t.outcomes p

/-- At most one request probes a half-open provider. -/
def SingleProbe (t : Traffic) : Prop :=
  ∀ p, (t.breaker.circuit (org, p)).state = .halfOpen → (t.probes p).length ≤ 1

/-- Every candidate of the decision that is being probed has another one ranked before it: closed,
or recovering and with a smaller name. -/
def Outranked (t : Traffic) (now : Timestamp) (candidates : List String) : Prop :=
  ∀ p ∈ candidates, t.probes p ≠ [] → ∃ q ∈ candidates,
    (t.breaker.circuit (org, q)).state = .closed ∨
      (((t.breaker.circuit (org, q)).state = .halfOpen ∨
        recovering config now (t.breaker.circuit (org, q)) = true) ∧ q < p)

end Traffic
end

variable {config : CircuitBreakerConfig} {runtime : AgentRuntime} {org : OrgId} {t : Traffic}
  {p : String}

/-- A half-open circuit stays so until a success or a transient fault is observed. -/
private theorem halfOpen_kept {breaker : InMemoryCircuitBreaker} {k : CircuitKey} {c : BreakerCall}
    (h : (breaker.circuit k).state = .halfOpen) (hs : c.succeeds k = false)
    (hf : c.faults k = false) : ((breaker.call config c).1.circuit k).state = .halfOpen := by
  have move : Transition config k (breaker.circuit k) c ((breaker.call config c).1.circuit k) :=
    breaker.call_transition c
  generalize (breaker.call config c).1.circuit k = circuit' at move
  cases move with
  | success h' =>
    rw [hs] at h'
    cases h'
  | probeFailed h' =>
    rw [hf] at h'
    cases h'
  | tripped h' =>
    rw [hf] at h'
    cases h'
  | counted h' =>
    rw [hf] at h'
    cases h'
  | halfOpened => rfl
  | same => exact h

private theorem decide_halfOpen {now : Timestamp} {candidates : List String}
    (h : (t.breaker.circuit (org, p)).state = .halfOpen) :
    ((runtime.decide config t.breaker now org candidates).1.circuit (org, p)).state = .halfOpen := by
  rw [AgentRuntime.decide_breaker]
  split_ifs
  · exact halfOpen_kept (c := .assess now org candidates) h rfl rfl
  · exact h

private theorem observe_halfOpen {now : Timestamp} {q : String} {result : ProviderCallResult}
    (h : (t.breaker.circuit (org, p)).state = .halfOpen)
    (hr : q = p → conclusive result = false) :
    ((t.breaker.observe config now org q result).circuit (org, p)).state = .halfOpen := by
  have quiet : q = p → result.ok = false ∧ fault result = false :=
    fun hq => Bool.or_eq_false_iff.mp (hr hq)
  refine halfOpen_kept (c := .observe now org q result) h ?_ ?_
  · by_cases hq : q = p
    · simp [BreakerCall.succeeds, (quiet hq).1]
    · simp [BreakerCall.succeeds, hq]
  · by_cases hq : q = p
    · simp [BreakerCall.faults, (quiet hq).2]
    · simp [BreakerCall.faults, hq]

namespace Traffic

/-- A probe's circuit is still half-open, and only a runtime that lets requests through has any
in flight. -/
structure Sound (runtime : AgentRuntime) (org : OrgId) (t : Traffic) : Prop where
  counted : ∀ f ∈ t.inFlight, f.outcomes ≤ t.outcomes f.provider
  probing : ∀ f ∈ t.inFlight, f.state = .halfOpen → f.outcomes = t.outcomes f.provider →
    (t.breaker.circuit (org, f.provider)).state = .halfOpen
  allowed : t.inFlight ≠ [] → runtime.allow = true ∧ runtime.withinBudget = true

theorem mem_probes {f : Flight} : f ∈ t.probes p ↔
    f ∈ t.inFlight ∧ f.provider = p ∧ f.state = .halfOpen ∧ f.outcomes = t.outcomes p := by
  rw [probes, List.mem_filter, decide_eq_true_eq]

/-- A provider that is being probed is half-open. -/
theorem Sound.halfOpen (h : Sound runtime org t) (hp : t.probes p ≠ []) :
    (t.breaker.circuit (org, p)).state = .halfOpen := by
  obtain ⟨f, hf⟩ := List.exists_mem_of_ne_nil _ hp
  obtain ⟨hmem, rfl, hstate, hsince⟩ := mem_probes.mp hf
  exact h.probing f hmem hstate hsince

theorem Sound.allowed_of_probed (h : Sound runtime org t) (hp : t.probes p ≠ []) :
    runtime.allow = true ∧ runtime.withinBudget = true := by
  obtain ⟨f, hf⟩ := List.exists_mem_of_ne_nil _ hp
  exact h.allowed (List.ne_nil_of_mem (mem_probes.mp hf).1)

private theorem sound_route (h : Sound runtime org t) (now : Timestamp) (candidates : List String) :
    Sound runtime org (t.step config runtime org (.route now candidates)) := by
  simp only [step]
  cases hsel : (runtime.decide config t.breaker now org candidates).2.selectedProvider with
  | none =>
    exact ⟨h.counted, fun f hf hs ho => decide_halfOpen (h.probing f hf hs ho), h.allowed⟩
  | some q =>
    refine ⟨fun f hf => ?_, fun f hf hs ho => ?_, fun _ => AgentRuntime.decide_allowed hsel⟩
    · rcases List.mem_append.mp hf with hf | hf
      · exact h.counted f hf
      · cases List.mem_singleton.mp hf
        exact le_rfl
    · rcases List.mem_append.mp hf with hf | hf
      · exact decide_halfOpen (h.probing f hf hs ho)
      · cases List.mem_singleton.mp hf
        exact hs

section Complete
variable {i : Nat} {g : Flight} (now : Timestamp) (result : ProviderCallResult)

/-- How many outcomes of a provider there are once one more call is observed. -/
private theorem outcomes_complete (hi : t.inFlight[i]? = some g) (p : String) :
    (t.step config runtime org (.complete i now result)).outcomes p =
      t.outcomes p + if g.provider = p ∧ conclusive result = true then 1 else 0 := by
  simp only [step, hi]
  by_cases hr : conclusive result = true
  · by_cases hq : g.provider = p
    · subst hq
      simp [hr]
    · simp [hr, hq, Function.update_of_ne (Ne.symm hq)]
  · simp [hr]

private theorem inFlight_complete (hi : t.inFlight[i]? = some g) :
    (t.step config runtime org (.complete i now result)).inFlight = t.inFlight.eraseIdx i := by
  simp only [step, hi]

private theorem complete_none (hi : t.inFlight[i]? = none) :
    t.step config runtime org (.complete i now result) = t := by
  simp only [step, hi]

/-- A request whose provider had its latest outcome before it was selected, after a call is
observed: the call told nothing of that provider. -/
private theorem unconcluded (h : Sound runtime org t) (hi : t.inFlight[i]? = some g) {f : Flight}
    (hf : f ∈ t.inFlight) (ho : f.outcomes =
      (t.step config runtime org (.complete i now result)).outcomes f.provider) :
    f.outcomes = t.outcomes f.provider ∧ (g.provider = f.provider → conclusive result = false) := by
  rw [outcomes_complete now result hi] at ho
  have counted := h.counted f hf
  have quiet : ¬ (g.provider = f.provider ∧ conclusive result = true) := fun hg => by
    rw [if_pos hg] at ho
    omega
  rw [if_neg quiet, Nat.add_zero] at ho
  exact ⟨ho, fun hg => Bool.eq_false_iff.mpr fun hr => quiet ⟨hg, hr⟩⟩

private theorem sound_complete (h : Sound runtime org t) (i : Nat) :
    Sound runtime org (t.step config runtime org (.complete i now result)) := by
  cases hi : t.inFlight[i]? with
  | none =>
    rw [complete_none now result hi]
    exact h
  | some g =>
    have before : ∀ f ∈ (t.step config runtime org (.complete i now result)).inFlight,
        f ∈ t.inFlight := fun f hf => by
      rw [inFlight_complete now result hi] at hf
      exact List.mem_of_mem_eraseIdx hf
    refine ⟨fun f hf => ?_, fun f hf hs ho => ?_, fun hne => h.allowed fun hnil => ?_⟩
    · rw [outcomes_complete now result hi]
      exact (h.counted f (before f hf)).trans (Nat.le_add_right _ _)
    · obtain ⟨since, quiet⟩ := unconcluded now result h hi (before f hf) ho
      simp only [step, hi]
      exact observe_halfOpen (h.probing f (before f hf) hs since) quiet
    · rw [hnil] at hi
      cases hi

/-- A call that ends leaves no more probes than there were. -/
private theorem probes_complete (h : Sound runtime org t) (i : Nat) :
    ((t.step config runtime org (.complete i now result)).probes p).length ≤
      (t.probes p).length := by
  cases hi : t.inFlight[i]? with
  | none =>
    rw [complete_none now result hi]
  | some g =>
    refine le_trans ?_ ((List.eraseIdx_sublist t.inFlight i).filter _).length_le
    -- What counts as a probe after the call counted as one before it.
    have fewer : (t.step config runtime org (.complete i now result)).probes p =
        ((t.inFlight.eraseIdx i).filter fun f =>
          f.provider = p ∧ f.state = .halfOpen ∧ f.outcomes = t.outcomes p).filter fun f =>
            f.provider = p ∧ f.state = .halfOpen ∧ f.outcomes =
              (t.step config runtime org (.complete i now result)).outcomes p := by
      rw [probes, inFlight_complete now result hi, List.filter_filter]
      refine List.filter_congr fun f hf => ?_
      rw [Bool.eq_iff_iff, Bool.and_eq_true, decide_eq_true_eq, decide_eq_true_eq]
      refine ⟨fun hp => ⟨hp, hp.1, hp.2.1, ?_⟩, And.left⟩
      obtain ⟨rfl, _, ho⟩ := hp
      exact (unconcluded now result h hi (List.mem_of_mem_eraseIdx hf) ho).1
    rw [fewer]
    exact List.length_filter_le _ _

end Complete

theorem step_sound (h : Sound runtime org t) (s : TrafficStep) :
    Sound runtime org (t.step config runtime org s) := by
  cases s with
  | route now candidates => exact sound_route h now candidates
  | complete i now result => exact sound_complete now result h i
  | leave i =>
    refine ⟨fun f hf => h.counted f (List.mem_of_mem_eraseIdx hf),
      fun f hf => h.probing f (List.mem_of_mem_eraseIdx hf), fun hne => h.allowed fun hnil => ?_⟩
    simp only [step, hnil] at hne
    exact hne rfl

theorem after_concat (made : List TrafficStep) (s : TrafficStep) :
    after config runtime org (made ++ [s]) =
      (after config runtime org made).step config runtime org s := by
  rw [after, List.foldl_append]
  rfl

theorem after_sound (steps : List TrafficStep) :
    Sound runtime org (after config runtime org steps) := by
  induction steps using List.reverseRecOn with
  | nil => exact ⟨fun f hf => (by cases hf), fun f hf => (by cases hf), fun h => absurd rfl h⟩
  | append_singleton steps s ih =>
    rw [after_concat]
    exact step_sound ih s

/-- A provider that is being probed is selected again when nothing ranks before it. -/
private theorem route_probed {now : Timestamp} {candidates : List String} (h : Sound runtime org t)
    (hp : t.probes p ≠ []) (hmem : p ∈ candidates) :
    (runtime.decide config t.breaker now org candidates).2.selectedProvider = some p ↔
      ¬ ∃ q ∈ candidates, (t.breaker.circuit (org, q)).state = .closed ∨
        (((t.breaker.circuit (org, q)).state = .halfOpen ∨
          recovering config now (t.breaker.circuit (org, q)) = true) ∧ q < p) := by
  rw [AgentRuntime.decide_degraded (assessed_halfOpen.mpr (.inl (h.halfOpen hp)))]
  obtain ⟨hallow, hbudget⟩ := h.allowed_of_probed hp
  simp only [hallow, hbudget, hmem, true_and, ne_eq, assessed_closed, assessed_halfOpen, not_exists,
    not_and, not_or]

private theorem probes_route {now : Timestamp} {candidates : List String} {q : String}
    (hsel : (runtime.decide config t.breaker now org candidates).2.selectedProvider = some q) :
    (t.step config runtime org (.route now candidates)).probes p = t.probes p ++
      [(⟨q, ((runtime.decide config t.breaker now org candidates).1.circuit (org, q)).state,
        t.outcomes q⟩ : Flight)].filter
          fun f => f.provider = p ∧ f.state = .halfOpen ∧ f.outcomes = t.outcomes p := by
  simp only [step, hsel, probes, List.filter_append]

theorem step_single {s : TrafficStep} (h : Sound runtime org t) (single : SingleProbe org t)
    (rank : ∀ now candidates, s = .route now candidates → t.Outranked config org now candidates) :
    SingleProbe org (t.step config runtime org s) := by
  have atMost : ∀ p, (t.probes p).length ≤ 1 := by
    intro p
    by_cases hp : t.probes p = []
    · simp [hp]
    · exact single p (h.halfOpen hp)
  intro p _
  cases s with
  | route now candidates =>
    cases hsel : (runtime.decide config t.breaker now org candidates).2.selectedProvider with
    | none =>
      have same : (t.step config runtime org (.route now candidates)).probes p = t.probes p := by
        simp only [step, hsel, probes]
      rw [same]
      exact atMost p
    | some q =>
      rw [probes_route hsel, List.length_append]
      by_cases hq : q = p
      · subst hq
        have unprobed : t.probes q = [] := by
          by_contra hp
          have hmem := AgentRuntime.decide_mem hsel
          exact (route_probed h hp hmem).mp hsel (rank now candidates rfl q hmem hp)
        rw [unprobed, List.length_nil, Nat.zero_add]
        exact List.length_filter_le _ _
      · simpa [hq] using atMost p
  | complete i now result => exact (probes_complete now result h i).trans (atMost p)
  | leave i => exact (((List.eraseIdx_sublist t.inFlight i).filter _).length_le).trans (atMost p)

/-- A decision for which a provider under probe ranks first puts a second probe in flight. -/
theorem second_probe {now : Timestamp} {candidates : List String} (h : Sound runtime org t)
    (single : SingleProbe org (t.step config runtime org (.route now candidates))) :
    t.Outranked config org now candidates := by
  intro p hmem hp
  by_contra hnone
  have hsel := (route_probed h hp hmem).mpr hnone
  have still : ((runtime.decide config t.breaker now org candidates).1.circuit (org, p)).state =
      .halfOpen := decide_halfOpen (h.halfOpen hp)
  have two := single p (by simpa only [step, hsel] using still)
  rw [probes_route hsel, List.length_append, List.filter_cons_of_pos (by simp [still])] at two
  have one := List.length_pos_iff.mpr hp
  simp only [List.filter_nil, List.length_singleton] at two
  omega

end Traffic

/-- In every state of a run at most one request probes each half-open provider, if and only if
every decision of the run has something ranked before each provider under probe. -/
theorem single_probe_iff (config : CircuitBreakerConfig) (runtime : AgentRuntime) (org : OrgId)
    (steps : List TrafficStep) :
    (∀ made, made <+: steps → Traffic.SingleProbe org (.after config runtime org made)) ↔
      ∀ made now candidates, made ++ [.route now candidates] <+: steps →
        (Traffic.after config runtime org made).Outranked config org now candidates := by
  constructor
  · intro single made now candidates hmade
    refine Traffic.second_probe (Traffic.after_sound made) ?_
    rw [← Traffic.after_concat]
    exact single _ hmade
  · intro rank made hmade
    induction made using List.reverseRecOn with
    | nil => exact fun p _ => Nat.zero_le _
    | append_singleton made s ih =>
      rw [Traffic.after_concat]
      refine Traffic.step_single (Traffic.after_sound made)
        (ih ((List.prefix_append _ _).trans hmade)) ?_
      rintro now candidates rfl
      exact rank made now candidates hmade

/-- After the cooldown two requests are routed to the only candidate before either ends. -/
theorem two_probes : ¬ ∀ config runtime org steps,
    Traffic.SingleProbe org (.after config runtime org steps) := by
  intro claim
  have two := claim tripAtOnce {} 1
    [.route 0 ["p"], .complete 0 0 ⟨false, some .timeout⟩, .route 30000000 ["p"],
      .route 30000001 ["p"]] "p" (by decide)
  revert two
  decide

end LlmGateway.Routing
