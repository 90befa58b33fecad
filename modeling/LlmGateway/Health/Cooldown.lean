import LlmGateway.Health.BreakerSpec

/-! How long a circuit that has tripped is reported open: for its whole cooldown, unless a success
of its provider is observed in between. -/
namespace LlmGateway.Health
open Ledger Execution

/-- The clock never goes back along the calls. -/
def InOrder (calls : List BreakerCall) : Prop := calls.Pairwise fun c d => c.now ≤ d.now

instance (calls : List BreakerCall) : Decidable (InOrder calls) :=
  inferInstanceAs (Decidable (calls.Pairwise fun c d => c.now ≤ d.now))

/-- After the call `c`, an assessment that comes while the calls `later` are being made, less than
the cooldown after `c`, reports the key open. -/
def OpenThroughout (config : CircuitBreakerConfig) (before : List BreakerCall) (c : BreakerCall)
    (later : List BreakerCall) (k : CircuitKey) : Prop :=
  ∀ made rest, later = made ++ rest → ∀ now providers, (∀ d ∈ c :: made, d.now ≤ now) →
    now < c.now + config.cooldown →
    ∀ state ∈ (BreakerCall.assess now k.1 providers).reported k
        ((InMemoryCircuitBreaker.after config (before ++ c :: made)).call config
          (.assess now k.1 providers)).2,
      state = .opened

variable {config : CircuitBreakerConfig} {k : CircuitKey} {before later : List BreakerCall}
  {c : BreakerCall}

/-- What an assessment reports of a key. -/
private theorem mem_reported {breaker : InMemoryCircuitBreaker} {now : Timestamp}
    {providers : List String} {state : CircuitState} :
    state ∈ (BreakerCall.assess now k.1 providers).reported k
        (breaker.call config (.assess now k.1 providers)).2 ↔
      k.2 ∈ providers ∧ state = (assessEntry config now (breaker k)).2 := by
  simp only [BreakerCall.reported, InMemoryCircuitBreaker.call, if_true,
    InMemoryCircuitBreaker.assess_states, List.mem_replicate, ne_eq, List.count_eq_zero, not_not]

/-- A trip leaves the circuit open and dated by its call. -/
private theorem tripped_circuit (h : trips config k (.after config before) c = true) :
    (circuitAfter config (before ++ [c]) k).state = .opened ∧
      (circuitAfter config (before ++ [c]) k).openedAt = some c.now := by
  have opened : (circuitAfter config (before ++ [c]) k).state = .opened := by
    rw [circuitAfter, InMemoryCircuitBreaker.after_concat]
    exact (of_decide_eq_true h).2
  refine ⟨opened, ?_⟩
  have dated := (circuitAfter_tracks config k (before ++ [c])).dated (by rw [opened]; decide)
  rw [dated.1, latestTrip_concat, if_pos h]

/-- Before its cooldown has passed, an open circuit is not recovering. -/
private theorem cooling_of_soon {circuit : Circuit} {openedAt now : Timestamp}
    (hat : circuit.openedAt = some openedAt) (soon : now < openedAt + config.cooldown) :
    recovering config now circuit = false := by
  have short : ¬ now - openedAt ≥ config.cooldown := by
    rw [ge_iff_le, le_sub_iff_add_le, add_comm]
    exact not_le_of_gt soon
  rw [recovering, hat, Option.any_some, decide_eq_false short, Bool.and_false]

/-- Without a success, what is observed or assessed within the cooldown leaves the circuit open. -/
private theorem stays_open {made : List BreakerCall} (h : trips config k (.after config before) c = true)
    (soon : ∀ d ∈ made, d.now < c.now + config.cooldown)
    (none : ∀ d ∈ made, d.succeeds k = false) :
    (circuitAfter config (before ++ c :: made) k).state = .opened ∧
      (circuitAfter config (before ++ c :: made) k).openedAt = some c.now := by
  induction made using List.reverseRecOn with
  | nil => exact tripped_circuit h
  | append_singleton made d ih =>
    obtain ⟨hs, hat⟩ := ih (fun e he => soon e (List.mem_append_left _ he))
      (fun e he => none e (List.mem_append_left _ he))
    have move := circuitAfter_transition config (before ++ c :: made) d k
    rw [show before ++ c :: (made ++ [d]) = before ++ c :: made ++ [d] by simp]
    generalize circuitAfter config (before ++ c :: made ++ [d]) k = circuit' at move
    cases move with
    | success hd =>
      rw [none d (by simp)] at hd
      cases hd
    | probeFailed _ hh =>
      rw [hs] at hh
      cases hh
    | tripped _ hc =>
      rw [hs] at hc
      cases hc
    | counted => exact ⟨hs, hat⟩
    | @halfOpened now providers ha hp hr =>
      have early := soon d (by simp)
      subst ha
      exact absurd hr (by simp [cooling_of_soon hat (show now < _ from early)])
    | same => exact ⟨hs, hat⟩

/-- A success closes the circuit. -/
private theorem closed_of_success {calls : List BreakerCall} {d : BreakerCall}
    (h : d.succeeds k = true) : circuitAfter config (calls ++ [d]) k = {} := by
  have move := circuitAfter_transition config calls d k
  generalize circuitAfter config (calls ++ [d]) k = circuit' at move
  cases move with
  | success => rfl
  | probeFailed hf =>
    rw [not_succeeds hf] at h
    cases h
  | tripped hf =>
    rw [not_succeeds hf] at h
    cases h
  | counted hf =>
    rw [not_succeeds hf] at h
    cases h
  | halfOpened ha =>
    subst ha
    cases h
  | same hs =>
    rw [hs] at h
    cases h

/-- A circuit that trips is reported open for its whole cooldown if and only if no success of its
provider is observed within it. -/
theorem open_throughout_cooldown_iff (config : CircuitBreakerConfig) (k : CircuitKey)
    (before later : List BreakerCall) (c : BreakerCall)
    (trip : trips config k (.after config before) c = true) (clock : InOrder (c :: later)) :
    OpenThroughout config before c later k ↔
      ∀ d ∈ later, d.now < c.now + config.cooldown → d.succeeds k = false := by
  constructor
  · intro claim d hd soon
    by_contra hs
    obtain ⟨made, rest, rfl⟩ := List.append_of_mem hd
    have ordered : ∀ e ∈ c :: (made ++ [d]), e.now ≤ d.now := by
      intro e he
      rw [InOrder, ← List.cons_append] at clock
      rw [← List.cons_append, List.mem_append, List.mem_singleton] at he
      rcases he with he | rfl
      · exact (List.pairwise_append.mp clock).2.2 e he d List.mem_cons_self
      · exact le_rfl
    have closed : (InMemoryCircuitBreaker.after config (before ++ c :: (made ++ [d]))).circuit k = {} := by
      rw [show before ++ c :: (made ++ [d]) = before ++ c :: made ++ [d] by simp]
      exact closed_of_success (Bool.not_eq_false _ ▸ hs)
    have reported := claim (made ++ [d]) rest (by simp) d.now [k.2] ordered soon .closed
      (mem_reported.mpr ⟨List.mem_singleton_self _, by rw [InMemoryCircuitBreaker.assessEntry_state, closed]; rfl⟩)
    cases reported
  · intro quiet made rest hlater now providers ordered soon state hstate
    subst hlater
    obtain ⟨hs, hat⟩ := stays_open trip
      (fun d hd => lt_of_le_of_lt (ordered d (List.mem_cons_of_mem _ hd)) soon)
      (fun d hd => quiet d (List.mem_append_left _ hd)
        (lt_of_le_of_lt (ordered d (List.mem_cons_of_mem _ hd)) soon))
    obtain ⟨_, rfl⟩ := mem_reported.mp hstate
    rw [circuitAfter] at hs hat
    rw [InMemoryCircuitBreaker.assessEntry_state, cooling_of_soon hat soon, if_neg Bool.false_ne_true, hs]

/-- One fault trips, for thirty seconds. -/
def tripAtOnce : CircuitBreakerConfig where
  failureThreshold := 1
  cooldown := 30000000
  threshold_pos := by decide
  cooldown_nonneg := by decide

/-- Faults alone leave the circuit open for its cooldown. -/
theorem faults_stay_open : OpenThroughout tripAtOnce []
    (.observe 0 1 "p" ⟨false, some .timeout⟩)
    [.assess 1 1 ["p"], .observe 2 1 "p" ⟨false, some .serverError⟩] (1, "p") :=
  (open_throughout_cooldown_iff tripAtOnce (1, "p") [] _ _ (by decide) (by decide)).mpr (by decide)

/-- A call that was under way at the trip succeeds a second later, and the circuit is reported
closed with most of its cooldown to come. -/
theorem late_success_closes : ¬ ∀ config k before c later,
    trips config k (.after config before) c = true → InOrder (before ++ c :: later) →
      OpenThroughout config before c later k := by
  intro claim
  have report := claim tripAtOnce (1, "p") [] (.observe 0 1 "p" ⟨false, some .timeout⟩)
    [.observe 1000000 1 "p" ⟨true, none⟩] (by decide) (by decide)
    [.observe 1000000 1 "p" ⟨true, none⟩] [] rfl 2000000 ["p"] (by decide) (by decide)
    .closed (by decide)
  cases report

end LlmGateway.Health
