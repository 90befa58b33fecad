import LlmGateway.Health.Breaker

/-! What the circuit breaker guarantees over whole histories of calls. -/
namespace LlmGateway.Health
open Ledger Execution

section
variable (config : CircuitBreakerConfig) (k : CircuitKey)

/-- The transient faults of the key since its last success. -/
def faultsSince (calls : List BreakerCall) : Nat :=
  calls.foldl (fun n c => if c.succeeds k then 0 else if c.faults k then n + 1 else n) 0

/-- The circuit opens in the call. -/
def trips (breaker : InMemoryCircuitBreaker) (c : BreakerCall) : Bool :=
  (breaker.circuit k).state ≠ .opened ∧ ((breaker.call config c).1.circuit k).state = .opened

/-- When the circuit last opened. -/
def latestTrip (calls : List BreakerCall) : Option Timestamp :=
  (calls.foldl (fun (s : InMemoryCircuitBreaker × Option Timestamp) c =>
    ((s.1.call config c).1, if trips config k s.1 c then some c.now else s.2))
    (fun _ => none, none)).2

/-- The states reported for the key along a history. -/
def reports : InMemoryCircuitBreaker → List BreakerCall → List CircuitState
  | _, [] => []
  | breaker, c :: calls =>
    c.reported k (breaker.call config c).2 ++ reports (breaker.call config c).1 calls

end

/-- Everything a call can do to the key's circuit. -/
inductive Transition (config : CircuitBreakerConfig) (k : CircuitKey) (circuit : Circuit)
    (c : BreakerCall) : Circuit → Prop where
  | success (hs : c.succeeds k = true) : Transition config k circuit c {}
  | probeFailed (hf : c.faults k = true) (hh : circuit.state = .halfOpen) :
      Transition config k circuit c (trip c.now circuit)
  | tripped (hf : c.faults k = true) (hc : circuit.state = .closed)
      (hn : config.failureThreshold ≤ circuit.consecutiveFailures + 1) :
      Transition config k circuit c
        (trip c.now { circuit with consecutiveFailures := circuit.consecutiveFailures + 1 })
  | counted (hf : c.faults k = true) (hh : circuit.state ≠ .halfOpen)
      (hn : circuit.state = .closed → circuit.consecutiveFailures + 1 < config.failureThreshold) :
      Transition config k circuit c
        { circuit with consecutiveFailures := circuit.consecutiveFailures + 1 }
  | halfOpened {now providers} (ha : c = .assess now k.1 providers) (hp : k.2 ∈ providers)
      (hr : recovering config now circuit = true) :
      Transition config k circuit c { circuit with state := .halfOpen }
  | same (hs : c.succeeds k = false) (hf : c.faults k = false) : Transition config k circuit c circuit

variable {config : CircuitBreakerConfig} {k : CircuitKey} {breaker : InMemoryCircuitBreaker}

private theorem onTransientFailure_transition {now : Timestamp} {c : BreakerCall}
    (entry : Option Circuit) (hf : c.faults k = true) (hn : c.now = now) :
    Transition config k (entry.getD {}) c (onTransientFailure config now entry) := by
  subst hn
  unfold onTransientFailure
  dsimp only
  split_ifs with hh ht
  · exact .probeFailed hf hh
  · exact .tripped hf ht.1 ht.2
  · exact .counted hf hh fun hc => Nat.lt_of_not_le fun hle => ht ⟨hc, hle⟩

theorem observe_transition {now : Timestamp} {result : ProviderCallResult} :
    Transition config k (breaker.circuit k) (.observe now k.1 k.2 result)
      ((observeEntry config now result (breaker k)).getD {}) := by
  unfold observeEntry InMemoryCircuitBreaker.circuit
  cases hok : result.ok with
  | true =>
    rw [if_pos rfl]
    have hs : BreakerCall.succeeds k (.observe now k.1 k.2 result) = true := by
      simp [BreakerCall.succeeds, hok]
    cases breaker k with
    | none => exact .success hs
    | some circuit => exact .success hs
  | false =>
    rw [if_neg Bool.false_ne_true]
    split_ifs with ht
    · exact onTransientFailure_transition _ (by simp [BreakerCall.faults, fault, hok, ht]) rfl
    · exact .same (by simp [BreakerCall.succeeds, hok]) (by simp [BreakerCall.faults, fault, ht])

theorem assess_transition {now : Timestamp} {providers : List String} (hp : k.2 ∈ providers) :
    Transition config k (breaker.circuit k) (.assess now k.1 providers)
      ((assessEntry config now (breaker k)).1.getD {}) := by
  unfold InMemoryCircuitBreaker.circuit
  cases breaker k with
  | none => exact .same rfl rfl
  | some circuit =>
    simp only [assessEntry, Option.getD_some]
    split_ifs with hr
    · exact .halfOpened rfl hp hr
    · exact .same rfl rfl

theorem InMemoryCircuitBreaker.call_transition (breaker : InMemoryCircuitBreaker) (c : BreakerCall) :
    Transition config k (breaker.circuit k) c ((breaker.call config c).1.circuit k) := by
  rw [circuit, circuit, call_apply]
  cases c with
  | observe now org provider result =>
    simp only [BreakerCall.entry]
    split_ifs with hk
    · subst hk
      exact observe_transition
    · exact .same (by simp [BreakerCall.succeeds, hk]) (by simp [BreakerCall.faults, hk])
  | assess now org providers =>
    simp only [BreakerCall.entry]
    split_ifs with hk
    · obtain ⟨rfl, hp⟩ := hk
      exact assess_transition hp
    · exact .same rfl rfl

theorem not_succeeds {c : BreakerCall} (hf : c.faults k = true) : c.succeeds k = false := by
  cases c with
  | observe now org provider result =>
    simp only [BreakerCall.faults, fault, Bool.and_eq_true, Bool.not_eq_true'] at hf
    simp [BreakerCall.succeeds, hf.2.1]
  | assess now org providers => rfl

theorem opened_of_recovering {now : Timestamp} {circuit : Circuit}
    (h : recovering config now circuit = true) : circuit.state = .opened := by
  simp only [recovering, Bool.and_eq_true, decide_eq_true_eq] at h
  exact h.1

section History
variable {calls : List BreakerCall} {c : BreakerCall}

theorem faultsSince_concat : faultsSince k (calls ++ [c]) =
    if c.succeeds k then 0 else if c.faults k then faultsSince k calls + 1
      else faultsSince k calls := by
  rw [faultsSince, List.foldl_append]
  rfl

private theorem trips_fst (calls : List BreakerCall) :
    (calls.foldl (fun (s : InMemoryCircuitBreaker × Option Timestamp) c =>
      ((s.1.call config c).1, if trips config k s.1 c then some c.now else s.2))
      (fun _ => none, none)).1 = .after config calls := by
  induction calls using List.reverseRecOn with
  | nil => rfl
  | append_singleton calls c ih =>
    rw [List.foldl_append, InMemoryCircuitBreaker.after_concat, ← ih]
    rfl

theorem latestTrip_concat : latestTrip config k (calls ++ [c]) =
    if trips config k (.after config calls) c then some c.now else latestTrip config k calls := by
  rw [latestTrip, List.foldl_append, ← trips_fst]
  rfl

/-- The circuit of the key after a history. -/
def circuitAfter (config : CircuitBreakerConfig) (calls : List BreakerCall) (k : CircuitKey) :
    Circuit :=
  (InMemoryCircuitBreaker.after config calls).circuit k

theorem circuitAfter_transition (config : CircuitBreakerConfig) (calls : List BreakerCall)
    (c : BreakerCall) (k : CircuitKey) :
    Transition config k (circuitAfter config calls k) c (circuitAfter config (calls ++ [c]) k) := by
  rw [circuitAfter, circuitAfter, InMemoryCircuitBreaker.after_concat]
  exact InMemoryCircuitBreaker.call_transition _ c

/-- A closed circuit counts the faults since the last success; another one is dated by the trip
it comes from. -/
structure Tracks (config : CircuitBreakerConfig) (circuit : Circuit) (faults : Nat)
    (last : Option Timestamp) : Prop where
  closed : circuit.state = .closed → circuit.openedAt = none ∧
    circuit.consecutiveFailures = faults ∧ faults < config.failureThreshold
  dated : circuit.state ≠ .closed → circuit.openedAt = last ∧ last ≠ none

theorem circuitAfter_tracks (config : CircuitBreakerConfig) (k : CircuitKey)
    (calls : List BreakerCall) : Tracks config (circuitAfter config calls k) (faultsSince k calls)
      (latestTrip config k calls) := by
  induction calls using List.reverseRecOn with
  | nil => exact ⟨fun _ => ⟨rfl, rfl, config.threshold_pos⟩, fun h => absurd rfl h⟩
  | append_singleton calls c ih =>
    have opens : trips config k (.after config calls) c = true ↔
        (circuitAfter config calls k).state ≠ .opened ∧
          (circuitAfter config (calls ++ [c]) k).state = .opened := by
      rw [trips, decide_eq_true_eq, circuitAfter, circuitAfter, InMemoryCircuitBreaker.after_concat]
    rw [faultsSince_concat, latestTrip_concat]
    have move := circuitAfter_transition config calls c k
    generalize circuitAfter config (calls ++ [c]) k = circuit' at move opens
    cases move with
    | success hs =>
      rw [if_pos hs]
      exact ⟨fun _ => ⟨rfl, rfl, config.threshold_pos⟩, fun h => absurd rfl h⟩
    | probeFailed hf hh =>
      rw [if_pos (opens.mpr ⟨by simp [hh], rfl⟩)]
      exact ⟨fun h => (by cases h), fun _ => ⟨rfl, by simp⟩⟩
    | tripped hf hc hn =>
      rw [if_pos (opens.mpr ⟨by simp [hc], rfl⟩)]
      exact ⟨fun h => (by cases h), fun _ => ⟨rfl, by simp⟩⟩
    | counted hf hh hn =>
      rw [if_neg (fun h => (opens.mp h).1 (opens.mp h).2), if_neg (by simp [not_succeeds hf]),
        if_pos hf]
      refine ⟨fun hc => ?_, ih.dated⟩
      obtain ⟨hnone, hcount, _⟩ := ih.closed hc
      exact ⟨hnone, congrArg (· + 1) hcount, hcount ▸ hn hc⟩
    | halfOpened ha hp hr =>
      subst ha
      have silent : trips config k (.after config calls) (.assess _ k.1 _) ≠ true :=
        fun h => by cases (opens.mp h).2
      rw [if_neg silent]
      have hopen : (circuitAfter config calls k).state ≠ .closed := by
        rw [opened_of_recovering hr]
        decide
      exact ⟨fun h => (by cases h), fun _ => ih.dated hopen⟩
    | same hs hf =>
      rw [if_neg (fun h => (opens.mp h).1 (opens.mp h).2), hs, hf]
      exact ih

end History

section Isolation
variable {breaker' : InMemoryCircuitBreaker} {c : BreakerCall}

private theorem reported_call (c : BreakerCall) (h : breaker k = breaker' k) :
    c.reported k (breaker.call config c).2 = c.reported k (breaker'.call config c).2 := by
  cases c with
  | observe now org provider result => rfl
  | assess now org providers =>
    simp only [BreakerCall.reported, InMemoryCircuitBreaker.call]
    split_ifs with ho
    · subst ho
      rw [InMemoryCircuitBreaker.assess_states, InMemoryCircuitBreaker.assess_states, h]
    · rfl

private theorem reported_elsewhere (h : c.concerns k = false) :
    c.reported k (breaker.call config c).2 = [] := by
  cases c with
  | observe now org provider result => rfl
  | assess now org providers =>
    simp only [BreakerCall.concerns, decide_eq_false_iff_not, not_and] at h
    simp only [BreakerCall.reported, InMemoryCircuitBreaker.call]
    split_ifs with ho
    · rw [ho, InMemoryCircuitBreaker.assess_states, List.count_eq_zero.mpr (h ho)]
      rfl
    · rfl

private theorem entry_elsewhere (h : c.concerns k = false) (entry : Option Circuit) :
    c.entry config k entry = entry := by
  cases c with
  | observe now org provider result =>
    simp only [BreakerCall.concerns, decide_eq_false_iff_not] at h
    exact if_neg h
  | assess now org providers =>
    simp only [BreakerCall.concerns, decide_eq_false_iff_not] at h
    exact if_neg h

/-- What is reported for a key, and its entry, come from the calls for it. -/
private theorem reports_filter (calls : List BreakerCall) (h : breaker k = breaker' k) :
    reports config k breaker calls = reports config k breaker' (calls.filter (·.concerns k)) ∧
      calls.foldl (fun b c => (b.call config c).1) breaker k =
        (calls.filter (·.concerns k)).foldl (fun b c => (b.call config c).1) breaker' k := by
  induction calls generalizing breaker breaker' with
  | nil => exact ⟨rfl, h⟩
  | cons c calls ih =>
    cases hc : c.concerns k with
    | true =>
      have next : (breaker.call config c).1 k = (breaker'.call config c).1 k := by
        rw [InMemoryCircuitBreaker.call_apply, InMemoryCircuitBreaker.call_apply, h]
      rw [List.filter_cons_of_pos hc, reports, reports, reported_call c h, (ih next).1]
      exact ⟨rfl, (ih next).2⟩
    | false =>
      have next : (breaker.call config c).1 k = breaker' k := by
        rw [InMemoryCircuitBreaker.call_apply, entry_elsewhere hc, h]
      rw [List.filter_cons_of_neg (by simp [hc]), reports, reported_elsewhere hc, List.nil_append]
      exact ih next

end Isolation

/-- What the breaker guarantees of one key after any history of calls. -/
structure BreakerSpec (config : CircuitBreakerConfig) (calls : List BreakerCall) (k : CircuitKey) :
    Prop where
  isolated : reports config k (fun _ => none) calls =
      reports config k (fun _ => none) (calls.filter (·.concerns k)) ∧
    circuitAfter config calls k = circuitAfter config (calls.filter (·.concerns k)) k
  counts : (circuitAfter config calls k).state = .closed →
    (circuitAfter config calls k).openedAt = none ∧
    (circuitAfter config calls k).consecutiveFailures = faultsSince k calls ∧
    faultsSince k calls < config.failureThreshold
  opens : (circuitAfter config calls k).state = .closed → ∀ c : BreakerCall,
    (circuitAfter config (calls ++ [c]) k).state =
      if c.faults k = true ∧ faultsSince k calls + 1 = config.failureThreshold then .opened
      else .closed
  dated : (circuitAfter config calls k).state ≠ .closed → latestTrip config k calls ≠ none ∧
    (circuitAfter config calls k).openedAt = latestTrip config k calls
  halfOpens : (circuitAfter config calls k).state = .opened → ∀ c : BreakerCall,
    (circuitAfter config (calls ++ [c]) k).state = .halfOpen →
    ∃ now providers openedAt, c = .assess now k.1 providers ∧ k.2 ∈ providers ∧
      (circuitAfter config calls k).openedAt = some openedAt ∧ config.cooldown ≤ now - openedAt
  reopens : (circuitAfter config calls k).state = .halfOpen → ∀ c : BreakerCall,
    c.faults k = true → (circuitAfter config (calls ++ [c]) k).state = .opened ∧
      (circuitAfter config (calls ++ [c]) k).openedAt = some c.now
  ignores : ∀ now org provider (result : ProviderCallResult), result.ok = false →
    fault result = false →
    InMemoryCircuitBreaker.after config (calls ++ [.observe now org provider result]) =
      .after config calls

private theorem opens_at_threshold (calls : List BreakerCall) (c : BreakerCall)
    (hc : (circuitAfter config calls k).state = .closed) :
    (circuitAfter config (calls ++ [c]) k).state =
      if c.faults k = true ∧ faultsSince k calls + 1 = config.failureThreshold then .opened
      else .closed := by
  obtain ⟨_, hcount, hlt⟩ := (circuitAfter_tracks config k calls).closed hc
  have move := circuitAfter_transition config calls c k
  generalize circuitAfter config (calls ++ [c]) k = circuit' at move
  cases move with
  | success hs => exact (if_neg fun h => by simp [not_succeeds h.1] at hs).symm
  | probeFailed hf hh =>
    rw [hc] at hh
    cases hh
  | tripped hf _ hn => exact (if_pos ⟨hf, by omega⟩).symm
  | counted hf hh hn =>
    have := hn hc
    exact hc.trans (if_neg fun h => by omega).symm
  | halfOpened ha hp hr =>
    rw [opened_of_recovering hr] at hc
    cases hc
  | same hs hf => exact hc.trans (if_neg fun h => by simp [hf] at h).symm

private theorem halfOpens_after_cooldown (calls : List BreakerCall) (c : BreakerCall)
    (ho : (circuitAfter config calls k).state = .opened)
    (hh : (circuitAfter config (calls ++ [c]) k).state = .halfOpen) :
    ∃ now providers openedAt, c = .assess now k.1 providers ∧ k.2 ∈ providers ∧
      (circuitAfter config calls k).openedAt = some openedAt ∧
      config.cooldown ≤ now - openedAt := by
  have move := circuitAfter_transition config calls c k
  generalize circuitAfter config (calls ++ [c]) k = circuit' at move hh
  cases move with
  | success => cases hh
  | probeFailed => cases hh
  | tripped => cases hh
  | counted =>
    rw [ho] at hh
    cases hh
  | @halfOpened now providers ha hp hr =>
    simp only [recovering, Bool.and_eq_true, Option.any_eq_true, decide_eq_true_eq] at hr
    obtain ⟨_, openedAt, hat, hcool⟩ := hr
    exact ⟨now, providers, openedAt, ha, hp, hat, hcool⟩
  | same =>
    rw [ho] at hh
    cases hh

private theorem reopens_on_fault (calls : List BreakerCall) (c : BreakerCall)
    (hh : (circuitAfter config calls k).state = .halfOpen) (hf : c.faults k = true) :
    (circuitAfter config (calls ++ [c]) k).state = .opened ∧
      (circuitAfter config (calls ++ [c]) k).openedAt = some c.now := by
  have move := circuitAfter_transition config calls c k
  generalize circuitAfter config (calls ++ [c]) k = circuit' at move
  cases move with
  | success hs =>
    rw [not_succeeds hf] at hs
    cases hs
  | probeFailed => exact ⟨rfl, rfl⟩
  | tripped => exact ⟨rfl, rfl⟩
  | counted _ hne => exact absurd hh hne
  | halfOpened ha =>
    subst ha
    cases hf
  | same _ hnf =>
    rw [hf] at hnf
    cases hnf

/-- The breaker meets its specification after every history, at every key. -/
theorem breaker_meets_spec (config : CircuitBreakerConfig) (calls : List BreakerCall)
    (k : CircuitKey) : BreakerSpec config calls k where
  isolated := ⟨(reports_filter calls rfl).1,
    congrArg (fun entry : Option Circuit => entry.getD {}) (reports_filter calls rfl).2⟩
  counts := (circuitAfter_tracks config k calls).closed
  opens hc c := opens_at_threshold calls c hc
  dated hne := ((circuitAfter_tracks config k calls).dated hne).symm
  halfOpens ho c hh := halfOpens_after_cooldown calls c ho hh
  reopens hh c hf := reopens_on_fault calls c hh hf
  ignores now org provider result hok hnf := by
    rw [InMemoryCircuitBreaker.after_concat]
    have unclassified : ¬ result.errorCategory.any transient = true := by
      simpa [fault, hok] using hnf
    simp [InMemoryCircuitBreaker.call, InMemoryCircuitBreaker.observe, observeEntry, hok,
      unclassified]

end LlmGateway.Health
