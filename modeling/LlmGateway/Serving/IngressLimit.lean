import LlmGateway.Serving.IngressSafe

/-! How often the service is called for a tenant, in every interleaving, with the token bucket in memory. -/
namespace LlmGateway.Serving
open Lib Auth
open RateLimit (RateLimitPolicy Bucket tokenBucketRateLimiter)
open Reflection (ReflectionResult)
open Streaming (StreamSession)

/-- What the limiter's clock reads. -/
def readings (steps : List IngressStep) : List ℚ :=
  steps.filterMap fun
    | .advance _ (.acquire now) => some now
    | _ => none

section
variable {W ρ E : Type} (policy : RateLimitPolicy)

/-- The limiter is where its decisions took it. -/
structure Metered (steps : List IngressStep) (s : Ingress (Uuid → Option Bucket) W ρ E) : Prop where
  decided : (tokenBucketRateLimiter policy).run (fun _ => none) (s.acquired.map fun a => (a.2.1, a.2.2.1)) =
    (s.limiter, s.acquired.map Prod.snd)
  times : (s.acquired.map (·.2.2.1)).Sublist (readings steps)

variable {policy} {app : Application (Uuid → Option Bucket) W ρ E} {steps : List IngressStep}
  {s s' : Ingress (Uuid → Option Bucket) W ρ E} {c : Nat} {connection : Connection W ρ E}

/-- A step that does not ask the limiter. -/
theorem Metered.kept (metered : Metered policy steps s) (a : IngressStep) (limiter : s'.limiter = s.limiter)
    (acquired : s'.acquired = s.acquired) : Metered policy (steps ++ [a]) s' where
  decided := by rw [acquired, limiter, metered.decided]
  times := by
    rw [acquired, readings, List.filterMap_append]
    exact metered.times.trans (List.sublist_append_left _ _)

theorem Metered.acquire (metered : Metered policy steps s) (limited : app.limiter = inMemoryLimiter policy)
    (principal : ScopedPrincipal) (now : ℚ) :
    Metered policy (steps ++ [.advance c (.acquire now)]) (s.acquire app c connection principal now) := by
  have ran := (tokenBucketRateLimiter policy).run_concat (fun _ => none) (s.acquired.map fun a => (a.2.1, a.2.2.1))
    (principal.organizationId, now)
  rw [metered.decided] at ran
  generalize hb : ((tokenBucketRateLimiter policy).step s.limiter (principal.organizationId, now)).1 = buckets at ran
  generalize hd : ((tokenBucketRateLimiter policy).step s.limiter (principal.organizationId, now)).2.2.2 = decision
  have acquires : (inMemoryLimiter policy).acquire s.limiter principal.organizationId now = (buckets, some decision) :=
    hb ▸ hd ▸ rfl
  have decided : (tokenBucketRateLimiter policy).run (fun _ => none)
      ((s.acquired ++ [(c, principal.organizationId, now, decision)]).map fun a => (a.2.1, a.2.2.1)) =
        (buckets, (s.acquired ++ [(c, principal.organizationId, now, decision)]).map Prod.snd) := by
    rw [List.map_append, List.map_append, ← hd]
    exact ran
  have times : ((s.acquired ++ [(c, principal.organizationId, now, decision)]).map (·.2.2.1)).Sublist
      (readings (steps ++ [.advance c (.acquire now)])) := by
    rw [List.map_append, readings, List.filterMap_append]
    exact metered.times.append_right _
  simp only [Ingress.acquire, limited, acquires]
  split
  · exact ⟨decided, times⟩
  · exact ⟨decided, times⟩

theorem Metered.step (metered : Metered policy steps s) (limited : app.limiter = inMemoryLimiter policy)
    (a : IngressStep) : Metered policy (steps ++ [a]) (s.step app a) := by
  cases a with
  | arrive c request =>
    unfold Ingress.step
    dsimp only
    split
    · exact metered.kept _ rfl rfl
    · exact metered.kept _ rfl rfl
  | advance c how =>
    unfold Ingress.step
    dsimp only
    split
    · next connection _ =>
      unfold Ingress.advance
      split
      · next credentials _ =>
        unfold Ingress.authenticate
        generalize AuthenticationMiddleware (app.authenticate credentials) connection.request = made
        obtain ⟨authenticated, audit⟩ := made
        cases authenticated <;> exact metered.kept _ rfl rfl
      · next now principal _ => exact metered.acquire limited principal now
      · unfold Ingress.route
        split <;> exact metered.kept _ rfl rfl
      · next rest _ => cases rest <;> exact metered.kept _ rfl rfl
      · exact metered.kept _ rfl rfl
    · exact metered.kept _ rfl rfl

theorem Metered.run (metered : Metered policy steps s) (limited : app.limiter = inMemoryLimiter policy)
    (as : List IngressStep) : Metered policy (steps ++ as) (s.run app as) := by
  induction as generalizing steps s with
  | nil => exact (List.append_nil steps).symm ▸ metered
  | cons a as ih =>
    have rest := ih (metered.step limited a)
    rwa [List.append_assoc, List.singleton_append] at rest

/-- The decisions for a tenant in a window are as many as the limiter allows. -/
theorem Metered.acquired_le (metered : Metered policy steps s) (clock : (readings steps).Pairwise (· ≤ ·))
    (organizationId : Uuid) {from_ until_ : ℚ} (window : from_ ≤ until_) :
    (s.acquired.countP (fun a => decide (a.2.1 = organizationId ∧ from_ ≤ a.2.2.1 ∧ a.2.2.1 ≤ until_) &&
        a.2.2.2.allowed) : ℚ) ≤ policy.burst + policy.requestsPerSecond * (until_ - from_) := by
  have own : RateLimit.allowedWithin from_ until_ (Machine.ofKey organizationId (s.acquired.map Prod.snd)) =
      s.acquired.countP (fun a => decide (a.2.1 = organizationId ∧ from_ ≤ a.2.2.1 ∧ a.2.2.1 ≤ until_) &&
        a.2.2.2.allowed) := by
    rw [RateLimit.allowedWithin, Machine.ofKey, List.countP_map, List.countP_filter, List.countP_map]
    refine List.countP_congr fun a _ => ?_
    simp only [Function.comp_apply, Bool.and_eq_true, decide_eq_true_eq]
    tauto
  have answers := ((RateLimit.bucketMachine policy).keyed_run organizationId (fun _ => none)
    (s.acquired.map fun a => (a.2.1, a.2.2.1))).2
  rw [show (RateLimit.bucketMachine policy).keyed.run _ _ = _ from metered.decided] at answers
  rw [← own, answers]
  refine RateLimit.allowedWithin_le (fun _ h => by cases h) window ?_
  have asked : (Machine.ofKey organizationId (s.acquired.map fun a => (a.2.1, a.2.2.1))).Sublist
      (s.acquired.map (·.2.2.1)) := by
    rw [Machine.ofKey]
    refine (List.filter_sublist.map Prod.snd).trans ?_
    rw [List.map_map]
    exact List.Sublist.refl _
  exact (clock.sublist metered.times).sublist asked

/-- The calls given to the service are each allowed by a decision of its own. -/
theorem Proper.handled_le (proper : Proper app steps s) (q : Uuid → ℚ → Bool) :
    s.handled.countP (fun h => q h.principal.organizationId h.decidedAt) ≤
      s.acquired.countP fun a => q a.2.1 a.2.2.1 && a.2.2.2.allowed := by
  rw [List.countP_eq_length_filter, List.countP_eq_length_filter]
  have own : ((s.handled.filter fun h => q h.principal.organizationId h.decidedAt).map (·.connection)).Nodup :=
    proper.handledOnce.sublist (List.filter_sublist.map _)
  have decided : (s.handled.filter fun h => q h.principal.organizationId h.decidedAt).map (·.connection) ⊆
      (s.acquired.filter fun a => q a.2.1 a.2.2.1 && a.2.2.2.allowed).map Prod.fst := by
    intro c there
    obtain ⟨h, filtered, rfl⟩ := List.mem_map.mp there
    obtain ⟨handled, counted⟩ := List.mem_filter.mp filtered
    obtain ⟨_, decision, _, _, given, -⟩ := proper.handled h handled
    refine List.mem_map.mpr ⟨_, List.mem_filter.mpr ⟨given.decided, ?_⟩, rfl⟩
    exact Bool.and_eq_true_iff.mpr ⟨counted, given.allowed.2⟩
  have fewer := (List.subperm_of_subset own decided).length_le
  rwa [List.length_map, List.length_map] at fewer

end

/-- However requests interleave, where the limiter's clock does not go back, a tenant's requests that the limiter
decides in a window and that the service handles are no more than the burst and what the rate gives in that time. -/
theorem handled_within {W ρ E : Type} (policy : RateLimitPolicy) (app : Application (Uuid → Option Bucket) W ρ E)
    (limited : app.limiter = inMemoryLimiter policy) (w : W) (steps : List IngressStep)
    (clock : (readings steps).Pairwise (· ≤ ·)) (organizationId : Uuid) {from_ until_ : ℚ} (window : from_ ≤ until_) :
    ((({ limiter := fun _ => none, world := w } : Ingress _ W ρ E).run app steps).handled.countP (fun h =>
        h.call.context.organizationId = some organizationId ∧ from_ ≤ h.decidedAt ∧ h.decidedAt ≤ until_) : ℚ) ≤
      policy.burst + policy.requestsPerSecond * (until_ - from_) := by
  have start : Metered policy [] ({ limiter := fun _ => none, world := w } : Ingress _ W ρ E) := ⟨rfl, .slnil⟩
  have metered := start.run limited steps
  have proper := ((Sound.start app (fun _ => none) w).run steps).proper
  rw [List.nil_append] at metered proper
  refine le_trans (Nat.cast_le.mpr ?_) (metered.acquired_le clock organizationId window)
  have counted := proper.handled_le fun A now => decide (A = organizationId ∧ from_ ≤ now ∧ now ≤ until_)
  refine le_trans (le_of_eq ?_) counted
  refine List.countP_congr fun h there => ?_
  obtain ⟨_, _, _, _, given, -⟩ := proper.handled h there
  simp only [given.own, infer, Option.some.injEq]

/-- A token every two seconds and two at once; one API key is known, and the service counts what it executes. -/
def twoAtOnce : RateLimitPolicy := ⟨1 / 2, 2, by norm_num, by decide⟩

def countingDeployment : Deployment Nat Unit InferenceRequest ReflectionResult Unit StreamSession where
  resolver := ⟨fun _ _ => {"inference:invoke"}⟩
  policy := LocalPolicyEngine 1024
  routing := ⟨fun _ _ _ w => (w, .ok ())⟩
  execute := fun _ _ w => (w + 1, .error "RuntimeError")
  evaluate := fun _ _ _ w => (w, .ok ())
  openStream := fun _ _ w => (w + 1, .error "RuntimeError")

def countingApplication : Application (Uuid → Option Bucket) Nat Unit Unit where
  rlsEnabled := true
  limiter := inMemoryLimiter twoAtOnce
  deployment := countingDeployment
  handling := countingDeployment.handleSteps
  handling_alone := countingDeployment.handleSteps_alone

def knownKey : Credentials where
  apiKey key := if key = "elg_live_k" then .ok ⟨⟨.apiKey, 7, 1⟩, []⟩ else .error ⟨"invalid API key"⟩
  verify _ := .error (.tokenInvalid "invalid token")

def keyRequest (requestId : String) : HttpRequest :=
  ⟨requestId, some "Bearer elg_live_k", some { prompt := "hello", asked := by decide }⟩

/-- Three requests of one key that overlap: the first is decided last, and is one too many. -/
def threeRequests : List IngressStep :=
  [.arrive 0 (keyRequest "a"), .arrive 1 (keyRequest "b"), .arrive 2 (keyRequest "c"), .advance 0 (.authenticate knownKey),
    .advance 1 (.authenticate knownKey), .advance 2 (.authenticate knownKey), .advance 1 (.acquire 0), .advance 1 .route,
    .advance 1 .proceed, .advance 2 (.acquire 0), .advance 2 .route, .advance 2 .proceed, .advance 0 (.acquire 1),
    .advance 2 .proceed, .advance 1 .proceed, .advance 1 .proceed, .advance 2 .proceed]

theorem handled_within_three :
    ((({ limiter := fun _ => none, world := 0 } : Ingress _ Nat Unit Unit).run countingApplication threeRequests).handled.countP
        (fun h => h.call.context.organizationId = some 1 ∧ 0 ≤ h.decidedAt ∧ h.decidedAt ≤ 1) : ℚ) ≤
      twoAtOnce.burst + twoAtOnce.requestsPerSecond * (1 - 0) :=
  handled_within twoAtOnce countingApplication rfl 0 threeRequests
    (show ([0, 0, 1] : List ℚ).Pairwise (· ≤ ·) by norm_num) 1 (by norm_num)

end LlmGateway.Serving
