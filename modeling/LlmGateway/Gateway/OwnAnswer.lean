import LlmGateway.Gateway.Steps
import LlmGateway.Lib.Text

/-! Whose answer a caller gets: its own, as long as no call joins an operation that was started
for something else. -/
namespace LlmGateway.Gateway
open Lib.ReadCommitted Ledger Accounting Execution
open Ledger.Sql hiding reserve settle release

/-- What an ending gives the callers of the operation; nothing when it raises. -/
def Ending.result : Ending → Option InferenceExecutionResult
  | .delivered response _ detail =>
    some { outcome := .executed, response := response, cost := some detail }
  | .refused result => some result
  | .raised _ => none

section
variable {pg : Postgres} {κ : Type} [DecidableEq κ] (env : Setting κ) (s : State pg κ)

/-- What a caller has been given. -/
def State.result (caller : Caller) : Option InferenceExecutionResult :=
  match caller.waiting with
  | .returned (.cache entry) =>
    some { outcome := .cacheHit
           response := { ok := true, content := entry.response.content,
                         provider := entry.response.provider } }
  | .returned (.operation o) =>
    match s.operations[o]? with
    | some ⟨_, _, .ended ending⟩ => ending.result
    | _ => none
  | _ => none

/-- The content was produced by a provider, or stored in a cache entry, for exactly what the
caller asked. -/
def State.Answers (caller : Caller) (content : Option Content) : Prop :=
  (∃ response, (caller.request.asked, response) ∈ s.produced ∧ response.ok = true ∧
    response.content = content) ∨
  (∃ entry, caller.waiting = .returned (.cache entry) ∧ entry.asked = caller.request.asked ∧
    entry.response.content = content)

/-- A unary call that misses the cache while an operation is in flight under its id asks for what
that operation was started for. -/
def JoinsOwn : Action pg → Prop
  | .lookup c available => ∀ caller ∈ s.callers[c]?, caller.streamed = false →
      s.hit env caller available = none → ∀ o ∈ s.inFlight caller.request.correlationId,
      ∀ op ∈ s.operations[o]?, op.request.asked = caller.request.asked
  | _ => True

instance : (a : Action pg) → Decidable (JoinsOwn env s a)
  | .lookup c available => inferInstanceAs (Decidable (∀ caller ∈ s.callers[c]?,
      caller.streamed = false → s.hit env caller available = none →
      ∀ o ∈ s.inFlight caller.request.correlationId, ∀ op ∈ s.operations[o]?,
      op.request.asked = caller.request.asked))
  | .arrive .. | .operate .. | .forget _ | .collect _ | .ledger _ | .elsewhere .. => .isTrue trivial

end

/-- An ending with an ok response has it from a provider. -/
def Ending.Sourced (produced : List (Asked × ProviderResponse)) (asked : Asked) : Ending → Prop
  | .delivered response _ _ => (asked, response) ∈ produced ∧ response.ok = true
  | .refused result => result.response.ok = false
  | .raised _ => True

def Phase.Sourced (produced : List (Asked × ProviderResponse)) (asked : Asked) : Phase → Prop
  | .settling response _ _ | .storing response _ _ =>
    (asked, response) ∈ produced ∧ response.ok = true
  | .releasing ending | .ended ending => ending.Sourced produced asked
  | _ => True

variable {κ : Type} {env : Setting κ} {op : Operation} {produced : List (Asked × ProviderResponse)}

theorem Ending.Sourced.mono {asked : Asked} {ending : Ending} (h : ending.Sourced produced asked)
    (more : List (Asked × ProviderResponse)) : ending.Sourced (produced ++ more) asked := by
  cases ending with
  | delivered response _ _ => exact ⟨List.mem_append_left _ h.1, h.2⟩
  | refused result => exact h
  | raised e => trivial

theorem Phase.Sourced.mono {asked : Asked} {phase : Phase} (h : phase.Sourced produced asked)
    (more : List (Asked × ProviderResponse)) : phase.Sourced (produced ++ more) asked := by
  cases phase with
  | settling => exact ⟨List.mem_append_left _ h.1, h.2⟩
  | storing => exact ⟨List.mem_append_left _ h.1, h.2⟩
  | releasing => exact Ending.Sourced.mono h more
  | ended => exact Ending.Sourced.mono h more
  | _ => trivial

private theorem denied_not_ok (r : ReservationResult) : (denied r).response.ok = false := by
  unfold denied
  cases r.outcome <;> rfl

private theorem unaccounted_not_ok (response : ProviderResponse) :
    (op.unaccounted response).response.ok = false := by
  unfold Operation.unaccounted
  dsimp only
  split_ifs <;> rfl

private theorem estimate_sourced (price : PriceLookup) :
    (op.estimate env price).phase.Sourced produced op.request.asked := by
  unfold Operation.estimate
  split
  · trivial
  · rfl
  · split
    · dsimp only
      split_ifs
      · rfl
      · trivial
    · trivial

private theorem afterReserve_sourced (e : Money) (answer : Answer) :
    (op.afterReserve env e answer).phase.Sourced produced op.request.asked := by
  unfold Operation.afterReserve
  split
  · trivial
  · dsimp only
    split_ifs
    · trivial
    · exact denied_not_ok _

private theorem accountFor_sourced {response : ProviderResponse} (price : PriceLookup)
    (h : (op.request.asked, response) ∈ produced) :
    (op.accountFor env response price).phase.Sourced produced op.request.asked := by
  unfold Operation.accountFor
  cases hok : response.ok with
  | false =>
    simp only [Bool.not_false, if_true]
    exact hok
  | true =>
    simp only [Bool.not_true, Bool.false_eq_true, if_false]
    split
    · exact ⟨h, hok⟩
    · split_ifs
      · exact unaccounted_not_ok _
      · trivial
      · trivial

private theorem afterSettle_sourced {response : ProviderResponse} (price : PriceLookup)
    (detail : SettlementDetail) (answer : Answer)
    (h : (op.request.asked, response) ∈ produced ∧ response.ok = true) :
    (op.afterSettle env response price detail answer).phase.Sourced produced op.request.asked := by
  unfold Operation.afterSettle
  split
  · exact h
  · split_ifs
    · trivial
    · exact unaccounted_not_ok _
    · trivial

private theorem afterRelease_sourced {ending : Ending} (answer : Answer)
    (h : ending.Sourced produced op.request.asked) :
    (op.afterRelease ending answer).phase.Sourced produced op.request.asked := by
  unfold Operation.afterRelease
  split
  · exact h
  · dsimp only
    split_ifs
    · exact h
    · trivial

/-- An operation's move keeps its ok response sourced. -/
theorem Operation.move_sourced {answers : LedgerUse → Option Answer} {event : Event} {move : Move}
    (hm : op.move env answers event = some move)
    (h : op.phase.Sourced produced op.request.asked) :
    move.phase.Sourced (produced ++ (move.produced.map (op.request.asked, ·)).toList)
      op.request.asked := by
  unfold Operation.move at hm
  split at hm
  next => cases hm; trivial
  next =>
    obtain ⟨_, _, rfl⟩ := Option.map_eq_some_iff.mp hm
    exact (estimate_sourced _).mono _
  next =>
    obtain ⟨_, _, rfl⟩ := Option.map_eq_some_iff.mp hm
    exact (afterReserve_sourced _ _).mono _
  next =>
    split_ifs at hm
    cases hm
    trivial
  next =>
    cases hm
    exact accountFor_sourced _ (by simp)
  next hphase =>
    obtain ⟨_, _, rfl⟩ := Option.map_eq_some_iff.mp hm
    rw [hphase] at h
    exact (afterSettle_sourced _ _ _ h).mono _
  next hphase =>
    obtain ⟨_, _, rfl⟩ := Option.map_eq_some_iff.mp hm
    rw [hphase] at h
    exact (afterRelease_sourced _ h).mono _
  next hphase =>
    cases hm
    rw [hphase] at h
    exact ⟨List.mem_append_left _ h.1, h.2⟩
  next => cases hm

section Key

/-- Without collisions of the digest, a key belongs to one provider, model and payload. -/
theorem computeCacheKey_injective (inj : Function.Injective env.sha256) :
    Function.Injective (computeCacheKey env) := by
  intro a b h
  have text := congrArg String.toList (inj h)
  simp only [String.toList_append, List.append_assoc] at text
  have tail := List.append_cancel_left text
  obtain ⟨hname, rest⟩ := Lib.append_separator_inj a.nulFree.1 b.nulFree.1 (List.append_cancel_left tail)
  obtain ⟨hmodel, hpayload⟩ := Lib.append_separator_inj a.nulFree.2 b.nulFree.2 rest
  obtain ⟨⟨name, model⟩, payload, _⟩ := a
  obtain ⟨⟨name', model'⟩, payload', _⟩ := b
  cases String.toList_injective hname
  cases String.toList_injective hmodel
  cases String.toList_injective hpayload
  rfl

end Key

section Invariant
variable {pg : Postgres} [DecidableEq κ] {s s' : State pg κ}

/-- What is known of a caller's result before it is asked for. -/
def Given (operations : List Operation) (caller : Caller) : Prop :=
  match caller.waiting with
  | .looking => True
  | .returned (.cache entry) => entry.asked = caller.request.asked
  | .awaiting o | .returned (.operation o) =>
    ∃ op, operations[o]? = some op ∧ op.request.asked = caller.request.asked

variable (env) in
/-- Entries lie under the key of what they were stored for, ok responses come from providers, and
callers wait for operations that ask what they ask. -/
structure Sound (s : State pg κ) : Prop where
  cached : ∀ k entry, s.cache k = some entry → computeCacheKey env entry.asked = k
  known : ∀ id o, s.inFlight id = some o → o < s.operations.length
  sourced : ∀ (o : OpId) (op : Operation), s.operations[o]? = some op →
    op.phase.Sourced s.produced op.request.asked
  given : ∀ (c : CallId) (caller : Caller), s.callers[c]? = some caller →
    Given s.operations caller

private theorem Given.mono {operations operations' : List Operation} {caller : Caller}
    (keep : ∀ (o : OpId) (op : Operation), operations[o]? = some op →
      ∃ op', operations'[o]? = some op' ∧ op'.request = op.request)
    (h : Given operations caller) : Given operations' caller := by
  unfold Given at h ⊢
  split at h
  next => trivial
  next => exact h
  all_goals
    obtain ⟨op, ho, hasked⟩ := h
    obtain ⟨op', ho', hreq⟩ := keep _ op ho
    exact ⟨op', ho', by rw [hreq, hasked]⟩

private theorem Given.append {operations : List Operation} {caller : Caller} (op : Operation)
    (h : Given operations caller) : Given (operations ++ [op]) caller :=
  h.mono fun o op' ho => ⟨op', by rw [List.getElem?_append_left
    (List.getElem?_eq_some_iff.mp ho).1, ho], rfl⟩

omit [DecidableEq κ] in
/-- A change to one caller leaves what the others are known to get. -/
private theorem given_setWaiting {operations : List Operation} {c : CallId} {waiting : Waiting}
    (h : ∀ (c' : CallId) (caller : Caller), s.callers[c']? = some caller →
      Given operations caller)
    (own : ∀ caller, s.callers[c]? = some caller →
      Given operations { caller with waiting := waiting }) (c' : CallId) (caller : Caller)
    (hc : (s.setWaiting c waiting).callers[c']? = some caller) : Given operations caller := by
  rw [State.setWaiting_callers] at hc
  obtain ⟨before, hb, rfl⟩ := Option.map_eq_some_iff.mp hc
  split_ifs with hcc
  · subst hcc
    exact own before hb
  · exact h c' before hb

omit [DecidableEq κ] in
private theorem hit_cached {caller : Caller} {available : Bool} {entry : Entry}
    (h : s.hit env caller available = some entry) :
    s.cache (computeCacheKey env caller.request.asked) = some entry := by
  unfold State.hit at h
  split_ifs at h
  exact (Option.filter_eq_some_iff.mp h).1

omit [DecidableEq κ] in
private theorem Sound.launch (h : Sound env s) {c : CallId} {caller : Caller}
    (hc : s.callers[c]? = some caller) : Sound env (s.launch c caller) where
  cached := h.cached
  known id o ho := (h.known id o ho).trans_le (by simp [State.launch])
  sourced o op ho := by
    rcases getElem?_append_new ho with ⟨_, rfl⟩ | ho
    · trivial
    · exact h.sourced o op ho
  given := given_setWaiting (fun c' caller' hc' => (h.given c' caller' hc').append _)
    fun caller' hc' => by
      cases Option.some.inj (hc.symm.trans hc')
      exact ⟨_, List.getElem?_concat_length, rfl⟩

/-- A cache whose entry under a key is stored for what the key belongs to. -/
private theorem cached_update {cache : κ → Option Entry}
    (h : ∀ k entry, cache k = some entry → computeCacheKey env entry.asked = k) (asked : Asked)
    (response : Option CachedResponse) (k : κ) (entry : Entry)
    (hk : Function.update cache (computeCacheKey env asked) (response.map (⟨·, asked⟩)) k =
      some entry) : computeCacheKey env entry.asked = k := by
  by_cases heq : k = computeCacheKey env asked
  · rw [heq, Function.update_self] at hk
    obtain ⟨_, _, rfl⟩ := Option.map_eq_some_iff.mp hk
    exact heq.symm
  · rw [Function.update_of_ne heq] at hk
    exact h k entry hk

private theorem Sound.operate (h : Sound env s) {o : OpId} {op : Operation} {event : Event}
    {move : Move} (ho : s.operations[o]? = some op)
    (hm : op.move env (s.answers o) event = some move)
    (ha : s.apply env o op move = some s') : Sound env s' := by
  obtain ⟨_, hs⟩ := State.apply_eq_some ha
  rw [hs]
  refine ⟨?_, fun id o' hi => by simpa using h.known id o' hi, fun o' op' ho' => ?_,
    fun c caller hc => (h.given c caller hc).mono fun o' op' ho' => ?_⟩
  · cases move.stores with
    | none => exact h.cached
    | some response => exact cached_update h.cached op.request.asked (some response)
  · rcases getElem?_set_phase ho ho' with ⟨rfl, rfl⟩ | ⟨_, ho'⟩
    · exact Operation.move_sourced hm (h.sourced _ _ ho)
    · exact (h.sourced _ _ ho').mono _
  · by_cases heq : o' = o
    · subst heq
      cases Option.some.inj (ho.symm.trans ho')
      exact ⟨_, List.getElem?_set_self (List.getElem?_eq_some_iff.mp ho).1, rfl⟩
    · exact ⟨op', by rw [List.getElem?_set_ne (Ne.symm heq), ho'], rfl⟩

/-- One step. -/
theorem Sound.step (inj : Function.Injective env.sha256) {a : Action pg} (own : JoinsOwn env s a)
    (hs : s.step env a = some s') (h : Sound env s) : Sound env s' := by
  cases State.step_cases hs with
  | arrive =>
    refine ⟨h.cached, h.known, h.sourced, fun c caller hc => ?_⟩
    rcases getElem?_append_new hc with ⟨_, rfl⟩ | hc
    · trivial
    · exact h.given c caller hc
  | hit hc hw hh =>
    refine ⟨h.cached, h.known, h.sourced, given_setWaiting h.given fun caller hc' => ?_⟩
    cases Option.some.inj (hc.symm.trans hc')
    exact computeCacheKey_injective inj (h.cached _ _ (hit_cached hh))
  | stream hc => exact h.launch hc
  | join hc hw hh hunary ho =>
    refine ⟨h.cached, h.known, h.sourced, given_setWaiting h.given fun caller hc' => ?_⟩
    cases Option.some.inj (hc.symm.trans hc')
    have hop := List.getElem?_eq_getElem (h.known _ _ ho)
    exact ⟨_, hop, own _ hc hunary hh _ ho _ hop⟩
  | @begin _ _ caller hc =>
    obtain ⟨cached, known, sourced, given⟩ := h.launch hc
    refine ⟨cached, fun id o hi => ?_, sourced, given⟩
    dsimp only at hi ⊢
    by_cases heq : id = caller.request.correlationId
    · rw [heq, Function.update_self] at hi
      cases hi
      simp [State.launch]
    · rw [Function.update_of_ne heq] at hi
      exact known id o hi
  | operate ho hm ha => exact h.operate ho hm ha
  | forget hf => exact ⟨h.cached, fun id o hi => h.known id o (hf id o hi), h.sourced, h.given⟩
  | collect hc hw ho he =>
    refine ⟨h.cached, h.known, h.sourced, given_setWaiting h.given fun caller hc' => ?_⟩
    cases Option.some.inj (hc.symm.trans hc')
    have := h.given _ _ hc
    rw [Given, hw] at this
    exact this
  | ledger hb hl => exact ⟨h.cached, h.known, h.sourced, h.given⟩
  | elsewhere => exact ⟨cached_update h.cached _ _, h.known, h.sourced, h.given⟩

omit [DecidableEq κ] in
private theorem Sound.answers (h : Sound env s) {c : CallId} {caller : Caller}
    {result : InferenceExecutionResult} (hc : s.callers[c]? = some caller)
    (hr : s.result caller = some result) (hok : result.response.ok = true) :
    s.Answers caller result.response.content := by
  have given := h.given c caller hc
  unfold State.result at hr
  split at hr
  next entry hw =>
    cases hr
    rw [Given, hw] at given
    exact .inr ⟨entry, hw, given, rfl⟩
  next o hw =>
    rw [Given, hw] at given
    obtain ⟨op, ho, hasked⟩ := given
    split at hr
    next request streamed ending hop =>
      cases Option.some.inj (ho.symm.trans hop)
      have sourced := h.sourced o _ ho
      cases ending with
      | delivered response price detail =>
        cases hr
        exact .inl ⟨response, hasked ▸ sourced.1, sourced.2, rfl⟩
      | refused result' =>
        cases hr
        exact absurd hok (by rw [show result.response.ok = false from sourced]; decide)
      | raised e => cases hr
    next => cases hr
  next => cases hr

end Invariant

/-- In every run in which calls join only operations started for what they ask themselves, every
ok response a caller gets was produced by a provider, or stored in the cache, for exactly its
provider, model and payload. -/
theorem callers_get_own_answers {pg : Postgres} {κ : Type} [DecidableEq κ] (env : Setting κ)
    (inj : Function.Injective env.sha256) (T : Tables (schema pg)) (now : Timestamp)
    (cache : κ → Option Entry)
    (stored : ∀ k entry, cache k = some entry → computeCacheKey env entry.asked = k)
    (as : List (Action pg)) (s : State pg κ)
    (own : (State.initial T now cache).Along env (JoinsOwn env) as)
    (run : (State.initial T now cache).run env as = some s) (c : CallId) (caller : Caller)
    (hc : s.callers[c]? = some caller) (result : InferenceExecutionResult)
    (hr : s.result caller = some result) (hok : result.response.ok = true) :
    s.Answers caller result.response.content := by
  have initial : Sound env (State.initial T now cache) :=
    { cached := stored
      known := fun _ _ h => (by cases h)
      sourced := fun _ _ h => (by cases h)
      given := fun _ _ h => (by cases h) }
  have sound : Sound env s := State.run_rule (Sound.step inj) initial own run
  exact sound.answers hc hr hok

/-- A deployment whose digest is the text itself. -/
def plain : Setting String := ⟨1, asciiStr, id⟩

def usd : PriceLookup := .price ⟨1 / 1000, 2 / 1000, "USD"⟩

def asking (correlationId payload : String) : InferenceRequest :=
  ⟨correlationId, ⟨⟨"openai", "gpt-4o"⟩, payload, by decide⟩, 40⟩

def answering (content : String) : ProviderResponse :=
  { ok := true, content := some (.text content), provider := "openai", usage := some ⟨9, 4⟩ }

/-- An operation from its start to its end, undisturbed, with `held` statements of its reserve and
`booked` of its settlement. -/
def exchange (o : OpId) (content : String) (held booked : Nat) : List (Action contended) :=
  [.operate o (.start 0)] ++ statements o .reclaim 2 ++ [.operate o (.reclaimed usd)] ++
    statements o .reserve held ++ [.operate o .reserved, .operate o (.respond (answering content) usd)] ++
    statements o .settle booked ++ [.operate o .settled, .operate o (.stored true)]

/-- Two calls under one id that overlap. -/
def overlapping (payload payload' : String) : List (Action contended) :=
  [.arrive (asking "x#1" payload) false, .arrive (asking "x#1" payload') false,
    .lookup 0 true, .lookup 1 true] ++ exchange 0 "answer" 6 5 ++ [.collect 0, .collect 1]

def opening : OrgBudget := ⟨10 ^ 9, "USD", 0, 0⟩

def budgeted : State contended String :=
  .initial (configured contended 1 opening) 0 fun _ => none

/-- A duplicate that joins the first call gets the answer both asked for. -/
theorem callers_get_own_answers_duplicate :
    ∃ s, budgeted.run plain (overlapping "payload" "payload") = some s ∧
      ∃ caller ∈ s.callers[1]?, ∃ result ∈ s.result caller, result.response.ok = true ∧
        s.Answers caller result.response.content := by
  have ran : ((budgeted.run plain (overlapping "payload" "payload")).any fun s =>
      (s.callers[1]?.bind s.result).any fun result => result.response.ok) = true := by
    decide +kernel
  obtain ⟨s, hs, hany⟩ := Option.any_eq_true _ _ |>.mp ran
  obtain ⟨result, hresult, hok⟩ := Option.any_eq_true _ _ |>.mp hany
  obtain ⟨caller, hc, hr⟩ := Option.bind_eq_some_iff.mp hresult
  exact ⟨s, hs, caller, hc, result, hr, hok, callers_get_own_answers plain (fun _ _ h => h)
    (configured contended 1 opening) 0 (fun _ => none) (fun _ _ h => nomatch h) _ s
    (by decide +kernel) hs 1 caller hc result hr hok⟩

/-- Another payload under the id of a call in flight: the second caller gets the first one's
answer. -/
theorem joiner_gets_another_answer :
    ¬ ∀ (s : State contended String),
      budgeted.run plain (overlapping "payload" "another payload") = some s →
      ∀ (c : CallId) (caller : Caller), s.callers[c]? = some caller →
      ∀ result, s.result caller = some result → result.response.ok = true →
      s.Answers caller result.response.content := by
  intro claim
  have ran : ((budgeted.run plain (overlapping "payload" "another payload")).any fun s =>
      s.callers[1]?.any fun caller => (s.result caller).any (fun result => result.response.ok) &&
        (decide (caller.waiting = .returned (.operation 0)) &&
          s.produced.all fun p => decide (p.1 ≠ caller.request.asked))) = true := by
    decide +kernel
  obtain ⟨s, hs, hany⟩ := Option.any_eq_true _ _ |>.mp ran
  obtain ⟨caller, hc, hcaller⟩ := Option.any_eq_true _ _ |>.mp hany
  simp only [Bool.and_eq_true, decide_eq_true_eq, List.all_eq_true] at hcaller
  obtain ⟨hresult, hw, hproduced⟩ := hcaller
  obtain ⟨result, hr, hok⟩ := Option.any_eq_true _ _ |>.mp hresult
  rcases claim s hs 1 caller hc result hr hok with ⟨response, hm, _⟩ | ⟨entry, he, _⟩
  · exact hproduced _ hm rfl
  · rw [hw] at he
    cases he

end LlmGateway.Gateway
