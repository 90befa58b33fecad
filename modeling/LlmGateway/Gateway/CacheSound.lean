import LlmGateway.Gateway.Books
import LlmGateway.Gateway.OwnAnswer
import LlmGateway.Gateway.TrafficSteps

/-! What the response cache holds under mixed traffic: the content of whole completions that were
paid for, each under the key of what its organization asked. -/
namespace LlmGateway.Gateway
open Lib.ReadCommitted Ledger Accounting Execution
open Ledger.Sql hiding reserve settle release

variable {pg : Postgres} {κ : Type}

def relayed (chunks : List String) : List ProviderOutput :=
  chunks.map fun content => .event (.chunk content)

/-- What the provider has sent is the whole of the completion `response`: a unary answer, or all the
chunks of a stream that ended in `StreamCompleted`. -/
def Completes (op : Operation) (outputs : List ProviderOutput) (response : ProviderResponse) :
    Prop :=
  match op.streamed with
  | false => outputs = [.response response]
  | true => ∃ chunks usage, outputs = relayed chunks ++ [.event (.completed usage)] ∧
      response = { ok := true, content := some (.text (String.join chunks)),
                   provider := op.request.asked.provider.name, usage := usage }

/-- The operation ran to its end, with a whole completion that was ok, reported usage and was
settled. -/
structure TenantOperation.Completed (t : TenantOperation) (settlement : LedgerSession pg)
    (response : ProviderResponse) : Prop where
  kept : t.abandoned = false
  delivered : ∃ price detail reply, t.operation.phase = .ended (.delivered response price detail) ∧
    settlement = .finished (.settle t.organizationId t.operation.request.correlationId detail)
      (.ok reply)
  ok : response.ok = true
  usage : ∃ usage, response.usage = some usage ∧ 0 ≤ usage.promptTokens ∧
    0 ≤ usage.completionTokens
  whole : Completes t.operation t.outputs response

/-- The cached response is the content of what operation `o` completed for exactly this
organization, provider, model and payload. -/
def Traffic.Completion (s : Traffic pg κ) (org : OrgId) (asked : Asked) (o : OpId)
    (cached : CachedResponse) : Prop :=
  ∃ t response, s.operations[o]? = some t ∧ t.organizationId = org ∧
    t.operation.request.asked = asked ∧
    t.Completed (s.ledger.sessions (Traffic.ownTxn o .settle)) response ∧
    cached = ⟨response.provider, asked.provider.model, response.content⟩

/-- What the provider has sent, by where the operation is. -/
def Heard (op : Operation) (outputs : List ProviderOutput) : Prop :=
  match op.phase with
  | .scheduled | .reclaiming | .reserving _ => outputs = []
  | .calling buffered => outputs = relayed buffered ∧ (op.streamed = false → buffered = [])
  | .settling response _ _ | .storing response _ _ | .ended (.delivered response _ _) =>
    response.ok = true ∧ Completes op outputs response
  | .releasing ending => ending.undelivered
  | .ended _ => True

section Move
variable {env : Setting κ} {op : Operation} {outputs : List ProviderOutput}

private theorem heard_ended {ending : Ending} (h : ending.undelivered) :
    Heard { op with phase := .ended ending } outputs := by
  cases ending with
  | delivered => exact h.elim
  | refused => trivial
  | raised => trivial

private theorem estimate_heard (price : PriceLookup) (h : outputs = []) :
    Heard { op with phase := (op.estimate env price).phase } outputs := by
  unfold Operation.estimate
  split
  · trivial
  · trivial
  · split
    · exact heard_ended (by split_ifs <;> trivial)
    · exact h

private theorem afterReserve_heard (e : Money) (answer : Answer) (h : outputs = []) :
    Heard { op with phase := (op.afterReserve env e answer).phase } outputs := by
  unfold Operation.afterReserve
  split
  · trivial
  · dsimp only
    split_ifs
    · exact ⟨h, fun _ => rfl⟩
    · trivial

private theorem accountFor_heard {response : ProviderResponse} (price : PriceLookup)
    (h : response.ok = true → Completes op outputs response) :
    Heard { op with phase := (op.accountFor env response price).phase } outputs := by
  unfold Operation.accountFor
  cases hok : response.ok with
  | false =>
    simp only [Bool.not_false, if_true]
    trivial
  | true =>
    simp only [Bool.not_true, Bool.false_eq_true, if_false]
    split
    · exact ⟨hok, h hok⟩
    · split_ifs <;> trivial

private theorem afterSettle_heard {response : ProviderResponse} (price : PriceLookup)
    (detail : SettlementDetail) (answer : Answer)
    (h : response.ok = true ∧ Completes op outputs response) :
    Heard { op with phase := (op.afterSettle env response price detail answer).phase } outputs := by
  unfold Operation.afterSettle
  split
  · exact h
  · split_ifs <;> trivial

private theorem afterRelease_heard {ending : Ending} (answer : Answer) (h : ending.undelivered) :
    Heard { op with phase := (op.afterRelease ending answer).phase } outputs := by
  unfold Operation.afterRelease
  split
  · exact heard_ended h
  · refine heard_ended ?_
    split_ifs
    · exact h
    · trivial

/-- The response an operation goes on with is the whole of what its provider has sent. -/
private theorem completed_completes {buffered : List String} {response : ProviderResponse}
    {more : List ProviderOutput} {price : PriceLookup}
    (h : outputs = relayed buffered ∧ (op.streamed = false → buffered = []))
    (told : (Event.respond response price).Told op.streamed more)
    (hok : (op.completed buffered response).ok = true) :
    Completes op (outputs ++ more) (op.completed buffered response) := by
  unfold Operation.completed at hok ⊢
  unfold Completes
  cases hs : op.streamed with
  | false =>
    rw [hs] at told
    rw [h.1, h.2 hs, if_neg (by simp)]
    exact told
  | true =>
    rw [hs] at told hok
    cases hr : response.ok with
    | false => simp [hr] at hok
    | true =>
      obtain ⟨usage, rfl, rfl⟩ := told hr
      exact ⟨buffered, usage, by rw [h.1], rfl⟩

/-- An operation's move keeps account of what its provider has sent. -/
theorem Operation.move_heard {answers : LedgerUse → Option Answer} {event : Event} {move : Move}
    {more : List ProviderOutput} (hm : op.move env answers event = some move)
    (told : event.Told op.streamed more) (h : Heard op outputs) :
    Heard { op with phase := move.phase } (outputs ++ more) := by
  unfold Operation.move at hm
  unfold Heard at h
  split at hm
  next hphase =>
    cases hm
    rw [hphase] at h
    rw [h, told]
    rfl
  next hphase =>
    obtain ⟨_, _, rfl⟩ := Option.map_eq_some_iff.mp hm
    rw [hphase] at h
    exact estimate_heard _ (by rw [h, told]; rfl)
  next hphase =>
    obtain ⟨_, _, rfl⟩ := Option.map_eq_some_iff.mp hm
    rw [hphase] at h
    exact afterReserve_heard _ _ (by rw [h, told]; rfl)
  next buffered content hphase =>
    split_ifs at hm with hs
    cases hm
    rw [hphase] at h
    refine ⟨?_, fun hu => by simp [hs] at hu⟩
    rw [h.1, told, relayed, relayed, List.map_append]
    rfl
  next buffered response price hphase =>
    cases hm
    rw [hphase] at h
    exact accountFor_heard price (completed_completes h told)
  next hphase =>
    obtain ⟨_, _, rfl⟩ := Option.map_eq_some_iff.mp hm
    rw [hphase] at h
    rw [told, List.append_nil]
    exact afterSettle_heard _ _ _ h
  next hphase =>
    obtain ⟨_, _, rfl⟩ := Option.map_eq_some_iff.mp hm
    rw [hphase] at h
    exact afterRelease_heard _ h
  next hphase =>
    cases hm
    rw [hphase] at h
    rw [told, List.append_nil]
    exact h
  next => cases hm

end Move

section Invariant
variable {d : Deployment κ} {s s' : Traffic pg κ}

/-- An operation and its settlement, with what its provider has sent. -/
structure TenantOperation.Sound (d : Deployment κ) (t : TenantOperation)
    (settlement : LedgerSession pg) : Prop where
  settles : SettleSession (d.setting t.organizationId) t.operation settlement
  heard : Heard t.operation t.outputs

theorem TenantOperation.Sound.completed {t : TenantOperation} {settlement : LedgerSession pg}
    {response : ProviderResponse} {price : PriceLookup} {detail : SettlementDetail}
    (h : t.Sound d settlement) (kept : t.abandoned = false)
    (hphase : t.operation.phase = .ended (.delivered response price detail)) :
    t.Completed settlement response := by
  obtain ⟨settles, heard⟩ := h
  unfold SettleSession at settles
  unfold Heard at heard
  rw [hphase] at settles heard
  obtain ⟨accounted, reply, hreply⟩ := settles
  exact ⟨kept, ⟨price, detail, reply, hphase, hreply⟩, heard.1, account_usage accounted, heard.2⟩

/-- Operations that are over and transactions that have finished stay as they are. -/
structure Traffic.Keeps (s s' : Traffic pg κ) : Prop where
  operations : ∀ (o : OpId) (t : TenantOperation), s.operations[o]? = some t → t.over = true →
    s'.operations[o]? = some t
  finished : ∀ u call answer, s.ledger.sessions u = .finished call answer →
    s'.ledger.sessions u = .finished call answer

theorem Traffic.Completion.keep {org : OrgId} {asked : Asked} {o : OpId} {cached : CachedResponse}
    (h : s.Completion org asked o cached) (keeps : s.Keeps s') :
    s'.Completion org asked o cached := by
  obtain ⟨t, response, ho, horg, hasked, completed, hcached⟩ := h
  obtain ⟨price, detail, reply, hphase, hsession⟩ := completed.delivered
  have hover : t.over = true := by simp [TenantOperation.over, hphase]
  exact ⟨t, response, keeps.operations o t ho hover, horg, hasked,
    ⟨completed.kept, ⟨price, detail, reply, hphase, keeps.finished _ _ _ hsession⟩, completed.ok,
      completed.usage, completed.whole⟩, hcached⟩

/-- The key belongs to what operation `o` completed, and this is its content. -/
def Traffic.Written (d : Deployment κ) (s : Traffic pg κ) (org : OrgId) (key : κ) (o : OpId)
    (cached : CachedResponse) : Prop :=
  ∃ asked, key = d.key org asked ∧ s.Completion org asked o cached

theorem Traffic.Written.keep {org : OrgId} {key : κ} {o : OpId} {cached : CachedResponse}
    (h : s.Written d org key o cached) (keeps : s.Keeps s') : s'.Written d org key o cached := by
  obtain ⟨asked, hkey, completion⟩ := h
  exact ⟨asked, hkey, completion.keep keeps⟩

/-- Every entry lies under the key of what its writer completed, and so did every entry that was
replayed. -/
structure CacheSound (d : Deployment κ) (s : Traffic pg κ) : Prop where
  idle : ∀ o : Nat, s.operations.length ≤ o →
    s.ledger.sessions (Traffic.ownTxn o .settle) = .idle
  operations : ∀ (o : OpId) (t : TenantOperation), s.operations[o]? = some t →
    t.Sound d (s.ledger.sessions (Traffic.ownTxn o .settle))
  cached : ∀ slot entry, s.cache.store slot = some entry →
    s.Written d slot.1 slot.2 (s.writers slot) entry.response
  replayed : ∀ (c : CallId) (caller : TenantCaller), s.callers[c]? = some caller →
    ∀ response writer, caller.served = .replayed response writer →
      s.Written d caller.organizationId (d.key caller.organizationId caller.request.asked) writer
        response

/-- An operation that was under way is replaced, and its ledger calls have gone on. -/
private theorem CacheSound.replace (h : CacheSound d s) {o : OpId} {t t' : TenantOperation}
    {ledger : LedgerState pg} (ho : s.operations[o]? = some t) (hover : t.over = false)
    (finished : ∀ u call answer, s.ledger.sessions u = .finished call answer →
      ledger.sessions u = .finished call answer)
    (others : ∀ o', o' ≠ o → ledger.sessions (Traffic.ownTxn o' .settle) =
      s.ledger.sessions (Traffic.ownTxn o' .settle))
    (own : t'.Sound d (ledger.sessions (Traffic.ownTxn o .settle))) :
    CacheSound d { s with ledger := ledger, operations := s.operations.set o t' } := by
  have keeps : s.Keeps { s with ledger := ledger, operations := s.operations.set o t' } := by
    refine ⟨fun o' t₀ ho' hover' => ?_, finished⟩
    have hne : o ≠ o' := fun heq => by
      rw [← heq, ho] at ho'
      cases ho'
      rw [hover] at hover'
      cases hover'
    rw [List.getElem?_set_ne hne, ho']
  refine ⟨fun o' hle => ?_, fun o' t₀ ho' => ?_, fun slot entry he => (h.cached slot entry he).keep keeps,
    fun c caller hc response writer hs => (h.replayed c caller hc response writer hs).keep keeps⟩
  · rw [List.length_set] at hle
    have hlt := (List.getElem?_eq_some_iff.mp ho).1
    rw [others o' (hlt.trans_le hle).ne']
    exact h.idle o' hle
  · rcases getElem?_set_new ho ho' with ⟨rfl, rfl⟩ | ⟨hne, ho'⟩
    · exact own
    · rw [others o' hne]
      exact h.operations o' t₀ ho'

/-- The ledger goes on. -/
private theorem CacheSound.ledger (h : CacheSound d s)
    {action : Lib.ReadCommitted.Action (schema pg) Call} {ledger : LedgerState pg}
    (hb : ∀ t call, action ≠ .begin t call)
    (hl : s.ledger.step (Sql.ledger pg) action = some ledger) :
    CacheSound d { s with ledger := ledger } := by
  have keeps : s.Keeps { s with ledger := ledger } :=
    ⟨fun _ _ ho _ => ho, fun _ _ _ hf => System.finished_of_step hl hf⟩
  refine ⟨fun o hle => ?_, fun o t ho => ?_, fun slot entry he => (h.cached slot entry he).keep keeps,
    fun c caller hc response writer hs => (h.replayed c caller hc response writer hs).keep keeps⟩
  · have idle := h.idle o hle
    rcases System.session_of_step hl hb (Traffic.ownTxn o .settle) with same | ⟨_, _, _, hr, _⟩
    · exact same.trans idle
    · cases hr.symm.trans idle
  · obtain ⟨settles, heard⟩ := h.operations o t ho
    refine ⟨settles.goes_on ?_, heard⟩
    rcases System.session_of_step hl hb (Traffic.ownTxn o .settle) with
      same | ⟨call, now, p, hr, on | ⟨_, answer, _, _, fin⟩ | ⟨answer, _, fin⟩ | fin⟩
    · exact .inl same
    · exact .inr ⟨call, now, p, hr, .inl on⟩
    · exact .inr ⟨call, now, p, hr, .inr ⟨answer, fin⟩⟩
    · exact .inr ⟨call, now, p, hr, .inr ⟨answer, fin⟩⟩
    · exact .inr ⟨call, now, p, hr, .inr ⟨_, fin⟩⟩

/-- A change to one caller, which may now have been given an entry. -/
private theorem CacheSound.setServed (h : CacheSound d s) {c : CallId} {served : Served}
    (own : ∀ caller, s.callers[c]? = some caller →
      ∀ response writer, served = .replayed response writer →
      s.Written d caller.organizationId (d.key caller.organizationId caller.request.asked) writer
        response) : CacheSound d (s.setServed c served) := by
  refine ⟨h.idle, h.operations, h.cached, fun c' caller hc response writer hs => ?_⟩
  rw [Traffic.setServed_callers] at hc
  obtain ⟨before, hb, rfl⟩ := Option.map_eq_some_iff.mp hc
  split_ifs at hs ⊢ with heq
  · subst heq
    exact own before hb response writer hs
  · exact h.replayed c' before hb response writer hs

private theorem CacheSound.launch (h : CacheSound d s) (c : CallId) (caller : TenantCaller)
    (inFlight : OrgId × CorrelationId → Option OpId) :
    CacheSound d { s.launch c caller with inFlight := inFlight } := by
  have waiting : CacheSound d (s.setServed c (.awaiting s.operations.length)) :=
    h.setServed fun _ _ _ _ hs => by cases hs
  have keeps : (s.setServed c (.awaiting s.operations.length)).Keeps
      { s.launch c caller with inFlight := inFlight } := by
    refine ⟨fun o t ho _ => ?_, fun _ _ _ hf => hf⟩
    exact (List.getElem?_append_left (List.getElem?_eq_some_iff.mp ho).1).trans ho
  refine ⟨fun o hle => h.idle o ?_, fun o t ho => ?_,
    fun slot entry he => (waiting.cached slot entry he).keep keeps,
    fun c caller hc response writer hs => (waiting.replayed c caller hc response writer hs).keep keeps⟩
  · simp only [Traffic.launch, List.length_append, List.length_singleton] at hle
    omega
  · rcases getElem?_append_new ho with ⟨rfl, rfl⟩ | ho
    · exact ⟨h.idle _ le_rfl, rfl⟩
    · exact h.operations o t ho

variable [DecidableEq κ]

private theorem CacheSound.put (h : CacheSound d s) {o : OpId} {t : TenantOperation}
    {response : CachedResponse} (now : Timestamp)
    (own : s.Completion t.organizationId t.operation.request.asked o response) :
    CacheSound d (s.put d o t now response) := by
  refine ⟨h.idle, h.operations, fun slot entry he => ?_, h.replayed⟩
  dsimp only [Traffic.put, InMemoryResponseCache.put] at he ⊢
  by_cases hs : slot = (t.organizationId, d.key t.organizationId t.operation.request.asked)
  · subst hs
    rw [Function.update_self] at he ⊢
    cases he
    exact ⟨t.operation.request.asked, rfl, own⟩
  · rw [Function.update_of_ne hs] at he ⊢
    exact h.cached slot entry he

omit [DecidableEq κ] in
private theorem settle_answered {o : OpId} {a : Answer} (h : s.answers o .settle = some a) :
    ∃ call, s.ledger.sessions (Traffic.ownTxn o .settle) = .finished call a := by
  unfold Traffic.answers at h
  split at h
  next call _ hs =>
    cases h
    exact ⟨call, hs⟩
  next => cases h

/-- What a transaction begun for operation `o` does to the settlements. -/
private theorem begin_settlements {l l' : LedgerState pg} {o : OpId} {use : LedgerUse} {call : Call}
    (hl : l.step (Sql.ledger pg) (.begin (Traffic.ownTxn o use) call) = some l') :
    (∀ o', o' ≠ o → l'.sessions (Traffic.ownTxn o' .settle) =
      l.sessions (Traffic.ownTxn o' .settle)) ∧
    (use = .settle → ∃ now p, l'.sessions (Traffic.ownTxn o .settle) = .running call now p) ∧
    (use ≠ .settle → l'.sessions (Traffic.ownTxn o .settle) =
      l.sessions (Traffic.ownTxn o .settle)) := by
  obtain ⟨_, own, other⟩ := begin_sessions hl
  refine ⟨fun o' hne => other _ _ fun heq => hne ?_, fun huse => ?_, fun huse => other _ _ fun heq =>
    huse heq.2.symm⟩
  · exact Nat.eq_of_mul_eq_mul_left Nat.two_pos heq.1
  · subst huse
    exact ⟨_, _, own⟩

private theorem exit_settlements {l l' : LedgerState pg} {o : OpId} {call : Call}
    (hl : l.step (Sql.ledger pg) (.begin (Traffic.exitTxn o) call) = some l') (o' : OpId) :
    l'.sessions (Traffic.ownTxn o' .settle) = l.sessions (Traffic.ownTxn o' .settle) :=
  (begin_sessions hl).2.2 _ _ fun heq => by cases heq.2

private theorem CacheSound.advance (h : CacheSound d s) {o : OpId} {t : TenantOperation}
    {event : Event} {outputs : List ProviderOutput} {now : Timestamp}
    (ho : s.operations[o]? = some t) (told : event.Told t.operation.streamed outputs)
    (ha : s.advance d o t event outputs now = some s') : CacheSound d s' := by
  obtain ⟨move, ledger, hover, hm, hl, rfl⟩ := Traffic.advance_eq_some ha
  obtain ⟨settles, heard⟩ := h.operations o t ho
  have kept : t.abandoned = false := (Bool.or_eq_false_iff.mp hover).1
  -- The ledger after the move: at most one transaction of this operation was begun.
  have sessions : (∀ u call answer, s.ledger.sessions u = .finished call answer →
        ledger.sessions u = .finished call answer) ∧
      (∀ o', o' ≠ o → ledger.sessions (Traffic.ownTxn o' .settle) =
        s.ledger.sessions (Traffic.ownTxn o' .settle)) ∧
      SettleSession (d.setting t.organizationId)
        { t.operation with phase := move.phase } (ledger.sessions (Traffic.ownTxn o .settle)) := by
    cases hcall : move.call with
    | none =>
      rw [hcall] at hl
      subst hl
      exact ⟨fun _ _ _ hf => hf, fun _ _ => rfl, Operation.move_settles hm settles
        (fun _ => settle_answered) (fun call hc => by rw [hcall] at hc; cases hc) fun _ => rfl⟩
    | some made =>
      obtain ⟨use, call⟩ := made
      rw [hcall] at hl
      obtain ⟨others, begun, same⟩ := begin_settlements hl
      refine ⟨fun _ _ _ hf => System.finished_of_step hl hf, others, Operation.move_settles hm settles
        (fun _ => settle_answered) (fun call' hc => ?_) fun hno => same fun huse => ?_⟩
      · rw [hcall] at hc
        cases hc
        exact begun rfl
      · exact hno call (by rw [hcall, huse])
  obtain ⟨finished, others, settles'⟩ := sessions
  have own : ({ t with
      operation := { t.operation with phase := move.phase }
      outputs := t.outputs ++ outputs } : TenantOperation).Sound d
        (ledger.sessions (Traffic.ownTxn o .settle)) :=
    ⟨settles', Operation.move_heard hm told heard⟩
  have moved := h.replace ho hover finished others own
  dsimp only
  cases hstores : move.stores with
  | none => exact moved
  | some stored =>
    obtain ⟨response, price, detail, hphase, rfl⟩ := Operation.move_stores hm hstores
    have hlt := (List.getElem?_eq_some_iff.mp ho).1
    exact moved.put now ⟨_, response, List.getElem?_set_self hlt, rfl, rfl,
      own.completed kept hphase, rfl⟩

omit [DecidableEq κ] in
private theorem CacheSound.abandon (h : CacheSound d s) {o : OpId} {t : TenantOperation}
    {releases : Bool} (ho : s.operations[o]? = some t)
    (ha : s.abandon o t releases = some s') : CacheSound d s' := by
  obtain ⟨ledger, hover, hl, rfl⟩ := Traffic.abandon_eq_some ha
  obtain ⟨settles, heard⟩ := h.operations o t ho
  rcases hl with rfl | ⟨call, hl⟩
  · exact h.replace ho hover (fun _ _ _ hf => hf) (fun _ _ => rfl) ⟨settles, heard⟩
  · refine h.replace ho hover (fun _ _ _ hf => System.finished_of_step hl hf)
      (fun o' _ => exit_settlements hl o') ⟨?_, heard⟩
    rw [exit_settlements hl o]
    exact settles

/-- One step. -/
theorem CacheSound.step {a : TrafficAction pg} (hs : s.step d a = some s') (h : CacheSound d s) :
    CacheSound d s' := by
  cases Traffic.step_cases hs with
  | arrive =>
    refine ⟨h.idle, h.operations, h.cached, fun c caller hc response writer hs => ?_⟩
    rcases getElem?_append_new hc with ⟨_, rfl⟩ | hc
    · cases hs
    · exact h.replayed c caller hc response writer hs
  | replay hc hh =>
    obtain ⟨entry, he, rfl⟩ := Traffic.hit_stored hh
    refine h.setServed fun caller hc' response writer hr => ?_
    cases Option.some.inj (hc.symm.trans hc')
    cases hr
    exact h.cached _ entry he
  | wait hw => exact h.setServed fun _ _ response writer hr => absurd hr (hw response writer)
  | launch => exact h.launch _ _ _
  | advance ho told ha => exact h.advance ho told ha
  | abandon ho ha => exact h.abandon ho ha
  | forget => exact ⟨h.idle, h.operations, h.cached, h.replayed⟩
  | ledger hb hl => exact h.ledger hb hl

omit [DecidableEq κ] in
theorem CacheSound.initial (T : Tables (schema pg)) (now : Timestamp) :
    CacheSound d (Traffic.initial T now) where
  idle _ _ := rfl
  operations _ _ h := by cases h
  cached _ _ h := by cases h
  replayed _ _ h := by cases h

/-- A whole run. -/
theorem CacheSound.run {as : List (TrafficAction pg)} (hr : s.run d as = some s')
    (h : CacheSound d s) : CacheSound d s' := by
  induction as generalizing s with
  | nil =>
    cases hr
    exact h
  | cons a as ih =>
    obtain ⟨s₁, h₁, hr⟩ := Option.bind_eq_some_iff.mp hr
    exact ih hr (h.step h₁)

end Invariant

/-- Without collisions of the digest, the key of an entry says what it was completed for. -/
theorem Traffic.Written.completion {d : Deployment κ} {s : Traffic pg κ} {org : OrgId}
    {asked : Asked} {o : OpId} {cached : CachedResponse} (inj : Function.Injective d.sha256)
    (h : s.Written d org (d.key org asked) o cached) : s.Completion org asked o cached := by
  obtain ⟨asked', hkey, completion⟩ := h
  have same : asked = asked' := @computeCacheKey_injective κ (d.setting org) inj _ _ hkey
  exact same ▸ completion

/-- In every run from an empty cache, whatever requests it mixes: an entry under the key of an
organization, provider, model and payload holds the content of a whole completion for exactly
these that was ok, reported usage and was settled; an operation that did not deliver one, or was
abandoned, is the writer of no entry; and whoever is given an entry asked, for the organization it
was written for, what its writer completed. -/
theorem cache_sound_over_mixed_traffic [DecidableEq κ] (d : Deployment κ)
    (inj : Function.Injective d.sha256) (T : Tables (schema pg)) (now : Timestamp)
    (as : List (TrafficAction pg)) (s : Traffic pg κ)
    (run : (Traffic.initial T now).run d as = some s) :
    (∀ org asked entry, s.cache.store (org, d.key org asked) = some entry →
      s.Completion org asked (s.writers (org, d.key org asked)) entry.response) ∧
    (∀ (o : OpId) (t : TenantOperation), s.operations[o]? = some t →
      (t.abandoned = true ∨
        ∀ response price detail, t.operation.phase ≠ .ended (.delivered response price detail)) →
      ∀ slot entry, s.cache.store slot = some entry → s.writers slot ≠ o) ∧
    (∀ (c : CallId) (caller : TenantCaller), s.callers[c]? = some caller →
      ∀ response writer, caller.served = .replayed response writer →
      s.Completion caller.organizationId caller.request.asked writer response) := by
  have sound : CacheSound d s := (CacheSound.initial T now).run run
  refine ⟨fun org asked entry he => (sound.cached _ entry he).completion inj,
    fun o t ho hbad slot entry he hw => ?_,
    fun c caller hc response writer hs => (sound.replayed c caller hc response writer hs).completion
      inj⟩
  obtain ⟨_, _, t', response, ho', _, _, completed, _⟩ := sound.cached slot entry he
  rw [hw, ho] at ho'
  cases ho'
  obtain ⟨price, detail, _, hphase, _⟩ := completed.delivered
  rcases hbad with abandoned | undelivered
  · rw [completed.kept] at abandoned
    cases abandoned
  · exact undelivered response price detail hphase

section Witness

def plainDeployment : Deployment String := ⟨asciiStr, id, 3600⟩

/-- An operation up to its provider call. -/
def hold (o : OpId) : List (TrafficAction contended) :=
  [.operate o (.start 0) 0] ++ Traffic.statements o .reclaim 2 ++
    [.operate o (.reclaimed usd) 0] ++ Traffic.statements o .reserve 6 ++ [.operate o .reserved 0]

/-- From the settlement to the end. -/
def book (o : OpId) : List (TrafficAction contended) :=
  Traffic.statements o .settle 5 ++ [.operate o .settled 0, .operate o (.stored true) 1]

/-- A unary call, a stream that is drained and one that is abandoned, another organization asking
what the first one has asked, and a caller that finds the drained stream's entry. -/
def mixed : List (TrafficAction contended) :=
  [.arrive 1 (asking "a" "hello") false, .arrive 1 (asking "b" "hi") true,
    .arrive 1 (asking "c" "bye") true, .arrive 2 (asking "a" "hello") false,
    .arrive 1 (asking "d" "hi") false, .lookup 0 true 0, .lookup 1 true 0, .lookup 2 true 0] ++
  hold 0 ++ [.provide 0 (.response (answering "Hello.")) usd] ++ book 0 ++
  hold 1 ++ [.provide 1 (.event (.chunk "H")) usd, .provide 1 (.event (.chunk "i.")) usd,
    .provide 1 (.event (.completed (some ⟨9, 4⟩))) usd] ++ book 1 ++
  hold 2 ++ [.provide 2 (.event (.chunk "B")) usd, .abandon 2 true, .lookup 3 true 2,
    .lookup 4 true 2]

theorem cache_sound_over_a_mixed_run :
    ∃ s, (Traffic.initial (configured contended 1 opening) 0).run plainDeployment mixed = some s ∧
      (∃ entry, s.cache.store (1, plainDeployment.key 1 (asking "a" "hello").asked) = some entry ∧
        s.Completion 1 (asking "a" "hello").asked
          (s.writers (1, plainDeployment.key 1 (asking "a" "hello").asked)) entry.response) ∧
      (∀ slot entry, s.cache.store slot = some entry → s.writers slot ≠ 2) ∧
      s.Completion 1 (asking "d" "hi").asked 1 ⟨"openai", "gpt-4o", some (.text "Hi.")⟩ := by
  have ran : (((Traffic.initial (configured contended 1 opening) 0).run plainDeployment mixed).any
      fun s => (s.cache.store (1, plainDeployment.key 1 (asking "a" "hello").asked)).isSome &&
        (s.operations[2]?.any (·.abandoned) &&
          s.callers[4]?.any fun caller => decide (caller.served = .replayed
            ⟨"openai", "gpt-4o", some (.text "Hi.")⟩ 1) && (decide (caller.organizationId = 1) &&
            decide (caller.request.asked = (asking "d" "hi").asked)))) = true := by
    decide +kernel
  obtain ⟨s, hs, hany⟩ := Option.any_eq_true _ _ |>.mp ran
  simp only [Bool.and_eq_true, Option.isSome_iff_exists] at hany
  obtain ⟨⟨entry, he⟩, hstream, hcaller⟩ := hany
  obtain ⟨t, ho, habandoned⟩ := Option.any_eq_true _ _ |>.mp hstream
  obtain ⟨caller, hc, hcaller⟩ := Option.any_eq_true _ _ |>.mp hcaller
  simp only [Bool.and_eq_true, decide_eq_true_eq] at hcaller
  obtain ⟨hserved, horg, hasked⟩ := hcaller
  obtain ⟨entries, writers, replays⟩ := cache_sound_over_mixed_traffic plainDeployment
    (fun _ _ h => h) (configured contended 1 opening) 0 mixed s hs
  refine ⟨s, hs, ⟨entry, he, entries _ _ entry he⟩, writers 2 t ho (.inl habandoned), ?_⟩
  rw [← horg, ← hasked]
  exact replays 4 caller hc _ _ hserved

end Witness
end LlmGateway.Gateway
