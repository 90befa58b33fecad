import LlmGateway.Streaming.Finalized

/-! A permitted stream drained to its end: what it leaves beyond the provider, and whether its
consumer was told of success. -/
namespace LlmGateway.Streaming
open Lib.ReadCommitted Lib.AsyncGenerator Ledger Accounting Execution
open Ledger.Sql hiding reserve settle release

/-- What a provider does that both of its ports can say: text in pieces, ended by a completion with
the usage it reports or by a failure. -/
inductive ProviderBehaviour where
  | completes (chunks : List String) (usage : Option ProviderUsage)
  | fails (chunks : List String) (failure : StreamFailed)

namespace ProviderBehaviour

def chunks : ProviderBehaviour → List String
  | .completes chunks _ => chunks
  | .fails chunks _ => chunks

def last : ProviderBehaviour → ProviderStreamEvent
  | .completes _ usage => .completed usage
  | .fails _ failure => .failed failure

/-- As `ProviderClient.invoke` returns it. -/
def response (provider : ProviderDescriptor) : ProviderBehaviour → ProviderResponse
  | .completes chunks usage =>
    { ok := true, content := some (.text (String.join chunks)), provider := provider.name,
      usage := usage }
  | .fails _ failure =>
    { ok := false, error := some failure.error, provider := provider.name,
      errorCategory := failure.errorCategory }

/-- As `StreamingProviderClient.stream` sends it. -/
def events (behaviour : ProviderBehaviour) : List ProviderStreamEvent :=
  behaviour.chunks.map .chunk ++ [behaviour.last]

end ProviderBehaviour

/-- A drained session succeeded: it raised nothing and no event was a failure. -/
def succeeded (events : List InferenceStreamEvent) (error : Option OperationError) : Bool :=
  error.isNone && events.all fun event => event matches .chunk _

section Drained
variable {pg : Postgres} {py : PythonStr} {ports : StreamPorts} {request : RoutedRequest}
  {w : StreamWorld pg}

/-- What the executor has still to relay. -/
def Sending (w : StreamWorld pg) (events : List ProviderStreamEvent) : Prop :=
  w.upstream = ⟨events, false⟩ ∧ w.stream ≠ .finished

theorem Sending.next {event : ProviderStreamEvent} {rest : List ProviderStreamEvent}
    (h : Sending w (event :: rest)) :
    ∃ w', w.next = (w', some event) ∧ Sending w' rest ∧ w'.ledger = w.ledger := by
  obtain ⟨ledger, upstream, stream⟩ := w
  obtain ⟨rfl, hs⟩ : upstream = ⟨event :: rest, false⟩ ∧ stream ≠ .finished := h
  cases stream with
  | unstarted => exact ⟨_, rfl, ⟨rfl, fun h => by cases h⟩, rfl⟩
  | suspended => exact ⟨_, rfl, ⟨rfl, fun h => by cases h⟩, rfl⟩
  | finished => exact absurd rfl hs

variable (py ports request)

/-- What the end of a stream does beyond the provider, and whether it was a success. -/
def finish (behaviour : ProviderBehaviour) (l : World pg) : World pg × Bool :=
  match behaviour with
  | .fails _ failure =>
    ((release ports.toPorts request (l.observe ⟨false, failure.errorCategory⟩)).1, false)
  | .completes _ none => ((release ports.toPorts request (l.observe ⟨true, none⟩)).1, false)
  | .completes chunks (some usage) =>
    match settle py ports.toPorts request (some usage) (l.observe ⟨true, none⟩) with
    | (l, .error _) => ((release ports.toPorts request l).1, false)
    | (l, .ok _) =>
      ((l.safePut .stored
        ⟨request.provider.name, request.provider.model, some (.text (String.join chunks))⟩).1, true)

/-- How `_deliver` stops on the last event. -/
def Ends (success : Bool) (stop : Stop Suspension InferenceStreamEvent OperationError) : Prop :=
  (stop = .returned ∧ success = true) ∨
    (∃ failure, stop = .yielded (.failed failure) .terminal ∧ success = false) ∨
    ∃ e, stop = .raised e ∧ success = false

variable {py ports request}

variable (py request w) in
theorem relayEvent_last (hput : ports.put = .stored) (behaviour : ProviderBehaviour) :
    (relayEvent py ports request behaviour.chunks (some behaviour.last) w).1.ledger =
        (finish py ports request behaviour w.ledger).1 ∧
      Ends (finish py ports request behaviour w.ledger).2
        (relayEvent py ports request behaviour.chunks (some behaviour.last) w).2 := by
  cases behaviour with
  | fails chunks failure => exact ⟨rfl, .inr (.inl ⟨failure, rfl, rfl⟩)⟩
  | completes chunks usage =>
    cases usage with
    | none => exact ⟨rfl, .inr (.inl ⟨noUsage, rfl, rfl⟩)⟩
    | some usage =>
      simp only [ProviderBehaviour.chunks, ProviderBehaviour.last, relayEvent, complete, finish,
        StreamWorld.observe]
      rcases settle py ports.toPorts request (some usage) (w.ledger.observe ⟨true, none⟩) with
        ⟨l, e | record⟩
      · cases hh : settlementHandled e with
        | true => exact ⟨by simp [hh, releaseHold], .inr (.inl ⟨unaccountable, by simp [hh], rfl⟩)⟩
        | false => exact ⟨by simp [hh, releaseHold, StreamWorld.closeStream],
            .inr (.inr ⟨e, by simp [hh], rfl⟩)⟩
      · simp only [hput]
        exact ⟨rfl, .inl ⟨rfl, rfl⟩⟩

/-- The stream of `behaviour` from the event that follows `buffered` on. -/
private theorem drain_rest (hput : ports.put = .stored) (behaviour : ProviderBehaviour)
    (left : List String) : ∀ (buffered : List String) (g : Events) (w w₁ : StreamWorld pg)
    (event : ProviderStreamEvent) (rest : List ProviderStreamEvent),
    buffered ++ left = behaviour.chunks → left.map .chunk ++ [behaviour.last] = event :: rest →
    (deliver py ports request).anext g w =
      ((relayEvent py ports request buffered (some event) w₁).1,
        (relayEvent py ports request buffered (some event) w₁).2.after) →
    Sending w₁ rest → ∃ n drained, (deliver py ports request).drain n g w = some drained ∧
      drained.1.ledger = (finish py ports request behaviour w₁.ledger).1 ∧
      succeeded drained.2.1 drained.2.2 =
        (finish py ports request behaviour w₁.ledger).2 := by
  induction left with
  | nil =>
    intro buffered g w w₁ event rest hb he hn _
    obtain ⟨rfl, rfl⟩ : behaviour.last = event ∧ [] = rest := by simpa using he
    obtain rfl : buffered = behaviour.chunks := by simpa using hb
    obtain ⟨hl, ends⟩ := relayEvent_last py request w₁ hput behaviour
    rcases ends with ⟨hs, hf⟩ | ⟨failure, hs, hf⟩ | ⟨e, hs, hf⟩
    · rw [hs] at hn
      exact ⟨1, _, drain_stop hn, hl, hf.symm⟩
    · rw [hs] at hn
      -- One more pull runs the generator through its `finally` clause.
      refine ⟨2, _, (drain_item hn).trans (congrArg _ (drain_stop rfl)), ?_, hf.symm⟩
      exact hl
    · rw [hs] at hn
      exact ⟨1, _, drain_error hn, hl, hf.symm⟩
  | cons content left ih =>
    intro buffered g w w₁ event rest hb he hn hsend
    obtain ⟨rfl, rfl⟩ : ProviderStreamEvent.chunk content = event ∧
        left.map .chunk ++ [behaviour.last] = rest := by simpa using he
    obtain ⟨event', rest', he'⟩ : ∃ event' rest',
        left.map .chunk ++ [behaviour.last] = event' :: rest' := by
      cases left with
      | nil => exact ⟨_, _, rfl⟩
      | cons c left => exact ⟨_, _, rfl⟩
    rw [he'] at hsend
    obtain ⟨w₂, hnext, hsend', hl⟩ := hsend.next
    have hresume : (deliver py ports request).anext (.suspended (.chunk (buffered ++ [content]))) w₁ =
        ((relayEvent py ports request (buffered ++ [content]) (some event') w₂).1,
          (relayEvent py ports request (buffered ++ [content]) (some event') w₂).2.after) := by
      simp only [Function.anext, deliver, hnext]
    obtain ⟨n, drained, hd, hledger, hsuc⟩ := ih (buffered ++ [content]) _ w₁ w₂ event' rest'
      (by rw [← hb, List.append_assoc]; rfl) he' hresume hsend'
    rw [hl] at hledger hsuc
    exact ⟨n + 1, _, (drain_item hn).trans (congrArg _ hd), hledger, hsuc⟩

variable (py request) in
/-- The session of a permitted call, drained where it was opened. -/
theorem openProvider_finishes (hput : ports.put = .stored) (behaviour : ProviderBehaviour)
    (h : Sending w behaviour.events) :
    ((openProvider ports request w).2.events = none ∧
      (openProvider ports request w).1.ledger = (finish py ports request behaviour w.ledger).1 ∧
      (finish py ports request behaviour w.ledger).2 = false) ∨
    ∃ events, (openProvider ports request w).2.events = some events ∧
      ∃ n drained, (deliver py ports request).drain n events (openProvider ports request w).1 =
        some drained ∧ drained.1.ledger = (finish py ports request behaviour w.ledger).1 ∧
        succeeded drained.2.1 drained.2.2 =
          (finish py ports request behaviour w.ledger).2 := by
  obtain ⟨first, rest, he⟩ : ∃ first rest, behaviour.events = first :: rest := by
    unfold ProviderBehaviour.events
    cases behaviour.chunks with
    | nil => exact ⟨_, _, rfl⟩
    | cons c left => exact ⟨_, _, rfl⟩
  rw [he] at h
  obtain ⟨w₁, hnext, hsend, hl⟩ := h.next
  have opened (hne : ∀ failure, first ≠ .failed failure) :
      openProvider ports request w =
        (w₁, { outcome := .executed, events := some (.unstarted (.deliver first)) }) := by
    unfold openProvider
    rw [hnext]
    cases first with
    | chunk => rfl
    | completed => rfl
    | failed failure => exact absurd rfl (hne failure)
  by_cases hf : ∃ failure, first = .failed failure
  · obtain ⟨failure, rfl⟩ := hf
    obtain rfl : behaviour = .fails [] failure := by
      rcases behaviour with ⟨_ | _, _⟩ | ⟨_ | _, _⟩ <;> cases he
      rfl
    left
    unfold openProvider
    rw [hnext]
    refine ⟨rfl, ?_, rfl⟩
    simp only [refuseStream, releaseHold, StreamWorld.observe, StreamWorld.closeStream, hl, finish]
  · right
    rw [opened fun failure hne => hf ⟨failure, hne⟩, ← hl]
    exact ⟨_, rfl, drain_rest hput behaviour behaviour.chunks [] _ w₁ w₁ first rest rfl he rfl hsend⟩

end Drained

end LlmGateway.Streaming
