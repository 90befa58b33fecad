import LlmGateway.Streaming.Coordinator
import LlmGateway.Execution.OwnHold

/-! Whether an opened stream gives its hold back and closes the provider's stream, however it is
consumed: exactly when its generator was ever started. -/
namespace LlmGateway.Streaming
open Lib.ReadCommitted Lib.AsyncGenerator Ledger Accounting Execution
open Ledger.Sql hiding reserve settle release

variable {pg : Postgres}

/-- Before anything is asked of the ledger, the cache or the provider. -/
def StreamWorld.start (T : Tables (schema pg)) (events : List ProviderStreamEvent) :
    StreamWorld pg :=
  { ledger := { tables := T }, upstream := ⟨events, false⟩, stream := .unstarted () }

def isRelease : Call → Bool
  | .release .. => true
  | _ => false

/-- A release of the operation was answered by an outage. -/
def ReleaseFailed (calls : List (Call × Answer)) : Prop :=
  ∃ c ∈ calls, isRelease c.1 = true ∧ c.2 = .error .ledgerUnavailable

instance (calls : List (Call × Answer)) : Decidable (ReleaseFailed calls) :=
  inferInstanceAs (Decidable (∃ c ∈ calls, isRelease c.1 = true ∧ c.2 = .error .ledgerUnavailable))

/-- The hold left by `T` was ended by exactly one settlement or one release: whatever the calls
made, the rows are those one call leaves. -/
def EndedOnce (request : RoutedRequest) (T : Tables (schema pg)) (w : World pg) : Prop :=
  (∃ now detail, w.tables.rows = ((ledger pg).serve T now
      (.settle request.organizationId request.correlationId detail)).1.rows ∧
    statusOf w.tables.rows request.key = some .committed) ∨
  (∃ now, w.tables.rows = ((ledger pg).serve T now
      (.release request.organizationId request.correlationId)).1.rows ∧
    statusOf w.tables.rows request.key = some .released)

/-- What is promised of a stream that is over. -/
def Finalized (request : RoutedRequest) (T : Tables (schema pg)) (w : StreamWorld pg) : Prop :=
  EndedOnce request T w.ledger ∧ w.upstream.closed = true

variable {py : PythonStr} {ports : StreamPorts} {request : RoutedRequest}
  {T : Tables (schema pg)} {r : BudgetReservation} {w : StreamWorld pg}

/-- The executor's generator is started, and closes the provider's stream when it ends. -/
def Started (w : StreamWorld pg) : Prop :=
  Governed (fun _ _ => True) (fun u => u.closed = true) w.stream w.upstream

private theorem providerStream_keeps :
    Keeps providerStream (fun _ _ => True) (fun u => u.closed = true) where
  resume _ u _ := by
    show Stops _ _ (relay u)
    unfold relay
    split
    · trivial
    · rfl
  close _ _ _ := rfl

private theorem Started.next (h : Started w) : Started w.next.1 :=
  providerStream_keeps.anext h

private theorem Started.closeStream (h : Started w) : w.closeStream.upstream.closed = true :=
  providerStream_keeps.aclose h

section Hold
variable {ports : Ports} {l : World pg} (hr : T.rows .budgetReservation request.key = some r)
  (hs : r.status = .reserved)

private theorem EndedOnce.release (h : EndedOnce request T l) :
    EndedOnce request T (release ports request l).1 := by
  obtain ⟨s, hstatus, hret⟩ : ∃ s, statusOf l.tables.rows request.key = some s ∧
      s.holdAlreadyReturned = true := by
    rcases h with ⟨_, _, _, h⟩ | ⟨_, _, h⟩ <;> exact ⟨_, h, rfl⟩
  obtain ⟨row, hrow, rfl⟩ := Option.map_eq_some_iff.mp hstatus
  have same : (Execution.release ports request l).1.tables.rows = l.tables.rows := by
    cases hout : ports.releaseOut with
    | true => simp [Execution.release, World.call, hout]
    | false =>
      simpa [Execution.release, World.call, hout] using
        (serve_release_returned ports.releaseAt hrow hret).2
  unfold EndedOnce at h ⊢
  rwa [same]

include hr hs

/-- A settlement that returns has ended the hold; one that raises has left it. -/
private theorem settle_ends (py : PythonStr) (ports : Ports) (hl : l.tables.rows = T.rows) (usage : Option ProviderUsage) :
    match settle py ports request usage l with
    | (l', .ok _) => EndedOnce request T l'
    | (l', .error _) => l'.tables.rows = T.rows := by
  cases ha : account py usage request.provider ports.priceAfter with
  | error e => simpa only [settle, ha] using hl
  | ok detail =>
    cases hout : ports.settleOut with
    | true => simpa only [settle, ha, World.call, hout, if_true, raised] using hl
    | false =>
      obtain ⟨rows, answer⟩ := serve_congr_rows hl ports.settleAt
        (.settle request.organizationId request.correlationId detail) rfl
      simp only [settle, ha, World.call, hout, Bool.false_eq_true, if_false]
      rcases serve_settle_live ports.settleAt hr hs detail with
        ⟨hok, _, hstatus⟩ | ⟨e, he, _, hrows⟩
      · rw [answer, hok]
        exact .inl ⟨_, _, rows, by rw [rows]; exact hstatus⟩
      · rw [answer, he]
        exact rows.trans hrows

/-- A release of the untouched hold ends it, or fails. -/
private theorem release_ends_once (hl : l.tables.rows = T.rows) :
    ReleaseFailed (release ports request l).1.calls ∨
      EndedOnce request T (release ports request l).1 := by
  have failed (he : (release ports request l).1.calls.getLast? =
      some (.release request.organizationId request.correlationId, .error .ledgerUnavailable)) :
      ReleaseFailed (release ports request l).1.calls :=
    ⟨_, List.mem_of_getLast? he, rfl, rfl⟩
  cases hout : ports.releaseOut with
  | true => exact .inl (failed (by simp [release, World.call, hout]))
  | false =>
    obtain ⟨rows, answer⟩ := serve_congr_rows hl ports.releaseAt
      (.release request.organizationId request.correlationId) rfl
    rcases serve_release_live ports.releaseAt hr hs with ⟨_, hstatus⟩ | ⟨he, _⟩
    · refine .inr (.inr ⟨ports.releaseAt, ?_⟩)
      simp only [release, World.call, hout, Bool.false_eq_true, if_false, rows]
      exact ⟨trivial, hstatus⟩
    · exact .inl (failed (by simp [release, World.call, hout, answer.trans he]))

end Hold

section Deliver
variable (py ports request T)

/-- The hold was ended once, unless the ledger failed to release it. -/
def Ended (l : World pg) : Prop := ReleaseFailed l.calls ∨ EndedOnce request T l

/-- While a stream is suspended: nothing has happened to its hold before a terminal event, and the
hold is ended at one. -/
def Relaying : Suspension → StreamWorld pg → Prop
  | .replayed, _ => False
  | .chunk _, w => w.ledger.tables.rows = T.rows ∧ Started w
  | .terminal, w => Ended request T w.ledger ∧ Started w

/-- Once it is over. -/
def Over (w : StreamWorld pg) : Prop := Ended request T w.ledger ∧ w.upstream.closed = true

variable {py ports request T}

private theorem Started.complete (h : Started w) (py : PythonStr) (ports : StreamPorts)
    (request : RoutedRequest) (usage : Option ProviderUsage) (content : String) :
    Started (complete py ports request usage content w).1 := by
  unfold Streaming.complete
  cases usage with
  | none => exact h
  | some usage =>
    dsimp only
    split
    · split <;> exact h
    · exact h

private theorem EndedOnce.safePut {l : World pg} (h : EndedOnce request T l) (put : PutOutcome)
    (entry : CachedResponse) : EndedOnce request T (l.safePut put entry).1 := by
  cases put <;> exact h

variable (hr : T.rows .budgetReservation request.key = some r) (hs : r.status = .reserved)
include hr hs

private theorem releaseHold_ended
    (h : w.ledger.tables.rows = T.rows ∨ EndedOnce request T w.ledger) :
    Ended request T (releaseHold ports request w).ledger := by
  rcases h with h | h
  · exact release_ends_once hr hs h
  · exact .inr h.release

/-- However a completed stream is accounted for, its hold is ended when `_complete` returns; when
it raises, the hold is either ended or untouched. -/
private theorem complete_ends (py : PythonStr) (ports : StreamPorts) (hl : w.ledger.tables.rows = T.rows)
    (usage : Option ProviderUsage) (content : String) :
    match complete py ports request usage content w with
    | (w', .ok _) => Ended request T w'.ledger
    | (w', .error _) => w'.ledger.tables.rows = T.rows ∨ EndedOnce request T w'.ledger := by
  cases usage with
  | none => exact releaseHold_ended hr hs (.inl hl)
  | some usage =>
    have ends := settle_ends (l := (w.observe true none).ledger) hr hs py ports.toPorts hl
      (some usage)
    unfold Streaming.complete
    dsimp only
    rcases hset : settle py ports.toPorts request (some usage) (w.observe true none).ledger with
      ⟨l', e | detail⟩
    · rw [hset] at ends
      dsimp only
      split_ifs with he
      · exact releaseHold_ended hr hs (.inl ends)
      · exact .inl ends
    · rw [hset] at ends
      dsimp only
      rcases hput : l'.safePut ports.put
        ⟨request.provider.name, request.provider.model, some (.text content)⟩ with ⟨l'', _ | _⟩
      · have := EndedOnce.safePut ends ports.put
          ⟨request.provider.name, request.provider.model, some (.text content)⟩
        rw [hput] at this
        exact .inr this
      · have := EndedOnce.safePut ends ports.put
          ⟨request.provider.name, request.provider.model, some (.text content)⟩
        rw [hput] at this
        exact .inr this

/-- One turn of the loop leaves a stream suspended with its hold as it should be, or over. -/
private theorem relayEvent_stops (hl : w.ledger.tables.rows = T.rows) (started : Started w)
    (buffered : List String) (event : Option ProviderStreamEvent) :
    Stops (Relaying request T) (Over request T) (relayEvent py ports request buffered event w) := by
  match event with
  | some (.chunk content) => exact ⟨hl, started⟩
  | some (.failed failure) => exact ⟨releaseHold_ended hr hs (.inl hl), started⟩
  | none => exact ⟨releaseHold_ended hr hs (.inl hl), started⟩
  | some (.completed usage) =>
    have ends := complete_ends hr hs py ports hl usage (String.join buffered)
    have still := started.complete py ports request usage (String.join buffered)
    unfold relayEvent
    dsimp only
    rcases hc : complete py ports request usage (String.join buffered) w with ⟨w', e | failure⟩
    · rw [hc] at ends still
      exact ⟨releaseHold_ended hr hs ends, still.closeStream⟩
    · rw [hc] at ends still
      cases failure with
      | none => exact ⟨ends, still.closeStream⟩
      | some failure => exact ⟨ends, still⟩

private theorem deliver_keeps :
    Keeps (deliver py ports request) (Relaying request T) (Over request T) where
  resume
    | .replayed, _, h => h.elim
    | .chunk buffered, w, ⟨hl, started⟩ =>
      relayEvent_stops (w := w.next.1) hr hs hl started.next buffered _
    | .terminal, _, ⟨ended, started⟩ => ⟨ended, started.closeStream⟩
  close
    | .replayed, _, h => h.elim
    | .chunk _, _, ⟨hl, started⟩ => ⟨releaseHold_ended hr hs (.inl hl), started.closeStream⟩
    | .terminal, _, ⟨ended, started⟩ => ⟨ended, started.closeStream⟩

end Deliver

/-- How far a suspended stream is from its end, at most. -/
def ahead : Suspension → StreamWorld pg → Nat
  | .chunk _, w => w.upstream.remaining.length + 1
  | _, _ => 0

private theorem relay_shorter {u u' : Upstream} {event : ProviderStreamEvent} {frame : Unit}
    (h : relay u = (u', .yielded event frame)) : u'.remaining.length < u.remaining.length := by
  obtain ⟨remaining, closed⟩ := u
  cases closed <;> cases remaining <;> cases h
  exact Nat.lt_succ_self _

private theorem after_shorter {u u' : Upstream} {event : ProviderStreamEvent}
    {g : Generator Unit Unit} (h : ((relay u).1, (relay u).2.after) = (u', g, .item event)) :
    u'.remaining.length < u.remaining.length := by
  rcases hrel : relay u with ⟨u₁, ⟨e, frame⟩ | _ | _⟩ <;> rw [hrel] at h <;> cases h
  exact relay_shorter hrel

private theorem next_shorter {w' : StreamWorld pg} {event : ProviderStreamEvent}
    (h : w.next = (w', some event)) :
    w'.upstream.remaining.length < w.upstream.remaining.length := by
  obtain ⟨ledger, upstream, stream⟩ := w
  rcases hp : providerStream.anext stream upstream with ⟨u', g, e | _ | _⟩
  · simp only [StreamWorld.next, hp] at h
    cases h
    cases stream with
    | finished => cases hp
    | unstarted _ => exact after_shorter hp
    | suspended _ => exact after_shorter hp
  · simp only [StreamWorld.next, hp] at h
    cases h
  · simp only [StreamWorld.next, hp] at h
    cases h

private theorem deliver_falls (frame : Suspension) (w w' : StreamWorld pg)
    (event : InferenceStreamEvent) (frame' : Suspension)
    (h : (deliver py ports request).resume frame w = (w', .yielded event frame')) :
    ahead frame' w' < ahead frame w := by
  cases frame with
  | replayed => cases h
  | terminal => cases h
  | chunk buffered =>
    cases frame' with
    | replayed => exact Nat.succ_pos _
    | terminal => exact Nat.succ_pos _
    | chunk buffered' =>
      rcases hn : w.next with ⟨w₁, next⟩
      simp only [deliver, hn] at h
      match next with
      | some (.chunk content) =>
        cases h
        have := next_shorter hn
        simp only [ahead]
        omega
      | some (.failed failure) => cases h
      | none => cases h
      | some (.completed usage) =>
        unfold relayEvent at h
        dsimp only at h
        split at h <;> cases h

section Frame
variable (request T)

/-- While `_frame` is suspended, the stream it reads is as it should be. -/
def Framed : Framing → StreamWorld pg → Prop
  | .delta events, w | .ending events, w =>
    Governed (Relaying request T) (Over request T) events w

variable {request T} {requestId : String}

def framesAhead : Framing → StreamWorld pg → Nat
  | .delta (.suspended suspension), w => ahead suspension w + 2
  | .delta _, _ => 1
  | .ending _, _ => 0

variable (hr : T.rows .budgetReservation request.key = some r) (hs : r.status = .reserved)
include hr hs

private theorem frameNext_stops {events : Events}
    (h : Governed (Relaying request T) (Over request T)
      ((deliver py ports request).anext events w).2.1 ((deliver py ports request).anext events w).1) :
    Stops (Framed request T) (Over request T) (frameNext py ports request requestId events w) := by
  unfold frameNext
  rcases hn : (deliver py ports request).anext events w with ⟨w', events', event | _ | _⟩
  · rw [hn] at h
    cases event <;> exact h
  · rw [hn] at h
    exact h
  · rw [hn] at h
    exact (deliver_keeps hr hs).aclose h

private theorem frame_keeps :
    Keeps (frame py ports request requestId) (Framed request T) (Over request T) where
  resume
    | .delta _, _, h => frameNext_stops hr hs ((deliver_keeps hr hs).anext h)
    | .ending _, _, h => (deliver_keeps hr hs).aclose h
  close
    | .delta _, _, h => (deliver_keeps hr hs).aclose h
    | .ending _, _, h => (deliver_keeps hr hs).aclose h

omit hr hs in
private theorem frame_falls (framing : Framing) (w : StreamWorld pg) (h : Framed request T framing w)
    (w' : StreamWorld pg) (event : Frame) (framing' : Framing)
    (hf : (frame py ports request requestId).resume framing w = (w', .yielded event framing')) :
    framesAhead framing' w' < framesAhead framing w := by
  match framing, h with
  | .ending _, _ => cases hf
  | .delta .finished, _ => cases hf; exact Nat.one_pos
  | .delta (.suspended suspension), _ =>
    simp only [frame, frameNext, Function.anext] at hf
    rcases hres : (deliver py ports request).resume suspension w with
      ⟨w₁, ⟨event, suspension'⟩ | _ | _⟩
    · rw [hres] at hf
      cases event with
      | chunk content =>
        cases hf
        exact Nat.add_lt_add_right (deliver_falls _ _ _ _ _ hres) 2
      | failed failure =>
        cases hf
        exact Nat.succ_pos _
    · rw [hres] at hf
      cases hf
      exact Nat.succ_pos _
    · rw [hres] at hf
      cases hf

end Frame

/-- A session the provider opened: nothing of its generator has run, the executor's has been
started, and the provider's stream is open. -/
private theorem openProvider_opened {ledger : World pg} {events : List ProviderStreamEvent}
    {session : StreamSession} {g : Events}
    (h : openProvider ports request ⟨ledger, ⟨events, false⟩, .unstarted ()⟩ = (w, session))
    (hg : session.events = some g) :
    ∃ first, g = .unstarted (.deliver first) ∧ Started w ∧ w.upstream.closed = false := by
  cases events with
  | nil => cases h; cases hg
  | cons first rest =>
    cases first with
    | failed failure => cases h; cases hg
    | chunk content => cases h; cases hg; exact ⟨_, rfl, trivial, rfl⟩
    | completed usage => cases h; cases hg; exact ⟨_, rfl, trivial, rfl⟩

private theorem openStream_opened {T : Tables (schema pg)} {events : List ProviderStreamEvent}
    {session : StreamSession} {g : Events}
    (h : openStream py ports request (.start T events) = (w, .ok session))
    (hg : session.events = some g) (ho : session.outcome = .executed) :
    ∃ first, g = .unstarted (.deliver first) ∧ Started w ∧ w.upstream.closed = false := by
  unfold openStream at h
  split at h
  · cases h
    cases ho
  · rcases hres : reserve py ports.toPorts request (StreamWorld.start T events).ledger with
      ⟨ledger, e | reservation⟩
    · rw [hres] at h
      cases e with
      | cost e =>
        dsimp only at h
        split_ifs at h
        · cases h
          cases hg
        · cases h
      | ledger e => cases h
      | cachePut => cases h
    · rw [hres] at h
      dsimp only at h
      split at h
      · cases h
        cases hg
      · cases h
        cases hg
      · cases h
        exact openProvider_opened rfl hg

/-- Who consumes the session: the caller of `open`, or `_frame` for the HTTP response. -/
inductive Reader where
  | direct
  | framed (requestId : String)
  deriving DecidableEq, Repr

/-- The worlds a consumer may leave behind. -/
def Consumed (py : PythonStr) (ports : StreamPorts) (request : RoutedRequest) (events : Events)
    (w : StreamWorld pg) (reader : Reader) (consumer : Consumer) (w' : StreamWorld pg) : Prop :=
  match reader with
  | .direct => (deliver py ports request).Leaves events w consumer w'
  | .framed requestId =>
    (frame py ports request requestId).Leaves (.unstarted events) w consumer w'

/-- An opened stream comes to an end however it is consumed, and its hold is then settled or
released once and the provider's stream closed, if and only if a first event was ever pulled. -/
theorem finalized_iff_started (py : PythonStr) (ports : StreamPorts) (request : RoutedRequest)
    (T : Tables (schema pg)) (events : List ProviderStreamEvent) (w : StreamWorld pg)
    (session : StreamSession) (g : Events)
    (opened : openStream py ports request (.start T events) = (w, .ok session))
    (hg : session.events = some g) (ho : session.outcome = .executed)
    (held : Live w.ledger.tables.rows request.key) (reader : Reader) (consumer : Consumer) :
    (∃ w', Consumed py ports request g w reader consumer w') ∧
      ∀ w', Consumed py ports request g w reader consumer w' →
        ¬ ReleaseFailed w'.ledger.calls →
        (Finalized request w.ledger.tables w' ↔ consumer ≠ .close 0) := by
  obtain ⟨first, rfl, started, hopen⟩ := openStream_opened opened hg ho
  obtain ⟨r, hr, hs⟩ := held
  have enters : Stops (Relaying request w.ledger.tables) (Over request w.ledger.tables)
      ((deliver py ports request).enter (.deliver first) w) :=
    relayEvent_stops hr hs rfl started [] (some first)
  have framed (requestId : String) : Stops (Framed request w.ledger.tables)
      (Over request w.ledger.tables)
      ((frame py ports request requestId).enter (.unstarted (.deliver first)) w) :=
    frameNext_stops hr hs enters.governed
  have unpulled {w' : StreamWorld pg}
      (h : Consumed py ports request (.unstarted (.deliver first)) w reader (.close 0) w') :
      w' = w := by
    cases reader <;> exact h
  constructor
  · cases consumer with
    | close n => cases reader <;> exact ⟨_, rfl⟩
    | drain =>
      cases reader with
      | direct =>
        exact (deliver_keeps hr hs).drains ahead (fun f w _ => deliver_falls f w) enters
      | framed requestId => exact (frame_keeps hr hs).drains framesAhead frame_falls (framed _)
  · intro w' hw answered
    constructor
    · rintro ⟨_, hclosed⟩ rfl
      rw [unpulled hw, hopen] at hclosed
      cases hclosed
    · intro hstarted
      have left : Over request w.ledger.tables w' := by
        cases reader with
        | direct => exact (deliver_keeps hr hs).leaves enters hstarted hw
        | framed requestId => exact (frame_keeps hr hs).leaves (framed requestId) hstarted hw
      exact ⟨left.1.resolve_left answered, left.2⟩

/-- A miss, a price, and a cache that stores. -/
def pricedStream : StreamPorts :=
  { priced (.price ⟨1 / 1000, 2 / 1000, "USD"⟩) with cached := none, put := .stored }

def shortStream : List ProviderStreamEvent := [.chunk "an", .chunk "swer", .completed (some ⟨9, 4⟩)]

/-- What `open` makes of it, from an untouched budget. -/
def openedShort : StreamWorld contended × Except OperationError StreamSession :=
  openStream asciiStr pricedStream shortRequest
    (.start (configured contended 1 ⟨10 ^ 9, "USD", 0, 0⟩) shortStream)

def shortSession : StreamSession :=
  { outcome := .executed, events := some (.unstarted (.deliver (.chunk "an"))) }

private theorem openedShort_eq : openedShort = (openedShort.1, .ok shortSession) :=
  Prod.ext rfl (by decide +kernel)

/-- Abandoned by the HTTP client after one frame: released, and the provider's stream closed. -/
theorem finalized_iff_started_one_frame :
    ∃ w', Consumed asciiStr pricedStream shortRequest (.unstarted (.deliver (.chunk "an")))
      openedShort.1 (.framed "req") (.close 1) w' ∧
      Finalized shortRequest openedShort.1.ledger.tables w' := by
  obtain ⟨_, holds⟩ := finalized_iff_started asciiStr pricedStream shortRequest
    (configured contended 1 ⟨10 ^ 9, "USD", 0, 0⟩) shortStream openedShort.1 shortSession
    (.unstarted (.deliver (.chunk "an"))) openedShort_eq rfl rfl (by decide +kernel) (.framed "req")
    (.close 1)
  exact ⟨_, rfl, (holds _ rfl (by decide +kernel)).mpr (by decide)⟩

/-- Closed before the first pull: none of the generator's body runs. -/
theorem unstarted_stream_keeps_its_hold :
    ¬ ∀ (py : PythonStr) (ports : StreamPorts) (request : RoutedRequest)
      (T : Tables (schema contended)) (events : List ProviderStreamEvent)
      (w : StreamWorld contended) (session : StreamSession) (g : Events),
      openStream py ports request (.start T events) = (w, .ok session) →
      session.events = some g → session.outcome = .executed →
      Live w.ledger.tables.rows request.key → ∀ (reader : Reader) (consumer : Consumer) w',
      Consumed py ports request g w reader consumer w' → ¬ ReleaseFailed w'.ledger.calls →
      Finalized request w.ledger.tables w' := by
  intro claim
  have finalized := claim asciiStr pricedStream shortRequest
    (configured contended 1 ⟨10 ^ 9, "USD", 0, 0⟩) shortStream openedShort.1 shortSession
    (.unstarted (.deliver (.chunk "an"))) openedShort_eq rfl rfl (by decide +kernel) .direct
    (.close 0) openedShort.1 rfl (by decide +kernel)
  exact absurd finalized.2 (by decide +kernel)

end LlmGateway.Streaming
