import LlmGateway.Execution.HoldSteps
import LlmGateway.Streaming.Drained

/-! An opened stream as a whole: what its consumer is given and what it leaves in the ledger, the
breaker, the cache and the provider's stream, wherever the consumer stops. -/
namespace LlmGateway.Streaming
open Lib.ReadCommitted Lib.AsyncGenerator Ledger Accounting Execution
open Ledger.Sql hiding reserve settle release

/-- The chunks before the first terminal event. -/
def leading : List ProviderStreamEvent → List String
  | .chunk content :: rest => content :: leading rest
  | _ => []

/-- The first terminal event. A stream that just ends has none. -/
def terminal : List ProviderStreamEvent → Option ProviderStreamEvent
  | .chunk _ :: rest => terminal rest
  | rest => rest.head?

/-- What the breaker is told of a stream's end. -/
def verdict : Option ProviderStreamEvent → ProviderCallResult
  | some (.completed _) => ⟨true, none⟩
  | some (.failed failure) => ⟨false, failure.errorCategory⟩
  | _ => ⟨false, none⟩

variable {pg : Postgres}

section
variable (py : PythonStr) (ports : StreamPorts) (request : RoutedRequest)

/-- The stream completed with usage, and it can be settled. -/
def Settles (l : World pg) (last : Option ProviderStreamEvent) : Prop :=
  ∃ usage detail, last = some (.completed (some usage)) ∧
    (settle py ports.toPorts request (some usage) l).2 = .ok detail

/-- Where it cannot be settled, that raises what `_complete` handles. -/
def SettlesOrHandled (l : World pg) (last : Option ProviderStreamEvent) : Prop :=
  ∀ usage e, last = some (.completed (some usage)) →
    (settle py ports.toPorts request (some usage) l).2 = .error e → settlementHandled e = true

/-- What the consumer is told of the end: nothing, after a success. -/
def ending (l : World pg) : Option ProviderStreamEvent → Option StreamFailed
  | some (.failed failure) => some failure
  | some (.completed none) => some noUsage
  | some (.completed (some usage)) =>
    match (settle py ports.toPorts request (some usage) l).2 with
    | .ok _ => none
    | .error _ => some unaccountable
  | _ => some malformedStream

/-- What a stream that reached its end leaves. -/
structure Concluded (l : World pg) (last : Option ProviderStreamEvent) (text : String)
    (left : World pg) : Prop where
  observed : left.observed = l.observed ++ [verdict last]
  settled : Settles py ports request l last →
    statusOf left.tables.rows request.key = some .committed ∧
      left.puts = (l.safePut ports.put
        ⟨request.provider.name, request.provider.model, some (.text text)⟩).1.puts
  released : ¬ Settles py ports request l last →
    statusOf left.tables.rows request.key = some .released ∧ left.puts = l.puts

/-- What `k` pulls of the events that follow `buffered` give, and what is left when the generator
is closed after them. -/
structure Relayed (l : World pg) (buffered : List String) (events : List ProviderStreamEvent)
    (k : Nat) (left : StreamWorld pg) (delivered : List InferenceStreamEvent)
    (error : Option OperationError) : Prop where
  delivered : delivered = ((leading events).take k).map .chunk ++
    if (leading events).length < k then
      (ending py ports request l (terminal events)).toList.map .failed else []
  consumed : left.upstream.remaining = events.drop (min k ((leading events).length + 1))
  reached : (leading events).length < k →
    Concluded py ports request l (terminal events) (String.join (buffered ++ leading events))
      left.ledger
  abandoned : k ≤ (leading events).length →
    statusOf left.ledger.tables.rows request.key = some .released ∧
      left.ledger.observed = l.observed ∧ left.ledger.puts = l.puts
  raised : error = none ∨ error = some .cachePut ∧ ports.put = .raises ∧
    (leading events).length < k ∧ Settles py ports request l (terminal events)

end

variable {py : PythonStr} {ports : StreamPorts} {request : RoutedRequest} {l : World pg}
  {w : StreamWorld pg}

/-- Closing the provider's stream takes nothing more from it. -/
private theorem closeStream_remaining (w : StreamWorld pg) :
    w.closeStream.upstream.remaining = w.upstream.remaining := by
  obtain ⟨ledger, upstream, stream⟩ := w
  cases stream <;> rfl

theorem ending_eq_none_iff (last : Option ProviderStreamEvent) :
    ending py ports request l last = none ↔ Settles py ports request l last := by
  constructor
  · intro h
    match last with
    | some (.completed (some usage)) =>
      simp only [ending] at h
      split at h
      next detail hs => exact ⟨usage, detail, rfl, hs⟩
      next => cases h
  · rintro ⟨usage, detail, rfl, hs⟩
    simp only [ending, hs]

/-- A consumer is told of a failure exactly where a stream that reached its end was not settled. -/
theorem Relayed.success {buffered : List String} {events : List ProviderStreamEvent} {k : Nat}
    {left : StreamWorld pg} {delivered : List InferenceStreamEvent} {error : Option OperationError}
    (h : Relayed py ports request l buffered events k left delivered error)
    (reached : (leading events).length < k) :
    (∀ failure, .failed failure ∉ delivered) ↔
      Settles py ports request l (terminal events) := by
  rw [← ending_eq_none_iff, h.delivered, if_pos reached]
  have chunks (failure : StreamFailed) :
      InferenceStreamEvent.failed failure ∉ ((leading events).take k).map .chunk := by
    intro hmem
    obtain ⟨_, _, h⟩ := List.mem_map.mp hmem
    cases h
  cases ending py ports request l (terminal events) with
  | none => exact iff_of_true (fun failure => by simpa using chunks failure) rfl
  | some failure => exact iff_of_false (fun h => h failure (by simp)) (by simp)

section Turn
variable {r : BudgetReservation} {last : Option ProviderStreamEvent} {buffered : List String}
  (hr : l.tables.rows .budgetReservation request.key = some r) (hs : r.status = .reserved)
  (releases : (release ports.toPorts request l).2 = .ok ())
include hr hs releases

/-- The hold under rows nothing has touched is released. -/
private theorem releaseHold_released (hl : w.ledger.tables.rows = l.tables.rows) :
    statusOf (releaseHold ports request w).ledger.tables.rows request.key = some .released := by
  apply release_released (r := r)
  · rw [hl]
    exact hr
  · exact hs
  · rw [release_congr hl]
    exact releases

variable (buffered) in
/-- The turn of `_deliver` on the end of the provider's events. -/
theorem relayEvent_terminal (hl : w.ledger = l) (handled : SettlesOrHandled py ports request l last)
    (hlast : ∀ content, last ≠ some (.chunk content)) :
    Concluded py ports request l last (String.join buffered)
        (relayEvent py ports request buffered last w).1.ledger ∧
      (relayEvent py ports request buffered last w).1.upstream.remaining = w.upstream.remaining ∧
      match (relayEvent py ports request buffered last w).2 with
      | .returned => ending py ports request l last = none
      | .yielded event frame =>
        ∃ failure, event = .failed failure ∧ frame = .terminal ∧
          ending py ports request l last = some failure
      | .raised e => e = .cachePut ∧ ports.put = .raises ∧ Settles py ports request l last := by
  have unsettled (h : ¬ Settles py ports request l last) {left : World pg}
      (hstatus : statusOf left.tables.rows request.key = some .released)
      (hobserved : left.observed = l.observed ++ [verdict last]) (hputs : left.puts = l.puts) :
      Concluded py ports request l last (String.join buffered) left :=
    ⟨hobserved, fun hsettles => absurd hsettles h, fun _ => ⟨hstatus, hputs⟩⟩
  subst hl
  match last with
  | some (.chunk content) => exact absurd rfl (hlast content)
  | none =>
    refine ⟨unsettled ?_ (releaseHold_released (w := w.observe false none) hr hs releases rfl) rfl rfl,
      rfl, malformedStream, rfl, rfl, rfl⟩
    rintro ⟨_, _, h, _⟩
    cases h
  | some (.failed failure) =>
    refine ⟨unsettled ?_ (releaseHold_released (w := w.observe false failure.errorCategory)
      hr hs releases rfl) rfl rfl, rfl, failure, rfl, rfl, rfl⟩
    rintro ⟨_, _, h, _⟩
    cases h
  | some (.completed none) =>
    refine ⟨unsettled ?_ (releaseHold_released (w := w.observe true none) hr hs releases rfl) rfl
      rfl, rfl, noUsage, rfl, rfl, rfl⟩
    rintro ⟨_, _, h, _⟩
    cases h
  | some (.completed (some usage)) =>
    have rows : (w.observe true none).ledger.tables.rows = w.ledger.tables.rows := rfl
    have answer : (settle py ports.toPorts request (some usage) (w.observe true none).ledger).2 =
        (settle py ports.toPorts request (some usage) w.ledger).2 := settle_congr rows (some usage)
    have reports :
        (settle py ports.toPorts request (some usage) (w.observe true none).ledger).1.observed =
            (w.observe true none).ledger.observed ∧
          (settle py ports.toPorts request (some usage) (w.observe true none).ledger).1.puts =
            (w.observe true none).ledger.puts := settle_reports
    rcases hset : settle py ports.toPorts request (some usage) (w.observe true none).ledger with
      ⟨l', e | detail⟩
    · -- Not settled: the hold goes back.
      rw [hset] at answer reports
      have same : l'.tables.rows = w.ledger.tables.rows := by
        have := settle_raised (w := (w.observe true none).ledger) (congrArg Prod.snd hset)
        rwa [hset] at this
      have hturn : relayEvent py ports request buffered (some (.completed (some usage))) w =
          (releaseHold ports request { w.observe true none with ledger := l' },
            .yielded (.failed unaccountable) .terminal) := by
        simp only [relayEvent, complete, hset, handled usage e rfl answer.symm, if_true]
      rw [hturn]
      refine ⟨unsettled ?_ ?_ reports.1 reports.2, rfl, unaccountable, rfl, rfl, ?_⟩
      · rintro ⟨_, _, h, hok⟩
        cases h
        rw [← answer] at hok
        cases hok
      · exact releaseHold_released (w := { w.observe true none with ledger := l' }) hr hs releases
          same
      · simp only [ending, ← answer]
    · rw [hset] at answer reports
      have settles : Settles py ports request w.ledger (some (.completed (some usage))) :=
        ⟨usage, detail, rfl, answer.symm⟩
      have committed : statusOf l'.tables.rows request.key = some .committed := by
        have := settle_committed (w := (w.observe true none).ledger) hr hs (congrArg Prod.snd hset)
        rwa [hset] at this
      have concluded {left : World pg} (hrows : left.tables.rows = l'.tables.rows)
          (hobserved : left.observed = l'.observed)
          (hputs : left.puts = (l'.safePut ports.put ⟨request.provider.name,
            request.provider.model, some (.text (String.join buffered))⟩).1.puts) :
          Concluded py ports request w.ledger (some (.completed (some usage)))
            (String.join buffered) left := by
        refine ⟨hobserved.trans reports.1, fun _ => ⟨?_, ?_⟩, fun h => absurd settles h⟩
        · rw [hrows]
          exact committed
        · exact hputs.trans (safePut_puts reports.2)
      have told : ending py ports request w.ledger (some (.completed (some usage))) = none :=
        (ending_eq_none_iff _).mpr settles
      cases hput : ports.put with
      | stored =>
        simp only [relayEvent, complete, hset, hput, World.safePut, Except.map]
        exact ⟨concluded rfl rfl (by rw [hput]; rfl), closeStream_remaining _, told⟩
      | unavailable =>
        simp only [relayEvent, complete, hset, hput, World.safePut, Except.map]
        exact ⟨concluded rfl rfl (by rw [hput]; rfl), closeStream_remaining _, told⟩
      | raises =>
        -- The error escapes `_complete`; the hold it releases again is already settled.
        simp only [relayEvent, complete, hset, hput, World.safePut, Except.map]
        obtain ⟨row, hrow, hstatus⟩ := Option.map_eq_some_iff.mp committed
        exact ⟨concluded (release_again hrow (by rw [hstatus]; rfl)) rfl (by rw [hput]; rfl),
          closeStream_remaining _, trivial, trivial, settles⟩

end Turn

/-- The next event of a stream that has no more chunks. -/
private theorem Sending.last {events : List ProviderStreamEvent} (h : Sending w events)
    (hlast : leading events = []) :
    ∃ w', w.next = (w', terminal events) ∧ w'.ledger = w.ledger ∧
      w'.upstream.remaining = events.drop 1 := by
  obtain ⟨ledger, upstream, stream⟩ := w
  obtain ⟨rfl, hs⟩ : upstream = ⟨events, false⟩ ∧ stream ≠ .finished := h
  match events, stream with
  | .chunk _ :: _, _ => cases hlast
  | _, .finished => exact absurd rfl hs
  | [], .unstarted _ => exact ⟨_, rfl, rfl, rfl⟩
  | [], .suspended _ => exact ⟨_, rfl, rfl, rfl⟩
  | .completed _ :: _, .unstarted _ => exact ⟨_, rfl, rfl, rfl⟩
  | .completed _ :: _, .suspended _ => exact ⟨_, rfl, rfl, rfl⟩
  | .failed _ :: _, .unstarted _ => exact ⟨_, rfl, rfl, rfl⟩
  | .failed _ :: _, .suspended _ => exact ⟨_, rfl, rfl, rfl⟩

private theorem terminal_ne_chunk (events : List ProviderStreamEvent) (content : String) :
    terminal events ≠ some (.chunk content) := by
  induction events with
  | nil => intro h; cases h
  | cons event rest ih =>
    cases event with
    | chunk _ => exact ih
    | completed _ => intro h; cases h
    | failed _ => intro h; cases h

variable (py ports request w) in
/-- A generator suspended at a terminal event has nothing more to give. -/
private theorem read_terminal (k : Nat) :
    ((deliver py ports request).read k (.suspended .terminal) w).events = [] ∧
      ((deliver py ports request).read k (.suspended .terminal) w).error = none ∧
      (1 ≤ k →
        ((deliver py ports request).read k (.suspended .terminal) w).generator = .finished) ∧
      (deliver py ports request).aclose
          ((deliver py ports request).read k (.suspended .terminal) w).generator
          ((deliver py ports request).read k (.suspended .terminal) w).world = w.closeStream := by
  cases k with
  | zero => exact ⟨rfl, rfl, fun h => absurd h (by omega), rfl⟩
  | succ k => exact ⟨rfl, rfl, fun _ => rfl, rfl⟩

section Run
variable {r : BudgetReservation}
  (hr : l.tables.rows .budgetReservation request.key = some r) (hs : r.status = .reserved)
  (releases : (release ports.toPorts request l).2 = .ok ())
include hr hs releases

/-- Closed at the `yield` of a chunk. -/
private theorem relayed_abandoned {buffered : List String} {events : List ProviderStreamEvent}
    (hl : w.ledger = l) (remaining : w.upstream.remaining = events) :
    Relayed py ports request l buffered events 0 (releaseHold ports request w).closeStream [] none where
  delivered := by simp
  consumed := by
    rw [closeStream_remaining, Nat.zero_min, List.drop_zero]
    exact remaining
  reached h := absurd h (Nat.not_lt_zero _)
  abandoned _ := by
    subst hl
    exact ⟨releaseHold_released hr hs releases rfl, rfl, rfl⟩
  raised := .inl rfl

/-- The pulls from the last chunk on: what ends the stream, and then nothing. -/
private theorem read_end {events : List ProviderStreamEvent} (hlast : leading events = [])
    (handled : SettlesOrHandled py ports request l (terminal events)) (buffered : List String)
    (k : Nat) (sending : Sending w events) (hl : w.ledger = l) :
    let reading := (deliver py ports request).read (k + 1) (.suspended (.chunk buffered)) w
    Relayed py ports request l buffered events (k + 1)
        ((deliver py ports request).aclose reading.generator reading.world) reading.events
        reading.error ∧ (1 ≤ k → reading.generator = .finished) := by
  obtain ⟨w', hnext, hledger, hremaining⟩ := sending.last hlast
  have turn := relayEvent_terminal buffered hr hs releases (hledger.trans hl) handled
    (terminal_ne_chunk events)
  have once : (deliver py ports request).anext (.suspended (.chunk buffered)) w =
      ((relayEvent py ports request buffered (terminal events) w').1,
        (relayEvent py ports request buffered (terminal events) w').2.after) := by
    simp only [Function.anext, deliver, hnext]
  rcases hturn : relayEvent py ports request buffered (terminal events) w' with
    ⟨w'', ⟨event, frame⟩ | _ | e⟩
  all_goals
    rw [hturn] at turn once
    obtain ⟨concluded, kept, told⟩ := turn
    have relayed {left : StreamWorld pg} {delivered : List InferenceStreamEvent}
        {error : Option OperationError} (hledger : left.ledger = w''.ledger)
        (hleft : left.upstream.remaining = w''.upstream.remaining)
        (hdelivered : delivered =
          (ending py ports request l (terminal events)).toList.map .failed)
        (herror : error = none ∨ error = some .cachePut ∧ ports.put = .raises ∧
          Settles py ports request l (terminal events)) :
        Relayed py ports request l buffered events (k + 1) left delivered error := by
      refine ⟨by simp [hlast, hdelivered], ?_, fun _ => ?_, fun h => ?_, ?_⟩
      · rw [hleft, kept, hremaining, hlast, List.length_nil, Nat.zero_add,
          Nat.min_eq_right (Nat.succ_pos k)]
      · rw [hledger, hlast, List.append_nil]
        exact concluded
      · rw [hlast] at h
        exact absurd h (Nat.not_succ_le_zero k)
      · rcases herror with herror | ⟨herror, hput, hsettles⟩
        · exact .inl herror
        · exact .inr ⟨herror, hput, by rw [hlast]; exact Nat.succ_pos k, hsettles⟩
  · obtain ⟨failure, rfl, rfl, told⟩ := told
    obtain ⟨hevents, herror, hfinished, hclosed⟩ :=
      read_terminal py ports request w'' k
    simp only [Function.read, once, Stop.after, Reading.after]
    rw [hclosed]
    refine ⟨relayed rfl (closeStream_remaining w'') ?_ (.inl herror), hfinished⟩
    rw [hevents, told]
    rfl
  · simp only [Function.read, once, Stop.after]
    exact ⟨relayed rfl rfl (by rw [told]; rfl) (.inl rfl), fun _ => trivial⟩
  · obtain ⟨rfl, hput, hsettles⟩ := told
    simp only [Function.read, once, Stop.after]
    refine ⟨relayed rfl rfl ?_ (.inr ⟨rfl, hput, hsettles⟩), fun _ => trivial⟩
    rw [(ending_eq_none_iff _).mpr hsettles]
    rfl

omit hr hs releases in
/-- One chunk taken. -/
private theorem Relayed.chunk {buffered : List String} {content : String}
    {rest : List ProviderStreamEvent} {k : Nat} {left : StreamWorld pg}
    {delivered : List InferenceStreamEvent} {error : Option OperationError}
    (h : Relayed py ports request l (buffered ++ [content]) rest k left delivered error) :
    Relayed py ports request l buffered (.chunk content :: rest) (k + 1) left
      (.chunk content :: delivered) error where
  delivered := by
    simp only [leading, terminal, List.take_succ_cons, List.map_cons, List.length_cons,
      Nat.add_lt_add_iff_right, List.cons_append, ← h.delivered]
  consumed := by
    rw [leading, List.length_cons, Nat.add_min_add_right, List.drop_succ_cons]
    exact h.consumed
  reached hk := by
    rw [leading, List.append_cons]
    exact h.reached (Nat.lt_of_succ_lt_succ hk)
  abandoned hk := h.abandoned (Nat.le_of_succ_le_succ hk)
  raised := by
    rcases h.raised with herror | ⟨herror, hput, hk, hsettles⟩
    · exact .inl herror
    · exact .inr ⟨herror, hput, Nat.succ_lt_succ hk, hsettles⟩

/-- The pulls from a `yield` on, by how many of the chunks still to come they take. -/
private theorem read_relayed (events : List ProviderStreamEvent)
    (handled : SettlesOrHandled py ports request l (terminal events)) (buffered : List String)
    (k : Nat) (sending : Sending w events) (hl : w.ledger = l) :
    let reading := (deliver py ports request).read k (.suspended (.chunk buffered)) w
    Relayed py ports request l buffered events k
        ((deliver py ports request).aclose reading.generator reading.world) reading.events
        reading.error ∧
      ((leading events).length + 2 ≤ k → reading.generator = .finished) := by
  induction events generalizing buffered k w with
  | nil =>
    cases k with
    | zero =>
      exact ⟨relayed_abandoned hr hs releases hl (congrArg Upstream.remaining sending.1),
        fun h => absurd h (by omega)⟩
    | succ k =>
      obtain ⟨relayed, finished⟩ := read_end hr hs releases rfl handled buffered k sending hl
      exact ⟨relayed, fun h => finished (Nat.le_of_succ_le_succ h)⟩
  | cons event rest ih =>
    cases k with
    | zero =>
      exact ⟨relayed_abandoned hr hs releases hl (congrArg Upstream.remaining sending.1),
        fun h => absurd h (by omega)⟩
    | succ k =>
      cases event with
      | chunk content =>
        obtain ⟨w', hnext, sending', hledger⟩ := sending.next
        obtain ⟨relayed, finished⟩ :=
          ih handled (buffered ++ [content]) k sending' (hledger.trans hl)
        have once : (deliver py ports request).anext (.suspended (.chunk buffered)) w =
            (w', .suspended (.chunk (buffered ++ [content])), .item (.chunk content)) := by
          simp only [Function.anext, deliver, hnext]
          rfl
        simp only [Function.read, once, Reading.after]
        refine ⟨relayed.chunk, fun h => finished ?_⟩
        simp only [leading, List.length_cons] at h
        omega
      | completed usage =>
        obtain ⟨relayed, finished⟩ := read_end hr hs releases rfl handled buffered k sending hl
        exact ⟨relayed, fun h => finished (Nat.le_of_succ_le_succ h)⟩
      | failed failure =>
        obtain ⟨relayed, finished⟩ := read_end hr hs releases rfl handled buffered k sending hl
        exact ⟨relayed, fun h => finished (Nat.le_of_succ_le_succ h)⟩

end Run

/-- An opened session that is no replay: the reservation was permitted, and the first event is
waiting to be delivered. -/
private theorem openStream_permitted {T : Tables (schema pg)} {events : List ProviderStreamEvent}
    {session : StreamSession} {g : Events} (miss : replayable ports = none)
    (opened : openStream py ports request (.start T events) = (w, .ok session))
    (hg : session.events = some g) :
    ∃ ledger reservation first rest,
      reserve py ports.toPorts request { tables := T } = (ledger, .ok reservation) ∧
      reservation.permitted = true ∧ events = first :: rest ∧ g = .unstarted (.deliver first) ∧
      w = ⟨ledger, ⟨rest, false⟩, .suspended ()⟩ := by
  simp only [openStream, miss, StreamWorld.start] at opened
  rcases hres : reserve py ports.toPorts request { tables := T } with ⟨ledger, e | reservation⟩
  · rw [hres] at opened
    cases e with
    | cost e =>
      dsimp only at opened
      split_ifs at opened
      · cases opened
        cases hg
      · cases opened
    | ledger e => cases opened
    | cachePut => cases opened
  · rw [hres] at opened
    cases houtcome : reservation.outcome with
    | unavailable =>
      simp only [houtcome] at opened
      cases opened
      cases hg
    | exceeded =>
      simp only [houtcome] at opened
      cases opened
      cases hg
    | reserved =>
      simp only [houtcome] at opened
      have permitted : reservation.permitted = true := by simp [ReservationResult.permitted, houtcome]
      match events with
      | [] => cases opened; cases hg
      | .failed _ :: _ => cases opened; cases hg
      | .chunk _ :: _ =>
        cases opened
        cases hg
        exact ⟨_, _, _, _, rfl, permitted, rfl, rfl, rfl⟩
      | .completed _ :: _ =>
        cases opened
        cases hg
        exact ⟨_, _, _, _, rfl, permitted, rfl, rfl, rfl⟩

/-- The pulls a consumer makes. The last one of a drain only ends the generator. -/
def pulls (events : List ProviderStreamEvent) : Consumer → Nat
  | .close k => k
  | .drain => (leading events).length + 2

/-- Whatever the provider sends and wherever its consumer stops, an opened stream delivers what it
took of the chunks and then at most the failure of its end; it takes nothing past that end; and it
settles, caches and reports an end that it reached, or gives the hold back. -/
theorem stream_relayed (py : PythonStr) (ports : StreamPorts) (request : RoutedRequest)
    (T : Tables (schema pg)) (events : List ProviderStreamEvent) (w : StreamWorld pg)
    (session : StreamSession) (g : Events)
    (fresh : T.rows .budgetReservation request.key = none) (miss : replayable ports = none)
    (opened : openStream py ports request (.start T events) = (w, .ok session))
    (hg : session.events = some g)
    (handled : SettlesOrHandled py ports request w.ledger (terminal events))
    (releases : (release ports.toPorts request w.ledger).2 = .ok ())
    (consumer : Consumer) (started : consumer ≠ .close 0) :
    (w.ledger.observed = [] ∧ w.ledger.puts = []) ∧
      (∃ left delivered error,
        (deliver py ports request).Reads g w consumer left delivered error) ∧
      ∀ left delivered error, (deliver py ports request).Reads g w consumer left delivered error →
        Relayed py ports request w.ledger [] events (pulls events consumer) left delivered error ∧
          ((leading events).length < pulls events consumer →
            ((∀ failure, .failed failure ∉ delivered) ↔
              Settles py ports request w.ledger (terminal events))) := by
  obtain ⟨ledger, reservation, first, rest, hres, permitted, rfl, rfl, rfl⟩ :=
    openStream_permitted miss opened hg
  have reserved : (reserve py ports.toPorts request { tables := T }).1 = ledger := by rw [hres]
  have held : NewlyHeld py ports.toPorts request { tables := T } :=
    newlyHeld_of_fresh fresh (congrArg Prod.snd hres) permitted
  obtain ⟨_, r, _, _, _, _, hr, hs, _⟩ := reserve_of_newlyHeld held
  have reports : (reserve py ports.toPorts request { tables := T }).1.observed = ({ tables := T } : World pg).observed ∧
      (reserve py ports.toPorts request { tables := T }).1.puts = ({ tables := T } : World pg).puts := reserve_reports
  rw [reserved] at hr reports
  -- The first event was taken by `open`: as if the generator were about to take it.
  have before : Sending (⟨ledger, ⟨first :: rest, false⟩, .unstarted ()⟩ : StreamWorld pg)
      (first :: rest) := ⟨rfl, fun h => by cases h⟩
  have relayed (k : Nat) (hk : k ≠ 0) :
      let reading := (deliver py ports request).read k (.unstarted (.deliver first))
        ⟨ledger, ⟨rest, false⟩, .suspended ()⟩
      Relayed py ports request ledger [] (first :: rest) k
          ((deliver py ports request).aclose reading.generator reading.world) reading.events
          reading.error ∧
        ((leading (first :: rest)).length + 2 ≤ k → reading.generator = .finished) := by
    obtain ⟨k, rfl⟩ := Nat.exists_eq_succ_of_ne_zero hk
    exact read_relayed hr hs releases (first :: rest) handled [] (k + 1) before rfl
  have closed (k : Nat) (hk : k ≠ 0) {left delivered error}
      (h : (deliver py ports request).Reads (.unstarted (.deliver first))
        ⟨ledger, ⟨rest, false⟩, .suspended ()⟩ (.close k) left delivered error) :
      Relayed py ports request ledger [] (first :: rest) k left delivered error := by
    obtain ⟨rfl, rfl, rfl⟩ := h
    exact (relayed k hk).1
  have drained := (relayed ((leading (first :: rest)).length + 2) (Nat.succ_ne_zero _)).2 le_rfl
  have relays {left delivered error}
      (h : (deliver py ports request).Reads (.unstarted (.deliver first))
        ⟨ledger, ⟨rest, false⟩, .suspended ()⟩ consumer left delivered error) :
      Relayed py ports request ledger [] (first :: rest) (pulls (first :: rest) consumer) left
        delivered error := by
    cases consumer with
    | close k => exact closed k (fun hk => started (by rw [hk])) h
    | drain => exact closed _ (Nat.succ_ne_zero _) ((reads_drain_iff drained).mp h)
  refine ⟨reports, ?_, fun left delivered error h => ⟨relays h, (relays h).success⟩⟩
  cases consumer with
  | close k => exact ⟨_, _, _, rfl, rfl, rfl⟩
  | drain => exact ⟨_, _, _, (reads_drain_iff drained).mpr ⟨rfl, rfl, rfl⟩⟩

/-- Drained: both chunks, no failure, and the whole text cached. -/
theorem stream_relayed_short :
    ∃ left delivered error,
      (deliver asciiStr pricedStream shortRequest).Reads (.unstarted (.deliver (.chunk "an")))
        openedShort.1 .drain left delivered error ∧
      delivered = [.chunk "an", .chunk "swer"] ∧
      statusOf left.ledger.tables.rows shortRequest.key = some .committed ∧
      left.ledger.puts = [⟨"openai", "gpt-4o", some (.text "answer")⟩] ∧
      left.ledger.observed = [⟨true, none⟩] := by
  have opened : openStream asciiStr pricedStream shortRequest
      (.start (configured contended 1 ⟨10 ^ 9, "USD", 0, 0⟩) shortStream) =
        (openedShort.1, .ok shortSession) := Prod.ext rfl (by decide +kernel)
  have accounted : (settle asciiStr pricedStream.toPorts shortRequest (some ⟨9, 4⟩)
      openedShort.1.ledger).2.toBool = true := by decide +kernel
  have settles : Settles asciiStr pricedStream shortRequest openedShort.1.ledger
      (terminal shortStream) := by
    cases hsettle : (settle asciiStr pricedStream.toPorts shortRequest (some ⟨9, 4⟩)
        openedShort.1.ledger).2 with
    | ok detail => exact ⟨⟨9, 4⟩, detail, rfl, hsettle⟩
    | error e => rw [hsettle] at accounted; cases accounted
  have handled : SettlesOrHandled asciiStr pricedStream shortRequest openedShort.1.ledger
      (terminal shortStream) := by
    rintro usage e h raised
    cases h
    rw [raised] at accounted
    cases accounted
  obtain ⟨⟨observed, puts⟩, ⟨left, delivered, error, reads⟩, relayed⟩ := stream_relayed asciiStr
    pricedStream shortRequest (configured contended 1 ⟨10 ^ 9, "USD", 0, 0⟩) shortStream
    openedShort.1 shortSession (.unstarted (.deliver (.chunk "an"))) (by decide +kernel) rfl opened
    rfl handled (by decide +kernel) .drain (by decide)
  obtain ⟨relayed, _⟩ := relayed left delivered error reads
  obtain ⟨committed, cached⟩ := (relayed.reached (by decide)).settled settles
  refine ⟨left, delivered, error, reads, ?_, committed, ?_, ?_⟩
  · rw [relayed.delivered, (ending_eq_none_iff _).mpr settles]
    rfl
  · rw [cached]
    exact congrArg (· ++ _) puts
  · rw [(relayed.reached (by decide)).observed, observed]
    rfl

end LlmGateway.Streaming
