import LlmGateway.Lib.JsonText
import LlmGateway.Lib.Sse
import LlmGateway.Streaming.Coordinator

/-! The frames of a streamed response as text, and what a client reads out of it. -/
namespace LlmGateway.Streaming
open Lib Lib.AsyncGenerator Ledger.Sql Accounting Execution

def errorBody (errorType code message requestId : String) (retryable : Bool) : Json Empty :=
  .obj [("error", .obj [("type", .str errorType), ("code", .str code), ("message", .str message),
    ("request_id", .str requestId), ("retryable", .bool retryable)])]

def providerFailed : String := "The upstream provider failed to complete this request."

/-- The body of the one error a stream ends with. -/
def failedBody (requestId : String) : Json Empty :=
  errorBody "provider_error" "provider_failed" providerFailed requestId true

def deltaBody (content : String) : Json Empty := .obj [("delta", .str content)]

/-- `_sse`. -/
def sse (data : List Char) (event : Option (List Char)) : List Char :=
  (event.elim [] fun event => "event: ".toList ++ event ++ ['\n']) ++
    ("data: ".toList ++ data ++ ['\n', '\n'])

namespace Frame

def doneSentinel : List Char := "[DONE]".toList

-- `json.dumps` with its default separators; neither body holds a number it could refuse.
def render : Frame → List Char
  | .delta content => sse (Json.text true (deltaBody content)) none
  | .error requestId => sse (Json.text true (failedBody requestId)) (some "error".toList)
  | .done => sse doneSentinel none

end Frame

/-- What `_frame` yields for the events it is given. -/
def framesOf (requestId : String) : List InferenceStreamEvent → List Frame
  | [] => [.done]
  | .chunk content :: rest => .delta content :: framesOf requestId rest
  | .failed _ :: _ => [.error requestId]

def bodyText (requestId : String) (events : List InferenceStreamEvent) : List Char :=
  (framesOf requestId events).flatMap Frame.render

/-! ### `_frame` over a generator -/

section
variable {pg : Postgres} {py : PythonStr} {ports : StreamPorts} {request : RoutedRequest} {requestId : String}

/-- About to pull its own generator, at the start or after a chunk. -/
private theorem frame_anext {events : Events} {g : Generator Events Framing}
    (hg : g = .unstarted events ∨ g = .suspended (.delta events)) (w : StreamWorld pg) :
    (frame py ports request requestId).anext g w =
      ((frameNext py ports request requestId events w).1, (frameNext py ports request requestId events w).2.after) := by
  rcases hg with rfl | rfl <;> rfl

private theorem frame_ending (n : Nat) (events : Events) (w : StreamWorld pg) :
    (frame py ports request requestId).drain (n + 1) (.suspended (.ending events)) w =
      some ((deliver py ports request).aclose events w, [], none) := rfl

/-- Drained, `_frame` yields the frames of the events its own generator yields. -/
theorem frame_drain {n : Nat} {events : Events} {w w' : StreamWorld pg} {given : List InferenceStreamEvent}
    {g : Generator Events Framing} (hg : g = .unstarted events ∨ g = .suspended (.delta events))
    (h : (deliver py ports request).drain n events w = some (w', given, none)) :
    ∃ w'', (frame py ports request requestId).drain (n + 1) g w = some (w'', framesOf requestId given, none) := by
  induction n generalizing events w given g with
  | zero => cases h
  | succ n ih =>
    have step : (frame py ports request requestId).anext g w = _ := frame_anext hg w
    rcases pulled : (deliver py ports request).anext events w with ⟨w₁, events₁, (content | failure) | _ | error⟩
    · rw [drain_item pulled] at h
      obtain ⟨⟨w₂, later, error⟩, drained, heq⟩ := Option.map_eq_some_iff.mp h
      cases heq
      rw [frameNext, pulled] at step
      obtain ⟨w'', rest⟩ := ih (.inr rfl) drained
      exact ⟨w'', by rw [drain_item step, rest]; rfl⟩
    · rw [drain_item pulled] at h
      obtain ⟨⟨w₂, later, error⟩, -, heq⟩ := Option.map_eq_some_iff.mp h
      cases heq
      rw [frameNext, pulled] at step
      exact ⟨_, by rw [drain_item step, frame_ending]; rfl⟩
    · rw [drain_stop pulled] at h
      cases h
      rw [frameNext, pulled] at step
      exact ⟨_, by rw [drain_item step, frame_ending]; rfl⟩
    · rw [drain_error pulled] at h
      cases h

end

/-! ### The client -/

/-- What a client takes an event for. -/
inductive Received where
  | delta (content : String)
  | error (body : Json Empty)
  | done

def receive (event : Sse.Event) : Option Received :=
  if event.type = "error".toList then (Json.loads event.data).map .error
  else if event.data = Frame.doneSentinel then some .done
  else
    match Json.loads event.data with
    | some (.obj members) =>
      match members.lookup "delta" with
      | some (.str content) => some (.delta content)
      | _ => none
    | _ => none

private theorem plain_text (v : Json Empty) : Sse.Plain (Json.text true v) := by
  have printable := Json.text_printable true v
  constructor
  · intro hm
    exact absurd (printable _ hm) (by decide)
  · intro hm
    exact absurd (printable _ hm) (by decide)

theorem parse_sse {data : List Char} (h : Sse.Plain data) (rest : List Char) :
    Sse.parse (sse data none ++ rest) = ⟨Sse.defaultType, data⟩ :: Sse.parse rest := by
  have shape : sse data none ++ rest = "data: ".toList ++ data ++ '\n' :: '\n' :: rest := by
    simp only [sse, Option.elim_none, List.nil_append, List.append_assoc, List.cons_append]
  rw [shape, Sse.parse_data h]

theorem parse_sse_event {data event : List Char} (ne : event ≠ []) (he : Sse.Plain event) (h : Sse.Plain data)
    (rest : List Char) : Sse.parse (sse data (some event) ++ rest) = ⟨event, data⟩ :: Sse.parse rest := by
  have shape : sse data (some event) ++ rest =
      "event: ".toList ++ event ++ '\n' :: ("data: ".toList ++ data ++ '\n' :: '\n' :: rest) := by
    simp only [sse, Option.elim_some, List.nil_append, List.append_assoc, List.cons_append]
  rw [shape, Sse.parse_event ne he h]

/-- The event a frame is on the wire. -/
def Frame.event : Frame → Sse.Event
  | .delta content => ⟨Sse.defaultType, Json.text true (deltaBody content)⟩
  | .error requestId => ⟨"error".toList, Json.text true (failedBody requestId)⟩
  | .done => ⟨Sse.defaultType, Frame.doneSentinel⟩

theorem parse_render (f : Frame) (rest : List Char) :
    Sse.parse (f.render ++ rest) = f.event :: Sse.parse rest := by
  cases f with
  | delta content => exact parse_sse (plain_text _) rest
  | error requestId => exact parse_sse_event (by decide) (by decide) (plain_text _) rest
  | done => exact parse_sse (by decide) rest

theorem parse_frames (frames : List Frame) : Sse.parse (frames.flatMap Frame.render) = frames.map Frame.event := by
  induction frames with
  | nil => rfl
  | cons f frames ih => rw [List.flatMap_cons, parse_render, ih, List.map_cons]

def Frame.received : Frame → Received
  | .delta content => .delta content
  | .error requestId => .error (failedBody requestId)
  | .done => .done

private theorem delta_ne_done (content : String) : Json.text true (deltaBody content) ≠ Frame.doneSentinel := by
  rw [deltaBody, Json.text]
  intro h
  exact absurd (List.cons.inj h).1 (by decide)

theorem receive_event (f : Frame) : receive f.event = some f.received := by
  cases f with
  | delta content =>
    rw [Frame.event, receive]
    dsimp only
    rw [if_neg (by decide), if_neg (delta_ne_done content), Json.loads_text]
    rfl
  | error requestId =>
    rw [Frame.event, receive]
    dsimp only
    rw [if_pos rfl, Json.loads_text]
    rfl
  | done => rfl

private theorem framesOf_chunks (requestId : String) (chunks : List String) (rest : List InferenceStreamEvent) :
    framesOf requestId (chunks.map .chunk ++ rest) = chunks.map .delta ++ framesOf requestId rest := by
  induction chunks with
  | nil => rfl
  | cons content chunks ih =>
    rw [List.map_cons, List.cons_append, framesOf, ih]
    rfl

/-- What a client reads: the chunks' texts in order, then one closing frame. -/
theorem frames_round_trip (requestId : String) (chunks : List String)
    (failure : Option (StreamFailed × List InferenceStreamEvent)) :
    (Sse.parse (bodyText requestId
        (chunks.map .chunk ++ failure.elim [] fun (failed, further) => .failed failed :: further))).map receive =
      chunks.map (fun content => some (.delta content)) ++
        [some (if failure.isSome then .error (failedBody requestId) else .done)] := by
  have received (frames : List Frame) :
      (Sse.parse (frames.flatMap Frame.render)).map receive = frames.map fun f => some f.received := by
    rw [parse_frames, List.map_map]
    exact List.map_congr_left fun f _ => receive_event f
  rw [bodyText, received, framesOf_chunks, List.map_append, List.map_map]
  congr 1
  cases failure with
  | none => rfl
  | some failure => rfl

end LlmGateway.Streaming
