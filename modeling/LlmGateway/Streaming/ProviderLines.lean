import LlmGateway.Lib.Json
import LlmGateway.Lib.Str
import LlmGateway.Streaming.Coordinator

/-! `OpenAiCompatibleProviderClient.stream`: the lines of a streamed response as owned events. -/
namespace LlmGateway.Streaming
open Lib Accounting Execution

def malformedEvent : StreamFailed := ⟨"provider returned a malformed stream event", some .serverError⟩

def doneSentinel : String := "[DONE]"

def payloadOf (line : String) : Option String :=
  let stripped := Str.strip Str.isspace line.toList
  if "data:".toList.isPrefixOf stripped then some (String.ofList (Str.strip Str.isspace (stripped.drop 5)))
  else none

section
variable {F : Type}

/-- A value that `isinstance(value, int)` accepts; a `bool` is one. -/
def asInt : Option (Json F) → Option Int
  | some (.int n) => some n
  | some (.bool b) => some b.toNat
  | _ => none

def usageFrom (event : Json.Members F) : Option ProviderUsage :=
  match event.lookup "usage" with
  | some (.obj raw) =>
    match asInt (raw.lookup "prompt_tokens"), asInt (raw.lookup "completion_tokens") with
    | some prompt, some completion => some ⟨prompt, completion⟩
    | _, _ => none
  | _ => none

def deltaFrom (event : Json.Members F) : String :=
  match event.lookup "choices" with
  | some (.arr (.obj first :: _)) =>
    match first.lookup "delta" with
    | some (.obj delta) =>
      match delta.lookup "content" with
      | some (.str content) => content
      | _ => ""
    | _ => ""
  | _ => ""

/-- How the body of a response ends: by itself, or by an exception of `httpx`. -/
inductive BodyEnd where
  | complete
  | timeout
  | transportError
  deriving DecidableEq, Repr

/-- What a call comes to. -/
inductive Reply where
  | timeout
  | transportError
  | response (status : Nat) (lines : List String) (ending : BodyEnd)

/-- The events, and the lines that were not read. -/
structure Streamed where
  events : List ProviderStreamEvent
  unread : List String
  deriving DecidableEq, Repr

def Streamed.after (s : Streamed) (event : ProviderStreamEvent) : Streamed := { s with events := event :: s.events }

def timedOut : StreamFailed := ⟨"provider call timed out", some .timeout⟩

def transportFailed : StreamFailed := ⟨"provider transport error", some .serverError⟩

def BodyEnd.events : BodyEnd → List ProviderStreamEvent
  | .complete => []
  | .timeout => [.failed timedOut]
  | .transportError => [.failed transportFailed]

def categoryForStatus (status : Nat) : ProviderErrorCategory :=
  match status with
  | 400 | 404 | 422 => .invalidRequest
  | 401 | 403 => .authentication
  | 408 => .timeout
  | 429 => .rateLimited
  | _ => if 500 ≤ status then .serverError else .invalidRequest

-- `json.loads`, with `none` for a `ValueError`.
variable (loads : String → Option (Json F))

def decodeFrame (data : String) : Option (Json.Members F) :=
  match loads data with
  | some (.obj event) => some event
  | _ => none

/-- The loop over the lines, with the usage reported so far. -/
def readLines (ending : BodyEnd) (usage : Option ProviderUsage) : List String → Streamed
  | [] => ⟨ending.events, []⟩
  | line :: rest =>
    match payloadOf line with
    | none => readLines ending usage rest
    | some data =>
      if data = doneSentinel then ⟨[.completed usage], rest⟩
      else
        match decodeFrame loads data with
        | none => ⟨[.failed malformedEvent], rest⟩
        | some event =>
          let usage := (usageFrom event).or usage
          let delta := deltaFrom event
          if delta = "" then readLines ending usage rest
          else (readLines ending usage rest).after (.chunk delta)

/-- `connected` is whether the provider has a connection configured. -/
def streamCall (connected : Bool) (reply : Reply) : Streamed :=
  if connected = false then ⟨[.failed ⟨"provider has no connection configured", some .authentication⟩], []⟩
  else
    match reply with
    | .timeout => ⟨[.failed timedOut], []⟩
    | .transportError => ⟨[.failed transportFailed], []⟩
    | .response status lines ending =>
      if 400 ≤ status then
        ⟨[.failed ⟨"provider returned HTTP " ++ toString status, some (categoryForStatus status)⟩], []⟩
      else readLines loads ending none lines

end

/-! ### What the stream promises -/

section
variable {F : Type}

/-- The content of a chunk of recognised shape: `choices` is a list, empty or with a first element
whose delta has no content, null, or a text. -/
def chunkText (event : Json.Members F) : Option String :=
  match event.lookup "choices" with
  | some (.arr []) => some ""
  | some (.arr (.obj first :: _)) =>
    match first.lookup "delta" with
    | some (.obj delta) =>
      match delta.lookup "content" with
      | none | some .null => some ""
      | some (.str text) => some text
      | _ => none
    | _ => none
  | _ => none

variable (loads : String → Option (Json F))

/-- The content of a data line that carries a chunk of recognised shape. -/
def frameText (data : String) : Option String := (decodeFrame loads data).bind chunkText

def frameUsage (data : String) : Option ProviderUsage := (decodeFrame loads data).bind usageFrom

def payloads (lines : List String) : List String := lines.filterMap payloadOf

/-- The data lines before the first `[DONE]`. -/
def frames (lines : List String) : List String := (payloads lines).takeWhile (· ≠ doneSentinel)

/-- The text of the chunks, one after the other. -/
def textOf (events : List ProviderStreamEvent) : List Char :=
  events.flatMap fun event =>
    match event with
    | .chunk content => content.toList
    | _ => []

/-- The contents of recognised data lines, one after the other. -/
def contentsOf (frames : List String) : List Char := frames.flatMap fun data => ((frameText loads data).getD "").toList

/-- The usage of the last data line that reports one. -/
def lastUsage (frames : List String) : Option ProviderUsage := (frames.filterMap (frameUsage loads)).getLast?

/-- A line that ends nothing: it carries no event, or a chunk of recognised shape. -/
def Passing (line : String) : Prop :=
  ∀ data, payloadOf line = some data → data ≠ doneSentinel ∧ frameText loads data ≠ none

def IsChunk : ProviderStreamEvent → Prop
  | .chunk _ => True
  | _ => False

structure NothingDropped (lines : List String) (out : Streamed) : Prop where
  shape : ∃ chunks terminal, out.events = chunks ++ Option.toList terminal ∧ (∀ event ∈ chunks, IsChunk event) ∧
    ∀ event ∈ terminal, ¬ IsChunk event
  completes : (∃ usage, .completed usage ∈ out.events) ↔
    doneSentinel ∈ payloads lines ∧ ∀ data ∈ frames lines, frameText loads data ≠ none
  contents : ∀ usage, .completed usage ∈ out.events →
    textOf out.events = contentsOf loads (frames lines) ∧ usage = lastUsage loads (frames lines)
  fails : ∀ past line rest data, lines = past ++ line :: rest → (∀ earlier ∈ past, Passing loads earlier) →
    payloadOf line = some data → data ≠ doneSentinel → frameText loads data = none →
      out.events.getLast? = some (.failed malformedEvent) ∧ textOf out.events = contentsOf loads (payloads past) ∧
        out.unread = rest
  truncated : (∀ line ∈ lines, Passing loads line) → ∀ event ∈ out.events, IsChunk event

/-- The first data line that is neither `[DONE]` nor of recognised shape is no JSON object at all. -/
def Undisguised (lines : List String) : Prop :=
  ∀ past line rest data, lines = past ++ line :: rest → (∀ earlier ∈ past, Passing loads earlier) →
    payloadOf line = some data → data ≠ doneSentinel → frameText loads data = none → decodeFrame loads data = none

/-- The chunks of data lines that carry text. -/
def chunksOf (frames : List String) : List ProviderStreamEvent :=
  ((frames.filterMap (frameText loads)).filter (· ≠ "")).map .chunk

end

section
variable {F : Type} {loads : String → Option (Json F)} {ending : BodyEnd} {usage : Option ProviderUsage}
  {past lines rest : List String}

theorem deltaFrom_eq (event : Json.Members F) : deltaFrom event = (chunkText event).getD "" := by
  unfold deltaFrom chunkText
  rcases event.lookup "choices" with _ | choices
  · rfl
  · cases choices with
    | null | bool | int | float | str | obj => rfl
    | arr items =>
      rcases items with _ | ⟨first, items⟩
      · rfl
      · cases first with
        | null | bool | int | float | str | arr => rfl
        | obj first =>
          dsimp only
          rcases first.lookup "delta" with _ | delta
          · rfl
          · cases delta with
            | null | bool | int | float | str | arr => rfl
            | obj delta =>
              dsimp only
              rcases delta.lookup "content" with _ | content
              · rfl
              · cases content with
                | null | bool | int | float | str | arr | obj => rfl

theorem textOf_append (events events' : List ProviderStreamEvent) :
    textOf (events ++ events') = textOf events ++ textOf events' := List.flatMap_append

theorem textOf_chunksOf (frames : List String) : textOf (chunksOf loads frames) = contentsOf loads frames := by
  induction frames with
  | nil => rfl
  | cons data frames ih =>
    rw [contentsOf, List.flatMap_cons, ← contentsOf, ← ih, chunksOf, List.filterMap_cons]
    cases frameText loads data with
    | none => rfl
    | some text =>
      dsimp only
      by_cases empty : text = ""
      · rw [List.filter_cons_of_neg (by simpa using empty), empty]
        rfl
      · rw [List.filter_cons_of_pos (by simpa using empty)]
        rfl

theorem isChunk_of_mem_chunksOf {frames : List String} {event : ProviderStreamEvent}
    (h : event ∈ chunksOf loads frames) : IsChunk event := by
  obtain ⟨content, -, rfl⟩ := List.mem_map.mp h
  trivial

private theorem chunksOf_singleton (data : String) :
    chunksOf loads [data] = if (frameText loads data).getD "" = "" then [] else [.chunk ((frameText loads data).getD "")] := by
  rw [chunksOf, List.filterMap_cons, List.filterMap_nil]
  cases frameText loads data with
  | none => rfl
  | some text =>
    by_cases empty : text = ""
    · simp [empty]
    · simp [empty]

private theorem lastUsage_singleton (data : String) : lastUsage loads [data] = frameUsage loads data := by
  rw [lastUsage, List.filterMap_cons, List.filterMap_nil]
  cases frameUsage loads data with
  | none | some _ => rfl

/-- A passing line adds its text and its usage. -/
private theorem readLines_passing_cons {line : String} (passing : Passing loads line) :
    readLines loads ending usage (line :: rest) =
      ⟨chunksOf loads (payloads [line]) ++
          (readLines loads ending ((lastUsage loads (payloads [line])).or usage) rest).events,
        (readLines loads ending ((lastUsage loads (payloads [line])).or usage) rest).unread⟩ := by
  rw [readLines, payloads, List.filterMap_cons]
  cases payload : payloadOf line with
  | none => rfl
  | some data =>
    obtain ⟨not_done, recognised⟩ := passing data payload
    obtain ⟨text, htext⟩ := Option.ne_none_iff_exists'.mp recognised
    dsimp only
    rw [if_neg not_done, List.filterMap_nil, chunksOf_singleton, lastUsage_singleton, htext]
    cases decoded : decodeFrame loads data with
    | none =>
      rw [frameText, decoded] at htext
      cases htext
    | some event =>
      have usage_eq : frameUsage loads data = usageFrom event := by rw [frameUsage, decoded, Option.bind_some]
      have delta_eq : deltaFrom event = text := by
        rw [frameText, decoded, Option.bind_some] at htext
        rw [deltaFrom_eq, htext, Option.getD_some]
      dsimp only
      rw [delta_eq, usage_eq, Option.getD_some]
      by_cases empty : text = ""
      · rw [if_pos empty, if_pos empty]
        rfl
      · rw [if_neg empty, if_neg empty]
        rfl

private theorem payloads_append (past lines : List String) :
    payloads (past ++ lines) = payloads past ++ payloads lines := List.filterMap_append

private theorem chunksOf_append (frames frames' : List String) :
    chunksOf loads (frames ++ frames') = chunksOf loads frames ++ chunksOf loads frames' := by
  rw [chunksOf, List.filterMap_append, List.filter_append, List.map_append, chunksOf, chunksOf]

private theorem lastUsage_append (frames frames' : List String) :
    lastUsage loads (frames ++ frames') = (lastUsage loads frames').or (lastUsage loads frames) := by
  rw [lastUsage, List.filterMap_append, List.getLast?_append, lastUsage, lastUsage]

/-- Passing lines add their text and leave the last usage. -/
private theorem readLines_passing (passing : ∀ line ∈ past, Passing loads line) :
    readLines loads ending usage (past ++ rest) =
      ⟨chunksOf loads (payloads past) ++
          (readLines loads ending ((lastUsage loads (payloads past)).or usage) rest).events,
        (readLines loads ending ((lastUsage loads (payloads past)).or usage) rest).unread⟩ := by
  induction past generalizing usage with
  | nil => rfl
  | cons line past ih =>
    have split : payloads (line :: past) = payloads [line] ++ payloads past := payloads_append [line] past
    rw [List.cons_append, readLines_passing_cons (passing line List.mem_cons_self),
      ih fun line' h => passing line' (List.mem_cons_of_mem _ h), split, chunksOf_append, lastUsage_append,
      List.append_assoc, Option.or_assoc]

/-- Lines all pass, or there is a first that does not. -/
private theorem passing_or_stop (loads : String → Option (Json F)) (lines : List String) :
    (∀ line ∈ lines, Passing loads line) ∨ ∃ past line rest data, lines = past ++ line :: rest ∧
      (∀ earlier ∈ past, Passing loads earlier) ∧ payloadOf line = some data ∧
      (data = doneSentinel ∨ data ≠ doneSentinel ∧ frameText loads data = none) := by
  induction lines with
  | nil => exact .inl fun _ h => absurd h List.not_mem_nil
  | cons line lines ih =>
    by_cases passing : Passing loads line
    · rcases ih with all | ⟨past, line', rest, data, rfl, before, stop⟩
      · exact .inl fun line' h => (List.mem_cons.mp h).elim (· ▸ passing) (all line')
      · exact .inr ⟨line :: past, line', rest, data, rfl,
          fun earlier h => (List.mem_cons.mp h).elim (· ▸ passing) (before earlier), stop⟩
    · obtain ⟨data, stop⟩ := not_forall.mp passing
      obtain ⟨payload, stop⟩ := Classical.not_imp.mp stop
      refine .inr ⟨[], line, lines, data, rfl, fun _ h => absurd h List.not_mem_nil, payload, ?_⟩
      by_cases done : data = doneSentinel
      · exact .inl done
      · exact .inr ⟨done, not_not.mp fun recognised => stop ⟨done, recognised⟩⟩

/-! ### The data lines -/

private theorem payloads_passing (passing : ∀ line ∈ past, Passing loads line) :
    ∀ data ∈ payloads past, data ≠ doneSentinel ∧ frameText loads data ≠ none := by
  intro data h
  obtain ⟨line, hline, payload⟩ := List.mem_filterMap.mp h
  exact passing line hline data payload

private theorem takeWhile_passing (passing : ∀ line ∈ past, Passing loads line) (more : List String) :
    (payloads past ++ more).takeWhile (· ≠ doneSentinel) = payloads past ++ more.takeWhile (· ≠ doneSentinel) := by
  refine List.takeWhile_append_of_pos fun data h => decide_eq_true ?_
  exact (payloads_passing passing data h).1

private theorem payloads_stop {line data : String} (payload : payloadOf line = some data) :
    payloads (past ++ line :: rest) = payloads past ++ data :: payloads rest := by
  rw [payloads_append, payloads, payloads, List.filterMap_cons, payload]
  rfl

private theorem frames_done {line : String} (passing : ∀ line ∈ past, Passing loads line)
    (payload : payloadOf line = some doneSentinel) : frames (past ++ line :: rest) = payloads past := by
  rw [frames, payloads_stop payload, takeWhile_passing passing, List.takeWhile_cons_of_neg (by simp), List.append_nil]

private theorem mem_frames {line data : String} (passing : ∀ line ∈ past, Passing loads line)
    (payload : payloadOf line = some data) (not_done : data ≠ doneSentinel) :
    data ∈ frames (past ++ line :: rest) := by
  rw [frames, payloads_stop payload, takeWhile_passing passing, List.takeWhile_cons_of_pos (by simpa using not_done)]
  exact List.mem_append_right _ List.mem_cons_self

/-! ### Where the stream ends -/

private theorem readLines_all (passing : ∀ line ∈ lines, Passing loads line) :
    readLines loads .complete none lines = ⟨chunksOf loads (payloads lines), []⟩ := by
  have all : readLines loads .complete none (lines ++ []) = _ := readLines_passing passing
  rwa [List.append_nil, readLines, BodyEnd.events, List.append_nil] at all

private theorem readLines_done {line : String} (passing : ∀ line ∈ past, Passing loads line)
    (payload : payloadOf line = some doneSentinel) : readLines loads .complete none (past ++ line :: rest) =
      ⟨chunksOf loads (payloads past) ++ [.completed (lastUsage loads (payloads past))], rest⟩ := by
  rw [readLines_passing passing, readLines, payload, Option.or_none]
  rfl

private theorem readLines_malformed {line data : String} (passing : ∀ line ∈ past, Passing loads line)
    (payload : payloadOf line = some data) (not_done : data ≠ doneSentinel)
    (undecodable : decodeFrame loads data = none) : readLines loads .complete none (past ++ line :: rest) =
      ⟨chunksOf loads (payloads past) ++ [.failed malformedEvent], rest⟩ := by
  rw [readLines_passing passing, readLines, payload]
  dsimp only
  rw [if_neg not_done, undecodable]

/-- An object of another shape is passed over. -/
private theorem readLines_skipped (rest : List String) {line data : String} {event : Json.Members F}
    (passing : ∀ line ∈ past, Passing loads line) (payload : payloadOf line = some data)
    (not_done : data ≠ doneSentinel) (unrecognised : frameText loads data = none)
    (decoded : decodeFrame loads data = some event) : ∃ usage,
      readLines loads .complete none (past ++ line :: rest) =
        ⟨chunksOf loads (payloads past) ++ (readLines loads .complete usage rest).events,
          (readLines loads .complete usage rest).unread⟩ := by
  have no_text : deltaFrom event = "" := by
    rw [frameText, decoded, Option.bind_some] at unrecognised
    rw [deltaFrom_eq, unrecognised, Option.getD_none]
  refine ⟨(usageFrom event).or ((lastUsage loads (payloads past)).or none), ?_⟩
  rw [readLines_passing passing, readLines, payload]
  dsimp only
  rw [if_neg not_done, decoded]
  dsimp only
  rw [if_pos no_text]

/-- What is left unread comes after what was read. -/
private theorem unread_length (loads : String → Option (Json F)) (ending : BodyEnd) (usage : Option ProviderUsage)
    (lines : List String) : (readLines loads ending usage lines).unread.length ≤ lines.length - 1 := by
  induction lines generalizing usage with
  | nil => exact Nat.zero_le _
  | cons line rest ih =>
    have skip : ∀ usage, (readLines loads ending usage rest).unread.length ≤ rest.length := fun usage =>
      (ih usage).trans (Nat.sub_le _ _)
    rw [readLines]
    split
    next => exact skip _
    next =>
    split
    next => exact le_rfl
    next =>
    split
    next => exact le_rfl
    next =>
    dsimp only
    split
    next => exact skip _
    next => exact skip _

/-! ### The promise kept -/

private theorem not_completed {frames : List String} {usage : Option ProviderUsage} :
    .completed usage ∉ chunksOf loads frames := fun h => isChunk_of_mem_chunksOf h

private theorem completed_mem {frames : List String} {terminal : ProviderStreamEvent} {usage : Option ProviderUsage} :
    .completed usage ∈ chunksOf loads frames ++ [terminal] ↔ terminal = .completed usage := by
  rw [List.mem_append, or_iff_right not_completed, List.mem_singleton, eq_comm]

/-- Chunks and then at most one event that is none. -/
private theorem shape_chunksOf (frames : List String) (terminal : Option ProviderStreamEvent)
    (h : ∀ event ∈ terminal, ¬ IsChunk event) : ∃ chunks terminal',
      chunksOf loads frames ++ terminal.toList = chunks ++ Option.toList terminal' ∧
        (∀ event ∈ chunks, IsChunk event) ∧ ∀ event ∈ terminal', ¬ IsChunk event :=
  ⟨chunksOf loads frames, terminal, rfl, fun _ => isChunk_of_mem_chunksOf, h⟩

/-- How the stream ends, whichever line ends it. -/
private theorem ends (h : Undisguised loads lines) :
    (∃ chunks terminal, (readLines loads .complete none lines).events = chunks ++ Option.toList terminal ∧
      (∀ event ∈ chunks, IsChunk event) ∧ ∀ event ∈ terminal, ¬ IsChunk event) ∧
    ((∃ usage, .completed usage ∈ (readLines loads .complete none lines).events) ↔
      doneSentinel ∈ payloads lines ∧ ∀ data ∈ frames lines, frameText loads data ≠ none) ∧
    ∀ usage, .completed usage ∈ (readLines loads .complete none lines).events →
      textOf (readLines loads .complete none lines).events = contentsOf loads (frames lines) ∧
        usage = lastUsage loads (frames lines) := by
  rcases passing_or_stop loads lines with
    all | ⟨past, line, rest, data, rfl, before, payload, rfl | ⟨not_done, unrecognised⟩⟩
  · rw [readLines_all all]
    refine ⟨⟨_, none, (List.append_nil _).symm, fun _ => isChunk_of_mem_chunksOf, fun _ h => by cases h⟩,
      iff_of_false ?_ ?_, fun usage h => absurd h not_completed⟩
    · rintro ⟨usage, h⟩
      exact not_completed h
    · rintro ⟨done, -⟩
      exact (payloads_passing all _ done).1 rfl
  · rw [readLines_done before payload, frames_done before payload]
    refine ⟨shape_chunksOf _ (some _) ?_, iff_of_true ⟨_, completed_mem.mpr rfl⟩ ⟨?_, fun data h => ?_⟩, ?_⟩
    · rintro _ ⟨⟩
      exact id
    · rw [payloads_stop payload]
      exact List.mem_append_right _ List.mem_cons_self
    · exact (payloads_passing before data h).2
    · intro usage h
      cases completed_mem.mp h
      refine ⟨?_, rfl⟩
      rw [textOf_append, textOf_chunksOf]
      exact List.append_nil _
  · have undecodable := h past line rest data rfl before payload not_done unrecognised
    rw [readLines_malformed before payload not_done undecodable]
    refine ⟨shape_chunksOf _ (some _) ?_, iff_of_false ?_ ?_, fun usage h => ?_⟩
    · rintro _ ⟨⟩
      exact id
    · rintro ⟨usage, h⟩
      cases completed_mem.mp h
    · rintro ⟨-, recognised⟩
      exact recognised data (mem_frames before payload not_done) unrecognised
    · cases completed_mem.mp h

private theorem dropped_nothing (h : Undisguised loads lines) :
    NothingDropped loads lines (readLines loads .complete none lines) := by
  obtain ⟨shape, completes, contents⟩ := ends h
  refine ⟨shape, completes, contents, ?_, ?_⟩
  · rintro past line rest data rfl before payload not_done unrecognised
    rw [readLines_malformed before payload not_done
      (h past line rest data rfl before payload not_done unrecognised)]
    refine ⟨List.getLast?_concat, ?_, rfl⟩
    rw [textOf_append, textOf_chunksOf]
    exact List.append_nil _
  · intro all event hevent
    rw [readLines_all all] at hevent
    exact isChunk_of_mem_chunksOf hevent

private theorem undisguised_of_kept (h : NothingDropped loads lines (readLines loads .complete none lines)) :
    Undisguised loads lines := by
  rintro past line rest data rfl before payload not_done unrecognised
  by_contra decodable
  obtain ⟨event, decoded⟩ := Option.ne_none_iff_exists'.mp decodable
  obtain ⟨failed, -, unread⟩ := h.fails past line rest data rfl before payload not_done unrecognised
  obtain ⟨usage, skipped⟩ := readLines_skipped rest before payload not_done unrecognised decoded
  rw [skipped] at failed unread
  have short := unread_length loads .complete usage rest
  rw [unread] at short
  obtain rfl : rest = [] := List.length_eq_zero_iff.mp (by omega)
  rw [readLines, BodyEnd.events, List.append_nil] at failed
  exact isChunk_of_mem_chunksOf (List.mem_of_getLast? failed)

end

/-- A connected call answered below 400, whose body ends by itself: nothing is dropped exactly when no
JSON object of another shape is the first line out of place. -/
theorem stream_drops_nothing {F : Type} (loads : String → Option (Json F)) {status : Nat} (ok : status < 400)
    (lines : List String) :
    NothingDropped loads lines (streamCall loads true (.response status lines .complete)) ↔
      Undisguised loads lines := by
  have read : streamCall loads true (.response status lines .complete) = readLines loads .complete none lines := by
    rw [streamCall, if_neg (by decide)]
    exact if_neg (Nat.not_le.mpr ok)
  rw [read]
  exact ⟨undisguised_of_kept, dropped_nothing⟩

private def loadsError (data : String) : Option (Json Empty) :=
  if data = "\x7b\"error\": \x7b\x7d\x7d" then some (.obj [("error", .obj [])]) else none

private def firstChunk : String := "\x7b\"choices\": [\x7b\"delta\": \x7b\"content\": \"Hel\"\x7d\x7d]\x7d"

private def secondChunk : String := "\x7b\"choices\": [\x7b\"delta\": \x7b\"content\": \"lo\"\x7d\x7d]\x7d"

private def usageFrame : String :=
  "\x7b\"choices\": [], \"usage\": \x7b\"prompt_tokens\": 3, \"completion_tokens\": 2\x7d\x7d"

private def contentChunk (content : String) : Json Empty :=
  .obj [("choices", .arr [.obj [("delta", .obj [("content", .str content)])]])]

private def loadsChunks (data : String) : Option (Json Empty) :=
  if data = firstChunk then some (contentChunk "Hel")
  else if data = secondChunk then some (contentChunk "lo")
  else if data = usageFrame then
    some (.obj [("choices", .arr []), ("usage", .obj [("prompt_tokens", .int 3), ("completion_tokens", .int 2)])])
  else none

private def chunkLines : List String :=
  ["data: " ++ firstChunk, "", ": keep-alive", "data: " ++ secondChunk, "", "data: " ++ usageFrame, "", "data: [DONE]", ""]

/-- Two chunks, a usage frame and `[DONE]`, with lines in between that carry no event. -/
theorem stream_drops_nothing_done :
    streamCall loadsChunks true (.response 200 chunkLines .complete) =
        ⟨[.chunk "Hel", .chunk "lo", .completed (some ⟨3, 2⟩)], [""]⟩ ∧
      NothingDropped loadsChunks chunkLines (streamCall loadsChunks true (.response 200 chunkLines .complete)) := by
  refine ⟨by decide, (stream_drops_nothing loadsChunks (by decide) chunkLines).mpr ?_⟩
  have recognised : ∀ line ∈ chunkLines, ∀ data ∈ payloadOf line, data = doneSentinel ∨ frameText loadsChunks data ≠ none := by
    decide
  intro past line rest data split _ payload not_done unrecognised
  have there : line ∈ chunkLines := split ▸ List.mem_append_right _ List.mem_cons_self
  exact absurd unrecognised ((recognised line there data payload).resolve_left not_done)

/-- An error the provider sends in the stream is passed over, and the answer is complete. -/
theorem stream_drops_error : ¬ NothingDropped loadsError ["data: \x7b\"error\": \x7b\x7d\x7d", "data: [DONE]"]
    (streamCall loadsError true (.response 200 ["data: \x7b\"error\": \x7b\x7d\x7d", "data: [DONE]"] .complete)) := by
  intro h
  have out : streamCall loadsError true (.response 200 ["data: \x7b\"error\": \x7b\x7d\x7d", "data: [DONE]"] .complete) =
      ⟨[.completed none], []⟩ := by decide
  rw [out] at h
  obtain ⟨-, recognised⟩ := h.completes.mp ⟨none, List.mem_singleton_self _⟩
  exact recognised "\x7b\"error\": \x7b\x7d\x7d" (by decide) rfl

end LlmGateway.Streaming
