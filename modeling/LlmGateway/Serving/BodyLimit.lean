import Mathlib
import LlmGateway.Lib.Json
import LlmGateway.Lib.PyInt

/-! `RequestSizeLimitMiddleware`: the body of a request is bounded before the application is called. -/
namespace LlmGateway.Serving
open Lib

abbrev Bytes := List UInt8

/-- A literal `b"..."`. -/
def ascii (text : String) : Bytes := text.toList.map fun c => UInt8.ofNat c.toNat

structure HttpScope where
  type : String := "http"
  headers : List (Bytes × Bytes) := []
  /-- Of the state, where a middleware before this one set it. -/
  requestId : Option String := none

/-- What `receive` gives. The keys of a message may be missing. -/
inductive Message where
  | request (body : Option Bytes) (moreBody : Option Bool)
  | disconnect
  deriving DecidableEq, Repr

/-- The bytes of a message. -/
def Message.body : Message → Bytes
  | .request body _ => body.getD []
  | .disconnect => []

/-- `int(value)`, of bytes. -/
def intOfBytes (value : Bytes) : Option Int := PyInt.int (value.map fun b => Char.ofNat b.toNat)

def declaredLength (scope : HttpScope) : Option Int :=
  match scope.headers.find? fun header => header.1 = ascii "content-length" with
  | none => none
  | some (_, value) => intOfBytes value

structure JsonResponse where
  content : Json Empty
  statusCode : Nat

def tooLargeResponse (scope : HttpScope) (maxBytes : Nat) : JsonResponse where
  content := .obj [("error", .obj [
    ("type", .str "invalid_request_error"),
    ("code", .str "request_too_large"),
    ("message", .str ("Request body exceeds the maximum of " ++ toString maxBytes ++ " bytes.")),
    ("request_id", .str (scope.requestId.getD "unknown")),
    ("retryable", .bool false)])]
  statusCode := 413

/-- What the application receives from: the server's channel, or the messages already consumed and
then the channel. -/
inductive Receive where
  | direct (channel : List Message)
  | replaying (pending channel : List Message)

/-- One call of it. Nothing comes of a call the server has no message for. -/
def Receive.next : Receive → Option (Message × Receive)
  | .direct [] => none
  | .direct (message :: channel) => some (message, .direct channel)
  | .replaying (message :: pending) channel => some (message, .replaying pending channel)
  | .replaying [] [] => none
  | .replaying [] (message :: channel) => some (message, .replaying [] channel)

/-- The messages of the first calls. -/
def Receive.obtains : Nat → Receive → List Message
  | 0, _ => []
  | calls + 1, receive =>
    match receive.next with
    | none => []
    | some (message, receive) => message :: obtains calls receive

inductive Outcome where
  /-- Answered without the application. -/
  | refused (response : JsonResponse)
  | called (receive : Receive)
  /-- Still reading. -/
  | waiting

structure RequestSizeLimit where
  maxBytes : Nat
  positive : 1 ≤ maxBytes

def RequestSizeLimit.new (maxBytes : Int) : Except String RequestSizeLimit :=
  if h : maxBytes < 1 then
    .error ("max_bytes must be >= 1, got " ++ toString maxBytes ++
      "; a non-positive cap would refuse every request that carries a body at all")
  else .ok ⟨maxBytes.toNat, by omega⟩

namespace RequestSizeLimit
variable (limit : RequestSizeLimit)

/-- The loop over the channel, with what it has read. -/
def read (scope : HttpScope) (buffered : List Message) (received : Nat) : List Message → Outcome
  | [] => .waiting
  | .disconnect :: channel => .called (.replaying (buffered ++ [.disconnect]) channel)
  | .request body moreBody :: channel =>
    let buffered := buffered ++ [.request body moreBody]
    let received := received + (body.getD []).length
    if limit.maxBytes < received then .refused (tooLargeResponse scope limit.maxBytes)
    else if moreBody.getD false then read scope buffered received channel
    else .called (.replaying buffered channel)

def call (scope : HttpScope) (channel : List Message) : Outcome :=
  if scope.type ≠ "http" then .called (.direct channel)
  else
    match declaredLength scope with
    | some declared =>
      if limit.maxBytes < declared then .refused (tooLargeResponse scope limit.maxBytes)
      else .called (.direct channel)
    | none => limit.read scope [] 0 channel

end RequestSizeLimit

/-! ### What the server delivers -/

def bodyLength (messages : List Message) : Nat := (messages.map fun message => message.body.length).sum

/-- Parts of a body, then nothing but disconnects once it is complete or the client has gone. -/
def Delivered : List Message → Prop
  | [] => True
  | .disconnect :: rest => ∀ message ∈ rest, message = .disconnect
  | .request _ moreBody :: rest =>
    if moreBody.getD false then Delivered rest else ∀ message ∈ rest, message = .disconnect

def Complete (messages : List Message) : Prop :=
  ∃ body moreBody, .request body moreBody ∈ messages ∧ moreBody.getD false = false

/-- The length a Content-Length header gives: decimal digits. -/
def contentLength (value : Bytes) : Option Nat :=
  let text := value.map fun b => Char.ofNat b.toNat
  if text ≠ [] ∧ text.all (fun c => (PyInt.decimalDigit c).isSome) then some (PyInt.value PyInt.decimalDigit 10 text)
  else none

/-- A Transfer-Encoding header. -/
def HttpScope.Chunked (scope : HttpScope) : Prop := ∃ value, (ascii "transfer-encoding", value) ∈ scope.headers

/-- The framing the server keeps to: a Content-Length header is the length of the body, unless there
is a Transfer-Encoding header. -/
structure Frames (scope : HttpScope) (messages : List Message) : Prop where
  shape : Delivered messages
  length : ¬ scope.Chunked → ∀ value, (ascii "content-length", value) ∈ scope.headers →
    ∃ n, contentLength value = some n ∧ bodyLength messages ≤ n ∧ (Complete messages → bodyLength messages = n)

section
variable {limit : RequestSizeLimit} {scope : HttpScope} {messages : List Message}

@[simp] theorem bodyLength_cons (message : Message) (messages : List Message) :
    bodyLength (message :: messages) = message.body.length + bodyLength messages := List.sum_cons

theorem bodyLength_append (messages messages' : List Message) :
    bodyLength (messages ++ messages') = bodyLength messages + bodyLength messages' := by
  rw [bodyLength, List.map_append, List.sum_append, bodyLength, bodyLength]

theorem bodyLength_take_le (calls : Nat) (messages : List Message) :
    bodyLength (messages.take calls) ≤ bodyLength messages := by
  calc bodyLength (messages.take calls)
      ≤ bodyLength (messages.take calls) + bodyLength (messages.drop calls) := Nat.le_add_right _ _
    _ = bodyLength messages := by rw [← bodyLength_append, List.take_append_drop]

private theorem bodyLength_disconnects (h : ∀ message ∈ messages, message = .disconnect) :
    bodyLength messages = 0 := by
  induction messages with
  | nil => rfl
  | cons message rest ih =>
    rw [bodyLength_cons, h message List.mem_cons_self, ih fun m hm => h m (List.mem_cons_of_mem _ hm)]
    rfl

/-! ### What the application receives -/

theorem Receive.obtains_direct (calls : Nat) (channel : List Message) :
    (direct channel).obtains calls = channel.take calls := by
  induction calls generalizing channel with
  | zero => rfl
  | succ calls ih =>
    cases channel with
    | nil => rfl
    | cons message channel => exact congrArg (message :: ·) (ih channel)

/-- The buffer and then the channel, without a seam. -/
theorem Receive.obtains_replaying (calls : Nat) (pending channel : List Message) :
    (replaying pending channel).obtains calls = (pending ++ channel).take calls := by
  induction calls generalizing pending channel with
  | zero => rfl
  | succ calls ih =>
    cases pending with
    | cons message pending => exact congrArg (message :: ·) (ih pending channel)
    | nil =>
      cases channel with
      | nil => rfl
      | cons message channel => exact congrArg (message :: ·) (ih [] channel)

/-! ### The two paths -/

variable (scope) in
/-- The loop refuses what is over the limit, and of the rest it loses nothing. -/
private theorem read_spec {buffered channel : List Message} (shape : Delivered channel)
    (within : bodyLength buffered ≤ limit.maxBytes) :
    (limit.maxBytes < bodyLength (buffered ++ channel) ∧
        limit.read scope buffered (bodyLength buffered) channel = .refused (tooLargeResponse scope limit.maxBytes)) ∨
      (bodyLength (buffered ++ channel) ≤ limit.maxBytes ∧
        (limit.read scope buffered (bodyLength buffered) channel = .waiting ∨
          ∃ pending rest, pending ++ rest = buffered ++ channel ∧
            limit.read scope buffered (bodyLength buffered) channel = .called (.replaying pending rest))) := by
  induction channel generalizing buffered with
  | nil =>
    rw [List.append_nil]
    exact .inr ⟨within, .inl rfl⟩
  | cons message channel ih =>
    have joined : (buffered ++ [message]) ++ channel = buffered ++ message :: channel := by
      rw [List.append_assoc, List.singleton_append]
    have reached : bodyLength (buffered ++ [message]) = bodyLength buffered + message.body.length := by
      rw [bodyLength_append, bodyLength_cons]
      rfl
    cases message with
    | disconnect =>
      refine .inr ⟨?_, .inr ⟨_, channel, joined, rfl⟩⟩
      rw [← joined, bodyLength_append, bodyLength_disconnects shape, reached]
      exact within
    | request body moreBody =>
      have received : bodyLength buffered + (body.getD []).length = bodyLength (buffered ++ [.request body moreBody]) :=
        reached.symm
      rw [RequestSizeLimit.read, received, ← joined]
      by_cases beyond : limit.maxBytes < bodyLength (buffered ++ [.request body moreBody])
      · rw [if_pos beyond]
        refine .inl ⟨beyond.trans_le ?_, rfl⟩
        have := bodyLength_append (buffered ++ [Message.request body moreBody]) channel
        omega
      · rw [if_neg beyond]
        rw [Delivered] at shape
        by_cases more : moreBody.getD false = true
        · rw [if_pos more] at shape ⊢
          exact ih shape (not_lt.mp beyond)
        · rw [if_neg more] at shape ⊢
          refine .inr ⟨?_, .inr ⟨_, channel, rfl, rfl⟩⟩
          rw [bodyLength_append, bodyLength_disconnects shape]
          exact not_lt.mp beyond

/-- Without a Transfer-Encoding header, what is declared bounds what is delivered. -/
private theorem delivered_le_declared (frames : Frames scope messages) (plain : ¬ scope.Chunked) {declared : Int}
    (h : declaredLength scope = some declared) : (bodyLength messages : Int) ≤ declared := by
  unfold declaredLength at h
  split at h
  next => cases h
  next name value found =>
  have named : name = ascii "content-length" := by simpa using List.find?_some found
  subst named
  obtain ⟨n, length, le, -⟩ := frames.length plain value (List.mem_of_find?_eq_some found)
  unfold contentLength at length
  dsimp only at length
  split at length
  next digits =>
    rw [PyInt.int_digits h (List.all_eq_true.mp digits.2) digits.1, Option.some.inj length]
    exact_mod_cast le
  next => cases length

end

/-- The limit holds, is told as 413 exactly where it is exceeded, and what the application receives is
what the server sent. -/
structure Enforced (limit : RequestSizeLimit) (scope : HttpScope) (messages : List Message) : Prop where
  bounded : ∀ receive, limit.call scope messages = .called receive →
    ∀ calls, bodyLength (receive.obtains calls) ≤ limit.maxBytes
  refused : (∃ response, limit.call scope messages = .refused response ∧ response.statusCode = 413) ↔
    (∃ declared, declaredLength scope = some declared ∧ limit.maxBytes < declared) ∨
      limit.maxBytes < bodyLength messages
  faithful : ∀ receive, limit.call scope messages = .called receive →
    ∀ calls, receive.obtains calls = messages.take calls

/-- A chunked body over the limit beside a Content-Length header within it. -/
def Bypass (limit : RequestSizeLimit) (scope : HttpScope) (messages : List Message) : Prop :=
  scope.Chunked ∧ (∃ declared, declaredLength scope = some declared ∧ declared ≤ limit.maxBytes) ∧
    limit.maxBytes < bodyLength messages

namespace Enforced
variable {limit : RequestSizeLimit} {scope : HttpScope} {messages : List Message}

private theorem of_refused (h : limit.call scope messages = .refused (tooLargeResponse scope limit.maxBytes))
    (beyond : (∃ declared, declaredLength scope = some declared ∧ limit.maxBytes < declared) ∨
      limit.maxBytes < bodyLength messages) : Enforced limit scope messages where
  bounded _ called := by cases h.symm.trans called
  refused := iff_of_true ⟨_, h, rfl⟩ beyond
  faithful _ called := by cases h.symm.trans called

section
variable (undeclared : ∀ declared, declaredLength scope = some declared → ¬ limit.maxBytes < declared)
  (within : bodyLength messages ≤ limit.maxBytes)
include undeclared within

private theorem not_over : ¬ ((∃ declared, declaredLength scope = some declared ∧ limit.maxBytes < declared) ∨
    limit.maxBytes < bodyLength messages) := by
  rintro (⟨declared, hdeclared, beyond⟩ | beyond)
  · exact undeclared declared hdeclared beyond
  · exact Nat.not_lt.mpr within beyond

private theorem of_called {receive : Receive} (h : limit.call scope messages = .called receive)
    (faithful : ∀ calls, receive.obtains calls = messages.take calls) : Enforced limit scope messages where
  bounded receive' called calls := by
    cases h.symm.trans called
    rw [faithful]
    exact (bodyLength_take_le calls messages).trans within
  refused := by
    refine iff_of_false ?_ (not_over undeclared within)
    rintro ⟨response, refused, -⟩
    cases h.symm.trans refused
  faithful receive' called := by
    cases h.symm.trans called
    exact faithful

private theorem of_waiting (h : limit.call scope messages = .waiting) : Enforced limit scope messages where
  bounded _ called := by cases h.symm.trans called
  refused := by
    refine iff_of_false ?_ (not_over undeclared within)
    rintro ⟨response, refused, -⟩
    cases h.symm.trans refused
  faithful _ called := by cases h.symm.trans called

end
end Enforced

/-- The limit is enforced on every request but those. -/
theorem body_limit_enforced (limit : RequestSizeLimit) {scope : HttpScope} (http : scope.type = "http")
    {messages : List Message} (frames : Frames scope messages) :
    Enforced limit scope messages ↔ ¬ Bypass limit scope messages := by
  have on_http : limit.call scope messages =
      match declaredLength scope with
      | some declared =>
        if limit.maxBytes < declared then .refused (tooLargeResponse scope limit.maxBytes)
        else .called (.direct messages)
      | none => limit.read scope [] 0 messages := if_neg (not_not_intro http)
  constructor
  · rintro ⟨bounded, -, -⟩ ⟨-, ⟨declared, hdeclared, within⟩, beyond⟩
    rw [hdeclared] at on_http
    have called : limit.call scope messages = .called (.direct messages) :=
      on_http.trans (if_neg (Int.not_lt.mpr within))
    have all := bounded _ called messages.length
    rw [Receive.obtains_direct, List.take_length] at all
    exact Nat.not_lt.mpr all beyond
  · intro enforceable
    cases hdeclared : declaredLength scope with
    | some declared =>
      rw [hdeclared] at on_http
      by_cases beyond : limit.maxBytes < declared
      · exact .of_refused (on_http.trans (if_pos beyond)) (.inl ⟨declared, hdeclared, beyond⟩)
      · refine .of_called ?_ ?_ (on_http.trans (if_neg beyond)) fun calls => Receive.obtains_direct calls messages
        · intro declared' h
          cases hdeclared.symm.trans h
          exact beyond
        · by_contra exceeded
          by_cases chunked : scope.Chunked
          · exact enforceable ⟨chunked, ⟨declared, hdeclared, Int.not_lt.mp beyond⟩, Nat.not_le.mp exceeded⟩
          · have := delivered_le_declared frames chunked hdeclared
            omega
    | none =>
      rw [hdeclared] at on_http
      have undeclared : ∀ declared, declaredLength scope = some declared → ¬ limit.maxBytes < declared := by
        intro declared h
        cases hdeclared.symm.trans h
      have start : bodyLength [] ≤ limit.maxBytes := Nat.zero_le _
      rcases read_spec scope frames.shape start with ⟨beyond, h⟩ | ⟨within, h | ⟨pending, rest, whole, h⟩⟩
      · exact .of_refused (on_http.trans h) (.inr beyond)
      · exact .of_waiting undeclared within (on_http.trans h)
      · refine .of_called undeclared within (on_http.trans h) fun calls => ?_
        rw [Receive.obtains_replaying, whole, List.nil_append]

private def tenBytes : RequestSizeLimit := ⟨10, by decide⟩

private def postScope (headers : List (String × String)) : HttpScope where
  headers := headers.map fun header => (ascii header.1, ascii header.2)

theorem body_limit_enforced_declared :
    Enforced tenBytes (postScope [("content-length", "2")]) [.request (some [1, 2]) none, .disconnect] ↔
      ¬ Bypass tenBytes (postScope [("content-length", "2")]) [.request (some [1, 2]) none, .disconnect] := by
  refine body_limit_enforced tenBytes rfl ⟨?_, fun _ value h => ⟨2, ?_, by decide, fun _ => rfl⟩⟩
  · simp [Delivered]
  · obtain rfl : value = ascii "2" := by simpa [postScope] using h
    decide

private def elevenBytes : List Message := [.request (some (List.replicate 11 0)) (some false)]

/-- Eleven bytes in chunks, and a header that says five. -/
theorem body_limit_bypassed :
    Frames (postScope [("content-length", "5"), ("transfer-encoding", "chunked")]) elevenBytes ∧
      ¬ Enforced tenBytes (postScope [("content-length", "5"), ("transfer-encoding", "chunked")]) elevenBytes := by
  refine ⟨⟨by simp [elevenBytes, Delivered], fun plain => ?_⟩, fun enforced => ?_⟩
  · exact absurd ⟨ascii "chunked", by simp [postScope]⟩ plain
  · have received := enforced.bounded (.direct elevenBytes) rfl 1
    exact absurd received (by decide)

end LlmGateway.Serving
