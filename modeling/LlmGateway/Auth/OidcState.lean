import Mathlib
import LlmGateway.Auth.UuidText
import LlmGateway.Lib.Base64

/-! The OIDC `state`: the organization and a random part, signed, and what the callback reads back. -/
namespace LlmGateway.Auth
open Ledger Lib

/-- What `verify` and what it calls raise. -/
inductive StateError where
  | invalidState (message : String)
  | unicodeEncode
  | binascii
  | unicodeDecode
  /-- `UUID` was given something else. -/
  | value
  deriving DecidableEq, Repr

/-- `except (ValueError, UnicodeDecodeError)`: all but the first are subclasses of `ValueError`. -/
def StateError.isValueError : StateError → Bool
  | .invalidState _ => false
  | .unicodeEncode | .binascii | .unicodeDecode | .value => true

structure ParsedState where
  organizationId : OrgId
  randomPart : String
  deriving DecidableEq, Repr

def ParsedState.stateHash (sha256Hex : String → String) (parsed : ParsedState) : String :=
  sha256Hex parsed.randomPart

/-- The text of a digest: 64 hexadecimal digits. -/
structure HexDigest where
  text : String
  length : text.toList.length = 64
  digits : ∀ c ∈ text.toList, ∃ d < 16, c = Nat.digitChar d

structure StateSigner where
  key : String
  nonempty : key ≠ ""

def StateSigner.new (signingKey : String) : Except String StateSigner :=
  if h : signingKey = "" then .error "state signing key must not be empty" else .ok ⟨signingKey, h⟩

def b64urlEncode (raw : String) : String :=
  String.ofList ((Base64.encode raw.toUTF8.data.toList).rdropWhile (· = '='))

def b64urlDecode (value : String) : Except StateError String :=
  let padded := value.toList ++ Base64.padding value.toList.length
  if padded.all fun c => c.toNat < 128 then
    match Base64.decode padded with
    | none => .error .binascii
    | some bytes =>
      match String.fromUTF8? ⟨bytes.toArray⟩ with
      | none => .error .unicodeDecode
      | some text => .ok text
  else .error .unicodeEncode

def constantTimeEquals (left right : String) : Bool := left.toUTF8 = right.toUTF8

section
variable (todecimal : Char → Option (Fin 10)) (hmacSha256Hex : String → String → HexDigest)

/-- The `try` block of `verify`. -/
def readPayload (payload : String) : Except StateError ParsedState :=
  match b64urlDecode payload with
  | .error e => .error e
  | .ok decoded =>
    let (orgText, innerSeparator, randomPart) := Str.partition '.' decoded.toList
    if innerSeparator = false ∨ randomPart = [] then .error (.invalidState "state payload is malformed")
    else
      match uuid todecimal orgText with
      | none => .error .value
      | some organizationId => .ok ⟨organizationId, String.ofList randomPart⟩

namespace StateSigner
variable (signer : StateSigner)

def issue (organizationId : OrgId) (randomPart : String) : String × ParsedState :=
  let payload := b64urlEncode (organizationId.str ++ "." ++ randomPart)
  (payload ++ "." ++ (hmacSha256Hex signer.key payload).text, ⟨organizationId, randomPart⟩)

def verify (state : String) : Except StateError ParsedState :=
  let (payload, separator, tag) := Str.rpartition '.' state.toList
  if separator = false ∨ payload = [] ∨ tag = [] then .error (.invalidState "state is malformed")
  else if constantTimeEquals (hmacSha256Hex signer.key (String.ofList payload)).text (String.ofList tag) = false then
    .error (.invalidState "state signature verification failed")
  else
    match readPayload todecimal (String.ofList payload) with
    | .ok parsed => .ok parsed
    | .error e => .error (if e.isValueError then .invalidState "state payload is malformed" else e)

end StateSigner
end

theorem constantTimeEquals_iff {left right : String} : constantTimeEquals left right = true ↔ left = right := by
  rw [constantTimeEquals, decide_eq_true_iff, String.toUTF8_eq_toByteArray, String.toUTF8_eq_toByteArray,
    String.toByteArray_inj]

private theorem fromUTF8_toUTF8 (raw : String) : String.fromUTF8? ⟨raw.toUTF8.data.toList.toArray⟩ = some raw := by
  have valid : raw.toByteArray.IsValidUTF8 := raw.isValidUTF8
  rw [Array.toArray_toList, String.toUTF8_eq_toByteArray, String.fromUTF8?, dif_pos valid]
  rfl

private theorem digit_ascii : ∀ v < 64, (Base64.digit v).toNat < 128 := by decide

/-- The unpadded codec, at every length. -/
theorem b64urlDecode_encode (raw : String) : b64urlDecode (b64urlEncode raw) = .ok raw := by
  have padded : (b64urlEncode raw).toList ++ Base64.padding (b64urlEncode raw).toList.length =
      Base64.encode raw.toUTF8.data.toList := by
    rw [b64urlEncode, String.toList_ofList, Base64.rdropWhile_encode, Base64.encode]
  have ascii : (Base64.encode raw.toUTF8.data.toList).all (fun c => c.toNat < 128) = true := by
    refine List.all_eq_true.mpr fun c hc => decide_eq_true ?_
    rcases List.mem_append.mp hc with hd | hp
    · exact Base64.digits_rule (P := fun c => c.toNat < 128) digit_ascii _ c hd
    · rw [List.eq_of_mem_replicate hp]
      decide
  unfold b64urlDecode
  dsimp only
  rw [padded, ascii, if_pos rfl, Base64.decode_encode]
  dsimp only
  rw [fromUTF8_toUTF8]

section
variable {todecimal : Char → Option (Fin 10)} {payload : String} {parsed : ParsedState}

/-- A payload is read exactly when it decodes to a uuid, a dot and something more. -/
theorem readPayload_iff : readPayload todecimal payload = .ok parsed ↔
    ∃ orgText : String, b64urlDecode payload = .ok (orgText ++ "." ++ parsed.randomPart) ∧
      '.' ∉ orgText.toList ∧ uuid todecimal orgText.toList = some parsed.organizationId ∧
      parsed.randomPart ≠ "" := by
  constructor
  · intro h
    unfold readPayload at h
    split at h
    next => cases h
    next decoded hdecoded =>
    rcases hparts : Str.partition '.' decoded.toList with ⟨orgText, innerSeparator, randomPart⟩
    rw [hparts] at h
    dsimp only at h
    split at h
    next => cases h
    next hwell =>
    obtain ⟨hinner, hrandom⟩ := not_or.mp hwell
    obtain rfl := eq_true_of_ne_false hinner
    obtain ⟨htext, hdot⟩ := Str.partition_eq hparts
    split at h
    next => cases h
    next organizationId huuid =>
    cases h
    refine ⟨String.ofList orgText, ?_, ?_, ?_, ?_⟩
    · rw [hdecoded]
      refine congrArg Except.ok (String.toList_injective ?_)
      simpa using htext
    · rwa [String.toList_ofList]
    · rwa [String.toList_ofList]
    · intro hempty
      exact hrandom (by simpa using congrArg String.toList hempty)
  · rintro ⟨orgText, hdecoded, hdot, huuid, hrandom⟩
    have hparts : Str.partition '.' (orgText ++ "." ++ parsed.randomPart).toList =
        (orgText.toList, true, parsed.randomPart.toList) := by
      rw [String.toList_append, String.toList_append, List.append_assoc]
      exact Str.partition_append hdot
    have hwell : ¬ (true = false ∨ parsed.randomPart.toList = []) := by
      rintro (h | h)
      · cases h
      · exact hrandom (String.toList_eq_nil_iff.mp h)
    unfold readPayload
    rw [hdecoded]
    dsimp only
    rw [hparts]
    dsimp only
    rw [if_neg hwell, huuid]
    dsimp only
    rw [String.ofList_toList]

end

namespace StateSigner
variable {todecimal : Char → Option (Fin 10)} {hmacSha256Hex : String → String → HexDigest} {signer : StateSigner}
  {state : String} {parsed : ParsedState}

/-- What is accepted carries the tag of its payload, and the payload is read. -/
theorem verify_iff : signer.verify todecimal hmacSha256Hex state = .ok parsed ↔
    ∃ payload : String, payload ≠ "" ∧ state = payload ++ "." ++ (hmacSha256Hex signer.key payload).text ∧
      readPayload todecimal payload = .ok parsed := by
  constructor
  · intro h
    unfold verify at h
    rcases hparts : Str.rpartition '.' state.toList with ⟨payload, separator, tag⟩
    rw [hparts] at h
    dsimp only at h
    split at h
    next => cases h
    next hwell =>
    obtain ⟨hseparator, hpayload, -⟩ := (not_or.trans (and_congr_right' not_or)).mp hwell
    obtain rfl := eq_true_of_ne_false hseparator
    obtain ⟨htext, -⟩ := Str.rpartition_eq hparts
    split at h
    next => cases h
    next htag =>
    have tag_eq := constantTimeEquals_iff.mp (eq_true_of_ne_false htag)
    split at h
    next parsed' hread =>
      cases h
      refine ⟨String.ofList payload, fun hempty => hpayload ?_, ?_, hread⟩
      · simpa using congrArg String.toList hempty
      · rw [tag_eq]
        refine String.toList_injective ?_
        simpa using htext
    next => cases h
  · rintro ⟨payload, hpayload, rfl, hread⟩
    have no_dot : '.' ∉ (hmacSha256Hex signer.key payload).text.toList := by
      intro hm
      obtain ⟨d, hd, heq⟩ := (hmacSha256Hex signer.key payload).digits _ hm
      exact absurd heq.symm ((by decide : ∀ d < 16, Nat.digitChar d ≠ '.') d hd)
    have hparts : Str.rpartition '.' (payload ++ "." ++ (hmacSha256Hex signer.key payload).text).toList =
        (payload.toList, true, (hmacSha256Hex signer.key payload).text.toList) := by
      rw [String.toList_append, String.toList_append, List.append_assoc]
      exact Str.rpartition_append no_dot
    have hwell : ¬ (true = false ∨ payload.toList = [] ∨ (hmacSha256Hex signer.key payload).text.toList = []) := by
      rintro (h | h | h)
      · cases h
      · exact hpayload (String.toList_eq_nil_iff.mp h)
      · have := (hmacSha256Hex signer.key payload).length
        rw [h] at this
        cases this
    have same : ¬ constantTimeEquals (hmacSha256Hex signer.key payload).text
        (hmacSha256Hex signer.key payload).text = false := by
      rw [constantTimeEquals_iff.mpr rfl]
      nofun
    unfold verify
    rw [hparts]
    dsimp only
    rw [if_neg hwell, String.ofList_toList, String.ofList_toList, if_neg same, hread]

/-- Nothing else escapes. -/
theorem verify_error {e : StateError} (h : signer.verify todecimal hmacSha256Hex state = .error e) :
    ∃ message, e = .invalidState message := by
  unfold verify at h
  rcases hparts : Str.rpartition '.' state.toList with ⟨payload, separator, tag⟩
  rw [hparts] at h
  dsimp only at h
  split at h
  next => exact ⟨_, (Except.error.inj h).symm⟩
  next =>
  split at h
  next => exact ⟨_, (Except.error.inj h).symm⟩
  next =>
  split at h
  next => cases h
  next cause _ =>
  rw [← Except.error.inj h]
  cases cause with
  | invalidState message => exact ⟨message, rfl⟩
  | unicodeEncode | binascii | unicodeDecode | value => exact ⟨_, rfl⟩

end StateSigner

theorem b64urlEncode_ne_empty {raw : String} (h : raw ≠ "") : b64urlEncode raw ≠ "" := by
  intro hempty
  have decoded := b64urlDecode_encode raw
  rw [hempty] at decoded
  exact h (Except.ok.inj decoded).symm

/-- What is issued is read back, and nothing else is accepted: a value only for a payload with its own
tag that decodes to a uuid and a non-empty rest, and `InvalidStateError` for every other string. -/
theorem state_signing (todecimal : Char → Option (Fin 10)) (hmacSha256Hex : String → String → HexDigest)
    (sha256Hex : String → String) (signer : StateSigner) :
    (∀ organizationId randomPart, randomPart ≠ "" →
      signer.verify todecimal hmacSha256Hex (signer.issue hmacSha256Hex organizationId randomPart).1 =
          .ok ⟨organizationId, randomPart⟩ ∧
        ParsedState.stateHash sha256Hex ⟨organizationId, randomPart⟩ =
          (signer.issue hmacSha256Hex organizationId randomPart).2.stateHash sha256Hex) ∧
    (∀ state parsed, signer.verify todecimal hmacSha256Hex state = .ok parsed ↔
      ∃ payload orgText : String, payload ≠ "" ∧
        state = payload ++ "." ++ (hmacSha256Hex signer.key payload).text ∧
        b64urlDecode payload = .ok (orgText ++ "." ++ parsed.randomPart) ∧ '.' ∉ orgText.toList ∧
        uuid todecimal orgText.toList = some parsed.organizationId ∧ parsed.randomPart ≠ "") ∧
    ∀ state e, signer.verify todecimal hmacSha256Hex state = .error e → ∃ message, e = .invalidState message := by
  refine ⟨fun organizationId randomPart hrandom => ⟨?_, rfl⟩, fun state parsed => ?_, fun _ _ => StateSigner.verify_error⟩
  · refine StateSigner.verify_iff.mpr ⟨_, b64urlEncode_ne_empty ?_, rfl, readPayload_iff.mpr
      ⟨organizationId.str, b64urlDecode_encode _, OrgId.notMem_str (by decide) (by decide) _,
        uuid_str todecimal organizationId, hrandom⟩⟩
    intro hempty
    have dot := congrArg String.toList hempty
    simp at dot
  · rw [StateSigner.verify_iff]
    constructor
    · rintro ⟨payload, hpayload, hstate, hread⟩
      obtain ⟨orgText, hparts⟩ := readPayload_iff.mp hread
      exact ⟨payload, orgText, hpayload, hstate, hparts⟩
    · rintro ⟨payload, orgText, hpayload, hstate, hparts⟩
      exact ⟨payload, hpayload, hstate, readPayload_iff.mpr ⟨orgText, hparts⟩⟩

end LlmGateway.Auth
