import LlmGateway.Auth.Ports
import LlmGateway.Ledger.Uuid
import LlmGateway.Lib.PyInt

/-! `UUID(text)`: what it accepts, and that it reads back what `str` prints. -/
namespace LlmGateway.Auth
open Ledger Lib

section
-- The value of a decimal digit of another script.
variable (todecimal : Char → Option (Fin 10))

/-- How `int` reads a character: other scripts' digits and spaces as ASCII ones. -/
def toAscii (c : Char) : Char :=
  if c.toNat < 127 then c
  else if Str.isspace c then ' '
  else
    match todecimal c with
    | some d => Nat.digitChar d
    | none => '?'

/-- After an optional `0x`, which one underscore may follow. -/
def magnitude16 : List Char → Option Nat
  | '0' :: x :: rest =>
    if x = 'x' ∨ x = 'X' then
      match rest with
      | '_' :: rest => PyInt.digits hexDigit 16 rest
      | rest => PyInt.digits hexDigit 16 rest
    else PyInt.digits hexDigit 16 ('0' :: x :: rest)
  | text => PyInt.digits hexDigit 16 text

/-- `int(text, 16)`. -/
def int16 (text : List Char) : Option Int := PyInt.signed magnitude16 (text.map (toAscii todecimal))

/-- `UUID(text)`. -/
def uuid (text : List Char) : Option OrgId :=
  let hex := Str.remove "uuid:".toList (Str.remove "urn:".toList text)
  let hex := Str.remove ['-'] (Str.strip (fun c => c = '{' ∨ c = '}') hex)
  if hex.length ≠ 32 then none
  else
    (int16 todecimal hex).bind fun n =>
      if 0 ≤ n ∧ n < 2 ^ 128 then some (BitVec.ofInt 128 n) else none

end

variable {todecimal : Char → Option (Fin 10)}

private theorem hexDigit_digitChar : ∀ d < 16, hexDigit (Nat.digitChar d) = some d := by decide

private theorem toAscii_digitChar : ∀ d < 16, (Nat.digitChar d).toNat < 127 := by decide

private theorem digitChar_plain : ∀ d < 16, PyInt.isspace (Nat.digitChar d) = false ∧
    Nat.digitChar d ≠ '-' ∧ Nat.digitChar d ≠ '+' ∧ Nat.digitChar d ≠ 'x' ∧ Nat.digitChar d ≠ 'X' := by decide

section Digits
variable {text : List Char} (h : ∀ c ∈ text, ∃ d < 16, c = Nat.digitChar d)
include h

private theorem isHex_of_digits : ∀ c ∈ text, (hexDigit c).isSome := by
  intro c hc
  obtain ⟨d, hd, rfl⟩ := h c hc
  rw [hexDigit_digitChar d hd]
  rfl

/-- Without a prefix the magnitude is the value of the digits. -/
private theorem magnitude16_digits (hne : text ≠ []) :
    magnitude16 text = some (PyInt.value hexDigit 16 text) := by
  unfold magnitude16
  split
  next x rest =>
    obtain ⟨d, hd, rfl⟩ := h x (List.mem_cons_of_mem _ List.mem_cons_self)
    obtain ⟨_, _, _, hx, hX⟩ := digitChar_plain d hd
    rw [if_neg (not_or.mpr ⟨hx, hX⟩)]
    exact PyInt.digits_eq (isHex_of_digits h) rfl hne
  next => exact PyInt.digits_eq (isHex_of_digits h) rfl hne

/-- Digits alone are read for their value: no sign, no space. -/
theorem int16_digits (hne : text ≠ []) :
    int16 todecimal text = some (PyInt.value hexDigit 16 text : Int) := by
  have ascii : text.map (toAscii todecimal) = text := by
    conv_rhs => rw [← List.map_id text]
    refine List.map_congr_left fun c hc => ?_
    obtain ⟨d, hd, rfl⟩ := h c hc
    exact if_pos (toAscii_digitChar d hd)
  have plain : ∀ c ∈ text, PyInt.isspace c = false ∧ c ≠ '-' ∧ c ≠ '+' := by
    intro c hc
    obtain ⟨d, hd, rfl⟩ := h c hc
    obtain ⟨space, minus, plus, -⟩ := digitChar_plain d hd
    exact ⟨space, minus, plus⟩
  rw [int16, ascii, PyInt.signed_eq _ plain, magnitude16_digits h hne]
  rfl

end Digits

/-- `UUID(str(id))` is `id`. -/
theorem uuid_str (todecimal : Char → Option (Fin 10)) (org : OrgId) : uuid todecimal org.str.toList = some org := by
  have no_colon : ':' ∉ org.str.toList := OrgId.notMem_str (by decide) (by decide) org
  have no_brace : ∀ c ∈ org.str.toList, (decide (c = '{' ∨ c = '}')) = false := by
    intro c hc
    refine decide_eq_false ?_
    rintro (rfl | rfl)
    · exact OrgId.notMem_str (by decide) (by decide) org hc
    · exact OrgId.notMem_str (by decide) (by decide) org hc
  have digits : ∀ c ∈ fixedDigits 16 32 org.toNat, ∃ d < 16, c = Nat.digitChar d := by
    intro c hc
    obtain ⟨i, -, rfl⟩ := List.mem_map.mp hc
    exact ⟨_, Nat.mod_lt _ (by decide), rfl⟩
  have value : int16 todecimal (fixedDigits 16 32 org.toNat) = some (org.toNat : Int) := by
    rw [int16_digits digits fun hn => ?_, PyInt.value, foldl_fixedDigits (by decide), Nat.zero_mul, Nat.zero_add,
      Nat.mod_eq_of_lt (show org.toNat < 16 ^ 32 from org.isLt)]
    · intro d hd
      rw [hexDigit_digitChar d hd, Option.getD_some]
    · have := congrArg List.length hn
      simp at this
  unfold uuid
  dsimp only
  rw [Str.remove_eq_self (c := ':') (by decide) no_colon, Str.remove_eq_self (c := ':') (by decide) no_colon,
    Str.strip_eq_self no_brace, Str.remove_singleton, OrgId.str_digits, fixedDigits_length, value]
  have small : (0 : Int) ≤ org.toNat ∧ (org.toNat : Int) < 2 ^ 128 := ⟨Int.natCast_nonneg _, by exact_mod_cast org.isLt⟩
  rw [if_neg (not_not_intro rfl), Option.bind_some, if_pos small, BitVec.ofInt_natCast, BitVec.ofNat_toNat,
    BitVec.setWidth_eq]

end LlmGateway.Auth
