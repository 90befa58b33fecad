import Mathlib.Data.List.DropRight

/-! Base 64 with the URL-safe alphabet, padded or not. The decoder is the lenient one: it skips what
is not in the alphabet and stops at the padding of a group. -/
namespace LlmGateway.Lib.Base64

/-- The character of six bits. -/
def digit (v : Nat) : Char :=
  if v < 26 then Char.ofNat ('A'.toNat + v)
  else if v < 52 then Char.ofNat ('a'.toNat + (v - 26))
  else if v < 62 then Char.ofNat ('0'.toNat + (v - 52))
  else if v = 62 then '-' else '_'

/-- The six bits of a character of either alphabet. -/
def value (c : Char) : Option Nat :=
  if 'A' ≤ c ∧ c ≤ 'Z' then some (c.toNat - 'A'.toNat)
  else if 'a' ≤ c ∧ c ≤ 'z' then some (c.toNat - 'a'.toNat + 26)
  else if '0' ≤ c ∧ c ≤ '9' then some (c.toNat - '0'.toNat + 52)
  else if c = '+' ∨ c = '-' then some 62
  else if c = '/' ∨ c = '_' then some 63
  else none

/-- The digits of the bytes, without the padding. -/
def digits : List UInt8 → List Char
  | a :: b :: c :: rest =>
    digit (a.toNat / 4) :: digit (a.toNat % 4 * 16 + b.toNat / 16) ::
      digit (b.toNat % 16 * 4 + c.toNat / 64) :: digit (c.toNat % 64) :: digits rest
  | [a, b] =>
    [digit (a.toNat / 4), digit (a.toNat % 4 * 16 + b.toNat / 16), digit (b.toNat % 16 * 4)]
  | [a] => [digit (a.toNat / 4), digit (a.toNat % 4 * 16)]
  | [] => []

/-- What completes the last group of four. -/
def padding (length : Nat) : List Char := List.replicate ((4 - length % 4) % 4) '='

def encode (bytes : List UInt8) : List Char := digits bytes ++ padding (digits bytes).length

/-- The decoder at position `quad` of a group, with the bits `left` over from the character before
and `pads` padding characters since. -/
def decodeFrom (quad left pads : Nat) : List Char → Option (List UInt8)
  | [] => if quad = 0 then some [] else none
  | c :: rest =>
    if c = '=' then
      if 2 ≤ quad ∧ 4 ≤ quad + (pads + 1) then some []
      else decodeFrom quad left (if 2 ≤ quad then pads + 1 else pads) rest
    else
      match value c with
      | none => decodeFrom quad left pads rest
      | some v =>
        match quad with
        | 0 => decodeFrom 1 v 0 rest
        | 1 => (decodeFrom 2 (v % 16) 0 rest).map (UInt8.ofNat (left * 4 + v / 16) :: ·)
        | 2 => (decodeFrom 3 (v % 4) 0 rest).map (UInt8.ofNat (left * 16 + v / 4) :: ·)
        | _ => (decodeFrom 0 0 0 rest).map (UInt8.ofNat (left * 64 + v) :: ·)

def decode (text : List Char) : Option (List UInt8) := decodeFrom 0 0 0 text

theorem value_digit : ∀ v < 64, value (digit v) = some v := by decide

theorem digit_ne_padding : ∀ v < 64, digit v ≠ '=' := by decide

section Digit
variable {left pads v : Nat} (hv : v < 64) (rest : List Char)
include hv

/-! A digit read at each position of a group. -/

private theorem first_digit : decodeFrom 0 left pads (digit v :: rest) = decodeFrom 1 v 0 rest := by
  rw [decodeFrom, if_neg (digit_ne_padding v hv), value_digit v hv]
  rfl

private theorem second_digit : decodeFrom 1 left pads (digit v :: rest) =
    (decodeFrom 2 (v % 16) 0 rest).map (UInt8.ofNat (left * 4 + v / 16) :: ·) := by
  rw [decodeFrom, if_neg (digit_ne_padding v hv), value_digit v hv]
  rfl

private theorem third_digit : decodeFrom 2 left pads (digit v :: rest) =
    (decodeFrom 3 (v % 4) 0 rest).map (UInt8.ofNat (left * 16 + v / 4) :: ·) := by
  rw [decodeFrom, if_neg (digit_ne_padding v hv), value_digit v hv]
  rfl

private theorem fourth_digit : decodeFrom 3 left pads (digit v :: rest) =
    (decodeFrom 0 0 0 rest).map (UInt8.ofNat (left * 64 + v) :: ·) := by
  rw [decodeFrom, if_neg (digit_ne_padding v hv), value_digit v hv]
  rfl

end Digit

section Group
variable (a b c : UInt8)

private theorem ofNat_eq {n : Nat} {x : UInt8} (h : n = x.toNat) : UInt8.ofNat n = x := by
  rw [h, UInt8.ofNat_toNat]

private theorem first_byte : UInt8.ofNat (a.toNat / 4 * 4 + (a.toNat % 4 * 16 + b.toNat / 16) / 16) = a :=
  ofNat_eq (by have := b.toNat_lt; omega)

private theorem second_byte : UInt8.ofNat ((a.toNat % 4 * 16 + b.toNat / 16) % 16 * 16 +
    (b.toNat % 16 * 4 + c.toNat / 64) / 4) = b :=
  ofNat_eq (by have := b.toNat_lt; have := c.toNat_lt; omega)

private theorem third_byte : UInt8.ofNat ((b.toNat % 16 * 4 + c.toNat / 64) % 4 * 64 + c.toNat % 64) = c :=
  ofNat_eq (by have := c.toNat_lt; omega)

end Group

private theorem padding_add_four (n : Nat) : padding (n + 4) = padding n := by
  rw [padding, Nat.add_mod_right, padding]

theorem decode_encode (bytes : List UInt8) : decode (encode bytes) = some bytes := by
  unfold decode encode
  fun_induction digits bytes with
  | case1 a b c rest ih =>
    have := a.toNat_lt
    have := b.toNat_lt
    have := c.toNat_lt
    simp only [List.length_cons, List.cons_append, padding_add_four]
    rw [first_digit (by omega), second_digit (by omega), third_digit (by omega),
      fourth_digit (by omega), ih]
    simp only [Option.map_some, first_byte, second_byte, third_byte]
  | case2 a b =>
    have := a.toNat_lt
    have := b.toNat_lt
    simp only [List.cons_append, List.nil_append]
    rw [first_digit (by omega), second_digit (by omega), third_digit (by omega)]
    have second := second_byte a b 0
    simp only [UInt8.toNat_zero, Nat.zero_div, Nat.add_zero] at second
    simp only [first_byte, second]
    rfl
  | case3 a =>
    have := a.toNat_lt
    simp only [List.cons_append, List.nil_append]
    rw [first_digit (by omega), second_digit (by omega)]
    have first := first_byte a 0
    simp only [UInt8.toNat_zero, Nat.zero_div, Nat.add_zero] at first
    simp only [first]
    rfl
  | case4 => rfl

/-- Every character is a digit. -/
theorem mem_digits {bytes : List UInt8} {ch : Char} (h : ch ∈ digits bytes) : ∃ v < 64, ch = digit v := by
  fun_induction digits bytes with
  | case1 a b c rest ih =>
    have := a.toNat_lt
    have := b.toNat_lt
    have := c.toNat_lt
    simp only [List.mem_cons] at h
    rcases h with rfl | rfl | rfl | rfl | h
    · exact ⟨_, by omega, rfl⟩
    · exact ⟨_, by omega, rfl⟩
    · exact ⟨_, by omega, rfl⟩
    · exact ⟨_, by omega, rfl⟩
    · exact ih h
  | case2 a b =>
    have := a.toNat_lt
    have := b.toNat_lt
    simp only [List.mem_cons, List.not_mem_nil, or_false] at h
    rcases h with rfl | rfl | rfl
    · exact ⟨_, by omega, rfl⟩
    · exact ⟨_, by omega, rfl⟩
    · exact ⟨_, by omega, rfl⟩
  | case3 a =>
    have := a.toNat_lt
    simp only [List.mem_cons, List.not_mem_nil, or_false] at h
    rcases h with rfl | rfl
    · exact ⟨_, by omega, rfl⟩
    · exact ⟨_, by omega, rfl⟩
  | case4 => cases h

/-- What holds of the alphabet holds of an encoding. -/
theorem digits_rule {P : Char → Prop} (h : ∀ v < 64, P (digit v)) (bytes : List UInt8) :
    ∀ ch ∈ digits bytes, P ch := by
  intro ch hch
  obtain ⟨v, hv, rfl⟩ := mem_digits hch
  exact h v hv

/-- Stripping the padding leaves the digits. -/
theorem rdropWhile_encode (bytes : List UInt8) :
    (encode bytes).rdropWhile (· = '=') = digits bytes := by
  have digits_kept : (digits bytes).rdropWhile (· = '=') = digits bytes := by
    rw [List.rdropWhile_eq_self_iff]
    intro hne
    simpa using digits_rule (P := (· ≠ '=')) digit_ne_padding bytes _ (List.getLast_mem hne)
  have dropped (n : Nat) : (digits bytes ++ List.replicate n '=').rdropWhile (· = '=') = digits bytes := by
    induction n with
    | zero => rw [List.replicate_zero, List.append_nil, digits_kept]
    | succ n ih =>
      rw [List.replicate_succ', ← List.append_assoc, List.rdropWhile_concat_pos _ _ _ (by simp), ih]
  exact dropped _

/-- An encoding tells its bytes, padded or not. -/
theorem digits_injective : Function.Injective digits := by
  intro bytes bytes' h
  have same : encode bytes = encode bytes' := by rw [encode, h, encode]
  exact Option.some.inj ((decode_encode bytes).symm.trans (same ▸ decode_encode bytes'))

end LlmGateway.Lib.Base64
