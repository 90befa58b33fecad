import LlmGateway.Lib.Str

/-! `int(text, base)` of Python: spaces around, a sign, single underscores between the digits. -/
namespace LlmGateway.Lib.PyInt

def isspace (c : Char) : Bool := c ∈ [' ', '\t', '\n', '\x0b', '\x0c', '\r']

section
variable (digit : Char → Option Nat) (base : Nat)

/-- The digits after `acc`. -/
def digitsFrom (acc : Nat) : List Char → Option Nat
  | [] => some acc
  | '_' :: c :: rest => (digit c).bind fun d => digitsFrom (base * acc + d) rest
  | c :: rest => (digit c).bind fun d => digitsFrom (base * acc + d) rest

def digits : List Char → Option Nat
  | [] => none
  | c :: rest => (digit c).bind fun d => digitsFrom digit base d rest

/-- What digits stand for, the highest first. -/
def value (text : List Char) : Nat := text.foldl (fun acc c => base * acc + (digit c).getD 0) 0

end

/-- A sign and a magnitude, between spaces. -/
def signed (magnitude : List Char → Option Nat) (text : List Char) : Option Int :=
  match Str.strip isspace text with
  | '-' :: rest => (magnitude rest).map fun n => -(n : Int)
  | '+' :: rest => (magnitude rest).map Int.ofNat
  | rest => (magnitude rest).map Int.ofNat

def decimalDigit (c : Char) : Option Nat := if '0' ≤ c ∧ c ≤ '9' then some (c.toNat - '0'.toNat) else none

/-- More decimal digits than `int` converts. -/
def maxStrDigits : Nat := 4300

/-- `int(text)`. -/
def int (text : List Char) : Option Int :=
  signed (fun text => if maxStrDigits < (text.filter (· ≠ '_')).length then none else digits decimalDigit 10 text) text

variable {digit : Char → Option Nat} {base : Nat} {text : List Char}

section Digits
variable (h : ∀ c ∈ text, (digit c).isSome) (underscore : digit '_' = none)
include h underscore

private theorem digitsFrom_eq (acc : Nat) : digitsFrom digit base acc text =
    some (text.foldl (fun acc c => base * acc + (digit c).getD 0) acc) := by
  induction text generalizing acc with
  | nil => rfl
  | cons c rest ih =>
    obtain ⟨d, hd⟩ := Option.isSome_iff_exists.mp (h c List.mem_cons_self)
    have no_underscore : c ≠ '_' := by
      rintro rfl
      rw [underscore] at hd
      cases hd
    have step : digitsFrom digit base acc (c :: rest) =
        (digit c).bind fun d => digitsFrom digit base (base * acc + d) rest := by
      rw [digitsFrom]
      intro _ _ hc
      exact absurd hc no_underscore
    rw [step, hd, Option.bind_some, ih fun c hc => h c (List.mem_cons_of_mem _ hc), List.foldl_cons, hd,
      Option.getD_some]

/-- Digits alone are read for their value. -/
theorem digits_eq (hne : text ≠ []) : digits digit base text = some (value digit base text) := by
  cases text with
  | nil => exact absurd rfl hne
  | cons c rest =>
    obtain ⟨d, hd⟩ := Option.isSome_iff_exists.mp (h c List.mem_cons_self)
    rw [digits, hd, Option.bind_some, digitsFrom_eq (fun c hc => h c (List.mem_cons_of_mem _ hc)) underscore,
      value, List.foldl_cons, hd, Nat.mul_zero, Nat.zero_add, Option.getD_some]

end Digits

/-- Without spaces and a sign there is the magnitude alone. -/
theorem signed_eq (magnitude : List Char → Option Nat)
    (h : ∀ c ∈ text, isspace c = false ∧ c ≠ '-' ∧ c ≠ '+') :
    signed magnitude text = (magnitude text).map Int.ofNat := by
  rw [signed, Str.strip_eq_self fun c hc => (h c hc).1]
  split
  next => exact absurd rfl (h _ List.mem_cons_self).2.1
  next => exact absurd rfl (h _ List.mem_cons_self).2.2
  next => rfl

private theorem decimalDigit_bounds {c : Char} (h : (decimalDigit c).isSome) : '0' ≤ c ∧ c ≤ '9' := by
  unfold decimalDigit at h
  split at h
  next bounds => exact bounds
  next => cases h

/-- Decimal digits are read for their value, unless there are too many of them. -/
theorem int_digits {n : Int} (hint : int text = some n) (h : ∀ c ∈ text, (decimalDigit c).isSome)
    (hne : text ≠ []) : n = value decimalDigit 10 text := by
  have plain : ∀ c ∈ text, isspace c = false ∧ c ≠ '-' ∧ c ≠ '+' := by
    intro c hc
    obtain ⟨low, high⟩ := decimalDigit_bounds (h c hc)
    have outside : ∀ d : Char, (decimalDigit d).isSome = false → c ≠ d := by
      rintro d hd rfl
      rw [h c hc] at hd
      cases hd
    refine ⟨?_, outside '-' rfl, outside '+' rfl⟩
    refine decide_eq_false ?_
    simp only [List.mem_cons, List.not_mem_nil, or_false, not_or]
    exact ⟨outside _ rfl, outside _ rfl, outside _ rfl, outside _ rfl, outside _ rfl, outside _ rfl⟩
  rw [int, signed_eq _ plain, digits_eq h rfl hne] at hint
  split at hint
  next => cases hint
  next => exact (Option.some.inj hint).symm

end LlmGateway.Lib.PyInt
