import LlmGateway.Ledger.Port
import Mathlib.Data.Set.Function

/-! The id a request reserves under: `attempt_correlation_id` for an attempt of a unary request,
the bare request id for a streamed one. -/
namespace LlmGateway.Execution
open Ledger

/-- `RequestContextMiddleware.dispatch`: a supplied, non-empty header is the request id; otherwise
one is generated. -/
def requestId (supplied : Option String) (hex : String) : String :=
  match supplied with
  | some id => if id = "" then "req_" ++ hex else id
  | none => "req_" ++ hex

/-- `attempt_correlation_id`. -/
def attemptCorrelationId (correlationId : CorrelationId) (attempt : Nat) : CorrelationId :=
  correlationId ++ "#" ++ toString attempt

/-- What reserves: an attempt of a unary request, or a streamed request. -/
inductive Reserver where
  | unary (correlationId : CorrelationId) (attempt : Nat)
  | streamed (correlationId : CorrelationId)
  deriving DecidableEq, Repr

/-- The correlation id of its `budget_reservation` row. -/
def Reserver.ledgerId : Reserver → CorrelationId
  | .unary correlationId attempt => attemptCorrelationId correlationId attempt
  | .streamed correlationId => correlationId

/-- The request id is one a caller's header can set; attempts are counted from one. -/
def Reserver.Suppliable : Reserver → Prop
  | .unary correlationId attempt =>
    (∀ hex, requestId (some correlationId) hex = correlationId) ∧ 1 ≤ attempt
  | .streamed correlationId => ∀ hex, requestId (some correlationId) hex = correlationId

/-- Reads an id as an attempt's: what stands before its last `#`, and after it a number as Python
prints it. -/
def attemptOf (id : CorrelationId) : Option (CorrelationId × Nat) :=
  let backwards := id.toList.reverse
  let digits := (backwards.takeWhile (· ≠ '#')).reverse
  let base := ((backwards.dropWhile (· ≠ '#')).drop 1).reverse
  let attempt := Nat.ofDigitChars 10 digits 0
  if '#' ∈ id.toList ∧ Nat.toDigits 10 attempt = digits then some (String.ofList base, attempt)
  else none

theorem attemptCorrelationId_toList (c : CorrelationId) (n : Nat) :
    (attemptCorrelationId c n).toList = c.toList ++ '#' :: Nat.toDigits 10 n := by
  simp [attemptCorrelationId]

private theorem hash_not_digit (n : Nat) : ∀ d ∈ (Nat.toDigits 10 n).reverse, d ≠ '#' := by
  intro d hd
  have := Nat.isDigit_of_mem_toDigits (by decide) (by decide) (List.mem_reverse.mp hd)
  rintro rfl
  exact absurd this (by decide)

/-- No number has a `#` in it, so the last one is the separator, whatever the request id. -/
theorem attemptOf_attemptCorrelationId (c : CorrelationId) (n : Nat) :
    attemptOf (attemptCorrelationId c n) = some (c, n) := by
  unfold attemptOf
  rw [attemptCorrelationId_toList]
  simp only [List.reverse_append, List.reverse_cons, List.append_assoc, List.singleton_append]
  rw [List.takeWhile_append_of_pos (by simpa using hash_not_digit n),
    List.dropWhile_append_of_pos (by simpa using hash_not_digit n)]
  simp

private theorem takeWhile_cons_dropWhile {l : List Char} {x : Char} (h : x ∈ l) :
    l.takeWhile (· ≠ x) ++ x :: (l.dropWhile (· ≠ x)).drop 1 = l := by
  induction l with
  | nil => cases h
  | cons y l ih =>
    by_cases hy : y = x
    · simp [hy]
    · have hl : x ∈ l := (List.mem_cons.mp h).resolve_left (Ne.symm hy)
      rw [List.takeWhile_cons_of_pos (by simpa using hy),
        List.dropWhile_cons_of_pos (by simpa using hy), List.cons_append, ih hl]

theorem eq_attemptCorrelationId_of_attemptOf {id c : CorrelationId} {n : Nat}
    (h : attemptOf id = some (c, n)) : id = attemptCorrelationId c n := by
  unfold attemptOf at h
  dsimp only at h
  split at h
  next hid =>
    obtain ⟨hmem, hcanon⟩ := hid
    cases h
    apply String.toList_injective
    rw [attemptCorrelationId_toList, hcanon, String.toList_ofList]
    have split := takeWhile_cons_dropWhile (List.mem_reverse.mpr hmem)
    have forwards := congrArg List.reverse split
    simpa using forwards.symm
  next => cases h

/-- Requests of one organization hold under distinct ids, if and only if none of its streamed
requests has an id that reads as an attempt of one of its unary requests. -/
theorem ledgerId_injOn_iff (requests : Set Reserver) :
    Set.InjOn Reserver.ledgerId requests ↔
      ∀ id c n, .streamed id ∈ requests → attemptOf id = some (c, n) → .unary c n ∉ requests := by
  constructor
  · intro inj id c n hs hid hu
    have same : (Reserver.streamed id).ledgerId = (Reserver.unary c n).ledgerId :=
      eq_attemptCorrelationId_of_attemptOf hid
    cases inj hs hu same
  · intro apart
    rintro (⟨c, n⟩ | ⟨id⟩) ha (⟨c', n'⟩ | ⟨id'⟩) hb (same : Reserver.ledgerId _ = _)
    · have := congrArg attemptOf same
      simp only [Reserver.ledgerId, attemptOf_attemptCorrelationId, Option.some.injEq,
        Prod.mk.injEq] at this
      rw [this.1, this.2]
    · have hid : attemptOf id' = some (c, n) :=
        (congrArg attemptOf same.symm).trans (attemptOf_attemptCorrelationId c n)
      exact absurd ha (apart id' c n hb hid)
    · have hid : attemptOf id = some (c', n') :=
        (congrArg attemptOf same).trans (attemptOf_attemptCorrelationId c' n')
      exact absurd hb (apart id c' n' ha hid)
    · exact congrArg Reserver.streamed same

/-- A stream under `x#1` holds under the id of the first attempt of `x`. -/
theorem streamed_id_reads_as_attempt :
    ¬ Set.InjOn Reserver.ledgerId { r | r.Suppliable } := by
  intro inj
  have hs : Reserver.streamed "x#1" ∈ { r : Reserver | r.Suppliable } := fun _ => rfl
  have hu : Reserver.unary "x" 1 ∈ { r : Reserver | r.Suppliable } := ⟨fun _ => rfl, le_rfl⟩
  have same : (Reserver.streamed "x#1").ledgerId = (Reserver.unary "x" 1).ledgerId := by decide
  cases inj hs hu same

end LlmGateway.Execution
