import LlmGateway.Auth.JwksCache
import Mathlib.Data.List.Pairwise
import Mathlib.Tactic.Linarith

/-! How often `get_key` asks the identity provider. -/
namespace LlmGateway.Auth
open Ledger Lib

variable {F : Type}

/-- What a step reads of the clock, in order. -/
def CacheInput.readings : CacheInput F → List Timestamp
  | .getKey _ _ freshAt gateAt startAt => [freshAt, gateAt, startAt]
  | .refresh _ startAt => [startAt]
  | .fetched _ _ => []

def CacheInput.isGetKey : CacheInput F → Bool
  | .getKey .. => true
  | _ => false

def CacheInput.isRefresh : CacheInput F → Bool
  | .refresh .. => true
  | _ => false

/-- The clock does not go back. -/
def Forward (inputs : List (CacheInput F)) : Prop := (inputs.flatMap CacheInput.readings).Pairwise (· ≤ ·)

namespace JwksCache
variable (cache : JwksCache)

/-- When a step of `get_key` starts a fetch. -/
def fetchStart (s : CacheState F) (input : CacheInput F) : Option Timestamp :=
  match input.isGetKey, (cache.machine.step s input).2 with
  | true, .fetching startAt => some startAt
  | _, _ => none

/-- When the fetches of `get_key` start, over a history. -/
def fetchStarts (s : CacheState F) : List (CacheInput F) → List Timestamp
  | [] => []
  | input :: rest => (cache.fetchStart s input).toList ++ fetchStarts (cache.machine.step s input).1 rest

/-- Any two of them are an interval apart. -/
def Throttled (inputs : List (CacheInput F)) : Prop :=
  (cache.fetchStarts {} inputs).Pairwise fun earlier later => earlier + cache.minRefreshInterval ≤ later

/-- A call that comes after an attempt but before the first success comes an interval after the attempt. -/
def Patient (s : CacheState F) : CacheInput F → Prop
  | .getKey c _ _ _ startAt => s.pending c = none → s.fetchedAt = none →
      ∀ last, s.lastAttemptAt = some last → last + cache.minRefreshInterval ≤ startAt
  | _ => True

variable {cache} {s : CacheState F}

/-- Only `get_key` and `refresh` write the time of the last attempt, and only `get_key`, past its gate,
starts a fetch that counts. -/
private theorem attempt_cases (cache : JwksCache) (s : CacheState F) (input : CacheInput F) :
    (cache.fetchStart s input = none ∧ ((cache.machine.step s input).1.lastAttemptAt = s.lastAttemptAt ∨
      ∃ c startAt, input = .refresh c startAt ∧
        (cache.machine.step s input).1.lastAttemptAt = some startAt)) ∨
    ∃ c kid freshAt gateAt startAt, input = .getKey c kid freshAt gateAt startAt ∧ s.pending c = none ∧
      cache.mayAttemptRefresh s gateAt = true ∧ cache.fetchStart s input = some startAt ∧
      (cache.machine.step s input).1.lastAttemptAt = some startAt := by
  cases input with
  | getKey c kid freshAt gateAt startAt =>
    unfold fetchStart machine getKey
    dsimp only [CacheInput.isGetKey]
    by_cases idle : s.pending c = none
    · rw [if_pos idle]
      cases (if cache.isFresh s freshAt then s.keys.get kid else none) with
      | some key => exact .inl ⟨rfl, .inl rfl⟩
      | none =>
        dsimp only
        by_cases gate : cache.mayAttemptRefresh s gateAt = true
        · rw [if_pos gate]
          exact .inr ⟨c, kid, freshAt, gateAt, startAt, rfl, idle, gate, rfl, rfl⟩
        · rw [if_neg gate]
          exact .inl ⟨rfl, .inl rfl⟩
    · rw [if_neg idle]
      exact .inl ⟨rfl, .inl rfl⟩
  | refresh c startAt =>
    unfold fetchStart machine
    dsimp only [CacheInput.isGetKey]
    by_cases idle : s.pending c = none
    · rw [if_pos idle]
      exact .inl ⟨rfl, .inr ⟨c, startAt, rfl, rfl⟩⟩
    · rw [if_neg idle]
      exact .inl ⟨rfl, .inl rfl⟩
  | fetched c outcome =>
    refine .inl ⟨rfl, .inl ?_⟩
    unfold machine afterFetch installed
    dsimp only
    cases s.pending c with
    | none => rfl
    | some call =>
      dsimp only
      cases outcome with
      | timeout | raised => rfl
      | document document =>
        dsimp only
        cases parseDocument document with
        | error message => rfl
        | ok parsed =>
          dsimp only
          cases call.kid with
          | none => rfl
          | some kid =>
            dsimp only
            cases parsed.get kid with
            | none | some _ => rfl

/-- Past the gate, an attempt is an interval after the last one, if the call was patient. -/
private theorem gate_spaced {c : CallId} {kid : String} {freshAt gateAt startAt last : Timestamp}
    (idle : s.pending c = none) (gate : cache.mayAttemptRefresh s gateAt = true) (clock : gateAt ≤ startAt)
    (patient : cache.Patient s (.getKey c kid freshAt gateAt startAt)) (attempted : s.lastAttemptAt = some last) :
    last + cache.minRefreshInterval ≤ startAt := by
  cases fetched : s.fetchedAt with
  | none => exact patient idle fetched last attempted
  | some fetchedAt =>
    rw [mayAttemptRefresh, attempted, fetched] at gate
    have spaced : cache.minRefreshInterval ≤ gateAt - last := of_decide_eq_true gate
    linarith

/-- Along a history of patient calls, whose clock starts after the last attempt. -/
private theorem throttled_from {inputs : List (CacheInput F)} (forward : Forward inputs)
    (clock : ∀ last, s.lastAttemptAt = some last → ∀ t ∈ inputs.flatMap CacheInput.readings, last ≤ t)
    (patient : ∀ past input future, inputs = past ++ input :: future →
      cache.Patient (cache.machine.run s past).1 input) :
    (cache.fetchStarts s inputs).Pairwise (fun earlier later => earlier + cache.minRefreshInterval ≤ later) ∧
      ∀ start ∈ cache.fetchStarts s inputs, ∀ last, s.lastAttemptAt = some last →
        last + cache.minRefreshInterval ≤ start := by
  induction inputs generalizing s with
  | nil => exact ⟨.nil, fun _ h => absurd h List.not_mem_nil⟩
  | cons input rest ih =>
    obtain ⟨-, forward_rest, reading_le⟩ := List.pairwise_append.mp forward
    have patient_rest : ∀ past input' future, rest = past ++ input' :: future →
        cache.Patient (cache.machine.run (cache.machine.step s input).1 past).1 input' := by
      intro past input' future h
      exact patient (input :: past) input' future (by rw [h, List.cons_append])
    have clock_rest : ∀ last, s.lastAttemptAt = some last → ∀ t ∈ rest.flatMap CacheInput.readings, last ≤ t := by
      intro last attempted t ht
      exact clock last attempted t (List.mem_append_right _ ht)
    rw [fetchStarts]
    rcases attempt_cases cache s input with
      ⟨none_started, same | ⟨c, startAt, rfl, attempt⟩⟩ |
        ⟨c, kid, freshAt, gateAt, startAt, rfl, idle, gate, started, attempt⟩
    · rw [none_started, Option.toList_none, List.nil_append, ← same]
      exact ih forward_rest (same ▸ clock_rest) patient_rest
    · rw [none_started, Option.toList_none, List.nil_append]
      obtain ⟨spaced, after_attempt⟩ := ih forward_rest
        (fun last h t ht => by cases attempt.symm.trans h; exact reading_le _ List.mem_cons_self t ht) patient_rest
      refine ⟨spaced, fun start hstart last hlast => ?_⟩
      have := after_attempt start hstart startAt attempt
      have := clock last hlast startAt List.mem_cons_self
      linarith
    · obtain ⟨spaced, after_attempt⟩ := ih forward_rest
        (fun last h t ht => by cases attempt.symm.trans h; exact reading_le _ (by simp [CacheInput.readings]) t ht)
        patient_rest
      have order : gateAt ≤ startAt := by
        have sorted := (List.pairwise_append.mp forward).1
        simp only [CacheInput.readings, List.pairwise_cons, List.mem_cons, List.not_mem_nil, or_false] at sorted
        exact sorted.2.1 startAt rfl
      have first : ∀ last, s.lastAttemptAt = some last → last + cache.minRefreshInterval ≤ startAt :=
        fun last hlast => gate_spaced idle gate order (patient [] _ rest rfl) hlast
      rw [started, Option.toList_some, List.singleton_append]
      refine ⟨List.pairwise_cons.mpr ⟨fun start hstart => after_attempt start hstart startAt attempt, spaced⟩, ?_⟩
      intro start hstart last hlast
      rcases List.mem_cons.mp hstart with rfl | hrest
      · exact first last hlast
      · have := after_attempt start hrest startAt attempt
        have := clock last hlast startAt (by simp [CacheInput.readings])
        linarith

private theorem fetchStarts_append (past future : List (CacheInput F)) :
    cache.fetchStarts s (past ++ future) =
      cache.fetchStarts s past ++ cache.fetchStarts (cache.machine.run s past).1 future := by
  induction past generalizing s with
  | nil => rfl
  | cons input past ih => rw [List.cons_append, fetchStarts, ih, fetchStarts, List.append_assoc, Machine.run_cons]

/-- Without bare refreshes the last attempt is one of the fetches counted. -/
private theorem lastAttempt_mem {inputs : List (CacheInput F)} (calls : ∀ input ∈ inputs, input.isRefresh = false)
    {last : Timestamp} (attempted : (cache.machine.run s inputs).1.lastAttemptAt = some last) :
    s.lastAttemptAt = some last ∨ last ∈ cache.fetchStarts s inputs := by
  induction inputs generalizing s with
  | nil => exact .inl attempted
  | cons input rest ih =>
    rw [Machine.run_cons] at attempted
    rw [fetchStarts]
    rcases ih (fun input' h => calls input' (List.mem_cons_of_mem _ h)) attempted with before | later
    · rcases attempt_cases cache s input with
        ⟨-, same | ⟨c, startAt, rfl, -⟩⟩ | ⟨_, _, _, _, startAt, -, -, -, started, attempt⟩
      · exact .inl (same ▸ before)
      · cases calls _ List.mem_cons_self
      · cases attempt.symm.trans before
        rw [started]
        exact .inr List.mem_cons_self
    · exact .inr (List.mem_append_right _ later)

private theorem fetchStart_of_unfetched (cache : JwksCache) {c : CallId} (kid : String)
    (freshAt gateAt startAt : Timestamp) (idle : s.pending c = none) (unfetched : s.fetchedAt = none) :
    cache.fetchStart s (.getKey c kid freshAt gateAt startAt) = some startAt := by
  have stale : cache.isFresh s freshAt = false := by rw [isFresh, unfetched]
  have gate : cache.mayAttemptRefresh s gateAt = true := by
    unfold mayAttemptRefresh
    rw [unfetched]
    cases s.lastAttemptAt with
    | none | some _ => rfl
  unfold fetchStart machine getKey
  dsimp only [CacheInput.isGetKey]
  rw [if_pos idle, stale, gate]
  rfl

end JwksCache

/-- Over any history of `get_key` calls, however they overlap and whatever their fetches come to, the
fetches are spaced exactly when every call is patient until the first success. -/
theorem refreshes_throttled (cache : JwksCache) {inputs : List (CacheInput F)} (forward : Forward inputs)
    (calls : ∀ input ∈ inputs, input.isRefresh = false) :
    cache.Throttled inputs ↔ ∀ past input future, inputs = past ++ input :: future →
      cache.Patient (cache.after past) input := by
  constructor
  · rintro throttled past input future rfl
    cases input with
    | refresh | fetched => trivial
    | getKey c kid freshAt gateAt startAt =>
      intro idle unfetched last attempted
      have starts := JwksCache.fetchStart_of_unfetched cache kid freshAt gateAt startAt idle unfetched
      rw [JwksCache.after] at starts
      rw [JwksCache.Throttled, JwksCache.fetchStarts_append, JwksCache.fetchStarts, starts,
        List.pairwise_append] at throttled
      rcases JwksCache.lastAttempt_mem (fun input h => calls input (List.mem_append_left _ h)) attempted with h | h
      · cases h
      · exact throttled.2.2 last h startAt List.mem_cons_self
  · intro patient
    exact (JwksCache.throttled_from forward (fun _ h => by cases h) patient).1

private def secondCall (startAt : Timestamp) : List (CacheInput Empty) :=
  [.getKey 0 "a" 0 0 0, .fetched 0 .timeout, .getKey 1 "a" startAt startAt startAt]

theorem refreshes_throttled_two_calls : ({} : JwksCache).Throttled (secondCall 30000000) ↔
    ∀ past input future, secondCall 30000000 = past ++ input :: future →
      ({} : JwksCache).Patient (JwksCache.after {} past) input :=
  refreshes_throttled {} (show List.Pairwise _ _ by decide) (by simp [secondCall, CacheInput.isRefresh])

/-- Until a fetch has succeeded every call starts another. -/
theorem refreshes_unthrottled : ¬ ({} : JwksCache).Throttled (secondCall 0) := by
  intro throttled
  have starts : JwksCache.fetchStarts {} {} (secondCall 0) = [0, 0] := rfl
  rw [JwksCache.Throttled, starts] at throttled
  exact absurd (List.pairwise_cons.mp throttled).1 (by decide)

end LlmGateway.Auth
