import LlmGateway.Auth.JwksCache

/-! Which keys `get_key` returns, and how old they are. -/
namespace LlmGateway.Auth
open Ledger Lib

variable {F : Type}

/-- The entries of a document that have a kid, in order. -/
def usableKeys (document : Json F) : List (String × Json.Members F) :=
  match documentKeys document with
  | some (.arr keys) => keys.filterMap keyEntry
  | _ => []

/-- The last entry for a kid. -/
def lastEntry (document : Json F) (kid : String) : Option (Json.Members F) :=
  (usableKeys document).reverse.lookup kid

/-- A fetch that brings no usable document. -/
def FetchOutcome.Fails : FetchOutcome F → Prop
  | .timeout | .raised => True
  | .document value => usableKeys value = []

private theorem foldl_insertKey (keys : List (Json F)) :
    keys.foldl insertKey Dict.empty = Dict.ofList (keys.filterMap keyEntry) := by
  rw [Dict.ofList, List.foldl_filterMap]
  congr 1
  funext parsed key
  unfold insertKey
  cases keyEntry key with
  | none | some _ => rfl

/-- Parsing fails exactly on the documents without a usable key; else a kid has its last entry. -/
theorem parseDocument_spec (document : Json F) :
    (usableKeys document = [] ∧ ∃ message, parseDocument document = .error message) ∨
      (usableKeys document ≠ [] ∧ ∃ parsed, parseDocument document = .ok parsed ∧
        ∀ kid, parsed.get kid = lastEntry document kid) := by
  unfold parseDocument lastEntry usableKeys
  rcases documentKeys document with _ | value
  · exact .inl ⟨rfl, _, rfl⟩
  · cases value with
    | null | bool | int | float | str | obj => exact .inl ⟨rfl, _, rfl⟩
    | arr keys =>
      cases keys with
      | nil => exact .inl ⟨rfl, _, rfl⟩
      | cons key keys =>
        dsimp only
        rw [foldl_insertKey]
        by_cases unusable : (key :: keys).filterMap keyEntry = []
        · rw [if_pos (Dict.keys_ofList_eq_empty.mpr unusable)]
          exact .inl ⟨unusable, _, rfl⟩
        · rw [if_neg (fun h => unusable (Dict.keys_ofList_eq_empty.mp h))]
          exact .inr ⟨unusable, _, rfl, Dict.get_ofList _⟩

namespace JwksCache
variable (cache : JwksCache)

/-- The document a step installs, and when its fetch started. -/
def installs (s : CacheState F) : CacheInput F → Option (Json F × Timestamp)
  | .fetched c (.document document) =>
    if (usableKeys document).isEmpty then none else (s.pending c).map fun call => (document, call.now)
  | _ => none

/-- The documents a history installs, in order. -/
def installations (s : CacheState F) : List (CacheInput F) → List (Json F × Timestamp)
  | [] => []
  | input :: rest => (installs s input).toList ++ installations (cache.machine.step s input).1 rest

theorem installations_concat (s : CacheState F) (past : List (CacheInput F)) (input : CacheInput F) :
    cache.installations s (past ++ [input]) =
      cache.installations s past ++ (installs (cache.machine.run s past).1 input).toList := by
  induction past generalizing s with
  | nil => exact List.append_nil _
  | cons first past ih => rw [List.cons_append, installations, ih, installations, List.append_assoc, Machine.run_cons]

/-- The cache holds the keys of the last installed document, as old as its fetch. -/
structure Holds (s : CacheState F) (last : Option (Json F × Timestamp)) : Prop where
  fetchedAt : s.fetchedAt = last.map Prod.snd
  keys : ∀ kid, s.keys.get kid = last.bind fun installed => lastEntry installed.1 kid

variable {cache} {s : CacheState F}

/-- The fetch of `call` installs its document, and nothing else changes keys or their age. -/
private theorem afterFetch_holds (call : PendingFetch) (outcome : FetchOutcome F) :
    (outcome.Fails ∧ (∃ message, afterFetch s call outcome = (s, .fetchError message))) ∨
      ∃ document, outcome = .document document ∧ ¬ outcome.Fails ∧
        (afterFetch s call outcome).1.fetchedAt = some call.now ∧
        (∀ kid, (afterFetch s call outcome).1.keys.get kid = lastEntry document kid) ∧
        ∀ kid key, (afterFetch s call outcome).2 = .returned kid key →
          call.kid = some kid ∧ lastEntry document kid = some key := by
  unfold afterFetch installed
  cases outcome with
  | timeout | raised => exact .inl ⟨trivial, _, rfl⟩
  | document document =>
    rcases parseDocument_spec document with ⟨unusable, message, failed⟩ | ⟨usable, parsed, done, entries⟩
    · dsimp only
      rw [failed]
      exact .inl ⟨unusable, message, rfl⟩
    · dsimp only
      rw [done]
      refine .inr ⟨document, rfl, usable, ?_⟩
      dsimp only
      cases asked : call.kid with
      | none => exact ⟨rfl, entries, fun _ _ h => by cases h⟩
      | some kid =>
        dsimp only
        cases found : parsed.get kid with
        | none => exact ⟨rfl, entries, fun _ _ h => by cases h⟩
        | some key =>
          refine ⟨rfl, entries, fun kid' key' h => ?_⟩
          cases h
          exact ⟨rfl, (entries kid).symm.trans found⟩

private theorem getKey_holds (cache : JwksCache) (s : CacheState F) (c : CallId) (kid : String)
    (freshAt gateAt startAt : Timestamp) :
    (cache.getKey s c kid freshAt gateAt startAt).1.fetchedAt = s.fetchedAt ∧
      (cache.getKey s c kid freshAt gateAt startAt).1.keys = s.keys ∧
      ∀ kid' key, (cache.getKey s c kid freshAt gateAt startAt).2 = .returned kid' key →
        kid' = kid ∧ cache.isFresh s freshAt = true ∧ s.keys.get kid = some key := by
  unfold getKey
  by_cases fresh : cache.isFresh s freshAt = true
  · rw [if_pos fresh]
    cases found : s.keys.get kid with
    | none =>
      dsimp only
      split
      · exact ⟨rfl, rfl, fun _ _ h => by cases h⟩
      · exact ⟨rfl, rfl, fun _ _ h => by cases h⟩
    | some key =>
      refine ⟨rfl, rfl, fun kid' key' h => ?_⟩
      cases h
      exact ⟨rfl, fresh, rfl⟩
  · rw [if_neg fresh]
    dsimp only
    split
    · exact ⟨rfl, rfl, fun _ _ h => by cases h⟩
    · exact ⟨rfl, rfl, fun _ _ h => by cases h⟩

variable (cache s) in
/-- A step keeps the keys and their age, or installs a document. -/
private theorem step_holds (input : CacheInput F) :
    (installs s input = none ∧ (cache.machine.step s input).1.fetchedAt = s.fetchedAt ∧
      (cache.machine.step s input).1.keys = s.keys) ∨
    ∃ document startAt, installs s input = some (document, startAt) ∧
      (cache.machine.step s input).1.fetchedAt = some startAt ∧
      ∀ kid, (cache.machine.step s input).1.keys.get kid = lastEntry document kid := by
  cases input with
  | getKey c kid freshAt gateAt startAt =>
    left
    unfold machine
    dsimp only
    split
    · obtain ⟨age, keys, -⟩ := getKey_holds cache s c kid freshAt gateAt startAt
      exact ⟨rfl, age, keys⟩
    · exact ⟨rfl, rfl, rfl⟩
  | refresh c startAt =>
    left
    unfold machine
    dsimp only
    split
    · exact ⟨rfl, rfl, rfl⟩
    · exact ⟨rfl, rfl, rfl⟩
  | fetched c outcome =>
    unfold machine
    dsimp only
    cases call_eq : s.pending c with
    | none =>
      refine .inl ⟨?_, rfl, rfl⟩
      cases outcome with
      | timeout | raised => rfl
      | document document => rw [installs, call_eq]; exact ite_self _
    | some call =>
      dsimp only
      rcases afterFetch_holds (s := { s with pending := Function.update s.pending c none }) call outcome with
        ⟨fails, message, failed⟩ | ⟨document, rfl, usable, age, keys, -⟩
      · rw [failed]
        refine .inl ⟨?_, rfl, rfl⟩
        cases outcome with
        | timeout | raised => rfl
        | document document => rw [installs, if_pos (List.isEmpty_iff.mpr fails)]
      · refine .inr ⟨document, call.now, ?_, age, keys⟩
        rw [installs, if_neg (fun h => usable (List.isEmpty_iff.mp h)), call_eq]
        rfl

/-- After any history the cache holds what was installed last. -/
theorem holds_after (cache : JwksCache) (inputs : List (CacheInput F)) :
    Holds (cache.after inputs) (cache.installations {} inputs).getLast? := by
  induction inputs using List.reverseRecOn with
  | nil => exact ⟨rfl, fun _ => rfl⟩
  | append_singleton past input ih =>
    rw [after_concat, installations_concat, List.getLast?_append]
    rcases step_holds cache (cache.after past) input with
      ⟨kept, age, keys⟩ | ⟨document, startAt, installed, age, keys⟩
    · rw [show installs (cache.machine.run {} past).1 input = none from kept]
      exact ⟨age.trans ih.fetchedAt, fun kid => (congrArg (Dict.get · kid) keys).trans (ih.keys kid)⟩
    · rw [show installs (cache.machine.run {} past).1 input = some (document, startAt) from installed]
      exact ⟨age, keys⟩

/-- A returned key is found in the cache while fresh, or in what the call's own fetch installed. -/
private theorem returned_holds {past : List (CacheInput F)}
    (holds : Holds (cache.after past) (cache.installations {} past).getLast?) (input : CacheInput F)
    {kid : String} {key : Json.Members F}
    (h : (cache.machine.step (cache.after past) input).2 = .returned kid key) :
    ∃ document startAt, (cache.installations {} (past ++ [input])).getLast? = some (document, startAt) ∧
      lastEntry document kid = some key ∧
      ((∃ c freshAt gateAt nextAt, input = .getKey c kid freshAt gateAt nextAt ∧ freshAt - startAt < cache.ttl) ∨
        ∃ c, input = .fetched c (.document document) ∧
          (cache.after past).pending c = some ⟨some kid, startAt⟩) := by
  rw [installations_concat, ← after]
  cases input with
  | getKey c kid' freshAt gateAt startAt =>
    unfold machine at h
    dsimp only at h
    split at h
    next =>
      obtain ⟨rfl, fresh, found⟩ := (getKey_holds cache _ c kid' freshAt gateAt startAt).2.2 kid key h
      cases last : (cache.installations {} past).getLast? with
      | none =>
        rw [isFresh, holds.fetchedAt, last] at fresh
        cases fresh
      | some installed =>
        rw [isFresh, holds.fetchedAt, last] at fresh
        rw [holds.keys, last] at found
        refine ⟨installed.1, installed.2, ?_, found, .inl ⟨c, freshAt, gateAt, startAt, rfl, of_decide_eq_true fresh⟩⟩
        exact (congrArg List.getLast? (List.append_nil _)).trans last
    next => cases h
  | refresh c startAt =>
    unfold machine at h
    dsimp only at h
    split at h
    next => cases h
    next => cases h
  | fetched c outcome =>
    unfold machine at h
    dsimp only at h
    cases pending : (cache.after past).pending c with
    | none =>
      rw [pending] at h
      cases h
    | some call =>
      rw [pending] at h
      dsimp only at h
      rcases afterFetch_holds (s := { cache.after past with pending := Function.update (cache.after past).pending c none })
        call outcome with ⟨-, message, failed⟩ | ⟨document, rfl, usable, -, -, answer⟩
      · rw [failed] at h
        cases h
      · obtain ⟨asked, found⟩ := answer kid key h
        refine ⟨document, call.now, ?_, found, .inr ⟨c, rfl, ?_⟩⟩
        · rw [installs, if_neg (fun h => usable (List.isEmpty_iff.mp h)), pending, List.getLast?_append]
          rfl
        · rw [pending, ← asked]

private theorem failed_holds {c : CallId} {call : PendingFetch} {outcome : FetchOutcome F}
    (pending : s.pending c = some call) (fails : outcome.Fails) :
    (cache.machine.step s (.fetched c outcome)).1.keys = s.keys ∧
      (cache.machine.step s (.fetched c outcome)).1.fetchedAt = s.fetchedAt ∧
      ∃ message, (cache.machine.step s (.fetched c outcome)).2 = .fetchError message := by
  unfold machine
  dsimp only
  rw [pending]
  dsimp only
  rcases afterFetch_holds (s := { s with pending := Function.update s.pending c none }) call outcome with
    ⟨-, message, failed⟩ | ⟨document, -, works, -⟩
  · rw [failed]
    exact ⟨rfl, rfl, message, rfl⟩
  · exact absurd fails works

end JwksCache

/-- Over any history of refreshes and `get_key` calls, however they overlap: a returned key is the last
entry for its kid in the document installed last, whose fetch started less than the time to live ago or
in this very call; a failed fetch changes neither the keys nor their age and its caller is told; and a
kid that document lacks is not returned. -/
theorem keys_never_stale (cache : JwksCache) (past : List (CacheInput F)) (input : CacheInput F) :
    (∀ kid key, (cache.machine.step (cache.after past) input).2 = .returned kid key →
      ∃ document startAt, (cache.installations {} (past ++ [input])).getLast? = some (document, startAt) ∧
        lastEntry document kid = some key ∧
        ((∃ c freshAt gateAt nextAt, input = .getKey c kid freshAt gateAt nextAt ∧ freshAt - startAt < cache.ttl) ∨
          ∃ c, input = .fetched c (.document document) ∧
            (cache.after past).pending c = some ⟨some kid, startAt⟩)) ∧
    (∀ c call outcome, input = .fetched c outcome → (cache.after past).pending c = some call → outcome.Fails →
      (cache.after (past ++ [input])).keys = (cache.after past).keys ∧
        (cache.after (past ++ [input])).fetchedAt = (cache.after past).fetchedAt ∧
        ∃ message, (cache.machine.step (cache.after past) input).2 = .fetchError message) ∧
    ∀ document startAt kid, (cache.installations {} (past ++ [input])).getLast? = some (document, startAt) →
      lastEntry document kid = none → ∀ key, (cache.machine.step (cache.after past) input).2 ≠ .returned kid key := by
  have holds := JwksCache.holds_after cache past
  refine ⟨fun kid key h => JwksCache.returned_holds holds input h, ?_, ?_⟩
  · rintro c call outcome rfl pending fails
    rw [JwksCache.after_concat]
    exact JwksCache.failed_holds pending fails
  · intro document startAt kid last absent key h
    obtain ⟨document', startAt', last', present, -⟩ :=
      JwksCache.returned_holds holds input h
    cases last.symm.trans last'
    rw [absent] at present
    cases present

end LlmGateway.Auth
