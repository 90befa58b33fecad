import LlmGateway.Execution.ResponseCache
import LlmGateway.Lib.Json
import LlmGateway.Lib.Unique

/-! `SqlResponseCache`, whose calls are transactions on one table that any number of gateways share: what they
are answered is what one in-memory cache answers, with the puts in the order they commit. -/
namespace LlmGateway.Execution
open Lib Ledger

/-- A row of `semantic_cache_entry`. -/
structure CacheRow (κ F : Type) where
  organizationId : OrgId
  requestHash : κ
  response : Json F
  expiresAt : Option Timestamp

def CacheRow.key {κ F : Type} (row : CacheRow κ F) : OrgId × κ := (row.organizationId, row.requestHash)

structure CacheTable (κ F : Type) where
  rows : List (CacheRow κ F)
  semantic_cache_org_hash_key : (rows.map (·.key)).Nodup

/-- How a content is kept in a `jsonb` column. -/
structure Jsonb (F : Type) where
  encode : Option Content → Json F
  decode : Json F → Option Content
  decode_encode : ∀ content, decode (encode content) = content

/-- A call of `put`, with its reading of the clock. -/
structure Put (κ : Type) where
  organizationId : OrgId
  key : κ
  response : CachedResponse
  now : Timestamp

namespace CacheTable
variable {κ F : Type} [DecidableEq κ] (σ : CacheTable κ F)

/-- The row of the tenant's `SELECT`, among those it is shown. -/
def lookup (organizationId : OrgId) (key : κ) : Option (CacheRow κ F) :=
  (σ.rows.filter (·.organizationId = organizationId)).find? fun row =>
    row.organizationId = organizationId ∧ row.requestHash = key

/-- A row under the key of another takes its response and its expiry. -/
def rewrite (row other : CacheRow κ F) : CacheRow κ F :=
  if other.key = row.key then { other with response := row.response, expiresAt := row.expiresAt } else other

theorem rewrite_key (row other : CacheRow κ F) : (rewrite row other).key = other.key := by
  unfold rewrite
  split <;> rfl

theorem rewrite_of_eq {row other : CacheRow κ F} (same : other.key = row.key) : rewrite row other = row := by
  rw [rewrite, if_pos same]
  obtain ⟨organizationId, requestHash⟩ := Prod.mk.inj same
  rw [organizationId, requestHash]

/-- `INSERT … ON CONFLICT (organization_id, request_hash) DO UPDATE`. -/
def upsert (row : CacheRow κ F) : CacheTable κ F :=
  if new : ∀ other ∈ σ.rows, other.key ≠ row.key then
    ⟨σ.rows ++ [row], Unique.nodup_concat σ.semantic_cache_org_hash_key new⟩
  else
    ⟨σ.rows.map (rewrite row), by
      rw [Unique.map_key_map (rewrite_key row)]
      exact σ.semantic_cache_org_hash_key⟩

variable {σ} {organizationId : OrgId} {key : κ} {row : CacheRow κ F}

theorem lookup_eq_some_iff : σ.lookup organizationId key = some row ↔ row ∈ σ.rows ∧ row.key = (organizationId, key) := by
  rw [lookup, Unique.find?_eq_some_iff]
  · simp only [List.mem_filter, decide_eq_true_eq, CacheRow.key, Prod.mk.injEq]
    exact ⟨fun h => ⟨h.1.1, h.2⟩, fun h => ⟨⟨h.1, h.2.1⟩, h.2⟩⟩
  · intro a ha b hb pa pb
    obtain ⟨orgA, keyA⟩ := of_decide_eq_true pa
    obtain ⟨orgB, keyB⟩ := of_decide_eq_true pb
    exact Unique.key_inj σ.semantic_cache_org_hash_key (List.mem_filter.mp ha).1 (List.mem_filter.mp hb).1
      (Prod.ext (orgA.trans orgB.symm) (keyA.trans keyB.symm))

/-- An upsert puts its row under its key and leaves every other key alone. -/
theorem mem_upsert {other : CacheRow κ F} :
    other ∈ (σ.upsert row).rows ↔ other = row ∨ (other ∈ σ.rows ∧ other.key ≠ row.key) := by
  unfold upsert
  split
  · next new =>
    rw [List.mem_append, List.mem_singleton, or_comm]
    exact or_congr_right ⟨fun there => ⟨there, new other there⟩, And.left⟩
  · next taken =>
    rw [List.mem_map]
    constructor
    · rintro ⟨old, there, rfl⟩
      by_cases same : old.key = row.key
      · exact .inl (rewrite_of_eq same)
      · rw [rewrite, if_neg same]
        exact .inr ⟨there, same⟩
    · rintro (rfl | ⟨there, apart⟩)
      · push Not at taken
        obtain ⟨old, there, same⟩ := taken
        exact ⟨old, there, rewrite_of_eq same⟩
      · exact ⟨other, there, if_neg apart⟩

theorem lookup_upsert_self (at_ : row.key = (organizationId, key)) : (σ.upsert row).lookup organizationId key = some row :=
  lookup_eq_some_iff.mpr ⟨mem_upsert.mpr (.inl rfl), at_⟩

theorem lookup_upsert_of_ne (apart : row.key ≠ (organizationId, key)) :
    (σ.upsert row).lookup organizationId key = σ.lookup organizationId key := by
  refine Option.ext fun other => ?_
  rw [lookup_eq_some_iff, lookup_eq_some_iff, mem_upsert]
  constructor
  · rintro ⟨rfl | ⟨there, -⟩, at_⟩
    · exact absurd at_ apart
    · exact ⟨there, at_⟩
  · rintro ⟨there, at_⟩
    exact ⟨.inr ⟨there, fun same => apart (same.symm.trans at_)⟩, at_⟩

end CacheTable

section
variable {κ F : Type} (jsonb : Jsonb F)

/-- The value `put` stores. -/
def cachePayload (response : CachedResponse) : Json F :=
  .obj [("provider", .str response.provider), ("model", .str response.model),
    ("content", jsonb.encode response.content)]

/-- The response in a stored value; `none` where the code returns `None`, and for names that are no strings, which
the code would take and no put stores. -/
def ofCachePayload : Json F → Option CachedResponse
  | .obj members =>
    match members.lookup "provider", members.lookup "model", members.lookup "content" with
    | some (.str provider), some (.str model), some content => some ⟨provider, model, jsonb.decode content⟩
    | _, _, _ => none
  | _ => none

/-- `get` after its `SELECT`. -/
def ofRow (row : Option (CacheRow κ F)) (now : Timestamp) : Option CachedResponse :=
  match row with
  | none => none
  | some row => if row.expiresAt.any (· ≤ now) then none else ofCachePayload jsonb row.response

def Put.row (ttl : Timestamp) (put : Put κ) : CacheRow κ F where
  organizationId := put.organizationId
  requestHash := put.key
  response := cachePayload jsonb put.response
  expiresAt := some (put.now + ttl)

theorem ofCachePayload_cachePayload (response : CachedResponse) : ofCachePayload jsonb (cachePayload jsonb response) = some response := by
  simp [ofCachePayload, cachePayload, jsonb.decode_encode, List.lookup_cons]

end

/-! ### Calls on one table -/

abbrev CacheCall := Nat

/-- Where a call stands. `since` and `upto` count the puts that were committed when a `get` began and when it
returned. -/
inductive CachePhase (κ F : Type) where
  | idle
  | storing (put : Put κ)
  /-- Committed, and not yet heard of. -/
  | stored (put : Put κ)
  | returned (put : Put κ)
  | reading (organizationId : OrgId) (key : κ) (since : Nat)
  | read (organizationId : OrgId) (key : κ) (since : Nat) (row : Option (CacheRow κ F))
  | answered (organizationId : OrgId) (key : κ) (since upto : Nat) (now : Timestamp) (answer : Option CachedResponse)
  /-- `CacheUnavailableError`. -/
  | unavailable

/-- The table, the calls and the puts that are committed, in their order. -/
structure SharedCache (κ F : Type) where
  table : CacheTable κ F
  phases : CacheCall → CachePhase κ F
  committed : List (CacheCall × Put κ)

inductive CacheAction (κ : Type) where
  | put (c : CacheCall) (put : Put κ)
  | commit (c : CacheCall)
  | acknowledge (c : CacheCall)
  | get (c : CacheCall) (organizationId : OrgId) (key : κ)
  | select (c : CacheCall)
  | answer (c : CacheCall) (now : Timestamp)
  | fail (c : CacheCall)

namespace SharedCache
variable {κ F : Type} [DecidableEq κ] (jsonb : Jsonb F) (ttl : Timestamp)

def start : SharedCache κ F := ⟨⟨[], List.nodup_nil⟩, fun _ => .idle, []⟩

def setPhase (s : SharedCache κ F) (c : CacheCall) (phase : CachePhase κ F) : SharedCache κ F :=
  { s with phases := Function.update s.phases c phase }

/-- One step of one call; `none` when the call is not there. A put may fail after it is committed. -/
def step (s : SharedCache κ F) : CacheAction κ → Option (SharedCache κ F)
  | .put c put =>
    match s.phases c with
    | .idle => some (s.setPhase c (.storing put))
    | _ => none
  | .commit c =>
    match s.phases c with
    | .storing put =>
      some { s.setPhase c (.stored put) with
        table := s.table.upsert (put.row jsonb ttl), committed := s.committed ++ [(c, put)] }
    | _ => none
  | .acknowledge c =>
    match s.phases c with
    | .stored put => some (s.setPhase c (.returned put))
    | _ => none
  | .get c organizationId key =>
    match s.phases c with
    | .idle => some (s.setPhase c (.reading organizationId key s.committed.length))
    | _ => none
  | .select c =>
    match s.phases c with
    | .reading organizationId key since =>
      some (s.setPhase c (.read organizationId key since (s.table.lookup organizationId key)))
    | _ => none
  | .answer c now =>
    match s.phases c with
    | .read organizationId key since row =>
      some (s.setPhase c (.answered organizationId key since s.committed.length now (ofRow jsonb row now)))
    | _ => none
  | .fail c =>
    match s.phases c with
    | .storing _ | .stored _ | .reading _ _ _ | .read _ _ _ _ => some (s.setPhase c .unavailable)
    | _ => none

def run (s : SharedCache κ F) : List (CacheAction κ) → Option (SharedCache κ F)
  | [] => some s
  | a :: as => (s.step jsonb ttl a).bind fun s' => run s' as

end SharedCache

/-! ### One cache after another -/

section
variable {κ F : Type} [DecidableEq κ] (jsonb : Jsonb F) (ttl : Timestamp)

/-- The in-memory cache after some puts. -/
def afterPuts (puts : List (CacheCall × Put κ)) : InMemoryResponseCache κ :=
  puts.foldl (fun cache put => cache.put ttl put.2.now put.2.organizationId put.2.key put.2.response) ⟨fun _ => none⟩

/-- The row that stands for an entry. -/
def rowOf (cache : InMemoryResponseCache κ) (organizationId : OrgId) (key : κ) : Option (CacheRow κ F) :=
  (cache.store (organizationId, key)).map fun entry =>
    ⟨organizationId, key, cachePayload jsonb entry.response, some entry.expiresAt⟩

/-- The table holds what the in-memory cache holds. -/
def StandsFor (σ : CacheTable κ F) (cache : InMemoryResponseCache κ) : Prop :=
  ∀ organizationId key, σ.lookup organizationId key = rowOf jsonb cache organizationId key

variable {jsonb ttl} {σ : CacheTable κ F} {cache : InMemoryResponseCache κ}

omit [DecidableEq κ] in
theorem ofRow_rowOf (organizationId : OrgId) (key : κ) (now : Timestamp) :
    ofRow jsonb (rowOf (F := F) jsonb cache organizationId key) now = cache.get now organizationId key := by
  rw [rowOf, InMemoryResponseCache.get]
  cases cache.store (organizationId, key) with
  | none => rfl
  | some entry => simp only [Option.map_some, ofRow, Option.any_some, decide_eq_true_eq, ofCachePayload_cachePayload]

theorem StandsFor.put (h : StandsFor jsonb σ cache) (put : Put κ) :
    StandsFor jsonb (σ.upsert (put.row jsonb ttl))
      (cache.put ttl put.now put.organizationId put.key put.response) := by
  intro organizationId key
  by_cases same : (put.row jsonb ttl).key = (organizationId, key)
  · obtain ⟨rfl, rfl⟩ := Prod.mk.inj same
    rw [CacheTable.lookup_upsert_self same]
    simp only [rowOf, InMemoryResponseCache.put, Put.row, Function.update_self, Option.map_some]
  · rw [CacheTable.lookup_upsert_of_ne same, h]
    have apart : (organizationId, key) ≠ (put.organizationId, put.key) := fun eq => same eq.symm
    simp only [rowOf, InMemoryResponseCache.put, Function.update_of_ne apart]

theorem afterPuts_concat (puts : List (CacheCall × Put κ)) (c : CacheCall) (put : Put κ) :
    afterPuts ttl (puts ++ [(c, put)]) =
      (afterPuts ttl puts).put ttl put.now put.organizationId put.key put.response := by
  rw [afterPuts, List.foldl_append]
  rfl

/-- Whatever it serves, a put of the tenant under the key stored, and has not expired. -/
theorem get_afterPuts {puts : List (CacheCall × Put κ)} {organizationId : OrgId} {key : κ} {now : Timestamp}
    {response : CachedResponse} (h : (afterPuts ttl puts).get now organizationId key = some response) :
    ∃ c put, (c, put) ∈ puts ∧ put.organizationId = organizationId ∧ put.key = key ∧ put.response = response ∧
      now < put.now + ttl := by
  induction puts using List.reverseRecOn with
  | nil => cases h
  | append_singleton puts last ih =>
    obtain ⟨c, put⟩ := last
    rw [afterPuts_concat] at h
    by_cases same : (organizationId, key) = (put.organizationId, put.key)
    · obtain ⟨rfl, rfl⟩ := Prod.mk.inj same
      simp only [InMemoryResponseCache.get, InMemoryResponseCache.put, Function.update_self] at h
      split at h
      · cases h
      · next alive =>
        exact ⟨c, put, List.mem_append_right _ List.mem_cons_self, rfl, rfl, Option.some.inj h, not_le.mp alive⟩
    · simp only [InMemoryResponseCache.get, InMemoryResponseCache.put, Function.update_of_ne same] at h
      obtain ⟨c', put', there, rest⟩ := ih h
      exact ⟨c', put', List.mem_append_left _ there, rest⟩

end

/-! ### Runs -/

section
variable {κ F : Type} [DecidableEq κ] (jsonb : Jsonb F) (ttl : Timestamp)

/-- What a call has done to the puts that are committed, or seen of them. -/
def Seen (committed : List (CacheCall × Put κ)) (c : CacheCall) : CachePhase κ F → Prop
  | .stored put | .returned put => (c, put) ∈ committed
  | .reading _ _ since => since ≤ committed.length
  | .read organizationId key since row => ∃ n, since ≤ n ∧ n ≤ committed.length ∧
      row = rowOf jsonb (afterPuts ttl (committed.take n)) organizationId key
  | .answered organizationId key since upto now answer => ∃ n, since ≤ n ∧ n ≤ upto ∧ upto ≤ committed.length ∧
      answer = (afterPuts ttl (committed.take n)).get now organizationId key
  | .idle | .storing _ | .unavailable => True

/-- A call that has committed a put is past it. -/
def CachePhase.Past (put : Put κ) : CachePhase κ F → Prop
  | .stored put' | .returned put' => put' = put
  | .unavailable => True
  | _ => False

structure Linearized (s : SharedCache κ F) : Prop where
  stands : StandsFor jsonb s.table (afterPuts ttl s.committed)
  seen : ∀ c, Seen jsonb ttl s.committed c (s.phases c)
  past : ∀ c put, (c, put) ∈ s.committed → (s.phases c).Past put
  once : (s.committed.map (·.1)).Nodup

variable {jsonb ttl} {s s' : SharedCache κ F} {c : CacheCall} {phase : CachePhase κ F}

/-- What was seen stays so when more puts are committed. -/
theorem Seen.append {committed : List (CacheCall × Put κ)} (h : Seen jsonb ttl committed c phase)
    (more : List (CacheCall × Put κ)) : Seen jsonb ttl (committed ++ more) c phase := by
  have grown : committed.length ≤ (committed ++ more).length := by simp
  cases phase with
  | idle | storing | unavailable => trivial
  | stored | returned => exact List.mem_append_left _ h
  | reading => exact le_trans h grown
  | read =>
    obtain ⟨n, since, there, row⟩ := h
    refine ⟨n, since, there.trans grown, ?_⟩
    rwa [List.take_append_of_le_length there]
  | answered =>
    obtain ⟨n, since, upto, there, answer⟩ := h
    refine ⟨n, since, upto, there.trans grown, ?_⟩
    rwa [List.take_append_of_le_length (upto.trans there)]

/-- A call goes on, and commits nothing. -/
theorem Linearized.setPhase (h : Linearized jsonb ttl s) (seen : Seen jsonb ttl s.committed c phase)
    (past : ∀ put, (s.phases c).Past put → phase.Past put) : Linearized jsonb ttl (s.setPhase c phase) := by
  have calls : ∀ d, Seen jsonb ttl s.committed d (Function.update s.phases c phase d) :=
    (Function.forall_update_iff s.phases fun d => Seen jsonb ttl s.committed d).mpr ⟨seen, fun d _ => h.seen d⟩
  have puts : ∀ d put, (d, put) ∈ s.committed → (Function.update s.phases c phase d).Past put :=
    (Function.forall_update_iff s.phases fun d phase => ∀ put, (d, put) ∈ s.committed → phase.Past put).mpr
      ⟨fun put there => past put (h.past c put there), fun d _ => h.past d⟩
  exact ⟨h.stands, calls, puts, h.once⟩

theorem Linearized.commit (h : Linearized jsonb ttl s) {put : Put κ} (storing : s.phases c = .storing put) :
    Linearized jsonb ttl { s.setPhase c (.stored put) with
      table := s.table.upsert (put.row jsonb ttl), committed := s.committed ++ [(c, put)] } := by
  have fresh : ∀ other, (c, other) ∉ s.committed := by
    intro other there
    have past := h.past c other there
    rwa [storing] at past
  have calls : ∀ d, Seen jsonb ttl (s.committed ++ [(c, put)]) d (Function.update s.phases c (.stored put) d) :=
    (Function.forall_update_iff s.phases fun d => Seen jsonb ttl (s.committed ++ [(c, put)]) d).mpr
      ⟨List.mem_append_right _ List.mem_cons_self, fun d _ => (h.seen d).append [(c, put)]⟩
  refine ⟨?_, calls, fun d other there => ?_, ?_⟩
  · rw [afterPuts_concat]
    exact h.stands.put put
  · rcases List.mem_append.mp there with old | new
    · have hd : d ≠ c := fun same => fresh other (same ▸ old)
      simpa only [SharedCache.setPhase, Function.update_of_ne hd] using h.past d other old
    · obtain ⟨rfl, rfl⟩ := Prod.mk.inj (List.mem_singleton.mp new)
      simp only [SharedCache.setPhase, Function.update_self, CachePhase.Past]
  · refine Unique.nodup_concat h.once ?_
    rintro ⟨_, other⟩ there rfl
    exact fresh other there

theorem linearized_start : Linearized jsonb ttl (SharedCache.start : SharedCache κ F) :=
  ⟨fun _ _ => rfl, fun _ => trivial, fun _ _ there => absurd there List.not_mem_nil, List.nodup_nil⟩

theorem Linearized.step (h : Linearized jsonb ttl s) {a : CacheAction κ} (hs : s.step jsonb ttl a = some s') :
    Linearized jsonb ttl s' := by
  cases a with
  | put c put =>
    simp only [SharedCache.step] at hs
    split at hs
    · next idle =>
      cases hs
      exact h.setPhase trivial fun _ => by rw [idle]; exact False.elim
    · cases hs
  | commit c =>
    simp only [SharedCache.step] at hs
    split at hs
    · next storing =>
      cases hs
      exact h.commit storing
    · cases hs
  | acknowledge c =>
    simp only [SharedCache.step] at hs
    split at hs
    · next stored =>
      cases hs
      have seen := h.seen c
      rw [stored] at seen
      exact h.setPhase seen fun _ => by rw [stored]; exact id
    · cases hs
  | get c organizationId key =>
    simp only [SharedCache.step] at hs
    split at hs
    · next idle =>
      cases hs
      exact h.setPhase (le_refl _) fun _ => by rw [idle]; exact False.elim
    · cases hs
  | select c =>
    simp only [SharedCache.step] at hs
    split at hs
    · next organizationId key since reading =>
      cases hs
      have seen := h.seen c
      rw [reading] at seen
      refine h.setPhase ⟨s.committed.length, seen, le_refl _, ?_⟩ fun _ => by rw [reading]; exact False.elim
      rw [List.take_length]
      exact h.stands organizationId key
    · cases hs
  | answer c now =>
    simp only [SharedCache.step] at hs
    split at hs
    · next organizationId key since row read =>
      cases hs
      have seen := h.seen c
      rw [read] at seen
      obtain ⟨n, since, there, rfl⟩ := seen
      refine h.setPhase ⟨n, since, there, le_refl _, ?_⟩ fun _ => by rw [read]; exact False.elim
      rw [ofRow_rowOf]
    · cases hs
  | fail c =>
    simp only [SharedCache.step] at hs
    split at hs
    case h_5 => cases hs
    all_goals
      cases hs
      exact h.setPhase trivial fun _ _ => trivial

theorem Linearized.run (h : Linearized jsonb ttl s) {schedule : List (CacheAction κ)}
    (hr : s.run jsonb ttl schedule = some s') : Linearized jsonb ttl s' := by
  induction schedule generalizing s with
  | nil =>
    cases hr
    exact h
  | cons a as ih =>
    obtain ⟨s₁, step, rest⟩ := Option.bind_eq_some_iff.mp hr
    exact ih (h.step step) rest

variable (jsonb ttl s) in
/-- However the calls of the gateways interleave and fail, they are answered as by one in-memory cache. The puts
are made on it in the order they commit, each once at most and each that returned; a get is answered at a point
between its beginning and its return, and what it serves was put there, under its tenant and key, and has not
expired. -/
theorem sql_cache_linearized (schedule : List (CacheAction κ))
    (hr : SharedCache.start.run jsonb ttl schedule = some s) :
    (s.committed.map (·.1)).Nodup ∧
    (∀ c put, s.phases c = .returned put → (c, put) ∈ s.committed) ∧
    ∀ c organizationId key since upto now answer, s.phases c = .answered organizationId key since upto now answer →
      ∃ n, since ≤ n ∧ n ≤ upto ∧ upto ≤ s.committed.length ∧
        answer = (afterPuts ttl (s.committed.take n)).get now organizationId key ∧
        ∀ response, answer = some response → ∃ c' put, (c', put) ∈ s.committed.take n ∧
          put.organizationId = organizationId ∧ put.key = key ∧ put.response = response ∧ now < put.now + ttl := by
  have linearized := linearized_start.run hr
  refine ⟨linearized.once, fun c put returned => ?_, ?_⟩
  · have seen := linearized.seen c
    rwa [returned] at seen
  · intro c organizationId key since upto now answer answered
    have seen := linearized.seen c
    rw [answered] at seen
    obtain ⟨n, since, upto, there, rfl⟩ := seen
    exact ⟨n, since, upto, there, rfl, fun response served => get_afterPuts served⟩

/-- A column that keeps a text as it is, and any other content by its encoding. -/
def textColumn : Jsonb Unit where
  encode
    | none => .null
    | some (.text s) => .str s
    | some (.json encoded) => .arr [.str encoded]
  decode
    | .str s => some (.text s)
    | .arr [.str encoded] => some (.json encoded)
    | _ => none
  decode_encode content := by rcases content with _ | ⟨_ | _⟩ <;> rfl

/-- A put that commits while a get is under way. -/
def cacheRace : List (CacheAction String) :=
  [.put 0 ⟨1, "h", ⟨"openai", "gpt-4o", some (.text "hi")⟩, 5⟩, .get 1 1 "h", .commit 0, .select 1, .acknowledge 0,
    .answer 1 9]

theorem sql_cache_linearized_race :
    ∃ s : SharedCache String Unit, SharedCache.start.run textColumn 60 cacheRace = some s ∧
      s.phases 1 = .answered 1 "h" 0 1 9 (some ⟨"openai", "gpt-4o", some (.text "hi")⟩) ∧
      ∃ c put, (c, put) ∈ s.committed ∧ put.organizationId = 1 ∧ put.key = "h" := by
  obtain ⟨s, runs, answered⟩ : ∃ s : SharedCache String Unit, SharedCache.start.run textColumn 60 cacheRace = some s ∧
      s.phases 1 = .answered 1 "h" 0 1 9 (some ⟨"openai", "gpt-4o", some (.text "hi")⟩) := ⟨_, rfl, rfl⟩
  obtain ⟨n, -, -, -, -, served⟩ := (sql_cache_linearized textColumn 60 s cacheRace runs).2.2 1 1 "h" 0 1 9 _ answered
  obtain ⟨c, put, there, org, key, -⟩ := served _ rfl
  exact ⟨s, runs, answered, c, put, List.mem_of_mem_take there, org, key⟩

end
end LlmGateway.Execution
