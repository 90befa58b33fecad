import LlmGateway.Auth.Sessions

/-! How often a refresh token is redeemed when calls interleave. `mark_rotated` writes whether or not the
token has a successor already, so a token two calls have read is redeemed twice. -/
namespace LlmGateway.Auth
open Ledger Lib.Interleaved

abbrev AuthEvent := Event ports
abbrev SessionSystem := System ports SessionCall (Option IssuedTokens)

section
variable {hashSecret : String → String} {ttl : Lifetimes}

/-- The secret is that of the token in the row. -/
def Presents (hashSecret : String → String) (presented : String) (row : TokenRow) : Prop :=
  toBytes (hashSecret presented) = some row.tokenHash

/-- A call marks a token it has read. -/
def sessionGuard (trace : List AuthEvent) : Op → Prop
  | .markRotated id _ => ∃ h token, (⟨.getByHash h, some token⟩ : AuthEvent) ∈ trace ∧ token.id = id
  | _ => True

/-- A call that succeeds has read its token live and the session active, and has marked the token. -/
def Refreshed (hashSecret : String → String) (presented : String) (trace : List AuthEvent) : Prop :=
  ∃ token session newId, (⟨.getByHash (hashSecret presented), some token⟩ : AuthEvent) ∈ trace ∧
    (⟨.getSession token.sessionId, some session⟩ : AuthEvent) ∈ trace ∧ session.revokedAt = none ∧
    (⟨.markRotated token.id newId, ()⟩ : AuthEvent) ∈ trace

def sessionPost (hashSecret : String → String) (call : SessionCall) (trace : List AuthEvent) : Prop :=
  match call with
  | .refreshSession presented => Refreshed hashSecret presented trace
  | _ => True

abbrev MeetsCall (hashSecret : String → String) (call : SessionCall) (trace : List AuthEvent) (p : SessionProgram) : Prop :=
  p.Meets sessionGuard (fun trace _ => sessionPost hashSecret call trace) trace

private theorem Refreshed.append {presented : String} {trace : List AuthEvent} (h : Refreshed hashSecret presented trace)
    (e : AuthEvent) : Refreshed hashSecret presented (trace ++ [e]) := by
  obtain ⟨token, session, newId, read, active, live, marked⟩ := h
  exact ⟨token, session, newId, List.mem_append_left _ read, List.mem_append_left _ active, live,
    List.mem_append_left _ marked⟩

private theorem meets_issueTokens {presented : String} {trace : List AuthEvent}
    (h : Refreshed hashSecret presented trace) (action : String) (userId organizationId : Uuid) (refreshToken : String) :
    MeetsCall hashSecret (.refreshSession presented) trace
      (issueTokens ttl action userId organizationId refreshToken) :=
  ⟨trivial, fun _ => ⟨trivial, fun _ => (h.append _).append _⟩⟩

private theorem meets_rotate {presented : String} {trace : List AuthEvent} {token : RefreshTokenRecord String}
    {session : SessionRecord} {now : Timestamp}
    (read : (⟨.getByHash (hashSecret presented), some token⟩ : AuthEvent) ∈ trace)
    (active : (⟨.getSession token.sessionId, some session⟩ : AuthEvent) ∈ trace) (live : session.revokedAt = none) :
    MeetsCall hashSecret (.refreshSession presented) trace (rotate hashSecret ttl token session now) := by
  refine ⟨trivial, fun newSecret => ⟨trivial, fun newId => ⟨trivial, fun _ => ⟨?_, fun _ => ?_⟩⟩⟩⟩
  · exact ⟨hashSecret presented, token, by simp [read], rfl⟩
  · apply meets_issueTokens
    exact ⟨token, session, newId, by simp [read], by simp [active], live, by simp⟩

private theorem meets_refreshLive {presented : String} {trace : List AuthEvent} {token : RefreshTokenRecord String}
    (read : (⟨.getByHash (hashSecret presented), some token⟩ : AuthEvent) ∈ trace) :
    MeetsCall hashSecret (.refreshSession presented) trace (refreshLive hashSecret ttl token) := by
  refine ⟨trivial, fun now => ?_⟩
  dsimp only
  split
  · trivial
  · refine ⟨trivial, fun found => ?_⟩
    cases found with
    | none => trivial
    | some session =>
      dsimp only
      split
      · trivial
      · rename_i active
        refine meets_rotate (by simp [read]) (by simp) ?_
        exact Option.not_isSome_iff_eq_none.mp fun revoked => active (.inl revoked)

private theorem meets_refreshSession (presented : String) :
    MeetsCall hashSecret (.refreshSession presented) [] (refreshSession hashSecret ttl presented) := by
  refine ⟨trivial, fun found => ?_⟩
  cases found with
  | none => trivial
  | some token =>
    dsimp only
    split
    · exact ⟨trivial, fun _ => ⟨trivial, fun _ => ⟨trivial, fun _ => trivial⟩⟩⟩
    · exact meets_refreshLive (by simp)

/-- What the calls do, seen from their own traces. -/
def sessionContract (hashSecret : String → String) (ttl : Lifetimes) :
    Contract (sessionProgram hashSecret ttl) where
  guard _ := sessionGuard
  post call trace _ := sessionPost hashSecret call trace
  meets call := by
    cases call with
    | issueSession =>
      exact ⟨trivial, fun _ => ⟨trivial, fun _ => ⟨trivial, fun _ => ⟨trivial, fun _ => ⟨trivial, fun _ =>
        ⟨trivial, fun _ => ⟨trivial, fun _ => ⟨trivial, fun _ => trivial⟩⟩⟩⟩⟩⟩⟩⟩
    | refreshSession presented => exact meets_refreshSession presented
    | logout => exact ⟨trivial, fun _ => ⟨trivial, fun _ => ⟨trivial, fun _ => trivial⟩⟩⟩

section Tables
variable {σ σ' : Store} {T : ClientId → List AuthEvent}

/-- A token that was read is there still. -/
def TokensRead (σ : Store) (T : ClientId → List AuthEvent) : Prop :=
  ∀ t h token, (⟨.getByHash h, some token⟩ : AuthEvent) ∈ T t →
    ∃ row ∈ σ.refreshTokens, row.id = token.id ∧ row.sessionId = token.sessionId ∧ toBytes h = some row.tokenHash

/-- A token that was marked has a successor. -/
def TokensMarked (σ : Store) (T : ClientId → List AuthEvent) : Prop :=
  ∀ t id n, (⟨.markRotated id n, ()⟩ : AuthEvent) ∈ T t →
    ∃ row ∈ σ.refreshTokens, row.id = id ∧ row.rotatedTo ≠ none

theorem TokensRead.perform {w : World} {t : ClientId} {o : Op} {r : o.Answer} (h : TokensRead σ T)
    (done : perform w σ o = .ok (r, σ')) : TokensRead σ' (Function.update T t (T t ++ [⟨o, r⟩])) := by
  intro u hash token read
  rcases mem_grown read with old | ⟨-, new⟩
  · obtain ⟨row, there, id, session, bytes⟩ := h u hash token old
    obtain ⟨row', there', id', session', hash', -⟩ := (perform_evolves done).token row there
    exact ⟨row', there', id'.trans id, session'.trans session, hash' ▸ bytes⟩
  · cases new
    obtain ⟨rfl, bytes, hbytes, found⟩ := perform_getByHash done
    obtain ⟨row, hrow, rfl⟩ := Option.map_eq_some_iff.mp found.symm
    obtain ⟨there, same⟩ := σ'.getByHash_eq hrow
    exact ⟨row, there, rfl, rfl, by rw [hbytes, same]⟩

theorem TokensMarked.perform {w : World} {t : ClientId} {o : Op} {r : o.Answer} (read : TokensRead σ T)
    (h : TokensMarked σ T) (guard : sessionGuard (T t) o) (done : perform w σ o = .ok (r, σ')) :
    TokensMarked σ' (Function.update T t (T t ++ [⟨o, r⟩])) := by
  intro u id n marked
  rcases mem_grown marked with old | ⟨-, new⟩
  · obtain ⟨row, there, hid, rotated⟩ := h u id n old
    obtain ⟨row', there', id', -, -, rotated'⟩ := (perform_evolves done).token row there
    exact ⟨row', there', id'.trans hid, rotated' rotated⟩
  · cases new
    obtain ⟨hash, token, looked, rfl⟩ := guard
    obtain ⟨row, there, hid, -⟩ := read t hash token looked
    cases done
    refine ⟨row.rotate token.id n, List.mem_map_of_mem there, (row.rotate_id token.id n).trans hid, ?_⟩
    rw [← hid, row.rotate_self]
    exact Option.some_ne_none n

/-- Rows of one hash are one row. -/
theorem Store.row_unique {row row' : TokenRow} (h : row ∈ σ.refreshTokens) (h' : row' ∈ σ.refreshTokens)
    (same : row.tokenHash = row'.tokenHash) : row = row' :=
  List.inj_on_of_nodup_map σ.refresh_token_hash_key h h' same

end Tables

/-- The token the step marks. -/
def marking (s : SessionSystem) : Action ports SessionCall → Option Uuid
  | .step t _ =>
    match s.clients t with
    | .running _ _ (.perform (.markRotated id _) _) => some id
    | _ => none
  | _ => none

/-- The UPDATE of `mark_rotated` finds no successor. -/
def MarksUnrotated (s : SessionSystem) (a : Action ports SessionCall) : Prop :=
  ∀ id ∈ marking s a, ∀ row ∈ s.shared.refreshTokens, row.id = id → row.rotatedTo = none

instance (s : SessionSystem) (a : Action ports SessionCall) : Decidable (MarksUnrotated s a) :=
  decidable_of_iff ((marking s a).all fun id => s.shared.refreshTokens.all fun row => row.id = id → row.rotatedTo = none)
    (by simp [MarksUnrotated, Option.all_eq_true, imp_iff_not_or])

/-- What holds of every run whose marks find no successor. -/
structure Redemptions (s : SessionSystem) : Prop where
  read : TokensRead s.shared s.traces
  marked : TokensMarked s.shared s.traces
  once : ∀ t u id n m, (⟨.markRotated id n, ()⟩ : AuthEvent) ∈ s.traces t →
    (⟨.markRotated id m, ()⟩ : AuthEvent) ∈ s.traces u → t = u

private theorem redemptions_start (σ : Store) : Redemptions (.start σ) :=
  ⟨nofun, nofun, nofun⟩

private theorem redemptions_step {s s' : SessionSystem} {a : Action ports SessionCall}
    (holds : (sessionContract hashSecret ttl).Holds s) (unrotated : MarksUnrotated s a)
    (hs : s.step (sessionProgram hashSecret ttl) a = some s') (h : Redemptions s) : Redemptions s' := by
  cases System.step_performs hs with
  | silent shared traces =>
    constructor
    · rw [shared, traces]
      exact h.read
    · rw [shared, traces]
      exact h.marked
    · rw [traces]
      exact h.once
  | @answer t w call trace o next r running done traces =>
    have own := holds t
    rw [running] at own
    have mine : s.traces t = trace := by simp only [System.traces, running, Client.trace]
    have guard : sessionGuard (s.traces t) o := mine ▸ own.2.1
    -- a token another call has marked has a successor, so this one does not mark it
    have alone (u : ClientId) (id n m : Uuid) (old : (⟨.markRotated id n, ()⟩ : AuthEvent) ∈ s.traces u) :
        (⟨o, r⟩ : AuthEvent) ≠ ⟨.markRotated id m, ()⟩ := by
      intro new
      cases new
      have here : marking s (.step t w) = some id := by simp only [marking, running]
      obtain ⟨row, there, hid, rotated⟩ := h.marked u id n old
      exact rotated (unrotated id here row there hid)
    constructor
    · rw [traces]
      exact h.read.perform done
    · rw [traces]
      exact h.marked.perform h.read guard done
    · intro u v id n m first second
      rw [traces] at first second
      rcases mem_grown first with old | ⟨rfl, new⟩
      · rcases mem_grown second with old' | ⟨rfl, new'⟩
        · exact h.once u v id n m old old'
        · exact absurd new'.symm (alone u id n m old)
      · rcases mem_grown second with old' | ⟨rfl, -⟩
        · exact absurd new.symm (alone v id m n old')
        · rfl

/-- The call has redeemed the token in the row. -/
def Redeems (hashSecret : String → String) (s : SessionSystem) (row : TokenRow) (t : ClientId) : Prop :=
  ∃ presented trace tokens, Presents hashSecret presented row ∧
    s.clients t = .finished (.refreshSession presented) trace (.ok tokens)

/-- A call that has redeemed a token has marked it. -/
private theorem Redemptions.marks {s : SessionSystem} (h : Redemptions s)
    (holds : (sessionContract hashSecret ttl).Holds s) {row : TokenRow} (there : row ∈ s.shared.refreshTokens)
    {t : ClientId} (redeems : Redeems hashSecret s row t) :
    ∃ n, (⟨.markRotated row.id n, ()⟩ : AuthEvent) ∈ s.traces t := by
  obtain ⟨presented, trace, tokens, hp, done⟩ := redeems
  have mine : s.traces t = trace := by simp only [System.traces, done, Client.trace]
  obtain ⟨token, session, n, read, -, -, marked⟩ := holds.returned done
  obtain ⟨row', there', id, -, bytes⟩ := h.read t _ token (mine ▸ read)
  have same : row' = row := s.shared.row_unique there' there (Option.some.inj (bytes.symm.trans hp))
  rw [mine, ← same, id]
  exact ⟨n, marked⟩

/-- In every interleaving in which `mark_rotated` never finds a successor, each refresh token is redeemed
by one call at most. -/
theorem redeemed_at_most_once (hashSecret : String → String) (ttl : Lifetimes) (σ : Store)
    (schedule : List (Action ports SessionCall)) (s : SessionSystem)
    (unrotated : (System.start σ).Along (sessionProgram hashSecret ttl) MarksUnrotated schedule)
    (hs : (System.start σ).run (sessionProgram hashSecret ttl) schedule = some s) :
    ∀ row ∈ s.shared.refreshTokens, ∀ t u, Redeems hashSecret s row t → Redeems hashSecret s row u → t = u := by
  obtain ⟨holds, h⟩ := (sessionContract hashSecret ttl).along_rule MarksUnrotated Redemptions redemptions_step
    ((sessionContract hashSecret ttl).start_holds σ) (redemptions_start σ) unrotated hs
  intro row there t u first second
  obtain ⟨n, marked⟩ := h.marks holds there first
  obtain ⟨m, marked'⟩ := h.marks holds there second
  exact h.once t u row.id n m marked marked'

end

section Race

/-- A hash without collisions: the characters' codes. -/
def codes (secret : String) : String := toHex (secret.toList.map fun c => UInt8.ofNat c.toNat)

def day : Lifetimes := ⟨600, 86400, 86400⟩

/-- A session with one token, of the secret `a`. -/
def loggedIn : Store :=
  { emptyStore with
    sessions := [⟨1, 7, 9, 0, 86400, none⟩]
    refreshTokens := [⟨1, 1, 9, [97], 86400, none, none⟩]
    session_pkey := List.nodup_singleton _
    refresh_token_pkey := List.nodup_singleton _
    refresh_token_hash_key := List.nodup_singleton _
    refresh_token_session_fkey := by simp }

/-- A second in which `secret` is drawn for the token `id`. -/
def drawing (id : Uuid) (secret : String) : World where
  now := 1
  uuid4 := id
  generateToken := secret
  accessToken := .ok "jwt"
  exchangeCode := .error (.port "unreachable")
  verifyIdToken := .error (.port "unreachable")

/-- `n` operations of one call. -/
def operations (t : ClientId) (n : Nat) (w : World) : List (Action ports SessionCall) := List.replicate n (.step t w)

/-- Both calls read the token before either marks it. -/
def race : List (Action ports SessionCall) :=
  .begin 0 (.refreshSession "a") :: .begin 1 (.refreshSession "a") ::
    operations 0 1 (drawing 2 "b") ++ operations 1 1 (drawing 3 "c") ++
    operations 0 9 (drawing 2 "b") ++ operations 1 9 (drawing 3 "c")

/-- One call after the other: the second is told of the reuse. -/
def replay : List (Action ports SessionCall) :=
  .begin 0 (.refreshSession "a") :: operations 0 10 (drawing 2 "b") ++
    .begin 1 (.refreshSession "a") :: operations 1 5 (drawing 3 "c")

/-- The call that succeeded. -/
def succeeded : Client ports SessionCall (Option IssuedTokens) → Option SessionCall
  | .finished call _ (.ok _) => some call
  | _ => none

theorem exists_of_succeeded {client : Client ports SessionCall (Option IssuedTokens)} {call : SessionCall}
    (h : succeeded client = some call) : ∃ trace tokens, client = .finished call trace (.ok tokens) := by
  unfold succeeded at h
  split at h
  · cases h
    exact ⟨_, _, rfl⟩
  · cases h

/-- Two calls that present one token, and read it before either marks it, both redeem it. -/
theorem token_redeemed_twice : ¬ ∀ (hashSecret : String → String) (ttl : Lifetimes) (σ : Store)
    (schedule : List (Action ports SessionCall)) (s : SessionSystem),
    (System.start σ).run (sessionProgram hashSecret ttl) schedule = some s →
    ∀ row ∈ s.shared.refreshTokens, ∀ t u, Redeems hashSecret s row t → Redeems hashSecret s row u → t = u := by
  intro claim
  have ends : ((System.start loggedIn).run (sessionProgram codes day) race).map (fun s =>
      (succeeded (s.clients 0), succeeded (s.clients 1), s.shared.refreshTokens.head?)) =
      some (some (.refreshSession "a"), some (.refreshSession "a"), some ⟨1, 1, 9, [97], 86400, some 3, none⟩) := by
    decide +kernel
  obtain ⟨s, hs, found⟩ := Option.map_eq_some_iff.mp ends
  obtain ⟨first, second, token⟩ := Prod.mk.inj found |>.imp_right Prod.mk.inj
  obtain ⟨trace, tokens, first⟩ := exists_of_succeeded first
  obtain ⟨trace', tokens', second⟩ := exists_of_succeeded second
  have presents : toBytes (codes "a") = some [97] := by decide +kernel
  have same : (0 : ClientId) = 1 := claim codes day loggedIn race s hs _ (List.mem_of_mem_head? token) 0 1
    ⟨"a", trace, tokens, presents, first⟩ ⟨"a", trace', tokens', presents, second⟩
  exact absurd same (by decide)

theorem redeemed_at_most_once_replay :
    ∃ s, (System.start loggedIn).run (sessionProgram codes day) replay = some s ∧
      ∀ row ∈ s.shared.refreshTokens, ∀ t u, Redeems codes s row t → Redeems codes s row u → t = u := by
  have runs : Option.isSome ((System.start loggedIn).run (sessionProgram codes day) replay) = true := by
    decide +kernel
  have unrotated : (System.start loggedIn).alongCheck (sessionProgram codes day) MarksUnrotated replay = true := by
    decide +kernel
  obtain ⟨s, hs⟩ := Option.isSome_iff_exists.mp runs
  exact ⟨s, hs, redeemed_at_most_once codes day loggedIn replay s ((System.alongCheck_iff _ _ _ _).mp unrotated) hs⟩

end Race
end LlmGateway.Auth
