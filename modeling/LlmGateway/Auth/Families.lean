import Mathlib
import LlmGateway.Auth.Redemption

/-! Refresh-token families: calls served one after the other keep each session's tokens in a line, and a
revoked session stays revoked however calls interleave. -/
namespace LlmGateway.Auth
open Ledger Lib.Interleaved

/-- A session's tokens, in the order they were issued. -/
def Store.ofSession (σ : Store) (sessionId : Uuid) : List TokenRow :=
  σ.refreshTokens.filter (·.sessionId = sessionId)

/-- Of a session's tokens only the last has no successor, and perhaps the one about to be marked. -/
def Linear (σ : Store) (marking : Option Uuid) : Prop :=
  ∀ row ∈ σ.refreshTokens, row.rotatedTo = none → some row.id ≠ marking →
    (σ.ofSession row.sessionId).getLast? = some row

def Revoked (σ : Store) (sessionId : Uuid) : Prop := ∃ row ∈ σ.sessions, row.id = sessionId ∧ row.revokedAt ≠ none

section Statements
variable {σ σ' : Store}

theorem Store.ofSession_mapTokens {f : TokenRow → TokenRow} (id : ∀ row, (f row).id = row.id)
    (tokenHash : ∀ row, (f row).tokenHash = row.tokenHash) (sessionId : ∀ row, (f row).sessionId = row.sessionId)
    (s : Uuid) : (σ.mapTokens f id tokenHash sessionId).ofSession s = (σ.ofSession s).map f := by
  rw [ofSession, mapTokens, List.filter_map, ofSession]
  congr 1
  apply List.filter_congr
  intro row _
  rw [Function.comp_apply, sessionId]

theorem Store.ofSession_addRefreshToken {row : TokenRow} (h : σ.addRefreshToken row = some σ') (s : Uuid) :
    σ'.ofSession s = σ.ofSession s ++ if row.sessionId = s then [row] else [] := by
  obtain ⟨tokens, -⟩ := addRefreshToken_eq h
  rw [ofSession, tokens, List.filter_append, List.filter_cons, List.filter_nil, ofSession]
  simp only [decide_eq_true_eq]

/-- An update of a token that has its successor, or had it before. -/
theorem Linear.mapTokens {m m' : Option Uuid} (h : Linear σ m) {f : TokenRow → TokenRow}
    (id : ∀ row, (f row).id = row.id) (tokenHash : ∀ row, (f row).tokenHash = row.tokenHash)
    (sessionId : ∀ row, (f row).sessionId = row.sessionId)
    (successor : ∀ row, (f row).rotatedTo = none → some row.id ≠ m' → row.rotatedTo = none ∧ some row.id ≠ m) :
    Linear (σ.mapTokens f id tokenHash sessionId) m' := by
  intro _ mapped unrotated unmarked
  obtain ⟨row, there, rfl⟩ := List.mem_map.mp mapped
  rw [id] at unmarked
  obtain ⟨before, unmarked⟩ := successor row unrotated unmarked
  rw [Store.ofSession_mapTokens, sessionId, List.getLast?_map, h row there before unmarked, Option.map_some]

theorem Linear.revokeSessionTokens {m : Option Uuid} (h : Linear σ m) (id : Uuid) (now : Timestamp) :
    Linear (σ.revokeSessionTokens id now) m :=
  h.mapTokens _ _ _ fun row unrotated unmarked => ⟨(row.revoke_rotatedTo now id).symm.trans unrotated, unmarked⟩

theorem Linear.revokeSession {m : Option Uuid} (h : Linear σ m) (id : Uuid) (now : Timestamp) :
    Linear (σ.revokeSession id now) m := h

theorem Linear.addSession {m : Option Uuid} (h : Linear σ m) {record : SessionRecord}
    (added : σ.addSession record = some σ') : Linear σ' m := by
  obtain ⟨-, tokens, -⟩ := Store.addSession_eq added
  intro row there
  rw [tokens] at there
  rw [Store.ofSession, tokens]
  exact h row there

/-- A new token goes to the end of its session's, where one at most was without a successor. -/
theorem Linear.addRefreshToken {m : Option Uuid} (h : Linear σ none) {new : TokenRow}
    (added : σ.addRefreshToken new = some σ')
    (before : ∀ row ∈ σ.refreshTokens, row.sessionId = new.sessionId → row.rotatedTo = none → some row.id = m) :
    Linear σ' m := by
  obtain ⟨tokens, -⟩ := Store.addRefreshToken_eq added
  intro row there unrotated unmarked
  rw [Store.ofSession_addRefreshToken added]
  rw [tokens, List.mem_append, List.mem_singleton] at there
  rcases there with old | rfl
  · have other : ¬ new.sessionId = row.sessionId := fun same => unmarked (before row old same.symm unrotated)
    rw [if_neg other, List.append_nil]
    exact h row old unrotated nofun
  · rw [if_pos rfl, List.getLast?_concat]

theorem Linear.markRotated {id : Uuid} (h : Linear σ (some id)) (rotatedTo : Uuid) :
    Linear (σ.markRotated id rotatedTo) none := by
  refine h.mapTokens _ _ _ fun row unrotated _ => ?_
  have other : row.id ≠ id := by
    rintro rfl
    rw [row.rotate_self] at unrotated
    exact Option.some_ne_none _ unrotated
  exact ⟨by_contra fun rotated => row.rotate_rotated id rotatedTo rotated unrotated, fun same => other (Option.some.inj same)⟩

/-- A session is the one its id finds. -/
theorem Revoked.getSession {id : Uuid} {session : SessionRecord} (h : Revoked σ id)
    (found : σ.getSession id = some session) : session.revokedAt ≠ none := by
  obtain ⟨row, there, hid, revoked⟩ := h
  obtain ⟨there', key⟩ := σ.getSession_eq found
  have same : session = row := List.inj_on_of_nodup_map σ.session_pkey there' there (key.trans hid.symm)
  exact same ▸ revoked

theorem Revoked.evolves {id : Uuid} (h : Revoked σ id) (e : Evolves σ σ') : Revoked σ' id := by
  obtain ⟨row, there, hid, revoked⟩ := h
  obtain ⟨row', there', hid', revoked'⟩ := e.session row there
  exact ⟨row', there', hid'.trans hid, revoked' revoked⟩

theorem revoked_revokeSession {id : Uuid} (h : id ∈ σ.sessions.map (·.id)) (now : Timestamp) :
    Revoked (σ.revokeSession id now) id := by
  obtain ⟨row, there, rfl⟩ := List.mem_map.mp h
  refine ⟨row.revoke now row.id, List.mem_map_of_mem there, row.revoke_id now row.id, ?_⟩
  rw [row.revoke_self]
  exact Option.some_ne_none now

end Statements

section Alone
variable (hashSecret : String → String) (ttl : Lifetimes)

/-- A call, with what its operations draw one after the other. -/
structure Served where
  call : SessionCall
  world : ℕ → World

/-- A call served with nothing in between. -/
def serve (σ : Store) (served : Served) : Store × Except Raised (Option IssuedTokens) :=
  (sessionProgram hashSecret ttl served.call).alone served.world σ

/-- The tables after a history of calls. -/
def after (σ : Store) (history : List Served) : Store :=
  history.foldl (fun σ served => (serve hashSecret ttl σ served).1) σ

/-- What a call of `RefreshSession` does: it refuses, it detects a reuse, or it rotates a live token. -/
inductive Refreshes (hashSecret : String → String) (σ : Store) (presented : String) :
    Store × Except Raised (Option IssuedTokens) → Prop where
  | refused {e} : (∀ row ∈ σ.refreshTokens, Presents hashSecret presented row → row.rotatedTo = none) →
      Refreshes hashSecret σ presented (σ, .error e)
  | reused {row now now'} : row ∈ σ.refreshTokens → Presents hashSecret presented row →
      Refreshes hashSecret σ presented ((σ.revokeSessionTokens row.sessionId now).revokeSession row.sessionId now',
        .error (.refreshReuse "refresh token reuse detected"))
  | rotated {row session new σ' result} : row ∈ σ.refreshTokens → Presents hashSecret presented row →
      row.rotatedTo = none → σ.getSession row.sessionId = some session → session.revokedAt = none →
      new.sessionId = row.sessionId → σ.addRefreshToken new = some σ' →
      Refreshes hashSecret σ presented (σ'.markRotated row.id new.id, result)


end Alone

section Serve
variable {hashSecret : String → String} {ttl : Lifetimes} {σ : Store}

/-- The tables are written before the tokens are handed out. -/
private theorem issueTokens_alone (action : String) (userId organizationId : Uuid) (secret : String) (w : ℕ → World)
    (Q : Store × Except Raised (Option IssuedTokens) → Prop) (h : ∀ result, Q (σ, result)) :
    Q ((issueTokens ttl action userId organizationId secret).alone w σ) := by
  refine Program.alone_perform (P := ports) Q (fun e _ => h (.error e)) fun _ σ' answered => ?_
  rw [outside_same answered]
  exact h _

/-- A live token and an active session. -/
private theorem rotate_alone {presented : String} {row : TokenRow} {session : SessionRecord}
    (there : row ∈ σ.refreshTokens) (presents : Presents hashSecret presented row) (unrotated : row.rotatedTo = none)
    (found : σ.getSession row.sessionId = some session) (active : session.revokedAt = none)
    (refused : ∀ e, Refreshes hashSecret σ presented (σ, .error e)) (now : Timestamp) (w : ℕ → World) :
    Refreshes hashSecret σ presented
      ((rotate hashSecret ttl (row.withHash (toHex row.tokenHash)) session now).alone w σ) := by
  refine Program.alone_perform _ (fun e _ => refused e) fun secret _ drawn => ?_
  cases drawn
  refine Program.alone_perform _ (fun e _ => refused e) fun newId _ drawn => ?_
  cases drawn
  refine Program.alone_perform _ (fun e _ => refused e) fun _ σ' stored => ?_
  obtain ⟨hash, -, added⟩ := perform_addRefreshToken (w := w 2) stored
  refine Program.alone_perform _ nofun fun _ _ marked => ?_
  cases marked
  apply issueTokens_alone
  intro result
  refine .rotated there presents unrotated found active ?_ added
  rfl

private theorem reuseDetected_alone {presented : String} {row : TokenRow} (there : row ∈ σ.refreshTokens)
    (presents : Presents hashSecret presented row) (w : ℕ → World) :
    Refreshes hashSecret σ presented ((reuseDetected (row.withHash (toHex row.tokenHash))).alone w σ) := by
  refine Program.alone_perform _ nofun fun _ _ revoked => ?_
  cases revoked
  refine Program.alone_perform _ nofun fun _ _ revoked => ?_
  cases revoked
  exact .reused there presents

theorem serve_refreshSession (presented : String) (w : ℕ → World) :
    Refreshes hashSecret σ presented ((refreshSession hashSecret ttl presented).alone w σ) := by
  refine Program.alone_perform _ (fun e failed => ?_) fun found σ' looked => ?_
  · -- what is not hexadecimal is no token's hash
    refine .refused fun row _ presents => ?_
    simp only [perform, show toBytes (hashSecret presented) = some row.tokenHash from presents] at failed
    cases failed
  obtain ⟨kept, hash, bytes, rfl⟩ := perform_getByHash (w := w 0) looked
  rw [kept]
  have only {row row' : TokenRow} (there : row ∈ σ.refreshTokens) (presents : Presents hashSecret presented row)
      (there' : row' ∈ σ.refreshTokens) (presents' : Presents hashSecret presented row') : row = row' :=
    σ.row_unique there there' (Option.some.inj (presents.symm.trans presents'))
  cases hrow : σ.getByHash hash with
  | none =>
    refine .refused fun row there presents => ?_
    have same : row.tokenHash = hash := Option.some.inj (presents.symm.trans bytes)
    have here := List.find?_eq_none.mp hrow row there
    exact absurd (decide_eq_true same) here
  | some row =>
    obtain ⟨there, same⟩ := σ.getByHash_eq hrow
    have presents : Presents hashSecret presented row := bytes.trans (congrArg some same.symm)
    rw [Option.map_some]
    dsimp only
    split
    · exact reuseDetected_alone there presents _
    · rename_i live
      have unrotated : row.rotatedTo = none := Option.not_isSome_iff_eq_none.mp fun rotated => live (.inl rotated)
      have refused (e : Raised) : Refreshes hashSecret σ presented (σ, .error e) :=
        .refused fun row' there' presents' => only there presents there' presents' ▸ unrotated
      refine Program.alone_perform _ (fun _ failed => by cases failed) fun now _ read => ?_
      cases read
      dsimp only
      split
      · exact refused _
      · refine Program.alone_perform _ (fun _ failed => by cases failed) fun session _ read => ?_
        cases read
        cases hs : σ.getSession (row.withHash (toHex row.tokenHash)).sessionId with
        | none => exact refused _
        | some session =>
          dsimp only
          split
          · exact refused _
          · rename_i active
            refine rotate_alone there presents unrotated hs ?_ refused _ _
            exact Option.not_isSome_iff_eq_none.mp fun revoked => active (.inl revoked)

private theorem linear_refreshes {presented : String} {end_ : Store × Except Raised (Option IssuedTokens)}
    (h : Linear σ none) (refreshes : Refreshes hashSecret σ presented end_) : Linear end_.1 none := by
  cases refreshes with
  | refused => exact h
  | reused => exact (h.revokeSessionTokens _ _).revokeSession _ _
  | @rotated row _ new _ _ there _ unrotated _ _ same added =>
    refine (h.addRefreshToken added fun row' there' session unrotated' => ?_).markRotated _
    have last := h row there unrotated nofun
    have last' := h row' there' unrotated' nofun
    rw [session, same, last] at last'
    rw [Option.some.inj last']

/-- The first token of a new session. -/
private theorem linear_issueSession (h : Linear σ none) (userId organizationId : Uuid) (w : ℕ → World) :
    Linear ((issueSession hashSecret ttl userId organizationId).alone w σ).1 none := by
  let Q : Store × Except Raised (Option IssuedTokens) → Prop := fun end_ => Linear end_.1 none
  refine Program.alone_perform (P := ports) Q (fun _ _ => h) fun now _ read => ?_
  cases read
  refine Program.alone_perform (P := ports) Q (fun _ _ => h) fun id _ drawn => ?_
  cases drawn
  refine Program.alone_perform (P := ports) Q (fun _ _ => h) fun _ σ₁ opened => ?_
  have added := ofConstraint_ok opened
  have linear := h.addSession added
  refine Program.alone_perform (P := ports) Q (fun _ _ => linear) fun secret _ drawn => ?_
  cases drawn
  refine Program.alone_perform (P := ports) Q (fun _ _ => linear) fun tokenId _ drawn => ?_
  cases drawn
  refine Program.alone_perform (P := ports) Q (fun _ _ => linear) fun _ σ₂ stored => ?_
  obtain ⟨hash, -, stored⟩ := perform_addRefreshToken (w := w 5) stored
  apply issueTokens_alone
  intro _
  refine linear.addRefreshToken stored fun row there session _ => absurd ?_ (Store.addSession_fresh added)
  -- a token's session was there before
  obtain ⟨-, tokens, -⟩ := Store.addSession_eq added
  rw [tokens] at there
  have known := σ.refresh_token_session_fkey row there
  rw [session] at known
  exact known

private theorem linear_logout (h : Linear σ none) (sessionId : Uuid) (w : ℕ → World) :
    Linear ((logout sessionId).alone w σ).1 none :=
  (h.revokeSession sessionId _).revokeSessionTokens sessionId _

theorem linear_serve (h : Linear σ none) (served : Served) : Linear (serve hashSecret ttl σ served).1 none := by
  obtain ⟨call, w⟩ := served
  cases call with
  | issueSession userId organizationId => exact linear_issueSession h userId organizationId w
  | refreshSession presented => exact linear_refreshes h (serve_refreshSession presented w)
  | logout sessionId => exact linear_logout h sessionId w

theorem linear_after (h : Linear σ none) (history : List Served) : Linear (after hashSecret ttl σ history) none := by
  induction history generalizing σ with
  | nil => exact h
  | cons served history ih => exact ih (linear_serve h served)

theorem revoked_after {sessionId : Uuid} (h : Revoked σ sessionId) (history : List Served) :
    Revoked (after hashSecret ttl σ history) sessionId := by
  induction history generalizing σ with
  | nil => exact h
  | cons served history ih =>
    refine ih (Program.alone_rule (P := ports) (fun σ => Revoked σ sessionId) ?_ _ served.world h)
    exact fun done revoked => revoked.evolves (perform_evolves done)

/-- Only a session's last token is accepted. -/
private theorem accepted_last (h : Linear σ none) {presented : String} {w : ℕ → World} {tokens : Option IssuedTokens}
    (accepted : (serve hashSecret ttl σ ⟨.refreshSession presented, w⟩).2 = .ok tokens) :
    ∃ row ∈ σ.refreshTokens, Presents hashSecret presented row ∧ row.rotatedTo = none ∧
      (∃ session, σ.getSession row.sessionId = some session ∧ session.revokedAt = none) ∧
      (σ.ofSession row.sessionId).getLast? = some row := by
  generalize hend : serve hashSecret ttl σ ⟨.refreshSession presented, w⟩ = end_ at accepted
  have refreshes : Refreshes hashSecret σ presented end_ := hend ▸ serve_refreshSession presented w
  cases refreshes with
  | refused => cases accepted
  | reused => cases accepted
  | @rotated row session _ _ _ there presents unrotated found active =>
    exact ⟨row, there, presents, unrotated, ⟨session, found, active⟩, h row there unrotated nofun⟩

/-- An earlier token is taken for a stolen copy. -/
private theorem earlier_reused (h : Linear σ none) {row : TokenRow} (there : row ∈ σ.refreshTokens)
    (earlier : (σ.ofSession row.sessionId).getLast? ≠ some row) {presented : String}
    (presents : Presents hashSecret presented row) (w : ℕ → World) :
    (serve hashSecret ttl σ ⟨.refreshSession presented, w⟩).2 =
        .error (.refreshReuse "refresh token reuse detected") ∧
      Revoked (serve hashSecret ttl σ ⟨.refreshSession presented, w⟩).1 row.sessionId := by
  generalize hend : serve hashSecret ttl σ ⟨.refreshSession presented, w⟩ = end_
  have rotated : row.rotatedTo ≠ none := fun unrotated => earlier (h row there unrotated nofun)
  have only {row' : TokenRow} (there' : row' ∈ σ.refreshTokens) (presents' : Presents hashSecret presented row') :
      row' = row :=
    σ.row_unique there' there (Option.some.inj (presents'.symm.trans presents))
  have refreshes : Refreshes hashSecret σ presented end_ := hend ▸ serve_refreshSession presented w
  cases refreshes with
  | refused unrotated => exact absurd (unrotated row there presents) rotated
  | @reused row' now now' there' presents' =>
    obtain rfl := only there' presents'
    exact ⟨rfl, revoked_revokeSession (σ := σ.revokeSessionTokens row'.sessionId now)
      (σ.refresh_token_session_fkey row' there) now'⟩
  | rotated there' presents' unrotated => exact absurd (only there' presents' ▸ unrotated) rotated

private theorem revoked_refused {sessionId : Uuid} (h : Linear σ none) (revoked : Revoked σ sessionId) {row : TokenRow}
    (there : row ∈ σ.refreshTokens) (session : row.sessionId = sessionId) {presented : String}
    (presents : Presents hashSecret presented row) (w : ℕ → World) (tokens : Option IssuedTokens) :
    (serve hashSecret ttl σ ⟨.refreshSession presented, w⟩).2 ≠ .ok tokens := by
  intro accepted
  obtain ⟨row', there', presents', -, ⟨session', found, active⟩, -⟩ := accepted_last h accepted
  have same : row' = row := σ.row_unique there' there (Option.some.inj (presents'.symm.trans presents))
  rw [same, session] at found
  exact revoked.getSession found active

private theorem logout_revokes {sessionId : Uuid} (h : sessionId ∈ σ.sessions.map (·.id)) (w : ℕ → World) :
    Revoked (serve hashSecret ttl σ ⟨.logout sessionId, w⟩).1 sessionId :=
  (revoked_revokeSession h (w 0).now).evolves (Store.evolves_revokeSessionTokens sessionId (w 1).now)

end Serve

section Interleaved
variable {hashSecret : String → String} {ttl : Lifetimes}

/-- From a state in which the session is revoked, the calls that were idle then read it revoked. -/
structure RevokedSince (sessionId : Uuid) (idle : ClientId → Prop) (σ : Store) (T : ClientId → List AuthEvent) :
    Prop where
  revoked : Revoked σ sessionId
  read : TokensRead σ T
  seen : ∀ t, idle t → ∀ session, (⟨.getSession sessionId, some session⟩ : AuthEvent) ∈ T t →
    session.revokedAt ≠ none

theorem RevokedSince.perform {sessionId : Uuid} {idle : ClientId → Prop} {σ σ' : Store}
    {T : ClientId → List AuthEvent} {w : World} {t : ClientId} {o : Op} {r : o.Answer}
    (h : RevokedSince sessionId idle σ T) (done : perform w σ o = .ok (r, σ')) :
    RevokedSince sessionId idle σ' (Function.update T t (T t ++ [⟨o, r⟩])) where
  revoked := h.revoked.evolves (perform_evolves done)
  read := h.read.perform done
  seen u hu session seen := by
    rcases mem_grown seen with old | ⟨-, new⟩
    · exact h.seen u hu session old
    · cases new
      obtain ⟨found, -⟩ := Prod.mk.inj (Except.ok.inj done)
      exact h.revoked.getSession found

/-- A call that begins after a session is revoked redeems no token of it. -/
private theorem revoked_final {σ : Store} {before later : List (Action ports SessionCall)} {s s' : SessionSystem}
    {sessionId : Uuid} (hs : (System.start σ).run (sessionProgram hashSecret ttl) before = some s)
    (revoked : Revoked s.shared sessionId) (hs' : s.run (sessionProgram hashSecret ttl) later = some s')
    {row : TokenRow} (there : row ∈ s'.shared.refreshTokens) (session : row.sessionId = sessionId) {t : ClientId}
    (idle : s.clients t = .idle) : ¬ Redeems hashSecret s' row t := by
  let c := sessionContract hashSecret ttl
  obtain ⟨holds, read⟩ := c.run_rule TokensRead (fun h _ done => h.perform done) (c.start_holds σ) nofun hs
  have start : RevokedSince sessionId (fun t => s.clients t = .idle) s.shared s.traces := by
    refine ⟨revoked, read, fun t idle session seen => ?_⟩
    have empty : s.traces t = [] := by simp only [System.traces, idle, Client.trace]
    rw [empty] at seen
    cases seen
  obtain ⟨holds', h⟩ := c.run_rule (RevokedSince sessionId fun t => s.clients t = .idle)
    (fun h _ done => h.perform done) holds start hs'
  rintro ⟨presented, trace, tokens, presents, done⟩
  have mine : s'.traces t = trace := by simp only [System.traces, done, Client.trace]
  obtain ⟨token, active, newId, looked, seen, live, -⟩ := holds'.returned done
  obtain ⟨row', there', -, session', bytes⟩ := h.read t _ token (mine ▸ looked)
  have same : row' = row := s'.shared.row_unique there' there (Option.some.inj (bytes.symm.trans presents))
  rw [← session', same, session] at seen
  exact h.seen t idle active (mine ▸ seen) live

end Interleaved

/-- One after the other, a call of `RefreshSession` accepts of each session no token but the last issued, and an
earlier token is met with `RefreshReuseError` and the revocation of the session; `Logout` revokes it too. No call
that begins after a session is revoked succeeds with a token of it, however calls interleave. -/
theorem families_linear_revocation_final (hashSecret : String → String) (ttl : Lifetimes) :
    (∀ history, let σ := after hashSecret ttl emptyStore history
      (∀ presented w tokens, (serve hashSecret ttl σ ⟨.refreshSession presented, w⟩).2 = .ok tokens →
        ∃ row ∈ σ.refreshTokens, Presents hashSecret presented row ∧
          (σ.ofSession row.sessionId).getLast? = some row) ∧
      (∀ row ∈ σ.refreshTokens, (σ.ofSession row.sessionId).getLast? ≠ some row →
        ∀ presented w, Presents hashSecret presented row →
          (serve hashSecret ttl σ ⟨.refreshSession presented, w⟩).2 =
              .error (.refreshReuse "refresh token reuse detected") ∧
            Revoked (serve hashSecret ttl σ ⟨.refreshSession presented, w⟩).1 row.sessionId) ∧
      (∀ sessionId ∈ σ.sessions.map (·.id), ∀ w,
        Revoked (serve hashSecret ttl σ ⟨.logout sessionId, w⟩).1 sessionId) ∧
      ∀ sessionId, Revoked σ sessionId → ∀ later,
        ∀ row ∈ (after hashSecret ttl σ later).refreshTokens, row.sessionId = sessionId →
          ∀ presented w tokens, Presents hashSecret presented row →
            (serve hashSecret ttl (after hashSecret ttl σ later) ⟨.refreshSession presented, w⟩).2 ≠ .ok tokens) ∧
    ∀ σ before s sessionId later s', (System.start σ).run (sessionProgram hashSecret ttl) before = some s →
      Revoked s.shared sessionId → s.run (sessionProgram hashSecret ttl) later = some s' →
        ∀ row ∈ s'.shared.refreshTokens, row.sessionId = sessionId →
          ∀ t, s.clients t = .idle → ¬ Redeems hashSecret s' row t := by
  have line (history : List Served) : Linear (after hashSecret ttl emptyStore history) none :=
    linear_after (fun _ there => absurd there List.not_mem_nil) history
  refine ⟨?_, ?_⟩
  · intro history σ
    refine ⟨?_, ?_, ?_, ?_⟩
    · intro presented w tokens accepted
      obtain ⟨row, there, presents, -, -, last⟩ := accepted_last (line history) accepted
      exact ⟨row, there, presents, last⟩
    · intro row there earlier presented w presents
      exact earlier_reused (line history) there earlier presents w
    · intro sessionId known w
      exact logout_revokes known w
    · intro sessionId revoked later row there session presented w tokens presents
      exact revoked_refused (linear_after (line history) later) (revoked_after revoked later) there session presents w
        tokens
  · intro σ before s sessionId later s' hs revoked hs' row there session t idle
    exact revoked_final hs revoked hs' there session idle

/-- A login, and its token refreshed. -/
def refreshedOnce : List Served :=
  [⟨.issueSession 7 9, fun _ => drawing 1 "a"⟩, ⟨.refreshSession "a", fun _ => drawing 2 "b"⟩]

/-- The first token, presented again. -/
theorem families_linear_revocation_final_replay :
    let σ := after codes day emptyStore refreshedOnce
    (serve codes day σ ⟨.refreshSession "a", fun _ => drawing 3 "c"⟩).2 =
        .error (.refreshReuse "refresh token reuse detected") ∧
      Revoked (serve codes day σ ⟨.refreshSession "a", fun _ => drawing 3 "c"⟩).1 1 := by
  have tokens : (after codes day emptyStore refreshedOnce).refreshTokens =
      [⟨1, 1, 9, [97], 86401, some 2, none⟩, ⟨2, 1, 9, [98], 86401, none, none⟩] := by decide +kernel
  have presents : toBytes (codes "a") = some [97] := by decide +kernel
  refine ((families_linear_revocation_final codes day).1 refreshedOnce).2.1 ⟨1, 1, 9, [97], 86401, some 2, none⟩
    (tokens ▸ List.mem_cons_self) ?_ "a" (fun _ => drawing 3 "c") presents
  rw [Store.ofSession, tokens]
  decide

end LlmGateway.Auth
