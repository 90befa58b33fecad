import LlmGateway.Auth.OidcLogin
import LlmGateway.Auth.Redemption

/-! A login state mints one session at most, however the callbacks race and whatever the provider says. -/
namespace LlmGateway.Auth
open Ledger Lib.Interleaved

abbrev LoginSystem := System ports LoginCall IssuedTokens

/-- A state consumed alive for the caller's organization, and the identity its verified subject is linked to. -/
def Vouched (call : LoginCall) (trace : List AuthEvent) (now : Timestamp) (loginState : OidcLoginStateRecord String)
    (identity : OAuthIdentityRecord) : Prop :=
  (⟨.now, now⟩ : AuthEvent) ∈ trace ∧ (⟨.consume call.stateHash now, some loginState⟩ : AuthEvent) ∈ trace ∧
    loginState.organizationId = call.organizationId ∧
    ∃ idToken claims, (⟨.verifyIdToken idToken loginState.nonceHash, claims⟩ : AuthEvent) ∈ trace ∧
      (⟨.getBySubject loginState.provider claims.subject, some identity⟩ : AuthEvent) ∈ trace

/-- A call mints one session, for whom it has been vouched for, and tokens of that session. -/
def loginGuard (call : LoginCall) (trace : List AuthEvent) : Op → Prop
  | .addSession session => (∀ session', (⟨.addSession session', ()⟩ : AuthEvent) ∉ trace) ∧
      ∃ now loginState identity, Vouched call trace now loginState identity ∧
        session.organizationId = call.organizationId ∧ session.userId = identity.userId
  | .addRefreshToken token => ∃ session, (⟨.addSession session, ()⟩ : AuthEvent) ∈ trace ∧
      token.sessionId = session.id ∧ token.organizationId = call.organizationId
  | .consume stateHash now => stateHash = call.stateHash ∧ (⟨.now, now⟩ : AuthEvent) ∈ trace
  | .revokeSession _ | .markRotated _ _ | .revokeSessionTokens _ => False
  | _ => True

section
variable {hashSecret : String → String} {accessTokenTtl sessionTtl : Timestamp} {call : LoginCall}
  {trace : List AuthEvent}

abbrev MeetsLogin (call : LoginCall) (trace : List AuthEvent) (p : LoginProgram) : Prop :=
  p.Meets (loginGuard call) (fun _ _ => True) trace

private theorem meets_refuseLogin (organizationId : OrgId) (detail : String) (e : Raised) :
    MeetsLogin call trace (refuseLogin organizationId detail e) :=
  ⟨trivial, fun _ => trivial⟩

private theorem meets_mintTokens {session : SessionRecord} (minted : (⟨.addSession session, ()⟩ : AuthEvent) ∈ trace)
    (userId : Uuid) (now : Timestamp) : MeetsLogin call trace
      (mintTokens hashSecret accessTokenTtl sessionTtl call.organizationId userId session.id now) := by
  refine ⟨trivial, fun _ => ⟨trivial, fun _ => ⟨trivial, fun _ => ⟨?_, fun _ => ⟨trivial, fun _ => trivial⟩⟩⟩⟩⟩
  exact ⟨session, by simp [minted], rfl, rfl⟩

private theorem Vouched.append {now : Timestamp} {loginState : OidcLoginStateRecord String}
    {identity : OAuthIdentityRecord} (h : Vouched call trace now loginState identity) (e : AuthEvent) :
    Vouched call (trace ++ [e]) now loginState identity := by
  obtain ⟨read, consumed, organization, idToken, claims, verified, looked⟩ := h
  exact ⟨List.mem_append_left _ read, List.mem_append_left _ consumed, organization, idToken, claims,
    List.mem_append_left _ verified, List.mem_append_left _ looked⟩

private theorem meets_mintSession {now : Timestamp} {loginState : OidcLoginStateRecord String}
    {identity : OAuthIdentityRecord} (vouched : Vouched call trace now loginState identity)
    (unminted : ∀ session, (⟨.addSession session, ()⟩ : AuthEvent) ∉ trace) : MeetsLogin call trace
      (mintSession hashSecret accessTokenTtl sessionTtl call.organizationId identity.userId now) := by
  refine ⟨trivial, fun sessionId => ⟨⟨?_, now, loginState, identity, vouched.append _, rfl, rfl⟩, fun _ => ?_⟩⟩
  · intro session minted
    simp [unminted session] at minted
  · exact meets_mintTokens (List.mem_append_right _ List.mem_cons_self) identity.userId now

private theorem meets_redeemCode {now : Timestamp} {loginState : OidcLoginStateRecord String}
    (read : (⟨.now, now⟩ : AuthEvent) ∈ trace)
    (consumed : (⟨.consume call.stateHash now, some loginState⟩ : AuthEvent) ∈ trace)
    (organization : loginState.organizationId = call.organizationId)
    (unminted : ∀ session, (⟨.addSession session, ()⟩ : AuthEvent) ∉ trace) : MeetsLogin call trace
      (redeemCode hashSecret accessTokenTtl sessionTtl call loginState now) := by
  refine ⟨trivial, fun tokenResponse => ⟨trivial, fun claims => ⟨trivial, fun found => ?_⟩⟩⟩
  cases found with
  | none => exact meets_refuseLogin _ _ _
  | some identity =>
    have vouched : Vouched call (trace ++ [⟨.exchangeCode call.code loginState.codeVerifier
        (if call.redirectUri = "" then loginState.redirectUri else call.redirectUri), tokenResponse⟩] ++
        [⟨.verifyIdToken tokenResponse.idToken loginState.nonceHash, claims⟩] ++
        [⟨.getBySubject loginState.provider claims.subject, some identity⟩]) now loginState identity :=
      ⟨by simp [read], by simp [consumed], organization, tokenResponse.idToken, claims, by simp, by simp⟩
    refine meets_mintSession vouched fun session minted => ?_
    simp [unminted session] at minted

/-- What a login does, seen from its own trace. -/
def loginContract (hashSecret : String → String) (accessTokenTtl sessionTtl : Timestamp) :
    Contract (completeOidcLogin hashSecret accessTokenTtl sessionTtl) where
  guard := loginGuard
  post _ _ _ := True
  meets call := by
    refine ⟨trivial, fun now => ⟨⟨rfl, by simp⟩, fun found => ?_⟩⟩
    cases found with
    | none => exact meets_refuseLogin _ _ _
    | some loginState =>
      dsimp only
      split
      · exact meets_refuseLogin _ _ _
      · rename_i organization
        exact meets_redeemCode (by simp) (by simp) (of_not_not organization) (by simp)

/-- What an operation of a login does to the tables. -/
inductive LoginEffect (σ : Store) : (o : Op) → o.Answer → Store → Prop where
  | kept {o r} : (∀ session, o ≠ .addSession session) → (∀ token, o ≠ .addRefreshToken token) →
      (∀ stateHash now, o ≠ .consume stateHash now) → LoginEffect σ o r σ
  | minted {session σ'} : σ'.sessions = σ.sessions ++ [session] → σ'.refreshTokens = σ.refreshTokens →
      σ'.oauthIdentities = σ.oauthIdentities → σ'.oidcLoginStates = σ.oidcLoginStates →
      LoginEffect σ (.addSession session) () σ'
  | stored {token hash σ'} : toBytes token.tokenHash = some hash →
      σ'.refreshTokens = σ.refreshTokens ++ [token.withHash hash] → σ'.sessions = σ.sessions →
      σ'.oauthIdentities = σ.oauthIdentities → σ'.oidcLoginStates = σ.oidcLoginStates →
      LoginEffect σ (.addRefreshToken token) () σ'
  | consumed {stateHash now hash r} : toBytes stateHash = some hash →
      r = ((σ.deleteLoginState hash).1.filter fun row => ¬ row.expiresAt ≤ now).map (·.toRecord) →
      LoginEffect σ (.consume stateHash now) r (σ.deleteLoginState hash).2

theorem login_effect {w : World} {σ σ' : Store} {o : Op} {r : o.Answer} (guard : loginGuard call trace o)
    (done : perform w σ o = .ok (r, σ')) : LoginEffect σ o r σ' := by
  cases o with
  | now | uuid4 | generateToken | getSession | getBySubject | record =>
    cases done
    exact .kept nofun nofun nofun
  | addSession =>
    obtain ⟨sessions, tokens, identities, states⟩ := Store.addSession_eq (ofConstraint_ok done)
    exact .minted sessions tokens identities states
  | revokeSession | markRotated | revokeSessionTokens => exact guard.elim
  | addRefreshToken =>
    obtain ⟨hash, bytes, added⟩ := perform_addRefreshToken done
    obtain ⟨tokens, sessions, identities, states⟩ := Store.addRefreshToken_eq added
    exact .stored bytes tokens sessions identities states
  | getByHash =>
    rw [(perform_getByHash done).1]
    exact .kept nofun nofun nofun
  | consume =>
    obtain ⟨hash, bytes, rfl, answer⟩ := perform_consume done
    exact .consumed bytes answer
  | issueAccessToken | exchangeCode | verifyIdToken =>
    rw [outside_same done]
    exact .kept nofun nofun nofun

section Tables
variable {σ₀ σ σ' : Store} {T : ClientId → List AuthEvent}

/-- The row a call has added for its token. -/
def Added (T : ClientId → List AuthEvent) (row : TokenRow) : Prop :=
  ∃ token hash, (∃ t, (⟨.addRefreshToken token, ()⟩ : AuthEvent) ∈ T t) ∧ toBytes token.tokenHash = some hash ∧
    row = token.withHash hash

/-- The tables after some logins: what they held before, less the states consumed, and what the calls added. -/
structure Logins (σ₀ σ : Store) (T : ClientId → List AuthEvent) : Prop where
  identities : σ.oauthIdentities = σ₀.oauthIdentities
  states : ∀ row ∈ σ.oidcLoginStates, row ∈ σ₀.oidcLoginStates
  consumed : ∀ t stateHash now loginState, (⟨.consume stateHash now, some loginState⟩ : AuthEvent) ∈ T t →
    ∃ row ∈ σ₀.oidcLoginStates, toBytes stateHash = some row.stateHash ∧ loginState = row.toRecord ∧
      ¬ row.expiresAt ≤ now ∧ ∀ row' ∈ σ.oidcLoginStates, row'.stateHash ≠ row.stateHash
  once : ∀ t u stateHash now loginState stateHash' now' loginState',
    (⟨.consume stateHash now, some loginState⟩ : AuthEvent) ∈ T t →
      (⟨.consume stateHash' now', some loginState'⟩ : AuthEvent) ∈ T u → toBytes stateHash = toBytes stateHash' → t = u
  gone : ∀ t stateHash now r hash, (⟨.consume stateHash now, r⟩ : AuthEvent) ∈ T t → toBytes stateHash = some hash →
    ∀ row ∈ σ.oidcLoginStates, row.stateHash ≠ hash
  looked : ∀ t provider subject identity, (⟨.getBySubject provider subject, some identity⟩ : AuthEvent) ∈ T t →
    identity ∈ σ₀.oauthIdentities ∧ identity.provider = provider ∧ identity.subject = subject
  sessions : ∀ session, session ∈ σ.sessions ↔
    session ∈ σ₀.sessions ∨ ∃ t, (⟨.addSession session, ()⟩ : AuthEvent) ∈ T t
  tokens : ∀ row, row ∈ σ.refreshTokens ↔ row ∈ σ₀.refreshTokens ∨ Added T row

theorem logins_start (σ : Store) : Logins σ σ fun _ => [] where
  identities := rfl
  states _ h := h
  consumed := nofun
  once := nofun
  gone := nofun
  looked := nofun
  sessions session := by simp
  tokens row := by simp [Added]

theorem mem_grown_iff {t : ClientId} {e e' : AuthEvent} :
    (∃ u, e' ∈ Function.update T t (T t ++ [e]) u) ↔ (∃ u, e' ∈ T u) ∨ e' = e := by
  constructor
  · rintro ⟨u, h⟩
    rcases mem_grown h with old | ⟨-, new⟩
    · exact .inl ⟨u, old⟩
    · exact .inr new
  · rintro (⟨u, old⟩ | rfl)
    · refine ⟨u, ?_⟩
      by_cases hu : u = t
      · subst hu
        rw [Function.update_self]
        exact List.mem_append_left _ old
      · rwa [Function.update_of_ne hu]
    · exact ⟨t, by rw [Function.update_self]; simp⟩

/-- An operation that adds no token. -/
theorem added_same {t : ClientId} {e : AuthEvent}
    (other : ∀ token, (⟨.addRefreshToken token, ()⟩ : AuthEvent) ≠ e) (row : TokenRow) :
    Added (Function.update T t (T t ++ [e])) row ↔ Added T row := by
  simp only [Added, mem_grown_iff, other, or_false]

theorem added_grown {t : ClientId} {token : RefreshTokenRecord String} {hash : Bytes}
    (bytes : toBytes token.tokenHash = some hash) (row : TokenRow) :
    Added (Function.update T t (T t ++ [⟨.addRefreshToken token, ()⟩])) row ↔
      Added T row ∨ row = token.withHash hash := by
  simp only [Added, mem_grown_iff]
  constructor
  · rintro ⟨token', hash', old | new, bytes', rfl⟩
    · exact .inl ⟨token', hash', old, bytes', rfl⟩
    · cases new
      cases bytes.symm.trans bytes'
      exact .inr rfl
  · rintro (⟨token', hash', old, bytes', rfl⟩ | rfl)
    · exact ⟨token', hash', .inl old, bytes', rfl⟩
    · exact ⟨token, hash, .inr rfl, bytes, rfl⟩

theorem LoginEffect.states {o : Op} {r : o.Answer} (h : LoginEffect σ o r σ') :
    ∀ row ∈ σ'.oidcLoginStates, row ∈ σ.oidcLoginStates := by
  cases h with
  | kept => exact fun _ there => there
  | minted _ _ _ same => exact fun _ there => same ▸ there
  | stored _ _ _ _ same => exact fun _ there => same ▸ there
  | consumed => exact fun _ there => (List.mem_filter.mp there).1

theorem LoginEffect.identities {o : Op} {r : o.Answer} (h : LoginEffect σ o r σ') :
    σ'.oauthIdentities = σ.oauthIdentities := by
  cases h with
  | kept => rfl
  | minted _ _ same => exact same
  | stored _ _ _ same => exact same
  | consumed => rfl

/-- A state is consumed alive, and gone then. -/
theorem LoginEffect.consume {stateHash : String} {now : Timestamp} {loginState : OidcLoginStateRecord String}
    (h : LoginEffect σ (.consume stateHash now) (some loginState) σ') :
    ∃ row ∈ σ.oidcLoginStates, toBytes stateHash = some row.stateHash ∧ loginState = row.toRecord ∧
      ¬ row.expiresAt ≤ now ∧ ∀ row' ∈ σ'.oidcLoginStates, row'.stateHash ≠ row.stateHash := by
  cases h with
  | kept _ _ other => exact absurd rfl (other stateHash now)
  | @consumed _ _ hash _ bytes answer =>
    obtain ⟨row, found, rfl⟩ := Option.map_eq_some_iff.mp answer.symm
    obtain ⟨found, alive⟩ := Option.filter_eq_some_iff.mp found
    have key : row.stateHash = hash := by simpa using List.find?_some found
    refine ⟨row, List.mem_of_find?_eq_some found, key ▸ bytes, rfl, of_decide_eq_true alive, fun row' there => ?_⟩
    rw [key]
    exact of_decide_eq_true (List.mem_filter.mp there).2

/-- Whatever a consumption answers, its state is gone then. -/
theorem LoginEffect.gone {stateHash : String} {now : Timestamp} {r : Option (OidcLoginStateRecord String)}
    {hash : Bytes} (h : LoginEffect σ (.consume stateHash now) r σ') (bytes : toBytes stateHash = some hash) :
    ∀ row ∈ σ'.oidcLoginStates, row.stateHash ≠ hash := by
  cases h with
  | kept _ _ other => exact absurd rfl (other stateHash now)
  | consumed bytes' =>
    obtain rfl := Option.some.inj (bytes.symm.trans bytes')
    exact fun row there => of_decide_eq_true (List.mem_filter.mp there).2

/-- A new row is the one the call adds. -/
private theorem mem_concat_iff {A : Type} {rows rows' : List A} {new : A} (h : rows' = rows ++ [new]) (row : A) :
    row ∈ rows' ↔ row ∈ rows ∨ row = new := by
  rw [h, List.mem_append, List.mem_singleton]

theorem Logins.perform {t : ClientId} {w : World} {o : Op} {r : o.Answer} (h : Logins σ₀ σ T)
    (guard : loginGuard call (T t) o) (done : perform w σ o = .ok (r, σ')) :
    Logins σ₀ σ' (Function.update T t (T t ++ [⟨o, r⟩])) := by
  have effect := login_effect guard done
  constructor
  · exact effect.identities.trans h.identities
  · exact fun row there => h.states row (effect.states row there)
  · intro u stateHash now loginState consumed
    rcases mem_grown consumed with old | ⟨-, new⟩
    · obtain ⟨row, there, bytes, same, alive, gone⟩ := h.consumed u stateHash now loginState old
      exact ⟨row, there, bytes, same, alive, fun row' there' => gone row' (effect.states row' there')⟩
    · cases new
      obtain ⟨row, there, rest⟩ := effect.consume
      exact ⟨row, h.states row there, rest⟩
  · -- what one call has consumed no other finds
    have found_once {u : ClientId} {stateHash stateHash' : String} {now now' : Timestamp}
        {loginState loginState' : OidcLoginStateRecord String}
        (old : (⟨.consume stateHash now, some loginState⟩ : AuthEvent) ∈ T u)
        (new : (⟨.consume stateHash' now', some loginState'⟩ : AuthEvent) = ⟨o, r⟩)
        (same : toBytes stateHash = toBytes stateHash') : False := by
      cases new
      obtain ⟨row, -, bytes, -, -, gone⟩ := h.consumed u stateHash now loginState old
      obtain ⟨row', there', bytes', -⟩ := effect.consume
      exact gone row' there' (Option.some.inj (bytes'.symm.trans (same.symm.trans bytes)))
    intro u v stateHash now loginState stateHash' now' loginState' first second same
    rcases mem_grown first with old | ⟨rfl, new⟩
    · rcases mem_grown second with old' | ⟨rfl, new'⟩
      · exact h.once u v _ _ _ _ _ _ old old' same
      · exact (found_once old new' same).elim
    · rcases mem_grown second with old' | ⟨rfl, -⟩
      · exact (found_once old' new same.symm).elim
      · rfl
  · intro u stateHash now r' hash consumed bytes
    rcases mem_grown consumed with old | ⟨-, new⟩
    · exact fun row there => h.gone u stateHash now r' hash old bytes row (effect.states row there)
    · cases new
      exact effect.gone bytes
  · intro u provider subject identity looked
    rcases mem_grown looked with old | ⟨-, new⟩
    · exact h.looked u provider subject identity old
    · cases new
      obtain ⟨found, -⟩ := Prod.mk.inj (Except.ok.inj done)
      rw [← h.identities]
      exact σ.getBySubject_eq found
  · intro session
    rw [mem_grown_iff]
    cases effect with
    | kept other =>
      have none_new : (⟨.addSession session, ()⟩ : AuthEvent) ≠ ⟨o, r⟩ := fun new => other session (by cases new; rfl)
      rw [h.sessions session, or_iff_left none_new]
    | minted sessions =>
      rw [mem_concat_iff sessions, h.sessions session, or_assoc]
      refine or_congr_right (or_congr_right ⟨fun new => by rw [new], fun new => by cases new; rfl⟩)
    | stored _ _ sessions =>
      have none_new {token : RefreshTokenRecord String} {u : Unit} :
          (⟨.addSession session, ()⟩ : AuthEvent) ≠ ⟨.addRefreshToken token, u⟩ := nofun
      rw [sessions, h.sessions session, or_iff_left none_new]
    | @consumed stateHash now hash r =>
      have none_new : (⟨.addSession session, ()⟩ : AuthEvent) ≠ ⟨.consume stateHash now, r⟩ := nofun
      rw [or_iff_left none_new]
      exact h.sessions session
  · intro row
    cases effect with
    | kept _ other => rw [h.tokens row, added_same fun token new => other token (by cases new; rfl)]
    | minted _ tokens => rw [tokens, h.tokens row, added_same fun _ new => by cases new]
    | stored bytes tokens => rw [mem_concat_iff tokens, h.tokens row, added_grown bytes, or_assoc]
    | consumed => exact (h.tokens row).trans (or_congr_right (added_same (fun _ new => by cases new) row).symm)

end Tables
/-- A call mints one session. -/
theorem minted_unique (guarded : Contract.Guarded (loginGuard call) trace) {session session' : SessionRecord}
    (minted : (⟨.addSession session, ()⟩ : AuthEvent) ∈ trace)
    (minted' : (⟨.addSession session', ()⟩ : AuthEvent) ∈ trace) : session = session' := by
  obtain ⟨before, behind, split⟩ := List.append_of_mem minted
  rw [split, List.mem_append, List.mem_cons] at minted'
  rcases minted' with early | same | late
  · exact absurd early ((guarded _ _ _ _ split).1 session')
  · cases same
    rfl
  · obtain ⟨before', behind', rfl⟩ := List.append_of_mem late
    rw [← List.cons_append, ← List.append_assoc] at split
    exact absurd (List.mem_append_right _ List.mem_cons_self) ((guarded _ _ _ _ split).1 session)

/-- The session of a call, for whom it was minted: a saved state, alive and of the caller's organization, and
the user linked to the subject the provider verified against the state's nonce. -/
def MintedFor (σ : Store) (call : LoginCall) (trace : List AuthEvent) (session : SessionRecord) : Prop :=
  ∃ loginState ∈ σ.oidcLoginStates, ∃ identity ∈ σ.oauthIdentities, ∃ now idToken claims,
    toBytes call.stateHash = some loginState.stateHash ∧ loginState.organizationId = call.organizationId ∧
    (⟨.now, now⟩ : AuthEvent) ∈ trace ∧ now < loginState.expiresAt ∧
    (⟨.verifyIdToken idToken (toHex loginState.nonceHash), claims⟩ : AuthEvent) ∈ trace ∧
    identity.provider = loginState.provider ∧ identity.subject = claims.subject ∧
    session.organizationId = loginState.organizationId ∧ session.userId = identity.userId

/-- The call has minted the session. -/
def Mints (s : LoginSystem) (t : ClientId) (call : LoginCall) (trace : List AuthEvent) (session : SessionRecord) : Prop :=
  (s.clients t).Serves call trace ∧ (⟨.addSession session, ()⟩ : AuthEvent) ∈ trace

theorem Logins.mintedFor {σ : Store} {s : LoginSystem} (h : Logins σ s.shared s.traces) {t : ClientId}
    {session : SessionRecord} (guarded : Contract.Guarded (loginGuard call) trace)
    (minted : (⟨.addSession session, ()⟩ : AuthEvent) ∈ trace) (own : s.traces t = trace) :
    MintedFor σ call trace session := by
  obtain ⟨before, behind, split⟩ := List.append_of_mem minted
  have earlier {e : AuthEvent} (h : e ∈ before) : e ∈ trace := split ▸ List.mem_append_left _ h
  obtain ⟨-, now, loginState, identity, vouched, organization, user⟩ := guarded _ _ _ _ split
  obtain ⟨read, consumed, same, idToken, claims, verified, looked⟩ := vouched
  obtain ⟨row, there, bytes, rfl, alive, -⟩ := h.consumed t _ now loginState (own ▸ earlier consumed)
  obtain ⟨known, provider, subject⟩ := h.looked t _ _ identity (own ▸ earlier looked)
  exact ⟨row, there, identity, known, now, idToken, claims, bytes, same, earlier read, not_le.mp alive,
    earlier verified, provider, subject, organization.trans same.symm, user⟩

/-- A call that has minted a session has consumed its state. -/
theorem minted_consumed (guarded : Contract.Guarded (loginGuard call) trace) {session : SessionRecord}
    (minted : (⟨.addSession session, ()⟩ : AuthEvent) ∈ trace) :
    ∃ now loginState, (⟨.consume call.stateHash now, some loginState⟩ : AuthEvent) ∈ trace := by
  obtain ⟨before, behind, split⟩ := List.append_of_mem minted
  obtain ⟨-, now, loginState, -, ⟨-, consumed, -⟩, -⟩ := guarded _ _ _ _ split
  exact ⟨now, loginState, split ▸ List.mem_append_left _ consumed⟩

/-- A token is one of the session its call has minted. -/
private theorem added_minted (guarded : Contract.Guarded (loginGuard call) trace) {token : RefreshTokenRecord String}
    (added : (⟨.addRefreshToken token, ()⟩ : AuthEvent) ∈ trace) :
    ∃ session, (⟨.addSession session, ()⟩ : AuthEvent) ∈ trace ∧ token.sessionId = session.id ∧
      token.organizationId = session.organizationId := by
  obtain ⟨before, behind, split⟩ := List.append_of_mem added
  obtain ⟨session, minted, same, organization⟩ := guarded _ _ _ _ split
  have there : (⟨.addSession session, ()⟩ : AuthEvent) ∈ trace := split ▸ List.mem_append_left _ minted
  obtain ⟨before', behind', split'⟩ := List.append_of_mem there
  obtain ⟨-, -, -, -, -, organization', -⟩ := guarded _ _ _ _ split'
  exact ⟨session, there, same, organization.trans organization'.symm⟩

/-- Since `s` no login state was saved, and the state was not consumed. -/
private structure NoneSince (s : LoginSystem) (hash : Bytes) (σ : Store) (T : ClientId → List AuthEvent) : Prop where
  saved : ∀ row ∈ σ.oidcLoginStates, row ∈ s.shared.oidcLoginStates
  consumed : ∀ v text now loginState, (⟨.consume text now, some loginState⟩ : AuthEvent) ∈ T v →
    toBytes text = some hash → (⟨.consume text now, some loginState⟩ : AuthEvent) ∈ s.traces v

private theorem NoneSince.perform {s : LoginSystem} {hash : Bytes} {σ σ' : Store} {T : ClientId → List AuthEvent}
    (h : NoneSince s hash σ T) (gone : ∀ row ∈ s.shared.oidcLoginStates, row.stateHash ≠ hash) {t : ClientId}
    {w : World} {o : Op} {r : o.Answer} (guard : loginGuard call (T t) o) (done : ports.perform w σ o = .ok (r, σ')) :
    NoneSince s hash σ' (Function.update T t (T t ++ [⟨o, r⟩])) := by
  have effect := login_effect guard done
  refine ⟨fun row there => h.saved row (effect.states row there), fun v text now loginState event bytes => ?_⟩
  rcases mem_grown event with old | ⟨-, new⟩
  · exact h.consumed v text now loginState old bytes
  · cases new
    obtain ⟨row, there, bytes', -⟩ := effect.consume
    obtain rfl := Option.some.inj (bytes.symm.trans bytes')
    exact absurd rfl (gone row (h.saved row there))

/-- Once a state is consumed, whatever came of it, whoever mints for it later had consumed it by then. -/
private theorem minted_before {σ : Store} {s s' : LoginSystem}
    (holds : (loginContract hashSecret accessTokenTtl sessionTtl).Holds s) (h : Logins σ s.shared s.traces)
    {schedule : List (Action ports LoginCall)}
    (hs : s.run (completeOidcLogin hashSecret accessTokenTtl sessionTtl) schedule = some s') {t u : ClientId}
    {stateHash : String} {now : Timestamp} {r : Option (OidcLoginStateRecord String)} {session : SessionRecord}
    {hash : Bytes} (consumed : (⟨.consume stateHash now, r⟩ : AuthEvent) ∈ s.traces t)
    (taken : toBytes stateHash = some hash) (minted : Mints s' u call trace session)
    (same : toBytes call.stateHash = some hash) :
    ∃ now' loginState, (⟨.consume call.stateHash now', some loginState⟩ : AuthEvent) ∈ s.traces u := by
  obtain ⟨holds', -, since⟩ := (loginContract hashSecret accessTokenTtl sessionTtl).run_rule (NoneSince s hash)
    (fun since guard done => since.perform (h.gone t stateHash now r hash consumed taken) guard done) holds
    ⟨fun _ there => there, fun _ _ _ _ event _ => event⟩ hs
  obtain ⟨now', loginState, own⟩ := minted_consumed (holds'.guarded minted.1) minted.2
  have mine : s'.traces u = trace := minted.1.trace_eq
  exact ⟨now', loginState, since u _ now' loginState (mine ▸ own) same⟩

/-- However logins interleave and whatever the provider says: each session is minted for whom it should be, by a
call that has consumed its state; a state is consumed once, whatever comes of it, and is gone then, so that nobody
else mints for it; a state mints one session at most; and the tables hold what they held and what the calls that
minted have added. -/
theorem one_session_per_login_state (hashSecret : String → String) (accessTokenTtl sessionTtl : Timestamp) (σ : Store)
    (schedule : List (Action ports LoginCall)) (s : LoginSystem)
    (hs : (System.start σ).run (completeOidcLogin hashSecret accessTokenTtl sessionTtl) schedule = some s) :
    (∀ t call trace session, Mints s t call trace session → MintedFor σ call trace session ∧
      ∃ now loginState, (⟨.consume call.stateHash now, some loginState⟩ : AuthEvent) ∈ trace) ∧
    (∀ t u stateHash now loginState stateHash' now' loginState',
      (⟨.consume stateHash now, some loginState⟩ : AuthEvent) ∈ s.traces t →
        (⟨.consume stateHash' now', some loginState'⟩ : AuthEvent) ∈ s.traces u →
          toBytes stateHash = toBytes stateHash' → t = u) ∧
    (∀ t stateHash now r hash, (⟨.consume stateHash now, r⟩ : AuthEvent) ∈ s.traces t →
      toBytes stateHash = some hash → (∀ row ∈ s.shared.oidcLoginStates, row.stateHash ≠ hash) ∧
        ∀ schedule' s', s.run (completeOidcLogin hashSecret accessTokenTtl sessionTtl) schedule' = some s' →
          ∀ u call trace session, Mints s' u call trace session → toBytes call.stateHash = some hash →
            ∃ now' loginState, (⟨.consume call.stateHash now', some loginState⟩ : AuthEvent) ∈ s.traces u) ∧
    (∀ t u call call' trace trace' session session', Mints s t call trace session →
      Mints s u call' trace' session' → toBytes call.stateHash = toBytes call'.stateHash →
        t = u ∧ session = session') ∧
    (∀ session, session ∈ s.shared.sessions ↔
      session ∈ σ.sessions ∨ ∃ t call trace, Mints s t call trace session) ∧
    ∀ row, row ∈ s.shared.refreshTokens ↔ row ∈ σ.refreshTokens ∨ ∃ t call trace session token hash,
      Mints s t call trace session ∧ (⟨.addRefreshToken token, ()⟩ : AuthEvent) ∈ trace ∧
        toBytes token.tokenHash = some hash ∧ row = token.withHash hash ∧ token.sessionId = session.id ∧
        token.organizationId = session.organizationId := by
  let c := loginContract hashSecret accessTokenTtl sessionTtl
  obtain ⟨holds, h⟩ := c.run_rule (Logins σ) (fun h guard done => h.perform guard done) (c.start_holds σ)
    (logins_start σ) hs
  have own {t : ClientId} {call : LoginCall} {trace : List AuthEvent} (serves : (s.clients t).Serves call trace) :
      s.traces t = trace := serves.trace_eq
  refine ⟨?_, h.once, ?_, ?_, ?_, ?_⟩
  · rintro t call trace session ⟨serves, minted⟩
    exact ⟨h.mintedFor (holds.guarded serves) minted (own serves), minted_consumed (holds.guarded serves) minted⟩
  · intro t stateHash now r hash consumed bytes
    refine ⟨h.gone t stateHash now r hash consumed bytes, fun schedule' s' hs' u call trace session minted same => ?_⟩
    exact minted_before holds h hs' consumed bytes minted same
  · rintro t u call call' trace trace' session session' ⟨serves, minted⟩ ⟨serves', minted'⟩ same
    obtain ⟨now, loginState, consumed⟩ := minted_consumed (holds.guarded serves) minted
    obtain ⟨now', loginState', consumed'⟩ := minted_consumed (holds.guarded serves') minted'
    have one : t = u := h.once t u _ _ _ _ _ _ (own serves ▸ consumed) (own serves' ▸ consumed') same
    subst one
    obtain rfl := (own serves).symm.trans (own serves')
    exact ⟨rfl, minted_unique (holds.guarded serves) minted minted'⟩
  · intro session
    rw [h.sessions session]
    refine or_congr_right ⟨?_, ?_⟩
    · rintro ⟨t, minted⟩
      obtain ⟨call, trace, serves, minted⟩ := System.mem_traces minted
      exact ⟨t, call, trace, serves, minted⟩
    · rintro ⟨t, call, trace, serves, minted⟩
      exact ⟨t, own serves ▸ minted⟩
  · intro row
    rw [h.tokens row]
    refine or_congr_right ⟨?_, ?_⟩
    · rintro ⟨token, hash, ⟨t, added⟩, bytes, rfl⟩
      obtain ⟨call, trace, serves, added⟩ := System.mem_traces added
      obtain ⟨session, minted, same, organization⟩ := added_minted (holds.guarded serves) added
      exact ⟨t, call, trace, session, token, hash, ⟨serves, minted⟩, added, bytes, rfl, same, organization⟩
    · rintro ⟨t, call, trace, session, token, hash, ⟨serves, -⟩, added, bytes, rfl, -⟩
      exact ⟨token, hash, ⟨t, own serves ▸ added⟩, bytes, rfl⟩

end

section Callbacks

/-- A saved login state, and the user its subject is linked to. -/
def savedState : Store :=
  { emptyStore with
    oauthIdentities := [⟨1, 9, 7, "okta", "alice"⟩]
    oidcLoginStates := [⟨1, 9, [115], [110], "verifier", "okta", "https://gateway/callback", 300⟩]
    oauth_identity_provider_subject_key := List.nodup_singleton _
    oidc_login_state_state_hash_key := List.nodup_singleton _ }

/-- A second in which the provider vouches for the subject. -/
def vouching (id : Uuid) (secret : String) : World :=
  { drawing id secret with exchangeCode := .ok ⟨"id-token"⟩, verifyIdToken := .ok ⟨"alice"⟩ }

def callback : LoginCall := ⟨9, codes "s", "code", ""⟩

/-- A callback and its replay: the second finds the state consumed. -/
def racingCallbacks : List (Action ports LoginCall) :=
  .begin 0 callback :: .begin 1 callback :: .step 0 (vouching 2 "a") :: .step 1 (vouching 3 "b") ::
    .step 0 (vouching 2 "a") :: .step 1 (vouching 3 "b") :: List.replicate 11 (.step 0 (vouching 2 "a")) ++
    List.replicate 2 (.step 1 (vouching 3 "b"))

theorem one_session_per_login_state_race :
    ∃ s, (System.start savedState).run (completeOidcLogin codes 900 86400) racingCallbacks = some s ∧
      ∀ session, session ∈ s.shared.sessions ↔
        session ∈ savedState.sessions ∨ ∃ t call trace, Mints s t call trace session := by
  have runs : Option.isSome ((System.start savedState).run (completeOidcLogin codes 900 86400) racingCallbacks) =
      true := by
    decide +kernel
  obtain ⟨s, hs⟩ := Option.isSome_iff_exists.mp runs
  exact ⟨s, hs, (one_session_per_login_state codes 900 86400 savedState racingCallbacks s hs).2.2.2.2.1⟩

end Callbacks
end LlmGateway.Auth
