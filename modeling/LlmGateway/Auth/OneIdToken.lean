import LlmGateway.Auth.ApiKeys
import LlmGateway.Auth.OidcProvider
import LlmGateway.Auth.OneSession

/-! An id token mints one session at most, and for whom it was signed, however the logins that present it race. -/
namespace LlmGateway.Auth
open Ledger Lib Lib.Interleaved

section
variable {F : Type} (jwt : PyJwt F) (py : PyText F) (config : OidcProviderConfig) (sha256Hex : String → String)
  (served : String → Json.Members F → Prop)

/-- Id tokens are verified by the adapter, with keys the provider serves and at the clock's reading then. -/
def VerifiedBy (s : LoginSystem) : Action ports LoginCall → Prop
  | .step t w => ∀ call trace idToken expectedNonceHash next claims,
      s.clients t = .running call trace (.perform (.verifyIdToken idToken expectedNonceHash) next) →
      w.verifyIdToken = .ok claims →
      ∃ getKey, (∀ kid jwk, getKey kid = .ok jwk → served kid jwk) ∧
        verifyIdToken jwt py config sha256Hex getKey w.now idToken expectedNonceHash = .ok claims
  | _ => True

variable (hashSecret : String → String) (accessTokenTtl sessionTtl : Timestamp)

/-- A call mints a session by a token, in a run of the schedule: it has consumed a login state, alive and of its
organization; a step of its own verified the token for that state, when it might be taken; and its subject is
linked to the session's user. -/
structure MintsBy (σ : Store) (schedule : List (Action ports LoginCall)) (s : LoginSystem) (t : ClientId)
    (session : SessionRecord) (idToken : String) : Prop where
  minted : ∃ call trace, Mints s t call trace session ∧
    ∃ loginState ∈ σ.oidcLoginStates, ∃ identity ∈ σ.oauthIdentities, ∃ claims w,
      toBytes call.stateHash = some loginState.stateHash ∧
      (System.start σ).Performed (completeOidcLogin hashSecret accessTokenTtl sessionTtl) schedule t w
        (.verifyIdToken idToken (toHex loginState.nonceHash)) claims ∧
      Accepted jwt py config sha256Hex served w.now idToken (toHex loginState.nonceHash) claims ∧
      identity.provider = loginState.provider ∧ identity.subject = claims.subject ∧
      session.organizationId = loginState.organizationId ∧ session.userId = identity.userId

end

section
variable {F : Type} {jwt : PyJwt F} {py : PyText F} {config : OidcProviderConfig} {sha256Hex : String → String}
  {served : String → Json.Members F → Prop} {hashSecret : String → String} {accessTokenTtl sessionTtl : Timestamp}
  {σ : Store} {s s' : LoginSystem}

/-- A token that a step took might be taken then. -/
theorem accepted_of_performed {schedule : List (Action ports LoginCall)} {t : ClientId} {w : World}
    {idToken expectedNonceHash : String} {claims : OidcIdTokenClaims}
    (verified : (System.start σ).Along (completeOidcLogin hashSecret accessTokenTtl sessionTtl)
      (VerifiedBy jwt py config sha256Hex served) schedule)
    (performed : (System.start σ).Performed (completeOidcLogin hashSecret accessTokenTtl sessionTtl) schedule t w
      (.verifyIdToken idToken expectedNonceHash) claims) :
    Accepted jwt py config sha256Hex served w.now idToken expectedNonceHash claims := by
  obtain ⟨before, after, s₁, call, trace, next, shared, rfl, reached, running, answer⟩ := performed
  have answered : w.verifyIdToken = .ok claims := by
    simp only [perform] at answer
    cases made : w.verifyIdToken with
    | error e =>
      rw [made] at answer
      cases answer
    | ok claims' =>
      rw [made] at answer
      obtain ⟨rfl, -⟩ := Prod.mk.inj (Except.ok.inj answer)
      rfl
  obtain ⟨getKey, cached, taken⟩ := verified.at reached call trace idToken expectedNonceHash next claims running answered
  exact accepted_of_verify cached taken

variable (jwt py config sha256Hex served hashSecret accessTokenTtl sessionTtl σ s) in
/-- Where login states have nonces of their own, every session of a run of logins, however they interleave, is one
that was there before or minted by an id token the provider signed for this client, this login and this user, and
that had not expired when a step of the call verified it; and no token mints two. -/
theorem id_token_mints_once (schedule : List (Action ports LoginCall))
    (distinct : (σ.oidcLoginStates.map (·.nonceHash)).Nodup)
    (hs : (System.start σ).run (completeOidcLogin hashSecret accessTokenTtl sessionTtl) schedule = some s)
    (verified : (System.start σ).Along (completeOidcLogin hashSecret accessTokenTtl sessionTtl)
      (VerifiedBy jwt py config sha256Hex served) schedule) :
    (∀ session ∈ s.shared.sessions, session ∈ σ.sessions ∨ ∃ t idToken, MintsBy jwt py config sha256Hex served
      hashSecret accessTokenTtl sessionTtl σ schedule s t session idToken) ∧
    ∀ t u session session' idToken,
      MintsBy jwt py config sha256Hex served hashSecret accessTokenTtl sessionTtl σ schedule s t session idToken →
      MintsBy jwt py config sha256Hex served hashSecret accessTokenTtl sessionTtl σ schedule s u session' idToken →
        t = u ∧ session = session' := by
  let c := loginContract hashSecret accessTokenTtl sessionTtl
  obtain ⟨holds, logins⟩ := c.run_rule (Logins σ) (fun h guard done => h.perform guard done) (c.start_holds σ)
    (logins_start σ) hs
  have own {t : ClientId} {call : LoginCall} {trace : List AuthEvent} (serves : (s.clients t).Serves call trace) :
      s.traces t = trace := serves.trace_eq
  constructor
  · intro session there
    refine ((logins.sessions session).mp there).imp_right ?_
    rintro ⟨t, minted⟩
    obtain ⟨call, trace, serves, minted⟩ := System.mem_traces minted
    obtain ⟨loginState, saved, identity, known, now, idToken, claims, state, -, -, -, event, provider, subject, org,
      user⟩ := logins.mintedFor (holds.guarded serves) minted (own serves)
    rcases System.performed_of_mem hs (own serves ▸ event) with there | ⟨w, performed⟩
    · cases there
    · exact ⟨t, idToken, ⟨call, trace, ⟨serves, minted⟩, loginState, saved, identity, known, claims, w, state,
        performed, accepted_of_performed verified performed, provider, subject, org, user⟩⟩
  · rintro t u session session' idToken
      ⟨call, trace, ⟨serves, minted⟩, loginState, saved, -, -, claims, w, state, -, accepted, -⟩
      ⟨call', trace', ⟨serves', minted'⟩, loginState', saved', -, -, claims', w', state', -, accepted', -⟩
    have nonce : loginState.nonceHash = loginState'.nonceHash := toHex_injective (accepted.one_nonce accepted')
    obtain rfl : loginState = loginState' := List.inj_on_of_nodup_map distinct saved saved' nonce
    obtain ⟨now, consumed, event⟩ := minted_consumed (holds.guarded serves) minted
    obtain ⟨now', consumed', event'⟩ := minted_consumed (holds.guarded serves') minted'
    have one : t = u := logins.once t u _ _ _ _ _ _ (own serves ▸ event) (own serves' ▸ event') (state.trans state'.symm)
    subst one
    obtain rfl := (own serves).symm.trans (own serves')
    exact ⟨rfl, minted_unique (holds.guarded serves) minted minted'⟩

end

section Callbacks

def okta : OidcProviderConfig := ⟨"https://okta", "gateway"⟩

/-- What every token says: its issuer, its client, and a nonce and a subject. -/
def aliceClaims : Json.Members Unit :=
  [("iss", .str okta.issuer), ("aud", .str okta.clientId), ("exp", .int 300), ("nonce", .str "n"), ("sub", .str "alice")]

/-- A provider with one key, by which every token is signed. -/
def oneKey : PyJwt Unit where
  Key := Unit
  header _ := .ok [("alg", .str "RS256"), ("kid", .str "k")]
  fromJwk _ := .ok ()
  decode _ config now _ := if config = okta ∧ now < 300 * second then .ok aliceClaims else .error "Signature has expired"
  payload _ := some aliceClaims
  signed _ _ := true
  int
    | .int n => some n
    | _ => none
  decode_payload h := by
    split at h
    · exact congrArg some (Except.ok.inj h)
    · cases h
  decode_signed _ := rfl
  decode_issuer h := by
    split at h
    · next right =>
      cases h
      rw [right.1]
      rfl
    · cases h
  decode_audience h := by
    split at h
    · next right =>
      cases h
      rw [right.1]
      exact .inl rfl
    · cases h
  decode_expiry h := by
    split at h
    · next right =>
      cases h
      exact ⟨.int 300, 300, rfl, rfl, right.2⟩
    · cases h

def plainText : PyText Unit where
  str
    | .str s => s
    | _ => ""
  repr _ := ""

def keyK (kid : String) : Except String (Json.Members Unit) := if kid = "k" then .ok [] else .error "unknown signing key"

/-- The world's word on a token is the adapter's. -/
def agrees (s : LoginSystem) : Action ports LoginCall → Bool
  | .step t w =>
    match s.clients t with
    | .running _ _ (.perform (.verifyIdToken idToken expectedNonceHash) _) =>
      w.verifyIdToken.toOption =
        (verifyIdToken oneKey plainText okta codes keyK w.now idToken expectedNonceHash).toOption
    | _ => true
  | _ => true

private theorem verifiedBy_of_agrees {s : LoginSystem} {a : Action ports LoginCall} (h : agrees s a = true) :
    VerifiedBy oneKey plainText okta codes (fun kid jwk => kid = "k" ∧ jwk = []) s a := by
  cases a with
  | begin | abort => trivial
  | step t w =>
    intro call trace idToken expectedNonceHash next claims running answered
    refine ⟨keyK, ?_, ?_⟩
    · intro kid jwk found
      unfold keyK at found
      split at found
      · next same =>
        cases found
        exact ⟨same, rfl⟩
      · cases found
    · simp only [agrees, running, answered, decide_eq_true_eq] at h
      cases made : verifyIdToken oneKey plainText okta codes keyK w.now idToken expectedNonceHash with
      | error e =>
        rw [made] at h
        cases h
      | ok claims' =>
        rw [made] at h
        cases h
        rfl

theorem id_token_mints_once_race :
    ∃ s, (System.start savedState).run (completeOidcLogin codes 900 86400) racingCallbacks = some s ∧
      s.shared.sessions ≠ [] ∧ ∀ session ∈ s.shared.sessions, session ∈ savedState.sessions ∨ ∃ t idToken,
        MintsBy oneKey plainText okta codes (fun kid jwk => kid = "k" ∧ jwk = []) codes 900 86400 savedState
          racingCallbacks s t session idToken := by
  have runs : ((System.start savedState).run (completeOidcLogin codes 900 86400) racingCallbacks).any
      (fun s => s.shared.sessions ≠ []) = true := by
    decide +kernel
  have verified : (System.start savedState).alongCheck (completeOidcLogin codes 900 86400)
      (fun s a => agrees s a = true) racingCallbacks = true := by
    decide +kernel
  obtain ⟨s, hs, minted⟩ := (Option.any_eq_true _ _).mp runs
  have along := ((System.alongCheck_iff _ _ _ _).mp verified).imp fun _ _ => verifiedBy_of_agrees
  exact ⟨s, hs, of_decide_eq_true minted, (id_token_mints_once oneKey plainText okta codes
    (fun kid jwk => kid = "k" ∧ jwk = []) codes 900 86400 savedState s racingCallbacks (List.nodup_singleton _) hs
    along).1⟩

end Callbacks
end LlmGateway.Auth
