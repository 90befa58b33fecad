import LlmGateway.Auth.OidcState
import LlmGateway.Auth.Ports
import LlmGateway.Lib.Json

/-! `OidcProviderAdapter.verify_id_token`: which id tokens are taken, and what is read from them. -/
namespace LlmGateway.Auth
open Ledger Lib

structure OidcProviderConfig where
  issuer : String
  clientId : String
  deriving DecidableEq, Repr

/-- An instant of a claim is in seconds. -/
def second : Timestamp := 1000000

/-- What the adapter uses of PyJWT, and what PyJWT documents of `decode` when it is given an algorithm, an
issuer, an audience and the claims it must find. The claims of a token are in the token. -/
structure PyJwt (F : Type) where
  Key : Type
  header : String → Except String (Json.Members F)
  fromJwk : Json.Members F → Except String Key
  decode : Key → OidcProviderConfig → Timestamp → String → Except String (Json.Members F)
  payload : String → Option (Json.Members F)
  -- the RS256 signature of the token is one of the key
  signed : Key → String → Bool
  -- `int(value)`
  int : Json F → Option Int
  decode_payload : ∀ {key config now token claims}, decode key config now token = .ok claims → payload token = some claims
  decode_signed : ∀ {key config now token claims}, decode key config now token = .ok claims → signed key token = true
  decode_issuer : ∀ {key config now token claims}, decode key config now token = .ok claims →
    claims.lookup "iss" = some (.str config.issuer)
  decode_audience : ∀ {key config now token claims}, decode key config now token = .ok claims →
    claims.lookup "aud" = some (.str config.clientId) ∨
      ∃ audiences, claims.lookup "aud" = some (.arr audiences) ∧ .str config.clientId ∈ audiences
  decode_expiry : ∀ {key config now token claims}, decode key config now token = .ok claims →
    ∃ value expiry, claims.lookup "exp" = some value ∧ int value = some expiry ∧ now < expiry * second

/-- `str` and `repr` of a value. -/
structure PyText (F : Type) where
  str : Json F → String
  repr : Json F → String

/-- A computation that succeeds succeeded at its first step. -/
private theorem ok_of_bind {ε β γ : Type} {first : Except ε β} {rest : β → Except ε γ} {c : γ}
    (h : (first >>= rest) = .ok c) : ∃ b, first = .ok b ∧ rest b = .ok c := by
  cases first with
  | error => cases h
  | ok b => exact ⟨b, rfl, h⟩

section
variable {F : Type} (jwt : PyJwt F) (py : PyText F) (config : OidcProviderConfig) (sha256Hex : String → String)

/-- The key id of a token whose algorithm is allowed. -/
def keyId (idToken : String) : Except String String :=
  match jwt.header idToken with
  | .error _ => .error "id_token header is unreadable"
  | .ok header =>
    match header.lookup "alg" with
    | some (.str "RS256") =>
      match header.lookup "kid" with
      | some (.str kid) => .ok kid
      | _ => .error "id_token has no 'kid'"
    | algorithm => .error ("disallowed id_token algorithm: " ++ algorithm.elim "None" py.repr)

/-- The claims of a token that a key has signed. -/
def decoded (now : Timestamp) (idToken : String) (jwk : Json.Members F) : Except String (Json.Members F) :=
  match jwt.fromJwk jwk with
  | .error message => .error ("id_token verification failed: " ++ message)
  | .ok key =>
    match jwt.decode key config now idToken with
    | .error message => .error ("id_token verification failed: " ++ message)
    | .ok claims => .ok claims

/-- The hash of the nonce a token presents. -/
def presentedHash (claims : Json.Members F) : String :=
  match claims.lookup "nonce" with
  | some (.str nonce) => sha256Hex nonce
  | _ => ""

/-- The claims of a token whose nonce is the expected one. -/
def boundTo (expectedNonceHash : String) (claims : Json.Members F) : Except String OidcIdTokenClaims :=
  if constantTimeEquals (presentedHash sha256Hex claims) expectedNonceHash = false then
    .error "id_token nonce mismatch (possible replay)"
  else
    match claims.lookup "sub" with
    | some subject => .ok ⟨py.str subject⟩
    | none => .error "'sub'"

/-- `verify_id_token`, with the answers of the key cache and the clock's reading. -/
def verifyIdToken (getKey : String → Except String (Json.Members F)) (now : Timestamp)
    (idToken expectedNonceHash : String) : Except String OidcIdTokenClaims := do
  let kid ← keyId jwt py idToken
  let jwk ← getKey kid
  let claims ← decoded jwt config now idToken jwk
  boundTo py sha256Hex expectedNonceHash claims

/-- A token that may be taken for a login at an instant: the key its header names is one the provider serves and
has signed it, it is for this client and has not expired, and its nonce is the login's. -/
structure Accepted (served : String → Json.Members F → Prop) (now : Timestamp) (idToken expectedNonceHash : String)
    (claims : OidcIdTokenClaims) : Prop where
  key : ∃ header kid jwk key, jwt.header idToken = .ok header ∧ header.lookup "alg" = some (.str "RS256") ∧
    header.lookup "kid" = some (.str kid) ∧ served kid jwk ∧ jwt.fromJwk jwk = .ok key ∧ jwt.signed key idToken = true
  payload : ∃ members, jwt.payload idToken = some members ∧
    members.lookup "iss" = some (.str config.issuer) ∧
    (members.lookup "aud" = some (.str config.clientId) ∨
      ∃ audiences, members.lookup "aud" = some (.arr audiences) ∧ .str config.clientId ∈ audiences) ∧
    (∃ value expiry, members.lookup "exp" = some value ∧ jwt.int value = some expiry ∧ now < expiry * second) ∧
    presentedHash sha256Hex members = expectedNonceHash ∧
    ∃ subject, members.lookup "sub" = some subject ∧ claims = ⟨py.str subject⟩

variable {jwt py config sha256Hex} {served : String → Json.Members F → Prop}

theorem keyId_eq_ok {idToken kid : String} (h : keyId jwt py idToken = .ok kid) :
    ∃ header, jwt.header idToken = .ok header ∧ header.lookup "alg" = some (.str "RS256") ∧
      header.lookup "kid" = some (.str kid) := by
  unfold keyId at h
  split at h
  · cases h
  · next header read =>
    split at h
    · next allowed =>
      split at h
      · next named =>
        cases h
        exact ⟨header, read, allowed, named⟩
      · cases h
    · cases h

theorem decoded_eq_ok {now : Timestamp} {idToken : String} {jwk claims : Json.Members F}
    (h : decoded jwt config now idToken jwk = .ok claims) :
    ∃ key, jwt.fromJwk jwk = .ok key ∧ jwt.decode key config now idToken = .ok claims := by
  unfold decoded at h
  split at h
  · cases h
  · next key loaded =>
    split at h
    · cases h
    · next taken =>
      cases h
      exact ⟨key, loaded, taken⟩

theorem boundTo_eq_ok {expectedNonceHash : String} {members : Json.Members F} {claims : OidcIdTokenClaims}
    (h : boundTo py sha256Hex expectedNonceHash members = .ok claims) :
    presentedHash sha256Hex members = expectedNonceHash ∧
      ∃ subject, members.lookup "sub" = some subject ∧ claims = ⟨py.str subject⟩ := by
  unfold boundTo at h
  split at h
  · cases h
  · next same =>
    refine ⟨constantTimeEquals_iff.mp (eq_true_of_ne_false same), ?_⟩
    split at h
    · next subject there =>
      cases h
      exact ⟨subject, there, rfl⟩
    · cases h

/-- What `verify_id_token` returns is of a token that may be taken. -/
theorem accepted_of_verify {getKey : String → Except String (Json.Members F)} {now : Timestamp}
    {idToken expectedNonceHash : String} {claims : OidcIdTokenClaims}
    (cached : ∀ kid jwk, getKey kid = .ok jwk → served kid jwk)
    (h : verifyIdToken jwt py config sha256Hex getKey now idToken expectedNonceHash = .ok claims) :
    Accepted jwt py config sha256Hex served now idToken expectedNonceHash claims := by
  obtain ⟨kid, named, h⟩ := ok_of_bind h
  obtain ⟨jwk, found, h⟩ := ok_of_bind h
  obtain ⟨members, taken, h⟩ := ok_of_bind h
  obtain ⟨header, read, allowed, named⟩ := keyId_eq_ok named
  obtain ⟨key, loaded, taken⟩ := decoded_eq_ok taken
  exact ⟨⟨header, kid, jwk, key, read, allowed, named, cached kid jwk found, loaded, jwt.decode_signed taken⟩,
    ⟨members, jwt.decode_payload taken, jwt.decode_issuer taken, jwt.decode_audience taken,
      jwt.decode_expiry taken, boundTo_eq_ok h⟩⟩

/-- A token is taken for one nonce only. -/
theorem Accepted.one_nonce {now now' : Timestamp} {idToken hash hash' : String} {claims claims' : OidcIdTokenClaims}
    (h : Accepted jwt py config sha256Hex served now idToken hash claims)
    (h' : Accepted jwt py config sha256Hex served now' idToken hash' claims') : hash = hash' := by
  obtain ⟨members, carried, -, -, -, nonce, -⟩ := h.payload
  obtain ⟨members', carried', -, -, -, nonce', -⟩ := h'.payload
  obtain rfl := Option.some.inj (carried.symm.trans carried')
  exact nonce.symm.trans nonce'

end
end LlmGateway.Auth
