import LlmGateway.Auth.ApiKeys
import LlmGateway.Auth.Rotation
import LlmGateway.Auth.UuidText

/-! Access tokens of principals: what a token issued before any number of key rotations is read back as. -/
namespace LlmGateway.Auth
open Ledger Lib
open Audit (PrincipalType)

variable {crypto : Cryptography}

/-- `PrincipalType(value)`. -/
def principalTypeOf (value : String) : Option PrincipalType :=
  [PrincipalType.user, .serviceAccount, .apiKey].find? (·.value = value)

def principalTypeClaim : String := "ptyp"

structure JwtTokenService (crypto : Cryptography) where
  jwt : JwtService crypto
  keys : KeyProvider crypto

namespace JwtTokenService
variable (service : JwtTokenService crypto)

/-- `issue_access_token`, with the clock's reading and the `jti` drawn. -/
def issueAccessToken (principal : ScopedPrincipal) (ttl now : Timestamp) (jti : String) :
    Except String service.jwt.pyjwt.Token :=
  service.jwt.issue service.keys.current
    { subject := principal.subjectId.str
      organizationId := principal.organizationId.str
      tokenType := "access"
      scopes := principal.scopes
      ttl := ttl
      additionalClaims := [(principalTypeClaim, principal.principalType.value)] } now jti

/-- `verify`. A claim that does not parse is a `ValueError`. -/
def verify (todecimal : Char → Option (Fin 10)) (token : service.jwt.pyjwt.Token) (now : Timestamp) :
    Except Raised ScopedPrincipal :=
  match service.jwt.verify token service.keys.verificationKeys now with
  | .error e => .error e
  | .ok claims =>
    let rawType := (claims.additional.lookup principalTypeClaim).getD PrincipalType.user.value
    match principalTypeOf rawType, uuid todecimal claims.subject.toList, uuid todecimal claims.organizationId.toList with
    | some principalType, some subjectId, some organizationId =>
      .ok { principalType, subjectId, organizationId, scopes := claims.scopes }
    | _, _, _ => .error (.tokenInvalid "malformed principal claims")

end JwtTokenService

theorem principalTypeOf_value (type : PrincipalType) : principalTypeOf type.value = some type := by
  cases type <;> rfl

/-- The words that `str.split` finds. -/
def words (text : String) : List String := (Str.split text.toList).map String.ofList

/-! ### Scopes -/

private theorem split_append (front back : List Char) :
    Str.split (front ++ ' ' :: back) = Str.split front ++ Str.split back := by
  rw [Str.split, List.splitOnP_append_cons _ _ rfl, List.filter_append, ← Str.split, ← Str.split]

/-- The scopes joined and split again: every word of each. -/
theorem words_intercalate (scopes : List String) : words (" ".intercalate scopes) = scopes.flatMap words := by
  induction scopes with
  | nil => rfl
  | cons scope rest ih =>
    cases rest with
    | nil => simp
    | cons next rest =>
      rw [List.flatMap_cons, ← ih, String.intercalate_cons_cons, words, words, words, ← List.map_append]
      rw [String.append_assoc, String.toList_append, String.toList_append]
      exact congrArg _ (split_append _ _)

/-- A scope is a word: something, and no space in it. -/
def IsWord (scope : String) : Prop := scope ≠ "" ∧ ∀ c ∈ scope.toList, Str.isspace c = false

theorem words_of_isWord {scopes : List String} (h : ∀ scope ∈ scopes, IsWord scope) : scopes.flatMap words = scopes := by
  induction scopes with
  | nil => rfl
  | cons scope rest ih =>
    obtain ⟨nonempty, unspaced⟩ := h scope List.mem_cons_self
    have one : words scope = [scope] := by
      rw [words, Str.split, List.splitOnP_eq_singleton unspaced]
      simp [nonempty]
    rw [List.flatMap_cons, one, ih fun s hs => h s (List.mem_cons_of_mem _ hs)]
    rfl

/-! ### Reading a token back -/

section
variable {provider : KeyProvider crypto} {past future : Rotations crypto}

/-- The key a token was signed with is still the one its kid leads to, after more rotations. -/
theorem KeyProvider.signing_found (h : Unambiguous crypto (provider.keys ++ Rotations.keys (past ++ future))) :
    ∃ pem, (provider.rotateAll (past ++ future)).verificationKeys.get (provider.rotateAll past).current.kid = some pem ∧
      SameKey crypto (provider.rotateAll past).current.publicPem pem := by
  have held_iff : ∀ key, key ∈ (provider.rotateAll (past ++ future)).keys ↔
      key ∈ provider.keys ++ Rotations.keys (past ++ future) := by
    intro key
    rw [List.mem_append, KeyProvider.mem_keys_rotateAll]
  have held : (provider.rotateAll past).current.toVerificationKey ∈ (provider.rotateAll (past ++ future)).keys := by
    have whole : provider.rotateAll (past ++ future) = (provider.rotateAll past).rotateAll future := by
      rw [KeyProvider.rotateAll, List.foldl_append]
      rfl
    rw [whole, KeyProvider.mem_keys_rotateAll]
    exact .inl List.mem_cons_self
  obtain ⟨pem, found⟩ := KeyProvider.verificationKeys_present held
  obtain ⟨numbers, hnumbers⟩ := Option.ne_none_iff_exists'.mp (h.rsa _ ((held_iff _).mp held))
  refine ⟨pem, found, numbers, hnumbers, ?_⟩
  rw [← hnumbers]
  exact h.one _ ((held_iff _).mp (KeyProvider.verificationKeys_mem found)) _ ((held_iff _).mp held) rfl

end

/-- A token's claims, told by the clock and by what it was issued with. -/
theorem JwtService.verify_issued_eq {service : JwtService crypto} {signing : SigningKey crypto} {request : TokenRequest}
    {issuedAt : Timestamp} (now : Timestamp) {jti : String} {token : service.pyjwt.Token}
    (issued : service.issue signing request issuedAt jti = .ok token) {keys : Dict String String} {pem : String}
    (found : keys.get signing.kid = some pem) (same : SameKey crypto signing.publicPem pem) :
    service.verify token keys now =
      if now > fromTimestamp (seconds (issuedAt + request.ttl)) + service.leeway then
        .error (.tokenExpired "token expired")
      else if now < fromTimestamp (seconds issuedAt) - service.leeway then
        .error (.tokenInvalid "token not yet valid")
      else
        .ok { subject := request.subject
              organizationId := request.organizationId
              tokenType := request.tokenType
              scopes := words (" ".intercalate request.scopes)
              jti := jti
              issuedAt := fromTimestamp (seconds issuedAt)
              expiresAt := fromTimestamp (seconds (issuedAt + request.ttl))
              additional := request.additionalClaims.filter fun claim => claim.1 ∉ reservedClaims } := by
  unfold issue at issued
  split at issued
  · cases issued
  have header := service.pyjwt.header_encode issued
  have decoded := (service.pyjwt.decode_encode issued signing.derived pem _).mpr ⟨same, rfl⟩
  dsimp only [payload] at decoded
  unfold verify
  rw [header]
  dsimp only
  rw [if_neg (by simp [allowedAlgorithms]), found]
  dsimp only
  rw [decoded]
  rfl

/-- A token that verifies does so by the key that matches, under its kid. -/
theorem JwtService.verified_key {service : JwtService crypto} {signing : SigningKey crypto} {request : TokenRequest}
    {issuedAt now : Timestamp} {jti : String} {token : service.pyjwt.Token} {claims : TokenClaims}
    (issued : service.issue signing request issuedAt jti = .ok token) {keys : Dict String String}
    (verified : service.verify token keys now = .ok claims) :
    ∃ pem, keys.get signing.kid = some pem ∧ SameKey crypto signing.publicPem pem := by
  unfold issue at issued
  split at issued
  · cases issued
  unfold verify at verified
  rw [service.pyjwt.header_encode issued] at verified
  dsimp only at verified
  rw [if_neg (by simp [allowedAlgorithms])] at verified
  cases found : keys.get signing.kid with
  | none =>
    rw [found] at verified
    cases verified
  | some pem =>
    rw [found] at verified
    dsimp only at verified
    refine ⟨pem, rfl, ?_⟩
    split at verified
    · cases verified
    rename_i claims decoded
    exact ((service.pyjwt.decode_encode issued signing.derived pem claims).mp decoded).1

namespace JwtTokenService
variable {todecimal : Char → Option (Fin 10)} {service : JwtService crypto} {provider provider' : KeyProvider crypto}
  {past future : Rotations crypto} {principal read : ScopedPrincipal} {ttl issuedAt now : Timestamp} {jti : String}
  {token : service.pyjwt.Token}

/-- Before and after its time a token is refused; in between it is read back as its principal, where its kid
leads to the key that matches. -/
theorem verify_found (issued : (JwtTokenService.mk service provider).issueAccessToken principal ttl issuedAt jti = .ok token)
    {pem : String} (found : provider'.verificationKeys.get provider.current.kid = some pem)
    (same : SameKey crypto provider.current.publicPem pem) :
    (JwtTokenService.mk service provider').verify todecimal token now =
      if now > JwtService.fromTimestamp (JwtService.seconds (issuedAt + ttl)) + service.leeway then
        .error (.tokenExpired "token expired")
      else if now < JwtService.fromTimestamp (JwtService.seconds issuedAt) - service.leeway then
        .error (.tokenInvalid "token not yet valid")
      else .ok { principal with scopes := principal.scopes.flatMap words } := by
  have read := JwtService.verify_issued_eq now issued found same
  unfold verify
  dsimp only at read ⊢
  by_cases late : now > JwtService.fromTimestamp (JwtService.seconds (issuedAt + ttl)) + service.leeway
  · rw [if_pos late] at read ⊢
    rw [read]
  by_cases early : now < JwtService.fromTimestamp (JwtService.seconds issuedAt) - service.leeway
  · rw [if_neg late, if_pos early] at read ⊢
    rw [read]
  rw [if_neg late, if_neg early] at read ⊢
  rw [read]
  have type_kept : ([(principalTypeClaim, principal.principalType.value)].filter fun claim => claim.1 ∉ reservedClaims) =
      [(principalTypeClaim, principal.principalType.value)] := rfl
  have type_read : ([(principalTypeClaim, principal.principalType.value)].lookup principalTypeClaim).getD
      PrincipalType.user.value = principal.principalType.value := rfl
  dsimp only
  rw [type_kept, type_read, principalTypeOf_value, uuid_str, uuid_str, words_intercalate]

/-- Whoever's keys verify a token, they verify it as its principal, and in its time. -/
theorem verify_ok (issued : (JwtTokenService.mk service provider).issueAccessToken principal ttl issuedAt jti = .ok token)
    (verified : (JwtTokenService.mk service provider').verify todecimal token now = .ok read) :
    read = { principal with scopes := principal.scopes.flatMap words } ∧
      JwtService.fromTimestamp (JwtService.seconds issuedAt) - service.leeway ≤ now ∧
      now ≤ JwtService.fromTimestamp (JwtService.seconds (issuedAt + ttl)) + service.leeway := by
  obtain ⟨claims, accepted⟩ : ∃ claims, service.verify token provider'.verificationKeys now = .ok claims := by
    unfold verify at verified
    dsimp only at verified
    split at verified
    · cases verified
    · exact ⟨_, ‹_›⟩
  obtain ⟨pem, found, same⟩ := JwtService.verified_key issued accepted
  rw [verify_found issued found same] at verified
  split at verified
  · cases verified
  rename_i in_time
  split at verified
  · cases verified
  rename_i valid
  exact ⟨(Except.ok.inj verified).symm, not_lt.mp valid, not_lt.mp in_time⟩

end JwtTokenService

def toyPrincipal : ScopedPrincipal := ⟨⟨.apiKey, 7, 9⟩, [String.ofList ['t', 'o', 'o', 'l']]⟩

theorem toyPrincipal_words : ∀ scope ∈ toyPrincipal.scopes, IsWord scope := by
  intro scope hscope
  obtain rfl := List.mem_singleton.mp hscope
  refine ⟨by decide, ?_⟩
  rw [String.toList_ofList]
  simp [Str.isspace]

end LlmGateway.Auth
