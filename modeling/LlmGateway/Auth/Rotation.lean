import Mathlib
import LlmGateway.Auth.KeyProvider

/-! Key rotation: which tokens a provider verifies, and which keys it publishes. -/
namespace LlmGateway.Auth
open Ledger Lib

theorem uintBytes_injective : Function.Injective uintBytes := by
  intro value value' h
  have same := List.reverse_injective h
  have small : ∀ n, ∀ d ∈ Nat.digits 256 n, (UInt8.ofNat d).toNat = d := by
    intro n d hd
    rw [UInt8.toNat_ofNat', Nat.mod_eq_of_lt (Nat.digits_lt_base (by decide) hd)]
  have read : ∀ n, ((Nat.digits 256 n).map UInt8.ofNat).map UInt8.toNat = Nat.digits 256 n := by
    intro n
    rw [List.map_map]
    conv_rhs => rw [← List.map_id (Nat.digits 256 n)]
    exact List.map_congr_left (small n)
  refine Nat.digits.injective 256 ?_
  rw [← read value, ← read value', same]

theorem b64urlUint_injective : Function.Injective b64urlUint := by
  intro value value' h
  have digits := String.ofList_injective h
  rw [Base64.rdropWhile_encode, Base64.rdropWhile_encode] at digits
  exact uintBytes_injective (Base64.digits_injective digits)

variable {crypto : Cryptography}

/-! ### The map of verification keys -/

private theorem foldl_set_mem {keys : List VerificationKey} {d : Dict String String} {kid pem : String}
    (h : (keys.foldl (fun keys key => keys.set key.kid key.publicPem) d).get kid = some pem) :
    ⟨kid, pem⟩ ∈ keys ∨ d.get kid = some pem := by
  induction keys generalizing d with
  | nil => exact .inr h
  | cons key rest ih =>
    rcases ih h with hrest | hset
    · exact .inl (List.mem_cons_of_mem _ hrest)
    · rw [Dict.get_set] at hset
      split at hset
      next hkid =>
        cases hset
        subst hkid
        exact .inl List.mem_cons_self
      next => exact .inr hset

private theorem foldl_set_present {keys : List VerificationKey} {d : Dict String String} {kid : String}
    (h : d.get kid ≠ none ∨ ∃ key ∈ keys, key.kid = kid) :
    (keys.foldl (fun keys key => keys.set key.kid key.publicPem) d).get kid ≠ none := by
  induction keys generalizing d with
  | nil =>
    rcases h with h | ⟨key, hkey, -⟩
    · exact h
    · cases hkey
  | cons key rest ih =>
    refine ih ?_
    rcases h with h | ⟨key', hkey', rfl⟩
    · left
      rw [Dict.get_set]
      split
      · exact Option.some_ne_none _
      · exact h
    · rcases List.mem_cons.mp hkey' with rfl | hrest
      · left
        rw [Dict.get_set, if_pos rfl]
        exact Option.some_ne_none _
      · exact .inr ⟨key', hrest, rfl⟩

namespace KeyProvider
variable {provider : KeyProvider crypto}

/-- The map holds only keys of the provider. -/
theorem verificationKeys_mem {kid pem : String} (h : provider.verificationKeys.get kid = some pem) :
    ⟨kid, pem⟩ ∈ provider.keys := by
  rcases foldl_set_mem h with hprevious | hcurrent
  · exact List.mem_cons_of_mem _ hprevious
  · rw [Dict.get_set] at hcurrent
    split at hcurrent
    next hkid =>
      cases hcurrent
      subst hkid
      exact List.mem_cons_self
    next => cases hcurrent

/-- Every kid of the provider is in the map. -/
theorem verificationKeys_present {key : VerificationKey} (h : key ∈ provider.keys) :
    ∃ pem, provider.verificationKeys.get key.kid = some pem := by
  refine Option.ne_none_iff_exists'.mp (foldl_set_present ?_)
  rcases List.mem_cons.mp h with rfl | hprevious
  · left
    rw [Dict.get_set]
    exact if_pos rfl ▸ Option.some_ne_none _
  · exact .inr ⟨key, hprevious, rfl⟩

/-- A provider is what `from_pem` makes of its parts. -/
theorem fromPem_parts (provider : KeyProvider crypto) :
    fromPem crypto provider.current.kid provider.current.privatePem
      (provider.previous.map fun key => (key.kid, key.publicPem)) = some provider := by
  obtain ⟨⟨kid, privatePem, publicPem, derived⟩, previous⟩ := provider
  unfold fromPem
  split
  next h => rw [derived] at h; cases h
  next publicPem' h =>
    obtain rfl := Option.some.inj (derived.symm.trans h)
    rw [List.map_map]
    exact congrArg (fun keys => some (KeyProvider.mk _ keys)) (List.map_id'' (fun _ => rfl) previous)

end KeyProvider

/-! ### Rotation -/

/-- The new kid of each rotation and the key drawn for it. -/
abbrev Rotations (crypto : Cryptography) := List (String × Generated crypto)

def KeyProvider.rotateAll (provider : KeyProvider crypto) (rotations : Rotations crypto) : KeyProvider crypto :=
  rotations.foldl (fun provider (newKid, drawn) => provider.rotate newKid drawn) provider

/-- The keys the rotations bring in. -/
def Rotations.keys (rotations : Rotations crypto) : List VerificationKey :=
  rotations.map fun (newKid, drawn) => ⟨newKid, drawn.publicPem⟩

/-- Nothing the provider ever held is forgotten. -/
theorem KeyProvider.mem_keys_rotateAll {provider : KeyProvider crypto} {rotations : Rotations crypto}
    {key : VerificationKey} :
    key ∈ (provider.rotateAll rotations).keys ↔ key ∈ provider.keys ∨ key ∈ Rotations.keys rotations := by
  induction rotations generalizing provider with
  | nil => exact (or_iff_left (List.not_mem_nil (a := key))).symm
  | cons rotation rest ih =>
    have rotated : (provider.rotateAll (rotation :: rest)).keys =
        ((provider.rotate rotation.1 rotation.2).rotateAll rest).keys := rfl
    have fresh : (provider.rotate rotation.1 rotation.2).keys =
        ⟨rotation.1, rotation.2.publicPem⟩ :: provider.keys := rfl
    have brought : Rotations.keys (rotation :: rest) =
        ⟨rotation.1, rotation.2.publicPem⟩ :: Rotations.keys rest := rfl
    rw [rotated, ih, fresh, brought, List.mem_cons, List.mem_cons, or_assoc, or_left_comm]

/-- Every key is an RSA key, and no kid names two. -/
structure Unambiguous (crypto : Cryptography) (keys : List VerificationKey) : Prop where
  rsa : ∀ key ∈ keys, crypto.publicNumbers key.publicPem ≠ none
  one : ∀ a ∈ keys, ∀ b ∈ keys, a.kid = b.kid → crypto.publicNumbers a.publicPem = crypto.publicNumbers b.publicPem

/-- The service's own checks of time pass for a token issued at `issuedAt`. -/
def JwtService.InTime (service : JwtService crypto) (request : TokenRequest) (issuedAt now : Timestamp) : Prop :=
  fromTimestamp (seconds issuedAt) - service.leeway ≤ now ∧
    now ≤ fromTimestamp (seconds (issuedAt + request.ttl)) + service.leeway

/-- What rotation promises of the provider it leads to: tokens of every signing key on the way verify,
and the published key of a kid is the one used for it. -/
structure RotationSafe (service : JwtService crypto) (provider : KeyProvider crypto)
    (rotations : Rotations crypto) : Prop where
  verifies : ∀ past future, rotations = past ++ future →
    ∀ request issuedAt jti token, service.issue (provider.rotateAll past).current request issuedAt jti = .ok token →
      ∀ now, service.InTime request issuedAt now →
        ∃ claims, service.verify token (provider.rotateAll rotations).verificationKeys now = .ok claims
  published : ∃ jwks, (provider.rotateAll rotations).jwks service.strRepr = .ok jwks ∧
    (∀ kid, (provider.rotateAll rotations).verificationKeys.get kid ≠ none → ∃ jwk ∈ jwks, jwk.kid = kid) ∧
    ∀ jwk ∈ jwks, ∃ pem n e, (provider.rotateAll rotations).verificationKeys.get jwk.kid = some pem ∧
      crypto.publicNumbers pem = some (n, e) ∧ jwk.n = b64urlUint n ∧ jwk.e = b64urlUint e

/-! ### The published set -/

private theorem toJwk_iff {strRepr : String → String} {key : VerificationKey} {jwk : Jwk} :
    toJwk crypto strRepr key = .ok jwk ↔ ∃ n e, crypto.publicNumbers key.publicPem = some (n, e) ∧
      jwk = { kid := key.kid, n := b64urlUint n, e := b64urlUint e } := by
  unfold toJwk Cryptography.publicNumbers
  rcases crypto.loadPemPublicKey key.publicPem with message | ⟨n, e⟩ | _
  · simp
  · constructor
    · rintro ⟨⟩
      exact ⟨n, e, rfl, rfl⟩
    · rintro ⟨n', e', hnumbers, rfl⟩
      cases hnumbers
      rfl
  · simp

private theorem buildJwks_cons {strRepr : String → String} {key : VerificationKey} {keys : List VerificationKey}
    {jwks : List Jwk} : buildJwks crypto strRepr (key :: keys) = .ok jwks ↔
      ∃ jwk rest, toJwk crypto strRepr key = .ok jwk ∧ buildJwks crypto strRepr keys = .ok rest ∧ jwks = jwk :: rest := by
  unfold buildJwks
  rw [List.mapM_cons]
  rcases toJwk crypto strRepr key with e | jwk
  · simp [bind, Except.bind]
  · rcases keys.mapM (toJwk crypto strRepr) with e | rest
    · simp [bind, Except.bind]
    · simp [bind, Except.bind, pure, Except.pure, eq_comm]

/-- One entry for each key, and no other. -/
private theorem buildJwks_mem {strRepr : String → String} {keys : List VerificationKey} {jwks : List Jwk}
    (h : buildJwks crypto strRepr keys = .ok jwks) :
    (∀ key ∈ keys, ∃ jwk ∈ jwks, toJwk crypto strRepr key = .ok jwk) ∧
      ∀ jwk ∈ jwks, ∃ key ∈ keys, toJwk crypto strRepr key = .ok jwk := by
  induction keys generalizing jwks with
  | nil =>
    cases h
    exact ⟨fun _ h => absurd h List.not_mem_nil, fun _ h => absurd h List.not_mem_nil⟩
  | cons key keys ih =>
    obtain ⟨jwk, rest, hjwk, hrest, rfl⟩ := buildJwks_cons.mp h
    obtain ⟨listed, from_key⟩ := ih hrest
    constructor
    · intro key' hkey'
      rcases List.mem_cons.mp hkey' with rfl | hkey'
      · exact ⟨jwk, List.mem_cons_self, hjwk⟩
      · obtain ⟨jwk', hjwk', heq⟩ := listed key' hkey'
        exact ⟨jwk', List.mem_cons_of_mem _ hjwk', heq⟩
    · intro jwk' hjwk'
      rcases List.mem_cons.mp hjwk' with rfl | hjwk'
      · exact ⟨key, List.mem_cons_self, hjwk⟩
      · obtain ⟨key', hkey', heq⟩ := from_key jwk' hjwk'
        exact ⟨key', List.mem_cons_of_mem _ hkey', heq⟩

private theorem buildJwks_rsa (strRepr : String → String) {keys : List VerificationKey}
    (h : ∀ key ∈ keys, crypto.publicNumbers key.publicPem ≠ none) :
    ∃ jwks, buildJwks crypto strRepr keys = .ok jwks := by
  induction keys with
  | nil => exact ⟨[], rfl⟩
  | cons key keys ih =>
    obtain ⟨rest, hrest⟩ := ih fun key' hkey' => h key' (List.mem_cons_of_mem _ hkey')
    obtain ⟨⟨n, e⟩, hnumbers⟩ := Option.ne_none_iff_exists'.mp (h key List.mem_cons_self)
    exact ⟨_, buildJwks_cons.mpr ⟨_, rest, toJwk_iff.mpr ⟨n, e, hnumbers, rfl⟩, hrest, rfl⟩⟩

/-! ### Tokens -/

namespace JwtService
variable {service : JwtService crypto} {signing : SigningKey crypto} {request : TokenRequest}
  {issuedAt now : Timestamp} {jti : String} {token : service.pyjwt.Token}

/-- A token verifies where its kid leads to the matching key. -/
theorem verify_issued (issued : service.issue signing request issuedAt jti = .ok token)
    (inTime : service.InTime request issuedAt now) {keys : Dict String String} {pem : String}
    (found : keys.get signing.kid = some pem) (same : SameKey crypto signing.publicPem pem) :
    ∃ claims, service.verify token keys now = .ok claims := by
  unfold issue at issued
  split at issued
  next => cases issued
  have header := service.pyjwt.header_encode issued
  have decoded := (service.pyjwt.decode_encode issued signing.derived pem _).mpr ⟨same, rfl⟩
  dsimp only [payload] at decoded
  obtain ⟨not_before, not_after⟩ := inTime
  unfold verify
  rw [header]
  dsimp only
  rw [if_neg (by simp [allowedAlgorithms]), found]
  dsimp only
  rw [decoded]
  dsimp only
  rw [if_neg (not_lt.mpr not_after), if_neg (not_lt.mpr not_before)]
  exact ⟨_, rfl⟩

end JwtService

section
variable {service : JwtService crypto} {provider : KeyProvider crypto} {rotations : Rotations crypto}

private theorem safe_of_unambiguous (h : Unambiguous crypto (provider.rotateAll rotations).keys) :
    RotationSafe service provider rotations := by
  constructor
  · intro past future split request issuedAt jti token issued now inTime
    have held : (provider.rotateAll past).current.toVerificationKey ∈ (provider.rotateAll rotations).keys := by
      have whole : provider.rotateAll rotations = (provider.rotateAll past).rotateAll future := by
        rw [split, KeyProvider.rotateAll, List.foldl_append]
        rfl
      rw [whole, KeyProvider.mem_keys_rotateAll]
      exact .inl List.mem_cons_self
    obtain ⟨pem, found⟩ := KeyProvider.verificationKeys_present held
    obtain ⟨numbers, hnumbers⟩ := Option.ne_none_iff_exists'.mp (h.rsa _ held)
    refine JwtService.verify_issued issued inTime found ⟨numbers, hnumbers, ?_⟩
    rw [← hnumbers]
    exact h.one _ (KeyProvider.verificationKeys_mem found) _ held rfl
  · obtain ⟨jwks, hjwks⟩ := buildJwks_rsa service.strRepr h.rsa
    obtain ⟨listed, from_key⟩ := buildJwks_mem hjwks
    refine ⟨jwks, hjwks, fun kid hkid => ?_, fun jwk hjwk => ?_⟩
    · obtain ⟨pem, found⟩ := Option.ne_none_iff_exists'.mp hkid
      obtain ⟨jwk, hjwk, heq⟩ := listed _ (KeyProvider.verificationKeys_mem found)
      obtain ⟨n, e, -, rfl⟩ := toJwk_iff.mp heq
      exact ⟨_, hjwk, rfl⟩
    · obtain ⟨key, hkey, heq⟩ := from_key jwk hjwk
      obtain ⟨n, e, hnumbers, rfl⟩ := toJwk_iff.mp heq
      obtain ⟨pem, found⟩ := KeyProvider.verificationKeys_present hkey
      refine ⟨pem, n, e, found, ?_, rfl, rfl⟩
      rw [← hnumbers]
      exact h.one _ (KeyProvider.verificationKeys_mem found) _ hkey rfl

private theorem unambiguous_of_safe (h : RotationSafe service provider rotations) :
    Unambiguous crypto (provider.rotateAll rotations).keys := by
  obtain ⟨jwks, hjwks, -, used⟩ := h.published
  obtain ⟨listed, -⟩ := buildJwks_mem hjwks
  -- what is published under a key's kid is the key the map holds
  have agrees : ∀ key ∈ (provider.rotateAll rotations).keys, ∃ pem numbers,
      (provider.rotateAll rotations).verificationKeys.get key.kid = some pem ∧
        crypto.publicNumbers pem = some numbers ∧ crypto.publicNumbers key.publicPem = some numbers := by
    intro key hkey
    obtain ⟨jwk, hjwk, heq⟩ := listed key hkey
    obtain ⟨n, e, hnumbers, rfl⟩ := toJwk_iff.mp heq
    obtain ⟨pem, n', e', found, hpem, hn, he⟩ := used _ hjwk
    rw [b64urlUint_injective hn, b64urlUint_injective he] at hnumbers
    exact ⟨pem, _, found, hpem, hnumbers⟩
  constructor
  · intro key hkey
    obtain ⟨_, _, _, _, hnumbers⟩ := agrees key hkey
    exact hnumbers ▸ Option.some_ne_none _
  · intro a ha b hb hkid
    obtain ⟨pem, numbers, hfound, hpem, ha⟩ := agrees a ha
    obtain ⟨pem', numbers', hfound', hpem', hb⟩ := agrees b hb
    rw [hkid] at hfound
    cases hfound.symm.trans hfound'
    rw [ha, hb, ← hpem, ← hpem']

end

/-- Rotation is safe exactly when no kid is used for two keys. -/
theorem rotation_safe (service : JwtService crypto) (provider : KeyProvider crypto)
    (rotations : Rotations crypto) : RotationSafe service provider rotations ↔
      Unambiguous crypto (provider.keys ++ Rotations.keys rotations) := by
  have same : ∀ key, key ∈ provider.keys ++ Rotations.keys rotations ↔ key ∈ (provider.rotateAll rotations).keys := by
    intro key
    rw [List.mem_append, KeyProvider.mem_keys_rotateAll]
  constructor
  · intro h
    obtain ⟨rsa, one⟩ := unambiguous_of_safe h
    exact ⟨fun key hkey => rsa key ((same key).mp hkey),
      fun a ha b hb => one a ((same a).mp ha) b ((same b).mp hb)⟩
  · intro ⟨rsa, one⟩
    exact safe_of_unambiguous ⟨fun key hkey => rsa key ((same key).mpr hkey),
      fun a ha b hb => one a ((same a).mpr ha) b ((same b).mpr hb)⟩

/-! A provider rotated to the kid it has: the new key's tokens are checked with the old key. -/

private def toyCryptography : Cryptography where
  derivePublicPem := some
  loadPemPublicKey pem := .ok (.rsa pem.length 65537)

private def toyKey (pem : String) : Generated toyCryptography := ⟨pem, pem, rfl, Option.some_ne_none _⟩

private def toyPyjwt : Pyjwt toyCryptography where
  Token := Payload × String × String
  encode payload privatePem kid := .ok (payload, privatePem, kid)
  getUnverifiedHeader token := .ok ⟨.str "RS256", .str token.2.2⟩
  decode token pem audience issuer :=
    if token.2.1.length = pem.length ∧ token.1.aud = audience ∧ token.1.iss = issuer then .ok token.1
    else .error "Signature verification failed"
  header_encode := by
    rintro _ _ _ _ ⟨⟩
    rfl
  decode_encode := by
    rintro payload publicPem _ _ _ ⟨⟩ ⟨⟩ pem claims
    have same : SameKey toyCryptography publicPem pem ↔ publicPem.length = pem.length := by
      constructor
      · rintro ⟨numbers, h, h'⟩
        exact congrArg Prod.fst (Option.some.inj (h.trans h'.symm))
      · intro h
        exact ⟨(pem.length, 65537), by rw [← h]; rfl, rfl⟩
    rw [same]
    split
    next h => simp [h.1, eq_comm]
    next h => simpa using fun hl => absurd hl (by simpa using h)

private def toyService : JwtService toyCryptography where
  pyjwt := toyPyjwt
  issuer := "gateway"
  audience := "gateway"
  leeway := 60000000
  strRepr := id

theorem rotation_reused_kid : ¬ RotationSafe toyService (KeyProvider.generate "gateway-1" (toyKey "first"))
    [("gateway-1", toyKey "another")] := by
  intro h
  obtain ⟨claims, verified⟩ := h.verifies [("gateway-1", toyKey "another")] [] rfl
    ⟨"subject", "org", "user", [], 900000000, []⟩ 0 "jti" _ rfl 0 ⟨by decide, by decide⟩
  cases verified

/-- The toy service, and a provider that holds one of its keys. -/
abbrev toyCrypto : Cryptography := toyCryptography

def toyTokens : JwtService toyCrypto := toyService

def toyProvider : KeyProvider toyCrypto := KeyProvider.generate "gateway-1" (toyKey "first")

theorem toyProvider_unambiguous :
    Unambiguous toyCrypto (toyProvider.keys ++ Rotations.keys ([] : Rotations toyCrypto)) where
  rsa key hkey := by
    obtain rfl := List.mem_singleton.mp hkey
    exact Option.some_ne_none (α := Nat × Nat) _
  one a ha b hb _ := by
    obtain rfl := List.mem_singleton.mp ha
    obtain rfl := List.mem_singleton.mp hb
    rfl

end LlmGateway.Auth
