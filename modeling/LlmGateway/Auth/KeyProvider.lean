import LlmGateway.Auth.Ports
import LlmGateway.Lib.Base64
import LlmGateway.Lib.Dict
import LlmGateway.Lib.Str
import Mathlib.Data.Nat.Digits.Lemmas

/-! Signing keys and their rotation, the published key set, and the tokens signed and verified with
them. -/
namespace LlmGateway.Auth
open Ledger Lib

inductive PublicKey where
  | rsa (n e : Nat)
  | other
  deriving DecidableEq, Repr

/-- What the code uses of `cryptography`: the keys inside PEM texts. -/
structure Cryptography where
  derivePublicPem : String → Option String
  loadPemPublicKey : String → Except String PublicKey

def Cryptography.publicNumbers (crypto : Cryptography) (pem : String) : Option (Nat × Nat) :=
  match crypto.loadPemPublicKey pem with
  | .ok (.rsa n e) => some (n, e)
  | _ => none

structure VerificationKey where
  kid : String
  publicPem : String
  deriving DecidableEq, Repr

/-- The public half is the one derived from the private half. -/
structure SigningKey (crypto : Cryptography) where
  kid : String
  privatePem : String
  publicPem : String
  derived : crypto.derivePublicPem privatePem = some publicPem

/-- What `rsa.generate_private_key` draws. -/
structure Generated (crypto : Cryptography) where
  privatePem : String
  publicPem : String
  derived : crypto.derivePublicPem privatePem = some publicPem
  isRsa : crypto.publicNumbers publicPem ≠ none

variable {crypto : Cryptography}

def SigningKey.toVerificationKey (key : SigningKey crypto) : VerificationKey := ⟨key.kid, key.publicPem⟩

def generateSigningKey (kid : String) (drawn : Generated crypto) : SigningKey crypto :=
  ⟨kid, drawn.privatePem, drawn.publicPem, drawn.derived⟩

/-! ### The published set -/

structure Jwk where
  kty : String := "RSA"
  use : String := "sig"
  alg : String := "RS256"
  kid : String
  n : String
  e : String
  deriving DecidableEq, Repr

/-- `value.to_bytes(length, "big")` of the least length. -/
def uintBytes (value : Nat) : List UInt8 := ((Nat.digits 256 value).map UInt8.ofNat).reverse

def b64urlUint (value : Nat) : String :=
  String.ofList ((Base64.encode (uintBytes value)).rdropWhile (· = '='))

/-- `strRepr` is `repr` of a string. -/
def toJwk (crypto : Cryptography) (strRepr : String → String) (key : VerificationKey) : Except String Jwk :=
  match crypto.loadPemPublicKey key.publicPem with
  | .error e => .error e
  | .ok .other => .error ("key " ++ strRepr key.kid ++ " is not an RSA public key")
  | .ok (.rsa n e) => .ok { kid := key.kid, n := b64urlUint n, e := b64urlUint e }

def buildJwks (crypto : Cryptography) (strRepr : String → String) (keys : List VerificationKey) :
    Except String (List Jwk) := keys.mapM (toJwk crypto strRepr)

/-! ### The provider -/

structure KeyProvider (crypto : Cryptography) where
  current : SigningKey crypto
  previous : List VerificationKey := []

namespace KeyProvider

def generate (kid : String) (drawn : Generated crypto) : KeyProvider crypto :=
  { current := generateSigningKey kid drawn }

def fromPem (crypto : Cryptography) (kid privatePem : String) (previous : List (String × String)) :
    Option (KeyProvider crypto) :=
  match h : crypto.derivePublicPem privatePem with
  | none => none
  | some publicPem =>
    some { current := ⟨kid, privatePem, publicPem, h⟩, previous := previous.map fun (k, pem) => ⟨k, pem⟩ }

/-- The current key and the previous ones. -/
def keys (provider : KeyProvider crypto) : List VerificationKey :=
  provider.current.toVerificationKey :: provider.previous

def verificationKeys (provider : KeyProvider crypto) : Dict String String :=
  provider.previous.foldl (fun keys key => keys.set key.kid key.publicPem)
    (Dict.empty.set provider.current.kid provider.current.publicPem)

def jwks (provider : KeyProvider crypto) (strRepr : String → String) : Except String (List Jwk) :=
  buildJwks crypto strRepr (provider.current.toVerificationKey :: provider.previous)

def rotate (provider : KeyProvider crypto) (newKid : String) (drawn : Generated crypto) : KeyProvider crypto :=
  { current := generateSigningKey newKid drawn
    previous := provider.current.toVerificationKey :: provider.previous }

end KeyProvider

/-! ### Tokens -/

structure Payload where
  iss : String
  aud : String
  sub : String
  org : String
  typ : String
  scope : String
  jti : String
  iat : Int
  nbf : Int
  exp : Int
  additional : List (String × String)
  deriving DecidableEq, Repr

/-- A value of a token's header, which anyone may have written. -/
inductive HeaderValue where
  | str (text : String)
  | other (shown : String)
  deriving DecidableEq, Repr

def HeaderValue.repr (strRepr : String → String) : HeaderValue → String
  | .str text => strRepr text
  | .other shown => shown

structure Header where
  alg : HeaderValue
  kid : HeaderValue

/-- The two PEM texts hold one RSA key. -/
def SameKey (crypto : Cryptography) (pem pem' : String) : Prop :=
  ∃ numbers, crypto.publicNumbers pem = some numbers ∧ crypto.publicNumbers pem' = some numbers

/-- What the service uses of PyJWT, with RS256: a token that was signed verifies exactly with the key
that matches. -/
structure Pyjwt (crypto : Cryptography) where
  Token : Type
  encode : Payload → String → String → Except String Token
  getUnverifiedHeader : Token → Except String Header
  decode : Token → String → String → String → Except String Payload
  header_encode : ∀ {payload privatePem kid token}, encode payload privatePem kid = .ok token →
    getUnverifiedHeader token = .ok ⟨.str "RS256", .str kid⟩
  decode_encode : ∀ {payload privatePem kid token publicPem}, encode payload privatePem kid = .ok token →
    crypto.derivePublicPem privatePem = some publicPem → ∀ pem claims,
      decode token pem payload.aud payload.iss = .ok claims ↔ SameKey crypto publicPem pem ∧ claims = payload

structure TokenClaims where
  subject : String
  organizationId : String
  tokenType : String
  scopes : List String
  jti : String
  issuedAt : Timestamp
  expiresAt : Timestamp
  additional : List (String × String)
  deriving DecidableEq, Repr

structure TokenRequest where
  subject : String
  organizationId : String
  tokenType : String
  scopes : List String
  ttl : Timestamp
  additionalClaims : List (String × String) := []

def reservedClaims : List String := ["iss", "aud", "sub", "org", "typ", "scope", "jti", "iat", "nbf", "exp"]

def allowedAlgorithms : List String := ["RS256"]

structure JwtService (crypto : Cryptography) where
  pyjwt : Pyjwt crypto
  issuer : String
  audience : String
  leeway : Timestamp
  strRepr : String → String

namespace JwtService
variable (service : JwtService crypto)

/-- `int(t.timestamp())`, which drops the fraction on either side of 1970. -/
def seconds (t : Timestamp) : Int := t.tdiv 1000000

def payload (request : TokenRequest) (now : Timestamp) (jti : String) : Payload where
  iss := service.issuer
  aud := service.audience
  sub := request.subject
  org := request.organizationId
  typ := request.tokenType
  scope := " ".intercalate request.scopes
  jti := jti
  iat := seconds now
  nbf := seconds now
  exp := seconds (now + request.ttl)
  additional := request.additionalClaims

def issue (signingKey : SigningKey crypto) (request : TokenRequest) (now : Timestamp) (jti : String) :
    Except String service.pyjwt.Token :=
  match request.additionalClaims.find? fun claim => claim.1 ∈ reservedClaims with
  | some (key, _) => .error ("additional claim " ++ service.strRepr key ++ " collides with a reserved claim")
  | none => service.pyjwt.encode (service.payload request now jti) signingKey.privatePem signingKey.kid

/-- `datetime.fromtimestamp(seconds)`. -/
def fromTimestamp (seconds : Int) : Timestamp := seconds * 1000000

def verify (token : service.pyjwt.Token) (verificationKeys : Dict String String) (now : Timestamp) :
    Except Raised TokenClaims :=
  match service.pyjwt.getUnverifiedHeader token with
  | .error _ => .error (.tokenInvalid "malformed token header")
  | .ok header =>
    if ∀ algorithm ∈ allowedAlgorithms, header.alg ≠ .str algorithm then
      .error (.tokenInvalid ("algorithm not allowed: " ++ header.alg.repr service.strRepr))
    else
      match header.kid with
      | .other _ => .error (.tokenInvalid "unknown or missing kid")
      | .str kid =>
        match verificationKeys.get kid with
        | none => .error (.tokenInvalid "unknown or missing kid")
        | some pem =>
          match service.pyjwt.decode token pem service.audience service.issuer with
          | .error message => .error (.tokenInvalid message)
          | .ok claims =>
            if now > fromTimestamp claims.exp + service.leeway then .error (.tokenExpired "token expired")
            else if now < fromTimestamp claims.nbf - service.leeway then
              .error (.tokenInvalid "token not yet valid")
            else
              .ok { subject := claims.sub
                    organizationId := claims.org
                    tokenType := claims.typ
                    scopes := (Str.split claims.scope.toList).map String.ofList
                    jti := claims.jti
                    issuedAt := fromTimestamp claims.iat
                    expiresAt := fromTimestamp claims.exp
                    additional := claims.additional.filter fun claim => claim.1 ∉ reservedClaims }

end JwtService

end LlmGateway.Auth
