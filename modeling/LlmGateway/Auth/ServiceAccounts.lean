import LlmGateway.Auth.Rotation
import LlmGateway.Auth.TokenService

/-! Client credentials of service accounts: how long what a credential obtained is good for once the credential
is revoked, in any run of the credential store, the token service and the key provider. -/
namespace LlmGateway.Auth
open Ledger Lib

structure ServiceAccountCredentialRecord (H : Type) where
  id : Uuid
  serviceAccountId : Uuid
  organizationId : OrgId
  clientId : String
  secretHash : H
  status : ApiKeyStatus
  expiresAt : Option Timestamp
  deriving DecidableEq, Repr

abbrev CredentialRow := ServiceAccountCredentialRecord Bytes

/-- `service_account_credential`, with its keys. -/
structure CredentialTable where
  rows : List CredentialRow
  clientId_unique : (rows.map (·.clientId)).Nodup
  id_unique : (rows.map (·.id)).Nodup

namespace CredentialTable
variable (σ : CredentialTable)

/-- `SqlServiceAccountCredentialRepository.add`; `none` where a key refuses the row. -/
def add (row : CredentialRow) : Option CredentialTable :=
  if h : (∀ other ∈ σ.rows, other.clientId ≠ row.clientId) ∧ ∀ other ∈ σ.rows, other.id ≠ row.id then
    some ⟨σ.rows ++ [row], Unique.nodup_concat σ.clientId_unique h.1, Unique.nodup_concat σ.id_unique h.2⟩
  else none

/-- `get_by_client_id`, among the rows the policy shows the tenant. -/
def getByClientId (bound : OrgId) (clientId : String) : Option (ServiceAccountCredentialRecord String) :=
  ((σ.rows.filter (·.organizationId = bound)).find? (·.clientId = clientId)).map
    fun row => { row with secretHash := toHex row.secretHash }

/-- What `revoke` makes of a row, if the policy shows it to the tenant. -/
def revokeRow (bound : OrgId) (credentialId : Uuid) (row : CredentialRow) : CredentialRow :=
  if row.organizationId = bound ∧ row.id = credentialId then { row with status := .revoked } else row

theorem revokeRow_clientId (bound : OrgId) (credentialId : Uuid) (row : CredentialRow) :
    (revokeRow bound credentialId row).clientId = row.clientId := by
  unfold revokeRow
  split <;> rfl

theorem revokeRow_id (bound : OrgId) (credentialId : Uuid) (row : CredentialRow) :
    (revokeRow bound credentialId row).id = row.id := by
  unfold revokeRow
  split <;> rfl

def revoke (bound : OrgId) (credentialId : Uuid) : CredentialTable where
  rows := σ.rows.map (revokeRow bound credentialId)
  clientId_unique := by
    rw [Unique.map_key_map (revokeRow_clientId bound credentialId)]
    exact σ.clientId_unique
  id_unique := by
    rw [Unique.map_key_map (revokeRow_id bound credentialId)]
    exact σ.id_unique

end CredentialTable

section
variable (sha256 : String → Bytes) {crypto : Cryptography}

/-- What `AuthenticateServiceAccount` finds wrong with the record it has looked up. -/
def checkCredential (record : Option (ServiceAccountCredentialRecord String)) (clientSecret : String) (now : Timestamp) :
    Except CredentialInvalid (ServiceAccountCredentialRecord String) :=
  match record with
  | none => .error ⟨"invalid client credentials"⟩
  | some record =>
    match checkSecret "invalid client credentials" "client credential expired" (record.status = .active) record.expiresAt
      now (verifySecret sha256 clientSecret record.secretHash) with
    | .error e => .error e
    | .ok () => .ok record

/-- The principal that its token is issued for. -/
def ServiceAccountCredentialRecord.principal {H : Type} (record : ServiceAccountCredentialRecord H) : ScopedPrincipal :=
  ⟨⟨.serviceAccount, record.serviceAccountId, record.organizationId⟩, []⟩

abbrev CredentialCallId := Nat

/-- A token, with the call that obtained it and the record it had looked up. -/
structure ObtainedToken (jwt : JwtService crypto) where
  call : CredentialCallId
  record : ServiceAccountCredentialRecord String
  issuedAt : Timestamp
  token : jwt.pyjwt.Token

/-- The store, the keys brought in so far, the calls that have looked their record up, and the tokens obtained. -/
structure CredentialState (jwt : JwtService crypto) where
  table : CredentialTable
  rotations : Rotations crypto
  calls : CredentialCallId → Option (Option (ServiceAccountCredentialRecord String) × String)
  obtained : List (ObtainedToken jwt)

inductive CredentialAction (crypto : Cryptography) where
  | add (row : CredentialRow)
  | revoke (bound : OrgId) (credentialId : Uuid)
  /-- A call reads its record. -/
  | lookUp (t : CredentialCallId) (bound : OrgId) (clientId clientSecret : String)
  /-- It checks the record and has a token issued. -/
  | issue (t : CredentialCallId) (issuedAt : Timestamp) (jti : String)
  | rotate (newKid : String) (drawn : Generated crypto)

variable (jwt : JwtService crypto) (provider : KeyProvider crypto) (accessTtl : Timestamp)

/-- One step, at a reading of the clock. -/
def CredentialState.step (s : CredentialState jwt) (now : Timestamp) : CredentialAction crypto → CredentialState jwt
  | .add row =>
    match s.table.add row with
    | some table => { s with table }
    | none => s
  | .revoke bound credentialId => { s with table := s.table.revoke bound credentialId }
  | .lookUp t bound clientId clientSecret =>
    { s with calls := Function.update s.calls t (some (s.table.getByClientId bound clientId, clientSecret)) }
  | .issue t issuedAt jti =>
    match s.calls t with
    | none => s
    | some (record, clientSecret) =>
      let s := { s with calls := Function.update s.calls t none }
      match checkCredential sha256 record clientSecret now with
      | .error _ => s
      | .ok record =>
        match (JwtTokenService.mk jwt (provider.rotateAll s.rotations)).issueAccessToken record.principal accessTtl
          issuedAt jti with
        | .error _ => s
        | .ok token => { s with obtained := s.obtained ++ [⟨t, record, issuedAt, token⟩] }
  | .rotate newKid drawn => { s with rotations := s.rotations ++ [(newKid, drawn)] }

def CredentialState.run (s : CredentialState jwt) (as : List (Timestamp × CredentialAction crypto)) : CredentialState jwt :=
  as.foldl (fun s a => s.step sha256 jwt provider accessTtl a.1 a.2) s

def CredentialState.start (table : CredentialTable) : CredentialState jwt := ⟨table, [], fun _ => none, []⟩

end

/-! ### Revocation -/

/-- The credential is there, and revoked. -/
def CredentialTable.Revoked (σ : CredentialTable) (id : Uuid) : Prop := ∃ row ∈ σ.rows, row.id = id ∧ row.status = .revoked

namespace CredentialTable
variable {σ σ' : CredentialTable} {id : Uuid}

theorem add_rows {row : CredentialRow} (h : σ.add row = some σ') : σ'.rows = σ.rows ++ [row] := by
  unfold add at h
  split at h
  · cases h
    rfl
  · cases h

theorem Revoked.add (revoked : σ.Revoked id) {row : CredentialRow} (h : σ.add row = some σ') : σ'.Revoked id := by
  obtain ⟨old, there, rest⟩ := revoked
  exact ⟨old, add_rows h ▸ List.mem_append_left _ there, rest⟩

theorem Revoked.revoke (revoked : σ.Revoked id) (bound : OrgId) (other : Uuid) : (σ.revoke bound other).Revoked id := by
  obtain ⟨row, there, hid, status⟩ := revoked
  refine ⟨_, List.mem_map_of_mem there, ?_⟩
  unfold revokeRow
  split
  · exact ⟨hid, rfl⟩
  · exact ⟨hid, status⟩

theorem revoked_revoke {bound : OrgId} {row : CredentialRow} (there : row ∈ σ.rows) (ho : row.organizationId = bound) :
    (σ.revoke bound row.id).Revoked row.id := by
  refine ⟨_, List.mem_map_of_mem there, ?_⟩
  rw [revokeRow, if_pos ⟨ho, rfl⟩]
  exact ⟨rfl, rfl⟩

/-- A revoked credential is looked up as such. -/
theorem Revoked.not_active (revoked : σ.Revoked id) {bound : OrgId} {clientId : String}
    {record : ServiceAccountCredentialRecord String} (found : σ.getByClientId bound clientId = some record)
    (hid : record.id = id) : record.status ≠ .active := by
  obtain ⟨row, there, rid, status⟩ := revoked
  obtain ⟨row', listed, rfl⟩ := Option.map_eq_some_iff.mp found
  have there' := (List.mem_filter.mp (List.mem_of_find?_eq_some listed)).1
  obtain rfl := Unique.key_inj σ.id_unique there' there (hid.trans rid.symm)
  rw [show ({ row' with secretHash := toHex row'.secretHash } : ServiceAccountCredentialRecord String).status =
    row'.status from rfl, status]
  decide

end CredentialTable

section
variable {sha256 : String → Bytes} {crypto : Cryptography} {jwt : JwtService crypto} {provider : KeyProvider crypto}
  {accessTtl : Timestamp} {s : CredentialState jwt} {now T : Timestamp} {id : Uuid} {a : CredentialAction crypto}

theorem checkCredential_ok {record : Option (ServiceAccountCredentialRecord String)} {clientSecret : String}
    {found : ServiceAccountCredentialRecord String} (h : checkCredential sha256 record clientSecret now = .ok found) :
    record = some found ∧ found.status = .active := by
  unfold checkCredential at h
  split at h
  · cases h
  split at h
  · cases h
  rename_i checked
  cases h
  exact ⟨rfl, of_decide_eq_true (checkSecret_ok.mp checked).1⟩

/-- Every token was issued for the principal of the record that its call had looked up. -/
def CredentialState.Issued (accessTtl : Timestamp) (s : CredentialState jwt) : Prop :=
  ∀ o ∈ s.obtained, ∃ keys jti,
    (JwtTokenService.mk jwt keys).issueAccessToken o.record.principal accessTtl o.issuedAt jti = .ok o.token

/-- In `s'`, whoever has the credential as active, or a token by it, had it in `s`, or the token. -/
structure CredentialState.HadIn (s : CredentialState jwt) (id : Uuid) (s' : CredentialState jwt) : Prop where
  calls : ∀ t record clientSecret, s'.calls t = some (some record, clientSecret) → record.id = id →
    record.status = .active → s.calls t = some (some record, clientSecret)
  obtained : ∀ o ∈ s'.obtained, o.record.id = id →
    o ∈ s.obtained ∨ ∃ clientSecret, s.calls o.call = some (some o.record, clientSecret)

namespace CredentialState

variable (sha256 provider accessTtl) in
/-- What a step does to the tokens obtained: nothing, or one more, of a call that had looked its record up. -/
theorem step_obtained (s : CredentialState jwt) (now : Timestamp) (a : CredentialAction crypto) :
    (s.step sha256 jwt provider accessTtl now a).obtained = s.obtained ∨
      ∃ t record clientSecret issuedAt keys jti token, s.calls t = some (some record, clientSecret) ∧
        record.status = .active ∧
        (JwtTokenService.mk jwt keys).issueAccessToken record.principal accessTtl issuedAt jti = .ok token ∧
        (s.step sha256 jwt provider accessTtl now a).obtained = s.obtained ++ [⟨t, record, issuedAt, token⟩] := by
  cases a with
  | add row =>
    left
    unfold step
    dsimp only
    split <;> rfl
  | revoke bound credentialId => exact .inl rfl
  | lookUp t bound clientId clientSecret => exact .inl rfl
  | rotate newKid drawn => exact .inl rfl
  | issue t issuedAt jti =>
    unfold step
    dsimp only
    split
    · exact .inl rfl
    rename_i record clientSecret called
    split
    · exact .inl rfl
    rename_i found checked
    obtain ⟨rfl, active⟩ := checkCredential_ok checked
    split
    · exact .inl rfl
    rename_i token issued
    exact .inr ⟨t, found, clientSecret, issuedAt, _, jti, token, called, active, issued, rfl⟩

theorem Issued.step (issued : s.Issued accessTtl) (now : Timestamp) (a : CredentialAction crypto) :
    (s.step sha256 jwt provider accessTtl now a).Issued accessTtl := by
  intro o ho
  rcases s.step_obtained sha256 provider accessTtl now a with
    same | ⟨t, record, clientSecret, issuedAt, keys, jti, token, -, -, signed, more⟩
  · exact issued o (same ▸ ho)
  · rw [more] at ho
    rcases List.mem_append.mp ho with earlier | added
    · exact issued o earlier
    · obtain rfl := List.mem_singleton.mp added
      exact ⟨keys, jti, signed⟩

theorem Issued.run (issued : s.Issued accessTtl) (as : List (Timestamp × CredentialAction crypto)) :
    (s.run sha256 jwt provider accessTtl as).Issued accessTtl := by
  induction as generalizing s with
  | nil => exact issued
  | cons a as ih => exact ih (issued.step a.1 a.2)

theorem Issued.start (table : CredentialTable) : (start jwt table).Issued accessTtl := by
  intro o ho
  cases ho

/-- What a step does to the calls: one may look its record up, the others go on or end. -/
theorem step_calls (s : CredentialState jwt) (now : Timestamp) (a : CredentialAction crypto) {t : CredentialCallId}
    {call : Option (ServiceAccountCredentialRecord String) × String}
    (h : (s.step sha256 jwt provider accessTtl now a).calls t = some call) :
    s.calls t = some call ∨ ∃ bound clientId clientSecret,
      call = (s.table.getByClientId bound clientId, clientSecret) := by
  cases a with
  | add row =>
    left
    unfold step at h
    dsimp only at h
    split at h <;> exact h
  | revoke bound credentialId => exact .inl h
  | rotate newKid drawn => exact .inl h
  | lookUp t' bound clientId clientSecret =>
    unfold step at h
    dsimp only at h
    by_cases ht : t = t'
    · rw [ht, Function.update_self] at h
      exact .inr ⟨bound, clientId, clientSecret, (Option.some.inj h).symm⟩
    · rw [Function.update_of_ne ht] at h
      exact .inl h
  | issue t' issuedAt jti =>
    left
    have ended : ∀ calls, calls = s.calls ∨ calls = Function.update s.calls t' none → calls t = some call →
        s.calls t = some call := by
      rintro calls (rfl | rfl) hc
      · exact hc
      · by_cases ht : t = t'
        · rw [ht, Function.update_self] at hc
          cases hc
        · rwa [Function.update_of_ne ht] at hc
    refine ended _ ?_ h
    unfold step
    dsimp only
    split
    · exact .inl rfl
    split
    · exact .inr rfl
    split <;> exact .inr rfl

theorem step_revoked (revoked : s.table.Revoked id) (now : Timestamp) (a : CredentialAction crypto) :
    (s.step sha256 jwt provider accessTtl now a).table.Revoked id := by
  cases a with
  | add row =>
    unfold step
    dsimp only
    split
    · rename_i table added
      exact revoked.add added
    · exact revoked
  | revoke bound credentialId => exact revoked.revoke bound credentialId
  | lookUp t bound clientId clientSecret => exact revoked
  | rotate newKid drawn => exact revoked
  | issue t issuedAt jti =>
    unfold step
    dsimp only
    split
    · exact revoked
    split
    · exact revoked
    split <;> exact revoked

/-- A revocation leaves the calls and the tokens as they are. -/
theorem HadIn.revoke (now : Timestamp) (bound : OrgId) (id : Uuid) :
    s.HadIn id (s.step sha256 jwt provider accessTtl now (.revoke bound id)) where
  calls _ _ _ h _ _ := h
  obtained _ ho _ := .inl ho

variable {s' : CredentialState jwt}

/-- Once it is revoked, nobody looks it up as active. -/
theorem HadIn.step (had : s.HadIn id s') (revoked : s'.table.Revoked id) (now : Timestamp) (a : CredentialAction crypto) :
    s.HadIn id (s'.step sha256 jwt provider accessTtl now a) := by
  constructor
  · intro t record clientSecret called hid active
    rcases s'.step_calls now a called with before | ⟨bound, clientId, secret, new⟩
    · exact had.calls t record clientSecret before hid active
    · exact absurd active (revoked.not_active (Prod.mk.inj new).1.symm hid)
  · intro o ho hid
    rcases s'.step_obtained sha256 provider accessTtl now a with
      same | ⟨t, record, clientSecret, issuedAt, keys, jti, token, called, active, -, more⟩
    · exact had.obtained o (same ▸ ho) hid
    · rw [more] at ho
      rcases List.mem_append.mp ho with earlier | added
      · exact had.obtained o earlier hid
      · obtain rfl := List.mem_singleton.mp added
        exact .inr ⟨clientSecret, had.calls t record clientSecret called hid active⟩

theorem HadIn.run (had : s.HadIn id s') (revoked : s'.table.Revoked id)
    (as : List (Timestamp × CredentialAction crypto)) : s.HadIn id (s'.run sha256 jwt provider accessTtl as) := by
  induction as generalizing s' with
  | nil => exact had
  | cons a as ih => exact ih (had.step revoked a.1 a.2) (step_revoked revoked a.1 a.2)

end CredentialState

/-- Once a credential is revoked, only calls that have looked it up by then obtain tokens with it, and no keys
verify one of them but as its service account, nor for longer than its time to live and the leeway. -/
theorem credential_revoked (sha256 : String → Bytes) (jwt : JwtService crypto) (provider : KeyProvider crypto)
    (accessTtl revokedAt : Timestamp) (table : CredentialTable) (before after : List (Timestamp × CredentialAction crypto))
    (s : CredentialState jwt) (hs : s = (CredentialState.start jwt table).run sha256 jwt provider accessTtl before)
    (row : CredentialRow) (there : row ∈ s.table.rows) :
    ∀ o ∈ (s.run sha256 jwt provider accessTtl
        ((revokedAt, .revoke row.organizationId row.id) :: after)).obtained, o.record.id = row.id →
      (o ∈ s.obtained ∨ ∃ clientSecret, s.calls o.call = some (some o.record, clientSecret)) ∧
      ∀ todecimal keys now principal, (JwtTokenService.mk jwt keys).verify todecimal o.token now = .ok principal →
        principal = o.record.principal ∧
          now ≤ JwtService.fromTimestamp (JwtService.seconds (o.issuedAt + accessTtl)) + jwt.leeway := by
  intro o ho hid
  have had : s.HadIn row.id (s.run sha256 jwt provider accessTtl
      ((revokedAt, .revoke row.organizationId row.id) :: after)) :=
    (CredentialState.HadIn.revoke revokedAt row.organizationId row.id).run (CredentialTable.revoked_revoke there rfl) after
  have issued : (s.run sha256 jwt provider accessTtl
      ((revokedAt, .revoke row.organizationId row.id) :: after)).Issued accessTtl :=
    (hs ▸ (CredentialState.Issued.start table).run before : s.Issued accessTtl).run _
  refine ⟨had.obtained o ho hid, fun todecimal keys now principal verified => ?_⟩
  obtain ⟨signing, jti, signed⟩ := issued o ho
  obtain ⟨rfl, -, in_time⟩ := JwtTokenService.verify_ok signed verified
  exact ⟨rfl, in_time⟩

end

/-- One credential, its secret hashed to its bytes. -/
def toyCredential : CredentialRow := ⟨7, 8, 9, "client", [115], .active, none⟩

def toyHash (secret : String) : Bytes := secret.toList.map fun c => UInt8.ofNat c.toNat

def toyCredentials : CredentialTable := ⟨[toyCredential], List.nodup_singleton _, List.nodup_singleton _⟩

/-- Two calls look the credential up, one before its revocation and one after; both then ask for a token. -/
def toyBefore : List (Timestamp × CredentialAction toyCrypto) := [(1000000, .lookUp 0 9 "client" "s")]

def toyAfter : List (Timestamp × CredentialAction toyCrypto) :=
  [(3000000, .lookUp 1 9 "client" "s"), (4000000, .issue 1 4000000 "b"), (5000000, .issue 0 5000000 "a")]

theorem credential_revoked_toy : ∃ o,
    ((CredentialState.start toyTokens toyCredentials).run toyHash toyTokens toyProvider 60000000
      (toyBefore ++ (2000000, .revoke 9 7) :: toyAfter)).obtained = [o] ∧ o.call = 0 ∧
      ∀ now principal, (JwtTokenService.mk toyTokens toyProvider).verify (fun _ => none) o.token now = .ok principal →
        principal.subjectId = 8 := by
  have revoked := credential_revoked toyHash toyTokens toyProvider 60000000 2000000 toyCredentials toyBefore toyAfter _ rfl
    toyCredential List.mem_cons_self
  refine ⟨_, rfl, rfl, fun now principal verified => ?_⟩
  rw [((revoked _ List.mem_cons_self rfl).2 _ _ now principal verified).1]
  rfl

end LlmGateway.Auth
