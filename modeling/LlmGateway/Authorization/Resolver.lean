import LlmGateway.Auth.ApiKeys
import Mathlib.Data.Finset.Dedup

/-! What a principal may do in an organization, resolved from role assignments and key scopes. -/
namespace LlmGateway.Authorization
open Ledger Auth Lib

inductive MembershipStatus where
  | invited
  | active
  | disabled
  deriving DecidableEq, Repr

structure MembershipRow where
  organizationId : OrgId
  userId : Option Uuid
  serviceAccountId : Option Uuid
  roleId : Uuid
  status : MembershipStatus
  deriving DecidableEq, Repr

/-- A role of no organization is a system role. -/
structure RoleRow where
  id : Uuid
  organizationId : Option OrgId
  key : String
  deriving DecidableEq, Repr

structure PermissionRow where
  id : Uuid
  key : String
  deriving DecidableEq, Repr

structure RolePermissionRow where
  roleId : Uuid
  permissionId : Uuid
  deriving DecidableEq, Repr

/-- The tables the resolver reads, with the key of the roles. -/
structure RbacTables where
  memberships : List MembershipRow
  roles : List RoleRow
  rolePermissions : List RolePermissionRow
  permissions : List PermissionRow
  apiKeyScopes : List ApiKeyScopeRow
  role_unique : (roles.map (·.id)).Nodup

def MembershipRow.isOf (row : MembershipRow) (principalId : Uuid) : Prop :=
  row.userId = some principalId ∨ row.serviceAccountId = some principalId

instance (row : MembershipRow) (principalId : Uuid) : Decidable (row.isOf principalId) :=
  inferInstanceAs (Decidable (_ ∨ _))

namespace RbacTables
variable (σ : RbacTables)

/-- The keys a role carries. -/
def permissionsOf (roleId : Uuid) : List String :=
  (σ.rolePermissions.filter (·.roleId = roleId)).flatMap fun granted =>
    (σ.permissions.filter (·.id = granted.permissionId)).map (·.key)

/-- `role_granted`: from the memberships the policy shows the tenant, by way of system roles and its own. -/
def roleGranted (principalId : Uuid) (organizationId : OrgId) : List String :=
  ((σ.memberships.filter (·.organizationId = organizationId)).filter fun row =>
      row.status = .active ∧ row.isOf principalId).flatMap fun row =>
    (σ.roles.filter fun role => role.id = row.roleId ∧
      (role.organizationId = none ∨ role.organizationId = some organizationId)).flatMap fun role =>
        σ.permissionsOf role.id

/-- `key_granted`, from the scopes the policy shows the tenant. -/
def keyGranted (principalId : Uuid) (organizationId : OrgId) : List String :=
  ((σ.apiKeyScopes.filter (·.organizationId = organizationId)).filter (·.apiKeyId = principalId)).map (·.scope)

end RbacTables

/-- `SqlPermissionResolver.resolve`. A store that cannot be read grants nothing. -/
def SqlPermissionResolver.resolve (read : Except String RbacTables) (principalId : Uuid) (organizationId : OrgId) :
    Finset String :=
  match read with
  | .error _ => ∅
  | .ok σ => (σ.roleGranted principalId organizationId ++ σ.keyGranted principalId organizationId).toFinset

/-! ### Who holds what -/

/-- A principal holds a key through an active membership in a role that is the system's or the organization's
own, or as a scope of the API key it is. -/
inductive Holds (σ : RbacTables) (principalId : Uuid) (organizationId : OrgId) (key : String) : Prop where
  | role {row : MembershipRow} {role : RoleRow} {granted : RolePermissionRow} {permission : PermissionRow}
      (member : row ∈ σ.memberships) (here : row.organizationId = organizationId) (active : row.status = .active)
      (mine : row.isOf principalId) (there : role ∈ σ.roles) (same : role.id = row.roleId)
      (own : role.organizationId = none ∨ role.organizationId = some organizationId)
      (grant : granted ∈ σ.rolePermissions) (carries : granted.roleId = role.id)
      (known : permission ∈ σ.permissions) (named : permission.id = granted.permissionId) (hkey : permission.key = key)
  | scope {row : ApiKeyScopeRow} (there : row ∈ σ.apiKeyScopes) (here : row.organizationId = organizationId)
      (mine : row.apiKeyId = principalId) (hkey : row.scope = key)

theorem RbacTables.mem_permissionsOf {σ : RbacTables} {roleId : Uuid} {key : String} :
    key ∈ σ.permissionsOf roleId ↔ ∃ granted ∈ σ.rolePermissions, granted.roleId = roleId ∧
      ∃ permission ∈ σ.permissions, permission.id = granted.permissionId ∧ permission.key = key := by
  simp [permissionsOf, and_assoc]

theorem mem_resolve {σ : RbacTables} {principalId : Uuid} {organizationId : OrgId} {key : String} :
    key ∈ SqlPermissionResolver.resolve (.ok σ) principalId organizationId ↔ Holds σ principalId organizationId key := by
  rw [SqlPermissionResolver.resolve, List.mem_toFinset, List.mem_append]
  constructor
  · rintro (by_role | by_scope)
    · simp only [RbacTables.roleGranted, List.mem_flatMap, List.mem_filter, decide_eq_true_eq] at by_role
      obtain ⟨row, ⟨⟨member, here⟩, active, mine⟩, role, ⟨there, same, own⟩, carried⟩ := by_role
      obtain ⟨granted, grant, carries, permission, known, named, hkey⟩ := RbacTables.mem_permissionsOf.mp carried
      exact .role member here active mine there same own grant carries known named hkey
    · simp only [RbacTables.keyGranted, List.mem_map, List.mem_filter, decide_eq_true_eq] at by_scope
      obtain ⟨row, ⟨⟨there, here⟩, mine⟩, hkey⟩ := by_scope
      exact .scope there here mine hkey
  · intro holds
    cases holds with
    | role member here active mine there same own grant carries known named hkey =>
      left
      simp only [RbacTables.roleGranted, List.mem_flatMap, List.mem_filter, decide_eq_true_eq]
      exact ⟨_, ⟨⟨member, here⟩, active, mine⟩, _, ⟨there, same, own⟩,
        RbacTables.mem_permissionsOf.mpr ⟨_, grant, carries, _, known, named, hkey⟩⟩
    | scope there here mine hkey =>
      right
      simp only [RbacTables.keyGranted, List.mem_map, List.mem_filter, decide_eq_true_eq]
      exact ⟨_, ⟨⟨there, here⟩, mine⟩, hkey⟩

/-! ### Writes of other organizations -/

/-- A write to the tables; a role is written with what it carries. -/
inductive RbacWrite where
  | addMembership (row : MembershipRow)
  | removeMembership (row : MembershipRow)
  | addScope (row : ApiKeyScopeRow)
  | removeScope (row : ApiKeyScopeRow)
  | addRole (role : RoleRow)
  | grant (role : RoleRow) (permissionId : Uuid)
  | revoke (role : RoleRow) (permissionId : Uuid)
  deriving DecidableEq

/-- Whose row it writes; a system role is no organization's. -/
def RbacWrite.organizationId : RbacWrite → Option OrgId
  | .addMembership row | .removeMembership row => some row.organizationId
  | .addScope row | .removeScope row => some row.organizationId
  | .addRole role | .grant role _ | .revoke role _ => role.organizationId

/-- A role, where its id is new. -/
def RbacTables.insertRole (σ : RbacTables) (role : RoleRow) : Option RbacTables :=
  if h : ∀ other ∈ σ.roles, other.id ≠ role.id then
    some { σ with roles := role :: σ.roles, role_unique := Unique.nodup_cons σ.role_unique h }
  else none

/-- The write, where the constraints allow it: a role's id is new, and a grant names a role that is there. -/
def RbacTables.write (σ : RbacTables) : RbacWrite → RbacTables
  | .addMembership row => { σ with memberships := row :: σ.memberships }
  | .removeMembership row => { σ with memberships := σ.memberships.filter (· ≠ row) }
  | .addScope row => { σ with apiKeyScopes := row :: σ.apiKeyScopes }
  | .removeScope row => { σ with apiKeyScopes := σ.apiKeyScopes.filter (· ≠ row) }
  | .addRole role => (σ.insertRole role).getD σ
  | .grant role permissionId =>
    if role ∈ σ.roles then { σ with rolePermissions := ⟨role.id, permissionId⟩ :: σ.rolePermissions } else σ
  | .revoke role permissionId =>
    if role ∈ σ.roles then { σ with rolePermissions := σ.rolePermissions.filter (· ≠ ⟨role.id, permissionId⟩) } else σ

/-- The write is to a row of another organization. -/
def RbacWrite.Foreign (A : OrgId) (write : RbacWrite) : Prop :=
  ∃ B, write.organizationId = some B ∧ B ≠ A

/-- The same memberships, roles, grants and scopes, as far as the organization's principals go. -/
structure SameFor (A : OrgId) (σ σ' : RbacTables) : Prop where
  memberships : ∀ row : MembershipRow, row.organizationId = A → (row ∈ σ'.memberships ↔ row ∈ σ.memberships)
  apiKeyScopes : ∀ row : ApiKeyScopeRow, row.organizationId = A → (row ∈ σ'.apiKeyScopes ↔ row ∈ σ.apiKeyScopes)
  roles : ∀ role : RoleRow, role.organizationId = none ∨ role.organizationId = some A → (role ∈ σ'.roles ↔ role ∈ σ.roles)
  grants : ∀ role ∈ σ.roles, role.organizationId = none ∨ role.organizationId = some A →
    ∀ permissionId, ⟨role.id, permissionId⟩ ∈ σ'.rolePermissions ↔ ⟨role.id, permissionId⟩ ∈ σ.rolePermissions
  permissions : σ'.permissions = σ.permissions

section Foreign
variable {A : OrgId} {σ σ' : RbacTables}

theorem SameFor.refl (A : OrgId) (σ : RbacTables) : SameFor A σ σ :=
  ⟨fun _ _ => .rfl, fun _ _ => .rfl, fun _ _ => .rfl, fun _ _ _ _ => .rfl, rfl⟩

/-- A role of another organization is none that the organization's principals have. -/
private theorem role_ne {role role' : RoleRow} {B : OrgId} (foreign : role.organizationId = some B) (hne : B ≠ A)
    (own : role'.organizationId = none ∨ role'.organizationId = some A) : role' ≠ role := by
  rintro rfl
  rcases own with none | some
  · cases foreign.symm.trans none
  · exact hne (Option.some.inj (foreign.symm.trans some))

/-- Grants to a role of another organization are none to the organization's. -/
private theorem grant_ne {role role' : RoleRow} {B : OrgId} (foreign : role.organizationId = some B) (hne : B ≠ A)
    (there : role ∈ σ.roles) (there' : role' ∈ σ.roles)
    (own : role'.organizationId = none ∨ role'.organizationId = some A) (p p' : Uuid) :
    (⟨role'.id, p'⟩ : RolePermissionRow) ≠ ⟨role.id, p⟩ := by
  intro same
  obtain ⟨same, -⟩ := RolePermissionRow.mk.inj same
  exact role_ne foreign hne own (Lib.Unique.key_inj σ.role_unique there' there same)

theorem sameFor_write {write : RbacWrite} (foreign : write.Foreign A) : SameFor A σ (σ.write write) := by
  obtain ⟨B, horg, hne⟩ := foreign
  cases write with
  | addMembership row =>
    refine { SameFor.refl A σ with memberships := fun row' hrow' => ?_ }
    have other : row' ≠ row := by
      rintro rfl
      exact hne (Option.some.inj (horg.symm.trans (congrArg some hrow')))
    simp [RbacTables.write, other]
  | removeMembership row =>
    refine { SameFor.refl A σ with memberships := fun row' hrow' => ?_ }
    have other : row' ≠ row := by
      rintro rfl
      exact hne (Option.some.inj (horg.symm.trans (congrArg some hrow')))
    simp [RbacTables.write, other]
  | addScope row =>
    refine { SameFor.refl A σ with apiKeyScopes := fun row' hrow' => ?_ }
    have other : row' ≠ row := by
      rintro rfl
      exact hne (Option.some.inj (horg.symm.trans (congrArg some hrow')))
    simp [RbacTables.write, other]
  | removeScope row =>
    refine { SameFor.refl A σ with apiKeyScopes := fun row' hrow' => ?_ }
    have other : row' ≠ row := by
      rintro rfl
      exact hne (Option.some.inj (horg.symm.trans (congrArg some hrow')))
    simp [RbacTables.write, other]
  | addRole role =>
    unfold RbacTables.write RbacTables.insertRole
    dsimp only
    split
    · refine { SameFor.refl A σ with roles := fun role' own => ?_ }
      simp [role_ne horg hne own]
    · exact SameFor.refl A σ
  | grant role permissionId =>
    unfold RbacTables.write
    dsimp only
    split
    · rename_i there
      refine { SameFor.refl A σ with grants := fun role' there' own p => ?_ }
      rw [List.mem_cons, or_iff_right (grant_ne horg hne there there' own permissionId p)]
    · exact SameFor.refl A σ
  | revoke role permissionId =>
    unfold RbacTables.write
    dsimp only
    split
    · rename_i there
      refine { SameFor.refl A σ with grants := fun role' there' own p => ?_ }
      rw [List.mem_filter, and_iff_left (decide_eq_true (grant_ne horg hne there there' own permissionId p))]
    · exact SameFor.refl A σ

theorem SameFor.holds (same : SameFor A σ σ') {principalId : Uuid} {key : String} :
    Holds σ' principalId A key ↔ Holds σ principalId A key := by
  constructor
  · intro holds
    cases holds with
    | @role row role granted permission member here active mine there hid own grant carries known named hkey =>
      have there₀ := (same.roles role own).mp there
      have grant₀ : granted ∈ σ.rolePermissions := by
        obtain ⟨roleId, permissionId⟩ := granted
        obtain rfl : roleId = role.id := carries
        exact (same.grants role there₀ own permissionId).mp grant
      exact .role ((same.memberships row here).mp member) here active mine there₀ hid own grant₀ carries
        (same.permissions ▸ known) named hkey
    | scope there here mine hkey => exact .scope ((same.apiKeyScopes _ here).mp there) here mine hkey
  · intro holds
    cases holds with
    | @role row role granted permission member here active mine there hid own grant carries known named hkey =>
      have grant₁ : granted ∈ σ'.rolePermissions := by
        obtain ⟨roleId, permissionId⟩ := granted
        obtain rfl : roleId = role.id := carries
        exact (same.grants role there own permissionId).mpr grant
      exact .role ((same.memberships row here).mpr member) here active mine ((same.roles role own).mpr there) hid own
        grant₁ carries (same.permissions.symm ▸ known) named hkey
    | scope there here mine hkey => exact .scope ((same.apiKeyScopes _ here).mpr there) here mine hkey

end Foreign

/-- No series of writes to other organizations' memberships, scopes and roles, nor a grant to their roles, gives
or takes anything here, even where a membership here names one of their roles. -/
theorem resolve_confined (A : OrgId) (σ : RbacTables) (writes : List RbacWrite) (foreign : ∀ write ∈ writes, write.Foreign A)
    (principalId : Uuid) : SqlPermissionResolver.resolve (.ok (writes.foldl RbacTables.write σ)) principalId A =
      SqlPermissionResolver.resolve (.ok σ) principalId A := by
  induction writes generalizing σ with
  | nil => rfl
  | cons write writes ih =>
    rw [List.foldl_cons, ih _ fun w hw => foreign w (List.mem_cons_of_mem _ hw)]
    ext key
    rw [mem_resolve, mem_resolve, (sameFor_write (foreign write List.mem_cons_self)).holds]

/-- A member of the second organization in a role of the first. -/
def crossTenant : RbacTables :=
  ⟨[⟨2, some 7, none, 5, .active⟩], [⟨5, some 1, "custom"⟩], [], [⟨6, "audit:read"⟩], [], List.nodup_singleton _⟩

theorem resolve_confined_cross :
    SqlPermissionResolver.resolve (.ok (crossTenant.write (.grant ⟨5, some 1, "custom"⟩ 6))) 7 2 =
      SqlPermissionResolver.resolve (.ok crossTenant) 7 2 :=
  resolve_confined 2 crossTenant [.grant ⟨5, some 1, "custom"⟩ 6]
    (by
      intro write h
      obtain rfl := List.mem_singleton.mp h
      exact ⟨1, rfl, by decide⟩) 7

end LlmGateway.Authorization
