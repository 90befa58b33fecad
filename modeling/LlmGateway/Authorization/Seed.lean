import LlmGateway.Authorization.Resolver

/-! The permissions, the system roles and the matrix a migration seeds. -/
namespace LlmGateway.Authorization
open Ledger Auth Lib

def catalog : List String :=
  ["tenant:manage", "team:manage", "member:invite", "key:issue", "key:revoke", "provider:write", "model:write",
    "routing:write", "policy:write", "budget:write", "budget:read", "usage:read", "audit:read", "inference:invoke"]

def systemRoles : List String := ["owner", "admin", "operator", "finance", "auditor", "developer"]

/-- Which permission each system role is granted. -/
def matrix : List (String × String) :=
  [("owner", "tenant:manage"), ("owner", "team:manage"), ("owner", "member:invite"), ("owner", "key:issue"),
    ("owner", "key:revoke"), ("owner", "provider:write"), ("owner", "model:write"), ("owner", "routing:write"),
    ("owner", "policy:write"), ("owner", "budget:write"), ("owner", "budget:read"), ("owner", "usage:read"),
    ("owner", "audit:read"),
    ("admin", "team:manage"), ("admin", "member:invite"), ("admin", "key:issue"), ("admin", "key:revoke"),
    ("admin", "provider:write"), ("admin", "model:write"), ("admin", "routing:write"), ("admin", "policy:write"),
    ("admin", "budget:write"), ("admin", "budget:read"), ("admin", "usage:read"), ("admin", "audit:read"),
    ("operator", "provider:write"), ("operator", "model:write"), ("operator", "routing:write"),
    ("operator", "policy:write"), ("operator", "budget:read"), ("operator", "usage:read"),
    ("finance", "budget:write"), ("finance", "budget:read"), ("finance", "usage:read"),
    ("auditor", "budget:read"), ("auditor", "usage:read"), ("auditor", "audit:read"),
    ("developer", "budget:read"), ("developer", "usage:read")]

/-- The ids drawn for the rows of one run. -/
structure Draws where
  permission : String → Uuid
  role : String → Uuid

def RoleRow.isSystem (row : RoleRow) (key : String) : Prop := row.organizationId = none ∧ row.key = key

instance (row : RoleRow) (key : String) : Decidable (row.isSystem key) := inferInstanceAs (Decidable (_ ∧ _))

namespace RbacTables

/-- A row with its id drawn; the key of the table may refuse it. -/
def insertPermission (σ : RbacTables) (row : PermissionRow) : Option RbacTables :=
  if ∃ other ∈ σ.permissions, other.id = row.id then none
  else some { σ with permissions := σ.permissions ++ [row] }

/-- `INSERT INTO permission … ON CONFLICT (key) DO NOTHING`, one row. -/
def seedPermission (draws : Draws) (σ : RbacTables) (key : String) : Option RbacTables :=
  if key ∈ σ.permissions.map (·.key) then some σ else σ.insertPermission ⟨draws.permission key, key⟩

/-- `INSERT INTO role … WHERE NOT EXISTS`, one row; no two of the statement's rows have one key. -/
def seedRole (draws : Draws) (σ : RbacTables) (key : String) : Option RbacTables :=
  if ∃ row ∈ σ.roles, row.isSystem key then some σ else σ.insertRole ⟨draws.role key, none, key⟩

/-- The matrix, joined with the system roles and the permissions of its keys. -/
def granted (σ : RbacTables) : List RolePermissionRow :=
  matrix.flatMap fun cell =>
    (σ.roles.filter (·.isSystem cell.1)).flatMap fun role =>
      (σ.permissions.filter (·.key = cell.2)).map fun permission => ⟨role.id, permission.id⟩

/-- `INSERT INTO role_permission … ON CONFLICT (role_id, permission_id) DO NOTHING`. -/
def seedGrants (σ : RbacTables) : RbacTables :=
  { σ with rolePermissions := σ.granted.foldl (fun rows row => if row ∈ rows then rows else rows ++ [row]) σ.rolePermissions }

/-- The seeding statements of the migration. It fails as a whole when a drawn id is taken. -/
def seed (draws : Draws) (σ : RbacTables) : Option RbacTables := do
  let σ ← catalog.foldlM (seedPermission draws) σ
  let σ ← systemRoles.foldlM (seedRole draws) σ
  return σ.seedGrants

end RbacTables

/-- The roles under `role_scope_key`, which does not compare those of no organization. -/
def RbacTables.scopedRoles (σ : RbacTables) : List RoleRow := σ.roles.filter (·.organizationId.isSome)

/-- The keys and references of the tables hold. -/
structure Constrained (σ : RbacTables) : Prop where
  ids : (σ.permissions.map (·.id)).Nodup
  keys : (σ.permissions.map (·.key)).Nodup
  role_scope_key : (σ.scopedRoles.map fun role => (role.organizationId, role.key)).Nodup
  grants : σ.rolePermissions.Nodup
  references : ∀ row ∈ σ.rolePermissions, (∃ role ∈ σ.roles, role.id = row.roleId) ∧
    ∃ permission ∈ σ.permissions, permission.id = row.permissionId

/-! ### What one statement does -/

/-- What seeding may have done so far: rows of the catalog and system roles are added, and no key is broken. -/
structure Extended (σ τ : RbacTables) : Prop where
  permissions : σ.permissions ⊆ τ.permissions
  roles : σ.roles ⊆ τ.roles
  newRoles : ∀ row ∈ τ.roles, row ∈ σ.roles ∨ ∃ key ∈ systemRoles, row.isSystem key
  scopedRoles : τ.scopedRoles = σ.scopedRoles
  ids : (σ.permissions.map (·.id)).Nodup → (τ.permissions.map (·.id)).Nodup
  keys : (σ.permissions.map (·.key)).Nodup → (τ.permissions.map (·.key)).Nodup
  rolePermissions : τ.rolePermissions = σ.rolePermissions
  memberships : τ.memberships = σ.memberships
  apiKeyScopes : τ.apiKeyScopes = σ.apiKeyScopes

section
variable {draws : Draws} {σ τ υ : RbacTables} {key : String}

theorem Extended.refl (σ : RbacTables) : Extended σ σ :=
  ⟨fun _ h => h, fun _ h => h, fun _ h => .inl h, rfl, id, id, rfl, rfl, rfl⟩

theorem Extended.trans (first : Extended σ τ) (second : Extended τ υ) : Extended σ υ where
  permissions _ h := second.permissions (first.permissions h)
  roles _ h := second.roles (first.roles h)
  newRoles row h := (second.newRoles row h).elim (first.newRoles row) .inr
  scopedRoles := second.scopedRoles.trans first.scopedRoles
  ids := second.ids ∘ first.ids
  keys := second.keys ∘ first.keys
  rolePermissions := second.rolePermissions.trans first.rolePermissions
  memberships := second.memberships.trans first.memberships
  apiKeyScopes := second.apiKeyScopes.trans first.apiKeyScopes

def RbacTables.Knows (σ : RbacTables) (key : String) : Prop := key ∈ σ.permissions.map (·.key)

def RbacTables.HasSystem (σ : RbacTables) (key : String) : Prop := ∃ row ∈ σ.roles, row.isSystem key

theorem Extended.knows (extended : Extended σ τ) (h : σ.Knows key) : τ.Knows key := by
  obtain ⟨row, there, named⟩ := List.mem_map.mp h
  exact List.mem_map.mpr ⟨row, extended.permissions there, named⟩

theorem Extended.hasSystem (extended : Extended σ τ) (h : σ.HasSystem key) : τ.HasSystem key := by
  obtain ⟨row, there, named⟩ := h
  exact ⟨row, extended.roles there, named⟩

theorem seedPermission_step (h : σ.seedPermission draws key = some τ) : Extended σ τ ∧ τ.Knows key := by
  unfold RbacTables.seedPermission at h
  split at h
  · next known =>
    obtain rfl := Option.some.inj h
    exact ⟨.refl σ, known⟩
  · next unknown =>
    unfold RbacTables.insertPermission at h
    split at h
    · cases h
    · next free =>
      obtain rfl := Option.some.inj h
      refine ⟨⟨fun _ h => List.mem_append_left _ h, fun _ h => h, fun _ h => .inl h, rfl, ?_, ?_, rfl, rfl, rfl⟩, ?_⟩
      · intro ids
        exact Unique.nodup_concat ids fun other there same => free ⟨other, there, same⟩
      · intro keys
        simp only [List.map_append, List.map_cons, List.map_nil]
        exact List.nodup_append_comm.mp (List.nodup_cons.mpr ⟨unknown, keys⟩)
      · simp [RbacTables.Knows]

theorem seedRole_step (new : key ∈ systemRoles) (h : σ.seedRole draws key = some τ) :
    Extended σ τ ∧ τ.HasSystem key := by
  unfold RbacTables.seedRole at h
  split at h
  · next there =>
    obtain rfl := Option.some.inj h
    exact ⟨.refl σ, there⟩
  · unfold RbacTables.insertRole at h
    split at h
    · obtain rfl := Option.some.inj h
      refine ⟨⟨fun _ h => h, fun _ h => List.mem_cons_of_mem _ h, fun row h => ?_, rfl, id, id, rfl, rfl, rfl⟩,
        ⟨_, List.mem_cons_self, rfl, rfl⟩⟩
      rcases List.mem_cons.mp h with rfl | h
      · exact .inr ⟨key, new, rfl, rfl⟩
      · exact .inl h
    · cases h

/-! ### What the statements do -/

/-- A statement that inserts row by row leaves what each of its rows is inserted for. -/
theorem statement_run {insert : RbacTables → String → Option RbacTables} {P : RbacTables → String → Prop}
    (kept : ∀ σ τ key, Extended σ τ → P σ key → P τ key) {keys : List String}
    (h : keys.foldlM insert σ = some τ)
    (step : ∀ key ∈ keys, ∀ σ τ, insert σ key = some τ → Extended σ τ ∧ P τ key) : Extended σ τ ∧ ∀ key ∈ keys, P τ key := by
  induction keys generalizing σ with
  | nil =>
    obtain rfl := Option.some.inj h
    exact ⟨.refl σ, fun key h => absurd h List.not_mem_nil⟩
  | cons key keys ih =>
    rw [List.foldlM_cons] at h
    obtain ⟨ρ, one, rest⟩ := Option.bind_eq_some_iff.mp h
    obtain ⟨extended, there⟩ := step key List.mem_cons_self σ ρ one
    obtain ⟨extended', all⟩ := ih rest fun key h => step key (List.mem_cons_of_mem _ h)
    refine ⟨extended.trans extended', fun other h => ?_⟩
    rcases List.mem_cons.mp h with rfl | h
    · exact kept ρ τ other extended' there
    · exact all other h

/-- Inserting changes nothing where each row finds its own. -/
theorem foldlM_still {α β : Type} {insert : β → α → Option β} {b : β} {rows : List α}
    (still : ∀ row ∈ rows, insert b row = some b) : rows.foldlM insert b = some b := by
  induction rows with
  | nil => rfl
  | cons row rows ih =>
    rw [List.foldlM_cons, still row List.mem_cons_self]
    exact ih fun row h => still row (List.mem_cons_of_mem _ h)

theorem inserted_still {rows made : List RolePermissionRow} (there : ∀ row ∈ made, row ∈ rows) :
    made.foldl (fun rows row => if row ∈ rows then rows else rows ++ [row]) rows = rows := by
  induction made with
  | nil => rfl
  | cons row made ih =>
    rw [List.foldl_cons, if_pos (there row List.mem_cons_self)]
    exact ih fun row h => there row (List.mem_cons_of_mem _ h)

theorem mem_granted {row : RolePermissionRow} : row ∈ σ.granted ↔ ∃ name key, (name, key) ∈ matrix ∧
    (∃ role ∈ σ.roles, role.isSystem name ∧ role.id = row.roleId) ∧
    ∃ permission ∈ σ.permissions, permission.key = key ∧ permission.id = row.permissionId := by
  obtain ⟨roleId, permissionId⟩ := row
  simp only [RbacTables.granted, List.mem_flatMap, List.mem_map, List.mem_filter, decide_eq_true_eq]
  constructor
  · rintro ⟨⟨name, key⟩, cell, role, ⟨there, system⟩, permission, ⟨known, named⟩, made⟩
    cases made
    exact ⟨name, key, cell, ⟨role, there, system, rfl⟩, permission, known, named, rfl⟩
  · rintro ⟨name, key, cell, ⟨role, there, system, rfl⟩, permission, known, named, rfl⟩
    exact ⟨(name, key), cell, role, ⟨there, system⟩, permission, ⟨known, named⟩, rfl⟩

theorem mem_inserted {row : RolePermissionRow} : ∀ {rows made : List RolePermissionRow},
    row ∈ made.foldl (fun rows row => if row ∈ rows then rows else rows ++ [row]) rows ↔ row ∈ rows ∨ row ∈ made
  | rows, [] => by simp
  | rows, new :: made => by
    rw [List.foldl_cons, mem_inserted, List.mem_cons]
    by_cases h : new ∈ rows
    · rw [if_pos h]
      constructor
      · rintro (h | h)
        exacts [.inl h, .inr (.inr h)]
      · rintro (h' | rfl | h')
        exacts [.inl h', .inl h, .inr h']
    · rw [if_neg h, List.mem_append, List.mem_singleton, or_assoc]

/-- `ON CONFLICT DO NOTHING` keeps the rows apart. -/
theorem nodup_inserted {rows made : List RolePermissionRow} (apart : rows.Nodup) :
    (made.foldl (fun rows row => if row ∈ rows then rows else rows ++ [row]) rows).Nodup := by
  induction made generalizing rows with
  | nil => exact apart
  | cons row made ih =>
    rw [List.foldl_cons]
    refine ih ?_
    split
    · exact apart
    · next new => exact List.nodup_append_comm.mp (List.nodup_cons.mpr ⟨new, apart⟩)

/-- The tables before the grants of the matrix, and with them. -/
theorem seed_eq (seeded : σ.seed draws = some υ) :
    ∃ τ, Extended σ τ ∧ (∀ key ∈ catalog, τ.Knows key) ∧ (∀ key ∈ systemRoles, τ.HasSystem key) ∧ υ = τ.seedGrants := by
  obtain ⟨ρ, permissions, rest⟩ := Option.bind_eq_some_iff.mp seeded
  obtain ⟨τ, roles, last⟩ := Option.bind_eq_some_iff.mp rest
  obtain ⟨extended, known⟩ := statement_run (P := RbacTables.Knows) (fun _ _ _ => Extended.knows) permissions
    fun key _ σ τ => seedPermission_step
  obtain ⟨extended', there⟩ := statement_run (P := RbacTables.HasSystem) (fun _ _ _ => Extended.hasSystem) roles
    fun key new σ τ => seedRole_step new
  exact ⟨τ, extended.trans extended', fun key h => extended'.knows (known key h), there, (Option.some.inj last).symm⟩

/-! ### Seeded tables -/

/-- Nothing is left to seed. -/
structure Seeded (σ : RbacTables) : Prop where
  knows : ∀ key ∈ catalog, σ.Knows key
  hasSystem : ∀ key ∈ systemRoles, σ.HasSystem key
  grants : ∀ row ∈ σ.granted, row ∈ σ.rolePermissions

theorem Seeded.again (seeded : Seeded σ) (draws : Draws) : σ.seed draws = some σ := by
  have permissions : catalog.foldlM (RbacTables.seedPermission draws) σ = some σ :=
    foldlM_still fun key h => if_pos (seeded.knows key h)
  have roles : systemRoles.foldlM (RbacTables.seedRole draws) σ = some σ :=
    foldlM_still fun key h => if_pos (seeded.hasSystem key h)
  rw [RbacTables.seed, permissions, Option.bind_eq_bind, Option.bind_some, roles, Option.bind_some,
    RbacTables.seedGrants, inserted_still seeded.grants]
  rfl

/-- Every permission the matrix grants is in the catalog. -/
theorem catalog_of_matrix {name : String} (cell : (name, key) ∈ matrix) : key ∈ catalog := by
  have all : ∀ cell ∈ matrix, cell.2 ∈ catalog := by decide
  exact all _ cell

theorem seeded_of_seed (seeded : σ.seed draws = some τ) : Seeded τ := by
  obtain ⟨ρ, _, knows, hasSystem, rfl⟩ := seed_eq seeded
  exact ⟨knows, hasSystem, fun row h => mem_inserted.mpr (.inr h)⟩

theorem constrained_of_seed (constrained : Constrained σ) (seeded : σ.seed draws = some τ) : Constrained τ := by
  obtain ⟨ρ, extended, _, _, rfl⟩ := seed_eq seeded
  have role_scope_key := constrained.role_scope_key
  rw [← extended.scopedRoles] at role_scope_key
  refine ⟨extended.ids constrained.ids, extended.keys constrained.keys, role_scope_key,
    nodup_inserted (extended.rolePermissions ▸ constrained.grants), fun row h => ?_⟩
  rcases mem_inserted.mp h with old | new
  · rw [extended.rolePermissions] at old
    obtain ⟨⟨role, there, hr⟩, permission, known, hp⟩ := constrained.references row old
    exact ⟨⟨role, extended.roles there, hr⟩, permission, extended.permissions known, hp⟩
  · obtain ⟨_, _, _, ⟨role, there, _, hr⟩, permission, known, _, hp⟩ := mem_granted.mp new
    exact ⟨⟨role, there, hr⟩, permission, known, hp⟩

/-- What a role carries after seeding: what it carried, and the matrix, if it is the system's. -/
theorem permissionsOf_seed (constrained : Constrained σ) (seeded : σ.seed draws = some τ) {role : RoleRow}
    (there : role ∈ τ.roles) :
    key ∈ τ.permissionsOf role.id ↔ key ∈ σ.permissionsOf role.id ∨ (role.organizationId = none ∧ (role.key, key) ∈ matrix) := by
  have after := constrained_of_seed constrained seeded
  obtain ⟨ρ, extended, knows, hasSystem, rfl⟩ := seed_eq seeded
  rw [RbacTables.mem_permissionsOf, RbacTables.mem_permissionsOf]
  constructor
  · rintro ⟨granted, grant, carries, permission, known, named, rfl⟩
    rcases mem_inserted.mp grant with old | new
    · left
      rw [extended.rolePermissions] at old
      obtain ⟨_, permission', known', named'⟩ := constrained.references granted old
      have same : permission' = permission :=
        List.inj_on_of_nodup_map after.ids (extended.permissions known') known (named'.trans named.symm)
      exact ⟨granted, old, carries, permission, same ▸ known', named, rfl⟩
    · right
      obtain ⟨name, key, cell, ⟨role', there', system, hr⟩, permission', known', rfl, hp⟩ := mem_granted.mp new
      obtain rfl : role' = role := List.inj_on_of_nodup_map ρ.role_unique there' there (hr.trans carries)
      obtain rfl : permission' = permission := List.inj_on_of_nodup_map after.ids known' known (hp.trans named.symm)
      exact ⟨system.1, system.2 ▸ cell⟩
  · rintro (⟨granted, grant, carries, permission, known, named, rfl⟩ | ⟨system, cell⟩)
    · exact ⟨granted, mem_inserted.mpr (.inl (extended.rolePermissions ▸ grant)), carries, permission,
        extended.permissions known, named, rfl⟩
    · obtain ⟨permission, known, named⟩ := List.mem_map.mp (knows key (catalog_of_matrix cell))
      refine ⟨⟨role.id, permission.id⟩, mem_inserted.mpr (.inr (mem_granted.mpr ?_)), rfl, permission, known, rfl, named⟩
      exact ⟨role.key, key, cell, ⟨role, there, ⟨system, rfl⟩, rfl⟩, permission, known, named, rfl⟩

/-- Seeding tables whose keys and references hold adds the system roles, gives each what the matrix grants it
beside what it carried, leaves every other role and all assignments as they were, and is done once. -/
theorem seed_exact (constrained : Constrained σ) (seeded : σ.seed draws = some τ) :
    (∀ role ∈ τ.roles, ∀ key, key ∈ τ.permissionsOf role.id ↔
        key ∈ σ.permissionsOf role.id ∨ (role.organizationId = none ∧ (role.key, key) ∈ matrix)) ∧
      (∀ name ∈ systemRoles, ∃ role ∈ τ.roles, role.isSystem name) ∧
      (∀ role ∈ τ.roles, role ∈ σ.roles ∨ ∃ name ∈ systemRoles, role.isSystem name) ∧ σ.roles ⊆ τ.roles ∧
      τ.memberships = σ.memberships ∧ τ.apiKeyScopes = σ.apiKeyScopes ∧ Constrained τ ∧
      ∀ again, τ.seed again = some τ := by
  have complete := seeded_of_seed seeded
  refine ⟨fun role there key => permissionsOf_seed constrained seeded there, complete.hasSystem, ?_, ?_, ?_, ?_,
    constrained_of_seed constrained seeded, complete.again⟩
  all_goals
    obtain ⟨ρ, extended, _, _, rfl⟩ := seed_eq seeded
  · exact extended.newRoles
  · exact extended.roles
  · exact extended.memberships
  · exact extended.apiKeyScopes

def freshTables : RbacTables := ⟨[], [], [], [], [], List.nodup_nil⟩

def freshDraws : Draws :=
  ⟨fun key => BitVec.ofNat 128 (catalog.idxOf key), fun key => BitVec.ofNat 128 (systemRoles.idxOf key)⟩

theorem fresh_constrained : Constrained freshTables :=
  ⟨List.nodup_nil, List.nodup_nil, List.nodup_nil, List.nodup_nil, fun _ h => absurd h List.not_mem_nil⟩

theorem fresh_seeded : ∃ τ, freshTables.seed freshDraws = some τ :=
  Option.isSome_iff_exists.mp rfl

theorem seed_exact_fresh : ∃ τ, freshTables.seed freshDraws = some τ ∧
    (∀ role ∈ τ.roles, ∀ key, key ∈ τ.permissionsOf role.id ↔
        key ∈ freshTables.permissionsOf role.id ∨ (role.organizationId = none ∧ (role.key, key) ∈ matrix)) ∧
      (∀ name ∈ systemRoles, ∃ role ∈ τ.roles, role.isSystem name) ∧
      (∀ role ∈ τ.roles, role ∈ freshTables.roles ∨ ∃ name ∈ systemRoles, role.isSystem name) ∧
      freshTables.roles ⊆ τ.roles ∧ τ.memberships = freshTables.memberships ∧
      τ.apiKeyScopes = freshTables.apiKeyScopes ∧ Constrained τ ∧ ∀ again, τ.seed again = some τ := by
  obtain ⟨τ, seeded⟩ := fresh_seeded
  exact ⟨τ, seeded, seed_exact fresh_constrained seeded⟩

/-! ### A permission no role carries -/

/-- No grant carries the key. -/
def Withheld (σ : RbacTables) (key : String) : Prop :=
  ∀ row ∈ σ.rolePermissions, ∀ permission ∈ σ.permissions, permission.id = row.permissionId → permission.key ≠ key

/-- Seeding grants nothing that the matrix does not. -/
theorem withheld_of_seed (constrained : Constrained σ) (seeded : σ.seed draws = some τ) (withheld : Withheld σ key)
    (outside : ∀ name, (name, key) ∉ matrix) : Withheld τ key := by
  have after := constrained_of_seed constrained seeded
  obtain ⟨ρ, extended, _, _, rfl⟩ := seed_eq seeded
  rintro row grant permission known named rfl
  rcases mem_inserted.mp grant with old | new
  · rw [extended.rolePermissions] at old
    obtain ⟨_, permission', known', named'⟩ := constrained.references row old
    obtain rfl : permission' = permission :=
      List.inj_on_of_nodup_map after.ids (extended.permissions known') known (named'.trans named.symm)
    exact withheld row old permission' known' named rfl
  · obtain ⟨name, key, cell, _, permission', known', rfl, hp⟩ := mem_granted.mp new
    obtain rfl : permission' = permission := List.inj_on_of_nodup_map after.ids known' known (hp.trans named.symm)
    exact outside name cell

/-- The write does not grant the key to a role. -/
def RbacWrite.Withholds (permissions : List PermissionRow) (key : String) : RbacWrite → Prop
  | .grant _ permissionId => ∀ permission ∈ permissions, permission.id = permissionId → permission.key ≠ key
  | _ => True

@[simp] theorem permissions_write (σ : RbacTables) (write : RbacWrite) : (σ.write write).permissions = σ.permissions := by
  cases write with
  | addRole role =>
    simp only [RbacTables.write, RbacTables.insertRole]
    split <;> rfl
  | grant role permissionId | revoke role permissionId =>
    simp only [RbacTables.write]
    split <;> rfl
  | addMembership _ | removeMembership _ | addScope _ | removeScope _ => rfl

theorem withheld_write {write : RbacWrite} (withheld : Withheld σ key) (withholds : write.Withholds σ.permissions key) :
    Withheld (σ.write write) key := by
  intro row grant permission known named
  rw [permissions_write] at known
  have before (h : row ∈ σ.rolePermissions) : permission.key ≠ key := withheld row h permission known named
  cases write with
  | addMembership _ | removeMembership _ | addScope _ | removeScope _ => exact before grant
  | addRole role =>
    simp only [RbacTables.write, RbacTables.insertRole] at grant
    split at grant <;> exact before grant
  | grant role permissionId =>
    simp only [RbacTables.write] at grant
    split at grant
    · rcases List.mem_cons.mp grant with rfl | old
      · exact withholds permission known named
      · exact before old
    · exact before grant
  | revoke role permissionId =>
    simp only [RbacTables.write] at grant
    split at grant
    · exact before (List.mem_filter.mp grant).1
    · exact before grant

theorem invoke_outside (name : String) : (name, "inference:invoke") ∉ matrix := by
  have none_ : ∀ cell ∈ matrix, cell.2 ≠ "inference:invoke" := by decide
  exact fun cell => none_ _ cell rfl

/-- What no role carries is held by the API keys it is a scope of. -/
theorem holds_of_withheld (withheld : Withheld σ key) {principalId : Uuid} {organizationId : OrgId} :
    Holds σ principalId organizationId key ↔ ⟨principalId, key, organizationId⟩ ∈ σ.apiKeyScopes := by
  constructor
  · intro holds
    cases holds with
    | role _ _ _ _ _ _ _ grant _ known named hkey => exact absurd hkey (withheld _ grant _ known named)
    | scope there here mine hkey =>
      subst here mine hkey
      exact there
  · exact fun there => .scope there rfl rfl rfl

end
end LlmGateway.Authorization
