import LlmGateway.Auth.UuidText
import LlmGateway.Persistence.Binding

/-! Tenant isolation: what the units of work of one tenant are answered and leave behind is what they would be
answered and leave with no other tenant there, in every interleaving over any pool. -/
namespace LlmGateway.Persistence
open Ledger Lib.RowSecurity

variable {R α : Type} {w : Wiring R} {A : OrgId} {s s' t : State R α}

/-- The same, with the tenant's rows and units alone: `s'` is what `s` is to the tenant. -/
structure State.Alone (w : Wiring R) (A : OrgId) (s s' : State R α) : Prop where
  committed : s'.committed = slice w.organizationId (some A) s.committed
  units : ∀ u, w.tenantId u = some A → s'.units u = s.units u
  holder : ∀ c, s'.holder c = (s.holder c).filter fun u => w.tenantId u = some A
  setting : ∀ {u x}, w.tenantId u = some A → (s.units u).transaction = some x →
    (s'.settings x.conn).transaction = (s.settings x.conn).transaction

section Execute
variable [DecidableEq R] (x : Transaction R)

variable (hp : w.policy = .nullif) {setting setting' : Setting} (bound : setting'.transaction = setting.transaction)
  (reset : setting.session = none ∨ setting.session = some "")
  (reset' : setting'.session = none ∨ setting'.session = some "")
include hp bound reset reset'

omit [DecidableEq R] in
/-- A connection is read by what is bound there, whatever transactions it served before. -/
theorem Setting.currentOrg_eq :
    w.policy.currentOrg w.input setting'.current = w.policy.currentOrg w.input setting.current := by
  rw [Setting.current, Setting.current, bound, hp]
  cases setting.transaction with
  | some text => rfl
  | none =>
    rw [Option.none_or, Option.none_or, TenantPolicy.currentOrg_reset reset, TenantPolicy.currentOrg_reset reset']

/-- An answer depends on the tenant's own rows. -/
theorem Transaction.execute_alone
    (current : ∀ current, w.policy.currentOrg w.input setting.current = .ok current → current = none ∨ current = some A)
    (within : ∀ d ∈ x.pending, d.Within w.organizationId (some A)) {statement : Statement R α}
    (hs : ∀ f, statement ≠ .securityDefiner f) (refused : Bool) (committed : Multiset R) :
    x.execute w setting' (slice w.organizationId (some A) committed) statement refused =
      x.execute w setting committed statement refused := by
  cases statement with
  | securityDefiner f => exact absurd rfl (hs f)
  | query q =>
    have shown : ∀ org, w.policy.currentOrg w.input setting.current = .ok org →
        q.under w.organizationId org (x.visible (slice w.organizationId (some A) committed)) =
          q.under w.organizationId org (x.visible committed) := by
      intro org read
      rcases current org read with rfl | rfl
      · rw [Query.under_none, Query.under_none]
      · rw [← Query.under_slice (x.visible committed) q, Transaction.visible, Transaction.visible,
          slice_foldl_self within]
    unfold Transaction.execute
    rw [Setting.currentOrg_eq hp bound reset reset']
    dsimp only
    cases read : w.policy.currentOrg w.input setting.current with
    | error e => rfl
    | ok org =>
      dsimp only
      rw [shown org read]

end Execute

namespace State

theorem Alone.start (db : Multiset R) :
    Alone w A (State.start db : State R α) (State.start (slice w.organizationId (some A) db)) where
  committed := rfl
  units _ _ := rfl
  holder _ := rfl
  setting _ _ := rfl

section Own
variable (alone : Alone w A s s') {u : UnitId} (own : w.tenantId u = some A)
include alone own

theorem Alone.setUnit {unit : AsyncUnitOfWork R α}
    (conn : ∀ x, unit.transaction = some x → ∃ y, (s.units u).transaction = some y ∧ x.conn = y.conn) :
    Alone w A (s.setUnit u unit) (s'.setUnit u unit) where
  committed := alone.committed
  units v hv := by
    by_cases h : v = u
    · simp [State.setUnit, h]
    · simp [State.setUnit, h, alone.units v hv]
  holder := alone.holder
  setting {v x} hv hx := by
    dsimp only [State.setUnit] at hx ⊢
    by_cases h : v = u
    · subst h
      rw [Function.update_self] at hx
      obtain ⟨y, hy, hc⟩ := conn x hx
      rw [hc]
      exact alone.setting hv hy
    · rw [Function.update_of_ne h] at hx
      exact alone.setting hv hx

/-- A connection idle in the pool is idle without the other tenants too. -/
theorem Alone.begin (inv : s.Inv w) (inv' : s'.Inv w) {c : ConnId} (h : s.begin u c = some t) :
    ∃ t', s'.begin u c = some t' ∧ Alone w A t t' := by
  unfold State.begin
  rw [alone.units u own]
  obtain ⟨x, hx, rfl⟩ | ⟨closed, free, rfl⟩ := begin_cases h
  · rw [hx]
    exact ⟨s', rfl, alone⟩
  have free' : s'.holder c = none := by
    rw [alone.holder, free]
    rfl
  rw [closed]
  refine ⟨_, if_pos free', alone.committed, ?_, ?_, ?_⟩
  · intro v hv
    dsimp only
    by_cases h : v = u
    · rw [h, Function.update_self, Function.update_self]
    · rw [Function.update_of_ne h, Function.update_of_ne h, alone.units v hv]
  · intro c'
    dsimp only
    by_cases h : c' = c
    · rw [h, Function.update_self, Function.update_self, Option.filter_some, if_pos (decide_eq_true own)]
    · rw [Function.update_of_ne h, Function.update_of_ne h, alone.holder]
  · intro v x hv hx
    dsimp only at hx ⊢
    by_cases h : v = u
    · rw [h, Function.update_self] at hx
      obtain rfl := Option.some.inj hx
      rw [inv.idle free, inv'.idle free']
    · rw [Function.update_of_ne h] at hx
      exact alone.setting hv hx

theorem Alone.bindTenant (org : OrgId) : Alone w A (s.bindTenant u org) (s'.bindTenant u org) := by
  unfold State.bindTenant
  rw [alone.units u own]
  split
  · rename_i x hx
    refine ⟨alone.committed, alone.units, alone.holder, ?_⟩
    intro v y hv hy
    dsimp only at hy ⊢
    by_cases h : y.conn = x.conn
    · rw [h, Function.update_self, Function.update_self]
      rfl
    · rw [Function.update_of_ne h, Function.update_of_ne h]
      exact alone.setting hv hy
  · exact alone

variable [DecidableEq R]

theorem Alone.execute (hp : w.policy = .nullif) (inv : s.Inv w) (inv' : s'.Inv w) {statement : Statement R α}
    (hs : ∀ f, statement ≠ .securityDefiner f) (refused : Bool) :
    Alone w A (s.execute w u statement refused) (s'.execute w u statement refused) := by
  unfold State.execute
  rw [alone.units u own]
  split
  · rename_i x hx
    have hx' : (s'.units u).transaction = some x := by rw [alone.units u own, hx]
    have same := x.execute_alone hp (alone.setting own hx) (inv.session _) (inv'.session _)
      (fun current read => own ▸ inv.current hx read) (fun d hd => own ▸ inv.within hx hd) hs refused s.committed
    rw [← alone.committed] at same
    rw [same]
    refine alone.setUnit own fun y hy => ⟨x, hx, ?_⟩
    obtain rfl := Option.some.inj hy
    exact x.execute_conn ..
  · exact alone

theorem Alone.endTransaction (inv : s.Inv w) (keep : Bool) :
    Alone w A (s.endTransaction u keep) (s'.endTransaction u keep) := by
  unfold State.endTransaction
  rw [alone.units u own]
  split
  · rename_i x hx
    refine ⟨?_, ?_, ?_, ?_⟩
    · dsimp only
      split
      · rw [alone.committed]
        exact (slice_foldl_self fun d hd => own ▸ inv.within hx hd).symm
      · exact alone.committed
    · intro v hv
      dsimp only
      by_cases h : v = u
      · rw [h, Function.update_self, Function.update_self]
      · rw [Function.update_of_ne h, Function.update_of_ne h, alone.units v hv]
    · intro c
      dsimp only
      by_cases h : c = x.conn
      · rw [h, Function.update_self, Function.update_self]
        rfl
      · rw [Function.update_of_ne h, Function.update_of_ne h, alone.holder]
    · intro v y hv hy
      dsimp only at hy ⊢
      by_cases h : v = u
      · rw [h, Function.update_self] at hy
        cases hy
      · rw [Function.update_of_ne h] at hy
        have apart : y.conn ≠ x.conn := fun hc => h (inv.conn_inj hy hx hc)
        rw [Function.update_of_ne apart, Function.update_of_ne apart]
        exact alone.setting hv hy
  · exact alone

theorem Alone.close (inv : s.Inv w) : Alone w A (s.close u) (s'.close u) := by
  have ended := alone.endTransaction own inv false
  unfold State.close
  dsimp only
  rw [ended.units u own]
  exact ended.setUnit own fun x hx => ⟨x, hx, rfl⟩

end Own

section Other
variable (alone : Alone w A s s') {u : UnitId} (other : w.tenantId u ≠ some A)
include alone other

theorem Alone.setUnit_other (unit : AsyncUnitOfWork R α) : Alone w A (s.setUnit u unit) s' where
  committed := alone.committed
  units v hv := by
    have h : v ≠ u := fun h => other (h ▸ hv)
    simp [State.setUnit, h, alone.units v hv]
  holder := alone.holder
  setting {v x} hv hx := by
    have h : v ≠ u := fun h => other (h ▸ hv)
    exact alone.setting hv (by simpa [State.setUnit, h] using hx)

theorem Alone.begin_other {c : ConnId} (h : s.begin u c = some t) : Alone w A t s' := by
  obtain ⟨x, hx, rfl⟩ | ⟨closed, free, rfl⟩ := begin_cases h
  · exact alone
  have update := alone.setUnit_other other { s.units u with transaction := some ⟨c, [], false⟩ }
  refine ⟨alone.committed, update.units, fun c' => ?_, update.setting⟩
  dsimp only
  by_cases h : c' = c
  · rw [h, Function.update_self, alone.holder, free, Option.filter_some, if_neg fun own => other (of_decide_eq_true own)]
    rfl
  · rw [Function.update_of_ne h, alone.holder]

theorem Alone.bindTenant_other (inv : s.Inv w) (org : OrgId) : Alone w A (s.bindTenant u org) s' := by
  unfold State.bindTenant
  split
  · rename_i x hx
    refine ⟨alone.committed, alone.units, alone.holder, fun {v y} hv hy => ?_⟩
    have apart : y.conn ≠ x.conn := fun hc => other (inv.conn_inj hy hx hc ▸ hv)
    dsimp only
    rw [Function.update_of_ne apart]
    exact alone.setting hv hy
  · exact alone

variable [DecidableEq R]

theorem Alone.execute_other (statement : Statement R α) (refused : Bool) :
    Alone w A (s.execute w u statement refused) s' := by
  unfold State.execute
  split
  · exact alone.setUnit_other other _
  · exact alone

theorem Alone.endTransaction_other (inv : s.Inv w) (keep : Bool) : Alone w A (s.endTransaction u keep) s' := by
  unfold State.endTransaction
  split
  · rename_i x hx
    have update := alone.setUnit_other other { s.units u with transaction := none }
    refine ⟨?_, update.units, fun c => ?_, fun {v y} hv hy => ?_⟩
    · dsimp only
      split
      · rw [alone.committed]
        exact (slice_foldl_of_ne (fun d hd => inv.within hx hd) other).symm
      · exact alone.committed
    · dsimp only
      by_cases h : c = x.conn
      · rw [h, Function.update_self, alone.holder, inv.held hx, Option.filter_some,
          if_neg fun own => other (of_decide_eq_true own)]
        rfl
      · rw [Function.update_of_ne h, alone.holder]
    · have h : v ≠ u := fun h => other (h ▸ hv)
      dsimp only at hy ⊢
      rw [Function.update_of_ne h] at hy
      have apart : y.conn ≠ x.conn := fun hc => h (inv.conn_inj hy hx hc)
      rw [Function.update_of_ne apart]
      exact alone.setting hv hy
  · exact alone

theorem Alone.close_other (inv : s.Inv w) : Alone w A (s.close u) s' :=
  (alone.endTransaction_other other inv false).setUnit_other other _

end Other
end State

/-- The unit whose code takes the step; the pool's own steps are no unit's. -/
def Action.unit? : Action R α → Option UnitId
  | .aenter u _ | .execute u _ _ _ | .commit u | .rollback u | .aexit u _ => some u
  | .recycle _ => none

/-- The steps of the tenant's units and of the pool. -/
def Action.concerns (w : Wiring R) (A : OrgId) (a : Action R α) : Bool :=
  a.unit?.all fun u => w.tenantId u = some A

namespace State
variable [DecidableEq R]

section Step
variable (alone : Alone w A s s') (inv : s.Inv w)
include alone inv

/-- A step of the tenant's own is a step without the others. -/
theorem Alone.step_own (hp : w.policy = .nullif) (inv' : s'.Inv w) {a : Action R α} {u : UnitId}
    (unit : a.unit? = some u) (own : w.tenantId u = some A) (h : s.step w a = some t) :
    ∃ t', s'.step w a = some t' ∧ Alone w A t t' := by
  cases a with
  | recycle c => cases unit
  | aenter v c =>
    obtain rfl := Option.some.inj unit
    unfold State.step at h ⊢
    dsimp only at h ⊢
    rw [alone.units v own]
    split at h
    · cases h
    rename_i outside
    rw [if_neg outside]
    have entered : Alone w A (s.setUnit v { s.units v with entered := true })
        (s'.setUnit v { s.units v with entered := true }) := alone.setUnit own fun x hx => ⟨x, hx, rfl⟩
    rw [own] at h ⊢
    cases hr : w.rlsEnabled with
    | false =>
      rw [hr] at h
      exact ⟨_, rfl, Option.some.inj h ▸ entered⟩
    | true =>
      rw [hr] at h
      obtain ⟨begun, hb, rfl⟩ := Option.map_eq_some_iff.mp h
      obtain ⟨begun', hb', both⟩ := entered.begin own (inv.setUnit rfl)
        (inv'.setUnit (by rw [alone.units v own])) hb
      exact ⟨_, Option.map_eq_some_iff.mpr ⟨begun', hb', rfl⟩, both.bindTenant own A⟩
  | execute v c statement refused =>
    obtain rfl := Option.some.inj unit
    unfold State.step at h ⊢
    dsimp only at h ⊢
    rw [alone.units v own]
    split at h
    · rename_i inside
      rw [if_pos inside]
      rw [own] at h ⊢
      cases statement with
      | securityDefiner f => cases h
      | query q =>
        obtain ⟨begun, hb, rfl⟩ := Option.map_eq_some_iff.mp h
        obtain ⟨begun', hb', both⟩ := alone.begin own inv inv' hb
        refine ⟨_, Option.map_eq_some_iff.mpr ⟨begun', hb', rfl⟩, ?_⟩
        exact both.execute own hp (inv.begin hb) (inv'.begin hb') (fun f h => by cases h) refused
    · cases h
  | commit v =>
    obtain rfl := Option.some.inj unit
    simp only [State.step, alone.units v own, Option.ite_none_right_eq_some, Option.some.injEq] at h ⊢
    obtain ⟨inside, rfl⟩ := h
    exact ⟨_, ⟨inside, rfl⟩, alone.endTransaction own inv true⟩
  | rollback v =>
    obtain rfl := Option.some.inj unit
    simp only [State.step, alone.units v own, Option.ite_none_right_eq_some, Option.some.injEq] at h ⊢
    obtain ⟨inside, rfl⟩ := h
    exact ⟨_, ⟨inside, rfl⟩, alone.endTransaction own inv false⟩
  | aexit v raised =>
    obtain rfl := Option.some.inj unit
    simp only [State.step, alone.units v own, Option.ite_none_right_eq_some, Option.some.injEq] at h ⊢
    obtain ⟨inside, rfl⟩ := h
    refine ⟨_, ⟨inside, rfl⟩, ?_⟩
    cases raised with
    | true => exact (alone.endTransaction own inv false).close own (inv.endTransaction v false)
    | false => exact alone.close own inv

/-- A step of another tenant's, or of no tenant's, is none. -/
theorem Alone.step_other {a : Action R α} {u : UnitId} (unit : a.unit? = some u) (other : w.tenantId u ≠ some A)
    (h : s.step w a = some t) : Alone w A t s' := by
  cases a with
  | recycle c => cases unit
  | aenter v c =>
    obtain rfl := Option.some.inj unit
    simp only [State.step] at h
    split at h
    · cases h
    have entered : Alone w A (s.setUnit v { s.units v with entered := true }) s' := alone.setUnit_other other _
    have inv₁ : (s.setUnit v { s.units v with entered := true }).Inv w := inv.setUnit rfl
    split at h
    · obtain ⟨begun, hb, rfl⟩ := Option.map_eq_some_iff.mp h
      exact (entered.begin_other other hb).bindTenant_other other (inv₁.begin hb) _
    · exact Option.some.inj h ▸ entered
  | execute v c statement refused =>
    obtain rfl := Option.some.inj unit
    simp only [State.step] at h
    split at h
    · split at h
      · cases h
      · obtain ⟨begun, hb, rfl⟩ := Option.map_eq_some_iff.mp h
        exact (alone.begin_other other hb).execute_other other _ refused
    · cases h
  | commit v =>
    obtain rfl := Option.some.inj unit
    simp only [State.step, Option.ite_none_right_eq_some, Option.some.injEq] at h
    exact h.2 ▸ alone.endTransaction_other other inv true
  | rollback v =>
    obtain rfl := Option.some.inj unit
    simp only [State.step, Option.ite_none_right_eq_some, Option.some.injEq] at h
    exact h.2 ▸ alone.endTransaction_other other inv false
  | aexit v raised =>
    obtain rfl := Option.some.inj unit
    simp only [State.step, Option.ite_none_right_eq_some, Option.some.injEq] at h
    obtain ⟨-, rfl⟩ := h
    cases raised with
    | true => exact (alone.endTransaction_other other inv false).close_other other (inv.endTransaction v false)
    | false => exact alone.close_other other inv

/-- A connection idle in the pool is replaced with the others there or not. -/
theorem Alone.recycle {c : ConnId} (h : s.step w (.recycle c) = some t) :
    ∃ t', s'.step w (.recycle c) = some t' ∧ Alone w A t t' := by
  simp only [State.step, Option.ite_none_right_eq_some, Option.some.injEq] at h ⊢
  obtain ⟨free, rfl⟩ := h
  have free' : s'.holder c = none := by
    rw [alone.holder, free]
    rfl
  refine ⟨_, ⟨free', rfl⟩, alone.committed, alone.units, alone.holder, fun {u x} hu hx => ?_⟩
  have apart : x.conn ≠ c := by
    intro hc
    have := inv.held hx
    rw [hc] at this
    cases free.symm.trans this
  dsimp only
  rw [Function.update_of_ne apart, Function.update_of_ne apart]
  exact alone.setting hu hx

end Step

/-- A run, with the other tenants' steps left out. -/
theorem Alone.run (hp : w.policy = .nullif) (alone : Alone w A s s') (inv : s.Inv w) (inv' : s'.Inv w)
    {as : List (Action R α)} (h : s.run w as = some t) :
    ∃ t', s'.run w (as.filter (Action.concerns w A)) = some t' ∧ Alone w A t t' := by
  induction as generalizing s s' with
  | nil => exact ⟨s', rfl, Option.some.inj h ▸ alone⟩
  | cons a as ih =>
    obtain ⟨next, step, rest⟩ := Option.bind_eq_some_iff.mp h
    have kept : ∀ next', s'.step w a = some next' → Alone w A next next' → a.concerns w A = true →
        ∃ t', s'.run w ((a :: as).filter (Action.concerns w A)) = some t' ∧ Alone w A t t' := by
      intro next' step' alone' concerned
      obtain ⟨t', rest', final⟩ := ih alone' (inv.step step) (inv'.step step') rest
      refine ⟨t', ?_, final⟩
      rw [List.filter_cons_of_pos concerned]
      exact Option.bind_eq_some_iff.mpr ⟨next', step', rest'⟩
    cases unit : a.unit? with
    | none =>
      cases a with
      | recycle c =>
        obtain ⟨next', step', alone'⟩ := alone.recycle inv step
        exact kept next' step' alone' rfl
      | _ => cases unit
    | some u =>
      by_cases own : w.tenantId u = some A
      · obtain ⟨next', step', alone'⟩ := alone.step_own inv hp inv' unit own step
        exact kept next' step' alone' (by simp [Action.concerns, unit, own])
      · have skipped : ¬ a.concerns w A = true := by simp [Action.concerns, unit, own]
        rw [List.filter_cons_of_neg skipped]
        exact ih (alone.step_other inv unit own step) (inv.step step) inv' rest

end State

/-- A server that reads the text of a uuid as `UUID` does. -/
def UuidInput.ofUuid : UuidInput where
  read text := Auth.uuid (fun _ => none) text.toList
  read_str := Auth.uuid_str _
  read_empty := rfl

/-- A unit for each of two tenants. -/
def twoUnits : Wiring (OrgId × Nat) := ⟨.ofUuid, .nullif, Prod.fst, true, fun u => some (u + 1)⟩

def twoTenants : Multiset (OrgId × Nat) := {(1, 10), (2, 20), (2, 21)}

/-- Both count the rows they see and take them all away, the second one in between. -/
def twoRuns : List (Action (OrgId × Nat) Nat) :=
  [.aenter 0 0, .aenter 1 1, .execute 0 0 (.query fun rows => (rows.card, ⟨rows, 0⟩)) false,
    .execute 1 1 (.query fun rows => (rows.card, ⟨rows, 0⟩)) false, .commit 1, .aexit 1 false,
    .commit 0, .execute 0 1 (.query fun rows => (rows.card, ⟨rows, 0⟩)) false, .aexit 0 true]

end LlmGateway.Persistence
