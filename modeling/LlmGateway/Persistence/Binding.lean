import LlmGateway.Persistence.UnitOfWork

/-! Whose rows a transaction reads: in every reachable state a connection is bound to the tenant of the unit
that holds it, or to none. -/
namespace LlmGateway.Persistence
open Ledger Lib.RowSecurity

section Policy
variable {input : UuidInput}

/-- A bound value is read back as the tenant it was printed from. -/
theorem TenantPolicy.currentOrg_str (policy : TenantPolicy) (org : OrgId) :
    policy.currentOrg input (some org.str) = .ok (some org) := by
  have nonempty : org.str ≠ "" := fun h => by
    have := input.read_str org
    rw [h, input.read_empty] at this
    cases this
  unfold currentOrg
  dsimp only
  rw [if_neg fun h => nonempty h.2, input.read_str]

/-- What is left of an earlier transaction's binding reads as none. -/
theorem TenantPolicy.currentOrg_reset {session : Option String} (h : session = none ∨ session = some "") :
    TenantPolicy.nullif.currentOrg input session = .ok none := by
  rcases h with rfl | rfl
  · rfl
  · simp [currentOrg]

end Policy

variable {R α : Type} {w : Wiring R} {s s' t : State R α}

/-- The connection of an open transaction is its unit's, what is bound there is the unit's tenant, and its
changes are to that tenant's rows. -/
structure State.Inv (w : Wiring R) (s : State R α) : Prop where
  held : ∀ {u x}, (s.units u).transaction = some x → s.holder x.conn = some u
  idle : ∀ {c}, s.holder c = none → (s.settings c).transaction = none
  session : ∀ c, (s.settings c).session = none ∨ (s.settings c).session = some ""
  bound : ∀ {u x text}, (s.units u).transaction = some x → (s.settings x.conn).transaction = some text →
    ∃ org, w.tenantId u = some org ∧ text = org.str
  within : ∀ {u x d}, (s.units u).transaction = some x → d ∈ x.pending → d.Within w.organizationId (w.tenantId u)

namespace State

theorem Inv.conn_inj (inv : s.Inv w) {u v : UnitId} {x y : Transaction R} (hx : (s.units u).transaction = some x)
    (hy : (s.units v).transaction = some y) (h : x.conn = y.conn) : u = v := by
  have held := inv.held hx
  rw [h, inv.held hy] at held
  exact (Option.some.inj held).symm

theorem Inv.start (db : Multiset R) : (State.start db : State R α).Inv w where
  held h := by cases h
  idle _ := rfl
  session _ := .inl rfl
  bound h := by cases h
  within h := by cases h

/-- Whether a unit is entered, and what it was answered, is its own affair. -/
theorem Inv.setUnit (inv : s.Inv w) {u : UnitId} {unit : AsyncUnitOfWork R α}
    (h : unit.transaction = (s.units u).transaction) : (s.setUnit u unit).Inv w := by
  have same : ∀ v, ((s.setUnit u unit).units v).transaction = (s.units v).transaction := by
    intro v
    by_cases hv : v = u
    · subst hv
      simpa [State.setUnit] using h
    · simp [State.setUnit, hv]
  constructor
  · intro v x hx
    exact inv.held (same v ▸ hx)
  · exact inv.idle
  · exact inv.session
  · intro v x text hx
    exact inv.bound (same v ▸ hx)
  · intro v x d hx
    exact inv.within (same v ▸ hx)

/-- A checkout opens an empty transaction on an idle connection, or there is one open already. -/
theorem begin_cases {u : UnitId} {c : ConnId} (h : s.begin u c = some t) :
    (∃ x, (s.units u).transaction = some x ∧ t = s) ∨
      (s.units u).transaction = none ∧ s.holder c = none ∧
        t = { s with
          holder := Function.update s.holder c (some u)
          units := Function.update s.units u { s.units u with transaction := some ⟨c, [], false⟩ } } := by
  unfold begin at h
  split at h
  · rename_i x hx
    exact .inl ⟨x, hx, (Option.some.inj h).symm⟩
  · rename_i hx
    split at h
    · rename_i free
      exact .inr ⟨hx, free, (Option.some.inj h).symm⟩
    · cases h

theorem Inv.begin (inv : s.Inv w) {u : UnitId} {c : ConnId} (h : s.begin u c = some t) : t.Inv w := by
  obtain ⟨x, -, rfl⟩ | ⟨closed, free, rfl⟩ := begin_cases h
  · exact inv
  have opened : ∀ {v x}, (Function.update s.units u { s.units u with transaction := some ⟨c, [], false⟩ } v).transaction =
      some x → v = u ∧ x = ⟨c, [], false⟩ ∨ v ≠ u ∧ (s.units v).transaction = some x := by
    intro v x hx
    by_cases hv : v = u
    · subst hv
      rw [Function.update_self] at hx
      exact .inl ⟨rfl, (Option.some.inj hx).symm⟩
    · rw [Function.update_of_ne hv] at hx
      exact .inr ⟨hv, hx⟩
  constructor
  · intro v x hx
    dsimp only at hx ⊢
    rcases opened hx with ⟨rfl, rfl⟩ | ⟨hv, hx⟩
    · exact Function.update_self ..
    · rw [Function.update_of_ne, inv.held hx]
      intro hc
      have := inv.held hx
      rw [hc, free] at this
      cases this
  · intro c' hc'
    dsimp only at hc'
    by_cases hc : c' = c
    · rw [hc, Function.update_self] at hc'
      cases hc'
    · rw [Function.update_of_ne hc] at hc'
      exact inv.idle hc'
  · exact inv.session
  · intro v x text hx ht
    rcases opened hx with ⟨rfl, rfl⟩ | ⟨-, hx⟩
    · rw [inv.idle free] at ht
      cases ht
    · exact inv.bound hx ht
  · intro v x d hx hd
    rcases opened hx with ⟨rfl, rfl⟩ | ⟨-, hx⟩
    · cases hd
    · exact inv.within hx hd

theorem Inv.bindTenant (inv : s.Inv w) {u : UnitId} {org : OrgId} (tenant : w.tenantId u = some org) :
    (s.bindTenant u org).Inv w := by
  unfold State.bindTenant
  split
  · rename_i x hx
    have others : ∀ {v y}, (s.units v).transaction = some y → v ≠ u → y.conn ≠ x.conn :=
      fun hy hv hc => hv (inv.conn_inj hy hx hc)
    constructor
    · exact inv.held
    · intro c free
      have hc : c ≠ x.conn := by
        rintro rfl
        have := inv.held hx
        rw [show s.holder x.conn = none from free] at this
        cases this
      dsimp only
      rw [Function.update_of_ne hc]
      exact inv.idle free
    · intro c
      by_cases hc : c = x.conn
      · subst hc
        dsimp only
        rw [Function.update_self, Setting.setConfig]
        rcases inv.session x.conn with h | h <;> rw [h] <;> exact .inr rfl
      · dsimp only
        rw [Function.update_of_ne hc]
        exact inv.session c
    · intro v y text hy ht
      dsimp only at hy ht
      by_cases hv : v = u
      · subst hv
        obtain rfl := Option.some.inj (hx.symm.trans hy)
        rw [Function.update_self] at ht
        exact ⟨org, tenant, (Option.some.inj ht).symm⟩
      · rw [Function.update_of_ne (others hy hv)] at ht
        exact inv.bound hy ht
    · exact inv.within
  · exact inv

/-- A statement reads as its unit's tenant, or as none. -/
theorem Inv.current (inv : s.Inv w) {u : UnitId} {x : Transaction R} {current : Option OrgId}
    (hx : (s.units u).transaction = some x)
    (read : w.policy.currentOrg w.input (s.settings x.conn).current = .ok current) :
    current = none ∨ current = w.tenantId u := by
  rw [Setting.current] at read
  cases ht : (s.settings x.conn).transaction with
  | some text =>
    obtain ⟨org, tenant, rfl⟩ := inv.bound hx ht
    rw [ht, Option.some_or, TenantPolicy.currentOrg_str] at read
    rw [tenant]
    exact .inr (Except.ok.inj read).symm
  | none =>
    rw [ht, Option.none_or] at read
    refine .inl ?_
    rcases inv.session x.conn with h | h <;> rw [h] at read
    · exact (Except.ok.inj read).symm
    · cases hp : w.policy with
      | nullif =>
        rw [hp, TenantPolicy.currentOrg_reset (.inr rfl)] at read
        exact (Except.ok.inj read).symm
      | initial =>
        simp [hp, TenantPolicy.currentOrg, w.input.read_empty] at read

end State

variable [DecidableEq R]

/-- What a statement does to its transaction: nothing, or it fails it, or it adds one change. -/
theorem Transaction.execute_cases (x : Transaction R) (setting : Setting) (committed : Multiset R)
    (statement : Statement R α) (refused : Bool) :
    (x.execute w setting committed statement refused).2 = x ∨
    (x.execute w setting committed statement refused).2 = { x with failed := true } ∨
    ∃ current d, w.policy.currentOrg w.input setting.current = .ok current ∧ d.Within w.organizationId current ∧
      (x.execute w setting committed statement refused).2 = { x with pending := x.pending ++ [d] } := by
  unfold execute
  split
  · exact .inl rfl
  split
  · exact .inr (.inl rfl)
  split
  · exact .inl rfl
  split
  · exact .inr (.inl rfl)
  rename_i current read
  split
  · exact .inr (.inl rfl)
  · rename_i answer d shown
    exact .inr (.inr ⟨current, d, read, Query.under_within shown, rfl⟩)

theorem Transaction.execute_conn (x : Transaction R) (setting : Setting) (committed : Multiset R) (statement : Statement R α)
    (refused : Bool) : (x.execute w setting committed statement refused).2.conn = x.conn := by
  rcases x.execute_cases (w := w) setting committed statement refused with h | h | ⟨_, _, _, _, h⟩ <;> rw [h]

namespace State

omit [DecidableEq R] in
/-- A unit's transaction, further along on the same connection. -/
theorem Inv.setTransaction (inv : s.Inv w) {u : UnitId} {unit : AsyncUnitOfWork R α} {x y : Transaction R}
    (hx : (s.units u).transaction = some x) (hy : unit.transaction = some y) (conn : y.conn = x.conn)
    (within : ∀ d ∈ y.pending, d.Within w.organizationId (w.tenantId u)) : (s.setUnit u unit).Inv w := by
  have opened : ∀ {v z}, ((s.setUnit u unit).units v).transaction = some z →
      v = u ∧ z = y ∨ (s.units v).transaction = some z := by
    intro v z hz
    by_cases hv : v = u
    · subst hv
      dsimp only [State.setUnit] at hz
      rw [Function.update_self] at hz
      exact .inl ⟨rfl, Option.some.inj (hz.symm.trans hy)⟩
    · dsimp only [State.setUnit] at hz
      rw [Function.update_of_ne hv] at hz
      exact .inr hz
  constructor
  · intro v z hz
    rcases opened hz with ⟨rfl, rfl⟩ | hz
    · rw [conn]
      exact inv.held hx
    · exact inv.held hz
  · exact inv.idle
  · exact inv.session
  · intro v z text hz ht
    rcases opened hz with ⟨rfl, rfl⟩ | hz
    · rw [conn] at ht
      exact inv.bound hx ht
    · exact inv.bound hz ht
  · intro v z d hz hd
    rcases opened hz with ⟨rfl, rfl⟩ | hz
    · exact within d hd
    · exact inv.within hz hd

theorem Inv.execute (inv : s.Inv w) (u : UnitId) (statement : Statement R α) (refused : Bool) :
    (s.execute w u statement refused).Inv w := by
  unfold State.execute
  split
  · rename_i x hx
    have old : ∀ d ∈ x.pending, d.Within w.organizationId (w.tenantId u) := fun d hd => inv.within hx hd
    have after := x.execute_cases (w := w) (s.settings x.conn) s.committed statement refused
    refine inv.setTransaction (y := (x.execute w (s.settings x.conn) s.committed statement refused).2) hx rfl ?_ ?_
    · rcases after with h | h | ⟨_, _, _, _, h⟩ <;> rw [h]
    · rcases after with h | h | ⟨current, d, read, new, h⟩
      · rw [h]
        exact old
      · rw [h]
        exact old
      · rw [h]
        intro d' hd'
        rcases List.mem_append.mp hd' with earlier | added
        · exact old d' earlier
        · obtain rfl := List.mem_singleton.mp added
          rcases inv.current hx read with rfl | rfl
          · exact new.of_none
          · exact new
  · exact inv

theorem Inv.endTransaction (inv : s.Inv w) (u : UnitId) (keep : Bool) : (s.endTransaction u keep).Inv w := by
  unfold State.endTransaction
  split
  · rename_i x hx
    have opened : ∀ {v y}, (Function.update s.units u { s.units u with transaction := none } v).transaction = some y →
        (s.units v).transaction = some y ∧ y.conn ≠ x.conn := by
      intro v y hy
      by_cases hv : v = u
      · subst hv
        rw [Function.update_self] at hy
        cases hy
      · rw [Function.update_of_ne hv] at hy
        exact ⟨hy, fun hc => hv (inv.conn_inj hy hx hc)⟩
    constructor
    · intro v y hy
      obtain ⟨hy, hc⟩ := opened hy
      dsimp only
      rw [Function.update_of_ne hc]
      exact inv.held hy
    · intro c free
      dsimp only at free ⊢
      by_cases hc : c = x.conn
      · subst hc
        rw [Function.update_self]
        rfl
      · rw [Function.update_of_ne hc] at free ⊢
        exact inv.idle free
    · intro c
      dsimp only
      by_cases hc : c = x.conn
      · subst hc
        rw [Function.update_self]
        exact inv.session x.conn
      · rw [Function.update_of_ne hc]
        exact inv.session c
    · intro v y text hy ht
      obtain ⟨hy, hc⟩ := opened hy
      dsimp only at ht
      rw [Function.update_of_ne hc] at ht
      exact inv.bound hy ht
    · intro v y d hy hd
      exact inv.within (opened hy).1 hd
  · exact inv

omit [DecidableEq R] in
theorem Inv.recycle (inv : s.Inv w) {c : ConnId} :
    Inv w { s with settings := Function.update s.settings c ⟨none, none⟩ } where
  held := inv.held
  idle {c'} free := by
    by_cases hc : c' = c
    · simp [hc]
    · simpa [hc] using inv.idle free
  session c' := by
    by_cases hc : c' = c
    · simp [hc]
    · simpa [hc] using inv.session c'
  bound {u x text} hx ht := by
    by_cases hc : x.conn = c
    · simp [hc] at ht
    · exact inv.bound hx (by simpa [hc] using ht)
  within := inv.within

theorem Inv.step (inv : s.Inv w) {a : Action R α} (h : s.step w a = some t) : t.Inv w := by
  cases a with
  | aenter u c =>
    simp only [State.step] at h
    split at h
    · cases h
    have entered : (s.setUnit u { s.units u with entered := true }).Inv w := inv.setUnit rfl
    split at h
    · rename_i org _ tenant
      obtain ⟨begun, hb, rfl⟩ := Option.map_eq_some_iff.mp h
      exact (entered.begin hb).bindTenant tenant
    · obtain rfl := Option.some.inj h
      exact entered
  | execute u c statement refused =>
    simp only [State.step] at h
    split at h
    · split at h
      · cases h
      · obtain ⟨begun, hb, rfl⟩ := Option.map_eq_some_iff.mp h
        exact (inv.begin hb).execute u _ refused
    · cases h
  | commit u =>
    simp only [State.step, Option.ite_none_right_eq_some, Option.some.injEq] at h
    exact h.2 ▸ inv.endTransaction u true
  | rollback u =>
    simp only [State.step, Option.ite_none_right_eq_some, Option.some.injEq] at h
    exact h.2 ▸ inv.endTransaction u false
  | aexit u raised =>
    simp only [State.step, Option.ite_none_right_eq_some, Option.some.injEq] at h
    obtain ⟨-, rfl⟩ := h
    have rolled : (if raised then s.endTransaction u false else s).Inv w := by
      split
      · exact inv.endTransaction u false
      · exact inv
    exact (rolled.endTransaction u false).setUnit rfl
  | recycle c =>
    simp only [State.step, Option.ite_none_right_eq_some, Option.some.injEq] at h
    exact h.2 ▸ inv.recycle

end State
end LlmGateway.Persistence
