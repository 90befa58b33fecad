import LlmGateway.Persistence.Isolation

/-! What a statement reads as, told from the history of its unit and of its connection: why a connection that
had served a tenant failed the statements of no tenant, and that the fifth migration's policy shows them no rows. -/
namespace LlmGateway.Persistence
open Ledger Lib.RowSecurity

variable {R α : Type}

/-- The tenants that the units' statements are bound to. A binding ends with its transaction. -/
def Action.rebind (w : Wiring R) (bound : UnitId → Option OrgId) : Action R α → UnitId → Option OrgId
  | .aenter u _ => if w.rlsEnabled then Function.update bound u (w.tenantId u) else bound
  | .commit u | .rollback u | .aexit u _ => Function.update bound u none
  | .execute .. | .recycle _ => bound

/-- The connections that have served a bound transaction. -/
def Action.serve (w : Wiring R) (served : ConnId → Bool) : Action R α → ConnId → Bool
  | .aenter u c => if w.rlsEnabled ∧ (w.tenantId u).isSome then Function.update served c true else served
  | .recycle c => Function.update served c false
  | .execute .. | .commit _ | .rollback _ | .aexit .. => served

def boundTo (w : Wiring R) (as : List (Action R α)) : UnitId → Option OrgId :=
  as.foldl (Action.rebind w) fun _ => none

def servedBound (w : Wiring R) (as : List (Action R α)) : ConnId → Bool :=
  as.foldl (Action.serve w) fun _ => false

variable {w : Wiring R} {s t : State R α} {as : List (Action R α)} {bound : UnitId → Option OrgId} {served : ConnId → Bool}

/-- The settings, told by the tenant each unit is bound to and by the connections that have served one. -/
structure State.History (bound : UnitId → Option OrgId) (served : ConnId → Bool) (s : State R α) : Prop where
  outside : ∀ {u}, (s.units u).entered = false → (s.units u).transaction = none
  opened : ∀ {u}, (s.units u).transaction = none → bound u = none
  transaction : ∀ {u x}, (s.units u).transaction = some x → (s.settings x.conn).transaction = (bound u).map OrgId.str
  session : ∀ c, (s.settings c).session = if served c then some "" else none

namespace State.History

theorem start (db : Multiset R) : (State.start db : State R α).History (fun _ => none) (fun _ => false) where
  outside _ := rfl
  opened _ := rfl
  transaction h := by cases h
  session _ := rfl

theorem begin (history : s.History bound served) (inv : s.Inv w) {u : UnitId} (entered : (s.units u).entered = true)
    {c : ConnId} (h : s.begin u c = some t) : t.History bound served := by
  obtain ⟨x, -, rfl⟩ | ⟨closed, free, rfl⟩ := begin_cases h
  · exact history
  refine ⟨?_, ?_, ?_, history.session⟩
  · intro v hv
    dsimp only at hv ⊢
    by_cases h : v = u
    · rw [h, Function.update_self] at hv
      rw [entered] at hv
      cases hv
    · rw [Function.update_of_ne h] at hv ⊢
      exact history.outside hv
  · intro v hv
    dsimp only at hv
    by_cases h : v = u
    · rw [h, Function.update_self] at hv
      cases hv
    · rw [Function.update_of_ne h] at hv
      exact history.opened hv
  · intro v x hx
    dsimp only at hx
    by_cases h : v = u
    · subst h
      rw [Function.update_self] at hx
      obtain rfl := Option.some.inj hx
      rw [history.opened closed, inv.idle free]
      rfl
    · rw [Function.update_of_ne h] at hx
      exact history.transaction hx

/-- Entering or leaving, or going on with the same connection. -/
theorem setUnit (history : s.History bound served) {u : UnitId} {unit : AsyncUnitOfWork R α}
    (outside : unit.entered = false → unit.transaction = none)
    (same : unit.transaction.map (·.conn) = (s.units u).transaction.map (·.conn)) :
    (s.setUnit u unit).History bound served := by
  refine ⟨?_, ?_, ?_, history.session⟩
  · intro v hv
    dsimp only [State.setUnit] at hv ⊢
    by_cases h : v = u
    · rw [h, Function.update_self] at hv ⊢
      exact outside hv
    · rw [Function.update_of_ne h] at hv ⊢
      exact history.outside hv
  · intro v hv
    dsimp only [State.setUnit] at hv
    by_cases h : v = u
    · subst h
      rw [Function.update_self] at hv
      rw [hv] at same
      exact history.opened (Option.map_eq_none_iff.mp same.symm)
    · rw [Function.update_of_ne h] at hv
      exact history.opened hv
  · intro v x hx
    dsimp only [State.setUnit] at hx ⊢
    by_cases h : v = u
    · subst h
      rw [Function.update_self] at hx
      rw [hx] at same
      obtain ⟨y, hy, hc⟩ := Option.map_eq_some_iff.mp same.symm
      dsimp only at hc
      rw [← hc]
      exact history.transaction hy
    · rw [Function.update_of_ne h] at hx
      exact history.transaction hx

theorem bindTenant (history : s.History bound served) (inv : s.Inv w) {u : UnitId} {x : Transaction R}
    (hx : (s.units u).transaction = some x) (org : OrgId) :
    (s.bindTenant u org).History (Function.update bound u (some org)) (Function.update served x.conn true) := by
  unfold State.bindTenant
  rw [hx]
  refine ⟨history.outside, ?_, ?_, ?_⟩
  · intro v hv
    have h : v ≠ u := by
      rintro rfl
      cases hx.symm.trans hv
    rw [Function.update_of_ne h]
    exact history.opened hv
  · intro v y hy
    dsimp only at hy ⊢
    by_cases h : v = u
    · subst h
      obtain rfl := Option.some.inj (hx.symm.trans hy)
      rw [Function.update_self, Function.update_self]
      rfl
    · have apart : y.conn ≠ x.conn := fun hc => h (inv.conn_inj hy hx hc)
      rw [Function.update_of_ne apart, Function.update_of_ne h]
      exact history.transaction hy
  · intro c
    dsimp only
    by_cases h : c = x.conn
    · rw [h, Function.update_self, Function.update_self, if_pos rfl, Setting.setConfig, history.session]
      split <;> rfl
    · rw [Function.update_of_ne h, Function.update_of_ne h]
      exact history.session c

variable [DecidableEq R]

theorem execute (history : s.History bound served) {u : UnitId} (entered : (s.units u).entered = true)
    (statement : Statement R α) (refused : Bool) : (s.execute w u statement refused).History bound served := by
  unfold State.execute
  split
  · rename_i x hx
    refine history.setUnit (fun h => ?_) ?_
    · cases entered.symm.trans h
    · rw [hx]
      exact congrArg some (x.execute_conn ..)
  · exact history

theorem endTransaction (history : s.History bound served) (inv : s.Inv w) (u : UnitId) (keep : Bool) :
    (s.endTransaction u keep).History (Function.update bound u none) served := by
  unfold State.endTransaction
  split
  · rename_i x hx
    refine ⟨?_, ?_, ?_, ?_⟩
    · intro v hv
      dsimp only at hv ⊢
      by_cases h : v = u
      · rw [h, Function.update_self]
      · rw [Function.update_of_ne h] at hv ⊢
        exact history.outside hv
    · intro v hv
      dsimp only at hv
      by_cases h : v = u
      · rw [h, Function.update_self]
      · rw [Function.update_of_ne h] at hv ⊢
        exact history.opened hv
    · intro v y hy
      dsimp only at hy ⊢
      have h : v ≠ u := by
        rintro rfl
        rw [Function.update_self] at hy
        cases hy
      rw [Function.update_of_ne h] at hy ⊢
      have apart : y.conn ≠ x.conn := fun hc => h (inv.conn_inj hy hx hc)
      rw [Function.update_of_ne apart]
      exact history.transaction hy
    · intro c
      dsimp only
      by_cases h : c = x.conn
      · rw [h, Function.update_self]
        exact history.session x.conn
      · rw [Function.update_of_ne h]
        exact history.session c
  · rename_i hx
    have same : Function.update bound u none = bound := by
      rw [← history.opened hx, Function.update_eq_self]
    rw [same]
    exact history

theorem close (history : s.History bound served) (inv : s.Inv w) (u : UnitId) :
    (s.close u).History (Function.update bound u none) served := by
  have ended := history.endTransaction inv u false
  refine ended.setUnit (fun _ => ?_) rfl
  cases closed : (s.units u).transaction <;> simp [State.endTransaction, closed]

omit [DecidableEq R] in
theorem recycle (history : s.History bound served) (inv : s.Inv w) {c : ConnId} (free : s.holder c = none) :
    State.History bound (Function.update served c false)
      { s with settings := Function.update s.settings c ⟨none, none⟩ } := by
  refine ⟨history.outside, history.opened, ?_, ?_⟩
  · intro u x hx
    have apart : x.conn ≠ c := by
      rintro rfl
      cases free.symm.trans (inv.held hx)
    dsimp only
    rw [Function.update_of_ne apart]
    exact history.transaction hx
  · intro c'
    dsimp only
    by_cases h : c' = c
    · rw [h, Function.update_self, Function.update_self]
      rfl
    · rw [Function.update_of_ne h, Function.update_of_ne h]
      exact history.session c'

theorem step (history : s.History bound served) (inv : s.Inv w) {a : Action R α} (h : s.step w a = some t) :
    t.History (a.rebind w bound) (a.serve w served) := by
  cases a with
  | aenter u c =>
    simp only [State.step] at h
    split at h
    · cases h
    rename_i outside
    have closed : (s.units u).transaction = none := history.outside (Bool.eq_false_iff.mpr outside)
    have entered : (s.setUnit u { s.units u with entered := true }).History bound served :=
      history.setUnit (fun h => by cases h) rfl
    have inv₁ : (s.setUnit u { s.units u with entered := true }).Inv w := inv.setUnit rfl
    split at h
    · rename_i org rls tenant
      obtain ⟨begun, hb, rfl⟩ := Option.map_eq_some_iff.mp h
      have begun_history := entered.begin inv₁ (by simp [State.setUnit]) hb
      have opened : (begun.units u).transaction = some ⟨c, [], false⟩ := by
        rcases begin_cases hb with ⟨x, hx, -⟩ | ⟨-, -, rfl⟩
        · simp [State.setUnit, closed] at hx
        · simp
      have bound_history := begun_history.bindTenant (inv₁.begin hb) opened org
      simpa only [Action.rebind, Action.serve, rls, tenant, if_true, Option.isSome_some, and_self] using bound_history
    · rename_i unbound
      obtain rfl := Option.some.inj h
      have nobody : ¬ (w.rlsEnabled = true ∧ (w.tenantId u).isSome = true) := by
        rintro ⟨rls, some_tenant⟩
        obtain ⟨org, tenant⟩ := Option.isSome_iff_exists.mp some_tenant
        exact unbound org rls tenant
      have same : (Action.aenter u c : Action R α).rebind w bound = bound := by
        rw [Action.rebind]
        split
        · rename_i rls
          have tenant : w.tenantId u = bound u := by
            rw [history.opened closed]
            exact Option.not_isSome_iff_eq_none.mp fun h => nobody ⟨rls, h⟩
          rw [tenant, Function.update_eq_self]
        · rfl
      rw [same, Action.serve, if_neg nobody]
      exact entered
  | execute u c statement refused =>
    simp only [State.step] at h
    split at h
    · rename_i entered
      split at h
      · cases h
      · obtain ⟨begun, hb, rfl⟩ := Option.map_eq_some_iff.mp h
        refine (history.begin inv entered hb).execute ?_ _ refused
        rcases begin_cases hb with ⟨x, -, rfl⟩ | ⟨-, -, rfl⟩
        · exact entered
        · simpa using entered
    · cases h
  | commit u =>
    simp only [State.step, Option.ite_none_right_eq_some, Option.some.injEq] at h
    exact h.2 ▸ history.endTransaction inv u true
  | rollback u =>
    simp only [State.step, Option.ite_none_right_eq_some, Option.some.injEq] at h
    exact h.2 ▸ history.endTransaction inv u false
  | aexit u raised =>
    simp only [State.step, Option.ite_none_right_eq_some, Option.some.injEq] at h
    obtain ⟨-, rfl⟩ := h
    cases raised with
    | true =>
      have twice := (history.endTransaction inv u false).close (inv.endTransaction u false) u
      rwa [Function.update_idem] at twice
    | false => exact history.close inv u
  | recycle c =>
    simp only [State.step, Option.ite_none_right_eq_some, Option.some.injEq] at h
    exact h.2 ▸ history.recycle inv h.1

theorem run (history : s.History bound served) (inv : s.Inv w) (h : s.run w as = some t) :
    t.Inv w ∧ t.History (as.foldl (Action.rebind w) bound) (as.foldl (Action.serve w) served) := by
  induction as generalizing s bound served with
  | nil => exact Option.some.inj h ▸ ⟨inv, history⟩
  | cons a as ih =>
    obtain ⟨next, step, rest⟩ := Option.bind_eq_some_iff.mp h
    exact ih (history.step inv step) (inv.step step) rest

end State.History

section Query
variable [DecidableEq R]

/-- A query of an open transaction, read as the tenant's. -/
def Transaction.queryAs (w : Wiring R) (x : Transaction R) (committed : Multiset R) (org : OrgId) (q : Query R α) :
    Except Raised α × Transaction R :=
  match q.under w.organizationId (some org) (x.visible committed) with
  | none => (.error .policyViolation, { x with failed := true })
  | some (answer, d) => (.ok answer, { x with pending := x.pending ++ [d] })

/-- A query read as no tenant's: over no rows, and none written. -/
def Transaction.queryAsNone (x : Transaction R) (q : Query R α) : Except Raised α × Transaction R :=
  if (q 0).2.added = 0 then (.ok (q 0).1, { x with pending := x.pending ++ [⟨0, 0⟩] })
  else (.error .policyViolation, { x with failed := true })

/-- A query of an open transaction, by the tenant bound and by whether the connection has served one. -/
def Transaction.queryBound (w : Wiring R) (x : Transaction R) (committed : Multiset R) (bound : Option OrgId) (served : Bool)
    (q : Query R α) : Except Raised α × Transaction R :=
  match bound with
  | some org => x.queryAs w committed org q
  | none =>
    if served ∧ w.policy = .initial then (.error (.invalidTextRepresentation ""), { x with failed := true })
    else x.queryAsNone q

section
variable {x : Transaction R} (alive : x.failed = false) {setting : Setting} (committed : Multiset R) (q : Query R α)
include alive

private theorem query_read (current : Option OrgId) (read : w.policy.currentOrg w.input setting.current = .ok current) :
    x.execute w setting committed (.query q) false =
      match q.under w.organizationId current (x.visible committed) with
      | none => (.error .policyViolation, { x with failed := true })
      | some (answer, d) => (.ok answer, { x with pending := x.pending ++ [d] }) := by
  unfold Transaction.execute
  rw [alive, if_neg Bool.false_ne_true, if_neg Bool.false_ne_true]
  generalize w.policy.currentOrg w.input setting.current = answer at read
  subst read
  rfl

private theorem query_none (read : w.policy.currentOrg w.input setting.current = .ok none) :
    x.execute w setting committed (.query q) false = x.queryAsNone q := by
  rw [query_read alive committed q none read, Query.under_none, Transaction.queryAsNone]
  by_cases h : (q 0).2.added = 0
  · rw [if_pos h, if_pos h]
  · rw [if_neg h, if_neg h]

/-- What the policy makes of the settings that the history leaves. -/
private theorem query_history {bound : Option OrgId} {served : Bool}
    (transaction : setting.transaction = bound.map OrgId.str) (session : setting.session = if served then some "" else none) :
    x.execute w setting committed (.query q) false = x.queryBound w committed bound served q := by
  cases bound with
  | some org =>
    refine query_read alive committed q (some org) ?_
    rw [Setting.current, transaction]
    exact TenantPolicy.currentOrg_str ..
  | none =>
    have value : setting.current = if served then some "" else none := by
      rw [Setting.current, transaction, session]
      rfl
    unfold Transaction.queryBound
    dsimp only
    split
    · rename_i failing
      obtain ⟨hs, hp⟩ := failing
      unfold Transaction.execute
      rw [alive, if_neg Bool.false_ne_true, if_neg Bool.false_ne_true, value, hs, hp]
      simp [TenantPolicy.currentOrg, w.input.read_empty]
    · rename_i reading
      refine query_none alive committed q ?_
      rw [value]
      cases served with
      | false => rfl
      | true =>
        cases hp : w.policy with
        | initial => exact absurd ⟨rfl, hp⟩ reading
        | nullif => exact TenantPolicy.currentOrg_reset (.inr rfl)

end

/-- A query of a unit still bound reads its tenant's rows. Any other reads none: by the first migration's policy
it fails when its connection has served a bound transaction, by the fifth's it is answered over no rows. -/
theorem query_answered (w : Wiring R) (db : Multiset R) (as : List (Action R α))
    (h : (State.start db).run w as = some s) (u : UnitId) (c : ConnId) (q : Query R α) (x : Transaction R)
    (hx : x = (s.units u).transaction.getD ⟨c, [], false⟩) (alive : x.failed = false)
    (ht : s.step w (.execute u c (.query q) false) = some t) :
    let done := x.queryBound w s.committed (boundTo w as u) (servedBound w as x.conn) q
    (t.units u).answers = (s.units u).answers ++ [done.1] ∧ (t.units u).transaction = some done.2 := by
  obtain ⟨inv, history⟩ := (State.History.start db).run (State.Inv.start db) h
  simp only [State.step, Option.ite_none_right_eq_some] at ht
  obtain ⟨entered, ht⟩ := ht
  obtain ⟨begun, hb, rfl⟩ := Option.map_eq_some_iff.mp ht
  have after := history.begin inv entered hb
  have opened : (begun.units u).transaction = some x ∧ (begun.units u).answers = (s.units u).answers ∧
      begun.committed = s.committed := by
    rcases State.begin_cases hb with ⟨y, hy, rfl⟩ | ⟨closed, -, rfl⟩
    · rw [hy, Option.getD_some] at hx
      exact ⟨hx ▸ hy, rfl, rfl⟩
    · rw [closed, Option.getD_none] at hx
      rw [hx]
      simp
  obtain ⟨transaction, answers, committed⟩ := opened
  have done := query_history (w := w) alive begun.committed q (after.transaction transaction) (after.session x.conn)
  rw [committed] at done
  unfold State.execute
  rw [transaction, answers, committed]
  dsimp only [boundTo, servedBound]
  rw [done]
  simp [State.setUnit]

/-- A unit for a tenant and one for none, on one connection. -/
def reused (policy : TenantPolicy) : Wiring (OrgId × Nat) :=
  ⟨.ofUuid, policy, Prod.fst, true, fun u => if u = 0 then some 1 else none⟩

def reuse : List (Action (OrgId × Nat) Nat) := [.aenter 0 0, .commit 0, .aexit 0 false, .aenter 1 0]

def count : Query (OrgId × Nat) Nat := fun rows => (rows.card, ⟨0, 0⟩)

/-- What the fifth migration repaired. -/
theorem query_answered_reused : ∃ s t : State (OrgId × Nat) Nat,
    (State.start {(1, 10), (2, 20)}).run (reused .initial) reuse = some s ∧
      s.step (reused .initial) (.execute 1 0 (.query count) false) = some t ∧
      (t.units 1).answers = [.error (.invalidTextRepresentation "")] := by
  obtain ⟨s, h⟩ := Option.isSome_iff_exists.mp
    (show ((State.start {(1, 10), (2, 20)} : State _ Nat).run (reused .initial) reuse).isSome from rfl)
  have next : s.units 1 = ⟨true, none, []⟩ ∧ (s.step (reused .initial) (.execute 1 0 (.query count) false)).isSome := by
    obtain rfl := Option.some.inj h
    exact ⟨rfl, rfl⟩
  obtain ⟨t, ht⟩ := Option.isSome_iff_exists.mp next.2
  have answered := query_answered (reused .initial) _ reuse h 1 0 count ⟨0, [], false⟩ (by rw [next.1]; rfl) rfl ht
  rw [next.1] at answered
  exact ⟨s, t, h, ht, answered.1⟩

end Query
end LlmGateway.Persistence
