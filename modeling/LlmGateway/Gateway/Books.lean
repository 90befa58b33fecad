import LlmGateway.Gateway.Steps
import LlmGateway.Ledger.Posting

/-! The ledger under the gateway's operations: what the organization has spent is what their
settlements have put on the bill, as long as no operation starts under an id that is settled or
in use. -/
namespace LlmGateway.Gateway
open Lib.ReadCommitted Ledger Accounting Execution
open Ledger.Sql hiding reserve settle release

abbrev LedgerSession (pg : Postgres) := Session (schema pg) LockKey Call Answer

def Operation.over (op : Operation) : Bool := op.phase matches .ended _

variable {pg : Postgres} {κ : Type}

section
variable [DecidableEq κ] (env : Setting κ) (s : State pg κ)

/-- An operation starts under a ledger id whose row is not settled, and that no operation still
under way uses. -/
def FreshId : Action pg → Prop
  | .lookup c available => ∀ caller ∈ s.callers[c]?, s.hit env caller available = none →
      (caller.streamed = true ∨ s.inFlight caller.request.correlationId = none) →
      (∀ r ∈ s.ledger.db.committed .budgetReservation (env.org, caller.request.correlationId),
        r.status ≠ .committed) ∧
      ∀ op ∈ s.operations, op.request.correlationId = caller.request.correlationId →
        op.over = true
  | _ => True

instance : (a : Action pg) → Decidable (FreshId env s a)
  | .lookup c available => inferInstanceAs (Decidable (∀ caller ∈ s.callers[c]?,
      s.hit env caller available = none →
      (caller.streamed = true ∨ s.inFlight caller.request.correlationId = none) →
      (∀ r ∈ s.ledger.db.committed .budgetReservation (env.org, caller.request.correlationId),
        r.status ≠ .committed) ∧
      ∀ op ∈ s.operations, op.request.correlationId = caller.request.correlationId →
        op.over = true))
  | .arrive .. | .operate .. | .forget _ | .collect _ | .ledger _ | .elsewhere .. => .isTrue trivial

end

/-- What a settlement's session has put on the bill. -/
def charge : LedgerSession pg → Int
  | .finished (.settle _ _ detail) (.ok _) => detail.totalCost.amount
  | _ => 0

/-- The session of a settlement that was not made or was refused. -/
def Unmade (session : LedgerSession pg) : Prop :=
  session = .idle ∨ ∃ call e, session = .finished call (.error e)

def Ending.undelivered : Ending → Prop
  | .delivered .. => False
  | _ => True

section
variable (env : Setting κ) (op : Operation) (session : LedgerSession pg)

/-- The detail is what the completion comes to. -/
def Accounted (response : ProviderResponse) (price : PriceLookup) (detail : SettlementDetail) :
    Prop :=
  account env.python response.usage op.request.asked.provider price = .ok detail

/-- Where an operation's settlement stands in each of its phases. -/
def SettleSession : Prop :=
  let settle detail := Call.settle env.org op.request.correlationId detail
  match op.phase with
  | .scheduled | .reclaiming | .reserving _ | .calling _ => session = .idle
  | .settling response price detail => Accounted env op response price detail ∧
      ((∃ now p, session = .running (settle detail) now p) ∨
        ∃ answer, session = .finished (settle detail) answer)
  | .storing response price detail | .ended (.delivered response price detail) =>
    Accounted env op response price detail ∧
      ∃ reply, session = .finished (settle detail) (.ok reply)
  | .releasing ending => ending.undelivered ∧ Unmade session
  | .ended _ => Unmade session

/-- The operation has still to settle. -/
def Unsettled : Prop :=
  match op.phase with
  | .scheduled | .reclaiming | .reserving _ | .calling _ => True
  | .settling .. => ∃ call now p, session = .running call now p
  | .storing .. | .releasing _ | .ended _ => False

end

theorem txn_injective {o o' : Nat} {use use' : LedgerUse} (h : txn o use = txn o' use') :
    o = o' ∧ use = use' := by
  cases use <;> cases use' <;> simp only [txn] at h <;> first | exact ⟨by omega, rfl⟩ | omega

theorem txn_surjective (t : Nat) : ∃ o use, txn o use = t := by
  have : t % 4 = 0 ∨ t % 4 = 1 ∨ t % 4 = 2 ∨ t % 4 = 3 := by omega
  rcases this with h | h | h | h
  · exact ⟨t / 4, .reclaim, by simp only [txn]; omega⟩
  · exact ⟨t / 4, .reserve, by simp only [txn]; omega⟩
  · exact ⟨t / 4, .settle, by simp only [txn]; omega⟩
  · exact ⟨t / 4, .release, by simp only [txn]; omega⟩

/-- What a move that settles nothing leaves of an operation's settlement. -/
structure Move.Quiet (env : Setting κ) (op : Operation) (session : LedgerSession pg)
    (move : Move) : Prop where
  call : ∀ use call, move.call = some (use, call) →
    use ≠ .settle ∧ ∀ org cid d, call ≠ .settle org cid d
  settles : SettleSession env { op with phase := move.phase } session
  unsettled : Unsettled { op with phase := move.phase } session → Unsettled op session

variable {env : Setting κ} {op : Operation} {session : LedgerSession pg}

section
variable {move : Move} (settles : SettleSession env { op with phase := move.phase } session)
  (unsettled : Unsettled { op with phase := move.phase } session → Unsettled op session)
include settles unsettled

private theorem quiet_of_no_call (h : move.call = none) : move.Quiet env op session where
  call use call hc := by
    rw [h] at hc
    cases hc
  settles := settles
  unsettled := unsettled

private theorem quiet_of_call {use : LedgerUse} {call : Call} (h : move.call = some (use, call))
    (huse : use ≠ .settle) (hcall : ∀ org cid d, call ≠ .settle org cid d) :
    move.Quiet env op session where
  call use call hc := by
    rw [h] at hc
    cases hc
    exact ⟨huse, hcall⟩
  settles := settles
  unsettled := unsettled

end

private theorem releaseTo_quiet {ending : Ending} (h : ending.undelivered) (hu : Unmade session) :
    (op.releaseTo env ending).Quiet env op session :=
  quiet_of_call ⟨h, hu⟩ (fun h => h.elim) rfl (by decide) fun _ _ _ h => by cases h

private theorem ended_quiet {ending : Ending} (h : ending.undelivered) (hu : Unmade session) :
    ({ phase := .ended ending } : Move).Quiet env op session := by
  refine quiet_of_no_call ?_ (fun h => h.elim) rfl
  cases ending with
  | delivered => exact h.elim
  | refused => exact hu
  | raised => exact hu

private theorem estimate_quiet (price : PriceLookup) (h : session = .idle)
    (hu : Unsettled op session) : (op.estimate env price).Quiet env op session := by
  unfold Operation.estimate
  split
  · exact ended_quiet trivial (.inl h)
  · exact ended_quiet trivial (.inl h)
  · split
    · exact ended_quiet (by split_ifs <;> trivial) (.inl h)
    · exact quiet_of_call h (fun _ => hu) rfl (by decide) fun _ _ _ h => by cases h

private theorem afterReserve_quiet (e : Money) (answer : Answer) (h : session = .idle)
    (hu : Unsettled op session) : (op.afterReserve env e answer).Quiet env op session := by
  unfold Operation.afterReserve
  split
  · exact ended_quiet trivial (.inl h)
  · split_ifs
    · exact quiet_of_no_call h (fun _ => hu) rfl
    · exact ended_quiet trivial (.inl h)

private theorem afterSettle_quiet (response : ProviderResponse) (price : PriceLookup)
    (detail : SettlementDetail) (answer : Answer) (ha : Accounted env op response price detail)
    (h : session = .finished (.settle env.org op.request.correlationId detail) answer) :
    (op.afterSettle env response price detail answer).Quiet env op session := by
  unfold Operation.afterSettle
  split
  next reply => exact quiet_of_no_call ⟨ha, reply, h⟩ (fun h => h.elim) rfl
  next e =>
    have unmade : Unmade session := .inr ⟨_, e, h⟩
    split_ifs
    · exact ended_quiet trivial unmade
    · exact releaseTo_quiet trivial unmade
    · exact releaseTo_quiet trivial unmade

private theorem afterRelease_quiet {ending : Ending} (answer : Answer) (h : ending.undelivered)
    (hu : Unmade session) : (op.afterRelease ending answer).Quiet env op session := by
  unfold Operation.afterRelease
  split
  · exact ended_quiet h hu
  · refine ended_quiet ?_ hu
    split_ifs
    · exact h
    · trivial

/-- A move that makes the operation's settlement. -/
def Move.Settles (env : Setting κ) (op : Operation) (session : LedgerSession pg) (move : Move) :
    Prop :=
  ∃ response price detail, move.phase = .settling response price detail ∧
    Accounted env op response price detail ∧
    move.call = some (.settle, .settle env.org op.request.correlationId detail) ∧
    session = .idle ∧ Unsettled op session

private theorem accountFor_cases (env : Setting κ) (op : Operation) (response : ProviderResponse)
    (price : PriceLookup) (h : session = .idle) (hu : Unsettled op session) :
    (op.accountFor env response price).Settles env op session ∨
      (op.accountFor env response price).Quiet env op session := by
  unfold Operation.accountFor
  cases response.ok with
  | false =>
    simp only [Bool.not_false, if_true]
    exact .inr (releaseTo_quiet trivial (.inl h))
  | true =>
    simp only [Bool.not_true, Bool.false_eq_true, if_false]
    split
    next detail ha => exact .inl ⟨response, price, detail, rfl, ha, rfl, h, hu⟩
    next =>
      right
      split_ifs
      · exact releaseTo_quiet trivial (.inl h)
      · exact releaseTo_quiet trivial (.inl h)
      · exact ended_quiet trivial (.inl h)

/-- Every move makes the settlement or leaves it as it is. -/
theorem Operation.move_cases {answers : LedgerUse → Option Answer} {event : Event} {move : Move}
    (hm : op.move env answers event = some move) (h : SettleSession env op session)
    (answered : ∀ a, answers .settle = some a → ∃ call, session = .finished call a) :
    move.Settles env op session ∨ move.Quiet env op session := by
  unfold Operation.move at hm
  unfold SettleSession at h
  split at hm
  next cutoff hphase =>
    cases hm
    rw [hphase] at h
    exact .inr (quiet_of_call h (fun _ => by simp only [Unsettled, hphase]) rfl (by decide)
      fun _ _ _ h => by cases h)
  next price hphase =>
    obtain ⟨_, _, rfl⟩ := Option.map_eq_some_iff.mp hm
    rw [hphase] at h
    exact .inr (estimate_quiet price h (by simp only [Unsettled, hphase]))
  next e hphase =>
    obtain ⟨_, _, rfl⟩ := Option.map_eq_some_iff.mp hm
    rw [hphase] at h
    exact .inr (afterReserve_quiet e _ h (by simp only [Unsettled, hphase]))
  next buffered content hphase =>
    rw [hphase] at h
    split_ifs at hm
    cases hm
    exact .inr (quiet_of_no_call h (fun _ => by simp only [Unsettled, hphase]) rfl)
  next buffered response price hphase =>
    cases hm
    rw [hphase] at h
    rcases accountFor_cases env op (op.completed buffered response) price h
      (by simp only [Unsettled, hphase]) with settles | quiet
    · exact .inl settles
    · exact .inr ⟨quiet.call, quiet.settles, quiet.unsettled⟩
  next response price detail hphase =>
    obtain ⟨answer, ha, rfl⟩ := Option.map_eq_some_iff.mp hm
    rw [hphase] at h
    obtain ⟨call, hfin⟩ := answered answer ha
    rcases h with ⟨ha, ⟨_, _, hrun⟩ | ⟨_, hset⟩⟩
    · rw [hrun] at hfin
      cases hfin
    · rw [hset] at hfin
      cases hfin
      exact .inr (afterSettle_quiet response price detail answer ha hset)
  next ending hphase =>
    obtain ⟨answer, _, rfl⟩ := Option.map_eq_some_iff.mp hm
    rw [hphase] at h
    exact .inr (afterRelease_quiet answer h.1 h.2)
  next response price detail available hphase =>
    cases hm
    rw [hphase] at h
    exact .inr (quiet_of_no_call h (fun h => h.elim) rfl)
  next => cases hm

/-- The settlement's session keeps step with the operation, when a move that makes the settlement
begins it and every other leaves it as it is. -/
theorem Operation.move_settles {answers : LedgerUse → Option Answer} {event : Event} {move : Move}
    {after : LedgerSession pg} (hm : op.move env answers event = some move)
    (h : SettleSession env op session)
    (answered : ∀ a, answers .settle = some a → ∃ call, session = .finished call a)
    (made : ∀ call, move.call = some (.settle, call) → ∃ now p, after = .running call now p)
    (other : (∀ call, move.call ≠ some (.settle, call)) → after = session) :
    SettleSession env { op with phase := move.phase } after := by
  rcases Operation.move_cases hm h answered with
    ⟨response, price, detail, hphase, ha, hcall, _, _⟩ | quiet
  · simp only [SettleSession, hphase]
    exact ⟨ha, .inl (made _ hcall)⟩
  · rw [other fun call hcall => (quiet.call _ _ hcall).1 rfl]
    exact quiet.settles

theorem Operation.move_over {answers : LedgerUse → Option Answer} {event : Event} {move : Move}
    (hm : op.move env answers event = some move) : op.over = false := by
  unfold Operation.over
  cases hp : op.phase with
  | ended ending => simp [Operation.move, hp] at hm
  | _ => rfl

theorem Unsettled.over (h : Unsettled op session) : op.over = false := by
  unfold Unsettled at h
  unfold Operation.over
  cases hp : op.phase with
  | ended ending =>
    rw [hp] at h
    exact h.elim
  | _ => rfl

/-- The books over the ledger and the operations under way. -/
structure Books (env : Setting κ) (spent₀ : Int) (l : LedgerState pg) (ops : List Operation) :
    Prop where
  holds : (outline pg).Holds l
  idle : ∀ (o : Nat) use, ops.length ≤ o → l.sessions (txn o use) = .idle
  kind : ∀ (o : Nat) use org cid d now p,
    l.sessions (txn o use) = .running (.settle org cid d) now p → use = .settle
  settles : ∀ (o : Nat) op, ops[o]? = some op →
    SettleSession env op (l.sessions (txn o .settle))
  unpaid : ∀ (o : Nat) op, ops[o]? = some op → Unsettled op (l.sessions (txn o .settle)) →
    ∀ r, l.db.committed .budgetReservation (env.org, op.request.correlationId) = some r →
      r.status ≠ .committed
  apart : ∀ (o o' : Nat) op op', o ≠ o' → ops[o]? = some op → ops[o']? = some op' →
    op.over = false → op'.over = false → op.request.correlationId ≠ op'.request.correlationId
  spent : ∃ b, l.db.committed .orgBudget env.org = some b ∧
    b.spent = spent₀ + ∑ o ∈ Finset.range ops.length, charge (l.sessions (txn o .settle))

/-- How a session goes on when nothing is begun and no settlement commits. -/
def Advances (before after : LedgerSession pg) : Prop :=
  after = before ∨ ∃ call now p, before = .running call now p ∧
    ((∃ p', after = .running call now p') ∨ ∃ a, after = .finished call a ∧ Refusal call a)

/-- A settlement that runs may go on or be answered; nothing else happens to its session. -/
theorem SettleSession.goes_on {after : LedgerSession pg} (hs : SettleSession env op session)
    (h : after = session ∨ ∃ call now p, session = .running call now p ∧
      ((∃ p', after = .running call now p') ∨ ∃ a, after = .finished call a)) :
    SettleSession env op after := by
  rcases h with rfl | ⟨call, now, p, rfl, next⟩
  · exact hs
  · unfold SettleSession Unmade at hs ⊢
    cases hp : op.phase with
    | settling response price detail =>
      rw [hp] at hs
      rcases hs with ⟨ha, ⟨_, _, hrun⟩ | ⟨_, hfin⟩⟩
      · cases hrun
        rcases next with ⟨p', rfl⟩ | ⟨a, rfl⟩
        · exact ⟨ha, .inl ⟨_, _, rfl⟩⟩
        · exact ⟨ha, .inr ⟨_, rfl⟩⟩
      · cases hfin
    | ended ending => rw [hp] at hs; cases ending <;> simp at hs
    | _ => rw [hp] at hs; simp at hs

private theorem Advances.settles {after : LedgerSession pg} (h : Advances session after)
    (hs : SettleSession env op session) : SettleSession env op after := by
  apply hs.goes_on
  rcases h with same | ⟨call, now, p, hr, on | ⟨a, fin, _⟩⟩
  · exact .inl same
  · exact .inr ⟨call, now, p, hr, .inl on⟩
  · exact .inr ⟨call, now, p, hr, .inr ⟨a, fin⟩⟩

private theorem Advances.unsettled {after : LedgerSession pg} (h : Advances session after)
    (hu : Unsettled op after) : Unsettled op session := by
  rcases h with rfl | ⟨call, now, p, rfl, _⟩
  · exact hu
  · unfold Unsettled at hu ⊢
    cases hp : op.phase with
    | settling => exact ⟨call, now, p, rfl⟩
    | _ => rw [hp] at hu; exact hu

private theorem Advances.charge {after : LedgerSession pg} (h : Advances session after) :
    charge after = charge session := by
  rcases h with rfl | ⟨call, now, p, rfl, ⟨p', rfl⟩ | ⟨a, rfl, refused⟩⟩
  · rfl
  · rfl
  · cases call with
    | settle org cid d =>
      obtain ⟨e, rfl⟩ := refused org cid d rfl
      rfl
    | _ => rfl

variable {spent₀ : Int} {l l' : LedgerState pg} {ops : List Operation}

/-- A step of the ledger that begins nothing, commits no row and spends nothing. -/
private theorem Books.advance (h : Books env spent₀ l ops) (hh : (outline pg).Holds l')
    (sessions : ∀ t, Advances (l.sessions t) (l'.sessions t))
    (rows : ∀ cid r, l'.db.committed .budgetReservation (env.org, cid) = some r →
      r.status = .committed → ∃ r₀, l.db.committed .budgetReservation (env.org, cid) = some r₀ ∧
        r₀.status = .committed)
    (spends : ∀ b, l.db.committed .orgBudget env.org = some b →
      ∃ b', l'.db.committed .orgBudget env.org = some b' ∧ b'.spent = b.spent) :
    Books env spent₀ l' ops where
  holds := hh
  idle o use ho := by
    rcases sessions (txn o use) with he | ⟨_, _, _, he, _⟩
    · rw [he, h.idle o use ho]
    · rw [h.idle o use ho] at he
      cases he
  kind o use org cid d now p hrun := by
    rcases sessions (txn o use) with he | ⟨_, _, _, hb, ⟨_, he⟩ | ⟨_, he, _⟩⟩
    · exact h.kind o use org cid d now p (he ▸ hrun)
    · rw [he] at hrun
      cases hrun
      exact h.kind o use _ _ _ _ _ hb
    · rw [he] at hrun
      cases hrun
  settles o op ho := (sessions _).settles (h.settles o op ho)
  unpaid o op ho hu r hr hs := by
    obtain ⟨r₀, hr₀, hs₀⟩ := rows _ r hr hs
    exact h.unpaid o op ho ((sessions _).unsettled hu) r₀ hr₀ hs₀
  apart := h.apart
  spent := by
    obtain ⟨b, hb, hspent⟩ := h.spent
    obtain ⟨b', hb', hspent'⟩ := spends b hb
    refine ⟨b', hb', ?_⟩
    rw [hspent', hspent]
    congr 1
    exact Finset.sum_congr rfl fun o _ => ((sessions _).charge).symm

/-- The operation a running settlement belongs to. -/
private theorem Books.settling (h : Books env spent₀ l ops) {t : TxnId} {org : OrgId}
    {cid : CorrelationId} {d : SettlementDetail} {now : Timestamp} {p : LedgerTxn pg}
    (ht : l.sessions t = .running (.settle org cid d) now p) :
    ∃ o op, t = txn o .settle ∧ ops[o]? = some op ∧
      org = env.org ∧ cid = op.request.correlationId ∧
      ∃ response price, op.phase = .settling response price d := by
  obtain ⟨o, use, rfl⟩ := txn_surjective t
  have ho : o < ops.length := by
    by_contra hge
    rw [h.idle o use (Nat.le_of_not_lt hge)] at ht
    cases ht
  obtain rfl := h.kind o use org cid d now p ht
  have hop := List.getElem?_eq_getElem ho
  have hs := h.settles o _ hop
  unfold SettleSession at hs
  refine ⟨o, _, rfl, hop, ?_⟩
  generalize ops[o] = op at hs
  rw [ht] at hs
  cases hp : op.phase with
  | settling r price detail =>
    rw [hp] at hs
    rcases hs with ⟨_, ⟨_, _, hrun⟩ | ⟨_, hfin⟩⟩
    · cases hrun
      exact ⟨rfl, rfl, r, price, rfl⟩
    · cases hfin
  | ended ending => rw [hp] at hs; cases ending <;> simp [Unmade] at hs
  | _ => rw [hp] at hs; simp [Unmade] at hs

/-- A settlement that commits was still to be made: it puts its total on the bill. -/
private theorem Books.commit_settle (h : Books env spent₀ l ops) {t : TxnId} {org : OrgId}
    {cid : CorrelationId} {d : SettlementDetail} {now : Timestamp} {answer : Answer}
    (ht : l.sessions t = .running (.settle org cid d) now (.commit answer))
    (hl : l' = l.set t (l.db.commit t) (.finished (.settle org cid d) answer))
    (hh : (outline pg).Holds l')
    (he : Effect (.settle org cid d) now answer l.db.committed l'.db.committed) :
    Books env spent₀ l' ops := by
  obtain ⟨o, op, rfl, ho, rfl, rfl, response, price, hphase⟩ := h.settling ht
  have unsettled : Unsettled op (l.sessions (txn o .settle)) := by
    simp only [Unsettled, hphase]
    exact ⟨_, _, _, ht⟩
  obtain ⟨rfl, rows, spends⟩ := he.settle_of_unsettled (h.unpaid o op ho unsettled)
  have own : l'.sessions (txn o .settle) =
      .finished (.settle env.org op.request.correlationId d) (.ok .done) := by
    rw [hl, System.set_self]
  have other (t : TxnId) (hne : t ≠ txn o .settle) : l'.sessions t = l.sessions t := by
    rw [hl, System.set_of_ne _ hne]
  refine ⟨hh, fun o' use hge => ?_, fun o' use org cid d now p hrun => ?_, fun o' op' ho' => ?_,
    fun o' op' ho' hu' r hr => ?_, h.apart, ?_⟩
  · have hlt := (List.getElem?_eq_some_iff.mp ho).1
    rw [other _ (fun heq => by have := (txn_injective heq).1; omega)]
    exact h.idle o' use hge
  · by_cases heq : txn o' use = txn o .settle
    · rw [heq, own] at hrun
      cases hrun
    · exact h.kind o' use org cid d now p (other _ heq ▸ hrun)
  · by_cases heq : o' = o
    · subst heq
      cases Option.some.inj (ho.symm.trans ho')
      have hset := h.settles o' op ho
      simp only [SettleSession, hphase] at hset ⊢
      exact ⟨hset.1, .inr ⟨_, own⟩⟩
    · rw [other _ fun h => heq (txn_injective h).1]
      exact h.settles o' op' ho'
  · by_cases heq : o' = o
    · subst heq
      cases Option.some.inj (ho.symm.trans ho')
      rw [own] at hu'
      simp only [Unsettled, hphase] at hu'
      obtain ⟨_, _, _, hrun⟩ := hu'
      cases hrun
    · rw [other _ fun h => heq (txn_injective h).1] at hu'
      have ids := h.apart o' o op' op heq ho' ho hu'.over unsettled.over
      rw [rows _ fun hk => ids (Prod.ext_iff.mp hk).2] at hr
      exact h.unpaid o' op' ho' hu' r hr
  · obtain ⟨b, hb, hspent⟩ := h.spent
    obtain ⟨b', hb', hspent'⟩ := spends b hb
    refine ⟨b', hb', ?_⟩
    have charges (o' : Nat) : charge (l'.sessions (txn o' .settle)) =
        charge (l.sessions (txn o' .settle)) + if o' = o then d.totalCost.amount else 0 := by
      by_cases heq : o' = o
      · subst heq
        rw [own, ht, if_pos rfl]
        exact (Int.zero_add _).symm
      · rw [other _ fun h => heq (txn_injective h).1, if_neg heq, Int.add_zero]
    rw [hspent', hspent, Finset.sum_congr rfl fun o' _ => charges o', Finset.sum_add_distrib,
      Finset.sum_ite_eq', if_pos (Finset.mem_range.mpr (List.getElem?_eq_some_iff.mp ho).1),
      Int.add_assoc]

/-- A step of the ledger keeps the books. -/
theorem Books.step (h : Books env spent₀ l ops) {a : Lib.ReadCommitted.Action (schema pg) Call}
    (hb : ∀ t call, a ≠ .begin t call) (hs : l.step (Sql.ledger pg) a = some l') :
    Books env spent₀ l' ops := by
  obtain ⟨hh, commits⟩ := (outline pg).step_holds h.holds hs
  cases commits with
  | silent hno hc =>
    refine h.advance hh (fun t => ?_) (fun cid r hr hst => ⟨r, hc ▸ hr, hst⟩)
      (fun b hb => ⟨b, hc ▸ hb, rfl⟩)
    rcases System.session_of_step hs hb t with
      he | ⟨call, now, p, hrun, ⟨p', he⟩ | ⟨seen, a', rfl, rfl, _⟩ | ⟨a', rfl, he⟩ | he⟩
    · exact .inl he
    · exact .inr ⟨call, now, p, hrun, .inl ⟨p', he⟩⟩
    · exact absurd hrun (hno _ _ _ _ _ rfl)
    · refine .inr ⟨call, now, _, hrun, .inr ⟨a', he, ?_⟩⟩
      have at_ := h.holds t
      simp only [hrun] at at_
      exact At.refusal at_
    · exact .inr ⟨call, now, p, hrun, .inr ⟨_, he, fun _ _ _ _ => ⟨_, rfl⟩⟩⟩
  | @commit t seen call now answer hrun hl he =>
    by_cases hcall : ∃ org cid d, call = .settle org cid d
    · obtain ⟨org, cid, d, rfl⟩ := hcall
      exact h.commit_settle hrun hl hh he
    · have refusal : Refusal call answer := fun org cid d hc => absurd ⟨org, cid, d, hc⟩ hcall
      have posting := he.posting env.org
      refine h.advance hh (fun u => ?_) (fun cid r hr hst => ?_) (fun b hb => ?_)
      · by_cases hu : u = t
        · subst hu
          exact .inr ⟨call, now, _, hrun, .inr ⟨answer, by rw [hl, System.set_self], refusal⟩⟩
        · exact .inl (by rw [hl, System.set_of_ne _ hu])
      · rcases posting.committed_of hr hst with before | ⟨d, rfl⟩
        · exact before
        · exact absurd ⟨_, _, _, rfl⟩ hcall
      · exact posting.spent_of (fun cid d hc => hcall ⟨_, _, _, hc⟩) hb

/-- An operation goes to its next phase, and may have begun a transaction of its own. -/
private theorem Books.move {o : Nat} {op : Operation} {phase : Phase}
    (h : Books env spent₀ l ops) (ho : ops[o]? = some op) (hover : op.over = false)
    (hh : (outline pg).Holds l') (hc : l'.db.committed = l.db.committed)
    (other : ∀ (o' : Nat) use, o' ≠ o → l'.sessions (txn o' use) = l.sessions (txn o' use))
    (kind : ∀ use org cid d now p,
      l'.sessions (txn o use) = .running (.settle org cid d) now p → use = .settle)
    (settles : SettleSession env { op with phase := phase } (l'.sessions (txn o .settle)))
    (unsettled : Unsettled { op with phase := phase } (l'.sessions (txn o .settle)) →
      Unsettled op (l.sessions (txn o .settle)))
    (hcharge : charge (l'.sessions (txn o .settle)) = charge (l.sessions (txn o .settle))) :
    Books env spent₀ l' (ops.set o { op with phase := phase }) := by
  have hlt := (List.getElem?_eq_some_iff.mp ho).1
  refine ⟨hh, fun o' use hge => ?_, fun o' use org cid d now p hrun => ?_, fun o' op' ho' => ?_,
    fun o' op' ho' hu' r hr => ?_, fun o₁ o₂ op₁ op₂ hne h₁ h₂ hv₁ hv₂ => ?_, ?_⟩
  · rw [List.length_set] at hge
    rw [other o' use (by omega), h.idle o' use hge]
  · by_cases heq : o' = o
    · exact kind use org cid d now p (heq ▸ hrun)
    · exact h.kind o' use org cid d now p (other o' use heq ▸ hrun)
  · rcases getElem?_set_phase ho ho' with ⟨rfl, rfl⟩ | ⟨heq, ho'⟩
    · exact settles
    · rw [other o' .settle heq]
      exact h.settles o' op' ho'
  · rw [hc] at hr
    rcases getElem?_set_phase ho ho' with ⟨rfl, rfl⟩ | ⟨heq, ho'⟩
    · exact h.unpaid o' op ho (unsettled hu') r hr
    · rw [other o' .settle heq] at hu'
      exact h.unpaid o' op' ho' hu' r hr
  · rcases getElem?_set_phase ho h₁ with ⟨rfl, rfl⟩ | ⟨_, h₁'⟩ <;>
      rcases getElem?_set_phase ho h₂ with ⟨rfl, rfl⟩ | ⟨_, h₂'⟩
    · exact absurd rfl hne
    · exact h.apart o₁ o₂ op op₂ hne ho h₂' hover hv₂
    · exact h.apart o₁ o₂ op₁ op hne h₁' ho hv₁ hover
    · exact h.apart o₁ o₂ op₁ op₂ hne h₁' h₂' hv₁ hv₂
  · obtain ⟨b, hb, hspent⟩ := h.spent
    refine ⟨b, hc ▸ hb, ?_⟩
    rw [hspent, List.length_set]
    congr 1
    refine Finset.sum_congr rfl fun o' _ => ?_
    by_cases heq : o' = o
    · rw [heq, hcharge]
    · rw [other o' .settle heq]

/-- A new operation, under an id that is not settled and not in use. -/
private theorem Books.launch (h : Books env spent₀ l ops) {op : Operation}
    (hp : op.phase = .scheduled)
    (unpaid : ∀ r ∈ l.db.committed .budgetReservation (env.org, op.request.correlationId),
      r.status ≠ .committed)
    (apart : ∀ op' ∈ ops, op'.request.correlationId = op.request.correlationId →
      op'.over = true) : Books env spent₀ l (ops ++ [op]) := by
  have idle := h.idle ops.length .settle le_rfl
  refine ⟨h.holds, fun o use hge => h.idle o use ?_, h.kind, fun o op' ho => ?_,
    fun o op' ho hu => ?_, fun o₁ o₂ op₁ op₂ hne h₁ h₂ hv₁ hv₂ => ?_, ?_⟩
  · rw [List.length_append] at hge
    omega
  · rcases getElem?_append_new ho with ⟨rfl, rfl⟩ | ho
    · simp only [SettleSession, hp, idle]
    · exact h.settles o op' ho
  · rcases getElem?_append_new ho with ⟨rfl, rfl⟩ | ho
    · exact fun r hr => unpaid r hr
    · exact h.unpaid o op' ho hu
  · have used {o : Nat} {op' : Operation} (ho : ops[o]? = some op') (hv : op'.over = false) :
        op'.request.correlationId ≠ op.request.correlationId := fun heq => by
      rw [apart op' (List.mem_of_getElem? ho) heq] at hv
      cases hv
    rcases getElem?_append_new h₁ with ⟨rfl, rfl⟩ | h₁' <;>
      rcases getElem?_append_new h₂ with ⟨rfl, rfl⟩ | h₂'
    · exact absurd rfl hne
    · exact (used h₂' hv₂).symm
    · exact used h₁' hv₁
    · exact h.apart o₁ o₂ op₁ op₂ hne h₁' h₂' hv₁ hv₂
  · obtain ⟨b, hb, hspent⟩ := h.spent
    refine ⟨b, hb, ?_⟩
    rw [List.length_append, List.length_singleton, Finset.sum_range_succ, idle]
    exact hspent.trans (by simp [charge])

/-- A transaction begun for operation `o`: its session alone changes. -/
theorem begin_sessions {o : Nat} {use : LedgerUse} {call : Call}
    (hl : l.step (Sql.ledger pg) (.begin (txn o use) call) = some l') :
    l'.db.committed = l.db.committed ∧
      l'.sessions (txn o use) = .running call l.now ((Sql.ledger pg).program call l.now) ∧
      ∀ (o' : Nat) use', ¬ (o' = o ∧ use' = use) →
        l'.sessions (txn o' use') = l.sessions (txn o' use') := by
  obtain rfl := System.begin_eq_some hl
  exact ⟨rfl, System.set_self .., fun o' use' hne =>
    System.set_of_ne _ (fun heq => hne (txn_injective heq)) ..⟩

variable {s s' : State pg κ}

private theorem answers_finished {o : OpId} {a : Answer} (h : s.answers o .settle = some a) :
    ∃ call, s.ledger.sessions (txn o .settle) = .finished call a := by
  unfold State.answers at h
  split at h
  next call _ hs =>
    cases h
    exact ⟨call, hs⟩
  next => cases h

variable [DecidableEq κ]

private theorem Books.operate (h : Books env spent₀ s.ledger s.operations) {o : OpId}
    {op : Operation} {event : Event} {move : Move} (ho : s.operations[o]? = some op)
    (hm : op.move env (s.answers o) event = some move)
    (ha : s.apply env o op move = some s') : Books env spent₀ s'.ledger s'.operations := by
  obtain ⟨hl, hs⟩ := State.apply_eq_some ha
  rw [hs]
  dsimp only
  generalize s'.ledger = l' at hl ⊢
  have hover := Operation.move_over hm
  rcases Operation.move_cases hm (h.settles o op ho) (fun _ => answers_finished) with
    ⟨response, price, detail, hphase, ha, hcall, hidle, hunset⟩ | quiet
  · rw [hcall] at hl
    obtain ⟨hc, hown, hother⟩ := begin_sessions hl
    refine h.move ho hover ((outline pg).step_holds h.holds hl).1 hc
      (fun o' use hne => hother o' use fun heq => hne heq.1) (fun use org cid d now p hrun => ?_) ?_
      (fun _ => hunset) ?_
    · by_cases huse : use = .settle
      · exact huse
      · exact h.kind o use org cid d now p ((hother o use fun heq => huse heq.2) ▸ hrun)
    · simp only [SettleSession, hphase]
      exact ⟨ha, .inl ⟨_, _, hown⟩⟩
    · rw [hown, hidle]
      rfl
  · cases hcall : move.call with
    | none =>
      rw [hcall] at hl
      subst hl
      exact h.move ho hover h.holds rfl (fun _ _ _ => rfl) (h.kind o) quiet.settles quiet.unsettled
        rfl
    | some made =>
      obtain ⟨use, call⟩ := made
      rw [hcall] at hl
      obtain ⟨huse, hnot⟩ := quiet.call use call hcall
      obtain ⟨hc, hown, hother⟩ := begin_sessions hl
      have settle := hother o .settle fun heq => huse heq.2.symm
      refine h.move ho hover ((outline pg).step_holds h.holds hl).1 hc
        (fun o' use' hne => hother o' use' fun heq => hne heq.1)
        (fun use' org cid d now p hrun => ?_) (settle ▸ quiet.settles)
        (fun hu => quiet.unsettled (settle ▸ hu)) (by rw [settle])
      by_cases heq : use' = use
      · rw [heq, hown] at hrun
        cases hrun
        exact absurd rfl (hnot _ _ _)
      · exact h.kind o use' org cid d now p ((hother o use' fun hh => heq hh.2) ▸ hrun)

/-- A step under a fresh id keeps the books. -/
theorem Books.gateway_step {a : Action pg} (fresh : FreshId env s a)
    (hs : s.step env a = some s') (h : Books env spent₀ s.ledger s.operations) :
    Books env spent₀ s'.ledger s'.operations := by
  cases State.step_cases hs with
  | arrive => exact h
  | hit => exact h
  | stream hc hw hh hstream =>
    obtain ⟨unpaid, apart⟩ := fresh _ hc hh (.inl hstream)
    exact h.launch rfl unpaid apart
  | join => exact h
  | begin hc hw hh _ ho =>
    obtain ⟨unpaid, apart⟩ := fresh _ hc hh (.inr ho)
    exact h.launch rfl unpaid apart
  | operate ho hm ha => exact h.operate ho hm ha
  | forget => exact h
  | collect => exact h
  | ledger hb hl => exact h.step hb hl
  | elsewhere => exact h

end LlmGateway.Gateway
