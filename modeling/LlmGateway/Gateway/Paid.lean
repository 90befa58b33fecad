import LlmGateway.Gateway.Books
import LlmGateway.Gateway.OwnAnswer

/-! Every completion handed to a caller is paid for, once, as long as operations start under
fresh ids. -/
namespace LlmGateway.Gateway
open Lib.ReadCommitted Ledger Accounting Execution
open Ledger.Sql hiding reserve settle release

/-- `compute_cost`'s total for the usage a completion reported, at the price it was settled at. -/
def completionCost (py : PythonStr) (response : ProviderResponse) (price : PriceLookup) : Int :=
  match response.usage, price with
  | some usage, .price p =>
    match computeCost py usage p with
    | .ok (_, _, total) => total.amount
    | .error _ => 0
  | _, _ => 0

section
variable {pg : Postgres} {κ : Type} (env : Setting κ) (s : State pg κ)

/-- What operation `o`'s provider call cost, if its completion was handed to a caller as a
successful result. -/
def handedCost (o : OpId) : Int :=
  match s.operations[o]? with
  | some ⟨_, _, .ended (.delivered response price _)⟩ =>
    if s.callers.any fun caller => caller.waiting = .returned (.operation o) then
      completionCost env.python response price
    else 0
  | _ => 0

/-- The total over all provider calls. -/
def handedTotal : Int := ∑ o ∈ Finset.range s.operations.length, handedCost env s o

end

variable {pg : Postgres} {κ : Type} {env : Setting κ} {op : Operation}

theorem completionCost_of_account {py : PythonStr} {response : ProviderResponse}
    {provider : ProviderDescriptor} {price : PriceLookup} {detail : SettlementDetail}
    (h : account py response.usage provider price = .ok detail) :
    completionCost py response price = detail.totalCost.amount := by
  unfold account at h
  unfold completionCost
  cases hu : response.usage with
  | none => simp [hu] at h
  | some usage =>
    simp only [hu] at h
    split_ifs at h
    cases price with
    | unavailable => cases h
    | unpriced => cases h
    | price p =>
      dsimp only at h ⊢
      cases hc : computeCost py usage p with
      | error e => rw [hc] at h; cases h
      | ok costs => rw [hc] at h; cases h; rfl

/-- The caller waits for operation `o`, or has its result. -/
def Waiting.Of (o : OpId) : Waiting → Prop
  | .awaiting o' | .returned (.operation o') => o' = o
  | _ => False

/-- Every operation has a caller, and results come from operations that are over. -/
structure Handed (s : State pg κ) : Prop where
  awaited : ∀ o < s.operations.length, ∃ (c : CallId) (caller : Caller),
    s.callers[c]? = some caller ∧ caller.waiting.Of o
  finished : ∀ (c : CallId) (caller : Caller) (o : OpId), s.callers[c]? = some caller →
    caller.waiting = .returned (.operation o) → ∃ op, s.operations[o]? = some op ∧ op.over = true

variable {s s' : State pg κ}

private theorem Handed.arrive (h : Handed s) (request : InferenceRequest) (streamed : Bool) :
    Handed { s with callers := s.callers ++ [⟨request, streamed, .looking⟩] } where
  awaited o ho := by
    obtain ⟨c, caller, hc, hw⟩ := h.awaited o ho
    exact ⟨c, caller, by rw [List.getElem?_append_left (List.getElem?_eq_some_iff.mp hc).1, hc], hw⟩
  finished c caller o hc hw := by
    rcases getElem?_append_new hc with ⟨_, rfl⟩ | hc
    · cases hw
    · exact h.finished c caller o hc hw

private theorem Handed.setWaiting (h : Handed s) {c : CallId} {caller : Caller} {waiting : Waiting}
    (hc : s.callers[c]? = some caller) (keeps : ∀ o, caller.waiting.Of o → waiting.Of o)
    (finished : ∀ o, waiting = .returned (.operation o) →
      ∃ op, s.operations[o]? = some op ∧ op.over = true) : Handed (s.setWaiting c waiting) where
  awaited o ho := by
    obtain ⟨c', caller', hc', hw⟩ := h.awaited o ho
    refine ⟨c', _, (State.setWaiting_callers c c' waiting).trans (congrArg _ hc'), ?_⟩
    split_ifs with heq
    · subst heq
      cases Option.some.inj (hc.symm.trans hc')
      exact keeps o hw
    · exact hw
  finished c' caller' o hc' hw := by
    rw [State.setWaiting_callers] at hc'
    obtain ⟨before, hb, rfl⟩ := Option.map_eq_some_iff.mp hc'
    split_ifs at hw with heq
    · exact finished o hw
    · exact h.finished c' before o hb hw

/-- A caller that was looking awaits the operation it has started. -/
private theorem Handed.launch (h : Handed s) {c : CallId} {caller : Caller}
    (hc : s.callers[c]? = some caller) (hw : caller.waiting = .looking) :
    Handed (s.launch c caller) := by
  have others : Handed (s.setWaiting c (.awaiting s.operations.length)) :=
    h.setWaiting hc (fun o ho => by rw [hw] at ho; exact ho.elim) (fun _ h => by cases h)
  refine ⟨fun o ho => ?_, fun c' caller' o hc' hw' => ?_⟩
  · by_cases hlt : o < s.operations.length
    · exact others.awaited o hlt
    · refine ⟨c, _, (State.setWaiting_callers c c _).trans (congrArg _ hc), ?_⟩
      have : o = s.operations.length := by
        simp only [State.launch, List.length_append, List.length_singleton] at ho
        omega
      dsimp only
      rw [if_pos rfl]
      exact this.symm
  · obtain ⟨op, hop, hover⟩ := others.finished c' caller' o hc' hw'
    exact ⟨op, List.getElem?_append_left (List.getElem?_eq_some_iff.mp hop).1 ▸ hop, hover⟩

variable [DecidableEq κ]

private theorem Handed.operate (h : Handed s) {o : OpId} {event : Event} {move : Move}
    (ho : s.operations[o]? = some op) (hm : op.move env (s.answers o) event = some move)
    (ha : s.apply env o op move = some s') : Handed s' := by
  obtain ⟨_, hs⟩ := State.apply_eq_some ha
  rw [hs]
  refine ⟨fun o' ho' => h.awaited o' (by simpa using ho'), fun c caller o' hc hw => ?_⟩
  obtain ⟨op', hop', hover⟩ := h.finished c caller o' hc hw
  refine ⟨op', ?_, hover⟩
  dsimp only
  rwa [List.getElem?_set_ne]
  rintro rfl
  -- An operation that is over makes no more moves.
  cases Option.some.inj (ho.symm.trans hop')
  rw [Operation.move_over hm] at hover
  cases hover

theorem Handed.step {a : Action pg} (hs : s.step env a = some s') (h : Handed s) : Handed s' := by
  cases State.step_cases hs with
  | arrive => exact h.arrive _ _
  | hit hc hw _ =>
    exact h.setWaiting hc (fun o ho => by rw [hw] at ho; exact ho.elim) (fun _ h => by cases h)
  | stream hc hw _ _ => exact h.launch hc hw
  | join hc hw _ _ _ =>
    exact h.setWaiting hc (fun o ho => by rw [hw] at ho; exact ho.elim) (fun _ h => by cases h)
  | begin hc hw _ _ _ => exact ⟨(h.launch hc hw).awaited, (h.launch hc hw).finished⟩
  | operate ho hm ha => exact h.operate ho hm ha
  | forget => exact ⟨h.awaited, h.finished⟩
  | collect hc hw ho he =>
    refine h.setWaiting hc (fun o' hof => by rw [hw] at hof; exact hof) fun o' heq => ?_
    cases heq
    exact ⟨_, ho, by simp only [Operation.over, he]⟩
  | ledger => exact ⟨h.awaited, h.finished⟩
  | elsewhere => exact ⟨h.awaited, h.finished⟩

omit [DecidableEq κ] in
private theorem Unmade.charge {session : LedgerSession pg} (h : Unmade session) :
    charge session = 0 := by
  rcases h with rfl | ⟨call, e, rfl⟩
  · rfl
  · cases call <;> rfl

omit [DecidableEq κ] in
/-- An operation whose caller has its result has put on the bill what it handed over. -/
private theorem Handed.cost (h : Handed s)
    (returned : ∀ caller ∈ s.callers, ∃ source, caller.waiting = .returned source) {o : OpId}
    (ho : s.operations[o]? = some op)
    (hs : SettleSession env op (s.ledger.sessions (txn o .settle))) :
    handedCost env s o = charge (s.ledger.sessions (txn o .settle)) := by
  obtain ⟨c, caller, hc, hof⟩ := h.awaited o (List.getElem?_eq_some_iff.mp ho).1
  have own : caller.waiting = .returned (.operation o) := by
    obtain ⟨source, hw⟩ := returned caller (List.mem_of_getElem? hc)
    rw [hw] at hof ⊢
    cases source with
    | cache => exact hof.elim
    | operation o' => cases hof; rfl
  have handed : (s.callers.any fun caller => caller.waiting = .returned (.operation o)) = true :=
    List.any_eq_true.mpr ⟨caller, List.mem_of_getElem? hc, by simpa using own⟩
  obtain ⟨op', ho', hover⟩ := h.finished c caller o hc own
  cases Option.some.inj (ho.symm.trans ho')
  obtain ⟨request, streamed, phase⟩ := op
  cases phase with
  | ended ending =>
    cases ending with
    | delivered response price detail =>
      obtain ⟨ha, reply, hfin⟩ := hs
      rw [handedCost, ho, hfin]
      dsimp only
      rw [if_pos handed, completionCost_of_account ha]
      rfl
    | refused result =>
      rw [handedCost, ho, Unmade.charge hs]
    | raised e =>
      rw [handedCost, ho, Unmade.charge hs]
  | _ => cases hover

/-- In every run in which operations start only under ledger ids that are not settled and not in
use, once every caller has its result the organization's spend has grown by exactly what the
completions handed over cost. -/
theorem completions_paid_once {pg : Postgres} {κ : Type} [DecidableEq κ] (env : Setting κ)
    (T : Tables (schema pg)) (now : Timestamp) (cache : κ → Option Entry) (b₀ : OrgBudget)
    (budget : T.rows .orgBudget env.org = some b₀) (as : List (Action pg)) (s : State pg κ)
    (fresh : (State.initial T now cache).Along env (FreshId env) as)
    (run : (State.initial T now cache).run env as = some s)
    (returned : ∀ caller ∈ s.callers, ∃ source, caller.waiting = .returned source) :
    ∃ b, s.ledger.db.committed .orgBudget env.org = some b ∧
      b.spent - b₀.spent = handedTotal env s := by
  have opened : Books env b₀.spent (.start T now) [] :=
    { holds := (outline pg).start_holds T now
      idle := fun _ _ _ => rfl
      kind := fun _ _ _ _ _ _ _ h => (by cases h)
      settles := fun _ _ h => (by cases h)
      unpaid := fun _ _ h => (by cases h)
      apart := fun _ _ _ _ _ h => (by cases h)
      spent := ⟨b₀, budget, (Int.add_zero _).symm⟩ }
  have unasked : Handed (State.initial T now cache) :=
    ⟨fun o ho => absurd ho (Nat.not_lt_zero o), fun _ _ _ h => by cases h⟩
  have books : Books env b₀.spent s.ledger s.operations :=
    State.run_rule (P := fun s => Books env b₀.spent s.ledger s.operations) Books.gateway_step
      opened fresh run
  have handed : Handed s := State.run_rule (fun _ => Handed.step) unasked fresh run
  obtain ⟨b, hb, hspent⟩ := books.spent
  refine ⟨b, hb, ?_⟩
  rw [hspent, add_sub_cancel_left, handedTotal]
  refine Finset.sum_congr rfl fun o ho => ?_
  have hop := List.getElem?_eq_getElem (Finset.mem_range.mp ho)
  exact (handed.cost returned hop (books.settles o _ hop)).symm

/-- Two calls one after the other, the second under `correlationId`. -/
def inTurn (correlationId : String) (held booked : Nat) : List (Action contended) :=
  [.arrive (asking "x#1" "payload") false, .lookup 0 true] ++ exchange 0 "answer" 6 5 ++
    [.collect 0, .forget 0, .arrive (asking correlationId "another payload") false,
      .lookup 1 true] ++ exchange 1 "another answer" held booked ++ [.collect 1]

/-- The organization's spend after a run. -/
def State.spent (s : State contended String) : Option Int :=
  (s.ledger.db.committed .orgBudget plain.org).map (·.spent)

def State.allReturned (s : State contended String) : Bool :=
  s.callers.all fun caller => caller.waiting matches .returned _

private theorem returned_of_allReturned {s : State contended String} (h : s.allReturned = true) :
    ∀ caller ∈ s.callers, ∃ source, caller.waiting = .returned source := by
  intro caller hm
  have := List.all_eq_true.mp h caller hm
  cases hw : caller.waiting with
  | returned source => exact ⟨source, rfl⟩
  | _ => rw [hw] at this; cases this

/-- Under ids of their own, both completions are on the bill. -/
theorem completions_paid_once_in_turn :
    ∃ s, budgeted.run plain (inTurn "y#1" 6 5) = some s ∧ handedTotal plain s = 3400 ∧
      ∃ b, s.ledger.db.committed .orgBudget plain.org = some b ∧
        b.spent - opening.spent = handedTotal plain s := by
  have ran : ((budgeted.run plain (inTurn "y#1" 6 5)).any fun s =>
      s.allReturned && decide (handedTotal plain s = 3400)) = true := by decide +kernel
  obtain ⟨s, hs, hany⟩ := Option.any_eq_true _ _ |>.mp ran
  simp only [Bool.and_eq_true, decide_eq_true_eq] at hany
  exact ⟨s, hs, hany.2, completions_paid_once plain (configured contended 1 opening) 0 (fun _ => none)
    opening rfl _ s (by decide +kernel) hs (returned_of_allReturned hany.1)⟩

/-- Another payload under an id that has been settled: its reserve replays, its settlement does
nothing, and the second completion is free. -/
theorem reused_id_is_served_free :
    ¬ ∀ s : State contended String, budgeted.run plain (inTurn "x#1" 3 2) = some s →
      (∀ caller ∈ s.callers, ∃ source, caller.waiting = .returned source) →
      ∃ b, s.ledger.db.committed .orgBudget plain.org = some b ∧
        b.spent - opening.spent = handedTotal plain s := by
  intro claim
  have ran : ((budgeted.run plain (inTurn "x#1" 3 2)).any fun s =>
      s.allReturned && decide (handedTotal plain s = 3400 ∧ s.spent = some 1700)) = true := by
    decide +kernel
  obtain ⟨s, hs, hany⟩ := Option.any_eq_true _ _ |>.mp ran
  simp only [Bool.and_eq_true, decide_eq_true_eq] at hany
  obtain ⟨hret, htotal, hspent⟩ := hany
  obtain ⟨b, hb, hbill⟩ := claim s hs (returned_of_allReturned hret)
  rw [State.spent, hb, Option.map_some, Option.some.injEq] at hspent
  simp only [opening] at hbill
  omega

end LlmGateway.Gateway
