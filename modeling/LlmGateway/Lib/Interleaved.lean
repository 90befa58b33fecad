import Mathlib.Logic.Function.Basic
import Mathlib.Data.List.Basic

/-! Programs over a shared state, interleaved one operation at a time. An operation is atomic; what it
draws from outside comes with the step that performs it. -/
namespace LlmGateway.Lib.Interleaved

/-- Operations on a shared state. One that raises leaves the state alone. -/
structure Ports where
  State : Type
  World : Type
  Op : Type
  Answer : Op → Type
  Raised : Type
  perform : World → State → (o : Op) → Except Raised (Answer o × State)

/-- Operations, each continuing on its answer, and then a result or an exception. -/
inductive Program (P : Ports) (α : Type) where
  | ret (a : α)
  | raise (e : P.Raised)
  | perform (o : P.Op) (next : P.Answer o → Program P α)

/-- An operation and its answer. -/
abbrev Event (P : Ports) := (o : P.Op) × P.Answer o

abbrev ClientId := Nat

inductive Client (P : Ports) (ι α : Type) where
  | idle
  | running (call : ι) (trace : List (Event P)) (rest : Program P α)
  | finished (call : ι) (trace : List (Event P)) (result : Except P.Raised α)

structure System (P : Ports) (ι α : Type) where
  shared : P.State
  clients : ClientId → Client P ι α

inductive Action (P : Ports) (ι : Type) where
  | begin (t : ClientId) (call : ι)
  | step (t : ClientId) (w : P.World)
  | abort (t : ClientId) (e : P.Raised)

variable {P : Ports} {ι α : Type}

/-- The program served with nothing in between, its operations drawing on one world after the other. -/
def Program.alone : Program P α → (ℕ → P.World) → P.State → P.State × Except P.Raised α
  | .ret a, _, σ => (σ, .ok a)
  | .raise e, _, σ => (σ, .error e)
  | .perform o next, w, σ =>
    match P.perform (w 0) σ o with
    | .ok (r, σ') => (next r).alone (fun n => w (n + 1)) σ'
    | .error e => (σ, .error e)

/-- An operation raises, or the program goes on from its answer. -/
theorem Program.alone_perform {o : P.Op} {next : P.Answer o → Program P α} {w : ℕ → P.World} {σ : P.State}
    (Q : P.State × Except P.Raised α → Prop) (raised : ∀ e, P.perform (w 0) σ o = .error e → Q (σ, .error e))
    (answered : ∀ r σ', P.perform (w 0) σ o = .ok (r, σ') → Q ((next r).alone (fun n => w (n + 1)) σ')) :
    Q ((Program.perform o next).alone w σ) := by
  rw [alone]
  split
  · rename_i done
    exact answered _ _ done
  · rename_i failed
    exact raised _ failed

/-- What every operation keeps, a program served alone keeps. -/
theorem Program.alone_rule (I : P.State → Prop)
    (keep : ∀ {w σ o r σ'}, P.perform w σ o = .ok (r, σ') → I σ → I σ') (p : Program P α) (w : ℕ → P.World) {σ : P.State}
    (h : I σ) : I (p.alone w σ).1 := by
  induction p generalizing w σ with
  | ret => exact h
  | raise => exact h
  | perform o next ih => exact alone_perform (fun end_ => I end_.1) (fun _ _ => h) fun r _ done => ih r _ (keep done h)

/-- After the trace, each operation of the program finds its guard, and a result its postcondition. -/
def Program.Meets (guard : List (Event P) → P.Op → Prop) (post : List (Event P) → α → Prop) :
    List (Event P) → Program P α → Prop
  | trace, .ret a => post trace a
  | _, .raise _ => True
  | trace, .perform o next => guard trace o ∧ ∀ r, (next r).Meets guard post (trace ++ [⟨o, r⟩])

/-- The operations a client has performed. -/
def Client.trace : Client P ι α → List (Event P)
  | .idle => []
  | .running _ trace _ => trace
  | .finished _ trace _ => trace

/-- The client's call, and the operations it has performed for it. -/
inductive Client.Serves : Client P ι α → ι → List (Event P) → Prop where
  | running {call trace rest} : Serves (.running call trace rest) call trace
  | finished {call trace result} : Serves (.finished call trace result) call trace

theorem Client.Serves.trace_eq {client : Client P ι α} {call : ι} {trace : List (Event P)}
    (h : client.Serves call trace) : client.trace = trace := by
  cases h <;> rfl

/-- An event of a trace that has grown by one. -/
theorem mem_grown {T : ClientId → List (Event P)} {t u : ClientId} {e e' : Event P}
    (h : e' ∈ Function.update T t (T t ++ [e]) u) : e' ∈ T u ∨ u = t ∧ e' = e := by
  by_cases hu : u = t
  · subst hu
    rw [Function.update_self, List.mem_append, List.mem_singleton] at h
    exact h.imp_right fun same => ⟨rfl, same⟩
  · rw [Function.update_of_ne hu] at h
    exact .inl h

namespace System

def traces (s : System P ι α) : ClientId → List (Event P) := fun t => (s.clients t).trace

def set (s : System P ι α) (t : ClientId) (shared : P.State) (client : Client P ι α) : System P ι α :=
  ⟨shared, Function.update s.clients t client⟩

def start (σ : P.State) : System P ι α := ⟨σ, fun _ => .idle⟩

variable (program : ι → Program P α)

theorem mem_traces {s : System P ι α} {t : ClientId} {e : Event P} (h : e ∈ s.traces t) :
    ∃ call trace, (s.clients t).Serves call trace ∧ e ∈ trace := by
  unfold traces at h
  generalize s.clients t = client at h ⊢
  cases client with
  | idle => cases h
  | running call trace => exact ⟨call, trace, .running, h⟩
  | finished call trace => exact ⟨call, trace, .finished, h⟩

/-- One scheduler step; `none` when the action is not enabled. -/
def step (s : System P ι α) : Action P ι → Option (System P ι α)
  | .begin t call =>
    match s.clients t with
    | .idle => some (s.set t s.shared (.running call [] (program call)))
    | _ => none
  | .step t w =>
    match s.clients t with
    | .running call trace (.ret a) => some (s.set t s.shared (.finished call trace (.ok a)))
    | .running call trace (.raise e) => some (s.set t s.shared (.finished call trace (.error e)))
    | .running call trace (.perform o next) =>
      match P.perform w s.shared o with
      | .ok (r, shared) => some (s.set t shared (.running call (trace ++ [⟨o, r⟩]) (next r)))
      | .error e => some (s.set t s.shared (.finished call trace (.error e)))
    | _ => none
  | .abort t e =>
    match s.clients t with
    | .running call trace _ => some (s.set t s.shared (.finished call trace (.error e)))
    | _ => none

def run (s : System P ι α) : List (Action P ι) → Option (System P ι α)
  | [] => some s
  | a :: rest => (s.step program a).bind fun s' => run s' rest

/-- Every step of the run meets `C`, a condition on the state before it. -/
def Along (C : System P ι α → Action P ι → Prop) (s : System P ι α) : List (Action P ι) → Prop
  | [] => True
  | a :: rest => C s a ∧ ∀ s', s.step program a = some s' → Along C s' rest

/-- `Along`, evaluated. -/
def alongCheck (C : System P ι α → Action P ι → Prop) [∀ s a, Decidable (C s a)] (s : System P ι α) :
    List (Action P ι) → Bool
  | [] => true
  | a :: rest => decide (C s a) && (s.step program a).all fun s' => alongCheck C s' rest

theorem alongCheck_iff (C : System P ι α → Action P ι → Prop) [∀ s a, Decidable (C s a)] (s : System P ι α)
    (as : List (Action P ι)) : s.alongCheck program C as = true ↔ s.Along program C as := by
  induction as generalizing s with
  | nil => exact ⟨fun _ => trivial, fun _ => rfl⟩
  | cons a as ih =>
    rw [alongCheck, Along, Bool.and_eq_true, decide_eq_true_eq]
    refine and_congr_right fun _ => ?_
    cases s.step program a with
    | none => simp
    | some s₁ => simp [ih]

/-- Everything a step can do. -/
inductive Transition (s : System P ι α) : Action P ι → System P ι α → Prop where
  | begin {t call} : s.clients t = .idle →
      Transition s (.begin t call) (s.set t s.shared (.running call [] (program call)))
  | answer {t w call trace o next r shared} : s.clients t = .running call trace (.perform o next) →
      P.perform w s.shared o = .ok (r, shared) →
      Transition s (.step t w) (s.set t shared (.running call (trace ++ [⟨o, r⟩]) (next r)))
  | ret {t w call trace a} : s.clients t = .running call trace (.ret a) →
      Transition s (.step t w) (s.set t s.shared (.finished call trace (.ok a)))
  | raise {t a call trace rest e} : s.clients t = .running call trace rest →
      Transition s a (s.set t s.shared (.finished call trace (.error e)))

variable {program} {s s' : System P ι α} {a : Action P ι}

theorem step_cases (h : s.step program a = some s') : Transition program s a s' := by
  cases a with
  | begin t call =>
    simp only [step] at h
    split at h
    · rename_i idle
      cases h
      exact .begin idle
    · cases h
  | step t w =>
    simp only [step] at h
    split at h
    · rename_i running
      cases h
      exact .ret running
    · rename_i running
      cases h
      exact .raise running
    · rename_i running
      split at h
      · rename_i answer
        cases h
        exact .answer running answer
      · cases h
        exact .raise running
    · cases h
  | abort t e =>
    simp only [step] at h
    split at h
    · rename_i running
      cases h
      exact .raise running
    · cases h

/-- A step performs one operation, or changes neither the state nor any trace. -/
inductive Performs (s s' : System P ι α) : Action P ι → Prop where
  | silent {b} : s'.shared = s.shared → s'.traces = s.traces → Performs s s' b
  | answer {t w call trace o next r} : s.clients t = .running call trace (.perform o next) →
      P.perform w s.shared o = .ok (r, s'.shared) →
      s'.traces = Function.update s.traces t (s.traces t ++ [⟨o, r⟩]) → Performs s s' (.step t w)

private theorem traces_set (s : System P ι α) (t : ClientId) (shared : P.State) (client : Client P ι α) :
    (s.set t shared client).traces = Function.update s.traces t client.trace := by
  funext u
  by_cases hu : u = t
  · subst hu
    simp only [traces, set, Function.update_self]
  · simp only [traces, set, Function.update_of_ne hu]

theorem step_performs (hs : s.step program a = some s') : s.Performs s' a := by
  have same {t : ClientId} {client : Client P ι α} (h : client.trace = (s.clients t).trace) :
      (s.set t s.shared client).traces = s.traces := by
    rw [traces_set, h]
    exact Function.update_eq_self ..
  cases step_cases hs with
  | begin idle => exact .silent rfl (same (by rw [idle]; rfl))
  | answer running answer =>
    refine .answer running answer ?_
    rw [traces_set]
    simp only [traces, running, Client.trace]
  | ret running => exact .silent rfl (same (by rw [running]; rfl))
  | raise running => exact .silent rfl (same (by rw [running]; rfl))

variable (program) in
/-- In the run of the schedule from `s`, client `t` performs `o` with the answer `r`, drawing on `w`. -/
def Performed (s : System P ι α) (schedule : List (Action P ι)) (t : ClientId) (w : P.World) (o : P.Op)
    (r : P.Answer o) : Prop :=
  ∃ before after s₁ call trace next shared, schedule = before ++ .step t w :: after ∧
    s.run program before = some s₁ ∧ s₁.clients t = .running call trace (.perform o next) ∧
    P.perform w s₁.shared o = .ok (r, shared)

/-- Every event of a trace was performed, at one of the steps. -/
theorem performed_of_mem {schedule : List (Action P ι)} (hr : s.run program schedule = some s') {t : ClientId} {o : P.Op}
    {r : P.Answer o} (h : (⟨o, r⟩ : Event P) ∈ s'.traces t) :
    ⟨o, r⟩ ∈ s.traces t ∨ ∃ w, s.Performed program schedule t w o r := by
  induction schedule generalizing s with
  | nil =>
    cases hr
    exact .inl h
  | cons a rest ih =>
    obtain ⟨s₁, step, hr⟩ := Option.bind_eq_some_iff.mp hr
    rcases ih hr with old | ⟨w, before, after, s₂, call, trace, next, shared, rfl, reached, performs⟩
    · cases step_performs step with
      | silent _ traces => exact .inl (traces ▸ old)
      | @answer u w call trace _ next _ running answer traces =>
        rcases mem_grown (traces ▸ old) with older | ⟨rfl, new⟩
        · exact .inl older
        · cases new
          exact .inr ⟨w, [], rest, s, call, trace, next, s₁.shared, rfl, rfl, running, answer⟩
    · refine .inr ⟨w, a :: before, after, s₂, call, trace, next, shared, rfl, ?_, performs⟩
      rw [run, step]
      exact reached

/-- What holds along a run holds at each of its steps. -/
theorem Along.at {C : System P ι α → Action P ι → Prop} {before after : List (Action P ι)} {s₁ : System P ι α}
    (h : s.Along program C (before ++ a :: after)) (hr : s.run program before = some s₁) : C s₁ a := by
  induction before generalizing s with
  | nil =>
    cases hr
    exact h.1
  | cons b rest ih =>
    obtain ⟨s₂, step, hr⟩ := Option.bind_eq_some_iff.mp hr
    exact ih (h.2 s₂ step) hr

theorem Along.imp {C D : System P ι α → Action P ι → Prop} (h : ∀ s a, C s a → D s a) {s : System P ι α}
    {as : List (Action P ι)} (hc : s.Along program C as) : s.Along program D as := by
  induction as generalizing s with
  | nil => trivial
  | cons a as ih => exact ⟨h s a hc.1, fun s' step => ih (hc.2 s' step)⟩

theorem along_true (s : System P ι α) (as : List (Action P ι)) : s.Along program (fun _ _ => True) as := by
  induction as generalizing s with
  | nil => trivial
  | cons a as ih => exact ⟨trivial, fun s' _ => ih s'⟩

end System

/-- What each call guards its operations by, and what it ensures of its result, in terms of its own trace. -/
structure Contract (program : ι → Program P α) where
  guard : ι → List (Event P) → P.Op → Prop
  post : ι → List (Event P) → α → Prop
  meets : ∀ call, (program call).Meets (guard call) (post call) []

namespace Contract
variable {program : ι → Program P α} (c : Contract program) {s s' : System P ι α} {a : Action P ι}

/-- Every operation of the trace found its guard. -/
def Guarded (guard : List (Event P) → P.Op → Prop) (trace : List (Event P)) : Prop :=
  ∀ before o r behind, trace = before ++ ⟨o, r⟩ :: behind → guard before o

theorem Guarded.nil (guard : List (Event P) → P.Op → Prop) : Guarded guard [] := by
  intro before o r behind h
  exact absurd h.symm (List.append_ne_nil_of_right_ne_nil _ (List.cons_ne_nil _ _))

theorem Guarded.append {guard : List (Event P) → P.Op → Prop} {trace : List (Event P)} (h : Guarded guard trace)
    {o : P.Op} (found : guard trace o) (r : P.Answer o) : Guarded guard (trace ++ [⟨o, r⟩]) := by
  intro before o' r' behind split
  rcases List.eq_nil_or_concat behind with rfl | ⟨behind, e, rfl⟩
  · obtain ⟨rfl, last⟩ := List.append_inj' split rfl
    cases last
    exact found
  · rw [List.concat_eq_append, ← List.cons_append, ← List.append_assoc] at split
    obtain ⟨rfl, -⟩ := List.append_inj' split rfl
    exact h before o' r' behind rfl

def Of : Client P ι α → Prop
  | .idle => True
  | .running call trace rest => Guarded (c.guard call) trace ∧ rest.Meets (c.guard call) (c.post call) trace
  | .finished call trace result => Guarded (c.guard call) trace ∧ ∀ a, result = .ok a → c.post call trace a

def Holds (s : System P ι α) : Prop := ∀ t, c.Of (s.clients t)

theorem start_holds (σ : P.State) : c.Holds (.start σ) := fun _ => trivial

variable {c} in
theorem Holds.guarded (h : c.Holds s) {t : ClientId} {call : ι} {trace : List (Event P)}
    (serves : (s.clients t).Serves call trace) : Guarded (c.guard call) trace := by
  have own := h t
  generalize s.clients t = client at serves own
  cases serves with
  | running => exact own.1
  | finished => exact own.1

variable {c} in
theorem Holds.returned (h : c.Holds s) {t : ClientId} {call : ι} {trace : List (Event P)} {a : α}
    (done : s.clients t = .finished call trace (.ok a)) : c.post call trace a := by
  have own := h t
  rw [done] at own
  exact own.2 a rfl

private theorem holds_set (h : c.Holds s) (t : ClientId) (shared : P.State) {client : Client P ι α}
    (own : c.Of client) : c.Holds (s.set t shared client) := by
  intro u
  by_cases hu : u = t
  · subst hu
    simpa only [System.set, Function.update_self] using own
  · simpa only [System.set, Function.update_of_ne hu] using h u

theorem step_holds (h : c.Holds s) (hs : s.step program a = some s') : c.Holds s' := by
  cases System.step_cases hs with
  | begin => exact c.holds_set h _ _ ⟨.nil _, c.meets _⟩
  | @answer t _ call trace o next r _ running =>
    have own := h t
    rw [running] at own
    exact c.holds_set h _ _ ⟨own.1.append own.2.1 r, own.2.2 r⟩
  | @ret t _ call trace a running =>
    have own := h t
    rw [running] at own
    refine c.holds_set h _ _ ⟨own.1, fun a' same => ?_⟩
    cases same
    exact own.2
  | @raise t _ call trace rest e running =>
    have own := h t
    rw [running] at own
    exact c.holds_set h _ _ ⟨own.1, nofun⟩

/-- The run rule: what every step that meets `C` keeps, a run keeps. -/
theorem along_rule (C : System P ι α → Action P ι → Prop) (I : System P ι α → Prop)
    (keep : ∀ {s s' a}, c.Holds s → C s a → s.step program a = some s' → I s → I s') {as : List (Action P ι)}
    (holds : c.Holds s) (hi : I s) (hc : s.Along program C as) (hr : s.run program as = some s') :
    c.Holds s' ∧ I s' := by
  induction as generalizing s with
  | nil =>
    cases hr
    exact ⟨holds, hi⟩
  | cons a as ih =>
    obtain ⟨s₁, step, rest⟩ := Option.bind_eq_some_iff.mp hr
    exact ih (c.step_holds holds step) (keep holds hc.1 step hi) (hc.2 s₁ step) rest

/-- The rule for a property of the state and the traces that every guarded operation keeps. -/
theorem run_rule (I : P.State → (ClientId → List (Event P)) → Prop)
    (keep : ∀ {σ σ' T t w o r call}, I σ T → c.guard call (T t) o → P.perform w σ o = .ok (r, σ') →
      I σ' (Function.update T t (T t ++ [⟨o, r⟩])))
    {as : List (Action P ι)} (holds : c.Holds s) (hi : I s.shared s.traces) (hr : s.run program as = some s') :
    c.Holds s' ∧ I s'.shared s'.traces := by
  refine c.along_rule (fun _ _ => True) (fun s => I s.shared s.traces) ?_ holds hi (System.along_true s as) hr
  intro s s' a holds _ step hi
  cases System.step_performs step with
  | silent shared traces =>
    rw [shared, traces]
    exact hi
  | @answer t _ call trace _ _ _ running answer traces =>
    have own := holds t
    rw [running] at own
    have mine : s.traces t = trace := by simp only [System.traces, running, Client.trace]
    rw [traces]
    exact keep hi (mine ▸ own.2.1) answer

end Contract
end LlmGateway.Lib.Interleaved
