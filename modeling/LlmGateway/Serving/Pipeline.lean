import Mathlib.Data.List.Basic
import Mathlib.Data.List.Nodup

/-! `RequestPipeline`: the admission chain, over stages that may answer anything. -/
namespace LlmGateway.Serving

/-- An exception, by the name of its class. -/
abbrev PyError := String

inductive StageAction where
  | continue_
  | annotate
  | block
  deriving DecidableEq, Repr

/-- What an annotation may hold. -/
inductive PyValue (ρ : Type) where
  | text (s : String)
  | bool (b : Bool)
  /-- A `RoutingExecution`. -/
  | routing (execution : ρ)
  | foreign

/-- What stands in a result's `action`: a `StageAction`, or another object by what reading its
`value` does. -/
inductive Action where
  | member (action : StageAction)
  | foreign (value : Except PyError Unit)

/-- What stands in a result's `reason`. Another object is known by what its first and its second
truth test do. -/
inductive Reason where
  | none
  | text (s : String)
  | foreign (first second : Except PyError Bool)

/-- What stands in a result's `annotations`. A mapping may still fail to give its items; what is no
mapping may be accepted by `dict`. -/
inductive Annotations (ρ : Type) where
  | mapping (items : Except PyError (String → Option (PyValue ρ)))
  | pairs (items : String → Option (PyValue ρ))
  | other (error : PyError)

structure StageResult (ρ : Type) where
  action : Action
  reason : Reason
  annotations : Annotations ρ

/-- What `before_request` does. An exception is known by its `type: message` text, an object that is
no `StageResult` by the name of its type; making either text may itself raise. -/
inductive Behaviour (ρ : Type) where
  | raises (detail : Except PyError String)
  | returns (result : StageResult ρ)
  | returnsOther (typeName : Except PyError String)

structure StageContext where
  correlationId : String
  organizationId : Option (BitVec 128)
  principalId : Option (BitVec 128)
  attributes : List (String × String)

/-- A stage: its answer, and what it does to the world while it decides. -/
structure PipelineStage (W ρ : Type) where
  name : String
  beforeRequest : StageContext → Behaviour ρ
  effect : StageContext → W → W

namespace Action

/-- `action.value`. -/
def value : Action → Except PyError Unit
  | .member _ => .ok ()
  | .foreign value => value

def isBlock : Action → Bool
  | .member action => action = .block
  | .foreign _ => false

end Action

namespace Reason

/-- The truth test when a result is read. -/
def first : Reason → Except PyError Bool
  | .none => .ok false
  | .text s => .ok (s ≠ "")
  | .foreign first _ => first

/-- The truth test when the outcome is made. -/
def second : Reason → Except PyError Bool
  | .none => .ok false
  | .text s => .ok (s ≠ "")
  | .foreign _ second => second

end Reason

namespace Annotations
variable {ρ : Type}

/-- `dict(annotations)`. -/
def dict : Annotations ρ → Except PyError (String → Option (PyValue ρ))
  | .mapping items => items
  | .pairs items => .ok items
  | .other error => .error error

/-- `**annotations`. -/
def unpack : Annotations ρ → Except PyError (String → Option (PyValue ρ))
  | .mapping items => items
  | .pairs _ => .error "TypeError"
  | .other _ => .error "TypeError"

end Annotations

def genericBlockReason : String := "request was not admitted"

structure StageRecord (ρ : Type) where
  stage : String
  action : Action
  reason : Reason
  annotations : String → Option (PyValue ρ)

def StageRecord.blocked {ρ : Type} (record : StageRecord ρ) : Bool := record.action.isBlock

/-- A refusal names a stage and a reason; an admission carries none. -/
structure AdmissionOutcome (ρ : Type) where
  records : List (StageRecord ρ)
  blockedBy : Option String
  reason : Reason
  recorded : records ≠ []
  explained : blockedBy ≠ none → reason.second = .ok true
  unblamed : blockedBy = none → reason = .none

def AdmissionOutcome.admitted {ρ : Type} (outcome : AdmissionOutcome ρ) : Bool :=
  outcome.blockedBy.isNone

/-- The stages are named apart, and there is one. -/
structure RequestPipeline (W ρ : Type) where
  stages : List (PipelineStage W ρ)
  nonempty : stages ≠ []
  unique : (stages.map (·.name)).Nodup

/-- What an admission leaves: the world, the stages whose `before_request` was invoked, and what it
returned or raised. -/
structure Admission (W ρ : Type) where
  world : W
  invoked : List String
  result : Except PyError (AdmissionOutcome ρ)

section
variable {W ρ : Type}

/-- The annotations of a record the runner makes itself. -/
def runnerAnnotations (name flag : String) (detail : Option String) :
    String → Option (PyValue ρ) := fun key =>
  if key = "stage" then some (.text name)
  else if key = flag then some (.bool true)
  else if key = "detail" then detail.map .text
  else none

/-- The result blocks and gives no reason. -/
def StageResult.unexplained (result : StageResult ρ) : Except PyError Bool :=
  if result.action.isBlock then result.reason.first.map (!·) else .ok false

/-- `_run`. -/
def runStage (stage : PipelineStage W ρ) (context : StageContext) : Except PyError (StageRecord ρ) :=
  match stage.beforeRequest context with
  | .raises detail => do
    let detail ← detail
    return ⟨stage.name, .member .block, .text genericBlockReason,
      runnerAnnotations stage.name "stage_error" (some detail)⟩
  | .returnsOther typeName => do
    let typeName ← typeName
    return ⟨stage.name, .member .block, .text genericBlockReason,
      runnerAnnotations stage.name "malformed_result" (some ("stage returned " ++ typeName))⟩
  | .returns result => do
    if ← result.unexplained then
      let items ← result.annotations.unpack
      return ⟨stage.name, .member .block, .text genericBlockReason, fun key =>
        (items key).or (runnerAnnotations stage.name "unexplained_block" none key)⟩
    else
      let items ← result.annotations.dict
      return ⟨stage.name, result.action, result.reason, items⟩

/-- The refusal a blocking record makes. `AdmissionOutcome` tests the reason again. -/
def refusal (records : List (StageRecord ρ)) (record : StageRecord ρ) :
    Except PyError (AdmissionOutcome ρ) :=
  match h : record.reason.second with
  | .ok true => .ok ⟨records ++ [record], some record.stage, record.reason, by simp, fun _ => h,
      fun h => by cases h⟩
  | .ok false => .error "ValueError"
  | .error e => .error e

/-- An admission; there must be a record. -/
def admission (records : List (StageRecord ρ)) : Except PyError (AdmissionOutcome ρ) :=
  if h : records = [] then .error "ValueError"
  else .ok ⟨records, none, .none, h, fun h => absurd rfl h, fun _ => rfl⟩

/-- `admit`, from the records made so far. -/
def admitFrom (context : StageContext) :
    List (PipelineStage W ρ) → List (StageRecord ρ) → W → Admission W ρ
  | [], records, w => ⟨w, [], admission records⟩
  | stage :: stages, records, w =>
    let w := stage.effect context w
    match runStage stage context with
    | .error e => ⟨w, [stage.name], .error e⟩
    | .ok record =>
      match record.action.value with
      | .error e => ⟨w, [stage.name], .error e⟩
      | .ok () =>
        if record.blocked then ⟨w, [stage.name], refusal records record⟩
        else
          let rest := admitFrom context stages (records ++ [record]) w
          { rest with invoked := stage.name :: rest.invoked }

/-- `RequestPipeline.admit`. -/
def RequestPipeline.admitRequest (pipeline : RequestPipeline W ρ) (context : StageContext) (w : W) :
    Admission W ρ :=
  admitFrom context pipeline.stages [] w

end

section
variable {W ρ : Type}

/-- The stage returned a `StageResult` whose action is a `StageAction` other than `BLOCK`. -/
def Behaviour.Approves : Behaviour ρ → Prop
  | .returns result => ∃ action, result.action = .member action ∧ action ≠ .block
  | _ => False

/-- What it returned has a mapping for annotations. -/
def Behaviour.Mapped : Behaviour ρ → Prop
  | .returns result => ∃ items, result.annotations = .mapping items
  | _ => False

/-- The chain goes on: the action is not `BLOCK` and has a `value`, and `dict` takes the
annotations. -/
def Behaviour.Continues : Behaviour ρ → Prop
  | .returns result => result.action.isBlock = false ∧ result.action.value = .ok () ∧
      ∃ items, result.annotations.dict = .ok items
  | _ => False

/-- The chain ends in a refusal: an exception or an object of another type that can be described,
or a block whose reason is true, and stays so, or false with annotations that are a mapping. -/
def Behaviour.Refuses : Behaviour ρ → Prop
  | .raises detail => ∃ text, detail = .ok text
  | .returnsOther typeName => ∃ text, typeName = .ok text
  | .returns result => result.action.isBlock = true ∧
      ((result.reason.first = .ok true ∧ result.reason.second = .ok true ∧
          ∃ items, result.annotations.dict = .ok items) ∨
        (result.reason.first = .ok false ∧ ∃ items, result.annotations.unpack = .ok items))

theorem not_continues_of_refuses {behaviour : Behaviour ρ} (hr : behaviour.Refuses) :
    ¬ behaviour.Continues := by
  cases behaviour with
  | raises detail => exact id
  | returnsOther typeName => exact id
  | returns result =>
    intro hc
    have closed := hr.1
    rw [hc.1] at closed
    cases closed

/-- What a stage does to the chain. -/
inductive Turn (stage : PipelineStage W ρ) (context : StageContext) : Prop where
  | continues (hc : (stage.beforeRequest context).Continues) (record : StageRecord ρ)
      (run : runStage stage context = .ok record) (named : record.stage = stage.name)
      (value : record.action.value = .ok ()) (open_ : record.blocked = false)
  | refuses (hr : (stage.beforeRequest context).Refuses) (record : StageRecord ρ)
      (run : runStage stage context = .ok record) (named : record.stage = stage.name)
      (value : record.action.value = .ok ()) (blocked : record.blocked = true)
      (explained : record.reason.second = .ok true)
  | raises (hc : ¬ (stage.beforeRequest context).Continues)
      (hr : ¬ (stage.beforeRequest context).Refuses)
      (raised : ∀ record, runStage stage context = .ok record → record.action.value = .ok () →
        record.blocked = true ∧ record.reason.second ≠ .ok true)

private theorem value_of_isBlock {action : Action} (h : action.isBlock = true) :
    action.value = .ok () := by
  cases action with
  | member action => rfl
  | foreign value => cases h

section Turns
variable {stage : PipelineStage W ρ} {context : StageContext} {result : StageResult ρ}

/-- A stage that ends without a `StageResult` is refused, if what it did can be told. -/
private theorem turn_raises {detail : Except PyError String}
    (h : stage.beforeRequest context = .raises detail) : Turn stage context := by
  cases detail with
  | ok text =>
    exact .refuses (by rw [h]; exact ⟨text, rfl⟩) _ (by rw [runStage, h]; rfl) rfl rfl rfl rfl
  | error e =>
    refine .raises (by rw [h]; exact id) (by rw [h]; rintro ⟨_, ⟨⟩⟩) fun record run => ?_
    rw [runStage, h] at run
    cases run

private theorem turn_other {typeName : Except PyError String}
    (h : stage.beforeRequest context = .returnsOther typeName) : Turn stage context := by
  cases typeName with
  | ok text =>
    exact .refuses (by rw [h]; exact ⟨text, rfl⟩) _ (by rw [runStage, h]; rfl) rfl rfl rfl rfl
  | error e =>
    refine .raises (by rw [h]; exact id) (by rw [h]; rintro ⟨_, ⟨⟩⟩) fun record run => ?_
    rw [runStage, h] at run
    cases run

private theorem run_explained (h : stage.beforeRequest context = .returns result)
    (he : result.unexplained = .ok false) : runStage stage context =
      result.annotations.dict.map fun items =>
        ⟨stage.name, result.action, result.reason, items⟩ := by
  simp only [runStage, h, he]
  cases result.annotations.dict <;> rfl

private theorem run_unexplained (h : stage.beforeRequest context = .returns result)
    (he : result.unexplained = .ok true) : runStage stage context =
      result.annotations.unpack.map fun items => ⟨stage.name, .member .block,
        .text genericBlockReason,
        fun key => (items key).or (runnerAnnotations stage.name "unexplained_block" none key)⟩ := by
  simp only [runStage, h, he]
  cases result.annotations.unpack <;> rfl

/-- A `StageResult` that does not block. -/
private theorem turn_open (h : stage.beforeRequest context = .returns result)
    (hb : result.action.isBlock = false) : Turn stage context := by
  have refuses : ¬ (stage.beforeRequest context).Refuses := by
    rw [h]
    intro hr
    rw [hr.1] at hb
    cases hb
  have run := run_explained h (by simp [StageResult.unexplained, hb])
  cases hd : result.annotations.dict with
  | error e =>
    rw [hd] at run
    refine .raises ?_ refuses fun record hrun => ?_
    · rw [h]
      rintro ⟨_, _, items, hi⟩
      rw [hd] at hi
      cases hi
    · rw [run] at hrun
      cases hrun
  | ok items =>
    rw [hd] at run
    cases hv : result.action.value with
    | ok _ => exact .continues (by rw [h]; exact ⟨hb, hv, items, hd⟩) _ run rfl hv hb
    | error e =>
      refine .raises ?_ refuses fun record hrun value => ?_
      · rw [h]
        rintro ⟨_, hv', _⟩
        rw [hv] at hv'
        cases hv'
      · rw [run] at hrun
        cases hrun
        rw [hv] at value
        cases value

private theorem turn_told (h : stage.beforeRequest context = .returns result)
    (hb : result.action.isBlock = true) (hf : result.reason.first = .ok true)
    (continues : ¬ (stage.beforeRequest context).Continues) : Turn stage context := by
  have run := run_explained h (by simp [StageResult.unexplained, hb, hf, Except.map])
  cases hd : result.annotations.dict with
  | error e =>
    rw [hd] at run
    refine .raises continues ?_ fun record hrun => ?_
    · rw [h]
      rintro ⟨_, ⟨_, _, items, hi⟩ | ⟨ht, _⟩⟩
      · rw [hd] at hi
        cases hi
      · rw [hf] at ht
        cases ht
    · rw [run] at hrun
      cases hrun
  | ok items =>
    rw [hd] at run
    by_cases hs : result.reason.second = .ok true
    · exact .refuses (by rw [h]; exact ⟨hb, .inl ⟨hf, hs, items, hd⟩⟩) _ run rfl
        (value_of_isBlock hb) hb hs
    · refine .raises continues ?_ fun record hrun _ => ?_
      · rw [h]
        rintro ⟨_, ⟨_, hs', _⟩ | ⟨ht, _⟩⟩
        · exact hs hs'
        · rw [hf] at ht
          cases ht
      · rw [run] at hrun
        cases hrun
        exact ⟨hb, hs⟩

private theorem turn_untold (h : stage.beforeRequest context = .returns result)
    (hb : result.action.isBlock = true) (hf : result.reason.first = .ok false)
    (continues : ¬ (stage.beforeRequest context).Continues) : Turn stage context := by
  have run := run_unexplained h (by simp [StageResult.unexplained, hb, hf, Except.map])
  cases hu : result.annotations.unpack with
  | error e =>
    rw [hu] at run
    refine .raises continues ?_ fun record hrun => ?_
    · rw [h]
      rintro ⟨_, ⟨ht, _⟩ | ⟨_, items, hi⟩⟩
      · rw [hf] at ht
        cases ht
      · rw [hu] at hi
        cases hi
    · rw [run] at hrun
      cases hrun
  | ok items =>
    rw [hu] at run
    exact .refuses (by rw [h]; exact ⟨hb, .inr ⟨hf, items, hu⟩⟩) _ run rfl rfl rfl rfl

/-- A `StageResult` that blocks. -/
private theorem turn_block (h : stage.beforeRequest context = .returns result)
    (hb : result.action.isBlock = true) : Turn stage context := by
  have continues : ¬ (stage.beforeRequest context).Continues := by
    rw [h]
    intro hc
    rw [hc.1] at hb
    cases hb
  cases hf : result.reason.first with
  | error e =>
    refine .raises continues ?_ fun record hrun => ?_
    · rw [h]
      rintro ⟨_, ⟨ht, _⟩ | ⟨ht, _⟩⟩
      · rw [hf] at ht
        cases ht
      · rw [hf] at ht
        cases ht
    · have unread : result.unexplained = .error e := by
        simp [StageResult.unexplained, hb, hf, Except.map]
      simp only [runStage, h, unread] at hrun
      cases hrun
  | ok told =>
    cases told with
    | true => exact turn_told h hb hf continues
    | false => exact turn_untold h hb hf continues

theorem turn (stage : PipelineStage W ρ) (context : StageContext) : Turn stage context := by
  cases h : stage.beforeRequest context with
  | raises detail => exact turn_raises h
  | returnsOther typeName => exact turn_other h
  | returns result =>
    cases hb : result.action.isBlock with
    | false => exact turn_open h hb
    | true => exact turn_block h hb

end Turns

/-- The world the stages leave when they have run. -/
def leaving (context : StageContext) (stages : List (PipelineStage W ρ)) (w : W) : W :=
  stages.foldl (fun w stage => stage.effect context w) w

theorem leaving_of_idle {context : StageContext} {stages : List (PipelineStage W ρ)} {w : W}
    (idle : ∀ stage ∈ stages, ∀ w, stage.effect context w = w) : leaving context stages w = w := by
  induction stages with
  | nil => rfl
  | cons stage stages ih =>
    obtain ⟨hstage, hstages⟩ := List.forall_mem_cons.mp idle
    rw [leaving, List.foldl_cons, hstage w]
    exact ih hstages

/-- Up to the stage that ends it, a chain continues. -/
theorem chain_split (context : StageContext) (stages : List (PipelineStage W ρ)) :
    (∀ stage ∈ stages, (stage.beforeRequest context).Continues) ∨
      ∃ before stage after, stages = before ++ stage :: after ∧
        (∀ earlier ∈ before, (earlier.beforeRequest context).Continues) ∧
        ¬ (stage.beforeRequest context).Continues := by
  induction stages with
  | nil => exact .inl (List.forall_mem_nil _)
  | cons stage stages ih =>
    by_cases hc : (stage.beforeRequest context).Continues
    · rcases ih with all | ⟨before, last, after, rfl, hbefore, hlast⟩
      · exact .inl (List.forall_mem_cons.mpr ⟨hc, all⟩)
      · exact .inr ⟨stage :: before, last, after, rfl, List.forall_mem_cons.mpr ⟨hc, hbefore⟩, hlast⟩
    · exact .inr ⟨[], stage, stages, rfl, List.forall_mem_nil _, hc⟩

section Refusal
variable {record : StageRecord ρ} (records : List (StageRecord ρ))

private theorem refusal_explained (h : record.reason.second = .ok true) :
    ∃ outcome, refusal records record = .ok outcome ∧ outcome.records = records ++ [record] ∧
      outcome.blockedBy = some record.stage ∧ outcome.reason = record.reason := by
  unfold refusal
  split
  · exact ⟨_, rfl, rfl, rfl, rfl⟩
  · next h' =>
    rw [h] at h'
    cases h'
  · next h' =>
    rw [h] at h'
    cases h'

private theorem refusal_unexplained (h : record.reason.second ≠ .ok true) :
    ∃ e, refusal records record = .error e := by
  unfold refusal
  split
  · next h' => exact absurd h' h
  · exact ⟨_, rfl⟩
  · exact ⟨_, rfl⟩

end Refusal

section Chain
variable {context : StageContext}

/-- Stages that continue hand on to the rest, each with its record. -/
theorem admitFrom_continues {before : List (PipelineStage W ρ)}
    (hc : ∀ stage ∈ before, (stage.beforeRequest context).Continues) :
    ∃ made : List (StageRecord ρ), before.map (runStage · context) = made.map .ok ∧
      (∀ record ∈ made, record.blocked = false) ∧
      ∀ rest records w, admitFrom context (before ++ rest) records w =
        { admitFrom context rest (records ++ made) (leaving context before w) with
          invoked := before.map (·.name) ++
            (admitFrom context rest (records ++ made) (leaving context before w)).invoked } := by
  induction before with
  | nil => exact ⟨[], rfl, List.forall_mem_nil _, fun rest records w => by simp [leaving]⟩
  | cons stage before ih =>
    obtain ⟨hstage, hbefore⟩ := List.forall_mem_cons.mp hc
    obtain ⟨made, hmade, hopen, hrest⟩ := ih hbefore
    cases turn stage context with
    | refuses hr => exact absurd hstage (not_continues_of_refuses hr)
    | raises hn => exact absurd hstage hn
    | continues _ record run named value open_ =>
      refine ⟨record :: made, ?_, List.forall_mem_cons.mpr ⟨open_, hopen⟩, fun rest records w => ?_⟩
      · rw [List.map_cons, List.map_cons, run, hmade]
      · rw [List.cons_append, admitFrom]
        simp only [run, value, open_, Bool.false_eq_true, if_false]
        rw [hrest, List.append_assoc]
        rfl

/-- A stage that refuses ends the chain with its record and its name. -/
theorem admitFrom_refuses {stage : PipelineStage W ρ}
    (hr : (stage.beforeRequest context).Refuses) (after : List (PipelineStage W ρ))
    (records : List (StageRecord ρ)) (w : W) :
    ∃ record outcome, runStage stage context = .ok record ∧ record.blocked = true ∧
      admitFrom context (stage :: after) records w =
        ⟨stage.effect context w, [stage.name], .ok outcome⟩ ∧
      outcome.records = records ++ [record] ∧ outcome.blockedBy = some stage.name ∧
      outcome.reason = record.reason := by
  cases turn stage context with
  | continues hc => exact absurd hc (not_continues_of_refuses hr)
  | raises _ hn => exact absurd hr hn
  | refuses _ record run named value blocked explained =>
    obtain ⟨outcome, made, hrecords, hby, hreason⟩ := refusal_explained records explained
    refine ⟨record, outcome, run, blocked, ?_, hrecords, named ▸ hby, hreason⟩
    simp only [admitFrom, run, value, blocked, if_true, made]

/-- A stage that neither continues nor refuses makes `admit` raise. -/
theorem admitFrom_raises {stage : PipelineStage W ρ}
    (hc : ¬ (stage.beforeRequest context).Continues) (hr : ¬ (stage.beforeRequest context).Refuses)
    (after : List (PipelineStage W ρ)) (records : List (StageRecord ρ)) (w : W) :
    ∃ e, (admitFrom context (stage :: after) records w).result = .error e := by
  cases turn stage context with
  | continues h => exact absurd h hc
  | refuses h => exact absurd h hr
  | raises _ _ raised =>
    rw [admitFrom]
    cases run : runStage stage context with
    | error e => exact ⟨e, rfl⟩
    | ok record =>
      cases value : record.action.value with
      | error e => exact ⟨e, by simp only [value]⟩
      | ok _ =>
        obtain ⟨blocked, unexplained⟩ := raised record run value
        obtain ⟨e, he⟩ := refusal_unexplained records unexplained
        exact ⟨e, by simp only [value, blocked, if_true, he]⟩

end Chain
end
end LlmGateway.Serving
