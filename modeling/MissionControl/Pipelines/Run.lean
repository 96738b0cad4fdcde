import MissionControl.Foundations.JsText

/-!
The stored form of a pipeline run: the row of `pipeline_runs` with its array of step states,
and the way one finished step settles that array. `advanceRun` and `handleStepExit` carry
separate copies of the settling code; they agree on it, so it is one definition here.
-/

set_option autoImplicit false
set_option relaxedAutoImplicit false

namespace MissionControl.Pipelines.Run

open MissionControl.Foundations.JsText (truthy)

inductive OnFailure where
  | stop
  | continue
  deriving DecidableEq

inductive StepStatus where
  | pending
  | running
  | completed
  | failed
  | skipped
  deriving DecidableEq

inductive RunStatus where
  | pending
  | running
  | completed
  | completedWithErrors
  | failed
  | cancelled
  deriving DecidableEq

/-- The text kept in the `status` column. -/
def RunStatus.text : RunStatus → String
  | .pending => "pending"
  | .running => "running"
  | .completed => "completed"
  | .completedWithErrors => "completed_with_errors"
  | .failed => "failed"
  | .cancelled => "cancelled"

/-- The statuses a run is meant to end in. -/
def RunStatus.Terminal : RunStatus → Prop
  | .pending | .running => False
  | .completed | .completedWithErrors | .failed | .cancelled => True

instance : DecidablePred RunStatus.Terminal := fun s => by
  cases s <;> unfold RunStatus.Terminal <;> infer_instance

/-- One entry of the `steps` array of a saved pipeline. -/
structure PipelineStep where
  templateId : Nat
  onFailure : Option OnFailure
  deriving DecidableEq

/-- One entry of `steps_snapshot`. -/
structure RunStepState where
  stepIndex : Nat
  templateId : Nat
  templateName : String
  onFailure : Option OnFailure
  status : StepStatus
  spawnId : Option String
  startedAt : Option Nat
  completedAt : Option Nat
  error : Option String
  pid : Option Nat
  logPath : Option String
  deriving DecidableEq

/-- A row of `pipeline_runs`; `steps_snapshot` is kept parsed. -/
structure PipelineRun where
  id : Nat
  pipelineId : Nat
  status : RunStatus
  currentStep : Nat
  stepsSnapshot : List RunStepState
  context : Option String
  taskId : Option Nat
  autoAdvance : Bool
  startedAt : Option Nat
  completedAt : Option Nat
  triggeredBy : String
  deriving DecidableEq

structure WorkflowTemplate where
  id : Nat
  name : String
  model : String
  taskPrompt : String
  timeoutSeconds : Nat
  deriving DecidableEq

/-- `steps[idx].on_failure || 'stop'`. -/
def onFailureAt (steps : List RunStepState) (idx : Nat) : OnFailure :=
  (steps[idx]?.bind RunStepState.onFailure).getD .stop

/-- `steps[idx].status`; `none` where the source would read a field of `undefined`. -/
def statusAt (steps : List RunStepState) (idx : Nat) : Option StepStatus :=
  steps[idx]?.map RunStepState.status

/-- Record how the step at `idx` ended. An empty error text counts as none. -/
def closeStep (steps : List RunStepState) (idx : Nat) (success : Bool)
    (errorMsg : Option String) (now : Nat) : List RunStepState :=
  steps.modify idx fun s =>
    { s with
      status := if success then .completed else .failed
      completedAt := some now
      error := (truthy errorMsg).orElse fun _ => s.error }

/-- `for (let i = idx; i < steps.length; i++) steps[i].status = 'skipped'`. -/
def skipFrom (steps : List RunStepState) (idx : Nat) : List RunStepState :=
  steps.mapIdx fun i s => if idx ≤ i then { s with status := .skipped } else s

/-- Mark the step at `idx` running since `now`. -/
def startStep (steps : List RunStepState) (idx now : Nat) : List RunStepState :=
  steps.modify idx fun s => { s with status := .running, startedAt := some now }

/-- What follows from a finished step: the run stops, ends, or moves on. -/
inductive Verdict where
  | stopped (steps : List RunStepState)
  | finished (status : RunStatus) (steps : List RunStepState)
  | moved (steps : List RunStepState)
  deriving DecidableEq

/-- The part that `advanceRun` and `handleStepExit` share after their guards. -/
def settle (steps : List RunStepState) (idx : Nat) (success : Bool)
    (errorMsg : Option String) (now : Nat) : Verdict :=
  let closed := closeStep steps idx success errorMsg now
  let nextIdx := idx + 1
  if success = false ∧ onFailureAt closed idx = .stop then
    .stopped (skipFrom closed nextIdx)
  else if closed.length ≤ nextIdx then
    .finished (if closed.any (·.status = .failed) then .completedWithErrors else .completed) closed
  else
    .moved (startStep closed nextIdx now)

section StepLemmas

variable (steps : List RunStepState) (idx i : Nat) (success : Bool)
  (errorMsg : Option String) (now : Nat)

@[simp] theorem length_closeStep :
    (closeStep steps idx success errorMsg now).length = steps.length := by
  simp [closeStep]

@[simp] theorem length_skipFrom : (skipFrom steps idx).length = steps.length := by
  simp [skipFrom]

@[simp] theorem length_startStep : (startStep steps idx now).length = steps.length := by
  simp [startStep]

@[simp] theorem onFailureAt_closeStep :
    onFailureAt (closeStep steps idx success errorMsg now) i = onFailureAt steps i := by
  unfold onFailureAt closeStep
  rw [List.getElem?_modify]
  cases steps[i]? with
  | none => rfl
  | some s => by_cases h : idx = i <;> simp [h]

@[simp] theorem onFailureAt_skipFrom :
    onFailureAt (skipFrom steps idx) i = onFailureAt steps i := by
  unfold onFailureAt skipFrom
  rw [List.getElem?_mapIdx]
  cases steps[i]? with
  | none => rfl
  | some s => by_cases h : idx ≤ i <;> simp [h]

@[simp] theorem onFailureAt_startStep :
    onFailureAt (startStep steps idx now) i = onFailureAt steps i := by
  unfold onFailureAt startStep
  rw [List.getElem?_modify]
  cases steps[i]? with
  | none => rfl
  | some s => by_cases h : idx = i <;> simp [h]

theorem statusAt_closeStep_self (h : idx < steps.length) :
    statusAt (closeStep steps idx success errorMsg now) idx =
      some (if success then .completed else .failed) := by
  simp [statusAt, closeStep, h]

theorem statusAt_closeStep_of_ne (h : i ≠ idx) :
    statusAt (closeStep steps idx success errorMsg now) i = statusAt steps i := by
  unfold statusAt closeStep
  rw [List.getElem?_modify]
  simp [h.symm]

theorem statusAt_skipFrom_of_lt (h : i < idx) :
    statusAt (skipFrom steps idx) i = statusAt steps i := by
  unfold statusAt skipFrom
  rw [List.getElem?_mapIdx]
  have hle : ¬ idx ≤ i := by omega
  cases steps[i]? <;> simp [hle]

theorem statusAt_skipFrom_of_le (h : idx ≤ i) (hi : i < steps.length) :
    statusAt (skipFrom steps idx) i = some .skipped := by
  simp [statusAt, skipFrom, h, hi]

theorem statusAt_startStep_self (h : idx < steps.length) :
    statusAt (startStep steps idx now) idx = some .running := by
  simp [statusAt, startStep, h]

theorem statusAt_startStep_of_ne (h : i ≠ idx) :
    statusAt (startStep steps idx now) i = statusAt steps i := by
  unfold statusAt startStep
  rw [List.getElem?_modify]
  simp [h.symm]

theorem statusAt_eq_none_iff : statusAt steps i = none ↔ steps.length ≤ i := by
  simp [statusAt]

theorem statusAt_lt {st : StepStatus} (h : statusAt steps i = some st) : i < steps.length := by
  by_contra hn
  have hnone := (statusAt_eq_none_iff steps i).mpr (by omega)
  rw [hnone] at h
  cases h

end StepLemmas

end MissionControl.Pipelines.Run
