import MissionControl.Pipelines.Handlers

/-!
A manual advance against the exit of a process, each alone and up to its end. The one writes the
row after `spawnStep` has returned and the other before it is called, and `spawnStep` writes in
between, but they leave the same world apart from the answer to the request.
-/

set_option autoImplicit false
set_option relaxedAutoImplicit false

namespace MissionControl.Pipelines.ManualAdvance

open MissionControl.Foundations.JsText (seconds)
open Run Handlers

/-- The handler that is suspended at `n`, if one is, up to its end. -/
def complete (cfg : Config) (n : Nat) (outcome : SpawnOutcome) (laterMs : Nat) (w : World) : World :=
  match w.suspended[n]? with
  | none => w
  | some p =>
    let spawned := resume cfg w n p outcome laterMs
    match spawned.suspended[n]? with
    | none => spawned
    | some p => resume cfg spawned n p outcome laterMs

/-- `advanceRun`, with nothing else going on. -/
def manual (cfg : Config) (w : World) (success : Bool) (errorMsg : Option String)
    (outcome : SpawnOutcome) (nowMs laterMs : Nat) : World :=
  complete cfg w.suspended.length outcome laterMs (advanceRun w success errorMsg nowMs)

/-- `handleStepExit` for the current step, with nothing else going on. -/
def automatic (cfg : Config) (w : World) (success : Bool) (errorMsg : Option String)
    (outcome : SpawnOutcome) (nowMs laterMs : Nat) : World :=
  complete cfg w.suspended.length outcome laterMs
    (handleStepExit w w.run.currentStep success errorMsg nowMs)

/-- The status of a task after the effects of a handler. -/
def taskStatusAfter (taskId : Nat) (status : String) : List Effect → String
  | [] => status
  | .taskStatus id written _ :: rest =>
    taskStatusAfter taskId (if id = taskId then written else status) rest
  | .linkTask id _ written _ :: rest =>
    taskStatusAfter taskId (if id = taskId then written else status) rest
  | _ :: rest => taskStatusAfter taskId status rest

/-- Both handlers have ended, with the same row of the run and the same status of every task. -/
structure Agree (w manual automatic : World) : Prop where
  manualEnded : manual.suspended = w.suspended
  automaticEnded : automatic.suspended = w.suspended
  row : manual.run = automatic.run
  tasks : ∀ taskId status,
    taskStatusAfter taskId status manual.effects = taskStatusAfter taskId status automatic.effects

/-! ### Ends -/

section

variable {cfg : Config} {outcome : SpawnOutcome} {laterMs : Nat} {w ended : World}

theorem complete_of_ended (h : ended.suspended = w.suspended) :
    complete cfg w.suspended.length outcome laterMs ended = ended := by
  simp [complete, h]

@[simp]
theorem suspended_respond (response : Response) : (w.respond response).suspended = w.suspended := rfl

@[simp]
theorem suspended_onPipelineFinished (status : RunStatus) (now : Nat) :
    (onPipelineFinished w status now).suspended = w.suspended := rfl

theorem taskStatusAfter_respond (taskId : Nat) (status : String) (effects : List Effect)
    (response : Response) : taskStatusAfter taskId status (effects ++ [.respond response]) =
      taskStatusAfter taskId status effects := by
  induction effects generalizing status with
  | nil => rfl
  | cons effect effects ih => cases effect <;> exact ih _

/-- The answer to a request is all that two handlers may differ by. -/
theorem Agree.of_respond (h : ended.suspended = w.suspended) (response : Response) :
    Agree w (ended.respond response) ended :=
  ⟨h, h, rfl, fun taskId status => taskStatusAfter_respond taskId status ended.effects response⟩

/-- Two handlers that have ended without a call of `spawnStep`. -/
theorem ends_with_answer (h : ended.suspended = w.suspended) (response : Response) :
    ∃ answer, complete cfg w.suspended.length outcome laterMs (ended.respond response) =
        (complete cfg w.suspended.length outcome laterMs ended).respond answer ∧
      (complete cfg w.suspended.length outcome laterMs ended).suspended = w.suspended := by
  have hanswered : (ended.respond response).suspended = w.suspended := h
  refine ⟨response, ?_, ?_⟩
  · rw [complete_of_ended hanswered, complete_of_ended h]
  · rw [complete_of_ended h, h]

/-! ### The call of `spawnStep` -/

variable (w)

@[simp]
theorem suspended_suspend (p : Suspended) : (w.suspend p).suspended = w.suspended ++ [p] := rfl

theorem eraseIdx_last (l : List Suspended) (p : Suspended) : (l ++ [p]).eraseIdx l.length = l := by
  simp [List.eraseIdx_append_of_length_le]

variable (cfg outcome laterMs) (p : Suspended)

/-- A handler that does not wait for its process. -/
theorem complete_handleStepExit (himports : p.point = .imports)
    (hcaller : p.caller = .handleStepExit) :
    complete cfg w.suspended.length outcome laterMs (w.suspend p) =
      { (spawnStep cfg (w.suspend p) p outcome laterMs).1 with suspended := w.suspended } := by
  have hresumed : resume cfg (w.suspend p) w.suspended.length p outcome laterMs =
      { (spawnStep cfg (w.suspend p) p outcome laterMs).1 with suspended := w.suspended } := by
    simp only [resume, himports, hcaller, suspended_suspend, eraseIdx_last]
  simp [complete, hresumed]

/-- A manual advance writes the row again when `spawnStep` has returned. -/
theorem complete_advanceRun (himports : p.point = .imports) (hcaller : p.caller = .advanceRun) :
    ∃ response, complete cfg w.suspended.length outcome laterMs (w.suspend p) =
      (World.writeCurrent { (spawnStep cfg (w.suspend p) p outcome laterMs).1 with
        suspended := w.suspended } p.stepIdx
          (spawnStep cfg (w.suspend p) p outcome laterMs).2.1).respond response := by
  rcases hspawned : spawnStep cfg (w.suspend p) p outcome laterMs with ⟨w', steps, r⟩
  have hresumed : resume cfg (w.suspend p) w.suspended.length p outcome laterMs =
      { w' with suspended := w.suspended ++ [{ p with point := .result r, steps := steps }] } := by
    simp [resume, himports, hcaller, hspawned]
  refine ⟨.run .running (some p.stepIdx) steps (some r) none, ?_⟩
  simp only [complete, suspended_suspend, List.getElem?_concat_length, hresumed]
  simp [resume, hcaller, resumeAdvanceRun, eraseIdx_last]

/-- The catch branch leaves the same row whether the row names the step before or after. -/
theorem spawnStepCatch_agree (suspended suspended' : List Suspended) (steps : List RunStepState)
    (message : String) :
    World.writeCurrent { spawnStepCatch w p steps message laterMs with suspended := suspended }
        p.stepIdx (spawnFailedSteps steps p.stepIdx p.autoAdvance message (seconds laterMs)) =
      { spawnStepCatch { w.writeCurrent p.stepIdx p.steps with suspended := suspended' } p steps
        message laterMs with suspended := suspended } := by
  unfold spawnStepCatch
  by_cases hstops : p.autoAdvance = true ∧ onFailureAt steps p.stepIdx = .stop
  · simp only [if_pos hstops]
    rfl
  · simp only [if_neg hstops]
    rfl

theorem spawnStep_agree :
    World.writeCurrent { (spawnStep cfg (w.suspend p) p outcome laterMs).1 with
        suspended := w.suspended } p.stepIdx (spawnStep cfg (w.suspend p) p outcome laterMs).2.1 =
      { (spawnStep cfg ((w.writeCurrent p.stepIdx p.steps).suspend { p with caller := .handleStepExit })
        { p with caller := .handleStepExit } outcome laterMs).1 with suspended := w.suspended } := by
  cases outcome with
  | spawned pid => rfl
  | threw message => exact spawnStepCatch_agree laterMs (w.suspend p) p _ _ p.steps message
  | threwAfterSpawn pid message =>
    exact spawnStepCatch_agree laterMs (spawnChild cfg (w.suspend p) p pid false laterMs) p _ _
      (recordSpawn cfg w.run.id p pid laterMs) message

theorem spawns_with_answer (himports : p.point = .imports) (hcaller : p.caller = .advanceRun) :
    ∃ answer, complete cfg w.suspended.length outcome laterMs (w.suspend p) =
        (complete cfg w.suspended.length outcome laterMs
          ((w.writeCurrent p.stepIdx p.steps).suspend { p with caller := .handleStepExit })).respond
            answer ∧
      (complete cfg w.suspended.length outcome laterMs
        ((w.writeCurrent p.stepIdx p.steps).suspend
          { p with caller := .handleStepExit })).suspended = w.suspended := by
  obtain ⟨answer, hmanual⟩ := complete_advanceRun cfg outcome laterMs w p himports hcaller
  have hautomatic : complete cfg w.suspended.length outcome laterMs
      ((w.writeCurrent p.stepIdx p.steps).suspend { p with caller := .handleStepExit }) =
        { (spawnStep cfg ((w.writeCurrent p.stepIdx p.steps).suspend
          { p with caller := .handleStepExit }) { p with caller := .handleStepExit } outcome
            laterMs).1 with suspended := w.suspended } :=
    complete_handleStepExit cfg outcome laterMs (w.writeCurrent p.stepIdx p.steps)
      { p with caller := .handleStepExit } himports rfl
  refine ⟨answer, ?_, ?_⟩
  · rw [hmanual, hautomatic, spawnStep_agree]
  · rw [hautomatic]

end

/-! ### The two handlers -/

section

variable (cfg : Config) (w : World) (success : Bool) (errorMsg : Option String)
  (outcome : SpawnOutcome) (nowMs laterMs : Nat)

/-- The world after a manual advance is the one after the exit of the process, with an answer. -/
theorem manual_eq_respond_automatic : ∃ response,
    manual cfg w success errorMsg outcome nowMs laterMs =
      (automatic cfg w success errorMsg outcome nowMs laterMs).respond response ∧
    (automatic cfg w success errorMsg outcome nowMs laterMs).suspended = w.suspended := by
  unfold manual automatic advanceRun handleStepExit
  dsimp only
  split
  · exact ends_with_answer rfl _
  · split
    · exact ends_with_answer rfl _
    · split
      · exact ends_with_answer rfl _
      · split
        · exact ends_with_answer rfl _
        · exact ends_with_answer rfl _
        · rename_i steps hmoved
          have htemplate : (w.writeCurrent (w.run.currentStep + 1) steps).templateAt steps
              (w.run.currentStep + 1) = w.templateAt steps (w.run.currentStep + 1) := rfl
          rw [htemplate]
          cases w.templateAt steps (w.run.currentStep + 1) with
          | none =>
            refine ends_with_answer ?_ _
            rfl
          | some template =>
            exact spawns_with_answer cfg outcome laterMs w
              (callSpawnStep w .advanceRun template steps (w.run.currentStep + 1)) rfl rfl

/-- A manual advance and the exit of a process of the current step leave the same row of the run and
the same status of every task. -/
theorem manual_automatic_agree :
    Agree w (manual cfg w success errorMsg outcome nowMs laterMs)
      (automatic cfg w success errorMsg outcome nowMs laterMs) := by
  obtain ⟨answer, hmanual, hended⟩ :=
    manual_eq_respond_automatic cfg w success errorMsg outcome nowMs laterMs
  rw [hmanual]
  exact Agree.of_respond hended answer

end

end MissionControl.Pipelines.ManualAdvance
