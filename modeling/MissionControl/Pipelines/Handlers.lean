import MissionControl.Foundations.Transition
import MissionControl.Pipelines.Run

/-!
The handlers of `/api/pipelines/run` on one run, cut at their awaits. A handler runs alone
until it awaits; from then on it is a suspended continuation that holds its private copy of
`steps`, and any other handler or process event may run before it is resumed.

`spawnStep` awaits two dynamic imports with nothing in between, so they are one suspension.
`advanceRun` and `startPipeline` then await its result; `handleStepExit` does not.
-/

set_option autoImplicit false
set_option relaxedAutoImplicit false

namespace MissionControl.Pipelines.Handlers

open MissionControl.Foundations.JsText (orElse trim truthy seconds)
open MissionControl.Foundations.Transition (Machine)
open Run

/-- The environment variables and settings that the spawning code reads. -/
structure Config where
  pipelineAgentId : String
  coordinatorAgent : String
  cronAgentId : String
  logsDir : String
  deriving DecidableEq

/-- Resolve the agent id for pipeline spawns. -/
def getPipelineAgentId (cfg : Config) : String :=
  orElse (trim (orElse cfg.pipelineAgentId
    (orElse cfg.coordinatorAgent (orElse cfg.cronAgentId "main")))) "main"

/-- Which handler called `spawnStep`. -/
inductive Caller where
  | startPipeline
  | advanceRun
  | handleStepExit
  deriving DecidableEq

/-- What `spawnStep` resolves to. -/
structure SpawnResult where
  success : Bool
  spawnId : Option String
  error : Option String
  deriving DecidableEq

/-- The await at which a handler is suspended. -/
inductive AwaitPoint where
  | imports
  | result (spawnResult : SpawnResult)
  deriving DecidableEq

/-- A suspended handler with the arguments of its call of `spawnStep`. -/
structure Suspended where
  caller : Caller
  point : AwaitPoint
  pipelineName : String
  template : WorkflowTemplate
  steps : List RunStepState
  stepIdx : Nat
  context : Option String
  autoAdvance : Bool
  deriving DecidableEq

/-- The handler has still to write its copy of the steps: once `spawnStep` has returned, only
`advanceRun` does. -/
def Suspended.writes (p : Suspended) : Bool :=
  match p.point with
  | .imports => true
  | .result _ => p.caller = .advanceRun

/-- A child process made by `spawnStep`. -/
structure Child where
  stepIdx : Nat
  spawnId : String
  args : List String
  pid : Option Nat
  autoAdvance : Bool
  /-- The `exit` and `error` listeners were attached. -/
  listening : Bool
  exited : Bool
  deriving DecidableEq

inductive Response where
  | error (status : Nat) (message : String)
  | run (status : RunStatus) (currentStep : Option Nat) (steps : List RunStepState)
      (spawn : Option SpawnResult) (note : Option String)
  deriving DecidableEq

/-- What a handler does besides writing the run's row. -/
inductive Effect where
  | respond (response : Response)
  | taskStatus (taskId : Nat) (status : String) (updatedAt : Nat)
  | linkTask (taskId runId : Nat) (status : String) (updatedAt : Nat)
  | pipelineUsed (pipelineId now : Nat)
  | activity (type : String) (entityId : Nat) (description : String) (runId : Nat)
      (taskId : Option Nat)
  | kill (pid : Nat)
  deriving DecidableEq

structure World where
  run : PipelineRun
  templates : List WorkflowTemplate
  /-- The name in the run's `workflow_pipelines` row. -/
  pipelineName : Option String
  suspended : List Suspended
  children : List Child
  /-- The in-memory map `runningProcesses`, restricted to this run: step index to pid. -/
  runningProcesses : List (Nat × Nat)
  effects : List Effect
  deriving DecidableEq

namespace World

def emit (w : World) (es : List Effect) : World := { w with effects := w.effects ++ es }

def respond (w : World) (r : Response) : World := w.emit [.respond r]

/-- `SELECT … FROM workflow_templates WHERE id = ?`. -/
def template? (w : World) (id : Nat) : Option WorkflowTemplate :=
  w.templates.find? (·.id = id)

/-- The template of the step at `idx` of `steps`. -/
def templateAt (w : World) (steps : List RunStepState) (idx : Nat) : Option WorkflowTemplate :=
  steps[idx]?.bind fun s => w.template? s.templateId

def suspend (w : World) (p : Suspended) : World := { w with suspended := w.suspended ++ [p] }

/-- `UPDATE pipeline_runs SET steps_snapshot = ?`. -/
def writeSteps (w : World) (steps : List RunStepState) : World :=
  { w with run := { w.run with stepsSnapshot := steps } }

/-- `UPDATE pipeline_runs SET current_step = ?, steps_snapshot = ?`. -/
def writeCurrent (w : World) (idx : Nat) (steps : List RunStepState) : World :=
  { w with run := { w.run with currentStep := idx, stepsSnapshot := steps } }

/-- `UPDATE pipeline_runs SET status = ?, current_step = ?, steps_snapshot = ?,
completed_at = ?`. -/
def writeEnd (w : World) (status : RunStatus) (idx : Nat) (steps : List RunStepState)
    (now : Nat) : World :=
  { w with run := { w.run with
      status := status, currentStep := idx, stepsSnapshot := steps, completedAt := some now } }

end World

/-- Update the linked task, if any, and announce the end of the run. -/
def onPipelineFinished (w : World) (status : RunStatus) (now : Nat) : World :=
  let taskEffect := match w.run.taskId with
    | some taskId =>
      [Effect.taskStatus taskId (if status = .failed then "in_progress" else "quality_review") now]
    | none => []
  w.emit (taskEffect ++ [.activity
    (if status = .failed then "pipeline_failed" else "pipeline_completed") w.run.pipelineId
    s!"Pipeline run #{w.run.id} {status.text}" w.run.id w.run.taskId])

/-- The call of `spawnStep`, up to its first await. -/
def callSpawnStep (w : World) (caller : Caller) (template : WorkflowTemplate)
    (steps : List RunStepState) (stepIdx : Nat) : Suspended where
  caller := caller
  point := .imports
  pipelineName := orElse (w.pipelineName.getD "") "?"
  template := template
  steps := steps
  stepIdx := stepIdx
  context := w.run.context
  autoAdvance := w.run.autoAdvance

/-- `advanceRun`, up to its await or its end. -/
def advanceRun (w : World) (success : Bool) (errorMsg : Option String) (nowMs : Nat) : World :=
  let run := w.run
  let now := seconds nowMs
  if run.status ≠ .running then
    w.respond (.error 400 s!"Run is {run.status.text}, not running")
  else
    match statusAt run.stepsSnapshot run.currentStep with
    -- reading a field of `undefined` rejects the handler's promise
    | none => w.respond (.error 500 "Internal Server Error")
    | some status =>
      if status ≠ .running then
        w.respond (.run run.status none run.stepsSnapshot none (some "Step already advanced"))
      else
        match settle run.stepsSnapshot run.currentStep success errorMsg now with
        | .stopped steps =>
          (onPipelineFinished (w.writeEnd .failed run.currentStep steps now) .failed now).respond
            (.run .failed none steps none none)
        | .finished final steps =>
          (onPipelineFinished (w.writeEnd final run.currentStep steps now) final now).respond
            (.run final none steps none none)
        | .moved steps =>
          let nextIdx := run.currentStep + 1
          match w.templateAt steps nextIdx with
          -- nothing is written before the await
          | some template => w.suspend (callSpawnStep w .advanceRun template steps nextIdx)
          | none =>
            (w.writeCurrent nextIdx steps).respond
              (.run .running (some nextIdx) steps none none)

/-- The rest of `advanceRun`, after `spawnStep` has returned. -/
def resumeAdvanceRun (w : World) (p : Suspended) (r : SpawnResult) : World :=
  (w.writeCurrent p.stepIdx p.steps).respond
    (.run .running (some p.stepIdx) p.steps (some r) none)

/-- `handleStepExit`, up to its end; the call of `spawnStep` is not awaited. -/
def handleStepExit (w : World) (stepIdx : Nat) (success : Bool) (errorMsg : Option String)
    (nowMs : Nat) : World :=
  let run := w.run
  let now := seconds nowMs
  if run.status ≠ .running then w
  else
    match statusAt run.stepsSnapshot stepIdx with
    -- the exception is caught and logged
    | none => w
    | some status =>
      if status ≠ .running then w
      else
        match settle run.stepsSnapshot stepIdx success errorMsg now with
        | .stopped steps => onPipelineFinished (w.writeEnd .failed stepIdx steps now) .failed now
        | .finished final steps => onPipelineFinished (w.writeEnd final stepIdx steps now) final now
        | .moved steps =>
          let nextIdx := stepIdx + 1
          let w := w.writeCurrent nextIdx steps
          match w.templateAt steps nextIdx with
          | some template => w.suspend (callSpawnStep w .handleStepExit template steps nextIdx)
          | none => w

/-- `runningProcesses.get`. -/
def livePid (w : World) (stepIdx : Nat) : Option Nat :=
  (w.runningProcesses.find? (·.1 = stepIdx)).map Prod.snd

/-- The loop body of `cancelRun` on one step. -/
def cancelStep (now : Nat) (s : RunStepState) : RunStepState :=
  if s.status = .running ∨ s.status = .pending then
    { s with status := .skipped, completedAt := some now }
  else s

/-- `cancelRun`, which has no await. -/
def cancelRun (w : World) (nowMs : Nat) : World :=
  let run := w.run
  let now := seconds nowMs
  if run.status ≠ .running ∧ run.status ≠ .pending then
    w.respond (.error 400 s!"Run is {run.status.text}, cannot cancel")
  else
    let killed := (run.stepsSnapshot.filter (·.status = .running)).filterMap fun s =>
      (livePid w s.stepIndex).map fun pid => (s.stepIndex, pid)
    let steps := run.stepsSnapshot.map (cancelStep now)
    let w := { w with
      run := { run with
        status := .cancelled, stepsSnapshot := steps, completedAt := some now }
      runningProcesses := w.runningProcesses.filter fun entry =>
        ¬ killed.any (·.1 = entry.1) }
    (w.emit (killed.map fun entry => .kill entry.2)).respond (.run .cancelled none steps none none)

/-- How the synchronous part of `spawnStep` after its imports goes. The exception may be
raised before the process exists, or by the database write that follows its creation. -/
inductive SpawnOutcome where
  | spawned (pid : Option Nat)
  | threw (message : String)
  | threwAfterSpawn (pid : Option Nat) (message : String)
  deriving DecidableEq

def spawnIdOf (runId stepIdx nowMs : Nat) : String :=
  s!"pipeline-{runId}-step-{stepIdx}-{nowMs}"

def logPathOf (cfg : Config) (runId stepIdx : Nat) : String :=
  s!"{cfg.logsDir}/run-{runId}-step-{stepIdx}.log"

/-- The argument vector of `openclaw agent`. -/
def spawnArgs (cfg : Config) (p : Suspended) : List String :=
  let contextBlock := match truthy p.context with
    | some context => s!"\n\n--- Task Context ---\n{context}\n--- End Context ---\n\n"
    | none => ""
  ["agent", "--agent", getPipelineAgentId cfg, "--message",
    s!"[Pipeline: {p.pipelineName} | Step {p.stepIdx + 1}]{contextBlock}{p.template.taskPrompt}",
    "--timeout", toString p.template.timeoutSeconds, "--json"]

/-- `spawn(config.openclawBin, args, …)`, with the entry it leaves in `runningProcesses`. -/
def spawnChild (cfg : Config) (w : World) (p : Suspended) (pid : Option Nat) (listening : Bool)
    (nowMs : Nat) : World :=
  { w with
    children := w.children ++ [{
      stepIdx := p.stepIdx
      spawnId := spawnIdOf w.run.id p.stepIdx nowMs
      args := spawnArgs cfg p
      pid := pid
      autoAdvance := p.autoAdvance
      listening := listening
      exited := false }]
    runningProcesses := match pid with
      | some pid => (p.stepIdx, pid) :: w.runningProcesses.filter (·.1 ≠ p.stepIdx)
      | none => w.runningProcesses }

/-- The fields that `spawnStep` sets on its step once the process exists. -/
def recordSpawn (cfg : Config) (runId : Nat) (p : Suspended) (pid : Option Nat) (nowMs : Nat) :
    List RunStepState :=
  p.steps.modify p.stepIdx fun s =>
    { s with
      spawnId := some (spawnIdOf runId p.stepIdx nowMs)
      startedAt := some (seconds nowMs)
      pid := pid
      logPath := some (logPathOf cfg runId p.stepIdx) }

/-- The fields that the catch branch of `spawnStep` sets on its step. -/
def failSpawn (steps : List RunStepState) (idx : Nat) (message : String) (now : Nat) :
    List RunStepState :=
  steps.modify idx fun s =>
    { s with
      status := .failed
      completedAt := some now
      error := some s!"Spawn failed: {message}" }

/-- The steps as the catch branch leaves them, the `on_failure` policy applied. -/
def spawnFailedSteps (steps : List RunStepState) (idx : Nat) (autoAdvance : Bool)
    (message : String) (now : Nat) : List RunStepState :=
  let failed := failSpawn steps idx message now
  if autoAdvance ∧ onFailureAt failed idx = .stop then skipFrom failed (idx + 1) else failed

/-- The catch branch of `spawnStep`. -/
def spawnStepCatch (w : World) (p : Suspended) (steps : List RunStepState) (message : String)
    (nowMs : Nat) : World :=
  let now := seconds nowMs
  let final := spawnFailedSteps steps p.stepIdx p.autoAdvance message now
  if p.autoAdvance ∧ onFailureAt steps p.stepIdx = .stop then
    w.writeEnd .failed w.run.currentStep final now
  else
    w.writeSteps final

/-- `spawnStep` after its imports: the world it leaves, the shared `steps` array and the
value its promise resolves to. -/
def spawnStep (cfg : Config) (w : World) (p : Suspended) (outcome : SpawnOutcome) (nowMs : Nat) :
    World × List RunStepState × SpawnResult :=
  match outcome with
  | .spawned pid =>
    let steps := recordSpawn cfg w.run.id p pid nowMs
    ((spawnChild cfg w p pid true nowMs).writeSteps steps, steps,
      ⟨true, some (spawnIdOf w.run.id p.stepIdx nowMs), none⟩)
  | .threw message =>
    (spawnStepCatch w p p.steps message nowMs,
      spawnFailedSteps p.steps p.stepIdx p.autoAdvance message (seconds nowMs),
      ⟨false, none, some message⟩)
  | .threwAfterSpawn pid message =>
    let steps := recordSpawn cfg w.run.id p pid nowMs
    (spawnStepCatch (spawnChild cfg w p pid false nowMs) p steps message nowMs,
      spawnFailedSteps steps p.stepIdx p.autoAdvance message (seconds nowMs),
      ⟨false, none, some message⟩)

/-- The rest of `startPipeline`: it re-reads the row, logs and responds. -/
def resumeStartPipeline (w : World) (spawn : Option SpawnResult) : World :=
  let name := w.pipelineName.getD ""
  (w.emit [.activity "pipeline_started" w.run.pipelineId
    s!"Pipeline \"{name}\" started" w.run.id w.run.taskId]).respond
    (.run w.run.status (some 0) w.run.stepsSnapshot spawn none)

/-- Resume the `i`-th suspended handler at its await. -/
def resume (cfg : Config) (w : World) (i : Nat) (p : Suspended) (outcome : SpawnOutcome)
    (nowMs : Nat) : World :=
  match p.point with
  | .imports =>
    let (w', steps, r) := spawnStep cfg w p outcome nowMs
    match p.caller with
    | .handleStepExit => { w' with suspended := w.suspended.eraseIdx i }
    | .startPipeline | .advanceRun =>
      { w' with suspended := w.suspended.set i { p with point := .result r, steps := steps } }
  | .result r =>
    let w := { w with suspended := w.suspended.eraseIdx i }
    match p.caller with
    | .advanceRun => resumeAdvanceRun w p r
    | .startPipeline => resumeStartPipeline w (some r)
    | .handleStepExit => w

/-- The listeners of a child: forget the pid, then settle the step if auto-advance is on. -/
def onChildEvent (w : World) (c : Child) (success : Bool) (errorMsg : Option String)
    (nowMs : Nat) : World :=
  if c.listening then
    let w := { w with runningProcesses := w.runningProcesses.filter (·.1 ≠ c.stepIdx) }
    if c.autoAdvance then handleStepExit w c.stepIdx success errorMsg nowMs else w
  else w

/-- `exit code ${code}`; a process ended by a signal has the code `null`. -/
def exitError : Option Nat → Option String
  | some 0 => none
  | some code => some s!"exit code {code}"
  | none => some "exit code null"

inductive Event where
  | advance (success : Bool) (errorMsg : Option String) (nowMs : Nat)
  | cancel (nowMs : Nat)
  | resume (i : Nat) (outcome : SpawnOutcome) (nowMs : Nat)
  | exit (k : Nat) (code : Option Nat) (nowMs : Nat)
  /-- An `error` event; the process is `gone` when it could not be started at all. -/
  | error (k : Nat) (message : String) (gone : Bool) (nowMs : Nat)
  | editTemplates (templates : List WorkflowTemplate)
  deriving DecidableEq

def step (cfg : Config) (w : World) : Event → Option World
  | .advance success errorMsg nowMs => some (advanceRun w success errorMsg nowMs)
  | .cancel nowMs => some (cancelRun w nowMs)
  | .resume i outcome nowMs => w.suspended[i]?.map fun p => resume cfg w i p outcome nowMs
  | .exit k code nowMs =>
    match w.children[k]? with
    | some c =>
      if c.exited then none
      else
        let w := { w with children := w.children.set k { c with exited := true } }
        some (onChildEvent w c (code = some 0) (exitError code) nowMs)
    | none => none
  | .error k message gone nowMs =>
    match w.children[k]? with
    | some c =>
      if c.exited then none
      else
        let w := { w with children := w.children.set k { c with exited := gone } }
        some (onChildEvent w c false (some message) nowMs)
    | none => none
  | .editTemplates templates => some { w with templates := templates }

/-- One run with every handler and process event that can touch it. -/
def machine (cfg : Config) : Machine World Event := ⟨step cfg⟩

/-- A row of `workflow_pipelines`, its `steps` parsed. -/
structure Pipeline where
  id : Nat
  name : String
  steps : List PipelineStep
  deriving DecidableEq

/-- The snapshot that `startPipeline` inserts. -/
def initialSnapshot (templates : List WorkflowTemplate) (steps : List PipelineStep) (now : Nat) :
    List RunStepState :=
  steps.mapIdx fun i s =>
    { stepIndex := i
      templateId := s.templateId
      templateName := orElse
        (((templates.find? (·.id = s.templateId)).map WorkflowTemplate.name).getD "") "Unknown"
      onFailure := s.onFailure
      status := if i = 0 then .running else .pending
      spawnId := none
      startedAt := if i = 0 then some now else none
      completedAt := none
      error := none
      pid := none
      logPath := none }

/-- The arguments of a start request. -/
structure StartRequest where
  triggeredBy : String
  context : Option String
  taskId : Option Nat
  autoAdvance : Option Bool
  deriving DecidableEq

/-- The synchronous start of `startPipeline`: the row it inserts, the task it links. -/
def insertRun (pipeline : Pipeline) (templates : List WorkflowTemplate) (request : StartRequest)
    (runId nowMs : Nat) : World :=
  let now := seconds nowMs
  let taskId := request.taskId.filter (· ≠ 0)
  { run :=
      { id := runId
        pipelineId := pipeline.id
        status := .running
        currentStep := 0
        stepsSnapshot := initialSnapshot templates pipeline.steps now
        context := truthy request.context
        taskId := taskId
        autoAdvance := request.autoAdvance ≠ some false
        startedAt := some now
        completedAt := none
        triggeredBy := request.triggeredBy }
    templates := templates
    pipelineName := some pipeline.name
    suspended := []
    children := []
    runningProcesses := []
    effects := (taskId.map fun id => Effect.linkTask id runId "in_progress" now).toList ++
      [.pipelineUsed pipeline.id now] }

/-- `startPipeline`, up to its await or its end; `runId` is the id of the inserted row. -/
def startPipeline (pipeline : Pipeline) (templates : List WorkflowTemplate)
    (request : StartRequest) (runId nowMs : Nat) : Except Response World :=
  if pipeline.steps.length = 0 then .error (.error 400 "Pipeline has no steps")
  else
    let w := insertRun pipeline templates request runId nowMs
    match w.templateAt w.run.stepsSnapshot 0 with
    | some template =>
      .ok (w.suspend { callSpawnStep w .startPipeline template w.run.stepsSnapshot 0 with
        pipelineName := pipeline.name })
    | none => .ok (resumeStartPipeline w none)

/-! ### Sample inputs -/

def sampleConfig : Config := ⟨"", "", "", "/logs"⟩

def sampleTemplate : WorkflowTemplate := ⟨1, "Build", "", "Build it", 600⟩

/-- A pipeline of `n` steps from one template, all with the failure policy `onFailure`. -/
def samplePipeline (n : Nat) (onFailure : Option OnFailure) : Pipeline :=
  ⟨1, "Release", List.replicate n ⟨1, onFailure⟩⟩

def sampleRequest : StartRequest := ⟨"admin", none, none, none⟩

/-- The run of a sample pipeline when its start request first awaits. -/
def sampleStart (n : Nat) (onFailure : Option OnFailure) : World :=
  (startPipeline (samplePipeline n onFailure) [sampleTemplate] sampleRequest 1 0).toOption.getD
    (insertRun (samplePipeline n onFailure) [sampleTemplate] sampleRequest 1 0)

/-- The first step is spawned, the start request returns, and one request advances the run. -/
def oneAdvance : List Event :=
  [.resume 0 (.spawned (some 10)) 1000, .resume 0 (.spawned none) 1000, .advance true none 2000,
    .resume 0 (.spawned (some 11)) 2000]

/-- The second step is running and no request is open when the run is cancelled. -/
def cancelledRun : List Event := oneAdvance ++ [.resume 0 (.spawned none) 2000, .cancel 3000]

end MissionControl.Pipelines.Handlers
