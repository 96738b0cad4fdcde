import MissionControl.Foundations.Transition
import MissionControl.Provisioning.Plans

/-!
Tenants, provisioning jobs and the three functions that change them. `executeProvisionJob` is
cut at its awaits: each step of the plan is awaited, and between two awaits the function runs
alone. A row's id is its position in its table; rows are never deleted.
-/

set_option autoImplicit false
set_option relaxedAutoImplicit false

namespace MissionControl.Provisioning.Jobs

open MissionControl.Foundations.JsText
open MissionControl.Foundations.PosixPath (joinText)
open MissionControl.Foundations.Transition (Machine)
open Plans

inductive TenantStatus where
  | pending
  | provisioning
  | decommissioning
  | active
  | suspended
  | error
  deriving DecidableEq

inductive JobStatus where
  | queued
  | approved
  | running
  | completed
  | failed
  | rejected
  | cancelled
  deriving DecidableEq

def JobStatus.text : JobStatus → String
  | .queued => "queued"
  | .approved => "approved"
  | .running => "running"
  | .completed => "completed"
  | .failed => "failed"
  | .rejected => "rejected"
  | .cancelled => "cancelled"

inductive JobType where
  | bootstrap
  | update
  | decommission
  deriving DecidableEq

def JobType.text : JobType → String
  | .bootstrap => "bootstrap"
  | .update => "update"
  | .decommission => "decommission"

structure Tenant where
  paths : TenantPaths
  status : TenantStatus
  deriving DecidableEq

/-- The fields of `request_json` that an execution reads. -/
structure JobRequest where
  slug : Option String
  dryRun : Option Bool
  gatewayPort : Option Nat
  deriving DecidableEq

/-- An entry of `stepResults`. -/
structure StepRecord where
  key : String
  ok : Bool
  skipped : Bool
  stdout : String
  stderr : String
  deriving DecidableEq

/-- A row of `provision_jobs`. -/
structure ProvisionJob where
  tenantId : Nat
  jobType : JobType
  status : JobStatus
  dryRun : Bool
  requestedBy : String
  approvedBy : Option String
  runnerHost : Option String
  request : JobRequest
  plan : List ProvisionStep
  results : List StepRecord
  errorText : Option String
  deriving DecidableEq

/-- A suspended `executeProvisionJob`, which awaits `step`; `rest` is the plan after it. -/
structure Execution where
  jobId : Nat
  actor : String
  tenantId : Nat
  jobType : JobType
  dryRun : Bool
  previousTenantStatus : TenantStatus
  allowExec : Bool
  step : ProvisionStep
  rest : List ProvisionStep
  stepResults : List StepRecord
  deriving DecidableEq

/-- What the functions log: the provision events and audit entries in the order they are
written, with the fields that the texts are made of. -/
inductive Record where
  | queued (job : Nat) (actor : String) (jobType : JobType) (dryRun logged : Bool)
  | approved (job : Nat) (actor reason : String)
  | rejected (job : Nat) (actor reason : String)
  | cancelled (job : Nat) (actor reason : String)
  | started (job : Nat) (actor : String) (dryRun : Bool)
  | stepRunning (job : Nat) (actor key title : String)
  | stepSkipped (job : Nat) (key : String)
  | stepCompleted (job : Nat) (key : String)
  | finished (job : Nat) (actor : String) (jobType : JobType) (dryRun : Bool)
  | failed (job : Nat) (actor message : String)
  deriving DecidableEq

inductive Level where
  | info
  | warn
  | error
  deriving DecidableEq

structure ProvisionEvent where
  level : Level
  stepKey : String
  message : String
  deriving DecidableEq

def withReason (text reason : String) : String :=
  if reason = "" then text else text ++ ": " ++ reason

/-- The row of `provision_events` behind a record. -/
def Record.event : Record → Option ProvisionEvent
  | .queued _ _ jobType dryRun logged =>
    let mode := if dryRun then "dry-run" else "execute"
    if logged = false then none
    else if jobType = .decommission then
      some ⟨.warn, "queued", "Decommission request queued (" ++ mode ++ ")"⟩
    else some ⟨.info, "queued", "Provisioning request queued (" ++ mode ++ ")"⟩
  | .approved _ actor reason =>
    some ⟨.info, "approval", withReason ("Approved by " ++ actor) reason⟩
  | .rejected _ actor reason =>
    some ⟨.warn, "approval", withReason ("Rejected by " ++ actor) reason⟩
  | .cancelled _ actor reason =>
    some ⟨.warn, "cancel", withReason ("Cancelled by " ++ actor) reason⟩
  | .started _ actor dryRun =>
    some ⟨.info, "start", "Execution started by " ++ actor ++ (if dryRun then " (dry-run)" else "")⟩
  | .stepRunning _ _ key title => some ⟨.info, key, "Running: " ++ title⟩
  | .stepSkipped _ key => some ⟨.info, key, "Dry-run: command execution skipped"⟩
  | .stepCompleted _ key => some ⟨.info, key, "Completed"⟩
  | .finished _ _ jobType dryRun =>
    some ⟨.info, "finish", jobType.text ++ " job completed (" ++
      (if dryRun then "dry-run" else "execute") ++ ")"⟩
  | .failed _ _ message => some ⟨.error, "error", message⟩

structure World where
  tenants : List Tenant
  jobs : List ProvisionJob
  executions : List Execution
  records : List Record
  /-- The gateway environment files written so far: path and content. -/
  artifacts : List (String × String)
  deriving DecidableEq

namespace World

def empty : World := ⟨[], [], [], [], []⟩

def record (w : World) (r : Record) : World := { w with records := w.records ++ [r] }

def updateJob (w : World) (id : Nat) (f : ProvisionJob → ProvisionJob) : World :=
  { w with jobs := w.jobs.modify id f }

/-- `UPDATE tenants SET status = ? WHERE id = ?`. -/
def setTenantStatus (w : World) (id : Nat) (status : TenantStatus) : World :=
  { w with tenants := w.tenants.modify id fun t => { t with status := status } }

end World

/-! ### Creation -/

/-- The row of `INSERT INTO provision_jobs`. -/
def newJob (tenantId : Nat) (jobType : JobType) (dryRun : Bool) (actor : String)
    (request : JobRequest) (plan : List ProvisionStep) : ProvisionJob where
  tenantId := tenantId
  jobType := jobType
  status := .queued
  dryRun := dryRun
  requestedBy := actor
  approvedBy := none
  runnerHost := none
  request := request
  plan := plan
  results := []
  errorText := none

/-- Insert a job; the two functions that build the plan themselves also log an event. -/
def insertJob (w : World) (job : ProvisionJob) (logged : Bool) : World :=
  World.record { w with jobs := w.jobs ++ [job] }
    (.queued w.jobs.length job.requestedBy job.jobType job.dryRun logged)

def createTenantAndBootstrapJob (env : Environment) (w : World)
    (request : TenantBootstrapRequest) (actor : String) : Except String World :=
  match validateBootstrap env request with
  | .error e => .error e
  | .ok draft =>
    if w.tenants.any (fun t => t.paths.slug = draft.tenant.slug ∨
        t.paths.linuxUser = draft.tenant.linuxUser) then
      .error "UNIQUE constraint failed: tenants"
    else
      .ok (insertJob { w with tenants := w.tenants ++ [⟨draft.tenant, .pending⟩] }
        (newJob w.tenants.length .bootstrap draft.dryRun actor
          ⟨some draft.tenant.slug, some draft.dryRun, some draft.gatewayPort⟩ (draft.plan env)) true)

def createTenantDecommissionJob (w : World) (tenantId : Nat) (dryRun : Option Bool)
    (options : DecommissionOptions) (actor : String) : Except String World :=
  match w.tenants[tenantId]? with
  | none => .error "Tenant not found"
  | some tenant =>
    let dryRun := dryRun ≠ some false
    .ok (insertJob w (newJob tenantId .decommission dryRun actor
      ⟨some tenant.paths.slug, some dryRun, none⟩
      (buildDecommissionPlan tenant.paths options)) true)

/-- `POST /api/super/provision-jobs`, with a plan and a request of the caller's making. -/
def queueJob (w : World) (tenantId : Nat) (jobType : JobType) (dryRun : Option Bool)
    (request : JobRequest) (plan : List ProvisionStep) (actor : String) : Except String World :=
  if w.tenants.length ≤ tenantId then .error "Tenant not found"
  else .ok (insertJob w (newJob tenantId jobType (dryRun ≠ some false) actor request plan) false)

/-! ### Transitions -/

inductive ProvisionJobAction where
  | approve
  | reject
  | cancel
  deriving DecidableEq

def transitionProvisionJobStatus (w : World) (jobId : Nat) (actor : String)
    (action : ProvisionJobAction) (reason : String) : Except String World :=
  match w.jobs[jobId]? with
  | none => .error "Job not found"
  | some job =>
    let reason := trim reason
    if job.status ∈ [.running, .completed, .cancelled] then
      .error ("Job status " ++ job.status.text ++ " is immutable")
    else
      match action with
      | .approve =>
        if job.status ∉ [.queued, .rejected, .failed] then
          .error ("Cannot approve job from status " ++ job.status.text)
        else
          .ok ((w.updateJob jobId fun j =>
            { j with status := .approved, approvedBy := some actor, errorText := none }).record
              (.approved jobId actor reason))
      | .reject =>
        if job.status ∉ [.queued, .approved, .failed] then
          .error ("Cannot reject job from status " ++ job.status.text)
        else
          .ok ((w.updateJob jobId fun j => { j with status := .rejected }).record
            (.rejected jobId actor reason))
      | .cancel =>
        if job.status ∉ [.queued, .approved, .failed, .rejected] then
          .error ("Cannot cancel job from status " ++ job.status.text)
        else
          .ok ((w.updateJob jobId fun j => { j with status := .cancelled }).record
            (.cancelled jobId actor reason))

/-! ### Execution -/

/-- `ensureProvisionArtifacts`: the file it writes, unless a check or the file system fails. -/
def ensureProvisionArtifacts (env : Environment) (job : ProvisionJob) (tenant : Tenant)
    (fsError : Option String) : Except String (String × String) :=
  let slug := trim (orElse (job.request.slug.getD "") tenant.paths.slug)
  let linuxUser := trim tenant.paths.linuxUser
  let openclawHome := trim tenant.paths.openclawHome
  let gatewayPort := job.request.gatewayPort.getD 0
  if slug = "" then .error "Missing tenant slug for artifact generation"
  else if linuxUser = "" then .error "Missing linux_user for artifact generation"
  else if openclawHome = "" then .error "Missing openclaw_home for artifact generation"
  else if gatewayPort < 1024 ∨ gatewayPort > 65535 then
    .error "Missing/invalid gateway_port for gateway unit provisioning"
  else
    match fsError with
    | some message => .error message
    | none =>
      .ok (joinText [getProvisionArtifactDir env slug, "openclaw-gateway.env"],
        "\n".intercalate [
          "TENANT_SLUG=" ++ slug,
          "TENANT_USER=" ++ linuxUser,
          "OPENCLAW_HOME=" ++ openclawHome,
          "OPENCLAW_STATE_DIR=" ++ openclawHome,
          "OPENCLAW_CONFIG_PATH=" ++ openclawHome ++ "/openclaw.json",
          "OPENCLAW_GATEWAY_PORT=" ++ toString gatewayPort,
          ""])

/-- What awaiting a command gives: its result, or an exception. -/
inductive StepOutcome where
  | result (code : Int) (skipped : Bool) (stdout stderr : String)
  | threw (message : String)
  deriving DecidableEq

/-- `runProvisionStep`; `external` is what the daemon or the command answers. -/
def runProvisionStep (env : Environment) (step : ProvisionStep) (dryRun : Bool)
    (external : StepOutcome) : StepOutcome :=
  let provisionMode := toLowerCase ((truthy env.provisionMode).getD "daemon")
  if step.command.head?.getD "" = "" then .threw ("Invalid command for step " ++ step.key)
  else if step.requiresRoot ∧ provisionMode = "daemon" then external
  else if dryRun then .result 0 true "" ""
  else external

/-- The catch branch of `executeProvisionJob`. -/
def failExecution (w : World) (e : Execution) (message : String) : World :=
  ((w.updateJob e.jobId fun j =>
    { j with status := .failed, errorText := some message, results := e.stepResults }).setTenantStatus
      e.tenantId .error).record (.failed e.jobId e.actor message)

def completedTenantStatus (e : Execution) : TenantStatus :=
  if e.jobType = .decommission then (if e.dryRun then e.previousTenantStatus else .suspended)
  else .active

/-- The end of the try block of `executeProvisionJob`. -/
def completeExecution (w : World) (e : Execution) : World :=
  ((w.updateJob e.jobId fun j =>
    { j with status := .completed, errorText := none, results := e.stepResults }).setTenantStatus
      e.tenantId (completedTenantStatus e)).record (.finished e.jobId e.actor e.jobType e.dryRun)

/-- One round of the loop over the plan, up to its await. -/
def awaitStep (w : World) (e : Execution) : World :=
  let w := w.record (.stepRunning e.jobId e.actor e.step.key e.step.title)
  if ¬ e.dryRun ∧ ¬ e.allowExec then
    failExecution w e
      "Execution disabled. Set MC_SUPER_PROVISION_EXEC=true to allow non-dry-run provisioning."
  else { w with executions := w.executions ++ [e] }

/-- The writes of `executeProvisionJob` before its loop. -/
def beginExecution (env : Environment) (w : World) (e : Execution) : World :=
  let startedTenantStatus :=
    if e.dryRun then e.previousTenantStatus
    else if e.jobType = .decommission then .decommissioning else .provisioning
  ((w.updateJob e.jobId fun j =>
    { j with
      status := .running
      runnerHost := some ((truthy env.hostname).getD "unknown") }).setTenantStatus
      e.tenantId startedTenantStatus).record (.started e.jobId e.actor e.dryRun)

/-- `executeProvisionJob`, up to its first await or its end. -/
def executeProvisionJob (env : Environment) (w : World) (jobId : Nat) (actor : String)
    (fsError : Option String) : Except String World :=
  match w.jobs[jobId]? with
  | none => .error "Job not found"
  | some job =>
    match w.tenants[job.tenantId]? with
    | none => .error "Job not found"
    | some tenant =>
      if job.status ≠ .approved then
        .error ("Job must be approved before execution. Current status: " ++ job.status.text)
      else
        match job.plan with
        | [] => .error "Job plan is empty"
        | step :: rest =>
          let approvedBy := job.approvedBy.getD ""
          if decide (job.request.dryRun ≠ some false) ≠ job.dryRun then
            .error "Job dry_run metadata mismatch detected"
          else if approvedBy = "" then .error "Missing approver. Approve the job before run."
          else if job.dryRun = false ∧ approvedBy = job.requestedBy then
            .error "Two-person rule violation: live jobs require an approver different from the requester."
          else if job.dryRun = false ∧ approvedBy = actor then
            .error "Two-person rule violation: approver cannot be the execution runner for live jobs."
          else
            let e : Execution :=
              { jobId := jobId
                actor := actor
                tenantId := job.tenantId
                jobType := job.jobType
                dryRun := job.dryRun
                previousTenantStatus := tenant.status
                allowExec := toLowerCase (env.provisionExec.getD "") = "true"
                step := step
                rest := rest
                stepResults := [] }
            if job.jobType = .bootstrap then
              match ensureProvisionArtifacts env job tenant fsError with
              | .error message => .error message
              | .ok artifact =>
                .ok (awaitStep (beginExecution env
                  { w with artifacts := w.artifacts ++ [artifact] } e) e)
            else .ok (awaitStep (beginExecution env w e) e)

/-- `text.slice(0, n)`. -/
def sliceText (n : Nat) (text : String) : String := String.ofList (text.toList.take n)

/-- The execution after its step returned a result. -/
def Execution.noteResult (e : Execution) (code : Int) (skipped : Bool) (stdout stderr : String) :
    Execution :=
  { e with stepResults := e.stepResults ++
      [⟨e.step.key, code = 0, skipped, sliceText 4000 stdout, sliceText 4000 stderr⟩] }

/-- Resume the execution `e`, which has been taken off the list, when its step is done. -/
def resumeExecution (w : World) (e : Execution) (outcome : StepOutcome) : World :=
  match outcome with
  | .threw message => failExecution w e message
  | .result code skipped stdout stderr =>
    let e := e.noteResult code skipped stdout stderr
    let w := w.record
      (if skipped then .stepSkipped e.jobId e.step.key else .stepCompleted e.jobId e.step.key)
    match e.rest with
    | [] => completeExecution w e
    | step :: rest => awaitStep w { e with step := step, rest := rest }

inductive Event where
  | createTenant (request : TenantBootstrapRequest) (actor : String)
  | createDecommission (tenantId : Nat) (dryRun : Option Bool) (options : DecommissionOptions)
      (actor : String)
  | queueJob (tenantId : Nat) (jobType : JobType) (dryRun : Option Bool) (request : JobRequest)
      (plan : List ProvisionStep) (actor : String)
  | transition (jobId : Nat) (actor : String) (action : ProvisionJobAction) (reason : String)
  | execute (jobId : Nat) (actor : String) (fsError : Option String)
  | resume (i : Nat) (external : StepOutcome)
  deriving DecidableEq

/-- A request that is refused changes nothing. -/
def accepted (w : World) : Except String World → World
  | .ok w' => w'
  | .error _ => w

def step (env : Environment) (w : World) : Event → Option World
  | .createTenant request actor => some (accepted w (createTenantAndBootstrapJob env w request actor))
  | .createDecommission tenantId dryRun options actor =>
    some (accepted w (createTenantDecommissionJob w tenantId dryRun options actor))
  | .queueJob tenantId jobType dryRun request plan actor =>
    some (accepted w (queueJob w tenantId jobType dryRun request plan actor))
  | .transition jobId actor action reason =>
    some (accepted w (transitionProvisionJobStatus w jobId actor action reason))
  | .execute jobId actor fsError => some (accepted w (executeProvisionJob env w jobId actor fsError))
  | .resume i external =>
    (w.executions[i]?).map fun e =>
      resumeExecution { w with executions := w.executions.eraseIdx i } e
        (runProvisionStep env e.step e.dryRun external)

def machine (env : Environment) : Machine World Event := ⟨step env⟩

end MissionControl.Provisioning.Jobs
