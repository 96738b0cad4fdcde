import Mathlib.Data.List.Nodup
import MissionControl.Foundations.Lists
import MissionControl.Provisioning.Jobs

/-!
What one event can do to jobs and executions. Between two awaits an execution is held by
nobody but the running function, so its segments are stated on the world that still holds it.
-/

set_option autoImplicit false
set_option relaxedAutoImplicit false

namespace MissionControl.Provisioning.JobSteps

open MissionControl.Foundations.JsText (truthy)
open MissionControl.Foundations.Lists
open Plans Jobs

/-- The approver of a live job is neither its requester nor the one who runs it. -/
def Cleared (job : ProvisionJob) (actor : String) : Prop :=
  job.dryRun = false → ∃ a, job.approvedBy = some a ∧ a ≠ job.requestedBy ∧ a ≠ actor

/-- What `executeProvisionJob` has checked when it begins the execution `e`. -/
structure Startable (w : World) (e : Execution) (job : ProvisionJob) (tenant : Tenant) : Prop where
  row : w.jobs[e.jobId]? = some job
  status : job.status = .approved
  tenantId : job.tenantId = e.tenantId
  dryRun : job.dryRun = e.dryRun
  jobType : job.jobType = e.jobType
  tenantRow : w.tenants[e.tenantId]? = some tenant
  previous : tenant.status = e.previousTenantStatus
  cleared : Cleared job e.actor

/-- Every way one event changes the world. -/
inductive Stepped (env : Environment) (w : World) (ev : Event) : World → Prop
  | refused : Stepped env w ev w
  | queued {added : List Tenant} {job : ProvisionJob} {logged : Bool}
      (pending : ∀ t ∈ added, t.status = .pending) (status : job.status = .queued)
      (approver : job.approvedBy = none)
      (tenant : job.tenantId < (w.tenants ++ added).length) :
      Stepped env w ev (insertJob { w with tenants := w.tenants ++ added } job logged)
  | approved {id : Nat} {job : ProvisionJob} {actor reason : String}
      (row : w.jobs[id]? = some job) (idle : job.status ≠ .running) :
      Stepped env w ev ((w.updateJob id fun j =>
        { j with status := .approved, approvedBy := some actor, errorText := none }).record
          (.approved id actor reason))
  | withdrawn {id : Nat} {job : ProvisionJob} {status : JobStatus} {record : Record}
      (row : w.jobs[id]? = some job) (idle : job.status ≠ .running)
      (change : (∃ actor reason, status = .rejected ∧ record = .rejected id actor reason) ∨
        ∃ actor reason, status = .cancelled ∧ record = .cancelled id actor reason) :
      Stepped env w ev ((w.updateJob id fun j => { j with status := status }).record record)
  | started {e : Execution} {job : ProvisionJob} {tenant : Tenant}
      {artifacts : List (String × String)} (start : Startable w e job tenant) :
      Stepped env w ev
        (awaitStep (beginExecution env { w with artifacts := artifacts } e) e)
  | resumed {i : Nat} {external : StepOutcome} {e : Execution} (event : ev = .resume i external)
      (row : w.executions[i]? = some e) :
      Stepped env w ev (resumeExecution { w with executions := w.executions.eraseIdx i } e
        (runProvisionStep env e.step e.dryRun external))

private theorem transition_stepped {env : Environment} {w : World} {id : Nat}
    {actor reason : String} {action : ProvisionJobAction} {ev : Event} :
    Stepped env w ev (accepted w (transitionProvisionJobStatus w id actor action reason)) := by
  unfold transitionProvisionJobStatus
  cases hrow : w.jobs[id]? with
  | none => exact .refused
  | some job =>
    dsimp only
    split
    · exact .refused
    · rename_i hmutable
      have hidle : job.status ≠ .running := by
        intro hrunning
        rw [hrunning] at hmutable
        exact hmutable List.mem_cons_self
      cases action with
      | approve =>
        dsimp only
        split
        · exact .refused
        · exact .approved hrow hidle
      | reject =>
        dsimp only
        split
        · exact .refused
        · exact .withdrawn hrow hidle (.inl ⟨_, _, rfl, rfl⟩)
      | cancel =>
        dsimp only
        split
        · exact .refused
        · exact .withdrawn hrow hidle (.inr ⟨_, _, rfl, rfl⟩)

/-- An execution that is begun has passed the checks. -/
theorem executeProvisionJob_ok {env : Environment} {w w' : World} {id : Nat} {actor : String}
    {fsError : Option String} (h : executeProvisionJob env w id actor fsError = .ok w') :
    ∃ e job tenant artifacts, e.jobId = id ∧ Startable w e job tenant ∧
      w' = awaitStep (beginExecution env { w with artifacts := artifacts } e) e := by
  unfold executeProvisionJob at h
  cases hrow : w.jobs[id]? with
  | none => simp [hrow] at h
  | some job =>
    simp only [hrow] at h
    cases htenant : w.tenants[job.tenantId]? with
    | none => simp [htenant] at h
    | some tenant =>
      simp only [htenant] at h
      split at h
      · cases h
      · rename_i hstatus
        cases hplan : job.plan with
        | nil => simp [hplan] at h
        | cons step rest =>
          simp only [hplan] at h
          split at h
          · cases h
          · split at h
            · cases h
            · rename_i hset
              split at h
              · cases h
              · rename_i hrequester
                split at h
                · cases h
                · rename_i hrunner
                  have happrover : ∃ a, job.approvedBy = some a ∧ job.approvedBy.getD "" = a := by
                    cases ha : job.approvedBy with
                    | none => rw [ha] at hset; exact absurd rfl hset
                    | some a => exact ⟨a, rfl, rfl⟩
                  obtain ⟨a, ha, hget⟩ := happrover
                  rw [hget] at hrequester hrunner
                  have hcleared : Cleared job actor := by
                    intro hlive
                    exact ⟨a, ha, fun heq => hrequester ⟨hlive, heq⟩, fun heq => hrunner ⟨hlive, heq⟩⟩
                  split at h
                  · split at h
                    · cases h
                    · obtain rfl := Except.ok.inj h
                      exact ⟨_, job, tenant, _, rfl,
                        ⟨hrow, by simpa using hstatus, rfl, rfl, rfl, htenant, rfl, hcleared⟩, rfl⟩
                  · obtain rfl := Except.ok.inj h
                    exact ⟨_, job, tenant, w.artifacts, rfl,
                      ⟨hrow, by simpa using hstatus, rfl, rfl, rfl, htenant, rfl, hcleared⟩, rfl⟩

private theorem execute_stepped {env : Environment} {w : World} {id : Nat} {actor : String}
    {fsError : Option String} {ev : Event} :
    Stepped env w ev (accepted w (executeProvisionJob env w id actor fsError)) := by
  cases hbegun : executeProvisionJob env w id actor fsError with
  | error message => exact .refused
  | ok w' =>
    obtain ⟨e, job, tenant, artifacts, -, hstart, rfl⟩ := executeProvisionJob_ok hbegun
    exact .started hstart

private theorem insert_stepped {env : Environment} {w : World} {ev : Event} {job : ProvisionJob}
    {logged : Bool} (hstatus : job.status = .queued) (happrover : job.approvedBy = none)
    (hlt : job.tenantId < w.tenants.length) : Stepped env w ev (insertJob w job logged) := by
  have hqueued : Stepped env w ev
      (insertJob { w with tenants := w.tenants ++ [] } job logged) := by
    refine .queued ?_ hstatus happrover ?_
    · intro t ht
      cases ht
    · rw [List.append_nil]
      exact hlt
  rw [List.append_nil] at hqueued
  exact hqueued

theorem step_stepped {env : Environment} {w w' : World} {ev : Event}
    (h : step env w ev = some w') : Stepped env w ev w' := by
  cases ev with
  | createTenant request actor =>
    obtain rfl := Option.some.inj h
    unfold createTenantAndBootstrapJob
    cases hdraft : validateBootstrap env request with
    | error e => exact .refused
    | ok draft =>
      dsimp only
      split
      · exact .refused
      · refine .queued ?_ rfl rfl ?_
        · intro t ht
          rw [List.mem_singleton.mp ht]
        · rw [List.length_append, List.length_singleton]
          exact Nat.lt_succ_self _
  | createDecommission tenantId dryRun options actor =>
    obtain rfl := Option.some.inj h
    unfold createTenantDecommissionJob
    cases htenant : w.tenants[tenantId]? with
    | none => exact .refused
    | some tenant => exact insert_stepped rfl rfl (List.getElem?_eq_some_iff.mp htenant).1
  | queueJob tenantId jobType dryRun request plan actor =>
    obtain rfl := Option.some.inj h
    unfold queueJob
    split
    · exact .refused
    · rename_i hlt
      exact insert_stepped rfl rfl (Nat.lt_of_not_le hlt)
  | transition id actor action reason =>
    obtain rfl := Option.some.inj h
    exact transition_stepped
  | execute id actor fsError =>
    obtain rfl := Option.some.inj h
    exact execute_stepped
  | resume i external =>
    obtain ⟨e, hrow, rfl⟩ := Option.map_eq_some_iff.mp h
    exact .resumed rfl hrow

/-! ### Executions in hand -/

/-- The world in which the execution `e` is still held, as the running function sees it. -/
def held (w : World) (e : Execution) : World := { w with executions := w.executions ++ [e] }

/-- Every execution belongs to a running job of its own, which it was cleared to run. -/
structure Sound (w : World) : Prop where
  running : ∀ e ∈ w.executions, ∃ job, w.jobs[e.jobId]? = some job ∧ job.status = .running ∧
    job.tenantId = e.tenantId ∧ job.dryRun = e.dryRun ∧ Cleared job e.actor
  single : (w.executions.map Execution.jobId).Nodup
  tenants : ∀ job ∈ w.jobs, job.tenantId < w.tenants.length

theorem sound_empty : Sound World.empty := by
  refine ⟨?_, List.nodup_nil, ?_⟩
  · intro e he
    cases he
  · intro job hjob
    cases hjob

/-- The job of an execution that is in hand is not the job of any other execution. -/
theorem Sound.ne_of_held {w : World} {e : Execution} (h : Sound (held w e)) :
    ∀ e' ∈ w.executions, e'.jobId ≠ e.jobId := by
  have hsingle := h.single
  unfold held at hsingle
  rw [List.map_append, List.nodup_append] at hsingle
  intro e' he'
  exact hsingle.2.2 _ (List.mem_map_of_mem he') _ (List.mem_singleton_self _)

/-- A job that is not running has no execution. -/
theorem Sound.idle {w : World} {id : Nat} {job : ProvisionJob} (h : Sound w)
    (hrow : w.jobs[id]? = some job) (hidle : job.status ≠ .running) :
    ∀ e ∈ w.executions, e.jobId ≠ id := by
  rintro e he rfl
  obtain ⟨job', hrow', hrunning, -⟩ := h.running e he
  rw [hrow] at hrow'
  obtain rfl := Option.some.inj hrow'
  exact hidle hrunning

theorem Startable.idle {w : World} {e : Execution} {job : ProvisionJob} {tenant : Tenant}
    (hstart : Startable w e job tenant) : job.status ≠ .running := by
  intro hrunning
  have hstatus := hstart.status
  rw [hrunning] at hstatus
  cases hstatus

theorem Startable.written {w : World} {e : Execution} {job : ProvisionJob} {tenant : Tenant}
    (hstart : Startable w e job tenant) (artifacts : List (String × String)) :
    Startable { w with artifacts := artifacts } e job tenant :=
  ⟨hstart.row, hstart.status, hstart.tenantId, hstart.dryRun, hstart.jobType, hstart.tenantRow,
    hstart.previous, hstart.cleared⟩

/-- Writing one job keeps what is sound, unless the job is being executed. -/
theorem Sound.updateJob {w : World} (h : Sound w) {id : Nat} (f : ProvisionJob → ProvisionJob)
    (hne : ∀ e ∈ w.executions, e.jobId ≠ id) (htenant : ∀ job, (f job).tenantId = job.tenantId) :
    Sound (w.updateJob id f) := by
  refine ⟨?_, h.single, ?_⟩
  · intro e he
    obtain ⟨job, hrow, hrest⟩ := h.running e he
    refine ⟨job, ?_, hrest⟩
    show (w.jobs.modify id f)[e.jobId]? = some job
    rw [List.getElem?_modify_ne _ _ (hne e he).symm]
    exact hrow
  · intro job hjob
    obtain ⟨i, hi⟩ := List.mem_iff_getElem?.mp hjob
    have hi : (w.jobs.modify id f)[i]? = some job := hi
    rw [List.getElem?_modify] at hi
    obtain ⟨old, hold, rfl⟩ := Option.map_eq_some_iff.mp hi
    have hlt := h.tenants old (List.mem_of_getElem? hold)
    by_cases heq : id = i
    · rw [if_pos heq, htenant]
      exact hlt
    · rw [if_neg heq]
      exact hlt

theorem Sound.setTenantStatus {w : World} (h : Sound w) (tenantId : Nat) (status : TenantStatus) :
    Sound (w.setTenantStatus tenantId status) := by
  refine ⟨h.running, h.single, ?_⟩
  intro job hjob
  show job.tenantId < (w.tenants.modify tenantId _).length
  rw [List.length_modify]
  exact h.tenants job hjob

theorem Sound.record {w : World} (h : Sound w) (r : Record) : Sound (w.record r) :=
  ⟨h.running, h.single, h.tenants⟩

theorem Sound.drop {w : World} {e : Execution} (h : Sound (held w e)) : Sound w := by
  refine ⟨?_, ?_, h.tenants⟩
  · intro e' he'
    exact h.running e' (List.mem_append_left _ he')
  · have hsingle := h.single
    unfold held at hsingle
    rw [List.map_append, List.nodup_append] at hsingle
    exact hsingle.1

theorem Sound.hold {w : World} {e : Execution} {job : ProvisionJob} (h : Sound w)
    (hrow : w.jobs[e.jobId]? = some job) (hrunning : job.status = .running)
    (htenant : job.tenantId = e.tenantId) (hdry : job.dryRun = e.dryRun)
    (hcleared : Cleared job e.actor) (hne : ∀ e' ∈ w.executions, e'.jobId ≠ e.jobId) :
    Sound (held w e) := by
  refine ⟨?_, ?_, h.tenants⟩
  · intro e' he'
    rcases List.mem_append.mp he' with he' | he'
    · exact h.running e' he'
    · rw [List.mem_singleton.mp he']
      exact ⟨job, hrow, hrunning, htenant, hdry, hcleared⟩
  · unfold held
    rw [List.map_append, List.nodup_append]
    refine ⟨h.single, List.nodup_singleton _, ?_⟩
    intro id hid id' hid'
    obtain ⟨e', he', rfl⟩ := List.mem_map.mp hid
    rw [List.mem_singleton.mp hid']
    exact hne e' he'

/-- The job that the function in hand is executing. -/
theorem Sound.heldJob {w : World} {e : Execution} (h : Sound (held w e)) :
    ∃ job, w.jobs[e.jobId]? = some job ∧ job.status = .running ∧ job.tenantId = e.tenantId ∧
      job.dryRun = e.dryRun ∧ Cleared job e.actor :=
  h.running e (List.mem_append_right _ (List.mem_singleton_self e))

/-- The same execution at another step. -/
theorem Sound.again {w : World} {e e' : Execution} (h : Sound (held w e))
    (hid : e'.jobId = e.jobId) (hactor : e'.actor = e.actor) (htenant : e'.tenantId = e.tenantId)
    (hdry : e'.dryRun = e.dryRun) : Sound (held w e') := by
  obtain ⟨job, hrow, hrunning, hjob, hjobDry, hcleared⟩ := h.heldJob
  refine h.drop.hold (?_ : w.jobs[e'.jobId]? = some job) hrunning ?_ ?_ ?_ ?_
  · rw [hid]
    exact hrow
  · rw [htenant]
    exact hjob
  · rw [hdry]
    exact hjobDry
  · rw [hactor]
    exact hcleared
  · rw [hid]
    exact h.ne_of_held

theorem Sound.fail {w : World} {e : Execution} (h : Sound (held w e)) (message : String) :
    Sound (failExecution w e message) := by
  have hjob := h.drop.updateJob
    (fun j => { j with status := .failed, errorText := some message, results := e.stepResults })
    h.ne_of_held fun _ => rfl
  exact (hjob.setTenantStatus e.tenantId .error).record _

theorem Sound.complete {w : World} {e : Execution} (h : Sound (held w e)) :
    Sound (completeExecution w e) := by
  have hjob := h.drop.updateJob
    (fun j => { j with status := .completed, errorText := none, results := e.stepResults })
    h.ne_of_held fun _ => rfl
  exact (hjob.setTenantStatus e.tenantId (completedTenantStatus e)).record _

theorem Sound.await {w : World} {e : Execution} (h : Sound (held w e)) :
    Sound (awaitStep w e) := by
  have hrecorded : Sound (held (w.record (.stepRunning e.jobId e.actor e.step.key e.step.title)) e) :=
    ⟨h.running, h.single, h.tenants⟩
  unfold awaitStep
  dsimp only
  split
  · exact hrecorded.fail _
  · exact hrecorded

/-- The row of a job that an execution has begun. -/
def begun (env : Environment) (job : ProvisionJob) : ProvisionJob :=
  { job with status := .running, runnerHost := some ((truthy env.hostname).getD "unknown") }

theorem Sound.begin {env : Environment} {w : World} {e : Execution} {job : ProvisionJob}
    {tenant : Tenant} (h : Sound w) (hstart : Startable w e job tenant) :
    Sound (held (beginExecution env w e) e) := by
  have hne := h.idle hstart.row hstart.idle
  have hjob := h.updateJob (begun env) hne fun _ => rfl
  have hbegun : Sound (beginExecution env w e) := (hjob.setTenantStatus _ _).record _
  have hrow : (beginExecution env w e).jobs[e.jobId]? = some (begun env job) := by
    show (w.jobs.modify e.jobId (begun env))[e.jobId]? = some _
    rw [List.getElem?_modify_eq, hstart.row]
    rfl
  exact hbegun.hold hrow rfl hstart.tenantId hstart.dryRun hstart.cleared hne

theorem Sound.release {w : World} {i : Nat} {e : Execution} (h : Sound w)
    (hrow : w.executions[i]? = some e) :
    Sound (held { w with executions := w.executions.eraseIdx i } e) := by
  obtain ⟨pre, post, hsplit, herase, -⟩ := split_at_index hrow
  have hperm : List.Perm (w.executions.eraseIdx i ++ [e]) w.executions := by
    rw [herase, hsplit, List.append_assoc]
    exact List.perm_append_left_iff pre |>.mpr (List.perm_append_comm)
  refine ⟨?_, ?_, h.tenants⟩
  · intro e' he'
    exact h.running e' (hperm.mem_iff.mp he')
  · exact (hperm.map Execution.jobId).nodup_iff.mpr h.single

theorem Sound.resume {w : World} {e : Execution} (h : Sound (held w e)) (outcome : StepOutcome) :
    Sound (resumeExecution w e outcome) := by
  cases outcome with
  | threw message => exact h.fail message
  | result code skipped stdout stderr =>
    unfold resumeExecution
    dsimp only
    split
    · refine Sound.complete (Sound.again (e := e) ?_ rfl rfl rfl rfl)
      exact ⟨h.running, h.single, h.tenants⟩
    · refine Sound.await (Sound.again (e := e) ?_ rfl rfl rfl rfl)
      exact ⟨h.running, h.single, h.tenants⟩

theorem sound_step {env : Environment} {w w' : World} {ev : Event} (h : Sound w)
    (hstep : step env w ev = some w') : Sound w' := by
  cases step_stepped hstep with
  | refused => exact h
  | @queued added job logged pending status approver tenant =>
    refine ⟨?_, h.single, ?_⟩
    · intro e he
      obtain ⟨old, hrow, hrest⟩ := h.running e he
      refine ⟨old, ?_, hrest⟩
      show (w.jobs ++ [job])[e.jobId]? = some old
      rw [List.getElem?_append_left (List.getElem?_eq_some_iff.mp hrow).1]
      exact hrow
    · intro j hj
      rcases List.mem_append.mp hj with hj | hj
      · have hlt := h.tenants j hj
        show j.tenantId < (w.tenants ++ added).length
        rw [List.length_append]
        omega
      · rw [List.mem_singleton.mp hj]
        exact tenant
  | approved row idle =>
    refine Sound.record (h.updateJob _ (h.idle row idle) ?_) _
    intro job
    rfl
  | withdrawn row idle change =>
    refine Sound.record (h.updateJob _ (h.idle row idle) ?_) _
    intro job
    rfl
  | @started e job tenant artifacts start =>
    have hwritten : Sound { w with artifacts := artifacts } := ⟨h.running, h.single, h.tenants⟩
    exact (hwritten.begin (start.written artifacts)).await
  | resumed event row => exact (h.release row).resume _

end MissionControl.Provisioning.JobSteps
