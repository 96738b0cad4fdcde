import MissionControl.Provisioning.JobSteps

/-!
The tenant status that executions write. An execution writes it with the row of its own job,
so only the status itself decides whether somebody is still at work on the tenant.
-/

set_option autoImplicit false
set_option relaxedAutoImplicit false

namespace MissionControl.Provisioning.TenantStatus

open MissionControl.Foundations.Transition (Machine)
open Plans Jobs JobSteps

/-- The statuses that say somebody is at work on the tenant. -/
def Busy (status : TenantStatus) : Prop := status = .provisioning ∨ status = .decommissioning

/-- A busy tenant has a running job. -/
def Attended (w : World) : Prop :=
  ∀ i tenant, w.tenants[i]? = some tenant → Busy tenant.status →
    ∃ (id : Nat) (job : ProvisionJob), w.jobs[id]? = some job ∧ job.tenantId = i ∧
      job.status = .running

theorem attended_empty : Attended World.empty := by
  intro i tenant hrow
  cases hrow

/-- An execution writes its job and its tenant together, and leaves other tenants attended. -/
theorem Attended.settle {w : World} (h : Attended w) {id tenantId : Nat} {job : ProvisionJob}
    (hrow : w.jobs[id]? = some job) (htenant : job.tenantId = tenantId)
    (f : ProvisionJob → ProvisionJob) (status : TenantStatus)
    (hbusy : Busy status → ∃ (k : Nat) (j : ProvisionJob), (w.jobs.modify id f)[k]? = some j ∧
      j.tenantId = tenantId ∧ j.status = .running) :
    Attended ((w.updateJob id f).setTenantStatus tenantId status) := by
  intro i tenant hi hstatus
  have hi : (w.tenants.modify tenantId fun t => { t with status := status })[i]? = some tenant := hi
  by_cases heq : tenantId = i
  · subst heq
    rw [List.getElem?_modify_eq] at hi
    obtain ⟨old, -, rfl⟩ := Option.map_eq_some_iff.mp hi
    exact hbusy hstatus
  · rw [List.getElem?_modify_ne _ _ heq] at hi
    obtain ⟨k, j, hk, hj, hrunning⟩ := h i tenant hi hstatus
    refine ⟨k, j, ?_, hj, hrunning⟩
    have hne : id ≠ k := by
      rintro rfl
      rw [hrow] at hk
      obtain rfl := Option.some.inj hk
      exact heq (htenant.symm.trans hj)
    show (w.jobs.modify id f)[k]? = some j
    rw [List.getElem?_modify_ne _ _ hne]
    exact hk

theorem Attended.fail {w : World} {e : Execution} (hsound : Sound (held w e)) (h : Attended w)
    (message : String) : Attended (failExecution w e message) := by
  obtain ⟨job, hrow, -, htenant, -⟩ := hsound.heldJob
  refine Attended.settle h hrow htenant _ .error ?_
  rintro (hbusy | hbusy)
  · cases hbusy
  · cases hbusy

theorem Attended.await {w : World} {e : Execution} (hsound : Sound (held w e)) (h : Attended w) :
    Attended (awaitStep w e) := by
  unfold awaitStep
  dsimp only
  split
  · refine Attended.fail ?_ h _
    exact ⟨hsound.running, hsound.single, hsound.tenants⟩
  · exact h

theorem Attended.begin {env : Environment} {w : World} {e : Execution} {job : ProvisionJob}
    {tenant : Tenant} (h : Attended w) (hstart : Startable w e job tenant) :
    Attended (beginExecution env w e) := by
  refine Attended.settle h hstart.row hstart.tenantId (begun env) _ fun _ => ?_
  refine ⟨e.jobId, begun env job, ?_, hstart.tenantId, rfl⟩
  rw [List.getElem?_modify_eq, hstart.row]
  rfl

/-! ### Completion -/

/-- Another running job of the tenant of `e`. -/
def Relieved (w : World) (e : Execution) : Prop :=
  ∃ (k : Nat) (j : ProvisionJob), k ≠ e.jobId ∧ w.jobs[k]? = some j ∧ j.tenantId = e.tenantId ∧
    j.status = .running

/-- What a completed execution writes is busy only when a dry run writes it back. -/
theorem busy_completed {e : Execution} : Busy (completedTenantStatus e) ↔
    e.jobType = .decommission ∧ e.dryRun = true ∧ Busy e.previousTenantStatus := by
  constructor
  · intro hbusy
    unfold completedTenantStatus at hbusy
    split at hbusy
    · rename_i htype
      split at hbusy
      · rename_i hdry
        exact ⟨htype, hdry, hbusy⟩
      · rcases hbusy with hbusy | hbusy <;> cases hbusy
    · rcases hbusy with hbusy | hbusy <;> cases hbusy
  · rintro ⟨htype, hdry, hprevious⟩
    unfold completedTenantStatus
    rw [if_pos htype, if_pos hdry]
    exact hprevious

theorem Attended.complete {w : World} {e : Execution} (hsound : Sound (held w e))
    (h : Attended w) (hrelieved : Busy (completedTenantStatus e) → Relieved w e) :
    Attended (completeExecution w e) := by
  obtain ⟨job, hrow, -, htenant, -⟩ := hsound.heldJob
  refine Attended.settle h hrow htenant _ (completedTenantStatus e) ?_
  intro hbusy
  obtain ⟨k, j, hk, hj, htenant, hrunning⟩ := hrelieved hbusy
  refine ⟨k, j, ?_, htenant, hrunning⟩
  rw [List.getElem?_modify_ne _ _ hk.symm]
  exact hj

/-- The completed execution leaves its tenant busy with nobody at work on it. -/
theorem stranded_of_complete {w : World} {e : Execution} (hsound : Sound (held w e))
    (hbusy : Busy (completedTenantStatus e)) (halone : ¬ Relieved w e) :
    ¬ Attended (completeExecution w e) := by
  intro hattended
  obtain ⟨job, hrow, -, htenant, -⟩ := hsound.heldJob
  have hlt : e.tenantId < w.tenants.length := by
    rw [← htenant]
    exact hsound.tenants job (List.mem_of_getElem? hrow)
  have hwritten : (completeExecution w e).tenants[e.tenantId]? =
      some { w.tenants[e.tenantId] with status := completedTenantStatus e } := by
    show (w.tenants.modify e.tenantId _)[e.tenantId]? = _
    rw [List.getElem?_modify_eq, List.getElem?_eq_getElem hlt]
    rfl
  obtain ⟨k, j, hk, hj, hrunning⟩ := hattended e.tenantId _ hwritten hbusy
  have hk : (w.jobs.modify e.jobId _)[k]? = some j := hk
  by_cases hsame : e.jobId = k
  · subst hsame
    rw [List.getElem?_modify_eq] at hk
    obtain ⟨old, -, rfl⟩ := Option.map_eq_some_iff.mp hk
    cases hrunning
  · rw [List.getElem?_modify_ne _ _ hsame] at hk
    exact halone ⟨k, j, Ne.symm hsame, hk, hj, hrunning⟩

/-! ### Runs -/

/-- The last step of a dry-run decommission returns, the tenant was busy when that run began,
and no other job of the tenant is running. -/
def Strands (env : Environment) (w : World) (ev : Event) : Prop :=
  ∃ i external e, ev = .resume i external ∧ w.executions[i]? = some e ∧ e.rest = [] ∧
    (∀ message, runProvisionStep env e.step e.dryRun external ≠ .threw message) ∧
    e.jobType = .decommission ∧ e.dryRun = true ∧ Busy e.previousTenantStatus ∧ ¬ Relieved w e

theorem Attended.resume {w : World} {e : Execution} {outcome : StepOutcome}
    (hsound : Sound (held w e)) (h : Attended w)
    (hrelieved : e.rest = [] → (∀ message, outcome ≠ .threw message) →
      Busy (completedTenantStatus e) → Relieved w e) :
    Attended (resumeExecution w e outcome) := by
  cases outcome with
  | threw message => exact h.fail hsound message
  | result code skipped stdout stderr =>
    unfold resumeExecution
    dsimp only
    split
    · rename_i hrest
      refine Attended.complete (Sound.again (e := e) ?_ rfl rfl rfl rfl) h ?_
      · exact ⟨hsound.running, hsound.single, hsound.tenants⟩
      · exact hrelieved hrest fun message hthrew => by cases hthrew
    · refine Attended.await (Sound.again (e := e) ?_ rfl rfl rfl rfl) h
      exact ⟨hsound.running, hsound.single, hsound.tenants⟩

/-- Approving, rejecting and cancelling touch jobs that are not running. -/
private theorem attended_transition {w : World} {id : Nat} {job : ProvisionJob}
    {f : ProvisionJob → ProvisionJob} {r : Record} (h : Attended w) (hrow : w.jobs[id]? = some job)
    (hidle : job.status ≠ .running) : Attended ((w.updateJob id f).record r) := by
  intro i tenant hi hbusy
  obtain ⟨k, j, hk, hj, hrunning⟩ := h i tenant hi hbusy
  refine ⟨k, j, ?_, hj, hrunning⟩
  have hne : id ≠ k := by
    rintro rfl
    rw [hrow] at hk
    obtain rfl := Option.some.inj hk
    exact hidle hrunning
  show (w.jobs.modify id f)[k]? = some j
  rw [List.getElem?_modify_ne _ _ hne]
  exact hk

theorem attended_step {env : Environment} {w w' : World} {ev : Event} (hsound : Sound w)
    (h : Attended w) (hkept : ¬ Strands env w ev) (hstep : step env w ev = some w') :
    Attended w' := by
  cases step_stepped hstep with
  | refused => exact h
  | @queued added job logged pending status approver tenant =>
    intro i t ht hbusy
    have ht : (w.tenants ++ added)[i]? = some t := ht
    rcases Nat.lt_or_ge i w.tenants.length with hi | hi
    · rw [List.getElem?_append_left hi] at ht
      obtain ⟨id, j, hj, hrest⟩ := h i t ht hbusy
      refine ⟨id, j, ?_, hrest⟩
      show (w.jobs ++ [job])[id]? = some j
      rw [List.getElem?_append_left (List.getElem?_eq_some_iff.mp hj).1]
      exact hj
    · rw [List.getElem?_append_right hi] at ht
      have hpending := pending t (List.mem_of_getElem? ht)
      rw [hpending] at hbusy
      rcases hbusy with hbusy | hbusy <;> cases hbusy
  | approved row idle => exact attended_transition h row idle
  | withdrawn row idle change => exact attended_transition h row idle
  | @started e job tenant artifacts start =>
    have hwritten : Sound { w with artifacts := artifacts } :=
      ⟨hsound.running, hsound.single, hsound.tenants⟩
    have hattended : Attended { w with artifacts := artifacts } := h
    have hstart := start.written artifacts
    exact (hattended.begin hstart).await (hwritten.begin hstart)
  | @resumed i external e event row =>
    refine Attended.resume (hsound.release row) h ?_
    intro hrest hreturned hbusy
    by_contra halone
    obtain ⟨htype, hdry, hprevious⟩ := busy_completed.mp hbusy
    exact hkept ⟨i, external, e, event, row, hrest, hreturned, htype, hdry, hprevious, halone⟩

theorem stranded_step {env : Environment} {w : World} {ev : Event} (hsound : Sound w)
    (hstrands : Strands env w ev) : ∃ w', step env w ev = some w' ∧ ¬ Attended w' := by
  obtain ⟨i, external, e, rfl, hrow, hrest, hreturned, htype, hdry, hprevious, halone⟩ := hstrands
  have hstep : step env w (.resume i external) =
      some (resumeExecution { w with executions := w.executions.eraseIdx i } e
        (runProvisionStep env e.step e.dryRun external)) := by
    show (w.executions[i]?).map _ = _
    rw [hrow]
    rfl
  refine ⟨_, hstep, ?_⟩
  have hheld := hsound.release hrow
  cases hout : runProvisionStep env e.step e.dryRun external with
  | threw message => exact absurd hout (hreturned message)
  | result code skipped stdout stderr =>
    have hlast : (e.noteResult code skipped stdout stderr).rest = [] := hrest
    unfold resumeExecution
    dsimp only
    rw [hlast]
    refine stranded_of_complete (Sound.again (e := e) ?_ rfl rfl rfl rfl) ?_ halone
    · exact ⟨hheld.running, hheld.single, hheld.tenants⟩
    · exact busy_completed.mpr ⟨htype, hdry, hprevious⟩

/-- No tenant is left busy without a running job in a run exactly when no dry-run decommission
of the run ends with a busy status to write back and nobody else at work on the tenant. -/
theorem attended_iff_never_strands (env : Environment) (trace : List Event) :
    (machine env).Always Attended World.empty trace ↔
      (machine env).Meets (fun w ev => ¬ Strands env w ev) World.empty trace := by
  have hkept : ∀ w ev w', Sound w ∧ Attended w → ¬ Strands env w ev →
      (machine env).step w ev = some w' → Sound w' ∧ Attended w' := by
    intro w ev w' hinv hguard hstep
    exact ⟨sound_step hinv.1 hstep, attended_step hinv.1 hinv.2 hguard hstep⟩
  have hbroken : ∀ w ev, Sound w ∧ Attended w → ¬ ¬ Strands env w ev →
      ∃ w', (machine env).step w ev = some w' ∧ ¬ Attended w' := by
    intro w ev hinv hstrands
    exact stranded_step hinv.1 (not_not.mp hstrands)
  exact Machine.always_iff_meets (fun _ hinv => hinv.2) hkept hbroken
    ⟨sound_empty, attended_empty⟩ trace

def sampleOverlap : List Event :=
  [.createTenant { sampleBootstrapRequest with dryRun := some false } "ana",
    .createDecommission 0 none ⟨false, false⟩ "ana",
    .transition 0 "ben" .approve "", .transition 1 "ben" .approve "",
    .execute 0 "cleo" none, .execute 1 "cleo" none, .resume 0 (.result 0 false "" "")] ++
  List.replicate 9 (.resume 1 (.result 0 false "" "")) ++
  List.replicate 2 (.resume 0 (.result 0 true "" ""))

/-- A dry-run decommission begins while the tenant is being provisioned and ends after that. -/
theorem tenant_stranded_sample : ∃ w,
    (machine sampleEnvironment).run World.empty sampleOverlap = some w ∧
      w.tenants.map Tenant.status = [.provisioning] ∧
      w.jobs.map ProvisionJob.status = [.completed, .completed] ∧ ¬ Attended w := by
  have hran : ((machine sampleEnvironment).run World.empty sampleOverlap).any (fun w =>
      w.tenants.map Tenant.status = [.provisioning] &&
        w.jobs.map ProvisionJob.status = [.completed, .completed]) = true := by
    decide +kernel
  obtain ⟨w, hrun, hw⟩ := (Option.any_eq_true ..).mp hran
  obtain ⟨htenants, hjobs⟩ := (Bool.and_eq_true _ _).mp hw
  have htenants := of_decide_eq_true htenants
  have hjobs := of_decide_eq_true hjobs
  refine ⟨w, hrun, htenants, hjobs, ?_⟩
  intro hattended
  obtain ⟨tenant, hrow, hstatus⟩ : ∃ tenant, w.tenants[0]? = some tenant ∧
      tenant.status = .provisioning := by
    have hhead : (w.tenants.map Tenant.status)[0]? = some .provisioning := by rw [htenants]; rfl
    rw [List.getElem?_map] at hhead
    exact Option.map_eq_some_iff.mp hhead
  obtain ⟨k, job, hk, -, hrunning⟩ := hattended 0 tenant hrow (.inl hstatus)
  have hmem : job.status ∈ w.jobs.map ProvisionJob.status :=
    List.mem_map_of_mem (List.mem_of_getElem? hk)
  rw [hjobs, hrunning] at hmem
  revert hmem
  decide

end MissionControl.Provisioning.TenantStatus
