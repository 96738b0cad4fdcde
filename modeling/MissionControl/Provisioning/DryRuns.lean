import MissionControl.Provisioning.JobSteps

/-!
Dry runs of a decommission. The tenant's status is written when such a run begins, when it ends and
when a step throws; the first two write what was there before, the last does not look.
-/

set_option autoImplicit false
set_option relaxedAutoImplicit false

namespace MissionControl.Provisioning.DryRuns

open MissionControl.Foundations.JsText (toLowerCase truthy)
open MissionControl.Foundations.Lists (split_at_index)
open MissionControl.Foundations.Transition (Machine)
open Plans Jobs JobSteps

def statusOf (w : World) (tenantId : Nat) : Option TenantStatus :=
  w.tenants[tenantId]?.map Tenant.status

/-- The executions of the tenant that are in progress. -/
def executionsOf (w : World) (tenantId : Nat) : List Execution :=
  w.executions.filter fun e => e.tenantId = tenantId

/-- The event does not begin an execution for the tenant. -/
def Undisturbed (env : Environment) (tenantId : Nat) (w : World) (ev : Event) : Prop :=
  ∀ id actor fsError w', ev = .execute id actor fsError →
    executeProvisionJob env w id actor fsError = .ok w' →
      ∀ job, w.jobs[id]? = some job → job.tenantId ≠ tenantId

/-- The step has a command, and the daemon does not fail if the step is its business. -/
def Answered (env : Environment) (step : ProvisionStep) (external : StepOutcome) : Prop :=
  step.command.head?.getD "" ≠ "" ∧
    (step.requiresRoot → toLowerCase ((truthy env.provisionMode).getD "daemon") = "daemon" →
      ∀ message, external ≠ .threw message)

/-- The event is not a step for the tenant that throws. -/
def Returns (env : Environment) (tenantId : Nat) (w : World) (ev : Event) : Prop :=
  ∀ i external e, ev = .resume i external → w.executions[i]? = some e → e.tenantId = tenantId →
    Answered env e.step external

variable {env : Environment} {w w' : World} {tenantId : Nat} {status : TenantStatus}

/-! ### What the writes leave of a tenant -/

section

variable (w)

@[simp]
theorem statusOf_record (r : Record) : statusOf (w.record r) tenantId = statusOf w tenantId := rfl

@[simp]
theorem statusOf_updateJob (id : Nat) (f : ProvisionJob → ProvisionJob) :
    statusOf (w.updateJob id f) tenantId = statusOf w tenantId := rfl

@[simp]
theorem executionsOf_record (r : Record) :
    executionsOf (w.record r) tenantId = executionsOf w tenantId := rfl

@[simp]
theorem executionsOf_updateJob (id : Nat) (f : ProvisionJob → ProvisionJob) :
    executionsOf (w.updateJob id f) tenantId = executionsOf w tenantId := rfl

@[simp]
theorem executionsOf_setTenantStatus (id : Nat) (status : TenantStatus) :
    executionsOf (w.setTenantStatus id status) tenantId = executionsOf w tenantId := rfl

theorem statusOf_setTenantStatus_self (status : TenantStatus) :
    statusOf (w.setTenantStatus tenantId status) tenantId =
      (statusOf w tenantId).map fun _ => status := by
  unfold statusOf World.setTenantStatus
  dsimp only
  rw [List.getElem?_modify_eq]
  cases w.tenants[tenantId]? <;> rfl

theorem statusOf_setTenantStatus_ne {id : Nat} (hne : id ≠ tenantId) (status : TenantStatus) :
    statusOf (w.setTenantStatus id status) tenantId = statusOf w tenantId := by
  unfold statusOf World.setTenantStatus
  dsimp only
  rw [List.getElem?_modify_ne _ _ hne]

end

/-- The step has nothing to do with the tenant. -/
structure Apart (w w' : World) (tenantId : Nat) : Prop where
  executions : executionsOf w' tenantId = executionsOf w tenantId
  status : ∀ status, statusOf w tenantId = some status → statusOf w' tenantId = some status

theorem Apart.refl (w : World) (tenantId : Nat) : Apart w w tenantId := ⟨rfl, fun _ h => h⟩

theorem Apart.trans {w'' : World} (h : Apart w w' tenantId) (h' : Apart w' w'' tenantId) :
    Apart w w'' tenantId :=
  ⟨h'.executions.trans h.executions, fun status hstatus => h'.status status (h.status status hstatus)⟩

theorem apart_record (w : World) (r : Record) : Apart w (w.record r) tenantId :=
  ⟨rfl, fun _ h => h⟩

section

variable {e : Execution}

theorem apart_failExecution (hne : e.tenantId ≠ tenantId) (message : String) :
    Apart w (failExecution w e message) tenantId := by
  refine ⟨by simp [failExecution], fun status hstatus => ?_⟩
  rw [failExecution, statusOf_record, statusOf_setTenantStatus_ne _ hne, statusOf_updateJob]
  exact hstatus

theorem apart_completeExecution (hne : e.tenantId ≠ tenantId) :
    Apart w (completeExecution w e) tenantId := by
  refine ⟨by simp [completeExecution], fun status hstatus => ?_⟩
  rw [completeExecution, statusOf_record, statusOf_setTenantStatus_ne _ hne, statusOf_updateJob]
  exact hstatus

theorem apart_awaitStep (hne : e.tenantId ≠ tenantId) : Apart w (awaitStep w e) tenantId := by
  unfold awaitStep
  dsimp only
  split
  · exact (apart_record w _).trans (apart_failExecution hne _)
  · refine ⟨?_, fun status hstatus => hstatus⟩
    simp [executionsOf, World.record, hne]

theorem apart_beginExecution (hne : e.tenantId ≠ tenantId) (artifacts : List (String × String)) :
    Apart w (beginExecution env { w with artifacts := artifacts } e) tenantId := by
  refine ⟨by simp [beginExecution]; rfl, fun status hstatus => ?_⟩
  rw [beginExecution, statusOf_record, statusOf_setTenantStatus_ne _ hne, statusOf_updateJob]
  exact hstatus

theorem apart_resumeExecution (hne : e.tenantId ≠ tenantId) (outcome : StepOutcome) :
    Apart w (resumeExecution w e outcome) tenantId := by
  cases outcome with
  | threw message => exact apart_failExecution hne message
  | result code skipped stdout stderr =>
    unfold resumeExecution
    dsimp only
    split
    · refine (apart_record w _).trans (apart_completeExecution ?_)
      exact hne
    · refine (apart_record w _).trans (apart_awaitStep ?_)
      exact hne

end

theorem apart_insertJob (added : List Tenant) (job : ProvisionJob) (logged : Bool) :
    Apart w (insertJob { w with tenants := w.tenants ++ added } job logged) tenantId := by
  refine ⟨rfl, fun status hstatus => ?_⟩
  obtain ⟨tenant, hrow, hstatus⟩ := Option.map_eq_some_iff.mp hstatus
  have hlt := (List.getElem?_eq_some_iff.mp hrow).1
  show ((w.tenants ++ added)[tenantId]?).map Tenant.status = some status
  rw [List.getElem?_append_left hlt, hrow, ← hstatus]
  rfl

/-- Only executions write the status of a tenant. -/
theorem apart_of_request {ev : Event} (hexecute : ∀ id actor fsError, ev ≠ .execute id actor fsError)
    (hresume : ∀ i external, ev ≠ .resume i external) (h : step env w ev = some w') :
    Apart w w' tenantId := by
  cases ev with
  | execute id actor fsError => exact absurd rfl (hexecute id actor fsError)
  | resume i external => exact absurd rfl (hresume i external)
  | createTenant request actor =>
    obtain rfl := Option.some.inj h
    unfold createTenantAndBootstrapJob
    cases validateBootstrap env request with
    | error e => exact Apart.refl w tenantId
    | ok draft =>
      dsimp only
      split
      · exact Apart.refl w tenantId
      · exact apart_insertJob _ _ _
  | createDecommission id dryRun options actor =>
    obtain rfl := Option.some.inj h
    unfold createTenantDecommissionJob
    cases w.tenants[id]? with
    | none => exact Apart.refl w tenantId
    | some tenant => exact ⟨rfl, fun _ hstatus => hstatus⟩
  | queueJob id jobType dryRun request plan actor =>
    obtain rfl := Option.some.inj h
    unfold queueJob
    split
    · exact Apart.refl w tenantId
    · exact ⟨rfl, fun _ hstatus => hstatus⟩
  | transition id actor action reason =>
    obtain rfl := Option.some.inj h
    unfold transitionProvisionJobStatus
    cases w.jobs[id]? with
    | none => exact Apart.refl w tenantId
    | some job =>
      dsimp only
      split
      · exact Apart.refl w tenantId
      · cases action <;> dsimp only <;> split <;> exact ⟨rfl, fun _ hstatus => hstatus⟩

/-! ### One execution -/

/-- A step of a dry run runs nothing of its own. -/
theorem answered_of_result {step : ProvisionStep} {external : StepOutcome} {code : Int}
    {skipped : Bool} {stdout stderr : String}
    (h : runProvisionStep env step true external = .result code skipped stdout stderr) :
    Answered env step external := by
  unfold runProvisionStep at h
  dsimp only at h
  split at h
  · cases h
  · rename_i hcommand
    refine ⟨hcommand, fun hroot hmode message => ?_⟩
    rw [if_pos ⟨hroot, hmode⟩] at h
    simp [h]

theorem not_answered_of_threw {step : ProvisionStep} {external : StepOutcome} {message : String}
    (h : runProvisionStep env step true external = .threw message) :
    ¬ Answered env step external := by
  rintro ⟨hcommand, hdaemon⟩
  unfold runProvisionStep at h
  dsimp only at h
  rw [if_neg hcommand] at h
  split at h
  · rename_i hroot
    exact hdaemon hroot.1 hroot.2 message h
  · cases h

/-- No execution of the tenant is in progress. -/
structure Idle (w : World) (tenantId : Nat) (status : TenantStatus) : Prop where
  none : executionsOf w tenantId = []
  status : statusOf w tenantId = some status

/-- A dry run of a decommission is the only execution of the tenant, which has the status from
before. -/
structure DryRunning (w : World) (tenantId : Nat) (status : TenantStatus) (e : Execution) : Prop where
  only : executionsOf w tenantId = [e]
  jobType : e.jobType = .decommission
  dryRun : e.dryRun = true
  previous : e.previousTenantStatus = status
  status : statusOf w tenantId = some status

theorem Idle.apart (h : Idle w tenantId status) (hapart : Apart w w' tenantId) :
    Idle w' tenantId status :=
  ⟨hapart.executions.trans h.none, hapart.status status h.status⟩

theorem DryRunning.apart {e : Execution} (h : DryRunning w tenantId status e)
    (hapart : Apart w w' tenantId) : DryRunning w' tenantId status e :=
  ⟨hapart.executions.trans h.only, h.jobType, h.dryRun, h.previous, hapart.status status h.status⟩

/-- The execution of a job of another tenant. -/
theorem apart_execute {id : Nat} {actor : String} {fsError : Option String}
    (hquiet : Undisturbed env tenantId w (.execute id actor fsError))
    (h : step env w (.execute id actor fsError) = some w') : Apart w w' tenantId := by
  obtain rfl := Option.some.inj h
  cases hbegun : executeProvisionJob env w id actor fsError with
  | error message => exact Apart.refl w tenantId
  | ok w' =>
    obtain ⟨e, job, tenant, artifacts, rfl, hstart, rfl⟩ := executeProvisionJob_ok hbegun
    have hne : e.tenantId ≠ tenantId := by
      rw [← hstart.tenantId]
      exact hquiet _ _ _ _ rfl hbegun job hstart.row
    exact (apart_beginExecution hne artifacts).trans (apart_awaitStep hne)

theorem executionsOf_eraseIdx_ne {i : Nat} {e : Execution} (hrow : w.executions[i]? = some e)
    (hne : e.tenantId ≠ tenantId) : (w.executions.eraseIdx i).filter (fun e => e.tenantId = tenantId) =
      executionsOf w tenantId := by
  obtain ⟨pre, post, hsplit, herase, -⟩ := split_at_index hrow
  rw [herase]
  simp [executionsOf, hsplit, hne]

/-- The only execution of the tenant is taken off the list. -/
theorem executionsOf_eraseIdx_self {i : Nat} {e : Execution} (hrow : w.executions[i]? = some e)
    (htenant : e.tenantId = tenantId) (hlength : (executionsOf w tenantId).length ≤ 1) :
    executionsOf w tenantId = [e] ∧
      (w.executions.eraseIdx i).filter (fun e => e.tenantId = tenantId) = [] := by
  obtain ⟨pre, post, hsplit, herase, -⟩ := split_at_index hrow
  have hfilter : executionsOf w tenantId = pre.filter (fun e => e.tenantId = tenantId) ++
      e :: post.filter (fun e => e.tenantId = tenantId) := by
    simp [executionsOf, hsplit, htenant]
  rw [hfilter] at hlength ⊢
  simp only [List.length_append, List.length_cons] at hlength
  have hpre : pre.filter (fun e => e.tenantId = tenantId) = [] :=
    List.eq_nil_of_length_eq_zero (by omega)
  have hpost : post.filter (fun e => e.tenantId = tenantId) = [] :=
    List.eq_nil_of_length_eq_zero (by omega)
  rw [herase, List.filter_append, hpre, hpost]
  exact ⟨rfl, rfl⟩

theorem apart_resume_other {i : Nat} {external : StepOutcome} {e : Execution}
    (hrow : w.executions[i]? = some e) (hne : e.tenantId ≠ tenantId) :
    Apart w (resumeExecution { w with executions := w.executions.eraseIdx i } e
      (runProvisionStep env e.step e.dryRun external)) tenantId := by
  have herased : Apart w { w with executions := w.executions.eraseIdx i } tenantId :=
    ⟨executionsOf_eraseIdx_ne hrow hne, fun _ h => h⟩
  exact herased.trans (apart_resumeExecution hne _)

/-- A tenant with no execution of its own is left alone. -/
theorem Idle.step {ev : Event} (h : Idle w tenantId status) (hquiet : Undisturbed env tenantId w ev)
    (hstep : step env w ev = some w') : Idle w' tenantId status ∧ Returns env tenantId w ev := by
  have hnone : ∀ (i : Nat) (e : Execution), w.executions[i]? = some e → e.tenantId ≠ tenantId := by
    intro i e hrow htenant
    have hmem : e ∈ executionsOf w tenantId :=
      List.mem_filter.mpr ⟨List.mem_of_getElem? hrow, decide_eq_true htenant⟩
    rw [h.none] at hmem
    cases hmem
  constructor
  · by_cases hresume : ∃ i external, ev = .resume i external
    · obtain ⟨i, external, rfl⟩ := hresume
      obtain ⟨e, hrow, rfl⟩ := Option.map_eq_some_iff.mp hstep
      exact h.apart (apart_resume_other hrow (hnone i e hrow))
    · by_cases hexecute : ∃ id actor fsError, ev = .execute id actor fsError
      · obtain ⟨id, actor, fsError, rfl⟩ := hexecute
        exact h.apart (apart_execute hquiet hstep)
      · push Not at hresume hexecute
        exact h.apart (apart_of_request hexecute hresume hstep)
  · intro i external e _ hrow htenant
    exact absurd htenant (hnone i e hrow)

section

variable {e : Execution}

/-- A step that throws. -/
theorem DryRunning.threw (h : DryRunning w tenantId status e) (htenant : e.tenantId = tenantId)
    {i : Nat} (hrow : w.executions[i]? = some e) (message : String) :
    Idle (failExecution { w with executions := w.executions.eraseIdx i } e message) tenantId
      .error := by
  have hlength : (executionsOf w tenantId).length ≤ 1 := by simp [h.only]
  obtain ⟨-, hrest⟩ := executionsOf_eraseIdx_self hrow htenant hlength
  refine ⟨hrest, ?_⟩
  subst htenant
  have hkept : statusOf { w with executions := w.executions.eraseIdx i } e.tenantId = some status :=
    h.status
  rw [failExecution, statusOf_record, statusOf_setTenantStatus_self, statusOf_updateJob, hkept]
  rfl

/-- A step that returns. -/
theorem DryRunning.returned (h : DryRunning w tenantId status e) (htenant : e.tenantId = tenantId)
    {i : Nat} (hrow : w.executions[i]? = some e) (code : Int) (skipped : Bool)
    (stdout stderr : String) :
    let w' := resumeExecution { w with executions := w.executions.eraseIdx i } e
      (.result code skipped stdout stderr)
    Idle w' tenantId status ∨ ∃ e', DryRunning w' tenantId status e' := by
  have hlength : (executionsOf w tenantId).length ≤ 1 := by simp [h.only]
  obtain ⟨-, hrest⟩ := executionsOf_eraseIdx_self hrow htenant hlength
  subst htenant
  unfold resumeExecution
  dsimp only
  split
  · left
    refine ⟨hrest, ?_⟩
    have hcompleted : completedTenantStatus (e.noteResult code skipped stdout stderr) = status := by
      simp [completedTenantStatus, Execution.noteResult, h.jobType, h.dryRun, h.previous]
    have hkept : statusOf { w with executions := w.executions.eraseIdx i } e.tenantId =
        some status := h.status
    rw [completeExecution, hcompleted]
    show statusOf (World.setTenantStatus _ e.tenantId status) e.tenantId = some status
    rw [statusOf_setTenantStatus_self, statusOf_updateJob, statusOf_record, hkept]
    rfl
  · right
    rename_i next rest hplan
    refine ⟨{ e.noteResult code skipped stdout stderr with step := next, rest := rest }, ?_⟩
    have hdry : (e.noteResult code skipped stdout stderr).dryRun = true := h.dryRun
    unfold awaitStep
    dsimp only
    rw [if_neg (by simp [hdry])]
    refine ⟨?_, h.jobType, h.dryRun, h.previous, h.status⟩
    show List.filter _ (w.executions.eraseIdx i ++ [_]) = [_]
    rw [List.filter_append, hrest]
    simp [Execution.noteResult]

theorem DryRunning.step {ev : Event} (h : DryRunning w tenantId status e)
    (hquiet : Undisturbed env tenantId w ev) (hstep : step env w ev = some w') :
    (Returns env tenantId w ev →
      Idle w' tenantId status ∨ ∃ e', DryRunning w' tenantId status e') ∧
    (¬ Returns env tenantId w ev → Idle w' tenantId .error) := by
  by_cases hresume : ∃ i external, ev = .resume i external
  · obtain ⟨i, external, rfl⟩ := hresume
    obtain ⟨e', hrow, rfl⟩ := Option.map_eq_some_iff.mp hstep
    by_cases htenant : e'.tenantId = tenantId
    · have hlength : (executionsOf w tenantId).length ≤ 1 := by simp [h.only]
      obtain ⟨honly, -⟩ := executionsOf_eraseIdx_self hrow htenant hlength
      have hsame : e = e' := List.singleton_inj.mp (h.only.symm.trans honly)
      subst hsame
      have hdry := h.dryRun
      cases houtcome : runProvisionStep env e.step e.dryRun external with
      | threw message =>
        rw [hdry] at houtcome
        refine ⟨fun hreturns => ?_, fun _ => h.threw htenant hrow message⟩
        exact absurd (hreturns i external e rfl hrow htenant) (not_answered_of_threw houtcome)
      | result code skipped stdout stderr =>
        rw [hdry] at houtcome
        refine ⟨fun _ => h.returned htenant hrow code skipped stdout stderr, ?_⟩
        intro hthrows
        refine absurd ?_ hthrows
        intro i' external' e' hevent hrow' _
        obtain ⟨rfl, rfl⟩ := Event.resume.inj hevent
        rw [hrow] at hrow'
        obtain rfl := Option.some.inj hrow'
        exact answered_of_result houtcome
    · refine ⟨fun _ => .inr ⟨e, h.apart (apart_resume_other hrow htenant)⟩, ?_⟩
      intro hthrows
      refine absurd ?_ hthrows
      intro i' external' e'' hevent hrow' htenant'
      obtain ⟨rfl, rfl⟩ := Event.resume.inj hevent
      rw [hrow] at hrow'
      obtain rfl := Option.some.inj hrow'
      exact absurd htenant' htenant
  · have hreturns : Returns env tenantId w ev := by
      intro i external e' hevent
      exact absurd ⟨i, external, hevent⟩ hresume
    refine ⟨fun _ => .inr ⟨e, ?_⟩, fun hthrows => absurd hreturns hthrows⟩
    by_cases hexecute : ∃ id actor fsError, ev = .execute id actor fsError
    · obtain ⟨id, actor, fsError, rfl⟩ := hexecute
      exact h.apart (apart_execute hquiet hstep)
    · push Not at hresume hexecute
      exact h.apart (apart_of_request hexecute hresume hstep)

end

/-! ### Runs -/

theorem Idle.run {trace : List Event} (h : Idle w tenantId status)
    (hquiet : (machine env).Meets (Undisturbed env tenantId) w trace)
    (hrun : (machine env).run w trace = some w') :
    Idle w' tenantId status ∧ (machine env).Meets (Returns env tenantId) w trace := by
  induction trace generalizing w with
  | nil =>
    obtain rfl := Option.some.inj hrun
    exact ⟨h, trivial⟩
  | cons ev trace ih =>
    obtain ⟨next, hstep, hrest⟩ := (Machine.run_cons_eq_some _).mp hrun
    obtain ⟨hidle, hreturns⟩ := h.step hquiet.1 hstep
    obtain ⟨hend, hmeets⟩ := ih hidle (hquiet.2 next hstep) hrest
    refine ⟨hend, hreturns, ?_⟩
    intro other hother
    obtain rfl := Option.some.inj (hstep.symm.trans hother)
    exact hmeets

/-- The status at the end is the one from before exactly if nothing has thrown, or it was the status
that a failure leaves. -/
theorem DryRunning.run {trace : List Event} {e : Execution} (h : DryRunning w tenantId status e)
    (hquiet : (machine env).Meets (Undisturbed env tenantId) w trace)
    (hrun : (machine env).run w trace = some w') (hended : executionsOf w' tenantId = []) :
    statusOf w' tenantId = some status ↔
      status = .error ∨ (machine env).Meets (Returns env tenantId) w trace := by
  induction trace generalizing w e with
  | nil =>
    obtain rfl := Option.some.inj hrun
    rw [h.only] at hended
    cases hended
  | cons ev trace ih =>
    obtain ⟨next, hstep, hrest⟩ := (Machine.run_cons_eq_some _).mp hrun
    obtain ⟨hkept, hfailed⟩ := h.step hquiet.1 hstep
    have htail := hquiet.2 next hstep
    have hmeets : (machine env).Meets (Returns env tenantId) w (ev :: trace) ↔
        Returns env tenantId w ev ∧ (machine env).Meets (Returns env tenantId) next trace := by
      refine and_congr_right fun _ => ⟨fun hall => hall next hstep, ?_⟩
      intro hnext other hother
      obtain rfl := Option.some.inj (hstep.symm.trans hother)
      exact hnext
    rw [hmeets]
    by_cases hreturns : Returns env tenantId w ev
    · simp only [hreturns, true_and]
      obtain hidle | ⟨e', hrunning⟩ := hkept hreturns
      · obtain ⟨hend, hall⟩ := hidle.run htail hrest
        simp [hend.status, hall]
      · exact ih hrunning htail hrest
    · obtain ⟨hend, -⟩ := (hfailed hreturns).run htail hrest
      simp [hend.status, hreturns, eq_comm]

/-- A dry run that begins. -/
theorem dryRunning_of_begun {jobId : Nat} {actor : String} {fsError : Option String}
    {job : ProvisionJob} {tenant : Tenant} (hrow : w.jobs[jobId]? = some job)
    (htype : job.jobType = .decommission) (hdry : job.dryRun = true)
    (htenant : w.tenants[job.tenantId]? = some tenant) (halone : executionsOf w job.tenantId = [])
    (hbegun : executeProvisionJob env w jobId actor fsError = .ok w') :
    ∃ e, DryRunning w' job.tenantId tenant.status e := by
  obtain ⟨e, job', tenant', artifacts, rfl, hstart, rfl⟩ := executeProvisionJob_ok hbegun
  obtain rfl := Option.some.inj (hrow.symm.trans hstart.row)
  have hsame := hstart.tenantRow
  rw [← hstart.tenantId, htenant] at hsame
  obtain rfl := Option.some.inj hsame
  have hdryRun : e.dryRun = true := hstart.dryRun.symm.trans hdry
  refine ⟨e, ?_⟩
  unfold awaitStep
  dsimp only
  rw [if_neg (by simp [hdryRun])]
  refine ⟨?_, hstart.jobType.symm.trans htype, hdryRun, hstart.previous.symm, ?_⟩
  · show List.filter _ (w.executions ++ [e]) = [e]
    rw [List.filter_append]
    have hnone : w.executions.filter (fun e => e.tenantId = job.tenantId) = [] := halone
    rw [hnone]
    simp [hstart.tenantId]
  · have hbefore : statusOf w job.tenantId = some tenant.status := by simp [statusOf, htenant]
    show statusOf (World.setTenantStatus _ e.tenantId _) job.tenantId = some tenant.status
    rw [← hstart.tenantId, statusOf_setTenantStatus_self, statusOf_updateJob]
    show Option.map _ (statusOf w job.tenantId) = some tenant.status
    rw [hbefore, if_pos hdryRun, hstart.previous]
    rfl

/-- A dry run of a decommission, with no other execution of the tenant meanwhile, leaves the status
of the tenant exactly if none of its steps throws or the status was that of a failure before. -/
theorem dry_run_keeps_status_iff {jobId : Nat} {actor : String} {fsError : Option String}
    {started : World} {rest : List Event} {job : ProvisionJob} {tenant : Tenant}
    (hrow : w.jobs[jobId]? = some job) (htype : job.jobType = .decommission)
    (hdry : job.dryRun = true) (htenant : w.tenants[job.tenantId]? = some tenant)
    (halone : executionsOf w job.tenantId = [])
    (hbegun : executeProvisionJob env w jobId actor fsError = .ok started)
    (hquiet : (machine env).Meets (Undisturbed env job.tenantId) started rest)
    (hrun : (machine env).run started rest = some w') (hended : executionsOf w' job.tenantId = []) :
    statusOf w' job.tenantId = some tenant.status ↔
      tenant.status = .error ∨ (machine env).Meets (Returns env job.tenantId) started rest := by
  obtain ⟨e, hrunning⟩ := dryRunning_of_begun hrow htype hdry htenant halone hbegun
  exact hrunning.run hquiet hrun hended

def sampleRequests : List Event :=
  [.createTenant sampleBootstrapRequest "ana", .createDecommission 0 none ⟨false, false⟩ "ana",
    .transition 1 "ben" .approve ""]

def sampleRequested : World :=
  ((machine sampleEnvironment).run World.empty sampleRequests).getD World.empty

def sampleStarted : World :=
  ((step sampleEnvironment sampleRequested (.execute 1 "cleo" none))).getD World.empty

def sampleSteps : List Event :=
  [.resume 0 (.result 0 true "" ""), .resume 0 (.result 1 false "" "no such unit")]

def sampleFailure : List Event := [.resume 0 (.threw "connect ENOENT /run/mc-provisioner.sock")]

def sampleEnded (steps : List Event) : World :=
  ((machine sampleEnvironment).run sampleStarted steps).getD World.empty

theorem sample_begun :
    executeProvisionJob sampleEnvironment sampleRequested 1 "cleo" none = .ok sampleStarted := by
  have hok : (executeProvisionJob sampleEnvironment sampleRequested 1 "cleo" none).isOk = true := by
    decide +kernel
  cases h : executeProvisionJob sampleEnvironment sampleRequested 1 "cleo" none with
  | error message =>
    rw [h] at hok
    cases hok
  | ok started =>
    simp only [sampleStarted, step, h]
    rfl

theorem dry_run_keeps_status_sample :
    statusOf (sampleEnded sampleSteps) 0 = some .pending ↔
      TenantStatus.pending = .error ∨
        (machine sampleEnvironment).Meets (Returns sampleEnvironment 0) sampleStarted
          sampleSteps := by
  obtain ⟨job, hrow, htype, hdry, hid⟩ : ∃ job, sampleRequested.jobs[1]? = some job ∧
      job.jobType = .decommission ∧ job.dryRun = true ∧ job.tenantId = 0 := by
    have hjob : sampleRequested.jobs[1]?.any (fun job =>
        job.jobType = .decommission && job.dryRun && job.tenantId == 0) = true := by
      decide +kernel
    obtain ⟨job, hrow, hjob⟩ := (Option.any_eq_true ..).mp hjob
    simp only [Bool.and_eq_true, decide_eq_true_eq, beq_iff_eq] at hjob
    exact ⟨job, hrow, hjob.1.1, hjob.1.2, hjob.2⟩
  obtain ⟨tenant, htenant, hstatus⟩ : ∃ tenant, sampleRequested.tenants[0]? = some tenant ∧
      tenant.status = .pending :=
    Option.map_eq_some_iff.mp (show sampleRequested.tenants[0]?.map Tenant.status = some .pending by
      decide +kernel)
  have hrun : (machine sampleEnvironment).run sampleStarted sampleSteps =
      some (sampleEnded sampleSteps) := by
    decide +kernel
  have hquiet : (machine sampleEnvironment).Meets (Undisturbed sampleEnvironment job.tenantId)
      sampleStarted sampleSteps :=
    ⟨fun _ _ _ _ h => (by cases h), fun _ _ => ⟨fun _ _ _ _ h => (by cases h), fun _ _ => trivial⟩⟩
  have hkept := dry_run_keeps_status_iff hrow htype hdry (hid ▸ htenant)
    (hid ▸ (by decide +kernel)) sample_begun hquiet hrun (hid ▸ (by decide +kernel))
  rwa [hid, hstatus] at hkept

/-- The daemon does not answer, and the tenant that nothing was done to is in error. -/
theorem dry_run_strands_sample :
    (machine sampleEnvironment).run World.empty sampleRequests = some sampleRequested ∧
      (machine sampleEnvironment).run sampleRequested (.execute 1 "cleo" none :: sampleFailure) =
        some (sampleEnded sampleFailure) ∧
      (sampleRequested.jobs[1]?.map fun job => (job.jobType, job.dryRun, job.status, job.tenantId)) =
        some (.decommission, true, .approved, 0) ∧
      sampleRequested.executions = [] ∧ (sampleEnded sampleFailure).executions = [] ∧
      statusOf sampleRequested 0 = some .pending ∧
      statusOf (sampleEnded sampleFailure) 0 = some .error := by
  decide +kernel

end MissionControl.Provisioning.DryRuns
