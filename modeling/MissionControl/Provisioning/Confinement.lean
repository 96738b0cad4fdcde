import MissionControl.Provisioning.JobSteps
import MissionControl.Provisioning.Ownership

/-!
The live steps of a job stay with its tenant as long as the plans that are posted do. What an
execution runs is fixed when the job is created: its tenant, its mode and its plan are never
written again, and the rows of tenants keep the columns that the plans are built from.
-/

set_option autoImplicit false
set_option relaxedAutoImplicit false

namespace MissionControl.Provisioning.Confinement

open MissionControl.Foundations.Lists (map_modify_of_eq)
open MissionControl.Foundations.PosixPath (descends_of_segment)
open MissionControl.Foundations.Transition (Machine)
open Plans PlanAcceptance Ownership Jobs JobSteps

/-- The columns of a job that no function writes again. -/
structure Order where
  tenantId : Nat
  dryRun : Bool
  request : JobRequest
  plan : List ProvisionStep
  deriving DecidableEq

def order (job : ProvisionJob) : Order := ⟨job.tenantId, job.dryRun, job.request, job.plan⟩

def orders (w : World) : List Order := w.jobs.map order

def paths (w : World) : List TenantPaths := w.tenants.map (·.paths)

section Definitions

variable (env : Environment) (cwd : List (List Char))

/-- A live job that is posted has a plan that stays with its tenant. -/
def OwnPlan (w : World) : Event → Prop
  | .queueJob tenantId _ dryRun request plan _ =>
    dryRun = some false → request.dryRun = some false →
      ∀ tenant ∈ w.tenants[tenantId]?, ∀ step ∈ plan, Confined env cwd tenant.paths step
  | _ => True

instance (w : World) : ∀ ev, Decidable (OwnPlan env cwd w ev)
  | .queueJob tenantId _ dryRun request plan _ =>
    inferInstanceAs (Decidable (dryRun = some false → request.dryRun = some false →
      ∀ tenant ∈ w.tenants[tenantId]?, ∀ step ∈ plan, Confined env cwd tenant.paths step))
  | .createTenant _ _ | .createDecommission _ _ _ _ | .transition _ _ _ _ | .execute _ _ _
  | .resume _ _ => inferInstanceAs (Decidable True)

/-- Whatever `runProvisionStep` starts for a live job names resources of the tenant of the job and,
where homes are kept apart, none that belongs to another tenant. -/
def LiveStepsConfined (w : World) : Prop :=
  ∀ e ∈ w.executions, e.dryRun = false →
    ∃ job tenant, w.jobs[e.jobId]? = some job ∧ w.tenants[job.tenantId]? = some tenant ∧
      ∀ started ∈ launch env e.step, ∃ names ∈ named started.command, ∀ r ∈ names,
        Own env cwd tenant.paths r ∧
          (HomesApart env cwd → ∀ i other, i ≠ job.tenantId → w.tenants[i]? = some other →
            ¬ Foreign env cwd tenant.paths other.paths r)

/-- The steps stay with the tenant that has the given id. -/
def StepsOf (tenants : List TenantPaths) (id : Nat) (steps : List ProvisionStep) : Prop :=
  ∃ tenant, tenants[id]? = some tenant ∧ ∀ step ∈ steps, Confined env cwd tenant step

structure Confining (w : World) : Prop where
  drafted : ∀ tenant ∈ paths w, Drafted env tenant
  distinct : ((paths w).map (·.linuxUser)).Nodup
  jobs : ∀ o ∈ orders w, o.dryRun = false → o.request.dryRun = some false →
    StepsOf env cwd (paths w) o.tenantId o.plan
  executions : ∀ e ∈ w.executions, e.dryRun = false →
    StepsOf env cwd (paths w) e.tenantId (e.step :: e.rest)

end Definitions

/-! ### What the functions leave alone -/

section Frame

variable (w : World)

/-- The tenants' columns and the orders are as before. -/
def Same (w w' : World) : Prop := paths w' = paths w ∧ orders w' = orders w

theorem same_update (id tenantId : Nat) (status : TenantStatus) (r : Record)
    {f : ProvisionJob → ProvisionJob} (h : ∀ job, order (f job) = order job) :
    Same w (((w.updateJob id f).setTenantStatus tenantId status).record r) :=
  ⟨map_modify_of_eq (f := Tenant.paths) (g := fun t => { t with status := status }) (fun _ => rfl)
    w.tenants tenantId, map_modify_of_eq h w.jobs id⟩

variable (e : Execution)

theorem fail_same (message : String) : Same w (failExecution w e message) :=
  same_update w e.jobId e.tenantId .error _ fun _ => rfl

theorem complete_same : Same w (completeExecution w e) :=
  same_update w e.jobId e.tenantId (completedTenantStatus e) _ fun _ => rfl

theorem begin_same (env : Environment) : Same w (beginExecution env w e) :=
  same_update w e.jobId e.tenantId _ _ fun _ => rfl

end Frame

/-! ### Steps -/

section Steps

variable {env : Environment} {cwd : List (List Char)} {w w' : World}

theorem StepsOf.mono {tenants added : List TenantPaths} {id : Nat} {steps : List ProvisionStep}
    (h : StepsOf env cwd tenants id steps) : StepsOf env cwd (tenants ++ added) id steps := by
  obtain ⟨tenant, hrow, hsteps⟩ := h
  refine ⟨tenant, ?_, hsteps⟩
  rw [List.getElem?_append_left (List.getElem?_eq_some_iff.mp hrow).1]
  exact hrow

theorem Confining.empty : Confining env cwd World.empty where
  drafted := by
    intro tenant htenant
    cases htenant
  distinct := List.nodup_nil
  jobs := by
    intro o ho
    cases ho
  executions := by
    intro e he
    cases he

/-- The execution `e` stays with its tenant in what it still has to run. -/
def Stays (env : Environment) (cwd : List (List Char)) (w : World) (e : Execution) : Prop :=
  e.dryRun = false → StepsOf env cwd (paths w) e.tenantId (e.step :: e.rest)

theorem Confining.same (h : Confining env cwd w) (hsame : Same w w')
    (hexecutions : ∀ e ∈ w'.executions, e ∈ w.executions ∨ Stays env cwd w e) :
    Confining env cwd w' := by
  obtain ⟨hpaths, horders⟩ := hsame
  constructor
  · rw [hpaths]
    exact h.drafted
  · rw [hpaths]
    exact h.distinct
  · rw [hpaths, horders]
    exact h.jobs
  · rw [hpaths]
    intro e he
    rcases hexecutions e he with he | he
    · exact h.executions e he
    · exact he

theorem Confining.await (h : Confining env cwd w) {e : Execution} (he : Stays env cwd w e) :
    Confining env cwd (awaitStep w e) := by
  unfold awaitStep
  dsimp only
  split
  · exact h.same (fail_same _ e _) fun e' he' => .inl he'
  · refine h.same ⟨rfl, rfl⟩ ?_
    intro e' he'
    rcases List.mem_append.mp he' with he' | he'
    · exact .inl he'
    · rw [List.mem_singleton.mp he']
      exact .inr he

theorem Confining.begin (h : Confining env cwd w) {e : Execution} (he : Stays env cwd w e) :
    Confining env cwd (awaitStep (beginExecution env w e) e) := by
  have hsame := begin_same w e env
  have hbegun : Confining env cwd (beginExecution env w e) := h.same hsame fun e' he' => .inl he'
  apply hbegun.await
  unfold Stays
  rw [hsame.1]
  exact he

theorem Confining.release (h : Confining env cwd w) (i : Nat) :
    Confining env cwd { w with executions := w.executions.eraseIdx i } :=
  h.same ⟨rfl, rfl⟩ fun _ he => .inl (List.mem_of_mem_eraseIdx he)

theorem Confining.resume (h : Confining env cwd w) {e : Execution} (he : Stays env cwd w e)
    (outcome : StepOutcome) : Confining env cwd (resumeExecution w e outcome) := by
  cases outcome with
  | threw message => exact h.same (fail_same w e message) fun e' he' => .inl he'
  | result code skipped stdout stderr =>
    let noted := e.noteResult code skipped stdout stderr
    let logged := w.record
      (if skipped then .stepSkipped e.jobId e.step.key else .stepCompleted e.jobId e.step.key)
    have hlogged : Confining env cwd logged := h.same ⟨rfl, rfl⟩ fun e' he' => .inl he'
    unfold resumeExecution
    dsimp only
    split
    · exact hlogged.same (complete_same logged noted) fun e' he' => .inl he'
    · rename_i step rest hrest
      apply hlogged.await
      intro hlive
      obtain ⟨tenant, hrow, hsteps⟩ := he hlive
      refine ⟨tenant, hrow, ?_⟩
      have hrest : e.rest = step :: rest := hrest
      rw [hrest] at hsteps
      exact fun s hs => hsteps s (List.mem_cons_of_mem _ hs)

/-- A new job, with or without a new tenant. -/
theorem Confining.insert (h : Confining env cwd w) {added : List Tenant} {job : ProvisionJob}
    {logged : Bool} (hdrafted : ∀ t ∈ added, Drafted env t.paths)
    (hdistinct : ((paths w ++ added.map (·.paths)).map (·.linuxUser)).Nodup)
    (hjob : job.dryRun = false → job.request.dryRun = some false →
      StepsOf env cwd (paths w ++ added.map (·.paths)) job.tenantId job.plan) :
    Confining env cwd (insertJob { w with tenants := w.tenants ++ added } job logged) := by
  have hpaths : paths (insertJob { w with tenants := w.tenants ++ added } job logged) =
      paths w ++ added.map (·.paths) := List.map_append
  have horders : orders (insertJob { w with tenants := w.tenants ++ added } job logged) =
      orders w ++ [order job] := List.map_append
  constructor
  · rw [hpaths]
    intro tenant htenant
    rcases List.mem_append.mp htenant with htenant | htenant
    · exact h.drafted tenant htenant
    · obtain ⟨t, ht, rfl⟩ := List.mem_map.mp htenant
      exact hdrafted t ht
  · rw [hpaths]
    exact hdistinct
  · rw [hpaths, horders]
    intro o ho hlive hrequest
    rcases List.mem_append.mp ho with ho | ho
    · exact (h.jobs o ho hlive hrequest).mono
    · rw [List.mem_singleton.mp ho] at hlive hrequest ⊢
      exact hjob hlive hrequest
  · rw [hpaths]
    intro e he hlive
    exact (h.executions e he hlive).mono

private theorem confining_transition (h : Confining env cwd w) {id : Nat} {actor reason : String}
    {action : ProvisionJobAction} :
    Confining env cwd (accepted w (transitionProvisionJobStatus w id actor action reason)) := by
  have hupdated : ∀ (f : ProvisionJob → ProvisionJob) (r : Record),
      (∀ job, order (f job) = order job) →
        Confining env cwd ((w.updateJob id f).record r) := fun f r hf =>
    h.same ⟨rfl, map_modify_of_eq hf w.jobs id⟩ fun e he => .inl he
  unfold transitionProvisionJobStatus
  split
  · exact h
  · dsimp only
    split
    · exact h
    · split
      · split
        · exact h
        · exact hupdated _ _ fun _ => rfl
      · split
        · exact h
        · exact hupdated _ _ fun _ => rfl
      · split
        · exact h
        · exact hupdated _ _ fun _ => rfl

private theorem confining_execute (h : Confining env cwd w) {id : Nat} {actor : String}
    {fsError : Option String} :
    Confining env cwd (accepted w (executeProvisionJob env w id actor fsError)) := by
  unfold executeProvisionJob
  split
  · exact h
  · rename_i job hrow
    split
    · exact h
    · split
      · exact h
      · split
        · exact h
        · rename_i step rest hplan
          dsimp only
          split
          · exact h
          · rename_i hmode
            have hstays : job.dryRun = false →
                StepsOf env cwd (paths w) job.tenantId (step :: rest) := by
              intro hlive
              have hrequest : job.request.dryRun = some false := by
                simpa [hlive] using hmode
              have hmem : order job ∈ orders w := List.mem_map_of_mem (List.mem_of_getElem? hrow)
              rw [← hplan]
              exact h.jobs (order job) hmem hlive hrequest
            split
            · exact h
            · split
              · exact h
              · split
                · exact h
                · split
                  · split
                    · exact h
                    · rename_i artifact _
                      have hwritten : Confining env cwd
                          { w with artifacts := w.artifacts ++ [artifact] } :=
                        h.same ⟨rfl, rfl⟩ fun e he => .inl he
                      exact hwritten.begin hstays
                  · exact h.begin hstays

private theorem confining_create (h : Confining env cwd w) {request : TenantBootstrapRequest}
    {actor : String} :
    Confining env cwd (accepted w (createTenantAndBootstrapJob env w request actor)) := by
  unfold createTenantAndBootstrapJob
  split
  · exact h
  · rename_i draft hdraft
    have valid := validateBootstrap_validated hdraft
    split
    · exact h
    · rename_i hunique
      refine h.insert ?_ ?_ ?_
      · intro t ht
        rw [List.mem_singleton.mp ht]
        exact ⟨draft, valid, rfl⟩
      · rw [List.map_append, List.nodup_append]
        refine ⟨h.distinct, List.nodup_singleton _, ?_⟩
        intro user huser user' huser'
        obtain ⟨tenant, htenant, rfl⟩ := List.mem_map.mp huser
        obtain ⟨t, ht, rfl⟩ := List.mem_map.mp htenant
        rw [List.mem_singleton.mp huser']
        intro heq
        apply hunique
        exact List.any_eq_true.mpr ⟨t, ht, decide_eq_true (.inr heq)⟩
      · intro _ _
        refine ⟨draft.tenant, ?_, bootstrap_confined valid⟩
        have hlength : (paths w).length = w.tenants.length := List.length_map _
        show (paths w ++ [draft.tenant])[w.tenants.length]? = some draft.tenant
        rw [List.getElem?_append_right (by omega), hlength, Nat.sub_self]
        rfl

/-- A new job of a tenant that is there. -/
private theorem Confining.insertFor (h : Confining env cwd w) {job : ProvisionJob} {logged : Bool}
    (hjob : job.dryRun = false → job.request.dryRun = some false →
      StepsOf env cwd (paths w) job.tenantId job.plan) :
    Confining env cwd (insertJob w job logged) := by
  have hinserted := @Confining.insert env cwd w h [] job logged
    (fun t ht => by cases ht) (by simpa using h.distinct) (by simpa using hjob)
  rw [List.append_nil] at hinserted
  exact hinserted

theorem confining_step {ev : Event} (h : Confining env cwd w) (hguard : OwnPlan env cwd w ev)
    (hstep : step env w ev = some w') : Confining env cwd w' := by
  cases ev with
  | createTenant request actor =>
    obtain rfl := Option.some.inj hstep
    exact confining_create h
  | createDecommission tenantId dryRun options actor =>
    obtain rfl := Option.some.inj hstep
    unfold createTenantDecommissionJob
    split
    · exact h
    · rename_i tenant hrow
      apply h.insertFor
      intro _ _
      refine ⟨tenant.paths, ?_, decommission_confined options⟩
      show (w.tenants.map (·.paths))[tenantId]? = some tenant.paths
      rw [List.getElem?_map, hrow]
      rfl
  | queueJob tenantId jobType dryRun request plan actor =>
    obtain rfl := Option.some.inj hstep
    unfold queueJob
    split
    · exact h
    · rename_i hlt
      apply h.insertFor
      intro hlive hrequest
      have hrow := List.getElem?_eq_getElem (Nat.lt_of_not_le hlt)
      have hlive : dryRun = some false := by
        simpa [newJob] using hlive
      refine ⟨w.tenants[tenantId].paths, ?_, hguard hlive hrequest _ hrow⟩
      show (w.tenants.map (·.paths))[tenantId]? = _
      rw [List.getElem?_map, hrow]
      rfl
  | transition id actor action reason =>
    obtain rfl := Option.some.inj hstep
    exact confining_transition h
  | execute id actor fsError =>
    obtain rfl := Option.some.inj hstep
    exact confining_execute h
  | resume i external =>
    obtain ⟨e, hrow, rfl⟩ := Option.map_eq_some_iff.mp hstep
    exact (h.release i).resume (h.executions e (List.mem_of_getElem? hrow)) _

end Steps

theorem Confining.liveSteps {env : Environment} {cwd : List (List Char)} {w : World}
    (h : Confining env cwd w) (hsound : Sound w) : LiveStepsConfined env cwd w := by
  intro e he hlive
  obtain ⟨job, hjob, -, htenant, -, -⟩ := hsound.running e he
  obtain ⟨columns, hcolumns, hsteps⟩ := h.executions e he hlive
  have hcolumns : (w.tenants.map (·.paths))[e.tenantId]? = some columns := hcolumns
  rw [List.getElem?_map] at hcolumns
  obtain ⟨tenant, hrow, rfl⟩ := Option.map_eq_some_iff.mp hcolumns
  rw [← htenant] at hrow
  refine ⟨job, tenant, hjob, hrow, ?_⟩
  intro started hstarted
  obtain ⟨names, hnames, hown⟩ := hsteps e.step List.mem_cons_self started hstarted
  refine ⟨names, hnames, fun r hr => ⟨hown r hr, ?_⟩⟩
  intro hapart i other hne hother
  have hmem : ∀ {j : Nat} {t : Tenant}, w.tenants[j]? = some t → t.paths ∈ paths w :=
    fun ht => List.mem_map_of_mem (List.mem_of_getElem? ht)
  have husers : tenant.paths.linuxUser ≠ other.paths.linuxUser := by
    have husersOf : ∀ {j : Nat} {t : Tenant}, w.tenants[j]? = some t →
        ((paths w).map (·.linuxUser))[j]? = some t.paths.linuxUser := by
      intro j t ht
      unfold paths
      rw [List.getElem?_map, List.getElem?_map, ht]
      rfl
    intro heq
    apply hne
    have hsame : ((paths w).map (·.linuxUser))[i]? =
        ((paths w).map (·.linuxUser))[job.tenantId]? := by
      rw [husersOf hother, husersOf hrow, heq]
    exact (List.getElem?_inj (List.getElem?_eq_some_iff.mp (husersOf hother)).1 h.distinct).mp hsame
  exact (hown r hr).not_foreign hapart (h.drafted _ (hmem hrow)) (h.drafted _ (hmem hother)) husers

/-- In every history in which the live jobs that are posted have plans that stay with their
tenant, everything that is started for a live job of any origin stays with the tenant of the
job. -/
theorem live_steps_confined (env : Environment) (cwd : List (List Char)) {trace : List Event}
    (hmeets : (machine env).Meets (OwnPlan env cwd) World.empty trace) :
    (machine env).Always (LiveStepsConfined env cwd) World.empty trace := by
  have hkept : ∀ w ev w', Sound w ∧ Confining env cwd w → OwnPlan env cwd w ev →
      (machine env).step w ev = some w' → Sound w' ∧ Confining env cwd w' :=
    fun w ev w' h hguard hstep => ⟨sound_step h.1 hstep, confining_step h.2 hguard hstep⟩
  intro front back w hsplit hr
  rw [hsplit] at hmeets
  have hinv : Sound w ∧ Confining env cwd w :=
    Machine.run_invariant hkept ⟨sound_empty, .empty⟩ hmeets.append_left hr
  exact hinv.2.liveSteps hinv.1

/-! ### Posted plans -/

def otherBootstrapRequest : TenantBootstrapRequest :=
  ⟨"beta", "Beta", none, .integer 18790, .absent, none, none⟩

/-- Two tenants, and a live job with a plan of one step, posted for the first of them, approved
and begun. -/
def postedTrace (command : List String) : List Event :=
  [.createTenant sampleBootstrapRequest "ana", .createTenant otherBootstrapRequest "ana",
    .queueJob 0 .update (some false) ⟨none, some false, none⟩
      [⟨"clean", "Clean", command, true, none⟩] "ana",
    .transition 2 "ben" .approve "", .execute 2 "cleo" none]

def ownCommand : List String :=
  ["/usr/bin/rm", "-rf", "/srv/tenant.homes/oc-acme-1/.openclaw/cache"]

/-- A posted job removes something from the state directory of its own tenant. -/
theorem live_steps_confined_posted :
    HomesApart sampleEnvironment [] ∧
      ∃ w, (machine sampleEnvironment).run World.empty (postedTrace ownCommand) = some w ∧
        (∃ e ∈ w.executions, e.dryRun = false) ∧ LiveStepsConfined sampleEnvironment [] w := by
  have hapart : HomesApart sampleEnvironment [] :=
    ⟨by decide +kernel, descends_of_segment (by decide +kernel)⟩
  have hreached : ((machine sampleEnvironment).run World.empty (postedTrace ownCommand)).any
      (fun w => ∃ e ∈ w.executions, e.dryRun = false) = true := by
    decide +kernel
  obtain ⟨w, hrun, hlive⟩ := (Option.any_eq_true _ _).mp hreached
  have hmeets : (machine sampleEnvironment).Meets (OwnPlan sampleEnvironment []) World.empty
      (postedTrace ownCommand) := by
    decide +kernel
  have hconfined := live_steps_confined sampleEnvironment [] hmeets
  exact ⟨hapart, w, hrun, of_decide_eq_true hlive, hconfined _ [] w (List.append_nil _).symm hrun⟩

def foreignCommand : List String :=
  ["/usr/bin/rm", "-rf", "/srv/tenant.homes/oc-beta/.openclaw"]

/-- The plan of a posted job removes the state directory of the other tenant. -/
theorem live_steps_not_confined :
    ∃ w, (machine sampleEnvironment).run World.empty (postedTrace foreignCommand) = some w ∧
      ¬ LiveStepsConfined sampleEnvironment [] w := by
  have hreached : ((machine sampleEnvironment).run World.empty (postedTrace foreignCommand)).any
      (fun w => ∃ e ∈ w.executions, e.dryRun = false ∧
        launch sampleEnvironment e.step = some (.daemon foreignCommand) ∧
          ∀ job ∈ w.jobs[e.jobId]?, ∀ tenant ∈ w.tenants[job.tenantId]?,
            ¬ Own sampleEnvironment [] tenant.paths
              (.path "/srv/tenant.homes/oc-beta/.openclaw")) = true := by
    decide +kernel
  obtain ⟨w, hrun, hfacts⟩ := (Option.any_eq_true _ _).mp hreached
  obtain ⟨e, he, hlive, hstarted, hother⟩ := of_decide_eq_true hfacts
  refine ⟨w, hrun, ?_⟩
  intro hconfined
  obtain ⟨job, tenant, hjob, htenant, hall⟩ := hconfined e he hlive
  obtain ⟨names, hnames, hown⟩ := hall _ hstarted
  have hnamed : named foreignCommand =
      some [.path "/srv/tenant.homes/oc-beta/.openclaw"] := rfl
  have hsame := hnames.symm.trans hnamed
  obtain rfl := Option.some.inj hsame
  exact hother job hjob tenant htenant (hown _ List.mem_cons_self).1

end MissionControl.Provisioning.Confinement
