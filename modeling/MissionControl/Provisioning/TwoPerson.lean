import MissionControl.Provisioning.JobSteps

/-!
The two-person rule, read off the log: what the approvals and starts of a job recorded so far
permit the next record to be.
-/

set_option autoImplicit false
set_option relaxedAutoImplicit false

namespace MissionControl.Provisioning.TwoPerson

open MissionControl.Foundations.Lists
open MissionControl.Foundations.Transition (Machine)
open Plans Jobs JobSteps

/-- What the log says of one job: the last approver, and who started it since that approval. -/
structure JobHistory where
  approver : Option String
  runners : List String
  deriving DecidableEq

def note (id : Nat) (h : JobHistory) : Record → JobHistory
  | .approved job actor _ => if job = id then ⟨some actor, []⟩ else h
  | .started job actor _ => if job = id then { h with runners := h.runners ++ [actor] } else h
  | _ => h

@[simp] theorem note_approved_self (id : Nat) (h : JobHistory) (actor reason : String) :
    note id h (.approved id actor reason) = ⟨some actor, []⟩ :=
  if_pos rfl

@[simp] theorem note_started_self (id : Nat) (h : JobHistory) (actor : String) (dryRun : Bool) :
    note id h (.started id actor dryRun) = { h with runners := h.runners ++ [actor] } :=
  if_pos rfl

theorem note_approved_ne {id job : Nat} (hne : job ≠ id) (h : JobHistory) (actor reason : String) :
    note id h (.approved job actor reason) = h :=
  if_neg hne

theorem note_started_ne {id job : Nat} (hne : job ≠ id) (h : JobHistory) (actor : String)
    (dryRun : Bool) : note id h (.started job actor dryRun) = h :=
  if_neg hne

def history (id : Nat) (records : List Record) : JobHistory :=
  records.foldl (note id) ⟨none, []⟩

theorem history_snoc (id : Nat) (records : List Record) (r : Record) :
    history id (records ++ [r]) = note id (history id records) r := by
  unfold history
  rw [List.foldl_append]
  rfl

/-- The last approver of the job, when it is live, is neither its requester nor the runner. -/
def ClearedBy (jobs : List ProvisionJob) (h : JobHistory) (id : Nat) (runner : String) : Prop :=
  ∃ job, jobs[id]? = some job ∧ (job.dryRun = false →
    ∃ a, h.approver = some a ∧ a ≠ job.requestedBy ∧ a ≠ runner)

/-- A start needs an approval that no start has used; a step runs under the one start since. -/
def Allowed (jobs : List ProvisionJob) (front : List Record) : Record → Prop
  | .started id runner _ =>
    (history id front).runners = [] ∧ ClearedBy jobs (history id front) id runner
  | .stepRunning id runner _ _ =>
    (history id front).runners = [runner] ∧ ClearedBy jobs (history id front) id runner
  | _ => True

/-! ### The log and the rows -/

/-- The log agrees with the rows and the executions, and permits every record in it. -/
structure Linked (w : World) : Prop where
  fresh : ∀ id, w.jobs.length ≤ id → history id w.records = ⟨none, []⟩
  rows : ∀ id job, w.jobs[id]? = some job → (history id w.records).approver = job.approvedBy ∧
    (job.status = .approved → (history id w.records).runners = [])
  executions : ∀ e ∈ w.executions, (history e.jobId w.records).runners = [e.actor]
  compliant : Throughout (Allowed w.jobs) w.records

theorem linked_empty : Linked World.empty := by
  refine ⟨fun _ _ => rfl, ?_, ?_, throughout_nil⟩
  · intro id job hrow
    cases hrow
  · intro e he
    cases he

/-- A record that says nothing of approvals and starts. -/
theorem Linked.logged {w : World} (h : Linked w) {r : Record}
    (hnote : ∀ id hist, note id hist r = hist) (hallowed : Allowed w.jobs w.records r) :
    Linked (w.record r) := by
  have hsame : ∀ id, history id (w.records ++ [r]) = history id w.records := by
    intro id
    rw [history_snoc, hnote]
  refine ⟨?_, ?_, ?_, throughout_snoc.mpr ⟨h.compliant, hallowed⟩⟩
  · intro id hid
    rw [← h.fresh id hid]
    exact hsame id
  · intro id job hrow
    have hagree := h.rows id job hrow
    rw [← hsame id] at hagree
    exact hagree
  · intro e he
    rw [← h.executions e he]
    exact congrArg JobHistory.runners (hsame e.jobId)

/-- What no write to a job changes. -/
def Fixed (f : ProvisionJob → ProvisionJob) : Prop :=
  ∀ job, (f job).dryRun = job.dryRun ∧ (f job).requestedBy = job.requestedBy

private theorem allowed_mono {jobs jobs' : List ProvisionJob}
    (hkept : ∀ (id : Nat) (job : ProvisionJob), jobs[id]? = some job → ∃ job', jobs'[id]? = some job' ∧
      job'.dryRun = job.dryRun ∧ job'.requestedBy = job.requestedBy)
    {front : List Record} {r : Record} (h : Allowed jobs front r) : Allowed jobs' front r := by
  have hcleared : ∀ {hist : JobHistory} {id : Nat} {runner : String},
      ClearedBy jobs hist id runner → ClearedBy jobs' hist id runner := by
    rintro hist id runner ⟨job, hrow, hlive⟩
    obtain ⟨job', hrow', hdry, hrequested⟩ := hkept id job hrow
    refine ⟨job', hrow', ?_⟩
    rw [hdry, hrequested]
    exact hlive
  cases r with
  | started => exact ⟨h.1, hcleared h.2⟩
  | stepRunning => exact ⟨h.1, hcleared h.2⟩
  | _ => trivial

private theorem kept_modify {jobs : List ProvisionJob} {id : Nat}
    {f : ProvisionJob → ProvisionJob} (hf : Fixed f) :
    ∀ (i : Nat) (job : ProvisionJob), jobs[i]? = some job → ∃ job', (jobs.modify id f)[i]? = some job' ∧
      job'.dryRun = job.dryRun ∧ job'.requestedBy = job.requestedBy := by
  intro i job hrow
  rw [List.getElem?_modify, hrow]
  refine ⟨if id = i then f job else job, rfl, ?_⟩
  by_cases heq : id = i
  · rw [if_pos heq]
    exact hf job
  · rw [if_neg heq]
    exact ⟨rfl, rfl⟩

/-- The row after a write to a job is the old row of another job or the written one. -/
private theorem modify_cases {jobs : List ProvisionJob} {id i : Nat}
    {f : ProvisionJob → ProvisionJob} {job : ProvisionJob}
    (h : (jobs.modify id f)[i]? = some job) :
    (i ≠ id ∧ jobs[i]? = some job) ∨ (i = id ∧ ∃ old, jobs[id]? = some old ∧ job = f old) := by
  rw [List.getElem?_modify] at h
  obtain ⟨old, hold, rfl⟩ := Option.map_eq_some_iff.mp h
  by_cases heq : id = i
  · rw [if_pos heq]
    subst heq
    exact .inr ⟨rfl, old, hold, rfl⟩
  · rw [if_neg heq]
    exact .inl ⟨Ne.symm heq, hold⟩

theorem Linked.updateJob {w : World} (h : Linked w) (id : Nat) {f : ProvisionJob → ProvisionJob}
    (hf : Fixed f) (happrover : ∀ job, (f job).approvedBy = job.approvedBy)
    (hstatus : ∀ job, (f job).status ≠ .approved) : Linked (w.updateJob id f) := by
  refine ⟨?_, ?_, h.executions, h.compliant.mono fun _ _ => allowed_mono (kept_modify hf)⟩
  · intro i hi
    refine h.fresh i ?_
    have hlength : (w.jobs.modify id f).length = w.jobs.length := List.length_modify ..
    rw [← hlength]
    exact hi
  · intro i job hrow
    rcases modify_cases hrow with ⟨-, hrow⟩ | ⟨rfl, old, hold, rfl⟩
    · exact h.rows i job hrow
    · rw [happrover]
      exact ⟨(h.rows i old hold).1, fun happroved => absurd happroved (hstatus old)⟩

theorem Linked.setTenantStatus {w : World} (h : Linked w) (tenantId : Nat)
    (status : TenantStatus) : Linked (w.setTenantStatus tenantId status) :=
  ⟨h.fresh, h.rows, h.executions, h.compliant⟩

/-- A record about one job, logged with a write to that job while nobody executes it. -/
theorem Linked.relogged {w : World} (h : Linked w) {id : Nat} {job : ProvisionJob}
    (hrow : w.jobs[id]? = some job) (hne : ∀ e ∈ w.executions, e.jobId ≠ id)
    {f : ProvisionJob → ProvisionJob} (hf : Fixed f) {r : Record}
    (hother : ∀ i hist, id ≠ i → note i hist r = hist) (hallowed : Allowed w.jobs w.records r)
    (hagree : (note id (history id w.records) r).approver = (f job).approvedBy ∧
      ((f job).status = .approved → (note id (history id w.records) r).runners = [])) :
    Linked ((w.updateJob id f).record r) := by
  have hsame : ∀ i, id ≠ i → history i (w.records ++ [r]) = history i w.records := by
    intro i hi
    rw [history_snoc, hother i _ hi]
  have hlt : id < w.jobs.length := (List.getElem?_eq_some_iff.mp hrow).1
  have hcompliant : Throughout (Allowed w.jobs) (w.records ++ [r]) :=
    throughout_snoc.mpr ⟨h.compliant, hallowed⟩
  refine ⟨?_, ?_, ?_, hcompliant.mono fun _ _ => allowed_mono (kept_modify hf)⟩
  · intro i hi
    have hi : w.jobs.length ≤ i := by
      have hlength : (w.jobs.modify id f).length ≤ i := hi
      rwa [List.length_modify] at hlength
    rw [← h.fresh i hi]
    exact hsame i (by omega)
  · intro i j hj
    rcases modify_cases hj with ⟨hi, hj⟩ | ⟨rfl, old, hold, rfl⟩
    · have hold := h.rows i j hj
      rw [← hsame i hi.symm] at hold
      exact hold
    · rw [hrow] at hold
      obtain rfl := Option.some.inj hold
      rw [← history_snoc] at hagree
      exact hagree
  · intro e he
    rw [← h.executions e he]
    exact congrArg JobHistory.runners (hsame e.jobId (hne e he).symm)

/-! ### Segments of an execution -/

theorem Linked.drop {w : World} {e : Execution} (h : Linked (held w e)) : Linked w :=
  ⟨h.fresh, h.rows, fun e' he' => h.executions e' (List.mem_append_left _ he'), h.compliant⟩

theorem Linked.hold {w : World} {e : Execution} (h : Linked w)
    (hrunners : (history e.jobId w.records).runners = [e.actor]) : Linked (held w e) := by
  refine ⟨h.fresh, h.rows, ?_, h.compliant⟩
  intro e' he'
  rcases List.mem_append.mp he' with he' | he'
  · exact h.executions e' he'
  · rw [List.mem_singleton.mp he']
    exact hrunners

theorem Linked.runners {w : World} {e : Execution} (h : Linked (held w e)) :
    (history e.jobId w.records).runners = [e.actor] :=
  h.executions e (List.mem_append_right _ (List.mem_singleton_self e))

theorem Linked.fail {w : World} {e : Execution} (h : Linked (held w e)) (message : String) :
    Linked (failExecution w e message) := by
  have hjob := h.drop.updateJob e.jobId
    (f := fun j => { j with status := .failed, errorText := some message, results := e.stepResults })
    (fun _ => ⟨rfl, rfl⟩) (fun _ => rfl) fun _ hstatus => nomatch hstatus
  exact (hjob.setTenantStatus e.tenantId .error).logged (fun _ _ => rfl) trivial

theorem Linked.complete {w : World} {e : Execution} (h : Linked (held w e)) :
    Linked (completeExecution w e) := by
  have hjob := h.drop.updateJob e.jobId
    (f := fun j => { j with status := .completed, errorText := none, results := e.stepResults })
    (fun _ => ⟨rfl, rfl⟩) (fun _ => rfl) fun _ hstatus => nomatch hstatus
  exact (hjob.setTenantStatus e.tenantId (completedTenantStatus e)).logged (fun _ _ => rfl) trivial

theorem Linked.await {w : World} {e : Execution} (hsound : Sound (held w e))
    (h : Linked (held w e)) : Linked (awaitStep w e) := by
  obtain ⟨job, hrow, -, -, -, hcleared⟩ := hsound.heldJob
  have happrover : (history e.jobId w.records).approver = job.approvedBy :=
    (h.rows e.jobId job hrow).1
  have hallowed : Allowed w.jobs w.records
      (.stepRunning e.jobId e.actor e.step.key e.step.title) := by
    refine ⟨h.runners, job, hrow, ?_⟩
    rw [happrover]
    exact hcleared
  have hrecorded : Linked
      (held (w.record (.stepRunning e.jobId e.actor e.step.key e.step.title)) e) :=
    h.logged (fun _ _ => rfl) hallowed
  unfold awaitStep
  dsimp only
  split
  · exact hrecorded.fail _
  · exact hrecorded

theorem Linked.begin {env : Environment} {w : World} {e : Execution} {job : ProvisionJob}
    {tenant : Tenant} (hsound : Sound w) (h : Linked w) (hstart : Startable w e job tenant) :
    Linked (held (beginExecution env w e) e) := by
  obtain ⟨happrover, hunused⟩ := h.rows e.jobId job hstart.row
  have hunused := hunused hstart.status
  have hnote : note e.jobId (history e.jobId w.records) (.started e.jobId e.actor e.dryRun) =
      ⟨job.approvedBy, [e.actor]⟩ := by
    rw [note_started_self, hunused, happrover, List.nil_append]
  have hallowed : Allowed w.jobs w.records (.started e.jobId e.actor e.dryRun) := by
    refine ⟨hunused, job, hstart.row, ?_⟩
    rw [happrover]
    exact hstart.cleared
  have hstarted : Linked ((w.updateJob e.jobId (begun env)).record
      (.started e.jobId e.actor e.dryRun)) := by
    refine h.relogged hstart.row (hsound.idle hstart.row hstart.idle) ?_
      (fun i hist hi => note_started_ne hi hist _ _) hallowed ?_
    · exact fun _ => ⟨rfl, rfl⟩
    · rw [hnote]
      exact ⟨rfl, fun hstatus => nomatch hstatus⟩
  have hbegun : Linked (beginExecution env w e) :=
    ⟨hstarted.fresh, hstarted.rows, hstarted.executions, hstarted.compliant⟩
  refine hbegun.hold ?_
  show (history e.jobId (w.records ++ [.started e.jobId e.actor e.dryRun])).runners = [e.actor]
  rw [history_snoc, hnote]

theorem Linked.resume {w : World} {e : Execution} (hsound : Sound (held w e))
    (h : Linked (held w e)) (outcome : StepOutcome) : Linked (resumeExecution w e outcome) := by
  cases outcome with
  | threw message => exact h.fail message
  | result code skipped stdout stderr =>
    have hlogged : Linked (held (w.record
        (if skipped then .stepSkipped e.jobId e.step.key else .stepCompleted e.jobId e.step.key)) e) := by
      cases skipped with
      | true => exact h.logged (fun _ _ => rfl) trivial
      | false => exact h.logged (fun _ _ => rfl) trivial
    unfold resumeExecution
    dsimp only
    split
    · exact Linked.complete (hlogged.drop.hold hlogged.runners)
    · refine Linked.await (Sound.again (e := e) ?_ rfl rfl rfl rfl)
        (hlogged.drop.hold hlogged.runners)
      exact ⟨hsound.running, hsound.single, hsound.tenants⟩

theorem Linked.release {w : World} {i : Nat} {e : Execution} (h : Linked w)
    (hrow : w.executions[i]? = some e) :
    Linked (held { w with executions := w.executions.eraseIdx i } e) := by
  refine ⟨h.fresh, h.rows, ?_, h.compliant⟩
  intro e' he'
  rcases List.mem_append.mp he' with he' | he'
  · exact h.executions e' (List.mem_of_mem_eraseIdx he')
  · rw [List.mem_singleton.mp he']
    exact h.executions e (List.mem_of_getElem? hrow)

/-! ### The rule -/

theorem linked_step {env : Environment} {w w' : World} {ev : Event} (hsound : Sound w)
    (h : Linked w) (hstep : step env w ev = some w') : Linked w' := by
  cases step_stepped hstep with
  | refused => exact h
  | @queued added job logged pending status approver tenant =>
    have hinserted : Linked { w with tenants := w.tenants ++ added, jobs := w.jobs ++ [job] } := by
      refine ⟨?_, ?_, h.executions, h.compliant.mono fun _ _ => allowed_mono ?_⟩
      · intro id hid
        rw [List.length_append] at hid
        exact h.fresh id (by omega)
      · intro id j hj
        rcases Nat.lt_or_ge id w.jobs.length with hid | hid
        · rw [List.getElem?_append_left hid] at hj
          exact h.rows id j hj
        · rw [List.getElem?_append_right hid] at hj
          obtain rfl := List.mem_singleton.mp (List.mem_of_getElem? hj)
          rw [h.fresh id hid, approver]
          exact ⟨rfl, fun _ => rfl⟩
      · intro id j hj
        refine ⟨j, ?_, rfl, rfl⟩
        rw [List.getElem?_append_left (List.getElem?_eq_some_iff.mp hj).1]
        exact hj
    exact hinserted.logged (fun _ _ => rfl) trivial
  | approved row idle =>
    refine h.relogged row (hsound.idle row idle) ?_
      (fun i hist hi => note_approved_ne hi hist _ _) trivial ?_
    · exact fun _ => ⟨rfl, rfl⟩
    · rw [note_approved_self]
      exact ⟨rfl, fun _ => rfl⟩
  | @withdrawn id job status record row idle change =>
    have hstatus : status ≠ .approved := by
      rcases change with ⟨_, _, rfl, -⟩ | ⟨_, _, rfl, -⟩
      · intro hstatus
        cases hstatus
      · intro hstatus
        cases hstatus
    have hjob : Linked (w.updateJob id fun j => { j with status := status }) :=
      h.updateJob id (fun _ => ⟨rfl, rfl⟩) (fun _ => rfl) fun _ => hstatus
    rcases change with ⟨_, _, -, rfl⟩ | ⟨_, _, -, rfl⟩
    · exact hjob.logged (fun _ _ => rfl) trivial
    · exact hjob.logged (fun _ _ => rfl) trivial
  | @started e job tenant artifacts start =>
    have hsound : Sound { w with artifacts := artifacts } :=
      ⟨hsound.running, hsound.single, hsound.tenants⟩
    have h : Linked { w with artifacts := artifacts } :=
      ⟨h.fresh, h.rows, h.executions, h.compliant⟩
    have hstart := start.written artifacts
    exact (h.begin hsound hstart).await (hsound.begin hstart)
  | resumed event row => exact (h.release row).resume (hsound.release row) _

/-- Only an approval clears the list of those who started a job. -/
private theorem approved_of_cleared {id : Nat} {records : List Record} {h : JobHistory}
    (hstarted : h.runners ≠ []) (hcleared : (records.foldl (note id) h).runners = []) :
    ∃ actor reason, .approved id actor reason ∈ records := by
  induction records generalizing h with
  | nil => exact absurd hcleared hstarted
  | cons r records ih =>
    by_cases hnote : (note id h r).runners = []
    · cases r with
      | approved job actor reason =>
        by_cases hjob : job = id
        · rw [hjob]
          exact ⟨actor, reason, List.mem_cons_self⟩
        · rw [note_approved_ne hjob] at hnote
          exact absurd hnote hstarted
      | started job actor dryRun =>
        by_cases hjob : job = id
        · rw [hjob, note_started_self] at hnote
          exact absurd hnote (List.append_ne_nil_of_right_ne_nil _ (List.cons_ne_nil _ _))
        · rw [note_started_ne hjob] at hnote
          exact absurd hnote hstarted
      | _ => exact absurd hnote hstarted
    · obtain ⟨actor, reason, hmem⟩ := ih hnote hcleared
      exact ⟨actor, reason, List.mem_cons_of_mem r hmem⟩

/-- In every history of a job: whoever runs a step of it is the only one who started it since
its last approval, and when the job is live its last approver is neither the requester nor the
runner; between two starts of the job there is an approval. -/
theorem live_executions_cleared_once {env : Environment} {trace : List Event} {w : World}
    (hrun : (machine env).run World.empty trace = some w) (id : Nat) (job : ProvisionJob)
    (hrow : w.jobs[id]? = some job) :
    (∀ front back runner key title,
      w.records = front ++ .stepRunning id runner key title :: back →
        (history id front).runners = [runner] ∧ (job.dryRun = false →
          ∃ approver, (history id front).approver = some approver ∧
            approver ≠ job.requestedBy ∧ approver ≠ runner)) ∧
    ∀ front mid back runner runner' dryRun dryRun',
      w.records = front ++ .started id runner dryRun :: mid ++ .started id runner' dryRun' :: back →
        ∃ approver reason, .approved id approver reason ∈ mid := by
  have hpreserved : ∀ s ev s', Sound s ∧ Linked s → True → (machine env).step s ev = some s' →
      Sound s' ∧ Linked s' := by
    intro s ev s' hs _ hstep
    exact ⟨sound_step hs.1 hstep, linked_step hs.1 hs.2 hstep⟩
  have hinv : Sound w ∧ Linked w := Machine.run_invariant hpreserved ⟨sound_empty, linked_empty⟩
    (Machine.Meets.of_forall (fun _ _ => trivial) World.empty trace) hrun
  have hcompliant := hinv.2.compliant
  constructor
  · intro front back runner key title hsplit
    obtain ⟨hrunners, job', hrow', hcleared⟩ := hcompliant front _ back hsplit
    rw [hrow] at hrow'
    obtain rfl := Option.some.inj hrow'
    exact ⟨hrunners, hcleared⟩
  · intro front mid back runner runner' dryRun dryRun' hsplit
    have hsecond := (hcompliant _ _ back hsplit).1
    have hsplit' : front ++ .started id runner dryRun :: mid =
        (front ++ [.started id runner dryRun]) ++ mid := by
      rw [List.append_assoc, List.singleton_append]
    rw [hsplit'] at hsecond
    unfold history at hsecond
    rw [List.foldl_append] at hsecond
    refine approved_of_cleared ?_ hsecond
    have hnote := history_snoc id front (.started id runner dryRun)
    unfold history at hnote
    rw [hnote, note_started_self]
    exact List.append_ne_nil_of_right_ne_nil _ (List.cons_ne_nil _ _)

def sampleLiveTrace : List Event :=
  [.createTenant { sampleBootstrapRequest with dryRun := some false } "ana",
    .transition 0 "ben" .approve "", .execute 0 "cleo" none,
    .resume 0 (.result 0 false "" ""), .resume 0 (.threw "useradd failed"),
    .transition 0 "cleo" .approve "again", .execute 0 "ben" none]

/-- A live job that fails, is approved again and is run by another actor. -/
theorem live_executions_cleared_once_sample : ∃ w job,
    (machine sampleEnvironment).run World.empty sampleLiveTrace = some w ∧
      w.jobs[0]? = some job ∧ job.dryRun = false ∧
      (w.records.filterMap fun | .stepRunning _ runner _ _ => some runner | _ => none) =
        ["cleo", "cleo", "ben"] ∧
      ((∀ front back runner key title,
        w.records = front ++ .stepRunning 0 runner key title :: back →
          (history 0 front).runners = [runner] ∧ (job.dryRun = false →
            ∃ approver, (history 0 front).approver = some approver ∧
              approver ≠ job.requestedBy ∧ approver ≠ runner)) ∧
      ∀ front mid back runner runner' dryRun dryRun',
        w.records = front ++ .started 0 runner dryRun :: mid ++ .started 0 runner' dryRun' :: back →
          ∃ approver reason, .approved 0 approver reason ∈ mid) := by
  have hran : ((machine sampleEnvironment).run World.empty sampleLiveTrace).any (fun w =>
      w.jobs[0]?.any (fun job => job.dryRun = false) &&
        (w.records.filterMap fun | .stepRunning _ runner _ _ => some runner | _ => none) ==
          ["cleo", "cleo", "ben"]) = true := by
    decide +kernel
  obtain ⟨w, hrun, hw⟩ := (Option.any_eq_true ..).mp hran
  obtain ⟨hjob, hrunners⟩ := (Bool.and_eq_true _ _).mp hw
  obtain ⟨job, hrow, hlive⟩ := (Option.any_eq_true ..).mp hjob
  exact ⟨w, job, hrun, hrow, of_decide_eq_true hlive, eq_of_beq hrunners,
    live_executions_cleared_once hrun 0 job hrow⟩

end MissionControl.Provisioning.TwoPerson
