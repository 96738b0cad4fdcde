import MissionControl.Pipelines.SpawnOnce

/-!
The shape of a stored run when handlers do not overlap. Between two handlers the steps around
the current one tell what the status of the run says; while a handler is suspended the same
holds of the row that it is about to leave.
-/

set_option autoImplicit false
set_option relaxedAutoImplicit false

namespace MissionControl.Pipelines.SerialShape

open MissionControl.Foundations.Transition
open MissionControl.Foundations.Lists
open Run Handlers HandlerSteps SpawnOnce

/-- Each handler runs to completion before the next event, and every spawn succeeds. -/
def Serial (w : World) : Event → Prop
  | .resume _ outcome _ => SpawnOutcome.raised outcome = false
  | _ => w.suspended = []

instance decidableSerial (w : World) : DecidablePred (Serial w)
  | .resume _ outcome _ => inferInstanceAs (Decidable (SpawnOutcome.raised outcome = false))
  | .advance .. | .cancel _ | .exit .. | .error .. | .editTemplates _ =>
    inferInstanceAs (Decidable (w.suspended = []))

/-- The step at `i` was passed: it completed, or it failed and its policy is to continue. -/
def Passed (steps : List RunStepState) (i : Nat) : Prop :=
  statusAt steps i = some .completed ∨
    (statusAt steps i = some .failed ∧ onFailureAt steps i = .continue)

/-- The steps of a running run around the current one. -/
structure InProgress (steps : List RunStepState) (cur : Nat) : Prop where
  here : statusAt steps cur = some .running
  before : ∀ i, i < cur → Passed steps i
  after : ∀ i, cur < i → i < steps.length → statusAt steps i = some .pending

structure Shape (run : PipelineRun) : Prop where
  running : run.status = .running → InProgress run.stepsSnapshot run.currentStep
  completed : run.status = .completed →
    ∀ i, i < run.stepsSnapshot.length → statusAt run.stepsSnapshot i = some .completed
  completedWithErrors : run.status = .completedWithErrors →
    (∀ i, i < run.stepsSnapshot.length →
      statusAt run.stepsSnapshot i = some .completed ∨ statusAt run.stepsSnapshot i = some .failed) ∧
    ∃ i, statusAt run.stepsSnapshot i = some .failed
  failed : run.status = .failed →
    statusAt run.stepsSnapshot run.currentStep = some .failed ∧
    onFailureAt run.stepsSnapshot run.currentStep = .stop ∧
    ∀ i, run.currentStep < i → i < run.stepsSnapshot.length →
      statusAt run.stepsSnapshot i = some .skipped
  cancelled : run.status = .cancelled →
    ∀ i, statusAt run.stepsSnapshot i ≠ some .running ∧ statusAt run.stepsSnapshot i ≠ some .pending

/-- The row that the handler `p` is about to leave. -/
def rowAfter (w : World) (p : Suspended) : PipelineRun := movedRow w.run p.stepIdx p.steps

structure Shaped (w : World) : Prop where
  idle : w.suspended = [] → Shape w.run
  busy : ∀ p rest, w.suspended = p :: rest → rest = [] ∧ Shape (rowAfter w p) ∧
    (p.caller ≠ .advanceRun → w.run.currentStep = p.stepIdx ∧
      ∀ r, p.point = .result r → w.run.stepsSnapshot = p.steps)

/-- The shape speaks of the status and the policy of steps only. -/
theorem Shape.congr {run : PipelineRun} {steps : List RunStepState} (h : Shape run)
    (hsame : SameSteps run.stepsSnapshot steps) :
    Shape (movedRow run run.currentStep steps) := by
  have hlength := hsame.length
  have hstatus := hsame.status
  have hpolicy := hsame.policy
  constructor
  · intro hrun
    obtain ⟨hhere, hbefore, hafter⟩ := h.running hrun
    refine ⟨(hstatus _).trans hhere, ?_, ?_⟩
    · intro i hi
      unfold Passed
      simp only [movedRow, hstatus, hpolicy]
      exact hbefore i hi
    · intro i hi hlt
      simp only [movedRow, hstatus, hlength] at hlt ⊢
      exact hafter i hi hlt
  · intro hrun
    simp only [movedRow, hstatus, hlength]
    exact h.completed hrun
  · intro hrun
    simp only [movedRow, hstatus, hlength]
    exact h.completedWithErrors hrun
  · intro hrun
    simp only [movedRow, hstatus, hlength, hpolicy]
    exact h.failed hrun
  · intro hrun
    simp only [movedRow, hstatus]
    exact h.cancelled hrun

/-- A row whose status is `running` has the shape as soon as its steps have theirs. -/
theorem shape_of_inProgress {run : PipelineRun} (hrun : run.status = .running)
    (h : InProgress run.stepsSnapshot run.currentStep) : Shape run := by
  constructor
  · exact fun _ => h
  all_goals
    intro hother
    rw [hrun] at hother
    cases hother

/-- Only the current step of a running run is running. -/
theorem InProgress.eq_of_running {steps : List RunStepState} {cur i : Nat}
    (h : InProgress steps cur) (hi : statusAt steps i = some .running) : i = cur := by
  have hlt := statusAt_lt _ _ hi
  by_contra hne
  rcases Nat.lt_or_gt_of_ne hne with hbefore | hafter
  · rcases h.before i hbefore with hpassed | ⟨hpassed, -⟩ <;> rw [hi] at hpassed <;> cases hpassed
  · rw [h.after i hafter hlt] at hi
    cases hi

/-! ### One settled step -/

section Settled

variable {steps out : List RunStepState} {idx now : Nat} {success : Bool} {msg : Option String}

/-- A step that is passed over is left completed, or failed with the policy to continue. -/
theorem passed_closeStep (hidx : idx < steps.length)
    (hgo : ¬ (success = false ∧ onFailureAt steps idx = .stop)) :
    Passed (closeStep steps idx success msg now) idx := by
  unfold Passed
  rw [statusAt_closeStep_self _ _ _ _ _ hidx, onFailureAt_closeStep]
  cases success with
  | true => exact .inl rfl
  | false =>
    right
    refine ⟨rfl, ?_⟩
    cases hpolicy : onFailureAt steps idx with
    | stop => exact absurd ⟨rfl, hpolicy⟩ hgo
    | «continue» => rfl

theorem passed_closeStep_of_ne {i : Nat} (hne : i ≠ idx) (h : Passed steps i) :
    Passed (closeStep steps idx success msg now) i := by
  unfold Passed
  rw [statusAt_closeStep_of_ne _ _ _ _ _ _ hne, onFailureAt_closeStep]
  exact h

theorem inProgress_moved (h : InProgress steps idx)
    (hv : settle steps idx success msg now = .moved out) : InProgress out (idx + 1) := by
  obtain ⟨hgo, hnext, rfl⟩ := settle_moved hv
  have hlen : (closeStep steps idx success msg now).length = steps.length :=
    length_closeStep ..
  refine ⟨statusAt_startStep_self _ _ _ (by omega), ?_, ?_⟩
  · intro i hi
    have hpassed : Passed (closeStep steps idx success msg now) i := by
      by_cases hlast : i = idx
      · subst hlast
        exact passed_closeStep (by omega) hgo
      · exact passed_closeStep_of_ne hlast (h.before i (by omega))
    unfold Passed
    rw [statusAt_startStep_of_ne _ _ _ _ (by omega), onFailureAt_startStep]
    exact hpassed
  · intro i hi hlt
    rw [length_startStep, hlen] at hlt
    rw [statusAt_startStep_of_ne _ _ _ _ (by omega),
      statusAt_closeStep_of_ne _ _ _ _ _ _ (by omega)]
    exact h.after i (by omega) hlt

theorem shape_stopped {run : PipelineRun} (h : InProgress run.stepsSnapshot idx)
    (hv : settle run.stepsSnapshot idx success msg now = .stopped out) :
    Shape (endedRow run .failed idx out now) := by
  obtain ⟨hfail, hstop, rfl⟩ := settle_stopped hv
  have hidx := statusAt_lt _ _ h.here
  constructor
  · intro hother
    cases hother
  · intro hother
    cases hother
  · intro hother
    cases hother
  · intro _
    refine ⟨?_, ?_, ?_⟩
    · show statusAt (skipFrom _ (idx + 1)) idx = some .failed
      rw [statusAt_skipFrom_of_lt _ _ _ (by omega), statusAt_closeStep_self _ _ _ _ _ hidx, hfail]
      rfl
    · show onFailureAt (skipFrom _ (idx + 1)) idx = .stop
      rw [onFailureAt_skipFrom, onFailureAt_closeStep]
      exact hstop
    · intro i hi hlt
      have hlen : i < (closeStep run.stepsSnapshot idx success msg now).length := by
        simpa [endedRow] using hlt
      exact statusAt_skipFrom_of_le _ _ _ hi hlen
  · intro hother
    cases hother

theorem any_failed_iff (steps : List RunStepState) :
    steps.any (·.status = .failed) = true ↔ ∃ i, statusAt steps i = some .failed := by
  rw [List.any_eq_true]
  constructor
  · rintro ⟨s, hs, hfailed⟩
    obtain ⟨i, hi⟩ := List.mem_iff_getElem?.mp hs
    refine ⟨i, ?_⟩
    unfold statusAt
    rw [hi]
    exact congrArg some (of_decide_eq_true hfailed)
  · rintro ⟨i, hi⟩
    obtain ⟨s, hs, hfailed⟩ := Option.map_eq_some_iff.mp hi
    exact ⟨s, List.mem_of_getElem? hs, decide_eq_true hfailed⟩

theorem shape_finished {run : PipelineRun} {final : RunStatus}
    (h : InProgress run.stepsSnapshot idx)
    (hv : settle run.stepsSnapshot idx success msg now = .finished final out) :
    Shape (endedRow run final idx out now) := by
  obtain ⟨hgo, hlast, hout, hfinal⟩ := settle_finished hv
  have hidx := statusAt_lt _ _ h.here
  have hpassed : ∀ i, i < out.length → Passed out i := by
    intro i hi
    rw [hout] at hi ⊢
    rw [length_closeStep] at hi
    by_cases heq : i = idx
    · subst heq
      exact passed_closeStep hidx hgo
    · exact passed_closeStep_of_ne heq (h.before i (by omega))
  have hstatus : (endedRow run final idx out now).status = final := rfl
  by_cases hany : out.any (·.status = .failed) = true
  · rw [if_pos hany] at hfinal
    subst hfinal
    constructor
    · intro hother
      cases hother
    · intro hother
      cases hother
    · intro _
      refine ⟨?_, (any_failed_iff out).mp hany⟩
      intro i hi
      exact (hpassed i hi).imp id And.left
    · intro hother
      cases hother
    · intro hother
      cases hother
  · rw [if_neg hany] at hfinal
    subst hfinal
    constructor
    · intro hother
      cases hother
    · intro _ i hi
      rcases hpassed i hi with hdone | ⟨hfailed, -⟩
      · exact hdone
      · exact absurd ((any_failed_iff out).mpr ⟨i, hfailed⟩) hany
    · intro hother
      cases hother
    · intro hother
      cases hother
    · intro hother
      cases hother

end Settled

theorem statusAt_cancelStep (steps : List RunStepState) (now i : Nat) :
    statusAt (steps.map (cancelStep now)) i ≠ some .running ∧
      statusAt (steps.map (cancelStep now)) i ≠ some .pending := by
  unfold statusAt
  rw [List.getElem?_map]
  cases steps[i]? with
  | none => simp
  | some s =>
    show some (cancelStep now s).status ≠ some .running ∧
      some (cancelStep now s).status ≠ some .pending
    unfold cancelStep
    cases hs : s.status <;> simp [hs]

theorem shape_cancelled (run : PipelineRun) (now : Nat) : Shape (cancelledRow run now) := by
  constructor
  · intro hother
    cases hother
  · intro hother
    cases hother
  · intro hother
    cases hother
  · intro hother
    cases hother
  · intro _ i
    exact statusAt_cancelStep run.stepsSnapshot now i

/-! ### The step lemma -/

private theorem shaped_idle {w : World} (hs : w.suspended = []) (h : Shape w.run) :
    Shaped w := by
  refine ⟨fun _ => h, ?_⟩
  intro p rest hcons
  rw [hs] at hcons
  cases hcons

private theorem shaped_reported {w w' : World} {caller : Caller} {idx now : Nat}
    {success : Bool} {msg : Option String} (h : Shaped w) (hidle : w.suspended = [])
    (heffect : Reported w caller idx success msg now w') : Shaped w' := by
  have hshape := h.idle hidle
  -- an awaited step is the current one
  have hhere : Awaited w.run idx → InProgress w.run.stepsSnapshot idx := by
    intro hawaited
    have hprogress := hshape.running hawaited.1
    rw [hprogress.eq_of_running hawaited.2]
    exact hprogress
  cases heffect with
  | ignored guard same =>
    refine shaped_idle (same.suspended.trans hidle) ?_
    rw [same.run]
    exact hshape
  | ended guard verdict run suspended children =>
    refine shaped_idle (suspended.trans hidle) ?_
    rw [run]
    generalize hv : settle w.run.stepsSnapshot idx success msg now = v at verdict
    cases verdict with
    | stopped => exact shape_stopped (hhere guard) hv
    | finished => exact shape_finished (hhere guard) hv
  | @called steps p guard verdict template frame run suspended children =>
    have hsuspended : w'.suspended = [p] := by
      rw [suspended, hidle]
      rfl
    have hmoved : Shape (movedRow w.run (idx + 1) steps) :=
      shape_of_inProgress guard.1 (inProgress_moved (hhere guard) verdict)
    obtain ⟨hcaller, hpoint, hsteps, hidx, -⟩ := frame
    refine ⟨?_, ?_⟩
    · intro hnil
      rw [hsuspended] at hnil
      cases hnil
    · intro q rest hcons
      rw [hsuspended] at hcons
      obtain ⟨rfl, rfl⟩ := List.cons.inj hcons
      refine ⟨rfl, ?_, ?_⟩
      · unfold rowAfter
        rw [hsteps, hidx, run]
        split <;> exact hmoved
      · intro hne
        rw [hcaller] at hne
        refine ⟨?_, ?_⟩
        · rw [run, if_neg hne, hidx]
          rfl
        · intro r hr
          rw [hpoint] at hr
          cases hr
  | unspawned guard verdict template run suspended children =>
    refine shaped_idle (suspended.trans hidle) ?_
    rw [run]
    exact shape_of_inProgress guard.1 (inProgress_moved (hhere guard) verdict)

private theorem shaped_resumed {w w' : World} {i now : Nat} {p : Suspended}
    {outcome : SpawnOutcome} (h : Shaped w) (hraised : SpawnOutcome.raised outcome = false)
    (hp : w.suspended[i]? = some p) (heffect : Resumed w i p outcome now w') : Shaped w' := by
  -- the handler that is resumed is the only one
  obtain ⟨hone, hidx⟩ : w.suspended = [p] ∧ i = 0 := by
    cases hs : w.suspended with
    | nil =>
      rw [hs] at hp
      cases hp
    | cons q rest =>
      obtain ⟨rfl, -⟩ := h.busy q rest hs
      rw [hs] at hp
      cases i with
      | zero =>
        obtain rfl := Option.some.inj hp
        exact ⟨rfl, rfl⟩
      | succ i => cases hp
  subst hidx
  obtain ⟨-, hshape, hcaller⟩ := h.busy p [] hone
  have hgo : ¬ failsRun p outcome := by
    rintro ⟨hother, -⟩
    rw [hraised] at hother
    cases hother
  have hspawned : ∀ {steps : List RunStepState}, SpawnStepped w p outcome now w' steps →
      w'.run = movedRow w.run w.run.currentStep steps ∧
        Shape (movedRow w.run p.stepIdx steps) := by
    intro steps hspawn
    refine ⟨by rw [hspawn.run, if_neg hgo], ?_⟩
    exact hshape.congr (hspawn.same hraised)
  cases heffect with
  | dropped point caller spawn suspended =>
    obtain ⟨hrun, hrow⟩ := hspawned spawn
    refine shaped_idle (by rw [suspended, hone]; rfl) ?_
    rw [hrun, (hcaller (by rw [caller]; decide)).1]
    exact hrow
  | @returned steps r point caller spawn suspended =>
    obtain ⟨hrun, hrow⟩ := hspawned spawn
    have hsuspended : w'.suspended = [{ p with point := .result r, steps := steps }] := by
      rw [suspended, hone]
      rfl
    refine ⟨?_, ?_⟩
    · intro hnil
      rw [hsuspended] at hnil
      cases hnil
    · intro q rest hcons
      rw [hsuspended] at hcons
      obtain ⟨rfl, rfl⟩ := List.cons.inj hcons
      refine ⟨rfl, ?_, ?_⟩
      · unfold rowAfter
        rw [hrun]
        exact hrow
      · intro hne
        rw [hrun]
        exact ⟨(hcaller hne).1, fun _ _ => rfl⟩
  | wroteBack point caller run suspended children =>
    refine shaped_idle (by rw [suspended, hone]; rfl) ?_
    rw [run]
    exact hshape
  | @readOnly r point caller run suspended children =>
    refine shaped_idle (by rw [suspended, hone]; rfl) ?_
    obtain ⟨hcurrent, hsteps⟩ := hcaller caller
    have hrow : rowAfter w p = w.run := by
      unfold rowAfter
      rw [← hcurrent, ← hsteps r point]
      rfl
    rw [run, ← hrow]
    exact hshape

private theorem shaped_congr {w w' : World} (h : Shaped w) (hrun : w'.run = w.run)
    (hsuspended : w'.suspended = w.suspended) : Shaped w' := by
  refine ⟨?_, ?_⟩
  · rw [hsuspended, hrun]
    exact h.idle
  · unfold rowAfter
    rw [hsuspended, hrun]
    exact h.busy

theorem shaped_step {cfg : Config} {w w' : World} {e : Event} (h : Shaped w)
    (hserial : Serial w e) (hstep : step cfg w e = some w') : Shaped w' := by
  cases step_stepped hstep with
  | reported report byAdvance caller_ne delivered templates run suspended effect =>
    have hidle : w.suspended = [] := by
      cases e with
      | advance => exact hserial
      | exit => exact hserial
      | error => exact hserial
      | cancel => cases report
      | resume => cases report
      | editTemplates => cases report
    exact shaped_reported (shaped_congr h run suspended) (suspended.trans hidle) effect
  | silent report delivered run suspended => exact shaped_congr h run suspended
  | cancelled event =>
    subst event
    rcases cancelRun_cases w _ with ⟨-, same⟩ | ⟨-, run, suspended, children⟩
    · exact shaped_congr h same.run same.suspended
    · refine shaped_idle (suspended.trans hserial) ?_
      rw [run]
      exact shape_cancelled w.run _
  | resumed event suspended effect =>
    subst event
    exact shaped_resumed h hserial suspended effect

theorem shaped_started {pipeline : Pipeline} {auto : Bool} {w : World}
    (h : Started pipeline auto w) : Shaped w := by
  have hprogress : InProgress w.run.stepsSnapshot 0 := by
    refine ⟨h.first, ?_, ?_⟩
    · intro i hi
      exact absurd hi (by omega)
    · intro i hi hlt
      exact h.rest i hi hlt
  rcases h.suspended with ⟨hnil, -⟩ | ⟨p, hone, hcaller, hpoint, hsteps, hidx, -⟩
  · refine shaped_idle hnil (shape_of_inProgress h.status ?_)
    rw [h.current]
    exact hprogress
  · refine ⟨?_, ?_⟩
    · intro hnil
      rw [hone] at hnil
      cases hnil
    · intro q rest hcons
      rw [hone] at hcons
      obtain ⟨rfl, rfl⟩ := List.cons.inj hcons
      refine ⟨rfl, ?_, ?_⟩
      · unfold rowAfter
        rw [hidx, hsteps]
        exact shape_of_inProgress h.status hprogress
      · intro _
        refine ⟨by rw [h.current, hidx], ?_⟩
        intro r hr
        rw [hpoint] at hr
        cases hr

/-- In every serial run the stored row has its shape between two handlers, whether or not the
templates of its steps still exist. -/
theorem serial_run_has_shape (cfg : Config) (pipeline : Pipeline)
    (templates : List WorkflowTemplate) (request : StartRequest) (runId nowMs : Nat)
    (trace : List Event) (w₀ w : World)
    (hstart : startPipeline pipeline templates request runId nowMs = .ok w₀)
    (hserial : (machine cfg).Meets Serial w₀ trace)
    (hrun : (machine cfg).run w₀ trace = some w) (hidle : w.suspended = []) :
    Shape w.run := by
  have h₀ : Shaped w₀ := shaped_started (startPipeline_started hstart)
  have hkept : ∀ s e s', Shaped s → Serial s e → (machine cfg).step s e = some s' →
      Shaped s' := fun s e s' hs hguard hstep => shaped_step hs hguard hstep
  exact (Machine.run_invariant hkept h₀ hserial hrun).idle hidle

/-- One advance, then a cancellation. -/
theorem serial_run_has_shape_cancelledRun :
    ∃ w, (machine sampleConfig).run (sampleStart 2 none) cancelledRun = some w ∧
      w.run.status = .cancelled ∧ Shape w.run :=
  ⟨_, rfl, rfl, serial_run_has_shape sampleConfig (samplePipeline 2 none) [sampleTemplate]
    sampleRequest 1 0 cancelledRun (sampleStart 2 none) _ rfl (by decide) rfl rfl⟩

end MissionControl.Pipelines.SerialShape
