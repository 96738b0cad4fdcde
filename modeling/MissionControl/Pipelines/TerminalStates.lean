import MissionControl.Pipelines.SpawnOnce

/-!
When the end of a run is final. Every handler writes its copy of the steps back without
looking at the status of the run again, so an event that ends the run must find no handler
that writes later. From then on only flags of children change.
-/

set_option autoImplicit false
set_option relaxedAutoImplicit false

namespace MissionControl.Pipelines.TerminalStates

open MissionControl.Foundations.Transition
open MissionControl.Foundations.Lists
open Run Handlers HandlerSteps SpawnOnce

/-- The event reports a step that the run waits for, and the report stops or finishes the run. -/
def Settles (w : World) (e : Event) : Prop :=
  ∃ report ∈ reports w e, Awaited w.run report.1 ∧
    (report.2 = false ∧ onFailureAt w.run.stepsSnapshot report.1 = .stop ∨
      w.run.stepsSnapshot.length ≤ report.1 + 1)

/-- The event ends the run: a cancellation, the report of a step that stops or finishes the
run, or a failed spawn whose policy is to stop. -/
def EndsRun (w : World) : Event → Prop
  | .cancel _ => w.run.status = .running ∨ w.run.status = .pending
  | .resume i outcome _ =>
    ∃ p ∈ w.suspended[i]?, p.point = .imports ∧ failsRun p outcome
  | e => Settles w e

instance decidableSettles (w : World) (e : Event) : Decidable (Settles w e) :=
  inferInstanceAs (Decidable (∃ report ∈ reports w e, _))

instance decidableEndsRun (w : World) : DecidablePred (EndsRun w)
  | .cancel _ => inferInstanceAs (Decidable (w.run.status = .running ∨ w.run.status = .pending))
  | .resume i outcome _ =>
    inferInstanceAs (Decidable (∃ p ∈ w.suspended[i]?, p.point = .imports ∧ failsRun p outcome))
  | .advance success errorMsg nowMs => decidableSettles w (.advance success errorMsg nowMs)
  | .exit k code nowMs => decidableSettles w (.exit k code nowMs)
  | .error k message gone nowMs => decidableSettles w (.error k message gone nowMs)
  | .editTemplates templates => decidableSettles w (.editTemplates templates)

/-- The handlers that have still to write their copy of the steps after the event. -/
def writesLater (w : World) : Event → List Suspended
  | .resume i _ _ =>
    (w.suspended.eraseIdx i).filter Suspended.writes ++
      ((w.suspended[i]?).filter fun p => p.point = .imports ∧ p.caller = .advanceRun).toList
  | _ => inFlight w

/-- An event that ends the run leaves no handler behind that writes later. -/
def EndsAlone (w : World) (e : Event) : Prop := EndsRun w e → writesLater w e = []

instance (w : World) (e : Event) : Decidable (EndsAlone w e) :=
  inferInstanceAs (Decidable (_ → _))

/-- Nobody writes to a run that has ended. -/
def Quiet (w : World) : Prop := w.run.status.Terminal → inFlight w = []

/-- Nothing that the end of a run settles has changed from `w` to `w'`. -/
structure Frozen (w w' : World) : Prop where
  status : w'.run.status = w.run.status
  current : w'.run.currentStep = w.run.currentStep
  steps : ∀ i, statusAt w'.run.stepsSnapshot i = statusAt w.run.stepsSnapshot i
  children : w'.children.length = w.children.length

theorem Frozen.of_run {w w' : World} (hrun : w'.run = w.run)
    (hchildren : w'.children.length = w.children.length) : Frozen w w' := by
  refine ⟨?_, ?_, ?_, hchildren⟩
  · rw [hrun]
  · rw [hrun]
  · intro i
    rw [hrun]

theorem Frozen.trans {w w' w'' : World} (h : Frozen w w') (h' : Frozen w' w'') : Frozen w w'' where
  status := h'.status.trans h.status
  current := h'.current.trans h.current
  steps i := (h'.steps i).trans (h.steps i)
  children := h'.children.trans h.children

theorem Delivered.length_eq {w : World} {e : Event} {children : List Child}
    (h : Delivered w e children) : children.length = w.children.length := by
  cases h with
  | none => rfl
  | flag => exact List.length_set

/-- A handler that has still to write keeps the run from having ended. -/
theorem Quiet.not_terminal {w : World} (h : Quiet w) {i : Nat} {p : Suspended}
    (hp : w.suspended[i]? = some p) (hw : p.writes = true) : ¬ w.run.status.Terminal := by
  intro hterminal
  have hmem : p ∈ inFlight w := List.mem_filter.mpr ⟨List.mem_of_getElem? hp, hw⟩
  rw [h hterminal] at hmem
  cases hmem

/-! ### One event -/

/-- What one event keeps: the run stays quiet, and it is frozen if it had ended. -/
def Kept (w w' : World) : Prop := Quiet w' ∧ (w.run.status.Terminal → Frozen w w')

private theorem kept_of_run {w w' : World} (h : Quiet w) (hrun : w'.run = w.run)
    (hflight : inFlight w' = inFlight w)
    (hchildren : w'.children.length = w.children.length) : Kept w w' := by
  refine ⟨?_, fun _ => Frozen.of_run hrun hchildren⟩
  intro hterminal
  rw [hrun] at hterminal
  rw [hflight]
  exact h hterminal

/-- A run that goes on owes nothing yet. -/
private theorem kept_of_open {w w' : World} (h : ¬ w.run.status.Terminal)
    (hstatus : w'.run.status = w.run.status) : Kept w w' := by
  refine ⟨?_, fun hterminal => absurd hterminal h⟩
  intro hterminal
  rw [hstatus] at hterminal
  exact absurd hterminal h

/-- A run that ends here must have no handler in flight any more. -/
private theorem kept_of_end {w w' : World} (h : ¬ w.run.status.Terminal)
    (hflight : inFlight w' = []) : Kept w w' :=
  ⟨fun _ => hflight, fun hterminal => absurd hterminal h⟩

theorem not_terminal_of_running {run : PipelineRun} (h : run.status = .running) :
    ¬ run.status.Terminal := by
  rw [h]
  exact id

private theorem ends_of_verdict {steps out : List RunStepState} {idx now : Nat} {success : Bool}
    {msg : Option String} {final : RunStatus}
    (h : Ends (settle steps idx success msg now) final out) :
    success = false ∧ onFailureAt steps idx = .stop ∨ steps.length ≤ idx + 1 := by
  generalize hv : settle steps idx success msg now = v at h
  cases h with
  | stopped =>
    obtain ⟨hfail, hstop, -⟩ := settle_stopped hv
    exact .inl ⟨hfail, hstop⟩
  | finished =>
    obtain ⟨-, hlast, -⟩ := settle_finished hv
    exact .inr hlast

private theorem endsRun_of_reports {w : World} {e : Event} {report : Nat × Bool}
    (hreport : reports w e = some report) (hawaited : Awaited w.run report.1)
    (hends : report.2 = false ∧ onFailureAt w.run.stepsSnapshot report.1 = .stop ∨
      w.run.stepsSnapshot.length ≤ report.1 + 1) :
    EndsRun w e ∧ writesLater w e = inFlight w := by
  cases e with
  | advance => exact ⟨⟨report, hreport, hawaited, hends⟩, rfl⟩
  | exit => exact ⟨⟨report, hreport, hawaited, hends⟩, rfl⟩
  | error => exact ⟨⟨report, hreport, hawaited, hends⟩, rfl⟩
  | cancel => cases hreport
  | resume => cases hreport
  | editTemplates => cases hreport

private theorem kept_reported {w w₁ w' : World} {e : Event} {caller : Caller} {idx now : Nat}
    {success : Bool} {msg : Option String} (h : Quiet w) (hguard : EndsAlone w e)
    (hreport : reports w e = some (idx, success)) (hrun : w₁.run = w.run)
    (hsuspended : w₁.suspended = w.suspended)
    (hchildren : w₁.children.length = w.children.length)
    (heffect : Reported w₁ caller idx success msg now w') : Kept w w' := by
  cases heffect with
  | ignored guard same =>
    refine kept_of_run h (same.run.trans hrun) ?_ ?_
    · exact inFlight_eq_of_suspended (same.suspended.trans hsuspended)
    · rw [same.children]
      exact hchildren
  | ended guard verdict run suspended children =>
    rw [hrun] at guard verdict
    have hends := ends_of_verdict verdict
    obtain ⟨hendsRun, hlater⟩ := endsRun_of_reports hreport guard hends
    have hempty : inFlight w = [] := hlater.symm.trans (hguard hendsRun)
    refine kept_of_end (not_terminal_of_running guard.1) ?_
    rw [inFlight_eq_of_suspended (suspended.trans hsuspended)]
    exact hempty
  | called guard verdict template frame run suspended children =>
    rw [hrun] at guard
    refine kept_of_open (not_terminal_of_running guard.1) ?_
    rw [run, hrun]
    split <;> rfl
  | unspawned guard verdict template run suspended children =>
    rw [hrun] at guard
    refine kept_of_open (not_terminal_of_running guard.1) ?_
    rw [run, hrun]
    rfl

private theorem kept_resumed {w w' : World} {i nowMs now : Nat} {p : Suspended}
    {outcome : SpawnOutcome} (h : Quiet w) (hguard : EndsAlone w (.resume i outcome nowMs))
    (hp : w.suspended[i]? = some p) (heffect : Resumed w i p outcome now w') : Kept w w' := by
  obtain ⟨pre, post, hsplit, herase, hset⟩ := split_at_index hp
  -- a failing spawn ends the run, so nobody else may be in flight
  have hfails : p.point = .imports → failsRun p outcome →
      (pre ++ post).filter Suspended.writes = [] ∧ p.caller ≠ .advanceRun := by
    intro hpoint hfail
    have hlater := hguard ⟨p, hp, hpoint, hfail⟩
    simp only [writesLater, hp, herase, List.append_eq_nil_iff] at hlater
    refine ⟨hlater.1, ?_⟩
    intro hadvance
    simp [hpoint, hadvance] at hlater
  have hopen : p.writes = true → ¬ w.run.status.Terminal := fun hw => h.not_terminal hp hw
  have hstatus : ∀ {steps : List RunStepState}, SpawnStepped w p outcome now w' steps →
      ¬ failsRun p outcome → w'.run.status = w.run.status := by
    intro steps hspawn hfail
    rw [hspawn.run, if_neg hfail]
    rfl
  cases heffect with
  | dropped point caller spawn suspended =>
    have hnot := hopen (Suspended.writes_of_imports point)
    by_cases hfail : failsRun p outcome
    · refine kept_of_end hnot ?_
      unfold inFlight
      rw [suspended, herase]
      exact (hfails point hfail).1
    · exact kept_of_open hnot (hstatus spawn hfail)
  | returned point caller spawn suspended =>
    have hnot := hopen (Suspended.writes_of_imports point)
    by_cases hfail : failsRun p outcome
    · obtain ⟨hrest, hcaller⟩ := hfails point hfail
      refine kept_of_end hnot ?_
      unfold inFlight
      rw [suspended, hset, List.filter_append, List.filter_cons_of_neg, ← List.filter_append]
      · exact hrest
      · simp [Suspended.writes, hcaller]
    · exact kept_of_open hnot (hstatus spawn hfail)
  | wroteBack point caller run suspended children =>
    refine kept_of_open (hopen (Suspended.writes_of_advance caller)) ?_
    rw [run]
    rfl
  | readOnly point caller run suspended children =>
    have hquiet : p.writes = false := Suspended.not_writes caller point
    refine kept_of_run h run ?_ ?_
    · unfold inFlight
      rw [suspended, herase, hsplit, List.filter_append, List.filter_append,
        List.filter_cons_of_neg (by rw [hquiet]; decide)]
    · rw [children]

theorem kept_step {cfg : Config} {w w' : World} {e : Event} (h : Quiet w)
    (hguard : EndsAlone w e) (hstep : step cfg w e = some w') : Kept w w' := by
  cases step_stepped hstep with
  | reported report byAdvance caller_ne delivered templates run suspended effect =>
    exact kept_reported h hguard report run suspended (Delivered.length_eq delivered) effect
  | silent report delivered run suspended =>
    exact kept_of_run h run (inFlight_eq_of_suspended suspended) (Delivered.length_eq delivered)
  | cancelled event =>
    subst event
    rcases cancelRun_cases w _ with ⟨-, same⟩ | ⟨hopen, run, suspended, children⟩
    · refine kept_of_run h same.run (inFlight_eq_of_suspended same.suspended) ?_
      rw [same.children]
    · have hnot : ¬ w.run.status.Terminal := by
        rcases hopen with hopen | hopen <;> rw [hopen] <;> exact id
      refine kept_of_end hnot ?_
      rw [inFlight_eq_of_suspended suspended]
      exact hguard hopen
  | resumed event suspended effect =>
    subst event
    exact kept_resumed h hguard suspended effect

theorem quiet_started {pipeline : Pipeline} {auto : Bool} {w : World}
    (h : Started pipeline auto w) : Quiet w := by
  intro hterminal
  exact absurd hterminal (not_terminal_of_running h.status)

/-- In every run whose ends leave no handler behind, the first terminal status is final: the
status, the position, the status of every step and the number of children stay as they are. -/
theorem terminal_is_final (cfg : Config) (pipeline : Pipeline)
    (templates : List WorkflowTemplate) (request : StartRequest) (runId nowMs : Nat)
    (front back : List Event) (w₀ w w' : World)
    (hstart : startPipeline pipeline templates request runId nowMs = .ok w₀)
    (halone : (machine cfg).Meets EndsAlone w₀ (front ++ back))
    (hfront : (machine cfg).run w₀ front = some w)
    (hterminal : w.run.status.Terminal)
    (hback : (machine cfg).run w back = some w') : Frozen w w' := by
  have h₀ : Quiet w₀ := quiet_started (startPipeline_started hstart)
  have hkept : ∀ s e s', Quiet s → EndsAlone s e → (machine cfg).step s e = some s' → Kept s s' :=
    fun s e s' hs hguard hstep => kept_step hs hguard hstep
  have hw : Quiet w := Machine.run_invariant
    (fun s e s' hs hguard hstep => (hkept s e s' hs hguard hstep).1) h₀ halone.append_left hfront
  have hrel := Machine.run_relation (R := fun s s' => s.run.status.Terminal → Frozen s s')
    (fun s _ => Frozen.of_run rfl rfl)
    (fun s t r hst htr hs => (hst hs).trans (htr (by rw [(hst hs).status]; exact hs)))
    hkept hw (halone.append_right hfront) hback
  exact hrel hterminal

/-- The exit of its child no longer moves it. -/
theorem terminal_is_final_cancelledRun :
    ∃ w w', (machine sampleConfig).run (sampleStart 2 none) cancelledRun = some w ∧
      (machine sampleConfig).run w [.exit 1 (some 0) 4000] = some w' ∧
      w.run.status = .cancelled ∧ Frozen w w' :=
  ⟨_, _, rfl, rfl, rfl, terminal_is_final sampleConfig (samplePipeline 2 none) [sampleTemplate]
    sampleRequest 1 0 cancelledRun [.exit 1 (some 0) 4000] (sampleStart 2 none)
    _ _ rfl (by decide) rfl trivial rfl⟩

/-- The run is cancelled while an advance request waits inside `spawnStep`. -/
def cancelledAdvance : List Event :=
  [.resume 0 (.spawned (some 10)) 1000, .resume 0 (.spawned none) 1000, .advance true none 2000,
    .cancel 2000]

/-- The request spawns a process for the cancelled run and moves it on all the same. -/
theorem cancelled_advance_spawns :
    startPipeline (samplePipeline 2 none) [sampleTemplate] sampleRequest 1 0 =
        .ok (sampleStart 2 none) ∧
      ∃ w w', (machine sampleConfig).run (sampleStart 2 none) cancelledAdvance = some w ∧
        (machine sampleConfig).run w
          [.resume 0 (.spawned (some 11)) 3000, .resume 0 (.spawned none) 3000] = some w' ∧
        w.run.status = .cancelled ∧ ¬ Frozen w w' ∧
        w.children.length = 1 ∧ w'.children.length = 2 ∧
        w.run.currentStep = 0 ∧ w'.run.currentStep = 1 ∧
        statusAt w.run.stepsSnapshot 1 = some .skipped ∧
        statusAt w'.run.stepsSnapshot 1 = some .running :=
  ⟨rfl, _, _, rfl, rfl, rfl, fun h => absurd h.children (by decide), rfl, rfl, rfl, rfl, rfl, rfl⟩

end MissionControl.Pipelines.TerminalStates
