import MissionControl.Pipelines.SpawnOnce

/-!
What keeps an auto-advance run from getting stuck. A running run is attended while the step it
waits for has a child whose exit will settle it. A step without a template and a spawn that
fails under the policy to continue both leave a run that nobody attends.
-/

set_option autoImplicit false
set_option relaxedAutoImplicit false

namespace MissionControl.Pipelines.Progress

open MissionControl.Foundations.Transition
open MissionControl.Foundations.Lists
open MissionControl.Foundations.JsText (seconds)
open Run Handlers HandlerSteps SpawnOnce

/-- A live child settles the step at `idx` when it exits. -/
def Attended (w : World) (idx : Nat) : Prop :=
  ∃ c ∈ w.children, c.stepIdx = idx ∧ c.listening = true ∧ c.autoAdvance = true ∧ c.exited = false

instance (w : World) (idx : Nat) : Decidable (Attended w idx) :=
  inferInstanceAs (Decidable (∃ c ∈ w.children, _))

/-- The step that the event moves the run on to still has its template. -/
def NextTemplate (w : World) (e : Event) : Prop :=
  MovesOn w e → ∀ report ∈ reports w e,
    (w.templateAt w.run.stepsSnapshot (report.1 + 1)).isSome = true

instance (w : World) (e : Event) : Decidable (NextTemplate w e) :=
  inferInstanceAs (Decidable (_ → _))

/-- A spawn fails only for a step whose policy is to stop. -/
def SpawnOrStop (w : World) : Event → Prop
  | .resume i outcome _ => ∀ p ∈ w.suspended[i]?, p.point = .imports →
      SpawnOutcome.raised outcome = true → onFailureAt p.steps p.stepIdx = .stop
  | _ => True

instance decidableSpawnOrStop (w : World) : DecidablePred (SpawnOrStop w)
  | .resume i outcome _ => inferInstanceAs (Decidable (∀ p ∈ w.suspended[i]?, p.point = .imports →
      SpawnOutcome.raised outcome = true → onFailureAt p.steps p.stepIdx = .stop))
  | .advance .. | .cancel _ | .exit .. | .error .. | .editTemplates _ =>
    inferInstanceAs (Decidable True)

/-- The event does not take the last process away from a running run. -/
def Sustains (w : World) (e : Event) : Prop :=
  NoOvertaking w e ∧ NextTemplate w e ∧ SpawnOrStop w e

instance (w : World) (e : Event) : Decidable (Sustains w e) :=
  inferInstanceAs (Decidable (_ ∧ _ ∧ _))

/-- A running run that no handler is about to write waits for an attended step; a handler in
flight brings the run to such a step. -/
structure Progressing (w : World) : Prop where
  auto : w.run.autoAdvance = true
  autoFlying : ∀ p ∈ inFlight w, p.autoAdvance = true
  idle : w.run.status = .running → inFlight w = [] →
    statusAt w.run.stepsSnapshot w.run.currentStep = some .running ∧ Attended w w.run.currentStep
  flying : w.run.status = .running → ∀ p ∈ inFlight w, statusAt p.steps p.stepIdx = some .running
  returned : w.run.status = .running → ∀ p ∈ inFlight w, p.point ≠ .imports →
    w.run.stepsSnapshot = p.steps ∧ Attended w p.stepIdx

/-- Once the run has left `running`, progress asks nothing but its settings. -/
theorem Progressing.ended {w w' : World} (h : Progressing w) (hrun : w'.run.status ≠ .running)
    (hauto : w'.run.autoAdvance = w.run.autoAdvance)
    (hflying : ∀ p ∈ inFlight w', p.autoAdvance = true) : Progressing w' where
  auto := hauto.trans h.auto
  autoFlying := hflying
  idle hr := absurd hr hrun
  flying hr := absurd hr hrun
  returned hr := absurd hr hrun

/-! ### The template of the next step -/

theorem templateAt_moved {w : World} {steps out : List RunStepState} {idx now : Nat}
    {success : Bool} {msg : Option String} (hv : settle steps idx success msg now = .moved out)
    (i : Nat) : w.templateAt out i = w.templateAt steps i := by
  obtain ⟨-, -, rfl⟩ := settle_moved hv
  unfold World.templateAt startStep closeStep
  rw [List.getElem?_modify, List.getElem?_modify]
  cases steps[i]? with
  | none => rfl
  | some s =>
    by_cases hnext : idx + 1 = i
    · by_cases hidx : idx = i <;> simp [hnext, hidx]
    · by_cases hidx : idx = i <;> simp [hnext, hidx]

/-- The template of the first step, as the start request looks it up. -/
def firstTemplate (pipeline : Pipeline) (templates : List WorkflowTemplate) :
    Option WorkflowTemplate :=
  pipeline.steps[0]?.bind fun s => templates.find? (·.id = s.templateId)

theorem templateAt_started {pipeline : Pipeline} {templates : List WorkflowTemplate}
    {request : StartRequest} {runId nowMs : Nat} {w : World}
    (h : startPipeline pipeline templates request runId nowMs = .ok w) :
    w.templateAt w.run.stepsSnapshot 0 = firstTemplate pipeline templates := by
  have hinserted : (insertRun pipeline templates request runId nowMs).templateAt
      (insertRun pipeline templates request runId nowMs).run.stepsSnapshot 0 =
        firstTemplate pipeline templates := by
    simp only [World.templateAt, insertRun, initialSnapshot, firstTemplate, List.getElem?_mapIdx]
    cases pipeline.steps[0]? <;> rfl
  unfold startPipeline at h
  dsimp only at h
  split at h
  · cases h
  · split at h
    · obtain rfl := Except.ok.inj h
      exact hinserted
    · obtain rfl := Except.ok.inj h
      exact hinserted

/-! ### Who attends after an event -/

/-- A child event leaves every other child alone, and reports the step of its own child. -/
theorem attended_of_delivered {w w' : World} {e : Event} {idx : Nat}
    (hdelivered : Delivered w e w'.children) (h : Attended w idx)
    (hreport : ∀ success, reports w e ≠ some (idx, success)) : Attended w' idx := by
  obtain ⟨c, hc, hidx, hlisten, hauto, halive⟩ := h
  unfold Attended
  generalize w'.children = children at hdelivered
  cases hdelivered with
  | none => exact ⟨c, hc, hidx, hlisten, hauto, halive⟩
  | @flag k gone c' hevent hchild halive' =>
    obtain ⟨pre, post, hsplit, -, hset⟩ := split_at_index hchild
    rw [hset]
    rw [hsplit] at hc
    rcases List.mem_append.mp hc with hc | hc
    · exact ⟨c, List.mem_append_left _ hc, hidx, hlisten, hauto, halive⟩
    · rcases List.mem_cons.mp hc with rfl | hc
      · -- the attending child itself would have been reported
        cases e with
        | exit k' code nowMs =>
          obtain ⟨rfl, -⟩ := Prod.mk.inj (Option.some.inj hevent)
          refine absurd ?_ (hreport (code = some 0))
          simp [reports, hchild, hlisten, hauto, hidx]
        | error k' message gone' nowMs =>
          obtain ⟨rfl, -⟩ := Prod.mk.inj (Option.some.inj hevent)
          refine absurd ?_ (hreport false)
          simp [reports, hchild, hlisten, hauto, hidx]
        | advance => cases hevent
        | cancel => cases hevent
        | resume => cases hevent
        | editTemplates => cases hevent
      · refine ⟨c, ?_, hidx, hlisten, hauto, halive⟩
        exact List.mem_append_right _ (List.mem_cons_of_mem _ hc)

/-- An event that acts on nothing keeps progress, provided it took no attending child. -/
private theorem progressing_of_delivered {w w' : World} {e : Event} (h : Progressing w)
    (hdelivered : Delivered w e w'.children) (hrun : w'.run = w.run)
    (hsuspended : w'.suspended = w.suspended)
    (hignored : ∀ idx success, reports w e = some (idx, success) → ¬ Awaited w.run idx) :
    Progressing w' := by
  have hflight : inFlight w' = inFlight w := inFlight_eq_of_suspended hsuspended
  have hkeep : ∀ idx, w.run.status = .running →
      statusAt w.run.stepsSnapshot idx = some .running → Attended w idx → Attended w' idx := by
    intro idx hrunning hstatus hattended
    refine attended_of_delivered hdelivered hattended ?_
    intro success hreport
    exact hignored idx success hreport ⟨hrunning, hstatus⟩
  refine ⟨?_, ?_, ?_, ?_, ?_⟩
  · rw [hrun]
    exact h.auto
  · rw [hflight]
    exact h.autoFlying
  · rw [hrun, hflight]
    intro hrunning hnil
    obtain ⟨hstatus, hattended⟩ := h.idle hrunning hnil
    exact ⟨hstatus, hkeep _ hrunning hstatus hattended⟩
  · rw [hrun, hflight]
    exact h.flying
  · rw [hrun, hflight]
    intro hrunning p hp hpoint
    obtain ⟨hsteps, hattended⟩ := h.returned hrunning p hp hpoint
    refine ⟨hsteps, hkeep _ hrunning ?_ hattended⟩
    rw [hsteps]
    exact h.flying hrunning p hp

private theorem progressing_reported {w w₁ w' : World} {e : Event} {caller : Caller}
    {idx now : Nat} {success : Bool} {msg : Option String} (h : Progressing w)
    (hguard : Sustains w e) (hreport : reports w e = some (idx, success))
    (hdelivered : Delivered w e w₁.children) (htemplates : w₁.templates = w.templates)
    (hrun : w₁.run = w.run) (hsuspended : w₁.suspended = w.suspended)
    (heffect : Reported w₁ caller idx success msg now w') : Progressing w' := by
  obtain ⟨hfree, htemplate, -⟩ := hguard
  have htemplateAt : ∀ steps i, w₁.templateAt steps i = w.templateAt steps i := by
    intro steps i
    unfold World.templateAt World.template?
    rw [htemplates]
  cases heffect with
  | ignored guard same =>
    refine progressing_of_delivered (e := e) h ?_ (same.run.trans hrun) (same.suspended.trans hsuspended) ?_
    · rw [same.children]
      exact hdelivered
    · intro idx' success' hreport'
      rw [hreport] at hreport'
      obtain ⟨rfl, -⟩ := Prod.mk.inj (Option.some.inj hreport')
      rw [hrun] at guard
      exact guard
  | ended guard verdict run suspended children =>
    refine h.ended ?_ ?_ ?_
    · rw [run]
      exact Terminal.ne_running verdict.terminal
    · rw [run, hrun]
      rfl
    · rw [inFlight_eq_of_suspended (suspended.trans hsuspended)]
      exact h.autoFlying
  | @called steps p guard verdict template frame run suspended children =>
    rw [hrun] at guard verdict run frame
    obtain ⟨hgo, hnext, hsteps⟩ := settle_moved verdict
    have hmoves : MovesOn w e := ⟨(idx, success), hreport, guard, hgo, hnext⟩
    have hempty : inFlight w = [] := by
      by_contra hne
      exact hfree hne hmoves
    have hflight : inFlight w' = [p] := by
      unfold inFlight at hempty ⊢
      rw [suspended, hsuspended, List.filter_append, hempty, List.nil_append]
      simp [Suspended.writes_of_imports frame.2.1]
    have hauto : w'.run.autoAdvance = true := by
      rw [run]
      split <;> exact h.auto
    refine ⟨hauto, ?_, ?_, ?_, ?_⟩
    · rw [hflight]
      intro q hq
      obtain rfl := List.mem_singleton.mp hq
      exact frame.2.2.2.2.trans h.auto
    · intro _ hnil
      rw [hflight] at hnil
      cases hnil
    · rw [hflight]
      intro _ q hq
      obtain rfl := List.mem_singleton.mp hq
      rw [frame.2.2.1, frame.2.2.2.1, hsteps]
      exact statusAt_startStep_self _ _ _ (by rw [length_closeStep]; exact hnext)
    · rw [hflight]
      intro _ q hq hpoint
      obtain rfl := List.mem_singleton.mp hq
      exact absurd frame.2.1 hpoint
  | @unspawned steps guard verdict template run suspended children =>
    rw [hrun] at guard verdict
    obtain ⟨hgo, hnext, -⟩ := settle_moved verdict
    have hmoves : MovesOn w e := ⟨(idx, success), hreport, guard, hgo, hnext⟩
    have hsome := htemplate hmoves _ hreport
    rw [htemplateAt, templateAt_moved verdict] at template
    rw [template] at hsome
    cases hsome

/-- A spawn after which the run still runs has put a live child on the step of its handler. -/
private theorem spawned_attended {w w' : World} {i now nowMs : Nat} {p : Suspended}
    {outcome : SpawnOutcome} {steps : List RunStepState} (h : Progressing w)
    (hguard : SpawnOrStop w (.resume i outcome nowMs)) (hp : w.suspended[i]? = some p)
    (hmem : p ∈ inFlight w) (hpoint : p.point = .imports)
    (hspawn : SpawnStepped w p outcome now w' steps) (hrunning : w'.run.status = .running) :
    w'.run = movedRow w.run w.run.currentStep steps ∧ w.run.status = .running ∧
      statusAt steps p.stepIdx = some .running ∧ Attended w' p.stepIdx := by
  have hauto := h.autoFlying p hmem
  have hrow := hspawn.run
  have hgo : ¬ failsRun p outcome := by
    intro hfails
    rw [if_pos hfails] at hrow
    rw [hrow] at hrunning
    cases hrunning
  have hraised : SpawnOutcome.raised outcome = false := by
    cases hr : SpawnOutcome.raised outcome with
    | false => rfl
    | true => exact absurd ⟨hr, hauto, hguard p hp hpoint hr⟩ hgo
  rw [if_neg hgo] at hrow
  rw [hrow] at hrunning
  have hstatus := (hspawn.same hraised).status p.stepIdx
  refine ⟨hrow, hrunning, hstatus.trans (h.flying hrunning p hmem), ?_⟩
  rcases hspawn.children with ⟨-, c, hc, hchildren⟩ | ⟨hcreated, -⟩
  · refine ⟨c, ?_, hc.stepIdx, ?_, hc.autoAdvance.trans hauto, hc.exited⟩
    · rw [hchildren]
      exact List.mem_append_right _ (List.mem_singleton_self c)
    · rw [hc.listening, hraised]
      rfl
  · cases outcome <;> cases hcreated
    cases hraised

private theorem progressing_resumed {w w' : World} {i now nowMs : Nat} {p : Suspended}
    {outcome : SpawnOutcome} (h : Progressing w) (horderly : Orderly w)
    (hguard : SpawnOrStop w (.resume i outcome nowMs))
    (hp : w.suspended[i]? = some p) (heffect : Landed w p outcome now w') :
    Progressing w' := by
  have hmem : inFlight w = [p] → p ∈ inFlight w := by
    intro hflight
    rw [hflight]
    exact List.mem_singleton_self p
  have hauto : ∀ {steps : List RunStepState}, SpawnStepped w p outcome now w' steps →
      w'.run.autoAdvance = true := by
    intro steps hspawn
    rw [hspawn.run]
    split <;> exact h.auto
  cases heffect with
  | @settled steps alone point caller spawn flight =>
    refine ⟨hauto spawn, by simp [flight], ?_, by simp [flight], by simp [flight]⟩
    intro hrunning _
    obtain ⟨hrun, hwas, hstatus, hattended⟩ :=
      spawned_attended h hguard hp (hmem alone) point spawn hrunning
    have hcur : w.run.currentStep = p.stepIdx :=
      (horderly.flying hwas p (hmem alone)).2 caller
    rw [hrun]
    show statusAt steps w.run.currentStep = some .running ∧ Attended w' w.run.currentStep
    rw [hcur]
    exact ⟨hstatus, hattended⟩
  | @awaits steps r alone point caller spawn flight =>
    have hspawned := spawned_attended h hguard hp (hmem alone) point spawn
    refine ⟨hauto spawn, ?_, ?_, ?_, ?_⟩
    · rw [flight]
      intro q hq
      obtain rfl := List.mem_singleton.mp hq
      exact h.autoFlying p (hmem alone)
    · intro _ hnil
      rw [flight] at hnil
      cases hnil
    · rw [flight]
      intro hrunning q hq
      obtain rfl := List.mem_singleton.mp hq
      exact (hspawned hrunning).2.2.1
    · rw [flight]
      intro hrunning q hq _
      obtain rfl := List.mem_singleton.mp hq
      obtain ⟨hrun, -, -, hattended⟩ := hspawned hrunning
      refine ⟨?_, hattended⟩
      rw [hrun]
      rfl
  | wroteBack alone point run flight children =>
    refine ⟨by rw [run]; exact h.auto, by simp [flight], ?_, by simp [flight], by simp [flight]⟩
    intro hrunning _
    rw [run] at hrunning ⊢
    have hreturned : p.point ≠ .imports := by
      rw [point]
      intro hother
      cases hother
    obtain ⟨-, c, hc, hattends⟩ := h.returned hrunning p (hmem alone) hreturned
    refine ⟨h.flying hrunning p (hmem alone), c, ?_, hattends⟩
    rw [children]
    exact hc
  | readOnly run flight children =>
    have hattended : ∀ idx, Attended w idx → Attended w' idx := by
      intro idx hidx
      unfold Attended
      rw [children]
      exact hidx
    refine ⟨by rw [run]; exact h.auto, by rw [flight]; exact h.autoFlying, ?_, ?_, ?_⟩
    · rw [run, flight]
      intro hrunning hnil
      exact (h.idle hrunning hnil).imp id (hattended _)
    · rw [run, flight]
      exact h.flying
    · rw [run, flight]
      intro hrunning q hq hpoint
      exact (h.returned hrunning q hq hpoint).imp id (hattended _)

theorem progressing_step {cfg : Config} {w w' : World} {e : Event} (h : Progressing w)
    (horderly : Orderly w) (hguard : Sustains w e) (hstep : step cfg w e = some w') :
    Progressing w' := by
  cases step_stepped hstep with
  | reported report byAdvance caller_ne delivered templates run suspended effect =>
    exact progressing_reported h hguard report delivered templates run suspended effect
  | silent report delivered run suspended =>
    refine progressing_of_delivered h delivered run suspended ?_
    intro idx success hreport
    rw [report] at hreport
    cases hreport
  | cancelled event =>
    rcases cancelRun_cases w _ with ⟨-, same⟩ | ⟨-, run, suspended, children⟩
    · refine progressing_of_delivered (e := e) h ?_ same.run same.suspended ?_
      · rw [same.children, event]
        exact .none rfl
      · intro idx success hreport
        rw [event] at hreport
        cases hreport
    · refine h.ended ?_ ?_ ?_
      · rw [run]
        intro hother
        cases hother
      · rw [run]
        rfl
      · rw [inFlight_eq_of_suspended suspended]
        exact h.autoFlying
  | resumed event suspended effect =>
    subst event
    exact progressing_resumed h horderly hguard.2.2 suspended
      (resumed_landed horderly suspended effect)

theorem progressing_started {pipeline : Pipeline} {w : World} (h : Started pipeline true w)
    (hfirst : w.templateAt w.run.stepsSnapshot 0 ≠ none) : Progressing w := by
  rcases h.suspended with ⟨-, hnone⟩ | ⟨p, hone, hcaller, hpoint, hsteps, hidx, hauto⟩
  · exact absurd hnone hfirst
  · have hflight : inFlight w = [p] := by
      unfold inFlight
      rw [hone, List.filter_cons_of_pos (Suspended.writes_of_imports hpoint)]
      rfl
    refine ⟨h.auto, ?_, by simp [hflight], ?_, ?_⟩
    · rw [hflight]
      intro q hq
      obtain rfl := List.mem_singleton.mp hq
      exact hauto
    · rw [hflight]
      intro _ q hq
      obtain rfl := List.mem_singleton.mp hq
      rw [hsteps, hidx]
      exact h.first
    · rw [hflight]
      intro _ q hq hpoint'
      obtain rfl := List.mem_singleton.mp hq
      exact absurd hpoint hpoint'

/-- In every sustained run of a started auto-advance pipeline, a running run without a handler
in progress has its current step running and a live child spawned for it. -/
theorem running_run_is_attended (cfg : Config) (pipeline : Pipeline)
    (templates : List WorkflowTemplate) (request : StartRequest) (runId nowMs : Nat)
    (trace : List Event) (w₀ w : World) (hauto : request.autoAdvance ≠ some false)
    (hstart : startPipeline pipeline templates request runId nowMs = .ok w₀)
    (hfirst : firstTemplate pipeline templates ≠ none)
    (hsustained : (machine cfg).Meets Sustains w₀ trace)
    (hrun : (machine cfg).run w₀ trace = some w) (hidle : w.suspended = [])
    (hrunning : w.run.status = .running) :
    statusAt w.run.stepsSnapshot w.run.currentStep = some .running ∧
      Attended w w.run.currentStep := by
  have hstarted : Started pipeline true w₀ := by
    have hs := startPipeline_started hstart
    rw [decide_eq_true hauto] at hs
    exact hs
  have h₀ : Orderly w₀ ∧ Progressing w₀ := by
    refine ⟨orderly_started hstarted, progressing_started hstarted ?_⟩
    rw [templateAt_started hstart]
    exact hfirst
  have hkept : ∀ s e s', Orderly s ∧ Progressing s → Sustains s e →
      (machine cfg).step s e = some s' → Orderly s' ∧ Progressing s' := by
    intro s e s' hs hguard hstep
    exact ⟨orderly_step hs.1 hguard.1 hstep, progressing_step hs.2 hs.1 hguard hstep⟩
  have hw := Machine.run_invariant hkept h₀ hsustained hrun
  refine hw.2.idle hrunning ?_
  unfold inFlight
  rw [hidle]
  rfl

/-- The first step exits well, and the second one is spawned. -/
def oneExit : List Event :=
  [.resume 0 (.spawned (some 10)) 1000, .resume 0 (.spawned none) 1000, .exit 0 (some 0) 2000,
    .resume 0 (.spawned (some 11)) 2000]

theorem running_run_is_attended_oneExit :
    ∃ w, (machine sampleConfig).run (sampleStart 2 none) oneExit = some w ∧
      w.run.currentStep = 1 ∧ w.run.status = .running ∧
      statusAt w.run.stepsSnapshot w.run.currentStep = some .running ∧
      Attended w w.run.currentStep :=
  ⟨_, rfl, rfl, rfl, running_run_is_attended sampleConfig (samplePipeline 2 none)
    [sampleTemplate] sampleRequest 1 0 oneExit (sampleStart 2 none) _ (by decide) rfl (by decide)
    (by decide) rfl rfl rfl⟩

/-- The spawn of a step with the policy to continue fails: the run is still running, its step
has failed and no process was ever made. -/
theorem failed_spawn_leaves_run_stuck :
    startPipeline (samplePipeline 2 (some .continue)) [sampleTemplate] sampleRequest 1 0 =
        .ok (sampleStart 2 (some .continue)) ∧
      ∃ w, (machine sampleConfig).run (sampleStart 2 (some .continue))
          [.resume 0 (.threw "ENOENT") 1000, .resume 0 (.spawned none) 1000] = some w ∧
        w.suspended = [] ∧ w.run.status = .running ∧
        statusAt w.run.stepsSnapshot w.run.currentStep = some .failed ∧ w.children = [] :=
  ⟨rfl, _, rfl, rfl, rfl, rfl, rfl⟩

end MissionControl.Pipelines.Progress
