import MissionControl.Pipelines.Handlers

/-!
What one event can do to the row of a run, to its suspended handlers and to its children.
Each handler is unfolded once, here; the invariants of the run are derived from these cases.
-/

set_option autoImplicit false
set_option relaxedAutoImplicit false

namespace MissionControl.Pipelines.HandlerSteps

open MissionControl.Foundations.JsText (seconds)
open Run Handlers

/-! ### Verdicts -/

theorem settle_stopped {steps out : List RunStepState} {idx now : Nat} {success : Bool}
    {msg : Option String} (h : settle steps idx success msg now = .stopped out) :
    success = false ∧ onFailureAt steps idx = .stop ∧
      out = skipFrom (closeStep steps idx success msg now) (idx + 1) := by
  simp only [settle, onFailureAt_closeStep] at h
  split at h
  · rename_i hstop
    cases h
    exact ⟨hstop.1, hstop.2, rfl⟩
  · split at h <;> cases h

theorem settle_finished {steps out : List RunStepState} {idx now : Nat} {success : Bool}
    {msg : Option String} {final : RunStatus}
    (h : settle steps idx success msg now = .finished final out) :
    ¬ (success = false ∧ onFailureAt steps idx = .stop) ∧ steps.length ≤ idx + 1 ∧
      out = closeStep steps idx success msg now ∧
      final = if out.any (·.status = .failed) then .completedWithErrors else .completed := by
  simp only [settle, onFailureAt_closeStep, length_closeStep] at h
  split at h
  · cases h
  · rename_i hgo
    split at h
    · rename_i hlast
      cases h
      exact ⟨hgo, hlast, rfl, rfl⟩
    · cases h

theorem settle_moved {steps out : List RunStepState} {idx now : Nat} {success : Bool}
    {msg : Option String} (h : settle steps idx success msg now = .moved out) :
    ¬ (success = false ∧ onFailureAt steps idx = .stop) ∧ idx + 1 < steps.length ∧
      out = startStep (closeStep steps idx success msg now) (idx + 1) now := by
  simp only [settle, onFailureAt_closeStep, length_closeStep] at h
  split at h
  · cases h
  · rename_i hgo
    split at h
    · cases h
    · rename_i hnext
      cases h
      exact ⟨hgo, by omega, rfl⟩

/-- A verdict that ends the run, with the status it ends in. -/
inductive Ends : Verdict → RunStatus → List RunStepState → Prop
  | stopped (steps : List RunStepState) : Ends (.stopped steps) .failed steps
  | finished (final : RunStatus) (steps : List RunStepState) : Ends (.finished final steps) final steps

theorem Ends.terminal {steps out : List RunStepState} {idx now : Nat} {success : Bool}
    {msg : Option String} {final : RunStatus}
    (h : Ends (settle steps idx success msg now) final out) : final.Terminal := by
  generalize hv : settle steps idx success msg now = v at h
  cases h with
  | stopped => exact trivial
  | finished =>
    obtain ⟨-, -, -, rfl⟩ := settle_finished hv
    split <;> exact trivial

/-! ### Reports of a finished step -/

/-- The guards under which the end of the step at `idx` is acted on. -/
def Awaited (run : PipelineRun) (idx : Nat) : Prop :=
  run.status = .running ∧ statusAt run.stepsSnapshot idx = some .running

instance (run : PipelineRun) (idx : Nat) : Decidable (Awaited run idx) :=
  inferInstanceAs (Decidable (_ ∧ _))

/-- Two worlds with the same row, suspended handlers and children. -/
structure SameCore (w w' : World) : Prop where
  run : w'.run = w.run
  suspended : w'.suspended = w.suspended
  children : w'.children = w.children

theorem SameCore.refl (w : World) : SameCore w w := ⟨rfl, rfl, rfl⟩

/-- The row after `current_step` and `steps_snapshot` were written. -/
def movedRow (run : PipelineRun) (idx : Nat) (steps : List RunStepState) : PipelineRun :=
  { run with currentStep := idx, stepsSnapshot := steps }

/-- The row after the run was ended. -/
def endedRow (run : PipelineRun) (final : RunStatus) (idx : Nat) (steps : List RunStepState)
    (now : Nat) : PipelineRun :=
  { run with
    status := final, currentStep := idx, stepsSnapshot := steps, completedAt := some now }

/-- What the report that the step at `idx` ended does. `advanceRun` leaves the row alone when
it calls `spawnStep`; `handleStepExit` has written it before. -/
inductive Reported (w : World) (caller : Caller) (idx : Nat) (success : Bool)
    (msg : Option String) (now : Nat) : World → Prop
  | ignored {w' : World} (guard : ¬ Awaited w.run idx) (same : SameCore w w') :
      Reported w caller idx success msg now w'
  | ended {w' : World} {final : RunStatus} {steps : List RunStepState}
      (guard : Awaited w.run idx)
      (verdict : Ends (settle w.run.stepsSnapshot idx success msg now) final steps)
      (run : w'.run = endedRow w.run final idx steps now)
      (suspended : w'.suspended = w.suspended) (children : w'.children = w.children) :
      Reported w caller idx success msg now w'
  | called {w' : World} {steps : List RunStepState} {p : Suspended}
      (guard : Awaited w.run idx)
      (verdict : settle w.run.stepsSnapshot idx success msg now = .moved steps)
      (template : w.templateAt steps (idx + 1) = some p.template)
      (frame : p.caller = caller ∧ p.point = .imports ∧ p.steps = steps ∧ p.stepIdx = idx + 1 ∧
        p.autoAdvance = w.run.autoAdvance)
      (run : w'.run = if caller = .advanceRun then w.run else movedRow w.run (idx + 1) steps)
      (suspended : w'.suspended = w.suspended ++ [p]) (children : w'.children = w.children) :
      Reported w caller idx success msg now w'
  | unspawned {w' : World} {steps : List RunStepState}
      (guard : Awaited w.run idx)
      (verdict : settle w.run.stepsSnapshot idx success msg now = .moved steps)
      (template : w.templateAt steps (idx + 1) = none)
      (run : w'.run = movedRow w.run (idx + 1) steps)
      (suspended : w'.suspended = w.suspended) (children : w'.children = w.children) :
      Reported w caller idx success msg now w'

theorem advanceRun_reported (w : World) (success : Bool) (msg : Option String) (nowMs : Nat) :
    Reported w .advanceRun w.run.currentStep success msg (seconds nowMs)
      (advanceRun w success msg nowMs) := by
  unfold advanceRun
  dsimp only
  split
  · rename_i hstatus
    exact .ignored (fun h => hstatus h.1) ⟨rfl, rfl, rfl⟩
  · rename_i hstatus
    have hrunning : w.run.status = .running := by simpa using hstatus
    split
    · rename_i hnone
      exact .ignored (fun h => by rw [h.2] at hnone; cases hnone) ⟨rfl, rfl, rfl⟩
    · rename_i status hsome
      split
      · rename_i hne
        refine .ignored (fun h => ?_) ⟨rfl, rfl, rfl⟩
        rw [h.2] at hsome
        exact hne (Option.some.inj hsome).symm
      · rename_i heq
        have hguard : Awaited w.run w.run.currentStep := by
          refine ⟨hrunning, ?_⟩
          rw [hsome]
          simpa using heq
        split
        · rename_i steps hv
          exact .ended hguard (by rw [hv]; exact .stopped steps) rfl rfl rfl
        · rename_i final steps hv
          exact .ended hguard (by rw [hv]; exact .finished final steps) rfl rfl rfl
        · rename_i steps hv
          split
          · rename_i template htemplate
            exact .called hguard hv htemplate ⟨rfl, rfl, rfl, rfl, rfl⟩ rfl rfl rfl
          · rename_i hnone
            exact .unspawned hguard hv hnone rfl rfl rfl

theorem handleStepExit_reported (w : World) (idx : Nat) (success : Bool) (msg : Option String)
    (nowMs : Nat) :
    Reported w .handleStepExit idx success msg (seconds nowMs)
      (handleStepExit w idx success msg nowMs) := by
  unfold handleStepExit
  dsimp only
  split
  · rename_i hstatus
    exact .ignored (fun h => hstatus h.1) (.refl w)
  · rename_i hstatus
    have hrunning : w.run.status = .running := by simpa using hstatus
    split
    · rename_i hnone
      exact .ignored (fun h => by rw [h.2] at hnone; cases hnone) (.refl w)
    · rename_i status hsome
      split
      · rename_i hne
        refine .ignored (fun h => ?_) (.refl w)
        rw [h.2] at hsome
        exact hne (Option.some.inj hsome).symm
      · rename_i heq
        have hguard : Awaited w.run idx := by
          refine ⟨hrunning, ?_⟩
          rw [hsome]
          simpa using heq
        split
        · rename_i steps hv
          exact .ended hguard (by rw [hv]; exact .stopped steps) rfl rfl rfl
        · rename_i final steps hv
          exact .ended hguard (by rw [hv]; exact .finished final steps) rfl rfl rfl
        · rename_i steps hv
          split
          · rename_i template htemplate
            exact .called (p := callSpawnStep _ .handleStepExit template steps (idx + 1))
              hguard hv htemplate ⟨rfl, rfl, rfl, rfl, rfl⟩ rfl rfl rfl
          · rename_i hnone
            exact .unspawned hguard hv hnone rfl rfl rfl

/-! ### Cancelling -/

/-- The row after `cancelRun`. -/
def cancelledRow (run : PipelineRun) (now : Nat) : PipelineRun :=
  { run with
    status := .cancelled
    stepsSnapshot := run.stepsSnapshot.map (cancelStep now)
    completedAt := some now }

theorem cancelRun_cases (w : World) (nowMs : Nat) :
    (¬ (w.run.status = .running ∨ w.run.status = .pending) ∧ SameCore w (cancelRun w nowMs)) ∨
    ((w.run.status = .running ∨ w.run.status = .pending) ∧
      (cancelRun w nowMs).run = cancelledRow w.run (seconds nowMs) ∧
      (cancelRun w nowMs).suspended = w.suspended ∧
      (cancelRun w nowMs).children = w.children) := by
  unfold cancelRun
  dsimp only
  split
  · rename_i h
    exact .inl ⟨fun hor => hor.elim h.1 h.2, ⟨rfl, rfl, rfl⟩⟩
  · rename_i h
    refine .inr ⟨?_, rfl, rfl, rfl⟩
    by_contra hn
    push Not at hn
    exact h hn

/-! ### Resuming -/

def SpawnOutcome.created : SpawnOutcome → Bool
  | .spawned _ | .threwAfterSpawn _ _ => true
  | .threw _ => false

def SpawnOutcome.raised : SpawnOutcome → Bool
  | .spawned _ => false
  | .threw _ | .threwAfterSpawn _ _ => true

/-- The catch branch of `spawnStep` ends the run. -/
def failsRun (p : Suspended) (outcome : SpawnOutcome) : Prop :=
  SpawnOutcome.raised outcome = true ∧ p.autoAdvance = true ∧ onFailureAt p.steps p.stepIdx = .stop

instance (p : Suspended) (outcome : SpawnOutcome) : Decidable (failsRun p outcome) :=
  inferInstanceAs (Decidable (_ ∧ _))

/-- The child that `spawnStep` adds for `p`. -/
structure ChildOf (p : Suspended) (outcome : SpawnOutcome) (c : Child) : Prop where
  stepIdx : c.stepIdx = p.stepIdx
  autoAdvance : c.autoAdvance = p.autoAdvance
  listening : c.listening = !SpawnOutcome.raised outcome
  exited : c.exited = false

/-- The steps that `spawnStep` writes when it raised nothing keep every status and policy. -/
structure SameSteps (steps out : List RunStepState) : Prop where
  length : out.length = steps.length
  status : ∀ i, statusAt out i = statusAt steps i
  policy : ∀ i, onFailureAt out i = onFailureAt steps i

theorem recordSpawn_same (cfg : Config) (runId : Nat) (p : Suspended) (pid : Option Nat)
    (nowMs : Nat) : SameSteps p.steps (recordSpawn cfg runId p pid nowMs) := by
  refine ⟨by simp [recordSpawn], fun i => ?_, fun i => ?_⟩
  · unfold statusAt recordSpawn
    rw [List.getElem?_modify]
    cases p.steps[i]? with
    | none => rfl
    | some s => by_cases h : p.stepIdx = i <;> simp [h]
  · unfold onFailureAt recordSpawn
    rw [List.getElem?_modify]
    cases p.steps[i]? with
    | none => rfl
    | some s => by_cases h : p.stepIdx = i <;> simp [h]

/-- The synchronous part of `spawnStep`: the row keeps its position, its status changes only
by the failure policy, and at most one child is added, for the handler's own step. -/
structure SpawnStepped (w : World) (p : Suspended) (outcome : SpawnOutcome) (now : Nat)
    (w' : World) (steps : List RunStepState) : Prop where
  run : w'.run = if failsRun p outcome
    then endedRow w.run .failed w.run.currentStep steps now
    else movedRow w.run w.run.currentStep steps
  children : (SpawnOutcome.created outcome = true ∧
      ∃ c, ChildOf p outcome c ∧ w'.children = w.children ++ [c]) ∨
    (SpawnOutcome.created outcome = false ∧ w'.children = w.children)
  same : SpawnOutcome.raised outcome = false → SameSteps p.steps steps
  running : ∀ i, statusAt steps i = some .running → statusAt p.steps i = some .running

/-- What the caller does with its own suspension is no concern of `spawnStep`. -/
theorem SpawnStepped.suspended {w w' : World} {p : Suspended} {outcome : SpawnOutcome}
    {now : Nat} {steps : List RunStepState} (h : SpawnStepped w p outcome now w' steps)
    (rest : List Suspended) : SpawnStepped w p outcome now { w' with suspended := rest } steps :=
  ⟨h.run, h.children, h.same, h.running⟩

theorem spawnFailedSteps_running {steps : List RunStepState} {idx now i : Nat} {auto : Bool}
    {message : String}
    (h : statusAt (spawnFailedSteps steps idx auto message now) i = some .running) :
    statusAt steps i = some .running := by
  have hfail : statusAt (failSpawn steps idx message now) i = some .running →
      statusAt steps i = some .running := by
    intro hi
    unfold statusAt failSpawn at hi
    rw [List.getElem?_modify] at hi
    unfold statusAt
    cases hs : steps[i]? with
    | none => rw [hs] at hi; cases hi
    | some s =>
      rw [hs] at hi
      by_cases hidx : idx = i
      · simp [hidx] at hi
      · simpa [hidx] using hi
  unfold spawnFailedSteps at h
  dsimp only at h
  split at h
  · have hlt : i < idx + 1 := by
      by_contra hge
      have hlen := statusAt_lt _ _ h
      rw [length_skipFrom] at hlen
      rw [statusAt_skipFrom_of_le _ _ _ (by omega) hlen] at h
      cases h
    rw [statusAt_skipFrom_of_lt _ _ _ hlt] at h
    exact hfail h
  · exact hfail h

private theorem spawnStepCatch_run (w : World) (p : Suspended) (outcome : SpawnOutcome)
    (steps : List RunStepState) (message : String) (nowMs : Nat)
    (hraised : SpawnOutcome.raised outcome = true)
    (hpolicy : onFailureAt steps p.stepIdx = onFailureAt p.steps p.stepIdx) :
    (spawnStepCatch w p steps message nowMs).run =
      if failsRun p outcome
      then endedRow w.run .failed w.run.currentStep
        (spawnFailedSteps steps p.stepIdx p.autoAdvance message (seconds nowMs)) (seconds nowMs)
      else movedRow w.run w.run.currentStep
        (spawnFailedSteps steps p.stepIdx p.autoAdvance message (seconds nowMs)) := by
  unfold spawnStepCatch failsRun
  dsimp only
  rw [hpolicy]
  simp only [hraised, true_and]
  split <;> rfl

private theorem spawnStepCatch_children (w : World) (p : Suspended)
    (steps : List RunStepState) (message : String) (nowMs : Nat) :
    (spawnStepCatch w p steps message nowMs).children = w.children := by
  unfold spawnStepCatch
  dsimp only
  split <;> rfl

theorem spawnStep_stepped (cfg : Config) (w : World) (p : Suspended) (outcome : SpawnOutcome)
    (nowMs : Nat) :
    SpawnStepped w p outcome (seconds nowMs) (spawnStep cfg w p outcome nowMs).1
      (spawnStep cfg w p outcome nowMs).2.1 := by
  cases outcome with
  | spawned pid =>
    have hgo : ¬ failsRun p (.spawned pid) := fun h => by cases h.1
    have hsame := recordSpawn_same cfg w.run.id p pid nowMs
    refine ⟨?_, .inl ⟨rfl, _, ⟨rfl, rfl, rfl, rfl⟩, rfl⟩, fun _ => hsame, fun i hi => ?_⟩
    · rw [if_neg hgo]
      rfl
    · rw [← hsame.status i]
      exact hi
  | threw message =>
    refine ⟨spawnStepCatch_run w p _ p.steps message nowMs rfl rfl,
      .inr ⟨rfl, spawnStepCatch_children ..⟩, (fun h => by cases h),
      fun i hi => spawnFailedSteps_running hi⟩
  | threwAfterSpawn pid message =>
    have hsame := recordSpawn_same cfg w.run.id p pid nowMs
    refine ⟨spawnStepCatch_run _ p _ _ message nowMs rfl (hsame.policy p.stepIdx),
      .inl ⟨rfl, _, ⟨rfl, rfl, rfl, rfl⟩, spawnStepCatch_children ..⟩, (fun h => by cases h),
      fun i hi => ?_⟩
    rw [← hsame.status i]
    exact spawnFailedSteps_running hi

/-- What resuming the `i`-th suspended handler `p` does. -/
inductive Resumed (w : World) (i : Nat) (p : Suspended) (outcome : SpawnOutcome) (now : Nat) :
    World → Prop
  /-- `spawnStep` ran for `handleStepExit`, which does not await it. -/
  | dropped {w' : World} {steps : List RunStepState}
      (point : p.point = .imports) (caller : p.caller = .handleStepExit)
      (spawn : SpawnStepped w p outcome now w' steps)
      (suspended : w'.suspended = w.suspended.eraseIdx i) : Resumed w i p outcome now w'
  /-- `spawnStep` ran, and its caller now awaits the result. -/
  | returned {w' : World} {steps : List RunStepState} {r : SpawnResult}
      (point : p.point = .imports) (caller : p.caller ≠ .handleStepExit)
      (spawn : SpawnStepped w p outcome now w' steps)
      (suspended : w'.suspended =
        w.suspended.set i { p with point := .result r, steps := steps }) :
      Resumed w i p outcome now w'
  /-- `advanceRun` wrote its copy back and responded. -/
  | wroteBack {w' : World} {r : SpawnResult}
      (point : p.point = .result r) (caller : p.caller = .advanceRun)
      (run : w'.run = movedRow w.run p.stepIdx p.steps)
      (suspended : w'.suspended = w.suspended.eraseIdx i) (children : w'.children = w.children) :
      Resumed w i p outcome now w'
  /-- `startPipeline` read the row and responded. -/
  | readOnly {w' : World} {r : SpawnResult}
      (point : p.point = .result r) (caller : p.caller ≠ .advanceRun)
      (run : w'.run = w.run)
      (suspended : w'.suspended = w.suspended.eraseIdx i) (children : w'.children = w.children) :
      Resumed w i p outcome now w'

theorem resume_resumed (cfg : Config) (w : World) (i : Nat) (p : Suspended)
    (outcome : SpawnOutcome) (nowMs : Nat) :
    Resumed w i p outcome (seconds nowMs) (resume cfg w i p outcome nowMs) := by
  have hspawn := spawnStep_stepped cfg w p outcome nowMs
  unfold resume
  cases hpoint : p.point with
  | imports =>
    dsimp only
    cases hcaller : p.caller with
    | handleStepExit =>
      exact .dropped hpoint hcaller (hspawn.suspended _) rfl
    | startPipeline | advanceRun =>
      exact .returned hpoint (by rw [hcaller]; decide) (hspawn.suspended _) (by rw [hcaller])
  | result r =>
    dsimp only
    cases hcaller : p.caller with
    | advanceRun => exact .wroteBack hpoint hcaller rfl rfl rfl
    | startPipeline | handleStepExit =>
      exact .readOnly hpoint (by rw [hcaller]; decide) rfl rfl rfl

/-! ### Events -/

/-- The end of a step that an event reports to the run: the step and its success. -/
def reports (w : World) : Event → Option (Nat × Bool)
  | .advance success _ _ => some (w.run.currentStep, success)
  | .exit k code _ => (w.children[k]?.filter fun c => c.listening && c.autoAdvance).map
      fun c => (c.stepIdx, code = some 0)
  | .error k _ _ _ => (w.children[k]?.filter fun c => c.listening && c.autoAdvance).map
      fun c => (c.stepIdx, false)
  | _ => none

/-- The child an event comes from, with the value its `exited` flag gets. -/
def childEvent : Event → Option (Nat × Bool)
  | .exit k _ _ => some (k, true)
  | .error k _ gone _ => some (k, gone)
  | _ => none

/-- The children after the event `e` was delivered: only the flag of its own child changes. -/
inductive Delivered (w : World) (e : Event) : List Child → Prop
  | none (h : childEvent e = none) : Delivered w e w.children
  | flag {k : Nat} {gone : Bool} {c : Child} (h : childEvent e = some (k, gone))
      (child : w.children[k]? = some c) (alive : c.exited = false) :
      Delivered w e (w.children.set k { c with exited := gone })

/-- Every way one event changes a run. -/
inductive Stepped (w : World) (e : Event) : World → Prop
  | reported {w₁ w' : World} {caller : Caller} {idx now : Nat} {success : Bool}
      {msg : Option String} (report : reports w e = some (idx, success))
      (byAdvance : caller = .advanceRun → idx = w.run.currentStep)
      (caller_ne : caller ≠ .startPipeline)
      (delivered : Delivered w e w₁.children) (templates : w₁.templates = w.templates)
      (run : w₁.run = w.run) (suspended : w₁.suspended = w.suspended)
      (effect : Reported w₁ caller idx success msg now w') : Stepped w e w'
  | silent {w' : World} (report : reports w e = none) (delivered : Delivered w e w'.children)
      (run : w'.run = w.run) (suspended : w'.suspended = w.suspended) : Stepped w e w'
  | cancelled {nowMs : Nat} (event : e = .cancel nowMs) : Stepped w e (cancelRun w nowMs)
  | resumed {w' : World} {i nowMs now : Nat} {p : Suspended} {outcome : SpawnOutcome}
      (event : e = .resume i outcome nowMs) (suspended : w.suspended[i]? = some p)
      (effect : Resumed w i p outcome now w') : Stepped w e w'

private theorem childEvent_stepped {w w' : World} {e : Event} {k : Nat} {gone success : Bool}
    {c : Child} {msg : Option String} {nowMs : Nat}
    (hevent : childEvent e = some (k, gone)) (hchild : w.children[k]? = some c)
    (halive : c.exited = false)
    (hreports : reports w e =
      (w.children[k]?.filter fun c => c.listening && c.autoAdvance).map
        fun c => (c.stepIdx, success))
    (hw' : onChildEvent { w with children := w.children.set k { c with exited := gone } }
      c success msg nowMs = w') : Stepped w e w' := by
  have hdelivered := Delivered.flag hevent hchild halive
  rw [hchild] at hreports
  unfold onChildEvent at hw'
  by_cases hlisten : c.listening = true
  · rw [if_pos hlisten] at hw'
    by_cases hauto : c.autoAdvance = true
    · dsimp only at hw'
      rw [if_pos hauto] at hw'
      subst hw'
      have hsome : reports w e = some (c.stepIdx, success) := by
        simp [hreports, hlisten, hauto]
      have hreported := handleStepExit_reported
        { w with
          children := w.children.set k { c with exited := gone }
          runningProcesses := w.runningProcesses.filter (·.1 ≠ c.stepIdx) }
        c.stepIdx success msg nowMs
      refine .reported hsome ?_ ?_ ?_ ?_ ?_ ?_ hreported
      · intro h
        cases h
      · decide
      · exact hdelivered
      · rfl
      · rfl
      · rfl
    · dsimp only at hw'
      rw [if_neg hauto] at hw'
      subst hw'
      exact .silent (by simp [hreports, hauto]) hdelivered rfl rfl
  · rw [if_neg hlisten] at hw'
    subst hw'
    exact .silent (by simp [hreports, hlisten]) hdelivered rfl rfl

theorem step_stepped {cfg : Config} {w w' : World} {e : Event} (h : step cfg w e = some w') :
    Stepped w e w' := by
  cases e with
  | advance success msg nowMs =>
    obtain rfl := Option.some.inj h
    exact .reported rfl (fun _ => rfl) (by decide) (.none rfl) rfl rfl rfl
      (advanceRun_reported w success msg nowMs)
  | cancel nowMs =>
    obtain rfl := Option.some.inj h
    exact .cancelled rfl
  | resume i outcome nowMs =>
    obtain ⟨p, hp, rfl⟩ := Option.map_eq_some_iff.mp h
    exact .resumed rfl hp (resume_resumed cfg w i p outcome nowMs)
  | exit k code nowMs =>
    simp only [step] at h
    split at h
    · rename_i c hchild
      split at h
      · cases h
      · rename_i halive
        exact childEvent_stepped rfl hchild (by simpa using halive) rfl (Option.some.inj h)
    · cases h
  | error k message gone nowMs =>
    simp only [step] at h
    split at h
    · rename_i c hchild
      split at h
      · cases h
      · rename_i halive
        exact childEvent_stepped rfl hchild (by simpa using halive) rfl (Option.some.inj h)
    · cases h
  | editTemplates templates =>
    obtain rfl := Option.some.inj h
    exact .silent rfl (.none rfl) rfl rfl

/-! ### The start of a run -/

/-- What `startPipeline` leaves behind when it first awaits or ends. -/
structure Started (pipeline : Pipeline) (autoAdvance : Bool) (w : World) : Prop where
  status : w.run.status = .running
  current : w.run.currentStep = 0
  auto : w.run.autoAdvance = autoAdvance
  nonempty : 0 < w.run.stepsSnapshot.length
  first : statusAt w.run.stepsSnapshot 0 = some .running
  rest : ∀ i, 0 < i → i < w.run.stepsSnapshot.length → statusAt w.run.stepsSnapshot i = some .pending
  policy : w.run.stepsSnapshot.map RunStepState.onFailure = pipeline.steps.map PipelineStep.onFailure
  children : w.children = []
  suspended : (w.suspended = [] ∧ w.templateAt w.run.stepsSnapshot 0 = none) ∨
    ∃ p, w.suspended = [p] ∧ p.caller = .startPipeline ∧ p.point = .imports ∧
      p.steps = w.run.stepsSnapshot ∧ p.stepIdx = 0 ∧ p.autoAdvance = autoAdvance

@[simp] theorem length_initialSnapshot (templates : List WorkflowTemplate)
    (steps : List PipelineStep) (now : Nat) :
    (initialSnapshot templates steps now).length = steps.length := by
  simp [initialSnapshot]

theorem statusAt_initialSnapshot (templates : List WorkflowTemplate) (steps : List PipelineStep)
    (now i : Nat) (hi : i < steps.length) :
    statusAt (initialSnapshot templates steps now) i =
      some (if i = 0 then .running else .pending) := by
  simp [statusAt, initialSnapshot, hi]

theorem policy_initialSnapshot (templates : List WorkflowTemplate) (steps : List PipelineStep)
    (now : Nat) :
    (initialSnapshot templates steps now).map RunStepState.onFailure =
      steps.map PipelineStep.onFailure := by
  apply List.ext_getElem?
  intro i
  simp only [initialSnapshot, List.getElem?_map, List.getElem?_mapIdx, Option.map_map]
  rfl

theorem startPipeline_started {pipeline : Pipeline} {templates : List WorkflowTemplate}
    {request : StartRequest} {runId nowMs : Nat} {w : World}
    (h : startPipeline pipeline templates request runId nowMs = .ok w) :
    Started pipeline (request.autoAdvance ≠ some false) w := by
  unfold startPipeline at h
  dsimp only at h
  split at h
  · cases h
  · rename_i hlen
    have hpos : 0 < pipeline.steps.length := by omega
    have hfirst := statusAt_initialSnapshot templates pipeline.steps (seconds nowMs) 0 hpos
    have hrest : ∀ i, 0 < i → i < (initialSnapshot templates pipeline.steps (seconds nowMs)).length →
        statusAt (initialSnapshot templates pipeline.steps (seconds nowMs)) i = some .pending := by
      intro i hi hlt
      rw [length_initialSnapshot] at hlt
      rw [statusAt_initialSnapshot _ _ _ _ hlt, if_neg (by omega)]
    have hpolicy := policy_initialSnapshot templates pipeline.steps (seconds nowMs)
    have hnonempty : 0 < (initialSnapshot templates pipeline.steps (seconds nowMs)).length := by
      rw [length_initialSnapshot]
      exact hpos
    split at h
    · rename_i template htemplate
      obtain rfl := Except.ok.inj h
      exact ⟨rfl, rfl, rfl, hnonempty, hfirst, hrest, hpolicy, rfl,
        .inr ⟨_, rfl, rfl, rfl, rfl, rfl, rfl⟩⟩
    · rename_i hnone
      obtain rfl := Except.ok.inj h
      exact ⟨rfl, rfl, rfl, hnonempty, hfirst, hrest, hpolicy, rfl, .inl ⟨rfl, hnone⟩⟩

end MissionControl.Pipelines.HandlerSteps
