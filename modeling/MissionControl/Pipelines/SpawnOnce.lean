import MissionControl.Foundations.Lists
import MissionControl.Pipelines.HandlerSteps

/-!
Who may spawn which step. A handler in flight holds a copy of the steps that it has still to
write; the run is orderly while nobody moves it on behind the back of such a handler. In
orderly runs the position of the run, read through the handler in flight, bounds every child
spawned so far, so each step index is spawned for at most once.
-/

set_option autoImplicit false
set_option relaxedAutoImplicit false

namespace MissionControl.Pipelines.SpawnOnce

open MissionControl.Foundations.Transition
open MissionControl.Foundations.Lists
open MissionControl.Foundations.JsText (seconds)
open Run Handlers HandlerSteps

/-- The suspended handlers that have still to write their copy of the steps. -/
def inFlight (w : World) : List Suspended := w.suspended.filter Suspended.writes

/-- The step index of every child spawned so far. -/
def spawnedSteps (w : World) : List Nat := w.children.map Child.stepIdx

/-- The event reports the end of the awaited step and the run goes on to the next one. -/
def MovesOn (w : World) (e : Event) : Prop :=
  ∃ report ∈ reports w e, Awaited w.run report.1 ∧
    ¬ (report.2 = false ∧ onFailureAt w.run.stepsSnapshot report.1 = .stop) ∧
    report.1 + 1 < w.run.stepsSnapshot.length

instance (w : World) (e : Event) : Decidable (MovesOn w e) :=
  inferInstanceAs (Decidable (∃ report ∈ reports w e, _))

/-- Nothing moves the run on while a handler has still to write its copy of the steps. -/
def NoOvertaking (w : World) (e : Event) : Prop := inFlight w ≠ [] → ¬ MovesOn w e

instance (w : World) (e : Event) : Decidable (NoOvertaking w e) :=
  inferInstanceAs (Decidable (_ → _))

/-- Each step index has at most one child spawned for it. -/
def SpawnedOnce (w : World) : Prop := ∀ i, w.children.countP (fun c => c.stepIdx = i) ≤ 1

/-- Seen from position `cur`, only the step there runs and no later step was spawned. -/
structure Frontier (w : World) (cur : Nat) (steps : List RunStepState) : Prop where
  onlyRunning : ∀ i, statusAt steps i = some .running → i = cur
  bound : ∀ k ∈ spawnedSteps w, k ≤ cur

structure Orderly (w : World) : Prop where
  single : (inFlight w).length ≤ 1
  distinct : (spawnedSteps w).Nodup
  fresh : ∀ p ∈ inFlight w, p.point = .imports → ∀ k ∈ spawnedSteps w, k < p.stepIdx
  settled : w.run.status = .running → inFlight w = [] →
    Frontier w w.run.currentStep w.run.stepsSnapshot
  flying : w.run.status = .running → ∀ p ∈ inFlight w,
    Frontier w p.stepIdx p.steps ∧ (p.caller ≠ .advanceRun → w.run.currentStep = p.stepIdx)

theorem Suspended.writes_of_imports {p : Suspended} (h : p.point = .imports) :
    p.writes = true := by
  unfold Suspended.writes
  rw [h]

theorem Suspended.writes_of_advance {p : Suspended} (h : p.caller = .advanceRun) :
    p.writes = true := by
  unfold Suspended.writes
  cases p.point with
  | imports => rfl
  | result r => exact decide_eq_true h

theorem Suspended.not_writes {p : Suspended} (hcaller : p.caller ≠ .advanceRun)
    {r : SpawnResult} (hpoint : p.point = .result r) : p.writes = false := by
  unfold Suspended.writes
  rw [hpoint]
  exact decide_eq_false hcaller

/-! ### What events leave alone -/

theorem Delivered.spawnedSteps_eq {w w' : World} {e : Event} (h : Delivered w e w'.children) :
    spawnedSteps w' = spawnedSteps w := by
  unfold spawnedSteps
  generalize hc : w'.children = children at h
  cases h with
  | none => rfl
  | flag _ child _ => exact map_set_of_eq child rfl

theorem inFlight_eq_of_suspended {w w' : World} (h : w'.suspended = w.suspended) :
    inFlight w' = inFlight w := by
  unfold inFlight
  rw [h]

theorem Frontier.congr {w w' : World} {cur : Nat} {steps : List RunStepState}
    (h : Frontier w cur steps) (hs : spawnedSteps w' = spawnedSteps w) :
    Frontier w' cur steps :=
  ⟨h.onlyRunning, by rw [hs]; exact h.bound⟩

/-- Orderliness depends on the row, the handlers in flight and the spawned steps only. -/
theorem Orderly.congr {w w' : World} (h : Orderly w) (hrun : w'.run = w.run)
    (hflight : inFlight w' = inFlight w) (hs : spawnedSteps w' = spawnedSteps w) :
    Orderly w' where
  single := by rw [hflight]; exact h.single
  distinct := by rw [hs]; exact h.distinct
  fresh := by rw [hflight, hs]; exact h.fresh
  settled := by
    rw [hrun, hflight]
    exact fun hr he => (h.settled hr he).congr hs
  flying := by
    rw [hrun, hflight]
    exact fun hr p hp => ⟨(h.flying hr p hp).1.congr hs, (h.flying hr p hp).2⟩

/-- Once the run has left `running`, only the handler still in flight matters. -/
theorem Orderly.ended {w w' : World} (h : Orderly w) (hrun : w'.run.status ≠ .running)
    (hflight : inFlight w' = inFlight w) (hs : spawnedSteps w' = spawnedSteps w) :
    Orderly w' where
  single := by rw [hflight]; exact h.single
  distinct := by rw [hs]; exact h.distinct
  fresh := by rw [hflight, hs]; exact h.fresh
  settled := fun hr => absurd hr hrun
  flying := fun hr => absurd hr hrun

theorem Terminal.ne_running {st : RunStatus} (h : st.Terminal) : st ≠ .running := by
  rintro rfl
  exact h

/-! ### The steps after a move -/

/-- Only the next step runs once the awaited step was closed and the next one started. -/
theorem onlyRunning_moved {steps out : List RunStepState} {idx now : Nat} {success : Bool}
    {msg : Option String} (hv : settle steps idx success msg now = .moved out)
    (hawaited : statusAt steps idx = some .running)
    (honly : ∀ i, statusAt steps i = some .running → i = idx) :
    ∀ i, statusAt out i = some .running → i = idx + 1 := by
  obtain ⟨-, hnext, rfl⟩ := settle_moved hv
  intro i hi
  by_contra hne
  rw [statusAt_startStep_of_ne _ _ _ _ hne] at hi
  by_cases hidx : i = idx
  · subst hidx
    rw [statusAt_closeStep_self _ _ _ _ _ (statusAt_lt _ _ hawaited)] at hi
    cases success <;> cases hi
  · rw [statusAt_closeStep_of_ne _ _ _ _ _ _ hidx] at hi
    exact hidx (honly i hi)

/-! ### The step lemma -/

private theorem orderly_reported {w w' : World} {caller : Caller} {idx now : Nat}
    {success : Bool} {msg : Option String} (h : Orderly w)
    (hfree : inFlight w ≠ [] → Awaited w.run idx →
      ¬ (success = false ∧ onFailureAt w.run.stepsSnapshot idx = .stop) →
      ¬ idx + 1 < w.run.stepsSnapshot.length)
    (heffect : Reported w caller idx success msg now w') : Orderly w' := by
  cases heffect with
  | ignored guard same =>
    have hs : spawnedSteps w' = spawnedSteps w := by unfold spawnedSteps; rw [same.children]
    exact h.congr same.run (inFlight_eq_of_suspended same.suspended) hs
  | ended guard verdict run suspended children =>
    have hs : spawnedSteps w' = spawnedSteps w := by unfold spawnedSteps; rw [children]
    have hstatus : w'.run.status ≠ .running := by
      rw [run]
      exact Terminal.ne_running verdict.terminal
    exact h.ended hstatus (inFlight_eq_of_suspended suspended) hs
  | @called steps p guard verdict template frame run suspended children =>
    have hs : spawnedSteps w' = spawnedSteps w := by unfold spawnedSteps; rw [children]
    obtain ⟨hgo, hnext, -⟩ := settle_moved verdict
    have hempty : inFlight w = [] := by
      by_contra hne
      exact hfree hne guard hgo hnext
    have hfront := h.settled guard.1 hempty
    have hidx : idx = w.run.currentStep := hfront.onlyRunning idx guard.2
    have honly := onlyRunning_moved verdict guard.2
      (fun i hi => (hfront.onlyRunning i hi).trans hidx.symm)
    have hbound : ∀ k ∈ spawnedSteps w', k < p.stepIdx := by
      intro k hk
      rw [hs] at hk
      have hle := hfront.bound k hk
      rw [frame.2.2.2.1]
      omega
    have hflight : inFlight w' = [p] := by
      unfold inFlight at hempty ⊢
      rw [suspended, List.filter_append, hempty, List.nil_append]
      simp [Suspended.writes_of_imports frame.2.1]
    refine ⟨by rw [hflight]; simp, by rw [hs]; exact h.distinct, ?_, ?_, ?_⟩
    · rw [hflight]
      intro q hq _
      obtain rfl := List.mem_singleton.mp hq
      exact hbound
    · intro _ hnil
      rw [hflight] at hnil
      cases hnil
    · rw [hflight]
      intro _ q hq
      obtain rfl := List.mem_singleton.mp hq
      refine ⟨⟨?_, fun k hk => Nat.le_of_lt (hbound k hk)⟩, ?_⟩
      · rw [frame.2.2.1, frame.2.2.2.1]
        exact honly
      · intro hne
        rw [frame.1] at hne
        rw [run, if_neg hne, frame.2.2.2.1]
        rfl
  | @unspawned steps guard verdict template run suspended children =>
    have hs : spawnedSteps w' = spawnedSteps w := by unfold spawnedSteps; rw [children]
    obtain ⟨hgo, hnext, -⟩ := settle_moved verdict
    have hempty : inFlight w = [] := by
      by_contra hne
      exact hfree hne guard hgo hnext
    have hfront := h.settled guard.1 hempty
    have hidx : idx = w.run.currentStep := hfront.onlyRunning idx guard.2
    have honly := onlyRunning_moved verdict guard.2
      (fun i hi => (hfront.onlyRunning i hi).trans hidx.symm)
    have hflight : inFlight w' = [] := by
      rw [inFlight_eq_of_suspended suspended, hempty]
    refine ⟨by rw [hflight]; simp, by rw [hs]; exact h.distinct, by simp [hflight], ?_,
      by simp [hflight]⟩
    intro _ _
    rw [run]
    refine ⟨honly, ?_⟩
    intro k hk
    rw [hs] at hk
    have hle := hfront.bound k hk
    show k ≤ idx + 1
    omega

/-- The children after `spawnStep` ran for `p`: no new one, or one for the step of `p`. -/
theorem spawnedSteps_spawned {w w' : World} {p : Suspended} {outcome : SpawnOutcome}
    {now : Nat} {steps : List RunStepState} (h : SpawnStepped w p outcome now w' steps) :
    spawnedSteps w' = spawnedSteps w ∨ spawnedSteps w' = spawnedSteps w ++ [p.stepIdx] := by
  unfold spawnedSteps
  rcases h.children with ⟨-, c, hc, hchildren⟩ | ⟨-, hchildren⟩
  · right
    rw [hchildren, List.map_append, List.map_singleton, hc.stepIdx]
  · left
    rw [hchildren]

/-- A handler that has still to write is the only one in flight. -/
theorem inFlight_of_writes {w : World} {p : Suspended} {pre post : List Suspended}
    (h : Orderly w) (hsplit : w.suspended = pre ++ p :: post) (hw : p.writes = true) :
    inFlight w = [p] ∧ pre.filter Suspended.writes = [] ∧ post.filter Suspended.writes = [] := by
  have hflight : inFlight w =
      pre.filter Suspended.writes ++ p :: post.filter Suspended.writes := by
    unfold inFlight
    rw [hsplit, List.filter_append, List.filter_cons_of_pos hw]
  have hlen := h.single
  rw [hflight] at hlen
  obtain ⟨hpre, hpost⟩ := eq_nil_of_length_append_cons hlen
  exact ⟨by rw [hflight, hpre, hpost]; rfl, hpre, hpost⟩

/-- Resuming one handler of an orderly run, seen from the handlers in flight: only a handler
of `advanceRun` stays in flight once `spawnStep` has run for it. -/
inductive Landed (w : World) (p : Suspended) (outcome : SpawnOutcome) (now : Nat) (w' : World) :
    Prop
  | settled {steps : List RunStepState} (alone : inFlight w = [p]) (point : p.point = .imports)
      (caller : p.caller ≠ .advanceRun) (spawn : SpawnStepped w p outcome now w' steps)
      (flight : inFlight w' = [])
  | awaits {steps : List RunStepState} {r : SpawnResult} (alone : inFlight w = [p])
      (point : p.point = .imports) (caller : p.caller = .advanceRun)
      (spawn : SpawnStepped w p outcome now w' steps)
      (flight : inFlight w' = [{ p with point := .result r, steps := steps }])
  | wroteBack {r : SpawnResult} (alone : inFlight w = [p]) (point : p.point = .result r)
      (run : w'.run = movedRow w.run p.stepIdx p.steps) (flight : inFlight w' = [])
      (children : w'.children = w.children)
  | readOnly (run : w'.run = w.run) (flight : inFlight w' = inFlight w)
      (children : w'.children = w.children)

theorem resumed_landed {w w' : World} {i now : Nat} {p : Suspended} {outcome : SpawnOutcome}
    (h : Orderly w) (hp : w.suspended[i]? = some p) (heffect : Resumed w i p outcome now w') :
    Landed w p outcome now w' := by
  obtain ⟨pre, post, hsplit, herase, hset⟩ := split_at_index hp
  have halone := inFlight_of_writes h hsplit
  have hgone : w'.suspended = w.suspended.eraseIdx i → pre.filter Suspended.writes = [] →
      post.filter Suspended.writes = [] → inFlight w' = [] := by
    intro hsuspended hpre hpost
    unfold inFlight
    rw [hsuspended, herase, List.filter_append, hpre, hpost]
    rfl
  cases heffect with
  | dropped point caller spawn suspended =>
    obtain ⟨hflight, hpre, hpost⟩ := halone (Suspended.writes_of_imports point)
    exact .settled hflight point (by rw [caller]; decide) spawn (hgone suspended hpre hpost)
  | @returned steps r point caller spawn suspended =>
    obtain ⟨hflight, hpre, hpost⟩ := halone (Suspended.writes_of_imports point)
    let q : Suspended := { p with point := .result r, steps := steps }
    have hsuspended : w'.suspended = pre ++ q :: post := by rw [suspended, hset]
    by_cases hadvance : p.caller = .advanceRun
    · refine .awaits hflight point hadvance spawn (r := r) ?_
      unfold inFlight
      rw [hsuspended, List.filter_append, hpre,
        List.filter_cons_of_pos (Suspended.writes_of_advance (p := q) hadvance), hpost]
      rfl
    · refine .settled hflight point hadvance spawn ?_
      have hquiet : q.writes = false := Suspended.not_writes (p := q) hadvance rfl
      unfold inFlight
      rw [hsuspended, List.filter_append, hpre,
        List.filter_cons_of_neg (by rw [hquiet]; decide), hpost]
      rfl
  | wroteBack point caller run suspended children =>
    obtain ⟨hflight, hpre, hpost⟩ := halone (Suspended.writes_of_advance caller)
    exact .wroteBack hflight point run (hgone suspended hpre hpost) children
  | readOnly point caller run suspended children =>
    have hquiet : p.writes = false := Suspended.not_writes caller point
    refine .readOnly run ?_ children
    unfold inFlight
    rw [suspended, herase, hsplit, List.filter_append, List.filter_append,
      List.filter_cons_of_neg (by rw [hquiet]; decide)]

/-- What `spawnStep` leaves behind for the only handler in flight: no step was spawned twice,
and the frontier, seen from that handler, did not move. -/
private theorem spawned_frontier {w w' : World} {p : Suspended} {outcome : SpawnOutcome}
    {now : Nat} {steps : List RunStepState} (h : Orderly w) (hmem : p ∈ inFlight w)
    (hpoint : p.point = .imports) (hspawn : SpawnStepped w p outcome now w' steps) :
    (spawnedSteps w').Nodup ∧
      (w'.run.status = .running → w.run.status = .running ∧ Frontier w' p.stepIdx steps ∧
        w'.run = movedRow w.run w.run.currentStep steps) := by
  have hfresh := h.fresh p hmem hpoint
  refine ⟨?_, ?_⟩
  · rcases spawnedSteps_spawned hspawn with hsame | hmore
    · rw [hsame]
      exact h.distinct
    · rw [hmore, List.nodup_append]
      refine ⟨h.distinct, List.nodup_singleton _, ?_⟩
      intro a ha b hb hab
      obtain rfl := List.mem_singleton.mp hb
      have hlt := hfresh a ha
      omega
  · intro hrunning
    have hrow := hspawn.run
    have hgo : ¬ failsRun p outcome := by
      intro hfails
      rw [if_pos hfails] at hrow
      rw [hrow] at hrunning
      cases hrunning
    rw [if_neg hgo] at hrow
    rw [hrow] at hrunning
    obtain ⟨hfront, -⟩ := h.flying hrunning p hmem
    refine ⟨hrunning, ⟨fun k hk => hfront.onlyRunning k (hspawn.running k hk), ?_⟩, hrow⟩
    intro k hk
    rcases spawnedSteps_spawned hspawn with hsame | hmore
    · rw [hsame] at hk
      exact hfront.bound k hk
    · rw [hmore] at hk
      rcases List.mem_append.mp hk with hk | hk
      · exact hfront.bound k hk
      · exact Nat.le_of_eq (List.mem_singleton.mp hk)

private theorem orderly_resumed {w w' : World} {now : Nat} {p : Suspended}
    {outcome : SpawnOutcome} (h : Orderly w) (heffect : Landed w p outcome now w') :
    Orderly w' := by
  have hmem : inFlight w = [p] → p ∈ inFlight w := by
    intro hflight
    rw [hflight]
    exact List.mem_singleton_self p
  cases heffect with
  | @settled steps alone point caller spawn flight =>
    obtain ⟨hnodup, hrow⟩ := spawned_frontier h (hmem alone) point spawn
    refine ⟨by simp [flight], hnodup, by simp [flight], ?_, by simp [flight]⟩
    intro hrunning _
    obtain ⟨hwas, hfront, hrun⟩ := hrow hrunning
    have hcur : w.run.currentStep = p.stepIdx := (h.flying hwas p (hmem alone)).2 caller
    rw [hrun]
    show Frontier w' w.run.currentStep steps
    rw [hcur]
    exact hfront
  | @awaits steps r alone point caller spawn flight =>
    obtain ⟨hnodup, hrow⟩ := spawned_frontier h (hmem alone) point spawn
    refine ⟨by simp [flight], hnodup, ?_, ?_, ?_⟩
    · rw [flight]
      intro q hq himports
      obtain rfl := List.mem_singleton.mp hq
      cases himports
    · intro _ hnil
      rw [flight] at hnil
      cases hnil
    · rw [flight]
      intro hrunning q hq
      obtain rfl := List.mem_singleton.mp hq
      exact ⟨(hrow hrunning).2.1, fun hne => absurd caller hne⟩
  | wroteBack alone point run flight children =>
    have hs : spawnedSteps w' = spawnedSteps w := by
      unfold spawnedSteps
      rw [children]
    refine ⟨by simp [flight], by rw [hs]; exact h.distinct, by simp [flight], ?_, by simp [flight]⟩
    intro hrunning _
    rw [run] at hrunning ⊢
    exact (h.flying hrunning p (hmem alone)).1.congr hs
  | readOnly run flight children =>
    have hs : spawnedSteps w' = spawnedSteps w := by
      unfold spawnedSteps
      rw [children]
    exact h.congr run flight hs

theorem orderly_step {cfg : Config} {w w' : World} {e : Event} (h : Orderly w)
    (hguard : NoOvertaking w e) (hstep : step cfg w e = some w') : Orderly w' := by
  cases step_stepped hstep with
  | @reported w₁ _ caller idx now success msg report byAdvance caller_ne delivered templates
      run suspended effect =>
    have hs : spawnedSteps w₁ = spawnedSteps w := Delivered.spawnedSteps_eq delivered
    have h₁ : Orderly w₁ := h.congr run (inFlight_eq_of_suspended suspended) hs
    refine orderly_reported h₁ ?_ effect
    intro hne hawaited hgo hnext
    rw [inFlight_eq_of_suspended suspended] at hne
    rw [run] at hawaited hgo hnext
    exact hguard hne ⟨(idx, success), report, hawaited, hgo, hnext⟩
  | silent report delivered run suspended =>
    exact h.congr run (inFlight_eq_of_suspended suspended) (Delivered.spawnedSteps_eq delivered)
  | @cancelled nowMs event =>
    rcases cancelRun_cases w nowMs with ⟨-, same⟩ | ⟨-, run, suspended, children⟩
    · have hs : spawnedSteps (cancelRun w nowMs) = spawnedSteps w := by
        unfold spawnedSteps
        rw [same.children]
      exact h.congr same.run (inFlight_eq_of_suspended same.suspended) hs
    · have hs : spawnedSteps (cancelRun w nowMs) = spawnedSteps w := by
        unfold spawnedSteps
        rw [children]
      refine h.ended ?_ (inFlight_eq_of_suspended suspended) hs
      rw [run]
      intro hcancelled
      cases hcancelled
  | resumed event suspended effect => exact orderly_resumed h (resumed_landed h suspended effect)

theorem orderly_started {pipeline : Pipeline} {auto : Bool} {w : World}
    (h : Started pipeline auto w) : Orderly w := by
  have hspawned : spawnedSteps w = [] := by
    unfold spawnedSteps
    rw [h.children]
    rfl
  have hfront : Frontier w 0 w.run.stepsSnapshot := by
    refine ⟨?_, by simp [hspawned]⟩
    intro i hi
    by_contra hne
    rw [h.rest i (by omega) (statusAt_lt _ _ hi)] at hi
    cases hi
  rcases h.suspended with ⟨hnil, -⟩ | ⟨p, hone, hcaller, hpoint, hsteps, hidx, -⟩
  · have hflight : inFlight w = [] := by
      unfold inFlight
      rw [hnil]
      rfl
    refine ⟨by simp [hflight], by simp [hspawned], by simp [hflight], ?_, by simp [hflight]⟩
    intro _ _
    rw [h.current]
    exact hfront
  · have hflight : inFlight w = [p] := by
      unfold inFlight
      rw [hone, List.filter_cons_of_pos (Suspended.writes_of_imports hpoint)]
      rfl
    refine ⟨by simp [hflight], by simp [hspawned], by simp [hspawned], by simp [hflight], ?_⟩
    intro _ q hq
    rw [hflight] at hq
    obtain rfl := List.mem_singleton.mp hq
    rw [hsteps, hidx]
    exact ⟨hfront, fun _ => h.current⟩

theorem Orderly.spawnedOnce {w : World} (h : Orderly w) : SpawnedOnce w :=
  fun i => countP_le_one_of_nodup_map h.distinct i

/-- In every run in which nothing overtakes a handler in flight, `spawnStep` makes at most one
child process for each step. -/
theorem spawned_once_of_no_overtaking (cfg : Config) (pipeline : Pipeline)
    (templates : List WorkflowTemplate) (request : StartRequest) (runId nowMs : Nat)
    (trace : List Event) (w₀ w : World)
    (hstart : startPipeline pipeline templates request runId nowMs = .ok w₀)
    (hquiet : (machine cfg).Meets NoOvertaking w₀ trace)
    (hrun : (machine cfg).run w₀ trace = some w) : SpawnedOnce w := by
  have h₀ : Orderly w₀ := orderly_started (startPipeline_started hstart)
  have hkept : ∀ s e s', Orderly s → NoOvertaking s e → (machine cfg).step s e = some s' →
      Orderly s' := fun s e s' hs hguard hstep => orderly_step hs hguard hstep
  exact (Machine.run_invariant hkept h₀ hquiet hrun).spawnedOnce

theorem spawned_once_oneAdvance :
    ∃ w, (machine sampleConfig).run (sampleStart 2 none) oneAdvance = some w ∧
      w.children.length = 2 ∧ SpawnedOnce w := by
  refine ⟨_, rfl, rfl, spawned_once_of_no_overtaking sampleConfig (samplePipeline 2 none)
    [sampleTemplate] sampleRequest 1 0 oneAdvance (sampleStart 2 none) _ rfl (by decide) rfl⟩

/-- Two advance requests read the row before either of them writes it. -/
def twoAdvances : List Event :=
  [.resume 0 (.spawned (some 10)) 1000, .resume 0 (.spawned none) 1000, .advance true none 2000,
    .advance true none 2000, .resume 0 (.spawned (some 11)) 2000,
    .resume 1 (.spawned (some 12)) 2000]

/-- Both of them spawn the second step. -/
theorem two_advances_spawn_twice :
    startPipeline (samplePipeline 2 none) [sampleTemplate] sampleRequest 1 0 =
        .ok (sampleStart 2 none) ∧
      ∃ w, (machine sampleConfig).run (sampleStart 2 none) twoAdvances = some w ∧
        w.children.countP (fun c => c.stepIdx = 1) = 2 ∧ ¬ SpawnedOnce w := by
  refine ⟨rfl, _, rfl, rfl, ?_⟩
  intro h
  exact absurd (h 1) (by decide)

end MissionControl.Pipelines.SpawnOnce
