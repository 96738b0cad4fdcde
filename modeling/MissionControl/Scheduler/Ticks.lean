import Mathlib.Data.List.Chain
import Mathlib.Data.List.Nodup
import Mathlib.Data.List.Perm.Basic
import MissionControl.Foundations.Transition

/-!
The background tasks of the server. A tick looks at every task with the time at which it began,
and waits for each body that it starts; other ticks begin and go on in the meantime.
-/

set_option autoImplicit false
set_option relaxedAutoImplicit false

namespace MissionControl.Scheduler.Ticks

open MissionControl.Foundations.Transition (Machine)

/-- The keys of the map of tasks. -/
inductive TaskId where
  | auto_backup
  | auto_cleanup
  | agent_heartbeat
  | webhook_retry
  | claude_session_scan
  | conductor_sync
  deriving DecidableEq

/-- The keys in the order in which `initScheduler` sets them. -/
def TaskId.all : List TaskId :=
  [.auto_backup, .auto_cleanup, .agent_heartbeat, .webhook_retry, .claude_session_scan,
    .conductor_sync]

structure TaskResult where
  ok : Bool
  message : Option String
  timestamp : Nat
  deriving DecidableEq

structure ScheduledTask where
  name : String
  intervalMs : Nat
  lastRun : Option Nat
  nextRun : Nat
  enabled : Bool
  running : Bool
  lastResult : Option TaskResult
  deriving DecidableEq

def DAILY_MS : Nat := 24 * 60 * 60 * 1000
def FIVE_MINUTES_MS : Nat := 5 * 60 * 1000
def ONE_MINUTE_MS : Nat := 60 * 1000

/-! ### Settings -/

/-- What the query for a row of `settings` comes to. -/
inductive SettingRow where
  | failed
  | missing
  | row (value : String)
  deriving DecidableEq

abbrev Settings := String → SettingRow

def isSettingEnabled (settings : Settings) (key : String) (defaultValue : Bool) : Bool :=
  match settings key with
  | .row value => value = "true"
  | .missing => defaultValue
  | .failed => defaultValue

def settingKey : TaskId → String
  | .auto_backup => "general.auto_backup"
  | .auto_cleanup => "general.auto_cleanup"
  | .webhook_retry => "webhooks.retry_enabled"
  | .claude_session_scan => "general.claude_session_scan"
  | .conductor_sync => "general.conductor_sync"
  | .agent_heartbeat => "general.agent_heartbeat"

def defaultEnabled (id : TaskId) : Bool :=
  id = .agent_heartbeat ∨ id = .webhook_retry ∨ id = .claude_session_scan ∨ id = .conductor_sync

/-! ### The scheduler -/

/-- A tick that waits for a body: the time it began with, and the tasks it has still to look at. -/
structure Tick where
  now : Nat
  awaiting : TaskId
  rest : List TaskId
  deriving DecidableEq

/-- The clock in milliseconds, the settings, the map of tasks and the ticks that are under way;
`recorded` keeps every value that `lastRun` of a task has been set to. -/
structure State where
  clock : Nat
  settings : Settings
  tasks : TaskId → ScheduledTask
  ticks : List Tick
  recorded : TaskId → List Nat

/-- The milliseconds until an hour of the day (UTC) begins. -/
def getNextDailyMs (now hour : Nat) : Nat :=
  let next := now - now % DAILY_MS + hour * (60 * 60 * 1000)
  if next ≤ now then next + DAILY_MS - now else next - now

def intervalMs : TaskId → Nat
  | .auto_backup => DAILY_MS
  | .auto_cleanup => DAILY_MS
  | .agent_heartbeat => FIVE_MINUTES_MS
  | .webhook_retry => ONE_MINUTE_MS
  | .claude_session_scan => ONE_MINUTE_MS
  | .conductor_sync => 30000

def taskName : TaskId → String
  | .auto_backup => "Auto Backup"
  | .auto_cleanup => "Auto Cleanup"
  | .agent_heartbeat => "Agent Heartbeat Check"
  | .webhook_retry => "Webhook Retry"
  | .claude_session_scan => "Claude Session Scan"
  | .conductor_sync => "Conductor Sync"

def firstDelay (now : Nat) : TaskId → Nat
  | .auto_backup => getNextDailyMs now 3
  | .auto_cleanup => getNextDailyMs now 4
  | .agent_heartbeat => FIVE_MINUTES_MS
  | .webhook_retry => ONE_MINUTE_MS
  | .claude_session_scan => 5000
  | .conductor_sync => 10000

/-- The scheduler after `initScheduler`, which registers every task. -/
def initScheduler (now : Nat) (settings : Settings) : State where
  clock := now
  settings := settings
  tasks id :=
    { name := taskName id
      intervalMs := intervalMs id
      lastRun := none
      nextRun := now + firstDelay now id
      enabled := true
      running := false
      lastResult := none }
  ticks := []
  recorded _ := []

/-- The task that a tick starts next, with those that come after it. -/
def nextDue (s : State) (now : Nat) : List TaskId → Option (TaskId × List TaskId)
  | [] => none
  | id :: rest =>
    if (s.tasks id).running ∨ now < (s.tasks id).nextRun then nextDue s now rest
    else if isSettingEnabled s.settings (settingKey id) (defaultEnabled id) then some (id, rest)
    else nextDue s now rest

def State.setTask (s : State) (id : TaskId) (task : ScheduledTask) : State :=
  { s with tasks := Function.update s.tasks id task }

/-- The loop of a tick up to its next wait, or to its end. -/
def proceed (s : State) (now : Nat) (rest : List TaskId) : State :=
  match nextDue s now rest with
  | none => s
  | some (id, rest) =>
    { s.setTask id { s.tasks id with running := true } with
      ticks := s.ticks ++ [⟨now, id, rest⟩] }

/-- How a body ends. An error without a `message` to read ends the whole tick. -/
inductive Outcome where
  | returned (ok : Bool) (message : String)
  | threw (message : Option String)
  | threwNothing
  deriving DecidableEq

def Outcome.result (now : Nat) : Outcome → Option TaskResult
  | .returned ok message => some ⟨ok, some message, now⟩
  | .threw message => some ⟨false, message, now⟩
  | .threwNothing => none

/-- What the `finally` of a tick leaves, with the result if there is one. -/
def finish (s : State) (t : Tick) (outcome : Outcome) : State :=
  let task := s.tasks t.awaiting
  { s.setTask t.awaiting
      { task with
        running := false
        lastRun := some t.now
        nextRun := t.now + task.intervalMs
        lastResult := (outcome.result t.now).or task.lastResult } with
    recorded := Function.update s.recorded t.awaiting (s.recorded t.awaiting ++ [t.now]) }

inductive Event where
  | elapse (ms : Nat)
  | configure (settings : Settings)
  | tick
  | settle (i : Nat) (outcome : Outcome)

def step (s : State) : Event → Option State
  | .elapse ms => some { s with clock := s.clock + ms }
  | .configure settings => some { s with settings := settings }
  | .tick => some (proceed s s.clock TaskId.all)
  | .settle i outcome =>
    (s.ticks[i]?).map fun t =>
      let finished := finish { s with ticks := s.ticks.eraseIdx i } t outcome
      if outcome = .threwNothing then finished else proceed finished t.now t.rest

def machine : Machine State Event := ⟨step⟩

/-! ### What a tick does -/

section

variable {s : State} {now : Nat} {rest : List TaskId}

/-- A task that is started is idle and due. -/
theorem nextDue_some {id : TaskId} {rest' : List TaskId}
    (h : nextDue s now rest = some (id, rest')) :
    (s.tasks id).running = false ∧ (s.tasks id).nextRun ≤ now := by
  induction rest with
  | nil => simp [nextDue] at h
  | cons next rest ih =>
    unfold nextDue at h
    split at h
    · exact ih h
    · rename_i hidle
      split at h
      · simp only [Option.some.injEq, Prod.mk.injEq] at h
        obtain ⟨rfl, -⟩ := h
        simp only [not_or, Bool.not_eq_true, not_lt] at hidle
        exact hidle
      · exact ih h

theorem proceed_cases (s : State) (now : Nat) (rest : List TaskId) :
    proceed s now rest = s ∨
    ∃ id rest', (s.tasks id).running = false ∧ (s.tasks id).nextRun ≤ now ∧
      proceed s now rest =
        { s.setTask id { s.tasks id with running := true } with
          ticks := s.ticks ++ [⟨now, id, rest'⟩] } := by
  unfold proceed
  split
  · exact .inl rfl
  · rename_i id rest' hdue
    obtain ⟨hidle, hnext⟩ := nextDue_some hdue
    exact .inr ⟨id, rest', hidle, hnext, rfl⟩

@[simp]
theorem setTask_ticks (s : State) (id : TaskId) (task : ScheduledTask) :
    (s.setTask id task).ticks = s.ticks := rfl

@[simp]
theorem setTask_same (s : State) (id : TaskId) (task : ScheduledTask) :
    (s.setTask id task).tasks id = task := by
  simp [State.setTask]

theorem setTask_other (s : State) {id other : TaskId} (task : ScheduledTask) (h : other ≠ id) :
    (s.setTask id task).tasks other = s.tasks other := by
  simp [State.setTask, h]

end

/-! ### The pace of the tasks -/

/-- The flag of a task says whether a tick waits for its body, no two ticks wait for one body, a
tick began no earlier than its task was due, and a task is due one interval after its last run. -/
structure Paced (s : State) : Prop where
  once : (s.ticks.map Tick.awaiting).Nodup
  running : ∀ id, (s.tasks id).running = true ↔ id ∈ s.ticks.map Tick.awaiting
  began : ∀ t ∈ s.ticks, (s.tasks t.awaiting).nextRun ≤ t.now
  interval : ∀ id, (s.tasks id).intervalMs = intervalMs id
  due : ∀ id last, (s.tasks id).lastRun = some last → last + intervalMs id ≤ (s.tasks id).nextRun
  last : ∀ id, (s.recorded id).getLast? = (s.tasks id).lastRun
  spaced : ∀ id, (s.recorded id).IsChain fun a b => a + intervalMs id ≤ b

theorem intervalMs_pos (id : TaskId) : 0 < intervalMs id := by
  cases id <;> decide

theorem paced_init (now : Nat) (settings : Settings) : Paced (initScheduler now settings) := by
  constructor <;> simp [initScheduler]

/-- Starting a body of an idle task. -/
theorem Paced.proceed {s : State} (h : Paced s) (now : Nat) (rest : List TaskId) :
    Paced (proceed s now rest) := by
  obtain heq | ⟨id, rest', hidle, hdue, heq⟩ := proceed_cases s now rest
  · rw [heq]
    exact h
  · rw [heq]
    have hfree : id ∉ s.ticks.map Tick.awaiting := by
      intro hmem
      have hrunning := (h.running id).mpr hmem
      simp [hidle] at hrunning
    have htask : ∀ other, ∃ running,
        (s.setTask id { s.tasks id with running := true }).tasks other =
          { s.tasks other with running := running } := by
      intro other
      by_cases hother : other = id
      · subst hother
        exact ⟨true, setTask_same ..⟩
      · exact ⟨(s.tasks other).running, setTask_other s _ hother⟩
    constructor
    · simp only [List.map_append, List.map_cons, List.map_nil]
      exact List.nodup_append.mpr ⟨h.once, List.nodup_singleton id, by
        intro a ha b hb
        rw [List.mem_singleton.mp hb]
        rintro rfl
        exact hfree ha⟩
    · intro other
      by_cases hother : other = id
      · subst hother
        simp
      · rw [setTask_other s _ hother, h.running other]
        simp [hother]
    · intro t ht
      obtain ⟨running, htask⟩ := htask t.awaiting
      rw [htask]
      rcases List.mem_append.mp ht with ht | ht
      · exact h.began t ht
      · rw [List.mem_singleton.mp ht]
        exact hdue
    · intro other
      obtain ⟨running, htask⟩ := htask other
      rw [htask]
      exact h.interval other
    · intro other last hlast
      obtain ⟨running, htask⟩ := htask other
      rw [htask] at hlast ⊢
      exact h.due other last hlast
    · intro other
      obtain ⟨running, htask⟩ := htask other
      rw [htask]
      exact h.last other
    · exact h.spaced

/-- The end of the body that a tick waits for. -/
theorem Paced.finish {s : State} {i : Nat} {t : Tick} (h : Paced s) (ht : s.ticks[i]? = some t)
    (outcome : Outcome) : Paced (finish { s with ticks := s.ticks.eraseIdx i } t outcome) := by
  have hmem : t ∈ s.ticks := List.mem_of_getElem? ht
  have hperm : (s.ticks.map Tick.awaiting).Perm
      (t.awaiting :: (s.ticks.eraseIdx i).map Tick.awaiting) := by
    obtain ⟨hi, rfl⟩ := List.getElem?_eq_some_iff.mp ht
    exact ((List.getElem_cons_eraseIdx_perm hi).map Tick.awaiting).symm
  obtain ⟨hfree, honce⟩ := List.nodup_cons.mp (hperm.nodup_iff.mp h.once)
  constructor
  · exact honce
  · intro other
    simp only [Ticks.finish]
    by_cases hother : other = t.awaiting
    · subst hother
      simpa using hfree
    · rw [setTask_other _ _ hother]
      have hrunning := h.running other
      rw [hperm.mem_iff] at hrunning
      simpa [hother] using hrunning
  · intro t' ht'
    have hother : t'.awaiting ≠ t.awaiting := by
      intro heq
      exact hfree (heq ▸ List.mem_map_of_mem ht')
    simp only [Ticks.finish]
    rw [setTask_other _ _ hother]
    exact h.began t' (List.mem_of_mem_eraseIdx ht')
  · intro other
    simp only [Ticks.finish]
    by_cases hother : other = t.awaiting
    · subst hother
      simpa using h.interval t.awaiting
    · rw [setTask_other _ _ hother]
      exact h.interval other
  · intro other last hlast
    simp only [Ticks.finish] at hlast ⊢
    by_cases hother : other = t.awaiting
    · subst hother
      have hinterval := h.interval t.awaiting
      simp only [setTask_same, Option.some.injEq] at hlast ⊢
      omega
    · rw [setTask_other _ _ hother] at hlast ⊢
      exact h.due other last hlast
  · intro other
    simp only [Ticks.finish]
    by_cases hother : other = t.awaiting
    · subst hother
      simp
    · rw [setTask_other _ _ hother]
      simp [hother, h.last other]
  · intro other
    simp only [Ticks.finish]
    by_cases hother : other = t.awaiting
    · subst hother
      simp only [Function.update_self]
      apply List.IsChain.append (h.spaced _) (List.isChain_singleton _)
      intro last hlast now hnow
      have hlast : (s.tasks t.awaiting).lastRun = some last := by
        rw [← h.last]
        exact hlast
      have hdue := h.due t.awaiting last hlast
      have hbegan := h.began t hmem
      simp only [List.head?_cons, Option.mem_def, Option.some.injEq] at hnow
      omega
    · simpa [hother] using h.spaced other

theorem Paced.step {s s' : State} {e : Event} (h : Paced s) (hstep : step s e = some s') :
    Paced s' := by
  cases e with
  | elapse ms =>
    obtain rfl := Option.some.inj hstep
    exact ⟨h.once, h.running, h.began, h.interval, h.due, h.last, h.spaced⟩
  | configure settings =>
    obtain rfl := Option.some.inj hstep
    exact ⟨h.once, h.running, h.began, h.interval, h.due, h.last, h.spaced⟩
  | tick =>
    obtain rfl := Option.some.inj hstep
    exact h.proceed s.clock TaskId.all
  | settle i outcome =>
    obtain ⟨t, ht, rfl⟩ := Option.map_eq_some_iff.mp hstep
    dsimp only
    split
    · exact h.finish ht outcome
    · exact (h.finish ht outcome).proceed t.now t.rest

/-- Whatever the clock, the settings and the bodies do, and however many ticks are under way: no
body runs twice at once, and the times recorded for a task increase by its interval at least. -/
theorem ticks_paced (now : Nat) (settings : Settings) (trace : List Event) (s : State)
    (hrun : machine.run (initScheduler now settings) trace = some s) :
    (s.ticks.map Tick.awaiting).Nodup ∧
      ∀ id, (s.recorded id).getLast? = (s.tasks id).lastRun ∧
        (s.recorded id).IsChain fun a b => a < b ∧ a + (s.tasks id).intervalMs ≤ b := by
  have hpaced : Paced s :=
    Machine.invariant_of_run (fun _ _ _ h hstep => h.step hstep) (paced_init now settings) hrun
  refine ⟨hpaced.once, ?_⟩
  intro id
  refine ⟨hpaced.last id, ?_⟩
  apply (hpaced.spaced id).imp
  intro a b hab
  have hpos := intervalMs_pos id
  rw [hpaced.interval id]
  exact ⟨by omega, hab⟩

/-- Two ticks wait at once, for the scan of an earlier one and for a synchronization; the stale
tick then skips what the newer one has run. -/
theorem ticks_paced_sample : ∃ trace s,
    machine.run (initScheduler 0 fun _ => .missing) trace = some s ∧
    (s.ticks.map Tick.awaiting).Nodup ∧ s.recorded .conductor_sync = [15000] ∧
      ∀ id, (s.recorded id).getLast? = (s.tasks id).lastRun ∧
        (s.recorded id).IsChain fun a b => a < b ∧ a + (s.tasks id).intervalMs ≤ b := by
  let trace : List Event := [.elapse 5000, .tick, .elapse 10000, .tick,
    .settle 1 (.returned true "Synced"), .settle 0 (.threw (some "scan failed"))]
  have hran : ∃ s, machine.run (initScheduler 0 fun _ => .missing) trace = some s ∧
      s.recorded .conductor_sync = [15000] := by
    refine ⟨_, rfl, ?_⟩
    rfl
  obtain ⟨s, hrun, hrecorded⟩ := hran
  obtain ⟨honce, hspaced⟩ := ticks_paced 0 _ trace s hrun
  exact ⟨trace, s, hrun, honce, hrecorded, hspaced⟩

end MissionControl.Scheduler.Ticks
