import Mathlib.Data.List.Induction
import Mathlib.Data.List.Nodup
import MissionControl.Alerts.Rules
import MissionControl.Foundations.Transition

/-!
Triggers of one rule are as far from each other as its cooldown says. A rule that was triggered in
the first second of 1970 counts as one that never was.
-/

set_option autoImplicit false
set_option relaxedAutoImplicit false

namespace MissionControl.Alerts.Cooldown

open MissionControl.Foundations.Numbers (Number)
open MissionControl.Foundations.Schema (Json)
open MissionControl.Foundations.SqlValues
open MissionControl.Foundations.Transition (Machine)
open Rules

/-! ### Histories -/

structure Trigger where
  ruleId : Nat
  time : Int
  deriving DecidableEq

/-- The tables, the clock in seconds, and all triggers so far. -/
structure Watched where
  db : Db
  now : Int
  triggers : List Trigger

inductive Event where
  /-- An evaluation, with what the tables of the conditions hold. -/
  | evaluate (now : Int) (workspaceId : Nat) (tables : Tables)
  | put (now : Int) (workspaceId : Nat) (body : Json)

def Watched.start (db : Db) (now : Int) : Watched := ⟨db, now, []⟩

def triggersOf (now : Int) (outcomes : List Outcome) : List Trigger :=
  (outcomes.filter Outcome.triggered).map fun o => ⟨o.rule.id, now⟩

def evaluate (env : Environment) (s : Watched) (now : Int) (workspaceId : Nat) (tables : Tables) :
    Watched :=
  let (db, outcomes) := evaluateRules env tables now workspaceId s.db
  ⟨db, now, s.triggers ++ triggersOf now outcomes⟩

/-- The clock does not go back. -/
def machine (env : Environment) : Machine Watched Event where
  step s
    | .evaluate now workspaceId tables =>
      if s.now ≤ now then some (evaluate env s now workspaceId tables) else none
    | .put now workspaceId body =>
      if s.now ≤ now then
        some { s with db := (putRule env now workspaceId s.db body).1, now := now }
      else none

/-! ### What is claimed of an evaluation -/

def lastTrigger (triggers : List Trigger) (id : Nat) : Option Trigger :=
  (triggers.filter fun t => t.ruleId = id).getLast?

/-- The cooldown of the rule is not over. -/
def Cooling (rule : AlertRule) (now : Int) : Prop :=
  ∃ last c, rule.lastTriggeredAt = some last ∧ rule.cell .cooldown_minutes = .number c ∧
    ((now - last : Int) : Rat) < 60 * c

/-- An evaluation of the rules of a workspace in `db`, that leaves `db'` and has the outcomes. -/
structure Orderly (env : Environment) (tables : Tables) (triggers : List Trigger) (now : Int)
    (workspaceId : Nat) (db db' : Db) (outcomes : List Outcome) : Prop where
  /-- A rule is not triggered until its cooldown has passed since its last trigger. -/
  spaced : ∀ o ∈ outcomes, o.triggered = true → ∀ t, lastTrigger triggers o.rule.id = some t →
    ∀ c, o.rule.cell .cooldown_minutes = .number c → 60 * c ≤ ((now - t.time : Int) : Rat)
  /-- All rules are evaluated, each by its own condition. -/
  all : tables.alertRules = true → outcomes.map Outcome.rule = enabledRules db workspaceId
  own : ∀ o ∈ outcomes, ∀ c, o.rule.cell .cooldown_minutes = .number c → ¬ Cooling o.rule now →
    (o.triggered = true ↔ evaluateRule env tables o.rule now workspaceId = true)
  /-- A trigger makes at most one notification. -/
  told : ∃ made, db'.notifications = db.notifications ++ made ∧ ∀ id,
    made.countP (fun n => n.sourceId = id) ≤
      outcomes.countP fun o => o.triggered && decide (o.rule.id = id)
  /-- A rule in its cooldown stays as it is and is not triggered. -/
  quiet : ∀ rule ∈ db.rules, Cooling rule now →
    rule ∈ db'.rules ∧ ∀ o ∈ outcomes, o.rule.id = rule.id → o.triggered = false

def OrderlyStep (env : Environment) (s : Watched) : Event → Prop
  | .evaluate now workspaceId tables =>
    Orderly env tables s.triggers now workspaceId s.db (evaluate env s now workspaceId tables).db
      (evaluateRules env tables now workspaceId s.db).2
  | .put _ _ _ => True

def startCount (db : Db) (id : Nat) : Int :=
  ((db.rules.find? fun rule => rule.id = id).map AlertRule.triggerCount).getD 0

/-- The counters count the triggers. -/
def Counted (db : Db) (s : Watched) : Prop :=
  ∀ rule ∈ s.db.rules, rule.triggerCount =
    startCount db rule.id + (s.triggers.countP fun t => t.ruleId = rule.id : Nat)

/-- No rule that was triggered in the first second of 1970 meets its condition in its cooldown. -/
def Remembered (env : Environment) (s : Watched) : Event → Prop
  | .evaluate now workspaceId tables =>
    tables.alertRules = true → ∀ rule ∈ enabledRules s.db workspaceId,
      rule.lastTriggeredAt = some 0 → Cooling rule now →
        evaluateRule env tables rule now workspaceId = false
  | .put _ _ _ => True

variable {env : Environment} {tables : Tables} {now : Int} {workspaceId : Nat} {db : Db}

/-! ### One evaluation -/

def outcomeOf (env : Environment) (tables : Tables) (now : Int) (workspaceId : Nat)
    (rule : AlertRule) : Outcome :=
  if inCooldown rule now then ⟨rule, false, "In cooldown"⟩
  else if evaluateRule env tables rule now workspaceId then ⟨rule, true, "Condition met"⟩
  else ⟨rule, false, "Condition not met"⟩

@[simp] theorem outcomeOf_rule (rule : AlertRule) :
    (outcomeOf env tables now workspaceId rule).rule = rule := by
  unfold outcomeOf
  split
  · rfl
  · split <;> rfl

theorem outcomeOf_triggered (rule : AlertRule) :
    (outcomeOf env tables now workspaceId rule).triggered =
      (!inCooldown rule now && evaluateRule env tables rule now workspaceId) := by
  unfold outcomeOf
  cases inCooldown rule now with
  | true => rfl
  | false => cases evaluateRule env tables rule now workspaceId <;> rfl

def fires (env : Environment) (tables : Tables) (now : Int) (workspaceId : Nat)
    (rule : AlertRule) : Bool :=
  (outcomeOf env tables now workspaceId rule).triggered

/-- A rule of the table after some rules have been triggered. -/
def recorded (now : Int) (fired : List AlertRule) (rule : AlertRule) : AlertRule :=
  if rule.id ∈ fired.map AlertRule.id then
    { rule with
      lastTriggeredAt := some now
      triggerCount := rule.triggerCount + (fired.countP fun f => f.id = rule.id : Nat) }
  else rule

@[simp] theorem recorded_id (fired : List AlertRule) (rule : AlertRule) :
    (recorded now fired rule).id = rule.id := by
  unfold recorded
  split <;> rfl

theorem recorded_of_mem {fired : List AlertRule} {rule : AlertRule}
    (h : rule.id ∈ fired.map AlertRule.id) : recorded now fired rule =
      { rule with
        lastTriggeredAt := some now
        triggerCount := rule.triggerCount + (fired.countP fun f => f.id = rule.id : Nat) } :=
  if_pos h

theorem recorded_of_notMem {fired : List AlertRule} {rule : AlertRule}
    (h : rule.id ∉ fired.map AlertRule.id) : recorded now fired rule = rule :=
  if_neg h

@[simp] theorem recorded_nil : recorded now [] = id := by
  funext rule
  exact recorded_of_notMem List.not_mem_nil

theorem countP_id_eq_zero {fired : List AlertRule} {id : Nat}
    (h : id ∉ fired.map AlertRule.id) : (fired.countP fun f => f.id = id) = 0 := by
  rw [List.countP_eq_zero]
  intro f hf hid
  exact h (List.mem_map.mpr ⟨f, hf, of_decide_eq_true hid⟩)

/-- A trigger after some others is recorded on top of them. -/
theorem recorded_append_singleton (fired : List AlertRule) (rule r : AlertRule) :
    recorded now (fired ++ [rule]) r =
      if r.id = rule.id then
        { recorded now fired r with
          lastTriggeredAt := some now
          triggerCount := (recorded now fired r).triggerCount + 1 }
      else recorded now fired r := by
  by_cases hnew : r.id = rule.id
  · have hmem : r.id ∈ (fired ++ [rule]).map AlertRule.id := by simp [hnew]
    rw [recorded_of_mem hmem, if_pos hnew, List.countP_append, List.countP_singleton,
      if_pos (decide_eq_true hnew.symm)]
    by_cases hold : r.id ∈ fired.map AlertRule.id
    · simp [recorded_of_mem hold, add_assoc]
    · simp [recorded_of_notMem hold, countP_id_eq_zero hold]
  · rw [if_neg hnew]
    by_cases hold : r.id ∈ fired.map AlertRule.id
    · have hmem : r.id ∈ (fired ++ [rule]).map AlertRule.id := by simp [-List.mem_map, hold]
      rw [recorded_of_mem hmem, recorded_of_mem hold, List.countP_append, List.countP_singleton]
      simp [Ne.symm hnew]
    · have hmem : r.id ∉ (fired ++ [rule]).map AlertRule.id := by simp [-List.mem_map, hold, hnew]
      rw [recorded_of_notMem hmem, recorded_of_notMem hold]

theorem recordTrigger_recorded (fired : List AlertRule) (rule : AlertRule) (rules : List AlertRule)
    (notifications : List AlertNotification) :
    recordTrigger ⟨rules.map (recorded now fired), notifications⟩ rule.id now =
      ⟨rules.map (recorded now (fired ++ [rule])), notifications⟩ := by
  simp only [recordTrigger, List.map_map, Db.mk.injEq, and_true]
  apply List.map_congr_left
  intro r _
  simp [recorded_append_singleton]

theorem foldl_evaluateNext (rules : List AlertRule) :
    rules.foldl (evaluateNext env tables now workspaceId) (db, []) =
      (⟨db.rules.map (recorded now (rules.filter (fires env tables now workspaceId))),
        db.notifications ++ (rules.filter (fires env tables now workspaceId)).flatMap fun rule =>
          (notificationOf env rule workspaceId).toList⟩,
        rules.map (outcomeOf env tables now workspaceId)) := by
  induction rules using List.reverseRecOn with
  | nil => simp
  | append_singleton rules rule ih =>
    rw [List.foldl_append, ih, List.foldl_cons, List.foldl_nil, evaluateNext]
    cases hcooldown : inCooldown rule now with
    | true => simp [fires, outcomeOf, hcooldown]
    | false =>
      cases hmet : evaluateRule env tables rule now workspaceId with
      | true =>
        simp [fires, outcomeOf, hcooldown, hmet, recordTrigger_recorded, notify]
      | false => simp [fires, outcomeOf, hcooldown, hmet]

/-- The rules that an evaluation goes over. -/
def evaluated (tables : Tables) (workspaceId : Nat) (db : Db) : List AlertRule :=
  if tables.alertRules then enabledRules db workspaceId else []

/-- The rules that an evaluation triggers. -/
def fired (env : Environment) (tables : Tables) (now : Int) (workspaceId : Nat) (db : Db) :
    List AlertRule :=
  (evaluated tables workspaceId db).filter (fires env tables now workspaceId)

theorem evaluateRules_eq : evaluateRules env tables now workspaceId db =
    (⟨db.rules.map (recorded now (fired env tables now workspaceId db)),
      db.notifications ++ (fired env tables now workspaceId db).flatMap fun rule =>
        (notificationOf env rule workspaceId).toList⟩,
      (evaluated tables workspaceId db).map (outcomeOf env tables now workspaceId)) := by
  unfold evaluateRules fired evaluated
  split
  · exact foldl_evaluateNext _
  · simp

theorem triggersOf_outcomes (rules : List AlertRule) :
    triggersOf now (rules.map (outcomeOf env tables now workspaceId)) =
      (rules.filter (fires env tables now workspaceId)).map fun rule => ⟨rule.id, now⟩ := by
  have hfires : Outcome.triggered ∘ outcomeOf env tables now workspaceId =
      fires env tables now workspaceId := rfl
  rw [triggersOf, List.filter_map, List.map_map, hfires]
  apply List.map_congr_left
  intro rule _
  simp

theorem mem_of_mem_evaluated {rule : AlertRule} (h : rule ∈ evaluated tables workspaceId db) :
    rule ∈ db.rules := by
  unfold evaluated at h
  split at h
  · exact (List.mem_filter.mp h).1
  · simp at h

theorem mem_of_mem_fired {rule : AlertRule} (h : rule ∈ fired env tables now workspaceId db) :
    rule ∈ db.rules :=
  mem_of_mem_evaluated (List.mem_filter.mp h).1

/-! ### Edits -/

/-- The row is the same rule, with the same record of its triggers. -/
structure SameRecord (rule edited : AlertRule) : Prop where
  id : edited.id = rule.id
  last : edited.lastTriggeredAt = rule.lastTriggeredAt
  count : edited.triggerCount = rule.triggerCount

theorem SameRecord.refl (rule : AlertRule) : SameRecord rule rule := ⟨rfl, rfl, rfl⟩

theorem updateRule_record {values : List (Column × Value)} {id : Value} {db' : Db}
    (h : updateRule env now db workspaceId values id = some db') :
    ∃ edit, db'.rules = db.rules.map edit ∧ ∀ rule, SameRecord rule (edit rule) := by
  unfold updateRule at h
  split at h
  · cases h
  · obtain rfl := Option.some.inj h
    refine ⟨_, rfl, fun rule => ?_⟩
    split
    · exact ⟨rfl, rfl, rfl⟩
    · exact SameRecord.refl rule

/-- An edit keeps the record of the triggers of every rule. -/
theorem putRule_record (env : Environment) (now : Int) (workspaceId : Nat) (db : Db) (body : Json) :
    ∃ edit, (putRule env now workspaceId db body).1.rules = db.rules.map edit ∧
      ∀ rule, SameRecord rule (edit rule) := by
  have hsame : ∃ edit, db.rules = db.rules.map edit ∧ ∀ rule, SameRecord rule (edit rule) :=
    ⟨id, (List.map_id _).symm, SameRecord.refl⟩
  unfold putRule
  split
  · exact hsame
  split
  · exact hsame
  dsimp only
  split
  · exact hsame
  · exact hsame
  split
  · exact hsame
  split
  · exact hsame
  · rename_i hupdated
    obtain ⟨written, -, hupdated⟩ := Option.bind_eq_some_iff.mp hupdated
    have hrecord := updateRule_record hupdated
    split <;> exact hrecord

end MissionControl.Alerts.Cooldown
