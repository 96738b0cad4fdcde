import Mathlib.Algebra.Order.Field.Rat
import Mathlib.Tactic.Linarith
import MissionControl.Alerts.Cooldown

/-!
Every run of evaluations and edits keeps the triggers of a rule apart, but for the rules that were
triggered in the first second of 1970.
-/

set_option autoImplicit false
set_option relaxedAutoImplicit false

namespace MissionControl.Alerts.Spacing

open MissionControl.Foundations.Numbers (Number)
open MissionControl.Foundations.Schema (Json)
open MissionControl.Foundations.SqlValues
open MissionControl.Foundations.Transition (Machine)
open Rules Cooldown

variable {env : Environment} {tables : Tables} {now : Int} {workspaceId : Nat} {db : Db}
  {s s' : Watched}

/-! ### What runs keep -/

/-- The table keeps its key, the counters count the triggers, and a rule knows its last trigger. -/
structure Kept (db : Db) (s : Watched) : Prop where
  keys : (s.db.rules.map AlertRule.id).Nodup
  counted : Counted db s
  last : ∀ rule ∈ s.db.rules, ∀ t, lastTrigger s.triggers rule.id = some t →
    rule.lastTriggeredAt = some t.time

theorem rule_eq_of_id (hkeys : (db.rules.map AlertRule.id).Nodup) {rule other : AlertRule}
    (hrule : rule ∈ db.rules) (hother : other ∈ db.rules) (h : rule.id = other.id) : rule = other :=
  List.inj_on_of_nodup_map hkeys hrule hother h

theorem kept_start (h : (db.rules.map AlertRule.id).Nodup) : Kept db (Watched.start db now) where
  keys := h
  counted := by
    intro rule hrule
    have hfind : (db.rules.find? fun r => r.id = rule.id) = some rule := by
      cases hfound : db.rules.find? fun r => r.id = rule.id with
      | none =>
        have hne := List.find?_eq_none.mp hfound rule hrule
        simp at hne
      | some found =>
        have hid : found.id = rule.id := by simpa using List.find?_some hfound
        rw [rule_eq_of_id h (List.mem_of_find?_eq_some hfound) hrule hid]
    simp [startCount, hfind, Watched.start]
  last := by
    intro rule _ t ht
    simp [lastTrigger, Watched.start] at ht

theorem lastTrigger_append_of_mem {triggers : List Trigger} {rules : List AlertRule} {id : Nat}
    (h : id ∈ rules.map AlertRule.id) :
    lastTrigger (triggers ++ rules.map fun rule => ⟨rule.id, now⟩) id = some ⟨id, now⟩ := by
  obtain ⟨rule, hrule, rfl⟩ := List.mem_map.mp h
  have hmem : (⟨rule.id, now⟩ : Trigger) ∈
      (rules.map fun r => (⟨r.id, now⟩ : Trigger)).filter fun t => t.ruleId = rule.id :=
    List.mem_filter.mpr ⟨List.mem_map.mpr ⟨rule, hrule, rfl⟩, decide_eq_true rfl⟩
  obtain ⟨t, hlast⟩ := Option.isSome_iff_exists.mp
    (List.getLast?_isSome.mpr (List.ne_nil_of_mem hmem))
  rw [lastTrigger, List.filter_append, List.getLast?_append, hlast, Option.some_or]
  -- whatever trigger is the last, it is of this rule and of now
  obtain ⟨hnew, hid⟩ := List.mem_filter.mp (List.mem_of_getLast? hlast)
  obtain ⟨r, -, rfl⟩ := List.mem_map.mp hnew
  have hid : r.id = rule.id := of_decide_eq_true hid
  rw [hid]

theorem lastTrigger_append_of_notMem {triggers : List Trigger} {rules : List AlertRule} {id : Nat}
    (h : id ∉ rules.map AlertRule.id) :
    lastTrigger (triggers ++ rules.map fun rule => ⟨rule.id, now⟩) id =
      lastTrigger triggers id := by
  have hnone : (rules.map fun r => (⟨r.id, now⟩ : Trigger)).filter (fun t => t.ruleId = id) =
      [] := by
    rw [List.filter_eq_nil_iff]
    intro t ht hid
    obtain ⟨r, hr, rfl⟩ := List.mem_map.mp ht
    exact h (List.mem_map.mpr ⟨r, hr, of_decide_eq_true hid⟩)
  rw [lastTrigger, List.filter_append, hnone, List.append_nil, lastTrigger]

theorem evaluate_eq : evaluate env s now workspaceId tables =
    ⟨(evaluateRules env tables now workspaceId s.db).1, now,
      s.triggers ++ (fired env tables now workspaceId s.db).map fun rule => ⟨rule.id, now⟩⟩ := by
  rw [evaluate, evaluateRules_eq]
  simp only [triggersOf_outcomes, fired]

theorem kept_evaluate (hs : Kept db s) : Kept db (evaluate env s now workspaceId tables) := by
  rw [evaluate_eq, evaluateRules_eq]
  constructor
  case keys =>
    have hid : AlertRule.id ∘ recorded now (fired env tables now workspaceId s.db) =
        AlertRule.id := funext fun rule => recorded_id _ rule
    simpa only [List.map_map, hid] using hs.keys
  case counted =>
    intro rule' hrule'
    obtain ⟨rule, hrule, rfl⟩ := List.mem_map.mp hrule'
    have hcount := hs.counted rule hrule
    rw [recorded_id, List.countP_append, List.countP_map]
    by_cases hfired : rule.id ∈ (fired env tables now workspaceId s.db).map AlertRule.id
    · rw [recorded_of_mem hfired]
      simp [hcount, Function.comp_def, add_assoc]
    · have hnone := countP_id_eq_zero hfired
      rw [recorded_of_notMem hfired, hcount]
      simp [Function.comp_def, hnone]
  case last =>
    intro rule' hrule' t ht
    obtain ⟨rule, hrule, rfl⟩ := List.mem_map.mp hrule'
    rw [recorded_id] at ht
    by_cases hfired : rule.id ∈ (fired env tables now workspaceId s.db).map AlertRule.id
    · rw [lastTrigger_append_of_mem hfired] at ht
      obtain rfl := Option.some.inj ht
      rw [recorded_of_mem hfired]
    · rw [lastTrigger_append_of_notMem hfired] at ht
      rw [recorded_of_notMem hfired]
      exact hs.last rule hrule t ht

theorem kept_put {body : Json} (hs : Kept db s) :
    Kept db { s with db := (putRule env now workspaceId s.db body).1, now := now } := by
  obtain ⟨edit, hrules, hedit⟩ := putRule_record env now workspaceId s.db body
  constructor
  case keys =>
    have hid : AlertRule.id ∘ edit = AlertRule.id := funext fun rule => (hedit rule).id
    simpa only [hrules, List.map_map, hid] using hs.keys
  case counted =>
    intro rule' hrule'
    rw [hrules] at hrule'
    obtain ⟨rule, hrule, rfl⟩ := List.mem_map.mp hrule'
    rw [(hedit rule).count, (hedit rule).id]
    exact hs.counted rule hrule
  case last =>
    intro rule' hrule' t ht
    rw [hrules] at hrule'
    obtain ⟨rule, hrule, rfl⟩ := List.mem_map.mp hrule'
    rw [(hedit rule).id] at ht
    rw [(hedit rule).last]
    exact hs.last rule hrule t ht

theorem kept_step {e : Event} (hs : Kept db s) (h : (machine env).step s e = some s') :
    Kept db s' := by
  cases e with
  | evaluate now workspaceId tables =>
    simp only [machine] at h
    split at h
    · obtain rfl := Option.some.inj h
      exact kept_evaluate hs
    · cases h
  | put now workspaceId body =>
    simp only [machine] at h
    split at h
    · obtain rfl := Option.some.inj h
      exact kept_put hs
    · cases h

/-! ### What an evaluation keeps apart -/

theorem inCooldown_of_cooling {rule : AlertRule} (h : Cooling rule now)
    (hlast : rule.lastTriggeredAt ≠ some 0) : inCooldown rule now = true := by
  obtain ⟨last, c, hsome, hc, hlt⟩ := h
  have hne : last ≠ 0 := by
    rintro rfl
    exact hlast hsome
  have hlt' : (now : Rat) - last < c * 60 := by
    rw [Int.cast_sub] at hlt
    linarith
  simp only [inCooldown, hsome, hc, valueNumber, Option.any_some, Number.times, Number.lt]
  simpa [hne] using hlt'

theorem cooling_of_inCooldown {rule : AlertRule} {c : Rat}
    (hc : rule.cell .cooldown_minutes = .number c) (h : inCooldown rule now = true) :
    Cooling rule now := by
  cases hlast : rule.lastTriggeredAt with
  | none => simp [inCooldown, hlast] at h
  | some last =>
    have hlt : (now : Rat) - last < c * 60 := by
      simp only [inCooldown, hlast, hc, valueNumber, Option.any_some, Number.times, Number.lt,
        decide_eq_true_eq] at h
      simpa using h.2
    refine ⟨last, c, hlast, hc, ?_⟩
    rw [Int.cast_sub]
    linarith

theorem fires_iff {rule : AlertRule} : fires env tables now workspaceId rule = true ↔
    inCooldown rule now = false ∧ evaluateRule env tables rule now workspaceId = true := by
  simp [fires, outcomeOf_triggered]

theorem mem_evaluated {rule : AlertRule} : rule ∈ evaluated tables workspaceId db ↔
    tables.alertRules = true ∧ rule ∈ enabledRules db workspaceId := by
  unfold evaluated
  cases tables.alertRules with
  | true => simp
  | false => simp

theorem not_cooling_of_fires (h : Remembered env s (.evaluate now workspaceId tables))
    {rule : AlertRule} (hrule : rule ∈ evaluated tables workspaceId s.db)
    (hfires : fires env tables now workspaceId rule = true) : ¬ Cooling rule now := by
  intro hcooling
  obtain ⟨hover, hmet⟩ := fires_iff.mp hfires
  obtain ⟨hread, henabled⟩ := mem_evaluated.mp hrule
  by_cases hlast : rule.lastTriggeredAt = some 0
  · have hunmet := h hread rule henabled hlast hcooling
    rw [hmet] at hunmet
    cases hunmet
  · have hin := inCooldown_of_cooling hcooling hlast
    rw [hover] at hin
    cases hin

/-- A list of lists has at most as many elements of a kind as there are lists that may have one. -/
theorem countP_flatMap_le {α β : Type} {p : β → Bool} {q : α → Bool} {f : α → List β}
    (hf : ∀ x, (f x).countP p ≤ if q x then 1 else 0) (xs : List α) :
    (xs.flatMap f).countP p ≤ xs.countP q := by
  induction xs with
  | nil => simp
  | cons x xs ih =>
    have hx := hf x
    rw [List.flatMap_cons, List.countP_append, List.countP_cons]
    omega

theorem notificationOf_sourceId {rule : AlertRule} {n : AlertNotification}
    (h : notificationOf env rule workspaceId = some n) : n.sourceId = rule.id := by
  simp only [notificationOf, Option.bind_eq_some_iff] at h
  obtain ⟨-, -, -, -, values, -, h⟩ := h
  split at h
  · cases h
  · obtain rfl := Option.some.inj h
    rfl

theorem orderly_of_remembered (hs : Kept db s)
    (h : Remembered env s (.evaluate now workspaceId tables)) :
    OrderlyStep env s (.evaluate now workspaceId tables) := by
  have hsame {rule other : AlertRule} (hrule : rule ∈ s.db.rules)
      (hother : other ∈ evaluated tables workspaceId s.db) (hid : other.id = rule.id) :
      other = rule :=
    rule_eq_of_id hs.keys (mem_of_mem_evaluated hother) hrule hid
  simp only [OrderlyStep, evaluate_eq, evaluateRules_eq]
  constructor
  case spaced =>
    intro o ho htriggered t ht c hc
    obtain ⟨rule, hrule, rfl⟩ := List.mem_map.mp ho
    rw [outcomeOf_rule] at ht hc
    have hlast := hs.last rule (mem_of_mem_evaluated hrule) t ht
    by_contra hsoon
    exact not_cooling_of_fires h hrule htriggered ⟨t.time, c, hlast, hc, not_le.mp hsoon⟩
  case all =>
    intro hread
    have hid : Outcome.rule ∘ outcomeOf env tables now workspaceId = id := funext outcomeOf_rule
    rw [List.map_map, hid, List.map_id, evaluated, if_pos hread]
  case own =>
    intro o ho c hc hcool
    obtain ⟨rule, hrule, rfl⟩ := List.mem_map.mp ho
    rw [outcomeOf_rule] at hc hcool ⊢
    have hover : inCooldown rule now = false := by
      by_contra hin
      exact hcool (cooling_of_inCooldown hc (Bool.not_eq_false _ ▸ hin))
    rw [outcomeOf_triggered, hover, Bool.not_false, Bool.true_and]
  case told =>
    refine ⟨_, rfl, fun id => ?_⟩
    rw [List.countP_map, fired]
    refine (countP_flatMap_le (q := fun rule => rule.id = id) (fun rule => ?_) _).trans ?_
    · cases hmade : notificationOf env rule workspaceId with
      | none => simp
      | some n =>
        rw [Option.toList_some, List.countP_singleton, notificationOf_sourceId hmade]
    · rw [List.countP_filter]
      apply le_of_eq
      apply List.countP_congr
      intro rule _
      simp [fires, and_comm]
  case quiet =>
    intro rule hrule hcooling
    constructor
    · have hquiet : rule.id ∉ (fired env tables now workspaceId s.db).map AlertRule.id := by
        intro hmem
        obtain ⟨other, hfired, hid⟩ := List.mem_map.mp hmem
        obtain ⟨hother, hfires⟩ := List.mem_filter.mp hfired
        obtain rfl := hsame hrule hother hid
        exact not_cooling_of_fires h hother hfires hcooling
      exact List.mem_map.mpr ⟨rule, hrule, recorded_of_notMem hquiet⟩
    · intro o ho hid
      obtain ⟨other, hother, rfl⟩ := List.mem_map.mp ho
      rw [outcomeOf_rule] at hid
      obtain rfl := hsame hrule hother hid
      by_contra hfires
      exact not_cooling_of_fires h hother (Bool.not_eq_false _ ▸ hfires) hcooling

theorem remembered_of_orderly (h : OrderlyStep env s (.evaluate now workspaceId tables)) :
    Remembered env s (.evaluate now workspaceId tables) := by
  intro hread rule hrule hlast hcooling
  simp only [OrderlyStep, evaluate_eq, evaluateRules_eq] at h
  have hevaluated : rule ∈ evaluated tables workspaceId s.db := mem_evaluated.mpr ⟨hread, hrule⟩
  have hquiet := (h.quiet rule (mem_of_mem_evaluated hevaluated) hcooling).2 _
    (List.mem_map.mpr ⟨rule, hevaluated, rfl⟩) (by rw [outcomeOf_rule])
  -- a last trigger of zero is no trigger, so that only the condition can keep the rule from it
  have hover : inCooldown rule now = false := by simp [inCooldown, hlast]
  rw [outcomeOf_triggered, hover, Bool.not_false, Bool.true_and] at hquiet
  exact hquiet

def exampleEnvironment : Environment where
  conversions := ⟨fun n => toString n.num, fun _ => none⟩
  numberText n := toString n.num
  parseJson text := if text = "" then none else some (.object [])
  stringify _ := ""

/-- A rule that is met when there are no tasks, with a cooldown of an hour. -/
def noTasks : AlertRule where
  id := 1
  workspaceId := 1
  cell
    | .enabled => .number 1
    | .cooldown_minutes => .number 60
    | .entity_type => .text "task"
    | .condition_operator => .text "count_below"
    | .condition_value => .text "1"
    | _ => .text ""
  lastTriggeredAt := none
  triggerCount := 0
  updatedAt := 0

def noRows : Tables := ⟨true, some [], some [], some []⟩

theorem remembered_of_all_ne (h : ((enabledRules s.db workspaceId).all fun rule =>
    rule.lastTriggeredAt ≠ some 0) = true) :
    Remembered env s (.evaluate now workspaceId tables) := by
  intro _ rule hrule hlast
  have hne := List.all_eq_true.mp h rule hrule
  exact absurd hlast (of_decide_eq_true hne)

end MissionControl.Alerts.Spacing
