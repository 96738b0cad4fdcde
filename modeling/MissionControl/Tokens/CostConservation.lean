import Mathlib.Algebra.Group.Prod
import Mathlib.Data.List.Count
import MissionControl.Tokens.TaskCosts

/-!
What the cost report keeps of the records. Every grouping has the sums of what it groups; what the
report as a whole can lose are records between its two filters, and the report itself.
-/

set_option autoImplicit false
set_option relaxedAutoImplicit false

namespace MissionControl.Tokens.CostConservation

open MissionControl.Foundations
open MissionControl.Foundations.Calendar
open MissionControl.Foundations.Dictionaries
open MissionControl.Foundations.Groups
open MissionControl.Foundations.JsonValues (arrayIndex)
open MissionControl.Foundations.Lists
open MissionControl.Foundations.Numbers (Number)
open TaskCosts

/-! ### Totals -/

/-- Tokens, cost and requests. -/
abbrev Totals := ℚ × ℚ × ℕ

def ofStats (stats : TokenStats) : Totals := (stats.totalTokens, stats.totalCost, stats.requestCount)

def ofRecord (record : TokenCostRecord) : Totals := (record.totalTokens, record.cost, 1)

def counted (records : List TokenCostRecord) : Totals := (records.map ofRecord).sum

def tasksTotal (tasks : List TaskCostEntry) : Totals :=
  (tasks.map fun task => ofStats task.stats).sum

def entriesTotal (entries : List (String × GroupCostEntry)) : Totals :=
  (entries.map fun e => ofStats e.2.stats).sum

def modelsTotal (models : List (String × TokenStats)) : Totals :=
  (models.map fun e => ofStats e.2).sum

/-- Tokens and cost of a timeline, whose days count no requests. -/
def timelineTotal (timeline : List (String × DayTotals)) : ℚ × ℚ :=
  (timeline.map fun e => (e.2.tokens, e.2.cost)).sum

/-- There is a record of a task for an agent. -/
def WorkedOn (records : List TokenCostRecord) (taskMetadata : TaskMetadata) (agent : String)
    (taskId : ℚ) : Prop :=
  ∃ record ∈ records, ∃ found, attributed record = some taskId ∧
    taskMetadata taskId = some found ∧ record.agentName = agent

/-- There is a record of a task of a project. -/
def BelongsTo (records : List TokenCostRecord) (taskMetadata : TaskMetadata) (project : String)
    (taskId : ℚ) : Prop :=
  ∃ record ∈ records, ∃ found, attributed record = some taskId ∧
    taskMetadata taskId = some found ∧ projectKey found = project

/-- The report conserves what the records say. -/
structure Conserves (records : List TokenCostRecord) (taskMetadata : TaskMetadata)
    (report : TaskCostReport) : Prop where
  tasks : ofStats report.summary = tasksTotal report.tasks
  agents : ofStats report.summary = entriesTotal report.agents
  projects : ofStats report.summary = entriesTotal report.projects
  all : ofStats report.summary + ofStats report.unattributed = counted records
  models : ∀ task ∈ report.tasks, modelsTotal task.models = ofStats task.stats
  timeline : ∀ task ∈ report.tasks,
    timelineTotal task.timeline = (task.stats.totalTokens, task.stats.totalCost)
  agentTasks : ∀ e ∈ report.agents, ∀ taskId,
    taskId ∈ e.2.taskIds ↔ WorkedOn records taskMetadata e.1 taskId
  projectTasks : ∀ e ∈ report.projects, ∀ taskId,
    taskId ∈ e.2.taskIds ↔ BelongsTo records taskMetadata e.1 taskId

/-! ### Statistics -/

theorem counted_cons (record : TokenCostRecord) (records : List TokenCostRecord) :
    counted (record :: records) = ofRecord record + counted records := List.sum_cons

theorem counted_fst (records : List TokenCostRecord) :
    (counted records).1 = (records.map TokenCostRecord.totalTokens).sum := by
  induction records with
  | nil => rfl
  | cons record records ih =>
    rw [counted_cons, Prod.fst_add, ih, List.map_cons, List.sum_cons]
    rfl

theorem counted_snd (records : List TokenCostRecord) :
    (counted records).2 = ((records.map TokenCostRecord.cost).sum, records.length) := by
  induction records with
  | nil => rfl
  | cons record records ih =>
    rw [counted_cons, Prod.snd_add, ih, List.map_cons, List.sum_cons, List.length_cons,
      Nat.add_comm records.length]
    rfl

theorem foldl_sum (f : TokenCostRecord → ℚ) (records : List TokenCostRecord) (x : ℚ) :
    records.foldl (fun sum r => sum + f r) x = x + (records.map f).sum := by
  induction records generalizing x with
  | nil => simp
  | cons record records ih =>
    rw [List.foldl_cons, ih, List.map_cons, List.sum_cons, add_assoc]

theorem ofStats_calculateStats (records : List TokenCostRecord) :
    ofStats (calculateStats records) = counted records := by
  refine Prod.ext ?_ ?_
  · rw [counted_fst]
    cases records with
    | nil => rfl
    | cons record records =>
      show (record :: records).foldl (fun sum r => sum + r.totalTokens) 0 = _
      rw [foldl_sum, zero_add]
  · rw [counted_snd]
    cases records with
    | nil => rfl
    | cons record records =>
      show ((record :: records).foldl (fun sum r => sum + r.cost) 0, _) = _
      rw [foldl_sum, zero_add]
      rfl

theorem stats_sums (records : List TokenCostRecord) :
    ((calculateStats records).totalTokens, (calculateStats records).totalCost) =
      ((records.map TokenCostRecord.totalTokens).sum, (records.map TokenCostRecord.cost).sum) := by
  have hstats := ofStats_calculateStats records
  rw [Prod.ext_iff, counted_fst, counted_snd] at hstats
  exact Prod.ext hstats.1 (Prod.ext_iff.mp hstats.2).1

/-! ### Groups of a loop -/

/-- The entries of the arrays that a loop over records fills have the sum of the records. -/
theorem sum_entries_push {α κ : Type} [DecidableEq κ] (index : κ → Option Nat) (key : α → κ)
    (f : α → TokenCostRecord) (rows : List α) :
    ((entries index (folded key [] (push f) rows)).map fun e => counted e.2).sum =
      counted (rows.map f) := by
  rw [((entries_perm index _).map _).sum_eq, folded_push, List.map_map]
  have hsum := sum_groups (fun a => ofRecord (f a)) key rows
  simpa [counted, Function.comp_def] using hsum

theorem modelsTotal_groupByModel {records : List TokenCostRecord}
    {models : List (String × TokenStats)} (h : groupByModel records = some models) :
    modelsTotal models = ofStats (calculateStats records) := by
  obtain ⟨groups, hgroups, rfl⟩ := Option.map_eq_some_iff.mp h
  obtain ⟨-, rfl⟩ := collect_eq_some_iff.mp hgroups
  have hsum := sum_entries_push arrayIndex TokenCostRecord.model id records
  rw [List.map_id] at hsum
  rw [ofStats_calculateStats, ← hsum, modelsTotal, List.map_map]
  exact congrArg List.sum (List.map_congr_left fun e _ => ofStats_calculateStats e.2)

theorem groupByModel_isSome (records : List TokenCostRecord) :
    (groupByModel records).isSome = true ↔ ∀ record ∈ records, inherited record.model = false := by
  rw [groupByModel, Option.isSome_map, Option.isSome_iff_exists]
  constructor
  · rintro ⟨groups, hgroups⟩
    exact (collect_eq_some_iff.mp hgroups).1
  · intro hmodels
    exact ⟨_, collect_eq_some_iff.mpr ⟨hmodels, rfl⟩⟩

/-! ### Days -/

/-- The name of a day is no name of a member. -/
theorem dated_not_inherited {record : TokenCostRecord} {turn : String × TokenCostRecord}
    (h : dated record = some turn) : inherited turn.1 = false := by
  obtain ⟨time, -, rfl⟩ := Option.map_eq_some_iff.mp h
  have hmembers : ∀ name ∈ JsObjects.members, '-' ∉ name.toList := by decide
  exact decide_eq_false fun hcontra => hmembers _ hcontra (dash_mem_isoDate time)

theorem buildTimeline_isSome (localeCompare : String → String → Int)
    (records : List TokenCostRecord) :
    (buildTimeline localeCompare records).isSome = true ↔
      ∀ record ∈ records, (timeClip record.timestamp).isSome = true := by
  have hdated : ∀ record : TokenCostRecord,
      (dated record).isSome = (timeClip record.timestamp).isSome := fun record =>
    Option.isSome_map
  simp only [← hdated]
  rw [← exists_mapM, Option.isSome_iff_exists]
  simp only [buildTimeline, Option.bind_eq_bind, Option.bind_eq_some_iff]
  constructor
  · rintro ⟨-, turns, hturns, -⟩
    exact ⟨turns, hturns⟩
  · rintro ⟨turns, hturns⟩
    refine ⟨_, turns, hturns, _, collect_eq_some_iff.mpr ⟨?_, rfl⟩, rfl⟩
    intro turn hturn
    obtain ⟨record, -, hrecord⟩ := mem_of_forall₂ (mapM_eq_some_iff.mp hturns) hturn
    exact dated_not_inherited hrecord

/-- The tokens and the cost of a turn. -/
def ofTurn (turn : String × TokenCostRecord) : ℚ × ℚ := (turn.2.totalTokens, turn.2.cost)

theorem foldl_addToDay (turns : List (String × TokenCostRecord)) (totals : DayTotals) :
    ((turns.foldl (fun x turn => addToDay turn x) totals).tokens,
      (turns.foldl (fun x turn => addToDay turn x) totals).cost) =
      (totals.tokens, totals.cost) + (turns.map ofTurn).sum := by
  induction turns generalizing totals with
  | nil => simp
  | cons turn turns ih =>
    rw [List.foldl_cons, ih, List.map_cons, List.sum_cons, ← add_assoc]
    rfl

theorem sum_ofTurn {records : List TokenCostRecord} {turns : List (String × TokenCostRecord)}
    (h : List.Forall₂ (fun record turn => dated record = some turn) records turns) :
    (turns.map ofTurn).sum =
      ((records.map TokenCostRecord.totalTokens).sum, (records.map TokenCostRecord.cost).sum) := by
  induction h with
  | nil => rfl
  | @cons record turn records turns hturn _ ih =>
    obtain ⟨time, -, rfl⟩ := Option.map_eq_some_iff.mp hturn
    rw [List.map_cons, List.sum_cons, ih]
    simp [ofTurn]

theorem timelineTotal_buildTimeline {localeCompare : String → String → Int}
    {records : List TokenCostRecord} {timeline : List (String × DayTotals)}
    (h : buildTimeline localeCompare records = some timeline) :
    timelineTotal timeline =
      ((calculateStats records).totalTokens, (calculateStats records).totalCost) := by
  simp only [buildTimeline, Option.bind_eq_bind, Option.bind_eq_some_iff, Option.some.injEq] at h
  obtain ⟨turns, hturns, byDate, hdays, rfl⟩ := h
  obtain ⟨-, rfl⟩ := collect_eq_some_iff.mp hdays
  rw [stats_sums, ← sum_ofTurn (mapM_eq_some_iff.mp hturns), ← sum_groups ofTurn Prod.fst turns,
    timelineTotal, ((List.perm_insertionSort _ _).map _).sum_eq,
    ((entries_perm arrayIndex _).map _).sum_eq, folded, List.map_map]
  refine congrArg List.sum (List.map_congr_left fun g _ => ?_)
  refine (foldl_addToDay g.2 ⟨0, 0⟩).trans ?_
  exact zero_add _

/-! ### Tasks -/

theorem taskEntry_eq_some_iff {localeCompare : String → String → Int} {taskMetadata : TaskMetadata}
    {group : ℚ × List TokenCostRecord} {task : TaskCostEntry} :
    taskEntry localeCompare taskMetadata group = some task ↔
      ∃ found, taskMetadata group.1 = some found ∧ ∃ models, groupByModel group.2 = some models ∧
        ∃ timeline, buildTimeline localeCompare group.2 = some timeline ∧
          task =
            { taskId := group.1
              title := found.title
              status := found.status
              priority := found.priority
              assignedTo := JsText.truthy found.assignedTo
              project :=
                { id := found.projectId
                  name := found.projectName
                  slug := found.projectSlug
                  ticketRef := formatTicketRef found.projectPrefix found.projectTicketNo }
              stats := calculateStats group.2
              models := models
              timeline := timeline } := by
  simp only [taskEntry, Option.bind_eq_bind, Option.bind_eq_some_iff, Option.some.injEq,
    eq_comm (b := task)]

theorem taskEntry_isSome {localeCompare : String → String → Int} {taskMetadata : TaskMetadata}
    {group : ℚ × List TokenCostRecord} (hfound : (taskMetadata group.1).isSome = true) :
    (taskEntry localeCompare taskMetadata group).isSome = true ↔
      (∀ record ∈ group.2, inherited record.model = false) ∧
        ∀ record ∈ group.2, (timeClip record.timestamp).isSome = true := by
  rw [← groupByModel_isSome, ← buildTimeline_isSome localeCompare]
  simp only [Option.isSome_iff_exists, taskEntry_eq_some_iff]
  obtain ⟨found, hmeta⟩ := Option.isSome_iff_exists.mp hfound
  constructor
  · rintro ⟨-, -, -, models, hmodels, timeline, htimeline, -⟩
    exact ⟨⟨models, hmodels⟩, timeline, htimeline⟩
  · rintro ⟨⟨models, hmodels⟩, timeline, htimeline⟩
    exact ⟨_, found, hmeta, models, hmodels, timeline, htimeline, rfl⟩

theorem turn?_eq_some_iff {taskMetadata : TaskMetadata} {record : TokenCostRecord} {turn : Turn} :
    turn? taskMetadata record = some turn ↔
      attributed record = some turn.taskId ∧ taskMetadata turn.taskId = some turn.found ∧
        turn.record = record := by
  simp only [turn?, Option.bind_eq_some_iff, Option.map_eq_some_iff]
  constructor
  · rintro ⟨taskId, hid, found, hfound, rfl⟩
    exact ⟨hid, hfound, rfl⟩
  · rintro ⟨hid, hfound, rfl⟩
    exact ⟨_, hid, _, hfound, rfl⟩

/-- The records of the turns are those of the summary. -/
theorem map_record_turns (taskMetadata : TaskMetadata) (records : List TokenCostRecord) :
    (records.filterMap (turn? taskMetadata)).map Turn.record =
      records.filter fun record => (turn? taskMetadata record).isSome := by
  induction records with
  | nil => rfl
  | cons record records ih =>
    rw [List.filterMap_cons, List.filter_cons]
    cases hturn : turn? taskMetadata record with
    | none => simpa using ih
    | some turn =>
      obtain ⟨-, -, hrecord⟩ := turn?_eq_some_iff.mp hturn
      simpa [hrecord] using ih

/-! ### The report -/

/-- What the parts of a report are made of. -/
structure Parts (localeCompare : String → String → Int) (records : List TokenCostRecord)
    (taskMetadata : TaskMetadata) (turns : List Turn) (unsorted : List TaskCostEntry)
    (report : TaskCostReport) : Prop where
  taskEntries : List.Forall₂ (fun group task => taskEntry localeCompare taskMetadata group = some task)
    (entries taskIndex (folded Turn.taskId [] (push Turn.record) turns)) unsorted
  summary : report.summary = calculateStats (turns.map Turn.record)
  unattributed : report.unattributed =
    calculateStats (records.filter fun record => (attributed record).isNone)
  tasks : report.tasks.Perm unsorted
  agentKeys : ∀ turn ∈ turns, inherited turn.record.agentName = false
  agents : ∃ agentTurns : List (String × ℚ),
    (∀ t, t ∈ agentTurns ↔ ∃ task ∈ report.tasks, t.2 = task.taskId ∧
      ∃ turn ∈ turns, turn.taskId = task.taskId ∧ turn.record.agentName = t.1) ∧
    report.agents =
      (entries arrayIndex
        (folded (fun t => t.record.agentName) [] (push Turn.record) turns)).map
        (groupEntry (folded Prod.fst [] (add Prod.snd) agentTurns))
  projects : report.projects =
    (entries arrayIndex
      (folded (fun t => projectKey t.found) [] (push Turn.record) turns)).map
      (groupEntry (folded (fun t => projectKey t.found) [] (add Turn.taskId) turns))

/-- The records that the loop has under a task. -/
theorem mem_lookup_push {turns : List Turn} {taskId : ℚ} {record : TokenCostRecord} :
    record ∈ ((folded Turn.taskId [] (push Turn.record) turns).lookup taskId).getD [] ↔
      ∃ turn ∈ turns, turn.taskId = taskId ∧ turn.record = record := by
  by_cases hk : taskId ∈ turns.map Turn.taskId
  · rw [lookup_folded_of_mem hk, Option.getD_some, foldl_push, List.nil_append]
    simp [and_assoc]
  · rw [(lookup_folded taskId).mpr hk, Option.getD_none]
    constructor
    · intro h
      cases h
    · rintro ⟨turn, hturn, rfl, -⟩
      exact absurd (List.mem_map_of_mem hturn) hk

theorem mem_agentTurns {turns : List Turn} {tasks : List TaskCostEntry} {t : String × ℚ} :
    t ∈ (tasks.flatMap fun task =>
        (((folded Turn.taskId [] (push Turn.record) turns).lookup task.taskId).getD []).map
          fun record => (record.agentName, task.taskId)) ↔
      ∃ task ∈ tasks, t.2 = task.taskId ∧
        ∃ turn ∈ turns, turn.taskId = task.taskId ∧ turn.record.agentName = t.1 := by
  simp only [List.mem_flatMap, List.mem_map, mem_lookup_push]
  constructor
  · rintro ⟨task, htask, -, ⟨turn, hturn, hid, rfl⟩, rfl⟩
    exact ⟨task, htask, rfl, turn, hturn, hid, rfl⟩
  · rintro ⟨task, htask, hid, turn, hturn, hsame, hagent⟩
    exact ⟨task, htask, _, ⟨turn, hturn, hsame, rfl⟩, Prod.ext hagent hid.symm⟩

theorem parts_of_report {localeCompare : String → String → Int} {records : List TokenCostRecord}
    {taskMetadata : TaskMetadata} {report : TaskCostReport}
    (h : buildTaskCostReport localeCompare records taskMetadata = some report) :
    ∃ unsorted, Parts localeCompare records taskMetadata (records.filterMap (turn? taskMetadata))
      unsorted report := by
  simp only [buildTaskCostReport, Option.bind_eq_bind, Option.bind_eq_some_iff,
    Option.some.injEq] at h
  obtain ⟨byTask, htask, unsorted, hunsorted, byAgent, hagent, agentTaskIds, hagentIds, byProject,
    hproject, projectTaskIds, hprojectIds, rfl⟩ := h
  obtain ⟨-, rfl⟩ := collect_eq_some_iff.mp htask
  obtain ⟨hkeys, rfl⟩ := collect_eq_some_iff.mp hagent
  obtain ⟨-, rfl⟩ := collect_eq_some_iff.mp hagentIds
  obtain ⟨-, rfl⟩ := collect_eq_some_iff.mp hproject
  obtain ⟨-, rfl⟩ := collect_eq_some_iff.mp hprojectIds
  exact ⟨unsorted,
    { taskEntries := mapM_eq_some_iff.mp hunsorted
      summary := by rw [map_record_turns]
      unattributed := rfl
      tasks := List.perm_insertionSort _ _
      agentKeys := hkeys
      agents := ⟨_, fun _ => mem_agentTurns, rfl⟩
      projects := rfl }⟩

/-- The texts of whole numbers name no member. -/
theorem projectKey_not_inherited (found : TaskCostMetadata) :
    inherited (projectKey found) = false := by
  have hmembers : ∀ name ∈ JsObjects.members,
      (name.toList.all fun c => c.isDigit || c == '-') = false := by decide
  have hnumber : ∀ n : Int, (toString n).toList.all (fun c => c.isDigit || c == '-') = true := by
    intro n
    have hdigits : ∀ k : Nat, k.repr.toList.all (fun c => c.isDigit || c == '-') = true := by
      intro k
      rw [List.all_eq_true, Nat.toList_repr]
      intro c hc
      simp [Nat.isDigit_of_mem_toDigits (by omega) (by omega) hc]
    rw [Int.toString_eq_repr, Int.repr_eq_if]
    split
    · exact hdigits _
    · rw [String.toList_append, List.all_append, hdigits]
      rfl
  unfold projectKey
  split
  · decide
  · split
    · decide
    · refine decide_eq_false fun hcontra => ?_
      have hfalse := hmembers _ hcontra
      rw [hnumber] at hfalse
      cases hfalse

theorem mem_taskGroups {turns : List Turn} {group : ℚ × List TokenCostRecord} :
    group ∈ entries taskIndex (folded Turn.taskId [] (push Turn.record) turns) ↔
      (∃ turn ∈ turns, turn.taskId = group.1) ∧
        group.2 = (turns.filter fun turn => turn.taskId = group.1).map Turn.record := by
  rw [mem_entries, mem_folded, foldl_push, List.nil_append]

/-- The group that a turn is in. -/
theorem group_of_turn {turns : List Turn} {turn : Turn} (h : turn ∈ turns) :
    (turn.taskId, (turns.filter fun t => t.taskId = turn.taskId).map Turn.record) ∈
      entries taskIndex (folded Turn.taskId [] (push Turn.record) turns) :=
  mem_taskGroups.mpr ⟨⟨turn, h, rfl⟩, rfl⟩

/-- A report is built where no name is that of a member and every day has a date. -/
theorem report_isSome (localeCompare : String → String → Int) (records : List TokenCostRecord)
    (taskMetadata : TaskMetadata) :
    (buildTaskCostReport localeCompare records taskMetadata).isSome = true ↔
      ∀ turn ∈ records.filterMap (turn? taskMetadata),
        inherited turn.record.model = false ∧ inherited turn.record.agentName = false ∧
          (timeClip turn.record.timestamp).isSome = true := by
  have hfound : ∀ turn ∈ records.filterMap (turn? taskMetadata),
      (taskMetadata turn.taskId).isSome = true := by
    intro turn hturn
    obtain ⟨record, -, hrecord⟩ := List.mem_filterMap.mp hturn
    rw [(turn?_eq_some_iff.mp hrecord).2.1]
    rfl
  rw [Option.isSome_iff_exists]
  constructor
  · rintro ⟨report, hreport⟩ turn hturn
    obtain ⟨unsorted, parts⟩ := parts_of_report hreport
    obtain ⟨task, -, htask⟩ := mem_of_forall₂ parts.taskEntries.flip (group_of_turn hturn)
    obtain ⟨hmodels, hdates⟩ :=
      (taskEntry_isSome (hfound turn hturn)).mp (Option.isSome_iff_exists.mpr ⟨task, htask⟩)
    have hmem : turn.record ∈ ((records.filterMap (turn? taskMetadata)).filter
        fun t => t.taskId = turn.taskId).map Turn.record :=
      List.mem_map_of_mem (List.mem_filter.mpr ⟨hturn, decide_eq_true rfl⟩)
    exact ⟨hmodels _ hmem, parts.agentKeys turn hturn, hdates _ hmem⟩
  · intro hnames
    have hentries : ∀ group ∈ entries taskIndex (folded Turn.taskId [] (push Turn.record)
        (records.filterMap (turn? taskMetadata))),
        (taskEntry localeCompare taskMetadata group).isSome = true := by
      intro group hgroup
      obtain ⟨⟨turn, hturn, hid⟩, hrecords⟩ := mem_taskGroups.mp hgroup
      refine (taskEntry_isSome (hid ▸ hfound turn hturn)).mpr ?_
      rw [hrecords]
      constructor
      · intro record hrecord
        obtain ⟨t, ht, rfl⟩ := List.mem_map.mp hrecord
        exact (hnames t (List.mem_of_mem_filter ht)).1
      · intro record hrecord
        obtain ⟨t, ht, rfl⟩ := List.mem_map.mp hrecord
        exact (hnames t (List.mem_of_mem_filter ht)).2.2
    obtain ⟨unsorted, hunsorted⟩ := exists_mapM.mpr hentries
    simp only [buildTaskCostReport, Option.bind_eq_bind, Option.bind_eq_some_iff,
      Option.some.injEq]
    refine ⟨_, _, collect_eq_some_iff.mpr ⟨fun _ _ => rfl, rfl⟩, unsorted, hunsorted,
      _, collect_eq_some_iff.mpr ⟨fun turn hturn => (hnames turn hturn).2.1, rfl⟩,
      _, collect_eq_some_iff.mpr ⟨?_, rfl⟩,
      _, collect_eq_some_iff.mpr ⟨fun _ _ => projectKey_not_inherited _, rfl⟩,
      _, collect_eq_some_iff.mpr ⟨fun _ _ => projectKey_not_inherited _, rfl⟩, rfl⟩
    intro t ht
    obtain ⟨-, -, -, turn, hturn, -, hagent⟩ := mem_agentTurns.mp ht
    exact hagent ▸ (hnames turn hturn).2.1

/-! ### Conservation -/

section

variable {localeCompare : String → String → Int} {records : List TokenCostRecord}
  {taskMetadata : TaskMetadata} {report : TaskCostReport}

theorem ofStats_groupEntry (taskIdsOf : List (String × List ℚ))
    (group : String × List TokenCostRecord) :
    ofStats (groupEntry taskIdsOf group).2.stats = counted group.2 :=
  ofStats_calculateStats group.2

theorem mem_taskIds {taskIdsOf : List (String × List ℚ)}
    {group : String × List TokenCostRecord} {taskId : ℚ} :
    taskId ∈ (groupEntry taskIdsOf group).2.taskIds ↔
      taskId ∈ (taskIdsOf.lookup group.1).getD [] :=
  (List.perm_insertionSort _ _).mem_iff

/-- What is in the set that the loop has under the key of a row. -/
theorem mem_lookup_add {α : Type} {key : α → String} {f : α → ℚ} {rows : List α} {k : String}
    {c : ℚ} :
    c ∈ ((folded key [] (add f) rows).lookup k).getD [] ↔ ∃ a ∈ rows, key a = k ∧ f a = c := by
  by_cases hk : k ∈ rows.map key
  · rw [lookup_folded_of_mem hk, Option.getD_some, mem_foldl_add]
    simp [and_assoc]
  · rw [(lookup_folded k).mpr hk, Option.getD_none]
    constructor
    · intro h
      cases h
    · rintro ⟨a, ha, rfl, -⟩
      exact absurd (List.mem_map_of_mem ha) hk

theorem entriesTotal_groups {α : Type} (key : α → String) (f : α → TokenCostRecord)
    (rows : List α) (taskIdsOf : List (String × List ℚ)) :
    entriesTotal ((entries arrayIndex (folded key [] (push f) rows)).map
      (groupEntry taskIdsOf)) = counted (rows.map f) := by
  rw [← sum_entries_push arrayIndex key f rows, entriesTotal, List.map_map]
  exact congrArg List.sum (List.map_congr_left fun g _ => ofStats_groupEntry taskIdsOf g)

variable {unsorted : List TaskCostEntry}

theorem Parts.mem_tasks {turns : List Turn}
    (parts : Parts localeCompare records taskMetadata turns unsorted report) {task : TaskCostEntry}
    (h : task ∈ report.tasks) :
    ∃ group ∈ entries taskIndex (folded Turn.taskId [] (push Turn.record) turns),
      taskEntry localeCompare taskMetadata group = some task :=
  mem_of_forall₂ parts.taskEntries (parts.tasks.mem_iff.mp h)

/-- The tasks of the report are those of the turns. -/
theorem Parts.taskIds {turns : List Turn}
    (parts : Parts localeCompare records taskMetadata turns unsorted report) {taskId : ℚ} :
    (∃ task ∈ report.tasks, task.taskId = taskId) ↔ ∃ turn ∈ turns, turn.taskId = taskId := by
  constructor
  · rintro ⟨task, htask, rfl⟩
    obtain ⟨group, hgroup, hentry⟩ := parts.mem_tasks htask
    obtain ⟨found, -, models, -, timeline, -, rfl⟩ := taskEntry_eq_some_iff.mp hentry
    exact (mem_taskGroups.mp hgroup).1
  · rintro ⟨turn, hturn, rfl⟩
    obtain ⟨task, htask, hentry⟩ := mem_of_forall₂ parts.taskEntries.flip (group_of_turn hturn)
    obtain ⟨found, -, models, -, timeline, -, rfl⟩ := taskEntry_eq_some_iff.mp hentry
    exact ⟨_, parts.tasks.mem_iff.mpr htask, rfl⟩

theorem Parts.total {turns : List Turn}
    (parts : Parts localeCompare records taskMetadata turns unsorted report) :
    tasksTotal report.tasks = counted (turns.map Turn.record) := by
  have hstats : ∀ group task, taskEntry localeCompare taskMetadata group = some task →
      ofStats task.stats = counted group.2 := by
    intro group task htask
    obtain ⟨found, -, models, -, timeline, -, rfl⟩ := taskEntry_eq_some_iff.mp htask
    exact ofStats_calculateStats group.2
  rw [tasksTotal, (parts.tasks.map _).sum_eq, map_eq_of_forall₂ hstats parts.taskEntries]
  exact sum_entries_push taskIndex Turn.taskId Turn.record turns

/-- A turn is a record with a task. -/
theorem mem_turns {turn : Turn} :
    turn ∈ records.filterMap (turn? taskMetadata) ↔
      turn.record ∈ records ∧ attributed turn.record = some turn.taskId ∧
        taskMetadata turn.taskId = some turn.found := by
  simp only [List.mem_filterMap, turn?_eq_some_iff]
  constructor
  · rintro ⟨record, hrecord, hid, hfound, rfl⟩
    exact ⟨hrecord, hid, hfound⟩
  · rintro ⟨hrecord, hid, hfound⟩
    exact ⟨_, hrecord, hid, hfound, rfl⟩

/-- Everything but the totals of all records is conserved by every report. -/
theorem conserves_of_report
    (h : buildTaskCostReport localeCompare records taskMetadata = some report)
    (hall : ofStats report.summary + ofStats report.unattributed = counted records) :
    Conserves records taskMetadata report := by
  obtain ⟨unsorted, parts⟩ := parts_of_report h
  obtain ⟨agentTurns, hturns, hagents⟩ := parts.agents
  have hsummary : ofStats report.summary =
      counted ((records.filterMap (turn? taskMetadata)).map Turn.record) := by
    rw [parts.summary, ofStats_calculateStats]
  constructor
  case tasks => rw [hsummary, parts.total]
  case agents => rw [hsummary, hagents, entriesTotal_groups]
  case projects => rw [hsummary, parts.projects, entriesTotal_groups]
  case all => exact hall
  case models =>
    intro task htask
    obtain ⟨group, -, hentry⟩ := parts.mem_tasks htask
    obtain ⟨found, -, models, hmodels, timeline, -, rfl⟩ := taskEntry_eq_some_iff.mp hentry
    exact modelsTotal_groupByModel hmodels
  case timeline =>
    intro task htask
    obtain ⟨group, -, hentry⟩ := parts.mem_tasks htask
    obtain ⟨found, -, models, -, timeline, htimeline, rfl⟩ := taskEntry_eq_some_iff.mp hentry
    exact timelineTotal_buildTimeline htimeline
  case agentTasks =>
    intro e he taskId
    rw [hagents] at he
    obtain ⟨group, -, rfl⟩ := List.mem_map.mp he
    rw [mem_taskIds, mem_lookup_add]
    simp only [hturns]
    constructor
    · rintro ⟨t, ⟨task, -, hid, turn, hturn, hsame, hagent⟩, hkey, rfl⟩
      obtain ⟨hrecord, hattributed, hfound⟩ := mem_turns.mp hturn
      rw [hsame, ← hid] at hattributed hfound
      exact ⟨turn.record, hrecord, turn.found, hattributed, hfound, hagent.trans hkey⟩
    · rintro ⟨record, hrecord, found, hattributed, hfound, hagent⟩
      have hturn : (⟨taskId, found, record⟩ : Turn) ∈ records.filterMap (turn? taskMetadata) :=
        mem_turns.mpr ⟨hrecord, hattributed, hfound⟩
      obtain ⟨task, htask, hid⟩ := parts.taskIds.mpr ⟨_, hturn, rfl⟩
      exact ⟨(group.1, taskId), ⟨task, htask, hid.symm, _, hturn, hid.symm, hagent⟩, rfl, rfl⟩
  case projectTasks =>
    intro e he taskId
    rw [parts.projects] at he
    obtain ⟨group, -, rfl⟩ := List.mem_map.mp he
    rw [mem_taskIds, mem_lookup_add]
    constructor
    · rintro ⟨turn, hturn, hkey, rfl⟩
      obtain ⟨hrecord, hattributed, hfound⟩ := mem_turns.mp hturn
      exact ⟨turn.record, hrecord, turn.found, hattributed, hfound, hkey⟩
    · rintro ⟨record, hrecord, found, hattributed, hfound, hkey⟩
      exact ⟨⟨taskId, found, record⟩, mem_turns.mpr ⟨hrecord, hattributed, hfound⟩, hkey, rfl⟩

/-- All that is attributed has a task. -/
def Known (records : List TokenCostRecord) (taskMetadata : TaskMetadata) : Prop :=
  ∀ record ∈ records, ∀ taskId, attributed record = some taskId →
    (taskMetadata taskId).isSome = true

theorem turn?_isSome_of_known (hknown : Known records taskMetadata) {record : TokenCostRecord}
    (h : record ∈ records) :
    (turn? taskMetadata record).isSome = !(attributed record).isNone := by
  cases hid : attributed record with
  | none => simp [turn?, hid]
  | some taskId =>
    obtain ⟨found, hfound⟩ := Option.isSome_iff_exists.mp (hknown record h taskId hid)
    simp [turn?, hid, hfound]

theorem counted_length (records : List TokenCostRecord) :
    (counted records).2.2 = records.length := by
  rw [counted_snd]

/-- A record that is in neither total is missed by its request. -/
theorem total_iff
    (h : buildTaskCostReport localeCompare records taskMetadata = some report) :
    ofStats report.summary + ofStats report.unattributed = counted records ↔
      Known records taskMetadata := by
  obtain ⟨unsorted, parts⟩ := parts_of_report h
  rw [parts.summary, parts.unattributed, ofStats_calculateStats, ofStats_calculateStats,
    map_record_turns]
  constructor
  · intro htotal record hrecord taskId hid
    have hlength := congrArg (fun t : Totals => t.2.2) htotal
    simp only [Prod.snd_add, counted_length] at hlength
    by_contra hunknown
    have hnone : turn? taskMetadata record = none := by
      simpa [turn?, hid] using hunknown
    have hdisjoint : ∀ r, (turn? taskMetadata r).isSome = true → (attributed r).isNone = false := by
      intro r hr
      cases hnone : attributed r with
      | none => simp [turn?, hnone] at hr
      | some taskId => rfl
    have hneither : ((turn? taskMetadata record).isSome || (attributed record).isNone) = false := by
      simp [hnone, hid]
    have hlt : records.countP (fun r => (turn? taskMetadata r).isSome || (attributed r).isNone) <
        records.length := List.countP_lt_length_iff.mpr ⟨record, hrecord, hneither⟩
    rw [countP_or_of_disjoint hdisjoint, List.countP_eq_length_filter,
      List.countP_eq_length_filter] at hlt
    omega
  · intro hknown
    have hsplit := sum_filter_add ofRecord (fun r => (attributed r).isNone) records
    rw [List.filter_congr fun record hrecord => turn?_isSome_of_known hknown hrecord, add_comm]
    exact hsplit

end

/-! ### What a report needs -/

/-- The records of tasks have names that no object has from the start, and dates. -/
structure Plain (record : TokenCostRecord) : Prop where
  model : record.model ∉ JsObjects.members
  agentName : record.agentName ∉ JsObjects.members
  timestamp : (timeClip record.timestamp).isSome = true

/-- The cost report conserves cost if and only if every record with a task id is of a task that is
there, has names that are not those of members of an object, and has a date. -/
theorem conserves_iff (localeCompare : String → String → Int) (records : List TokenCostRecord)
    (taskMetadata : TaskMetadata) :
    (∃ report, buildTaskCostReport localeCompare records taskMetadata = some report ∧
        Conserves records taskMetadata report) ↔
      ∀ record ∈ records, ∀ taskId, attributed record = some taskId →
        (taskMetadata taskId).isSome = true ∧ Plain record := by
  have hplain : ∀ record : TokenCostRecord, inherited record.model = false ∧
      inherited record.agentName = false ∧ (timeClip record.timestamp).isSome = true ↔
      Plain record := by
    intro record
    unfold inherited
    constructor
    · rintro ⟨hmodel, hagent, htime⟩
      exact ⟨of_decide_eq_false hmodel, of_decide_eq_false hagent, htime⟩
    · rintro ⟨hmodel, hagent, htime⟩
      exact ⟨decide_eq_false hmodel, decide_eq_false hagent, htime⟩
  constructor
  · rintro ⟨report, hreport, hconserves⟩ record hrecord taskId hid
    have hknown := (total_iff hreport).mp hconserves.all
    obtain ⟨found, hfound⟩ := Option.isSome_iff_exists.mp (hknown record hrecord taskId hid)
    have hturn : (⟨taskId, found, record⟩ : Turn) ∈ records.filterMap (turn? taskMetadata) :=
      mem_turns.mpr ⟨hrecord, hid, hfound⟩
    have hnames := (report_isSome localeCompare records taskMetadata).mp
      (Option.isSome_iff_exists.mpr ⟨report, hreport⟩)
    exact ⟨hknown record hrecord taskId hid, (hplain record).mp (hnames _ hturn)⟩
  · intro hall
    obtain ⟨report, hreport⟩ := Option.isSome_iff_exists.mp
      ((report_isSome localeCompare records taskMetadata).mpr fun turn hturn => by
        obtain ⟨hrecord, hid, -⟩ := mem_turns.mp hturn
        exact (hplain turn.record).mpr (hall turn.record hrecord turn.taskId hid).2)
    have hknown : Known records taskMetadata := fun record hrecord taskId hid =>
      (hall record hrecord taskId hid).1
    exact ⟨report, hreport, conserves_of_report hreport ((total_iff hreport).mpr hknown)⟩

/-- An agent with the name of a member. -/
def constructorRecord : TokenCostRecord :=
  ⟨"sonnet", "constructor", .finite 1772672400000, 100, 1 / 10, some (.finite 101)⟩

def taskOne : TaskCostMetadata :=
  ⟨"Task One", "in_progress", "high", some "alpha", some 1, some "Core", some "core", some 12,
    some "CORE"⟩

def sampleMetadata : TaskMetadata := fun taskId => if taskId = 101 then some taskOne else none

/-- No report is built where an agent is called `constructor`. -/
theorem constructor_no_report :
    ¬∃ report, buildTaskCostReport (fun _ _ => 0) [constructorRecord] sampleMetadata = some report ∧
      Conserves [constructorRecord] sampleMetadata report := by
  rintro ⟨report, hreport, -⟩
  have hnone : buildTaskCostReport (fun _ _ => 0) [constructorRecord] sampleMetadata = none := by
    decide +kernel
  rw [hnone] at hreport
  cases hreport

end MissionControl.Tokens.CostConservation
