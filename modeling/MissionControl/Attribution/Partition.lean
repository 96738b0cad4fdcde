import MissionControl.Foundations.Groups
import MissionControl.Foundations.LikePatterns
import MissionControl.Foundations.Query

/-!
What an agent used: the rows of `token_usage` whose session is the agent's, by model and by day.
-/

set_option autoImplicit false
set_option relaxedAutoImplicit false

namespace MissionControl.Attribution.Costs

open MissionControl.Foundations.Groups
open MissionControl.Foundations.Query

/-! ### The table -/

/-- A row of `token_usage`. It is written when the clock shows `createdAt`, and the clock shows no
time after the last that a date can hold. -/
structure UsageRow where
  model : String
  sessionId : String
  inputTokens : Int
  outputTokens : Int
  createdAt : Nat
  workspaceId : Nat
  dated : createdAt ≤ 8640000000000
  deriving DecidableEq

/-- `COUNT(*)` and the two sums. -/
structure Usage where
  requests : Nat
  inputTokens : Int
  outputTokens : Int
  deriving DecidableEq

namespace Usage

@[ext] theorem ext {u v : Usage} (hrequests : u.requests = v.requests)
    (hinput : u.inputTokens = v.inputTokens) (houtput : u.outputTokens = v.outputTokens) :
    u = v := by
  cases u
  cases v
  simp only at hrequests hinput houtput
  subst hrequests hinput houtput
  rfl

def add (u v : Usage) : Usage :=
  ⟨u.requests + v.requests, u.inputTokens + v.inputTokens, u.outputTokens + v.outputTokens⟩

instance : Add Usage := ⟨add⟩

instance : Zero Usage := ⟨⟨0, 0, 0⟩⟩

@[simp] theorem add_requests (u v : Usage) : (u + v).requests = u.requests + v.requests := rfl

@[simp] theorem add_inputTokens (u v : Usage) :
    (u + v).inputTokens = u.inputTokens + v.inputTokens := rfl

@[simp] theorem add_outputTokens (u v : Usage) :
    (u + v).outputTokens = u.outputTokens + v.outputTokens := rfl

@[simp] theorem zero_requests : (0 : Usage).requests = 0 := rfl

@[simp] theorem zero_inputTokens : (0 : Usage).inputTokens = 0 := rfl

@[simp] theorem zero_outputTokens : (0 : Usage).outputTokens = 0 := rfl

theorem add_assoc (u v w : Usage) : u + v + w = u + (v + w) := by
  ext <;> simp [Nat.add_assoc, Int.add_assoc]

theorem add_comm (u v : Usage) : u + v = v + u := by
  ext <;> simp [Nat.add_comm, Int.add_comm]

theorem zero_add (u : Usage) : 0 + u = u := by
  ext <;> simp

instance : AddCommMonoid Usage where
  add_assoc := add_assoc
  add_comm := add_comm
  zero_add := zero_add
  add_zero u := by rw [add_comm, zero_add]
  nsmul := nsmulRec

end Usage

def UsageRow.usage (row : UsageRow) : Usage := ⟨1, row.inputTokens, row.outputTokens⟩

/-- What rows together used. -/
def used (rows : List UsageRow) : Usage := (rows.map UsageRow.usage).sum

/-! ### The queries -/

/-- `${agentName}:%`. -/
def sessionPattern (agentName : String) : List Char := agentName.toList ++ [':', '%']

def sessionLike (agentName : String) (row : UsageRow) : Bool :=
  like (sessionPattern agentName) row.sessionId.toList

/-- `workspace_id = ? AND created_at >= ?`. -/
def inWindow (workspaceId : Nat) (since : Int) (row : UsageRow) : Bool :=
  decide (row.workspaceId = workspaceId) && decide (since ≤ (row.createdAt : Int))

section

variable (rows : List UsageRow) (agentName : String) (workspaceId : Nat) (since : Int)

def exactRows : List UsageRow :=
  rows.filter fun row => decide (row.sessionId = agentName) && inWindow workspaceId since row

def altRows : List UsageRow :=
  rows.filter fun row =>
    sessionLike agentName row && decide (row.sessionId ≠ agentName) &&
      inWindow workspaceId since row

def dailyRows : List UsageRow :=
  rows.filter fun row =>
    (decide (row.sessionId = agentName) || sessionLike agentName row) &&
      inWindow workspaceId since row

end

structure ModelRow extends Usage where
  model : String
  deriving DecidableEq

structure DayRow extends Usage where
  dayBucket : Nat
  deriving DecidableEq

/-- How the database answers the queries. `ORDER BY (input_tokens + output_tokens)` names columns
that are not grouped by, so the models of a query come in any order. -/
structure Queries where
  byModel : OrderBy fun _ _ : ModelRow => True
  daily : OrderBy fun a b : DayRow => a.dayBucket ≤ b.dayBucket
  /-- `new Date(milliseconds).toISOString()`. -/
  toISOString : Nat → String

/-- `(created_at / 86400) * 86400`. -/
def dayBucket (row : UsageRow) : Nat := row.createdAt / 86400 * 86400

def modelRows (rows : List UsageRow) : List ModelRow :=
  (groups UsageRow.model rows).map fun group => ⟨used group.2, group.1⟩

def dayRows (rows : List UsageRow) : List DayRow :=
  (groups dayBucket rows).map fun group => ⟨used group.2, group.1⟩

/-! ### The report -/

/-- One turn of the loop that merges the models of the two queries. -/
def mergeRow (merged : List ModelRow) (row : ModelRow) : List ModelRow :=
  if merged.any fun existing => existing.model = row.model then
    merged.map fun existing =>
      if existing.model = row.model then { existing with toUsage := existing.toUsage + row.toUsage }
      else existing
  else merged ++ [row]

def merge (rows : List ModelRow) : List ModelRow := rows.foldl mergeRow []

/-- `models.reduce(…)`. -/
def total (models : List ModelRow) : Usage := models.foldl (fun acc row => acc + row.toUsage) 0

structure DayItem extends DayRow where
  date : String
  deriving DecidableEq

def dayItem (queries : Queries) (row : DayRow) : DayItem :=
  ⟨row, String.ofList ((queries.toISOString (row.dayBucket * 1000)).toList.takeWhile (· ≠ 'T'))⟩

structure CostReport where
  byModel : List ModelRow
  total : Usage
  dailyTrend : List DayItem
  deriving DecidableEq

/-- `buildCostAttribution`. -/
def buildCostAttribution (queries : Queries) (rows : List UsageRow) (agentName : String)
    (workspaceId : Nat) (since : Int) : CostReport :=
  let byModel := queries.byModel.arrange (modelRows (exactRows rows agentName workspaceId since))
  let byModelAlt := queries.byModel.arrange (modelRows (altRows rows agentName workspaceId since))
  let models := merge (byModel ++ byModelAlt)
  let daily := queries.daily.arrange (dayRows (dailyRows rows agentName workspaceId since))
  ⟨models, total models, daily.map (dayItem queries)⟩

/-! ### Sums -/

theorem used_append (rows rows' : List UsageRow) :
    used (rows ++ rows') = used rows + used rows' := by
  rw [used, List.map_append, List.sum_append]
  rfl

theorem used_perm {rows rows' : List UsageRow} (h : rows.Perm rows') : used rows = used rows' :=
  (h.map UsageRow.usage).sum_eq

theorem used_requests (rows : List UsageRow) : (used rows).requests = rows.length := by
  induction rows with
  | nil => rfl
  | cons row rows ih =>
    have hcons : used (row :: rows) = row.usage + used rows := List.sum_cons
    rw [hcons, Usage.add_requests, ih, List.length_cons, Nat.add_comm]
    rfl

theorem sum_modelRows (rows : List UsageRow) :
    ((modelRows rows).map ModelRow.toUsage).sum = used rows := by
  rw [modelRows, List.map_map]
  exact sum_groups UsageRow.usage UsageRow.model rows

theorem sum_dayRows (rows : List UsageRow) :
    ((dayRows rows).map DayRow.toUsage).sum = used rows := by
  rw [dayRows, List.map_map]
  exact sum_groups UsageRow.usage dayBucket rows

end MissionControl.Attribution.Costs

/-!
Which rows of `token_usage` are an agent's. The sessions of an agent are looked up by a pattern that
is made of its name as it is, so that they are the agent's own just if the name matches nothing
else.
-/

namespace MissionControl.Attribution.Partition

open Costs
open MissionControl.Foundations
open MissionControl.Foundations.LikePatterns
open MissionControl.Foundations.Query (OrderBy like)

/-! ### Rows of an agent -/

section

variable (rows : List UsageRow) (agentName : String) (workspaceId : Nat) (since : Int)

/-- The rows that the models of the report are counted from. -/
def attributedRows : List UsageRow :=
  exactRows rows agentName workspaceId since ++ altRows rows agentName workspaceId since

/-- The session is called after the agent, or after the agent and something behind a colon. -/
def Named (row : UsageRow) : Prop :=
  row.sessionId = agentName ∨ agentName.toList ++ [':'] <+: row.sessionId.toList

instance (row : UsageRow) : Decidable (Named agentName row) :=
  inferInstanceAs (Decidable (_ ∨ _))

/-- Where the name matches what stands before a colon, the session is called after the agent. -/
def Literal (row : UsageRow) : Prop :=
  ∀ front rest, row.sessionId.toList = front ++ ':' :: rest →
    like agentName.toList front = true → Named agentName row

theorem sessionLike_iff {agentName : String} {row : UsageRow} :
    sessionLike agentName row = true ↔
      ∃ front rest, row.sessionId.toList = front ++ ':' :: rest ∧
        like agentName.toList front = true := by
  have hcolon : ∀ back, like [':', '%'] back = true ↔ ∃ rest, back = ':' :: rest := by
    intro back
    rw [like_cons (by decide)]
    constructor
    · rintro ⟨c, rest, rfl, hc, -⟩
      have hlower : c.toLower = ':' := (hc.resolve_left (by decide)).symm
      obtain rfl := (LetterCase.toLower_eq_iff (by decide)).mp hlower
      exact ⟨rest, rfl⟩
    · rintro ⟨rest, rfl⟩
      exact ⟨':', rest, rfl, .inr rfl, like_any rest⟩
  rw [sessionLike, sessionPattern, like_append]
  constructor
  · rintro ⟨front, back, hsession, hfront, hback⟩
    obtain ⟨rest, rfl⟩ := (hcolon back).mp hback
    exact ⟨front, rest, hsession, hfront⟩
  · rintro ⟨front, rest, hsession, hfront⟩
    exact ⟨front, ':' :: rest, hsession, hfront, (hcolon _).mpr ⟨rest, rfl⟩⟩

/-- What is called after an agent is looked up by its name. -/
theorem matched_of_named {agentName : String} {row : UsageRow} (h : Named agentName row) :
    row.sessionId = agentName ∨ sessionLike agentName row = true := by
  refine h.imp_right fun ⟨rest, hrest⟩ =>
    sessionLike_iff.mpr ⟨agentName.toList, rest, ?_, like_self _⟩
  rw [← hrest, List.append_assoc]
  rfl

/-- The two lookups together find what the name matches, and each row once. -/
theorem attributedRows_perm :
    (attributedRows rows agentName workspaceId since).Perm
      (dailyRows rows agentName workspaceId since) := by
  have hexact : exactRows rows agentName workspaceId since
      = (dailyRows rows agentName workspaceId since).filter
          fun row => decide (row.sessionId = agentName) := by
    rw [dailyRows, List.filter_filter, exactRows]
    refine List.filter_congr fun row _ => ?_
    by_cases hsession : row.sessionId = agentName
    · simp [hsession]
    · simp [hsession]
  have halt : altRows rows agentName workspaceId since
      = (dailyRows rows agentName workspaceId since).filter
          fun row => !decide (row.sessionId = agentName) := by
    rw [dailyRows, List.filter_filter, altRows]
    refine List.filter_congr fun row _ => ?_
    by_cases hsession : row.sessionId = agentName
    · simp [hsession]
    · simp [hsession]
  rw [attributedRows, hexact, halt]
  exact List.filter_append_perm _ _

variable {rows agentName workspaceId since}

theorem mem_attributedRows {row : UsageRow} :
    row ∈ attributedRows rows agentName workspaceId since ↔
      row ∈ rows ∧ inWindow workspaceId since row = true ∧
        (row.sessionId = agentName ∨ sessionLike agentName row = true) := by
  rw [(attributedRows_perm rows agentName workspaceId since).mem_iff, dailyRows, List.mem_filter]
  simp [and_comm]

/-- In a window, the rows called after the agent are those of the report just if the name is
literal there. -/
theorem attributed_iff_named {row : UsageRow} (hrow : row ∈ rows)
    (hwindow : inWindow workspaceId since row = true) :
    (row ∈ attributedRows rows agentName workspaceId since ↔ Named agentName row) ↔
      Literal agentName row := by
  rw [mem_attributedRows]
  constructor
  · intro h front rest hsession hfront
    exact h.mp ⟨hrow, hwindow, .inr (sessionLike_iff.mpr ⟨front, rest, hsession, hfront⟩)⟩
  · intro h
    refine ⟨?_, fun hnamed => ⟨hrow, hwindow, matched_of_named hnamed⟩⟩
    rintro ⟨-, -, hsession | hlike⟩
    · exact .inl hsession
    · obtain ⟨front, rest, hsession, hfront⟩ := sessionLike_iff.mp hlike
      exact h front rest hsession hfront

/-- A name without wildcards is literal unless a session begins with it in other letter case. -/
theorem literal_iff_of_plain {row : UsageRow} (hany : '%' ∉ agentName.toList)
    (hone : '_' ∉ agentName.toList) :
    Literal agentName row ↔
      ∀ front rest, row.sessionId.toList = front ++ ':' :: rest →
        agentName.toList.map Char.toLower = front.map Char.toLower → Named agentName row := by
  simp only [Literal, like_plain hany hone]

/-- What stands before a colon is the name, if the name has no colon. -/
theorem name_of_named {row : UsageRow} (hcolon : ':' ∉ agentName.toList)
    (h : Named agentName row) : agentName.toList = row.sessionId.toList.takeWhile (· ≠ ':') := by
  have hall : ∀ c ∈ agentName.toList, decide (c ≠ ':') = true := by
    intro c hc
    exact decide_eq_true fun hcontra => hcolon (hcontra ▸ hc)
  rcases h with hsession | ⟨rest, hrest⟩
  · rw [hsession, List.takeWhile_eq_self_iff.mpr hall]
  · rw [← hrest, List.append_assoc, List.takeWhile_append_of_pos hall]
    simp

end

/-! ### Balance -/

/-- The report counts the rows: by model, by day and in all. -/
structure Balanced (rows : List UsageRow) (report : CostReport) : Prop where
  total : report.total = used rows
  byModel : (report.byModel.map ModelRow.toUsage).sum = report.total
  dailyTrend : (report.dailyTrend.map fun day => day.toUsage).sum = report.total
  models : (report.byModel.map ModelRow.model).Nodup
  ofModel : ∀ entry ∈ report.byModel,
    entry.toUsage = used (rows.filter fun row => row.model = entry.model)
  days : (report.dailyTrend.map fun day => day.dayBucket).Pairwise (· < ·)
  ofDay : ∀ day ∈ report.dailyTrend,
    day.toUsage = used (rows.filter fun row => dayBucket row = day.dayBucket)

theorem mergeRow_eq (merged : List ModelRow) (row : ModelRow) :
    mergeRow merged row = Groups.addTo ModelRow.model
      (fun existing row => { existing with toUsage := existing.toUsage + row.toUsage }) merged row :=
  rfl

theorem nodup_merge (rows : List ModelRow) : ((merge rows).map ModelRow.model).Nodup := by
  induction rows using List.reverseRecOn with
  | nil => exact List.nodup_nil
  | append_singleton rows row ih =>
    rw [merge, List.foldl_append, List.foldl_cons, List.foldl_nil, mergeRow_eq]
    apply Groups.nodup_addTo
    · intro existing row
      rfl
    · exact ih

/-- Merging keeps the sum over the models that satisfy a predicate. -/
theorem sum_merge (p : String → Prop) [DecidablePred p] (rows : List ModelRow) :
    ((merge rows).map fun row => if p row.model then row.toUsage else 0).sum
      = (rows.map fun row => if p row.model then row.toUsage else 0).sum := by
  induction rows using List.reverseRecOn with
  | nil => rfl
  | append_singleton rows row ih =>
    have hadd : ∀ existing row : ModelRow, existing.model = row.model →
        (if p existing.model then existing.toUsage + row.toUsage else 0)
          = (if p existing.model then existing.toUsage else 0)
            + if p row.model then row.toUsage else 0 := by
      intro existing row hmodel
      rw [hmodel]
      split
      · rfl
      · exact (add_zero 0).symm
    have hstep : merge (rows ++ [row]) = mergeRow (merge rows) row := by
      rw [merge, List.foldl_append, List.foldl_cons, List.foldl_nil, merge]
    rw [hstep, mergeRow_eq, Groups.sum_addTo hadd (nodup_merge rows), ih, List.map_append,
      List.sum_append]
    simp

theorem total_eq_sum (models : List ModelRow) :
    total models = (models.map ModelRow.toUsage).sum := by
  induction models using List.reverseRecOn with
  | nil => rfl
  | append_singleton models row ih =>
    have hstep : total (models ++ [row]) = total models + row.toUsage := by
      rw [total, List.foldl_append, List.foldl_cons, List.foldl_nil, total]
    rw [hstep, ih, List.map_append, List.sum_append]
    simp

/-- Every entry of the report counts the rows of its model. -/
theorem sum_modelRows_of (p : String → Prop) [DecidablePred p] (rows : List UsageRow) :
    ((modelRows rows).map fun row => if p row.model then row.toUsage else 0).sum
      = used (rows.filter fun row => p row.model) := by
  rw [modelRows, List.map_map]
  exact Groups.sum_groups_of UsageRow.usage UsageRow.model p rows

section

variable (queries : Queries) (rows : List UsageRow) (agentName : String) (workspaceId : Nat)
  (since : Int)

theorem sum_byModel (p : String → Prop) [DecidablePred p] :
    ((buildCostAttribution queries rows agentName workspaceId since).byModel.map
        fun row => if p row.model then row.toUsage else 0).sum
      = used ((attributedRows rows agentName workspaceId since).filter fun row => p row.model) := by
  have hquery : ∀ found : List UsageRow,
      ((queries.byModel.arrange (modelRows found)).map
        fun row => if p row.model then row.toUsage else 0).sum
        = used (found.filter fun row => p row.model) := by
    intro found
    rw [← sum_modelRows_of]
    exact ((queries.byModel.perm (modelRows found)).map _).sum_eq
  rw [buildCostAttribution]
  dsimp only
  rw [sum_merge, List.map_append, List.sum_append, hquery, hquery, attributedRows,
    List.filter_append, used_append]

theorem sum_dailyTrend :
    ((buildCostAttribution queries rows agentName workspaceId since).dailyTrend.map
        fun day => day.toUsage).sum
      = used (dailyRows rows agentName workspaceId since) := by
  rw [← sum_dayRows, buildCostAttribution]
  dsimp only
  rw [List.map_map]
  exact ((queries.daily.perm _).map DayRow.toUsage).sum_eq

theorem nodup_dailyTrend :
    ((dayRows (dailyRows rows agentName workspaceId since)).map DayRow.dayBucket).Nodup := by
  have hkeys := Groups.nodup_keys dayBucket (dailyRows rows agentName workspaceId since)
  simpa [dayRows, Function.comp_def] using hkeys

/-- The report of an agent counts the attributed rows. -/
theorem balanced :
    Balanced (attributedRows rows agentName workspaceId since)
      (buildCostAttribution queries rows agentName workspaceId since) := by
  have hall := sum_byModel queries rows agentName workspaceId since fun _ => True
  simp only [if_true, decide_true, List.filter_true] at hall
  have hmodels : ((buildCostAttribution queries rows agentName workspaceId since).byModel.map
      ModelRow.model).Nodup := nodup_merge _
  have hperm := attributedRows_perm rows agentName workspaceId since
  have htotal : (buildCostAttribution queries rows agentName workspaceId since).total
      = used (attributedRows rows agentName workspaceId since) := by
    rw [← hall]
    exact total_eq_sum _
  refine ⟨htotal, hall.trans htotal.symm, ?_, hmodels, ?_, ?_, ?_⟩
  · rw [sum_dailyTrend, htotal, used_perm hperm]
  · intro entry hentry
    rw [← sum_byModel queries rows agentName workspaceId since fun model => model = entry.model]
    exact (Groups.sum_of_key ModelRow.toUsage hmodels hentry).symm
  · have hsorted := queries.daily.sorted (dayRows (dailyRows rows agentName workspaceId since))
    have hnodup := ((queries.daily.perm _).map DayRow.dayBucket).nodup_iff.mpr
      (nodup_dailyTrend rows agentName workspaceId since)
    have hdays : ((buildCostAttribution queries rows agentName workspaceId since).dailyTrend.map
        fun day => day.dayBucket)
        = (queries.daily.arrange
            (dayRows (dailyRows rows agentName workspaceId since))).map DayRow.dayBucket := by
      rw [buildCostAttribution]
      dsimp only
      rw [List.map_map]
      rfl
    rw [hdays]
    exact ((List.pairwise_map.mpr hsorted).and hnodup).imp fun h => Nat.lt_of_le_of_ne h.1 h.2
  · intro day hday
    obtain ⟨row, hrow, rfl⟩ := List.mem_map.mp hday
    have hmem := (queries.daily.perm _).mem_iff.mp hrow
    obtain ⟨group, hgroup, rfl⟩ := List.mem_map.mp hmem
    obtain ⟨-, hrows⟩ := Groups.mem_groups.mp hgroup
    show used group.2 = _
    rw [hrows, used_perm (hperm.filter _)]
    rfl

end

/-! ### The claim -/

/-- The reports of agents share the rows of a window out as the sessions are called. -/
structure Partitions (queries : Queries) (rows : List UsageRow) (workspaceId : Nat) (since : Int)
    (names : List String) : Prop where
  named : ∀ name ∈ names, ∀ row ∈ rows, inWindow workspaceId since row = true →
    (row ∈ attributedRows rows name workspaceId since ↔ Named name row)
  once : ∀ name ∈ names, (attributedRows rows name workspaceId since).Perm
    (rows.filter fun row => inWindow workspaceId since row && decide (Named name row))
  apart : ∀ name ∈ names, ∀ name' ∈ names, name ≠ name' → ':' ∉ name.toList → ':' ∉ name'.toList →
    ∀ row ∈ attributedRows rows name workspaceId since,
      row ∉ attributedRows rows name' workspaceId since
  balanced : ∀ name ∈ names, Balanced (attributedRows rows name workspaceId since)
    (buildCostAttribution queries rows name workspaceId since)

theorem attributedRows_perm_named {rows : List UsageRow} {name : String} {workspaceId : Nat}
    {since : Int}
    (h : ∀ row ∈ rows, inWindow workspaceId since row = true →
      (row ∈ attributedRows rows name workspaceId since ↔ Named name row)) :
    (attributedRows rows name workspaceId since).Perm
      (rows.filter fun row => inWindow workspaceId since row && decide (Named name row)) := by
  have hfilter : dailyRows rows name workspaceId since
      = rows.filter fun row => inWindow workspaceId since row && decide (Named name row) := by
    refine List.filter_congr fun row hrow => ?_
    cases hwindow : inWindow workspaceId since row with
    | false => rw [Bool.and_false, Bool.false_and]
    | true =>
      have hnamed := mem_attributedRows.symm.trans (h row hrow hwindow)
      rw [Bool.and_true, Bool.true_and, Bool.eq_iff_iff, Bool.or_eq_true, decide_eq_true_eq,
        decide_eq_true_eq, ← hnamed]
      simp [hrow, hwindow]
  rw [← hfilter]
  exact attributedRows_perm rows name workspaceId since

/-- For every table, every window and all agents, the reports attribute to each agent exactly the
rows of the sessions called after it, no row to two agents without a colon in the name, and balance,
if and only if every name is literal in the sessions of the window. -/
theorem cost_attribution_iff (queries : Queries) (rows : List UsageRow) (workspaceId : Nat)
    (since : Int) (names : List String) :
    Partitions queries rows workspaceId since names ↔
      ∀ name ∈ names, ∀ row ∈ rows, inWindow workspaceId since row = true → Literal name row := by
  constructor
  · intro h name hname row hrow hwindow
    exact (attributed_iff_named hrow hwindow).mp (h.named name hname row hrow hwindow)
  · intro h
    have hnamed : ∀ name ∈ names, ∀ row ∈ rows, inWindow workspaceId since row = true →
        (row ∈ attributedRows rows name workspaceId since ↔ Named name row) := by
      intro name hname row hrow hwindow
      exact (attributed_iff_named hrow hwindow).mpr (h name hname row hrow hwindow)
    refine ⟨hnamed, fun name hname => attributedRows_perm_named (hnamed name hname), ?_,
      fun name _ => balanced queries rows name workspaceId since⟩
    intro name hname name' hname' hne hcolon hcolon' row hattributed hcontra
    obtain ⟨hrow, hwindow, -⟩ := mem_attributedRows.mp hattributed
    have hfirst := (hnamed name hname row hrow hwindow).mp hattributed
    have hsecond := (hnamed name' hname' row hrow hwindow).mp hcontra
    apply hne
    rw [← String.toList_inj, name_of_named hcolon hfirst, name_of_named hcolon' hsecond]

/-- Models as they are found, days in order, all on the first day of the clock. -/
def firstDay : Queries :=
  ⟨⟨id, fun rows => List.Perm.refl rows, fun _ => List.pairwise_of_forall fun _ _ => trivial⟩,
    OrderBy.stable (Query.sorts_by_key DayRow.dayBucket), fun _ => "1970-01-01T00:00:00.000Z"⟩

/-- What the agent Worker reported. -/
def workerUsage : UsageRow := ⟨"claude", "Worker:cli", 100, 20, 3600, 1, by decide⟩

/-- What Worker uses is attributed to the agent worker as well. -/
theorem usage_attributed_twice :
    ¬ ∀ (queries : Queries) (rows : List UsageRow) (workspaceId : Nat) (since : Int)
      (names : List String), names.Nodup → Partitions queries rows workspaceId since names := by
  intro h
  have hpart := h firstDay [workerUsage] 1 0 ["worker", "Worker"] (by decide)
  have hattributed : ∀ name ∈ ["worker", "Worker"],
      workerUsage ∈ attributedRows [workerUsage] name 1 0 := by
    intro name hname
    refine mem_attributedRows.mpr ⟨List.mem_singleton_self _, by decide +kernel, .inr ?_⟩
    revert name
    decide +kernel
  exact hpart.apart "worker" (by decide) "Worker" (by decide) (by decide) (by decide) (by decide)
    workerUsage (hattributed "worker" (by decide)) (hattributed "Worker" (by decide))

end MissionControl.Attribution.Partition
