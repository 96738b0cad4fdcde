import MissionControl.Foundations.JsText
import MissionControl.Foundations.Query
import MissionControl.Foundations.Transition

/-!
The archive of standup reports. Its table was made with the date as its key, and a migration
added the workspace as a further column: a report takes the place of whatever report of its
date the archive holds.
-/

set_option autoImplicit false
set_option relaxedAutoImplicit false

namespace MissionControl.Standups.Reports

open MissionControl.Foundations.JsText
open MissionControl.Foundations.Query
open MissionControl.Foundations.Transition (Machine)

/-! ### Tables -/

/-- The summary of a report. -/
structure Summary where
  totalAgents : Nat
  totalCompleted : Nat
  totalInProgress : Nat
  totalAssigned : Nat
  totalReview : Nat
  totalBlocked : Nat
  totalActivity : Nat
  overdue : Nat
  deriving DecidableEq

/-- A report; `details` is the text of its sections on agents and tasks. -/
structure StandupReport where
  date : String
  generatedAt : String
  summary : Summary
  details : String
  deriving DecidableEq

/-- A row of `standup_reports`; `report` is the object that the column holds as a text. -/
structure ReportRow where
  date : String
  report : StandupReport
  createdAt : Nat
  workspaceId : Nat
  deriving DecidableEq

/-- The table as the first schema has it. -/
structure Archive where
  rows : List (String × StandupReport × Nat)
  primaryKey : (rows.map Prod.fst).Nodup

/-- The table, every row that was ever stored, and the clock in milliseconds. -/
structure World where
  rows : List ReportRow
  history : List ReportRow
  now : Nat
  deriving DecidableEq

/-- The part of the migration `021_workspace_isolation_phase1` that adds the column. -/
def addWorkspaceIdColumn (archive : Archive) : List ReportRow :=
  archive.rows.map fun row => ⟨row.1, row.2.1, row.2.2, 1⟩

def World.migrated (archive : Archive) (now : Nat) : World :=
  ⟨addWorkspaceIdColumn archive, addWorkspaceIdColumn archive, now⟩

/-! ### Routes -/

/-- `new Date(milliseconds).toISOString()`. -/
structure Environment where
  toISOString : Nat → String

/-- `body.date || new Date().toISOString().split('T')[0]`. -/
def targetDate (env : Environment) (now : Nat) (date : Option String) : String :=
  (truthy date).getD (String.ofList ((env.toISOString now).toList.takeWhile (· ≠ 'T')))

/-- `INSERT OR REPLACE INTO standup_reports`. -/
def insertOrReplace (rows : List ReportRow) (row : ReportRow) : List ReportRow :=
  rows.filter (fun r => r.date ≠ row.date) ++ [row]

/-- `POST /api/standup`, for what its queries have found. -/
def postStandup (env : Environment) (w : World) (workspaceId : Nat) (date : Option String)
    (summary : Summary) (details : String) : World :=
  let date := targetDate env w.now date
  let row : ReportRow :=
    ⟨date, ⟨date, env.toISOString w.now, summary, details⟩, seconds w.now, workspaceId⟩
  { w with rows := insertOrReplace w.rows row, history := w.history ++ [row] }

structure HistoryItem where
  id : String
  date : String
  generatedAt : String
  summary : Summary
  agentCount : Nat
  deriving DecidableEq

structure HistoryPage where
  history : List HistoryItem
  total : Nat
  /-- The number of the page, or `null`. -/
  page : Option Int
  limit : Int
  deriving DecidableEq

inductive Reply where
  | history (page : HistoryPage)
  | refused (status : Nat) (error : String)
  deriving DecidableEq

/-- `ORDER BY created_at DESC`. -/
def LatestFirst (r r' : ReportRow) : Prop := r'.createdAt ≤ r.createdAt

instance decidableLatestFirst : DecidableRel LatestFirst :=
  fun r r' => inferInstanceAs (Decidable (r'.createdAt ≤ r.createdAt))

/-- The reports that the pages of a workspace go through. -/
def listing (order : OrderBy LatestFirst) (w : World) (workspaceId : Nat) : List ReportRow :=
  order.arrange (w.rows.filter fun r => r.workspaceId = workspaceId)

def historyItem (env : Environment) (index : Nat) (row : ReportRow) : HistoryItem where
  id := row.date ++ "-" ++ toString index
  date := orElse row.date (orElse row.report.date "Unknown")
  generatedAt := orElse row.report.generatedAt (env.toISOString (row.createdAt * 1000))
  summary := row.report.summary
  agentCount := row.report.summary.totalAgents

/-- `GET /api/standup`. A limit or an offset that is no number makes the query fail. -/
def getStandups (env : Environment) (order : OrderBy LatestFirst) (w : World) (workspaceId : Nat)
    (limit offset : Option String) : Reply :=
  match parseInt (orElse (limit.getD "") "10"), parseInt (orElse (offset.getD "") "0") with
  | some limit, some offset =>
    let limit := min limit 200
    let rows := listing order w workspaceId
    .history
      { history := (page limit offset rows).mapIdx (historyItem env)
        total := rows.length
        page := if limit = 0 then none else some (offset.fdiv limit + 1)
        limit := limit }
  | _, _ => .refused 500 "Failed to fetch standup history"

inductive Event where
  | wait (milliseconds : Nat)
  | post (workspaceId : Nat) (date : Option String) (summary : Summary) (details : String)
  deriving DecidableEq

def machine (env : Environment) : Machine World Event where
  step w
    | .wait milliseconds => some { w with now := w.now + milliseconds }
    | .post workspaceId date summary details =>
      some (postStandup env w workspaceId date summary details)

end MissionControl.Standups.Reports

/-!
Whose reports the archive keeps. A report of a workspace is lost exactly when another workspace
generates one for the same date.
-/

namespace MissionControl.Standups.WorkspaceReports

open MissionControl.Foundations.Query
open MissionControl.Foundations.Transition (Machine)
open Reports

variable {env : Environment} {order : OrderBy LatestFirst} {w : World}

/-- The last report that the workspace generated for the date. -/
def latest (w : World) (workspaceId : Nat) (date : String) : Option ReportRow :=
  (w.history.filter fun r => r.workspaceId = workspaceId ∧ r.date = date).getLast?

/-- Every workspace is shown one report for each date that it generated, the latest one. -/
def Listed (order : OrderBy LatestFirst) (w : World) : Prop :=
  ∀ workspaceId date, (listing order w workspaceId).filter (fun r => r.date = date) =
    (latest w workspaceId date).toList

/-- The stored reports of the workspace. -/
def reportsOf (w : World) (workspaceId : Nat) : List ReportRow :=
  w.rows.filter fun r => r.workspaceId = workspaceId

/-- The step changes no report of a workspace other than the one that takes it. -/
def LeavesOthers (w : World) (e : Event) (w' : World) : Prop :=
  ∀ workspaceId date summary details, e = .post workspaceId date summary details →
    ∀ other, other ≠ workspaceId → reportsOf w' other = reportsOf w other

/-- No other workspace has generated a report for the date. -/
def OwnDate (env : Environment) (w : World) : Event → Prop
  | .wait _ => True
  | .post workspaceId date _ _ =>
    ∀ r ∈ w.history, r.date = targetDate env w.now date → r.workspaceId = workspaceId

instance decidableOwnDate (env : Environment) (w : World) :
    ∀ e, Decidable (OwnDate env w e)
  | .wait _ => inferInstanceAs (Decidable True)
  | .post workspaceId date _ _ => inferInstanceAs (Decidable
      (∀ r ∈ w.history, r.date = targetDate env w.now date → r.workspaceId = workspaceId))

/-! ### The archive -/

/-- The stored reports are the latest ones. -/
def Stored (w : World) : Prop :=
  ∀ workspaceId date, w.rows.filter (fun r => r.workspaceId = workspaceId ∧ r.date = date) =
    (latest w workspaceId date).toList

theorem perm_toList {α : Type} {l : List α} {o : Option α} : l.Perm o.toList ↔ l = o.toList := by
  cases o with
  | none => exact List.perm_nil
  | some a => exact List.perm_singleton

/-- The order in which reports are shown decides nothing about which are shown. -/
theorem listed_iff : Listed order w ↔ Stored w := by
  have hperm : ∀ workspaceId date,
      ((listing order w workspaceId).filter fun r => r.date = date).Perm
        (w.rows.filter fun r => r.workspaceId = workspaceId ∧ r.date = date) := by
    intro workspaceId date
    have hfilter : (reportsOf w workspaceId).filter (fun r => r.date = date) =
        w.rows.filter fun r => r.workspaceId = workspaceId ∧ r.date = date := by
      rw [reportsOf, List.filter_filter]
      apply List.filter_congr
      intro r _
      rw [Bool.and_comm, Bool.decide_and]
    rw [← hfilter]
    exact (order.perm (reportsOf w workspaceId)).filter _
  constructor
  · intro h workspaceId date
    apply perm_toList.mp
    rw [← h workspaceId date]
    exact (hperm workspaceId date).symm
  · intro h workspaceId date
    apply perm_toList.mp
    rw [← h workspaceId date]
    exact hperm workspaceId date

theorem migrated_rows {archive : Archive} (workspaceId : Nat) (date : String) :
    let rows := (addWorkspaceIdColumn archive).filter fun r =>
      r.workspaceId = workspaceId ∧ r.date = date
    rows = rows.getLast?.toList := by
  intro rows
  have hdates : ((addWorkspaceIdColumn archive).map (·.date)).Nodup := by
    rw [addWorkspaceIdColumn, List.map_map]
    exact archive.primaryKey
  have hsame : ∀ r ∈ rows, r.date = date := fun r hr =>
    (of_decide_eq_true (List.mem_filter.mp hr).2 : r.workspaceId = workspaceId ∧ r.date = date).2
  have hnodup : (rows.map (·.date)).Nodup :=
    hdates.sublist (List.filter_sublist.map ReportRow.date)
  generalize rows = l at hsame hnodup
  match l with
  | [] => rfl
  | [_] => rfl
  | r :: r' :: rs =>
    have hdate : r.date = r'.date :=
      (hsame r List.mem_cons_self).trans
        (hsame r' (List.mem_cons_of_mem r List.mem_cons_self)).symm
    have hmem : r.date ∈ (r' :: rs).map ReportRow.date :=
      List.mem_map.mpr ⟨r', List.mem_cons_self, hdate.symm⟩
    exact absurd hmem (List.nodup_cons.mp hnodup).1

theorem Stored.migrated (archive : Archive) (now : Nat) : Stored (World.migrated archive now) :=
  fun workspaceId date => migrated_rows workspaceId date

/-! ### A report is generated -/

/-- The row that a request stores. -/
def newRow (env : Environment) (w : World) (workspaceId : Nat) (date : Option String)
    (summary : Summary) (details : String) : ReportRow :=
  ⟨targetDate env w.now date,
    ⟨targetDate env w.now date, env.toISOString w.now, summary, details⟩,
    MissionControl.Foundations.JsText.seconds w.now, workspaceId⟩

section Post

variable {workspaceId : Nat} {date : Option String} {summary : Summary} {details : String}

theorem postStandup_eq : postStandup env w workspaceId date summary details =
    { w with
      rows := w.rows.filter (fun r => r.date ≠ targetDate env w.now date) ++
        [newRow env w workspaceId date summary details]
      history := w.history ++ [newRow env w workspaceId date summary details] } := rfl

theorem newRow_matches {other : Nat} {d : String} :
    ((newRow env w workspaceId date summary details).workspaceId = other ∧
      (newRow env w workspaceId date summary details).date = d) ↔
      d = targetDate env w.now date ∧ other = workspaceId :=
  ⟨fun h => ⟨h.2.symm, h.1.symm⟩, fun h => ⟨h.2.symm, h.1.symm⟩⟩

theorem rows_post (other : Nat) (d : String) :
    (postStandup env w workspaceId date summary details).rows.filter
        (fun r => r.workspaceId = other ∧ r.date = d) =
      if d = targetDate env w.now date then
        if other = workspaceId then [newRow env w workspaceId date summary details] else []
      else w.rows.filter fun r => r.workspaceId = other ∧ r.date = d := by
  rw [postStandup_eq]
  dsimp only
  rw [List.filter_append, List.filter_filter, List.filter_singleton]
  by_cases hd : d = targetDate env w.now date
  · have hold : w.rows.filter (fun r => decide (r.workspaceId = other ∧ r.date = d) &&
        decide (r.date ≠ targetDate env w.now date)) = [] := by
      rw [List.filter_eq_nil_iff]
      intro r _ hr
      simp only [Bool.and_eq_true, decide_eq_true_eq] at hr
      exact hr.2 (hr.1.2.trans hd)
    rw [hold, if_pos hd, List.nil_append, decide_eq_decide.mpr newRow_matches]
    by_cases hother : other = workspaceId
    · rw [if_pos hother, decide_eq_true ⟨hd, hother⟩]
      rfl
    · rw [if_neg hother, decide_eq_false fun h => hother h.2]
      rfl
  · have hkept : w.rows.filter (fun r => decide (r.workspaceId = other ∧ r.date = d) &&
        decide (r.date ≠ targetDate env w.now date)) =
          w.rows.filter fun r => r.workspaceId = other ∧ r.date = d := by
      apply List.filter_congr
      intro r _
      by_cases hr : r.workspaceId = other ∧ r.date = d
      · have hne : r.date ≠ targetDate env w.now date := fun h => hd (hr.2.symm.trans h)
        rw [decide_eq_true hne, Bool.and_true]
      · rw [decide_eq_false hr, Bool.false_and]
    rw [hkept, if_neg hd, decide_eq_decide.mpr newRow_matches, decide_eq_false fun h => hd h.1]
    exact List.append_nil _

theorem latest_post (other : Nat) (d : String) :
    latest (postStandup env w workspaceId date summary details) other d =
      if d = targetDate env w.now date ∧ other = workspaceId then
        some (newRow env w workspaceId date summary details)
      else latest w other d := by
  rw [latest, latest, postStandup_eq]
  dsimp only
  rw [List.filter_append, List.filter_singleton]
  rw [decide_eq_decide.mpr newRow_matches]
  by_cases hown : d = targetDate env w.now date ∧ other = workspaceId
  · rw [if_pos hown, decide_eq_true hown, cond_true, List.getLast?_concat]
  · rw [if_neg hown, decide_eq_false hown, cond_false, List.append_nil]

theorem latest_eq_none {other : Nat} {d : String} :
    latest w other d = none ↔ ∀ r ∈ w.history, r.date = d → r.workspaceId ≠ other := by
  rw [latest, List.getLast?_eq_none_iff, List.filter_eq_nil_iff]
  constructor
  · intro h r hr hd hother
    exact h r hr (decide_eq_true ⟨hother, hd⟩)
  · intro h r hr hmatch
    obtain ⟨hother, hd⟩ : r.workspaceId = other ∧ r.date = d := of_decide_eq_true hmatch
    exact h r hr hd hother

theorem Stored.post (h : Stored w) (hown : OwnDate env w (.post workspaceId date summary details)) :
    Stored (postStandup env w workspaceId date summary details) := by
  intro other d
  rw [rows_post, latest_post]
  by_cases hd : d = targetDate env w.now date
  · rw [if_pos hd]
    by_cases hother : other = workspaceId
    · rw [if_pos hother, if_pos ⟨hd, hother⟩]
      rfl
    · have hnone : latest w other d = none := by
        rw [latest_eq_none]
        intro r hr hrd hro
        exact hother (hro.symm.trans (hown r hr (hrd.trans hd)))
      rw [if_neg hother, if_neg fun hboth => hother hboth.2, hnone]
      rfl
  · rw [if_neg hd, if_neg fun hboth => hd hboth.1]
    exact h other d

/-- A report for the date of another workspace takes the place of that workspace's report. -/
theorem not_stored_post (hnot : ¬ OwnDate env w (.post workspaceId date summary details)) :
    ¬ Stored (postStandup env w workspaceId date summary details) := by
  intro h
  apply hnot
  intro r hr hd
  by_contra hother
  have hlost := h r.workspaceId r.date
  rw [rows_post, latest_post, if_pos hd, if_neg hother, if_neg fun hboth => hother hboth.2]
    at hlost
  have hnone : latest w r.workspaceId r.date = none := Option.toList_eq_nil_iff.mp hlost.symm
  exact latest_eq_none.mp hnone r hr rfl rfl

/-- The frame of a request: the reports of the other workspaces. -/
theorem leavesOthers_post (h : Stored w)
    (hown : OwnDate env w (.post workspaceId date summary details)) :
    LeavesOthers w (.post workspaceId date summary details)
      (postStandup env w workspaceId date summary details) := by
  intro workspaceId' date' summary' details' heq other hother
  obtain ⟨rfl, rfl, rfl, rfl⟩ := Event.post.inj heq
  have hnew : (newRow env w workspaceId date summary details).workspaceId ≠ other :=
    fun h => hother h.symm
  rw [postStandup_eq, reportsOf, reportsOf]
  dsimp only
  rw [List.filter_append, List.filter_singleton, decide_eq_false hnew, cond_false,
    List.append_nil, List.filter_filter]
  apply List.filter_congr
  intro r hr
  by_cases hro : r.workspaceId = other
  · have hkept : r.date ≠ targetDate env w.now date := by
      intro hd
      have hmem : r ∈ (latest w other r.date).toList := by
        rw [← h other r.date]
        exact List.mem_filter.mpr ⟨hr, decide_eq_true ⟨hro, rfl⟩⟩
      have hlatest : r ∈ w.history :=
        List.mem_of_mem_filter (List.mem_of_getLast? (Option.mem_toList.mp hmem))
      exact hother (hro.symm.trans (hown r hlatest hd))
    rw [decide_eq_true hkept, Bool.and_true]
  · rw [decide_eq_false hro, Bool.false_and]

end Post

/-- In a history of requests, every workspace keeps its reports, and is shown the latest one for
each of its dates, exactly if no two workspaces generate a report for one date. -/
theorem reports_kept_iff (env : Environment) (order : OrderBy LatestFirst) (archive : Archive)
    (now : Nat) (trace : List Event) :
    ((machine env).Always (Listed order) (World.migrated archive now) trace ∧
      ∀ front e back w w', trace = front ++ e :: back →
        (machine env).run (World.migrated archive now) front = some w →
          (machine env).step w e = some w' → LeavesOthers w e w') ↔
      (machine env).Meets (OwnDate env) (World.migrated archive now) trace := by
  have hkept : ∀ w e w', Stored w → OwnDate env w e → (machine env).step w e = some w' →
      Stored w' := by
    intro w e w' hw hown hstep
    cases e with
    | wait milliseconds =>
      obtain rfl := Option.some.inj hstep
      exact hw
    | post workspaceId date summary details =>
      obtain rfl := Option.some.inj hstep
      exact hw.post hown
  have hbroken : ∀ w e, Stored w → ¬ OwnDate env w e →
      ∃ w', (machine env).step w e = some w' ∧ ¬ Listed order w' := by
    intro w e _ hnot
    cases e with
    | wait milliseconds => exact absurd trivial hnot
    | post workspaceId date summary details =>
      exact ⟨_, rfl, fun hlisted => not_stored_post hnot (listed_iff.mp hlisted)⟩
  have hsound : ∀ w, Stored w → Listed order w := fun _ hw => listed_iff.mpr hw
  have hexact :=
    Machine.always_iff_meets hsound hkept hbroken (Stored.migrated archive now) trace
  constructor
  · exact fun h => hexact.mp h.1
  · intro hmeets
    refine ⟨hexact.mpr hmeets, ?_⟩
    rintro front e back w w' rfl hr hstep
    have hw : Stored w :=
      Machine.run_invariant hkept (Stored.migrated archive now) hmeets.append_left hr
    have hown := (hmeets.append_right hr).1
    cases e with
    | wait milliseconds =>
      intro workspaceId date summary details heq
      cases heq
    | post workspaceId date summary details =>
      obtain rfl := Option.some.inj hstep
      exact leavesOthers_post hw hown

/-! ### One date, two workspaces -/

def plainEnvironment : Environment := ⟨fun _ => "2026-01-05T09:00:00.000Z"⟩

def noReports : Archive := ⟨[], List.nodup_nil⟩

def nothingDone : Summary := ⟨0, 0, 0, 0, 0, 0, 0, 0⟩

/-- Two workspaces generate their reports of one day. -/
def oneDay : List Event := [.post 1 none nothingDone "[]", .post 2 none nothingDone "[]"]

def byTime : OrderBy LatestFirst :=
  OrderBy.stable (sorts_by_key ReportRow.createdAt).reverse

theorem report_replaced :
    ¬ (machine plainEnvironment).Always (Listed byTime) (World.migrated noReports 0) oneDay := by
  intro h
  have hreached := h oneDay [] _ (List.append_nil _).symm rfl
  have hshown := listed_iff.mp hreached 1 "2026-01-05"
  exact absurd hshown (by decide +kernel)

end MissionControl.Standups.WorkspaceReports
