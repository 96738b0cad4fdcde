import MissionControl.Search.Routes

/-!
What a search shows a user of the other workspaces. Three of the seven queries ask for the
workspace of the user; the other four show everyone's rows.
-/

set_option autoImplicit false
set_option relaxedAutoImplicit false

namespace MissionControl.Search.Isolation

open MissionControl.Foundations.JsText
open MissionControl.Foundations.Query
open MissionControl.Search.Routes

/-- The rows of a workspace. A row of the audit log is of none. -/
def ownRows (workspaceId : Nat) (db : Database) : Database where
  tasks := db.tasks.filter fun t => t.workspaceId = workspaceId
  agents := db.agents.filter fun a => a.workspaceId = workspaceId
  activities := db.activities.filter fun a => a.workspaceId = workspaceId
  auditLog := []
  messages := db.messages.filter fun m => m.workspaceId = workspaceId
  webhooks := db.webhooks.filter fun w => w.workspaceId = workspaceId
  pipelines := db.pipelines.filter fun p => p.workspaceId = workspaceId

/-- Two databases with the same rows of a workspace. -/
def AgreeOn (workspaceId : Nat) (db db' : Database) : Prop :=
  ownRows workspaceId db = ownRows workspaceId db'

/-- The answer depends on the rows of the workspace only, and is the one that they give. -/
def Isolated (env : Environment) (workspaceId : Nat) (q typeFilter limit : Option String) : Prop :=
  (∀ db db', AgreeOn workspaceId db db' →
    search env db workspaceId q typeFilter limit = search env db' workspaceId q typeFilter limit) ∧
  ∀ db, search env db workspaceId q typeFilter limit =
    search env (ownRows workspaceId db) workspaceId q typeFilter limit

/-- The types whose queries do not ask for the workspace. -/
def sharedTypes : List ResultType := [.audit, .message, .webhook, .pipeline]

/-- The request is refused, returns nothing, or does not ask for a type whose rows are shared. -/
def Confined (q typeFilter limit : Option String) : Prop :=
  utf16Length (trimmedQuery q) < 2 ∨ parsedLimit limit = none ∨ parsedLimit limit = some 0 ∨
    ∃ f, truthy typeFilter = some f ∧ f ∉ sharedTypes.map ResultType.text

variable {env : Environment} {workspaceId : Nat} {query : String} {db db' : Database}
  {q typeFilter limit : Option String}

/-! ### Queries -/

section TableResults

variable {α : Type} {le : α → α → Prop} (order : OrderBy le) (result : α → SearchResult)

@[simp]
theorem tableResults_nil (limit : Option Int) : tableResults order limit [] result = [] := by
  cases limit with
  | none => rfl
  | some limit => simp [tableResults, order.arrange_nil, page]

@[simp]
theorem tableResults_none (selected : List α) : tableResults order none selected result = [] := rfl

@[simp]
theorem tableResults_zero (selected : List α) :
    tableResults order (some 0) selected result = [] := by
  simp [tableResults, page_zero]

theorem tableResults_singleton {limit : Int} (h : limit ≠ 0) (a : α) :
    tableResults order (some limit) [a] result = [result a] := by
  simp [tableResults, order.arrange_singleton, page_singleton h]

end TableResults

theorem contains_self (query : String) : contains query (some query) = true := by
  simp [contains, like_any_self_any]

theorem filter_own_filter {α : Type} (own wants : α → Prop) [DecidablePred own]
    [DecidablePred wants] (rows : List α) :
    (rows.filter fun a => own a).filter (fun a => own a ∧ wants a) =
      rows.filter fun a => own a ∧ wants a := by
  rw [List.filter_filter]
  congr 1
  funext a
  by_cases h : own a <;> simp [h]

theorem searchTasks_ownRows (limit : Option Int) :
    searchTasks env (ownRows workspaceId db) workspaceId query limit =
      searchTasks env db workspaceId query limit := by
  simp only [searchTasks, ownRows, filter_own_filter]

theorem searchAgents_ownRows (limit : Option Int) :
    searchAgents env (ownRows workspaceId db) workspaceId query limit =
      searchAgents env db workspaceId query limit := by
  simp only [searchAgents, ownRows, filter_own_filter]

theorem searchActivities_ownRows (limit : Option Int) :
    searchActivities env (ownRows workspaceId db) workspaceId query limit =
      searchActivities env db workspaceId query limit := by
  simp only [searchActivities, ownRows, filter_own_filter]

/-- A type that is not asked for. -/
theorem wanted_eq_false {f : String} {type : ResultType} (hfilter : truthy typeFilter = some f)
    (h : f ≠ type.text) : wanted typeFilter type = false := by
  simp [wanted, hfilter, h]

theorem queryResults_empty (limit : Option Int) :
    queryResults env Database.empty workspaceId query typeFilter limit = [] := by
  simp [queryResults, searchTasks, searchAgents, searchActivities, searchAuditLog, searchMessages,
    searchWebhooks, searchPipelines, Database.empty]

theorem queryResults_none (db : Database) :
    queryResults env db workspaceId query typeFilter none = [] := by
  simp [queryResults, searchTasks, searchAgents, searchActivities, searchAuditLog, searchMessages,
    searchWebhooks, searchPipelines]

theorem queryResults_zero (db : Database) :
    queryResults env db workspaceId query typeFilter (some 0) = [] := by
  simp [queryResults, searchTasks, searchAgents, searchActivities, searchAuditLog, searchMessages,
    searchWebhooks, searchPipelines]

/-- A search for one of the other types sees the rows of the workspace only. -/
theorem queryResults_ownRows {f : String} (hfilter : truthy typeFilter = some f)
    (hf : f ∉ sharedTypes.map ResultType.text) (limit : Option Int) :
    queryResults env (ownRows workspaceId db) workspaceId query typeFilter limit =
      queryResults env db workspaceId query typeFilter limit := by
  have hother : ∀ type ∈ sharedTypes, wanted typeFilter type = false := by
    intro type htype
    apply wanted_eq_false hfilter
    rintro rfl
    exact hf (List.mem_map_of_mem htype)
  have haudit := hother .audit (by decide)
  have hmessage := hother .message (by decide)
  have hwebhook := hother .webhook (by decide)
  have hpipeline := hother .pipeline (by decide)
  simp only [queryResults, haudit, hmessage, hwebhook, hpipeline, searchTasks_ownRows,
    searchAgents_ownRows, searchActivities_ownRows, Bool.false_eq_true, if_false]

/-! ### Rows of another workspace -/

/-- A database with one row, which is not of the workspace, in the table of a shared type. -/
def foreignRow (workspaceId : Nat) (query : String) : ResultType → Database
  | .audit => { Database.empty with auditLog := [⟨1, query, "", none, 0⟩] }
  | .message => { Database.empty with messages := [⟨1, "", none, query, "", 0, workspaceId + 1⟩] }
  | .webhook => { Database.empty with webhooks := [⟨1, query, "", 0, workspaceId + 1⟩] }
  | .pipeline => { Database.empty with pipelines := [⟨1, query, none, 0, workspaceId + 1⟩] }
  | _ => Database.empty

theorem agreeOn_foreignRow (type : ResultType) :
    AgreeOn workspaceId (foreignRow workspaceId query type) Database.empty := by
  cases type <;> simp [AgreeOn, ownRows, foreignRow, Database.empty]

theorem queryResults_foreignRow {type : ResultType} (htype : type ∈ sharedTypes)
    (hwanted : wanted typeFilter type = true) {limit : Int} (hlimit : limit ≠ 0) :
    queryResults env (foreignRow workspaceId query type) workspaceId query typeFilter
      (some limit) ≠ [] := by
  cases type with
  | audit =>
    simp [queryResults, hwanted, searchAuditLog, foreignRow, contains_self,
      tableResults_singleton _ _ hlimit]
  | message =>
    simp [queryResults, hwanted, searchMessages, foreignRow, contains_self,
      tableResults_singleton _ _ hlimit]
  | webhook =>
    simp [queryResults, hwanted, searchWebhooks, foreignRow, contains_self,
      tableResults_singleton _ _ hlimit]
  | pipeline =>
    simp [queryResults, hwanted, searchPipelines, foreignRow, contains_self,
      tableResults_singleton _ _ hlimit]
  | task => simp [sharedTypes] at htype
  | agent => simp [sharedTypes] at htype
  | activity => simp [sharedTypes] at htype

/-! ### The route -/

theorem ownRows_ownRows (db : Database) :
    ownRows workspaceId (ownRows workspaceId db) = ownRows workspaceId db := by
  simp [ownRows, List.filter_filter]

theorem search_congr (h : queryResults env db workspaceId (trimmedQuery q) typeFilter
      (parsedLimit limit) =
    queryResults env db' workspaceId (trimmedQuery q) typeFilter (parsedLimit limit)) :
    search env db workspaceId q typeFilter limit =
      search env db' workspaceId q typeFilter limit := by
  simp only [search, h]

/-- A search that finds something in a database without rows of the workspace. -/
theorem not_isolated_of_found (hlong : ¬ utf16Length (trimmedQuery q) < 2)
    (hagree : AgreeOn workspaceId db Database.empty)
    (hfound : queryResults env db workspaceId (trimmedQuery q) typeFilter
      (parsedLimit limit) ≠ []) :
    ¬ Isolated env workspaceId q typeFilter limit := by
  intro hisolated
  have hsame := hisolated.1 db Database.empty hagree
  simp only [search, hlong, if_false, queryResults_empty, List.mergeSort_nil,
    Reply.found.injEq, List.length_mergeSort, List.length_nil, List.length_eq_zero_iff] at hsame
  exact hfound hsame.2.1

theorem isolated_of_ownRows
    (h : ∀ db, search env db workspaceId q typeFilter limit =
      search env (ownRows workspaceId db) workspaceId q typeFilter limit) :
    Isolated env workspaceId q typeFilter limit := by
  refine ⟨?_, h⟩
  intro db db' hagree
  rw [h db, h db', hagree]

/-- A runtime that leaves the case of letters alone, and a database that leaves rows where they
are if it need not order them. -/
def plainEnvironment : Environment where
  toLowerCase := id
  tasks := .stable (sorts_by_key TaskRow.createdAt).reverse
  agents := .stable (sorts_by_key AgentRow.createdAt).reverse
  activities := .stable (sorts_by_key ActivityRow.createdAt).reverse
  auditLog := .stable (sorts_by_key AuditRow.createdAt).reverse
  messages := .stable (sorts_by_key MessageRow.createdAt).reverse
  webhooks := .stable (sorts_by_key WebhookRow.createdAt).reverse
  pipelines := .stable (sorts_by_key PipelineRow.createdAt).reverse

/-- A message between agents of workspace 2. -/
def foreignMessage : MessageRow := ⟨7, "scout", some "mason", "deploy at noon", "standup", 100, 2⟩

end MissionControl.Search.Isolation
