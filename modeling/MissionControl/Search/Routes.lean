import MissionControl.Foundations.JsText
import MissionControl.Foundations.Query

/-!
The search over everything: seven queries over seven tables, whose results are put together,
sorted and cut off. Of the tables, only the audit log has no column for the workspace.
-/

set_option autoImplicit false
set_option relaxedAutoImplicit false

namespace MissionControl.Search.Routes

open MissionControl.Foundations.JsText
open MissionControl.Foundations.Query

/-! ### Tables -/

/-- A row of `tasks`. -/
structure TaskRow where
  id : Nat
  title : String
  description : Option String
  status : String
  assignedTo : Option String
  createdAt : Nat
  workspaceId : Nat
  deriving DecidableEq

/-- A row of `agents`. -/
structure AgentRow where
  id : Nat
  name : String
  role : String
  status : String
  lastActivity : Option String
  createdAt : Nat
  workspaceId : Nat
  deriving DecidableEq

/-- A row of `activities`. -/
structure ActivityRow where
  id : Nat
  actor : String
  description : String
  createdAt : Nat
  workspaceId : Nat
  deriving DecidableEq

/-- A row of `audit_log`. -/
structure AuditRow where
  id : Nat
  action : String
  actor : String
  detail : Option String
  createdAt : Nat
  deriving DecidableEq

/-- A row of `messages`. -/
structure MessageRow where
  id : Nat
  fromAgent : String
  toAgent : Option String
  content : String
  conversationId : String
  createdAt : Nat
  workspaceId : Nat
  deriving DecidableEq

/-- A row of `webhooks`. -/
structure WebhookRow where
  id : Nat
  name : String
  url : String
  createdAt : Nat
  workspaceId : Nat
  deriving DecidableEq

/-- A row of `workflow_pipelines`. -/
structure PipelineRow where
  id : Nat
  name : String
  description : Option String
  createdAt : Nat
  workspaceId : Nat
  deriving DecidableEq

structure Database where
  tasks : List TaskRow
  agents : List AgentRow
  activities : List ActivityRow
  auditLog : List AuditRow
  messages : List MessageRow
  webhooks : List WebhookRow
  pipelines : List PipelineRow
  deriving DecidableEq

def Database.empty : Database := ⟨[], [], [], [], [], [], []⟩

/-! ### Results -/

inductive ResultType where
  | task
  | agent
  | activity
  | audit
  | message
  | webhook
  | pipeline
  deriving DecidableEq

def ResultType.text : ResultType → String
  | .task => "task"
  | .agent => "agent"
  | .activity => "activity"
  | .audit => "audit"
  | .message => "message"
  | .webhook => "webhook"
  | .pipeline => "pipeline"

structure SearchResult where
  type : ResultType
  id : Nat
  title : String
  subtitle : Option String
  excerpt : Option String
  createdAt : Nat
  relevance : Nat
  deriving DecidableEq

inductive Reply where
  | found (query : String) (count : Nat) (results : List SearchResult)
  | refused (status : Nat) (error : String)
  deriving DecidableEq

/-- `ORDER BY created_at DESC`, on rows that have the column. -/
def Recent {α : Type} (createdAt : α → Nat) (a b : α) : Prop := createdAt b ≤ createdAt a

instance {α : Type} (createdAt : α → Nat) : DecidableRel (Recent createdAt) :=
  fun a b => inferInstanceAs (Decidable (createdAt b ≤ createdAt a))

/-- The lower case that the runtime gives a text, and the orders in which the database answers
the seven queries where the time of creation does not decide. -/
structure Environment where
  toLowerCase : String → String
  tasks : OrderBy (Recent TaskRow.createdAt)
  agents : OrderBy (Recent AgentRow.createdAt)
  activities : OrderBy (Recent ActivityRow.createdAt)
  auditLog : OrderBy (Recent AuditRow.createdAt)
  messages : OrderBy (Recent MessageRow.createdAt)
  webhooks : OrderBy (Recent WebhookRow.createdAt)
  pipelines : OrderBy (Recent PipelineRow.createdAt)

/-- `column LIKE '%query%'`; a column without a value is not like anything. -/
def contains (query : String) (column : Option String) : Bool :=
  column.any fun text => like ('%' :: (query.toList ++ ['%'])) text.toList

/-- `text.toLowerCase().includes(query.toLowerCase()) ? 2 : 1`. -/
def titleRelevance (env : Environment) (query title : String) : Nat :=
  if (env.toLowerCase query).toList <:+: (env.toLowerCase title).toList then 2 else 1

/-- `text.slice(start, end)` in code units, without a character that is cut in two. -/
def sliceUnits (text : String) (start stop : Nat) : String :=
  let cs := text.toList
  String.ofList (takeUnits stop cs |>.drop (takeUnits start cs).length)

/-- `text.indexOf(part)` in code units. -/
def indexOf (text part : List Char) : Option Nat :=
  (text.inits.find? fun front => part.isPrefixOf (text.drop front.length)).map fun front =>
    utf16Length (String.ofList front)

def truncateMatch (env : Environment) (text : Option String) (query : String) : Option String :=
  (truthy text).map fun text =>
    let length := utf16Length text
    match indexOf (env.toLowerCase text).toList (env.toLowerCase query).toList with
    | none => sliceUnits text 0 120 ++ if 120 < length then "..." else ""
    | some idx =>
      let start := idx - 40
      let stop := min length (idx + utf16Length query + 80)
      (if 0 < start then "..." else "") ++ sliceUnits text start stop ++
        if stop < length then "..." else ""

/-! ### The queries -/

/-- `!typeFilter || typeFilter === type`. -/
def wanted (typeFilter : Option String) (type : ResultType) : Bool :=
  (truthy typeFilter).all (· = type.text)

/-- One of the queries: the most recent of the rows that it selects, up to the limit. A limit
that is no number makes it fail, and then it finds nothing. -/
def tableResults {α : Type} {le : α → α → Prop} (order : OrderBy le) (limit : Option Int)
    (selected : List α) (result : α → SearchResult) : List SearchResult :=
  match limit with
  | none => []
  | some limit => (page limit 0 (order.arrange selected)).map result

def searchTasks (env : Environment) (db : Database) (workspaceId : Nat) (query : String)
    (limit : Option Int) : List SearchResult :=
  tableResults env.tasks limit
    (db.tasks.filter fun t => t.workspaceId = workspaceId ∧
      (contains query (some t.title) ∨ contains query t.description ∨ contains query t.assignedTo))
    fun t =>
      { type := .task
        id := t.id
        title := t.title
        subtitle := some (t.status ++ " " ++ ((truthy t.assignedTo).map ("· " ++ ·)).getD "")
        excerpt := truncateMatch env t.description query
        createdAt := t.createdAt
        relevance := titleRelevance env query t.title }

def searchAgents (env : Environment) (db : Database) (workspaceId : Nat) (query : String)
    (limit : Option Int) : List SearchResult :=
  tableResults env.agents limit
    (db.agents.filter fun a => a.workspaceId = workspaceId ∧
      (contains query (some a.name) ∨ contains query (some a.role) ∨ contains query a.lastActivity))
    fun a =>
      { type := .agent
        id := a.id
        title := a.name
        subtitle := some (a.role ++ " · " ++ a.status)
        excerpt := a.lastActivity
        createdAt := a.createdAt
        relevance := titleRelevance env query a.name }

def searchActivities (env : Environment) (db : Database) (workspaceId : Nat) (query : String)
    (limit : Option Int) : List SearchResult :=
  tableResults env.activities limit
    (db.activities.filter fun a => a.workspaceId = workspaceId ∧
      (contains query (some a.description) ∨ contains query (some a.actor)))
    fun a =>
      { type := .activity
        id := a.id
        title := a.description
        subtitle := some ("by " ++ a.actor)
        excerpt := none
        createdAt := a.createdAt
        relevance := 1 }

def searchAuditLog (env : Environment) (db : Database) (query : String) (limit : Option Int) :
    List SearchResult :=
  tableResults env.auditLog limit
    (db.auditLog.filter fun a =>
      contains query (some a.action) ∨ contains query (some a.actor) ∨ contains query a.detail)
    fun a =>
      { type := .audit
        id := a.id
        title := a.action
        subtitle := some ("by " ++ a.actor)
        excerpt := truncateMatch env a.detail query
        createdAt := a.createdAt
        relevance := 1 }

def searchMessages (env : Environment) (db : Database) (query : String) (limit : Option Int) :
    List SearchResult :=
  tableResults env.messages limit
    (db.messages.filter fun m =>
      contains query (some m.content) ∨ contains query (some m.fromAgent))
    fun m =>
      { type := .message
        id := m.id
        title := m.fromAgent ++ " → " ++ orElse (m.toAgent.getD "") "all"
        subtitle := some m.conversationId
        excerpt := truncateMatch env (some m.content) query
        createdAt := m.createdAt
        relevance := 1 }

def searchWebhooks (env : Environment) (db : Database) (query : String) (limit : Option Int) :
    List SearchResult :=
  tableResults env.webhooks limit
    (db.webhooks.filter fun w => contains query (some w.name) ∨ contains query (some w.url))
    fun w =>
      { type := .webhook
        id := w.id
        title := w.name
        subtitle := some w.url
        excerpt := none
        createdAt := w.createdAt
        relevance := titleRelevance env query w.name }

def searchPipelines (env : Environment) (db : Database) (query : String) (limit : Option Int) :
    List SearchResult :=
  tableResults env.pipelines limit
    (db.pipelines.filter fun p => contains query (some p.name) ∨ contains query p.description)
    fun p =>
      { type := .pipeline
        id := p.id
        title := p.name
        subtitle := none
        excerpt := truncateMatch env p.description query
        createdAt := p.createdAt
        relevance := titleRelevance env query p.name }

/-! ### The route -/

/-- `b.relevance - a.relevance || b.created_at - a.created_at` is not positive. -/
def before (a b : SearchResult) : Bool :=
  b.relevance < a.relevance ∨ (b.relevance = a.relevance ∧ b.createdAt ≤ a.createdAt)

/-- `results.slice(0, limit)`. A negative limit counts from the end. -/
def slice (results : List SearchResult) : Option Int → List SearchResult
  | none => []
  | some limit =>
    if 0 ≤ limit then results.take limit.toNat else results.take (results.length - limit.natAbs)

def queryResults (env : Environment) (db : Database) (workspaceId : Nat) (query : String)
    (typeFilter : Option String) (limit : Option Int) : List SearchResult :=
  (if wanted typeFilter .task then searchTasks env db workspaceId query limit else []) ++
  (if wanted typeFilter .agent then searchAgents env db workspaceId query limit else []) ++
  (if wanted typeFilter .activity then searchActivities env db workspaceId query limit else []) ++
  (if wanted typeFilter .audit then searchAuditLog env db query limit else []) ++
  (if wanted typeFilter .message then searchMessages env db query limit else []) ++
  (if wanted typeFilter .webhook then searchWebhooks env db query limit else []) ++
  if wanted typeFilter .pipeline then searchPipelines env db query limit else []

/-- The query and the limit of a request. -/
def trimmedQuery (q : Option String) : String := trim (q.getD "")

def parsedLimit (limit : Option String) : Option Int :=
  (parseInt (orElse (limit.getD "") "30")).map fun limit => min limit 100

/-- `GET /api/search`, for a user of the workspace. -/
def search (env : Environment) (db : Database) (workspaceId : Nat) (q typeFilter limit : Option String) :
    Reply :=
  let query := trimmedQuery q
  let limit := parsedLimit limit
  if utf16Length query < 2 then .refused 400 "Query must be at least 2 characters"
  else
    let results := (queryResults env db workspaceId query typeFilter limit).mergeSort before
    .found query results.length (slice results limit)

end MissionControl.Search.Routes
