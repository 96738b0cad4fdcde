import Mathlib.Algebra.GroupWithZero.Nat
import MissionControl.Auth.Accounts
import MissionControl.Foundations.Numbers

/-!
What is cleaned up when it gets old: rows of four tables, the records of the token usage file,
and the sessions that the gateway stores for its agents. A route shows what a cleanup would
remove, the same route removes it or says what it would remove, and the scheduler removes it
every day. The clock is in milliseconds and stands still during one of these.
-/

set_option autoImplicit false
set_option relaxedAutoImplicit false

namespace MissionControl.Maintenance.Cleanup

open MissionControl.Foundations.JsText
open MissionControl.Foundations.JsonValues (getField)
open MissionControl.Foundations.Numbers
open MissionControl.Foundations.Schema (Json)
open MissionControl.Auth.Accounts (User)

/-! ### Configuration and data -/

/-- `config.retention`, in days; the numbers are read from the environment. -/
structure Retention where
  activities : Number
  auditLog : Number
  notifications : Number
  pipelineRuns : Number
  tokenUsage : Number
  gatewaySessions : Number
  deriving DecidableEq

/-- What the language does with numbers, texts and dates. -/
structure Runtime where
  conv : Conversions
  /-- `new Date(ms).toISOString().split('T')[0]`, for a time that a date can hold. -/
  isoDate : Rat → String

/-- The tables of `getRetentionTargets`. -/
inductive Table where
  | activities
  | auditLog
  | notifications
  | pipelineRuns
  deriving DecidableEq

def Table.label : Table → String
  | .activities => "Activities"
  | .auditLog => "Audit Log"
  | .notifications => "Notifications"
  | .pipelineRuns => "Pipeline Runs"

def Retention.days (ret : Retention) : Table → Number
  | .activities => ret.activities
  | .auditLog => ret.auditLog
  | .notifications => ret.notifications
  | .pipelineRuns => ret.pipelineRuns

def getRetentionTargets : List Table := [.activities, .auditLog, .notifications, .pipelineRuns]

/-- A row of one of the tables; `content` is its other columns. -/
structure Row where
  createdAt : Int
  content : Json
  deriving DecidableEq

/-- A session store of an agent: what the text of the file says, unless it is no JSON or cannot
be read, and whether the file can be replaced. -/
structure Store where
  content : Option Json
  writable : Bool
  deriving DecidableEq

structure World where
  rows : Table → List Row
  /-- What the text of the token usage file says, unless it is no JSON or cannot be read. -/
  tokens : Option Json
  tokensWritable : Bool
  stores : List Store

def msPerDay : Nat := 86400000

/-- `days <= 0`. -/
def disabled (days : Number) : Bool := Number.le days (.finite 0)

/-- `days > 0`. -/
def enabled (days : Number) : Bool := Number.lt (.finite 0) days

/-- The date of a time, unless no date can hold it, which throws. -/
def dateText (rt : Runtime) : Number → Option String
  | .finite ms =>
    if -8640000000000000 ≤ ms ∧ ms ≤ 8640000000000000 then some (rt.isoDate ms) else none
  | _ => none

variable (rt : Runtime) (now : Nat) (ret : Retention)

/-- `now - days * 86400`, in seconds. -/
def tableCutoff (t : Table) : Number := Number.before (seconds now) 86400 (ret.days t)

/-- `Date.now() - days * 86400000`. -/
def cutoffMs (days : Number) : Number := Number.before now msPerDay days

/-! ### Selections -/

/-- `created_at < ?`. A cutoff that is no number is bound as NULL. -/
def isStaleRow (cutoff : Number) (r : Row) : Bool := Number.lt (.finite r.createdAt) cutoff

def countRows (w : World) (t : Table) (cutoff : Number) : Nat := (w.rows t).countP (isStaleRow cutoff)

def deleteRows (w : World) (t : Table) (cutoff : Number) : World :=
  { w with rows := Function.update w.rows t ((w.rows t).filter fun r => ¬ isStaleRow cutoff r) }

/-- `r.timestamp` as a comparison takes it; `none` is an exception. -/
def timestampOf (r : Json) : Option Number :=
  match r with
  | .null => none
  | r => fieldNumber rt.conv (getField r "timestamp")

/-- `data.filter((r) => test(r.timestamp))`; `none` is an exception. -/
def filterRecords (test : Number → Bool) : List Json → Option (List Json)
  | [] => some []
  | r :: rest =>
    (timestampOf rt r).bind fun timestamp =>
      (filterRecords test rest).map fun kept => if test timestamp then r :: kept else kept

/-- The records of the token usage file; what is no array has no `filter`. -/
def tokenRecords (w : World) : Option (List Json) :=
  match w.tokens with
  | some (.array items) => some items
  | _ => none

/-- `Object.entries(data)`; `none` is an exception. -/
def entries : Json → Option (List (String × Json))
  | .null => none
  | .object fields => some fields
  | .array items => some (items.zipIdx.map fun (item, i) => (toString i, item))
  | .string s => some (s.toList.zipIdx.map fun (c, i) => (toString i, .string (String.singleton c)))
  | _ => some []

/-- `Number(entry?.updatedAt || 0)`; `none` is an exception. -/
def updatedAt (entry : Json) : Option Number :=
  match (getField entry "updatedAt").filter Foundations.JsonValues.truthy with
  | none => some (.finite 0)
  | some value => toNumber rt.conv value

/-- `updatedAt > 0 && updatedAt < cutoff`. -/
def isStaleEntry (cutoff : Number) (entry : Json) : Option Bool :=
  (updatedAt rt entry).map fun updatedAt =>
    Number.lt (.finite 0) updatedAt && Number.lt updatedAt cutoff

/-- What the loop over a store has counted when it ends or throws. -/
def countEntries (cutoff : Number) : List (String × Json) → Nat
  | [] => 0
  | (_, entry) :: rest =>
    match isStaleEntry rt cutoff entry with
    | none => 0
    | some stale => (if stale then 1 else 0) + countEntries cutoff rest

/-- What stays of a store, and how many entries do not; `none` is an exception. To assign to
`__proto__` makes no entry. -/
def pruneEntries (cutoff : Number) : List (String × Json) → Option (List (String × Json) × Nat)
  | [] => some ([], 0)
  | (key, entry) :: rest =>
    (isStaleEntry rt cutoff entry).bind fun stale =>
      (pruneEntries cutoff rest).map fun (nextEntries, fileDeleted) =>
        if stale then (nextEntries, fileDeleted + 1)
        else if key = "__proto__" then (nextEntries, fileDeleted)
        else ((key, entry) :: nextEntries, fileDeleted)

def countStore (cutoff : Number) (s : Store) : Nat :=
  ((s.content.bind entries).map (countEntries rt cutoff)).getD 0

def pruneStore (cutoff : Number) (s : Store) : Store × Nat :=
  match (s.content.bind entries).bind (pruneEntries rt cutoff) with
  | none => (s, 0)
  | some (nextEntries, fileDeleted) =>
    if 0 < fileDeleted ∧ s.writable then
      ({ s with content := some (.object nextEntries) }, fileDeleted)
    else (s, 0)

/-- `!Number.isFinite(retentionDays) || retentionDays <= 0`. -/
def keepsSessions (days : Number) : Bool :=
  match days with
  | .finite _ => disabled days
  | _ => true

def countStaleGatewaySessions (w : World) (retentionDays : Number) : Nat :=
  if keepsSessions retentionDays then 0
  else (w.stores.map (countStore rt (cutoffMs now retentionDays))).sum

/-- `pruneGatewaySessionsOlderThan`, with the number that it deletes. -/
def pruneGatewaySessionsOlderThan (w : World) (retentionDays : Number) : World × Nat :=
  if keepsSessions retentionDays then (w, 0)
  else
    let pruned := w.stores.map (pruneStore rt (cutoffMs now retentionDays))
    ({ w with stores := pruned.map Prod.fst }, (pruned.map Prod.snd).sum)

/-! ### The preview -/

structure PreviewEntry where
  table : String
  retentionDays : Number
  cutoffDate : Option String
  staleCount : Nat
  note : Option String
  deriving DecidableEq

def previewTable (w : World) (t : Table) : PreviewEntry :=
  let days := ret.days t
  if disabled days then
    ⟨t.label, .finite 0, none, 0, some "Retention disabled (keep forever)"⟩
  else
    match dateText rt ((tableCutoff now ret t).times 1000) with
    | some date => ⟨t.label, days, some date, countRows w t (tableCutoff now ret t), none⟩
    | none => ⟨t.label, days, none, 0, some "Table not found"⟩

def tokensLabel : String := "Token Usage (file)"

def sessionsLabel : String := "Gateway Session Store"

def previewTokens (w : World) : PreviewEntry :=
  let cutoff := cutoffMs now ret.tokenUsage
  match (tokenRecords w).bind (filterRecords rt (Number.lt · cutoff)), dateText rt cutoff with
  | some stale, some date => ⟨tokensLabel, ret.tokenUsage, some date, stale.length, none⟩
  | _, _ => ⟨tokensLabel, ret.tokenUsage, none, 0, some "No token data file"⟩

def previewSessions (w : World) : PreviewEntry :=
  if enabled ret.gatewaySessions then
    ⟨sessionsLabel, ret.gatewaySessions, none,
      countStaleGatewaySessions rt now w ret.gatewaySessions,
      some "Stored under ~/.openclaw/agents/*/sessions/sessions.json"⟩
  else ⟨sessionsLabel, .finite 0, none, 0, some "Retention disabled (keep forever)"⟩

/-! ### The cleanup of the route -/

structure CleanupResult where
  table : String
  deleted : Nat
  cutoffDate : String
  retentionDays : Number
  deriving DecidableEq

/-- The variables of the loop. -/
structure Progress where
  world : World
  results : List CleanupResult
  totalDeleted : Nat

def Progress.push (p : Progress) (w : World) (result : CleanupResult) : Progress :=
  ⟨w, p.results ++ [result], p.totalDeleted + result.deleted⟩

def cleanTable (dryRun : Bool) (p : Progress) (t : Table) : Progress :=
  let days := ret.days t
  if disabled days then p
  else
    let cutoff := tableCutoff now ret t
    let deleted := countRows p.world t cutoff
    let w := if dryRun then p.world else deleteRows p.world t cutoff
    -- The rows are gone when the date of the cutoff throws.
    match dateText rt (cutoff.times 1000) with
    | some date => p.push w ⟨t.label, deleted, date, days⟩
    | none => p.push w ⟨t.label, 0, "", days⟩

/-- The file after a cleanup that removes some of its records, or `none` if it cannot be
written. -/
def writeTokens (w : World) (items kept : List Json) : Option World :=
  if items.length - kept.length = 0 then some w
  else if w.tokensWritable then some { w with tokens := some (.array kept) }
  else none

def cleanTokens (dryRun : Bool) (p : Progress) : Progress :=
  if ¬ enabled ret.tokenUsage then p
  else
    let cutoff := cutoffMs now ret.tokenUsage
    match tokenRecords p.world with
    | none => p
    | some items =>
      match filterRecords rt (Number.le cutoff ·) items with
      | none => p
      | some kept =>
        match if dryRun then some p.world else writeTokens p.world items kept with
        | none => p
        | some w =>
          match dateText rt cutoff with
          | some date => p.push w ⟨tokensLabel, items.length - kept.length, date, ret.tokenUsage⟩
          | none => { p with world := w }

/-- Without a date to show, the route throws after it has cleaned up. -/
def cleanSessions (dryRun : Bool) (p : Progress) : Except World Progress :=
  if ¬ enabled ret.gatewaySessions then .ok p
  else
    let sessionPrune :=
      if dryRun then (p.world, countStaleGatewaySessions rt now p.world ret.gatewaySessions)
      else pruneGatewaySessionsOlderThan rt now p.world ret.gatewaySessions
    match dateText rt (cutoffMs now ret.gatewaySessions) with
    | some date =>
      .ok (p.push sessionPrune.1 ⟨sessionsLabel, sessionPrune.2, date, ret.gatewaySessions⟩)
    | none => .error sessionPrune.1

def cleanAll (dryRun : Bool) (w : World) : Except World Progress :=
  cleanSessions rt now ret dryRun
    (cleanTokens rt now ret dryRun
      (getRetentionTargets.foldl (cleanTable rt now ret dryRun) ⟨w, [], 0⟩))

/-! ### Requests -/

/-- A request to the route: the answer of `requireRole`, that of the rate limiter, the body, and
the headers with the address of the client. -/
structure CleanupRequest where
  auth : Except (String × Nat) User
  limited : Bool
  body : Option Json
  xForwardedFor : Option String
  xRealIp : Option String

inductive Reply where
  | preview (retention : Retention) (preview : List PreviewEntry)
  | cleaned (dryRun : Bool) (totalDeleted : Nat) (results : List CleanupResult)
  | refused (status : Nat) (error : String)
  /-- An exception that the handler does not catch. -/
  | thrown
  deriving DecidableEq

/-- `GET /api/cleanup`. -/
def getCleanup (w : World) (request : CleanupRequest) : World × Reply :=
  match request.auth with
  | .error (error, status) => (w, .refused status error)
  | .ok _ =>
    (w, .preview ret (getRetentionTargets.map (previewTable rt now ret w) ++
      [previewTokens rt now ret w, previewSessions rt now ret w]))

/-- `body.dry_run === true`; a body that is no JSON counts as an empty one, and on `null` it
throws. -/
def dryRunOf (body : Option Json) : Option Bool :=
  match body with
  | some .null => none
  | some body => some (getField body "dry_run" = some (.bool true))
  | none => some false

def Number.json : Number → Json
  | .finite x => .number x
  | _ => .null

/-- An entry of the audit log. -/
def auditRow (action actor : String) (rest : List (String × Json)) : Row :=
  ⟨seconds now, .object ([("action", .string action), ("actor", .string actor)] ++ rest)⟩

def logAuditEvent (w : World) (row : Row) : World :=
  { w with rows := Function.update w.rows .auditLog (w.rows .auditLog ++ [row]) }

def resultJson (r : CleanupResult) : Json :=
  .object [("table", .string r.table), ("deleted", .number r.deleted),
    ("cutoff_date", .string r.cutoffDate), ("retention_days", Number.json r.retentionDays)]

/-- `POST /api/cleanup`. -/
def postCleanup (w : World) (request : CleanupRequest) : World × Reply :=
  match request.auth with
  | .error (error, status) => (w, .refused status error)
  | .ok user =>
    if request.limited then
      (w, .refused 429 "Too many requests for this resource. Please try again later.")
    else
      match dryRunOf request.body with
      | none => (w, .thrown)
      | some dryRun =>
        match cleanAll rt now ret dryRun w with
        | .error w => (w, .thrown)
        | .ok p =>
          let ipAddress := orElse (request.xForwardedFor.getD "")
            (orElse (request.xRealIp.getD "") "unknown")
          let w :=
            if dryRun = false ∧ 0 < p.totalDeleted then
              logAuditEvent p.world (auditRow now "data_cleanup" user.username
                [("actor_id", .number user.id),
                  ("detail", .object [("total_deleted", .number p.totalDeleted),
                    ("results", .array (p.results.map resultJson))]),
                  ("ip_address", .string ipAddress)])
            else p.world
          (w, .cleaned dryRun p.totalDeleted p.results)

/-! ### The scheduler -/

/-- What is cleaned up: a table, the token usage file, or the session stores. -/
inductive Target where
  | table (t : Table)
  | tokenUsage
  | gatewaySessions
  deriving DecidableEq

def Target.label : Target → String
  | .table t => t.label
  | .tokenUsage => tokensLabel
  | .gatewaySessions => sessionsLabel

/-- The data during a run of the scheduler, and what each target has added to the total. -/
structure Sweep where
  world : World
  added : List (Target × Nat)

def Sweep.totalDeleted (s : Sweep) : Nat := (s.added.map Prod.snd).sum

def sweepTable (s : Sweep) (t : Table) : Sweep :=
  if disabled (ret.days t) then s
  else
    let cutoff := tableCutoff now ret t
    ⟨deleteRows s.world t cutoff, s.added ++ [(.table t, countRows s.world t cutoff)]⟩

def sweepTokens (s : Sweep) : Sweep :=
  if ¬ enabled ret.tokenUsage then s
  else
    match tokenRecords s.world with
    | none => s
    | some items =>
      match filterRecords rt (Number.le (cutoffMs now ret.tokenUsage) ·) items with
      | none => s
      | some kept =>
        let removed := items.length - kept.length
        if removed = 0 then s
        else
          match writeTokens s.world items kept with
          | none => s
          | some w => ⟨w, s.added ++ [(.tokenUsage, removed)]⟩

def sweepSessions (s : Sweep) : Sweep :=
  if ¬ enabled ret.gatewaySessions then s
  else
    let (w, deleted) := pruneGatewaySessionsOlderThan rt now s.world ret.gatewaySessions
    ⟨w, s.added ++ [(.gatewaySessions, deleted)]⟩

/-- `runCleanup`, with what each target added, and its message. -/
def runCleanup (w : World) : World × List (Target × Nat) × String :=
  let s := sweepSessions rt now ret (sweepTokens rt now ret
    (getRetentionTargets.foldl (sweepTable now ret) ⟨w, []⟩))
  let w :=
    if 0 < s.totalDeleted then
      logAuditEvent s.world (auditRow now "auto_cleanup" "scheduler"
        [("detail", .object [("total_deleted", .number s.totalDeleted)])])
    else s.world
  (w, s.added, "Cleaned " ++ toString s.totalDeleted ++ " stale record" ++
    (if s.totalDeleted = 1 then "" else "s"))

end MissionControl.Maintenance.Cleanup
