import MissionControl.Auth.AccountSteps

/-!
The two reports about one agent that are scoped to that agent itself. Whether a request comes
from the agent is read off the principal: from its name, and from the agent name that a session
takes over from a header and a key takes from its agent.
-/

set_option autoImplicit false
set_option relaxedAutoImplicit false

namespace MissionControl.Auth.SelfScope

open MissionControl.Foundations.JsText
open MissionControl.Foundations.HeaderText
open Accounts AccountSteps
open Routes (plainEnvironment)

/-! ### The routes -/

/-- The search parameters that the two routes read. -/
structure ReportQuery where
  privileged : Option String
  hours : Option String
  sections : Option String
  deriving DecidableEq

/-- The answer of a report route: the agent it is about, the hours it looks back and the
sections it has, or an error. -/
inductive Reply where
  | report (agent : AgentRow) (hours : Int) (sections : List String)
  | refused (status : Nat) (error : String)
  deriving DecidableEq

/-- `/^\d+$/.test(text)`. -/
def isNumeral (text : String) : Bool := text ≠ "" ∧ text.toList.all Char.isDigit

/-- The agent that the path names, by id or by name, in the workspace of the principal. -/
def resolveAgent (w : World) (workspaceId : Nat) (agentId : String) : Option AgentRow :=
  if isNumeral agentId then
    w.agents.find? fun a => leadingNumber 10 agentId.toList = some a.id ∧ a.workspaceId = workspaceId
  else w.agents.find? fun a => a.name = agentId ∧ a.workspaceId = workspaceId

/-- `raw.split(',').map((section) => section.trim()).filter(Boolean)`. -/
def sectionNames (raw : String) : List String :=
  ((raw.toList.splitOn ',').map fun cs => trim (String.ofList cs)).filter (· ≠ "")

namespace Attribution

def allowedSections : List String := ["identity", "audit", "mutations", "cost"]

def parseHours (hoursRaw : Option String) : Option Int :=
  match hoursRaw with
  | none => some 24
  | some raw =>
    if trim raw = "" then some 24
    else if isNumeral raw then
      (leadingNumber 10 raw.toList).bind fun hours =>
        if hours < 1 ∨ 720 < hours then none else some hours
    else none

def parseSections (sectionRaw : Option String) : Except String (List String) :=
  let parsed := sectionNames (trim (orElse (sectionRaw.getD "") "identity,audit,mutations,cost"))
  if parsed = [] then
    .error "Invalid section. Expected one or more of identity,audit,mutations,cost."
  else
    match parsed.filter (· ∉ allowedSections) with
    | [] => .ok parsed
    | invalid => .error ("Invalid section value(s): " ++ ", ".intercalate invalid)

/-- `GET /api/agents/[id]/attribution`, for the user that the request is from. -/
def report (w : World) (user : User) (agentId : String) (query : ReportQuery) : Reply :=
  match resolveAgent w user.workspaceId agentId with
  | none => .refused 404 "Agent not found"
  | some agent =>
    let isSelfByHeader : Bool := user.agentName = some agent.name
    let isSelfByUsername : Bool := user.username = agent.name
    let isPrivileged : Bool := user.role = "admin" ∧ query.privileged = some "1"
    if !(isSelfByHeader || isSelfByUsername) && !isPrivileged then
      .refused 403
        "Forbidden: attribution is self-scope by default. Admin can use ?privileged=1 override."
    else
      match parseHours query.hours with
      | none => .refused 400 "Invalid hours. Expected integer 1..720."
      | some hours =>
        match parseSections query.sections with
        | .error e => .refused 400 e
        | .ok sections => .report agent hours sections

end Attribution

namespace Diagnostics

def allowedSections : List String := ["summary", "tasks", "errors", "activity", "trends", "tokens"]

/-- `parseHoursParam`; `number` is the integer that `Number(text)` is, if it is one. -/
def parseHoursParam (number : String → Option Int) (raw : Option String) : Except String Int :=
  match raw with
  | none => .ok 24
  | some raw =>
    match number raw with
    | none => .error "hours must be an integer between 1 and 720"
    | some parsed =>
      if parsed < 1 ∨ 720 < parsed then .error "hours must be between 1 and 720" else .ok parsed

def parseSectionsParam (raw : Option String) : Except String (List String) :=
  if trim (raw.getD "") = "" then .ok allowedSections
  else
    let requested := sectionNames (raw.getD "")
    if requested = [] then .error "section must include at least one valid value"
    else
      match requested.filter (· ∉ allowedSections) with
      | [] => .ok requested
      | invalid => .error ("Invalid section value(s): " ++ ", ".intercalate invalid)

/-- `GET /api/agents/[id]/diagnostics`, for the user that the request is from. -/
def report (number : String → Option Int) (w : World) (user : User) (agentId : String)
    (query : ReportQuery) : Reply :=
  match resolveAgent w user.workspaceId agentId with
  | none => .refused 404 "Agent not found"
  | some agent =>
    let requesterAgentName := trim (user.agentName.getD "")
    let privileged : Bool := query.privileged = some "1"
    let isSelfRequest : Bool := orElse requesterAgentName user.username = agent.name
    if !isSelfRequest && !(privileged && (user.role = "admin" : Bool)) then
      .refused 403
        "Diagnostics are self-scoped. Use privileged=1 with admin role for cross-agent access."
    else
      match parseHoursParam number query.hours with
      | .error e => .refused 400 e
      | .ok hours =>
        match parseSectionsParam query.sections with
        | .error e => .refused 400 e
        | .ok sections => .report agent hours sections

end Diagnostics

/-- A route that asks for a role first. -/
def withRole (env : Environment) (w : World) (headers : Headers) (minRole : Role)
    (route : User → Reply) : Reply :=
  match requireRole env w headers minRole with
  | .error (e, status) => .refused status e
  | .ok user => route user

def attribution (env : Environment) (w : World) (headers : Headers) (agentId : String)
    (query : ReportQuery) : Reply :=
  withRole env w headers .viewer fun user => Attribution.report w user agentId query

def diagnostics (env : Environment) (number : String → Option Int) (w : World) (headers : Headers)
    (agentId : String) (query : ReportQuery) : Reply :=
  withRole env w headers .viewer fun user => Diagnostics.report number w user agentId query

/-! ### Whom a request speaks for -/

/-- The agent name that the request gives itself. -/
def announcedAgent (headers : Headers) : Option String :=
  truthy (some (trim (headers.xAgentName.getD "")))

variable {env : Environment} {w : World} {headers : Headers} {user : User} {a : AgentRow}

/-- The request has a session of a user with the name. -/
def SessionOf (w : World) (headers : Headers) (username : String) : Prop :=
  ∃ token s u, parseCookie (headers.cookie.getD "") "mc-session" = .ok (some token) ∧
    Opens w token s ∧ u ∈ w.users ∧ u.id = s.userId ∧ u.username = username

/-- The request has a key of the agent. -/
def KeyOf (env : Environment) (w : World) (headers : Headers) (a : AgentRow) : Prop :=
  ∃ apiKey k, extractApiKeyFromHeaders headers = some apiKey ∧ Unlocks env w apiKey k a

/-- The credential of the request binds it to the agent. -/
def Bound (env : Environment) (w : World) (headers : Headers) (a : AgentRow) : Prop :=
  KeyOf env w headers a ∨ SessionOf w headers a.name

/-- What the two routes read of a principal below the system key. -/
inductive Speaker (env : Environment) (w : World) (headers : Headers) (user : User) : Prop where
  | session (session : SessionOf w headers user.username)
      (type : user.principalType = .user) (agentName : user.agentName = announcedAgent headers)
  | agent (a : AgentRow) (key : KeyOf env w headers a) (type : user.principalType = .agentApiKey)
      (username : user.username = a.name) (agentName : user.agentName = some a.name)
  | system (role : user.role = "admin")

theorem validateSession_username {token : String} (h : validateSession env w token = some user) :
    ∃ s u, Opens w token s ∧ u ∈ w.users ∧ u.id = s.userId ∧ u.username = user.username ∧
      user.principalType = .user := by
  rw [validateSession] at h
  by_cases htoken : token = ""
  · rw [if_pos htoken] at h
    cases h
  · rw [if_neg htoken] at h
    obtain ⟨s, hs, hfound⟩ := List.exists_of_findSome?_eq_some h
    by_cases hcurrent : s.token = token ∧ w.now < s.expiresAt
    · rw [if_pos hcurrent] at hfound
      obtain ⟨u, hu, rfl⟩ := Option.map_eq_some_iff.mp hfound
      obtain ⟨hmem, hid⟩ := getUserById_eq_some hu
      exact ⟨s, u, ⟨htoken, hs, hcurrent.1, hcurrent.2, u, hmem, hid⟩, hmem, hid, rfl, rfl⟩
    · rw [if_neg hcurrent] at hfound
      cases hfound

theorem validateAgentApiKey_names {apiKey : String}
    (h : validateAgentApiKey env w apiKey = some user) :
    ∃ k a, Unlocks env w apiKey k a ∧ user.principalType = .agentApiKey ∧
      user.username = a.name ∧ user.agentName = some a.name := by
  obtain ⟨k, hk, hfound⟩ := List.exists_of_findSome?_eq_some h
  by_cases hlive : k.keyHash = env.sha256 apiKey ∧ k.revokedAt = none ∧ k.expiresAt.all (w.now < ·)
  · rw [if_pos hlive] at hfound
    obtain ⟨a, ha, rfl⟩ := Option.map_eq_some_iff.mp hfound
    obtain ⟨hid, hworkspace⟩ := of_decide_eq_true (List.find?_some ha :)
    obtain ⟨hhash, hrevoked, hexpiry⟩ := hlive
    refine ⟨k, a, ⟨hk, hhash, hrevoked, ?_, List.mem_of_find?_eq_some ha, hid, hworkspace⟩,
      rfl, rfl, rfl⟩
    intro t ht
    rw [ht] at hexpiry
    exact of_decide_eq_true hexpiry
  · rw [if_neg hlive] at hfound
    cases hfound

theorem getUserFromRequest_speaker (h : getUserFromRequest env w headers = .ok (some user)) :
    Speaker env w headers user := by
  rw [getUserFromRequest] at h
  cases hcookie : parseCookie (headers.cookie.getD "") "mc-session" with
  | error e =>
    rw [hcookie] at h
    cases h
  | ok sessionToken =>
    rw [hcookie] at h
    dsimp only at h
    cases hsession : validateSession env w (sessionToken.getD "") with
    | some sessionUser =>
      rw [hsession] at h
      obtain rfl := Option.some.inj (Except.ok.inj h)
      obtain ⟨s, u, hopens, hu, hid, hname, htype⟩ := validateSession_username hsession
      cases sessionToken with
      | none => exact absurd rfl hopens.1
      | some token => exact .session ⟨token, s, u, hcookie, hopens, hu, hid, hname⟩ htype rfl
    | none =>
      rw [hsession] at h
      obtain ⟨apiKey, hkey, huser⟩ := Option.bind_eq_some_iff.mp (Except.ok.inj h)
      rcases apiKeyUser_cases huser with hagent | ⟨-, rfl⟩
      · obtain ⟨k, a, hunlocks, htype, hname, hagentName⟩ := validateAgentApiKey_names hagent
        exact .agent a ⟨apiKey, k, hkey, hunlocks⟩ htype hname hagentName
      · exact .system rfl

/-! ### What the reports ask for -/

theorem resolveAgent_mem {workspaceId : Nat} {agentId : String}
    (h : resolveAgent w workspaceId agentId = some a) : a ∈ w.agents := by
  rw [resolveAgent] at h
  split at h
  · exact List.mem_of_find?_eq_some h
  · exact List.mem_of_find?_eq_some h

theorem Attribution.report_self {agentId : String} {query : ReportQuery} {hours : Int}
    {sections : List String} (hrole : user.role ≠ "admin")
    (h : Attribution.report w user agentId query = .report a hours sections) :
    a ∈ w.agents ∧ (user.agentName = some a.name ∨ user.username = a.name) := by
  rw [Attribution.report] at h
  cases hagent : resolveAgent w user.workspaceId agentId with
  | none =>
    rw [hagent] at h
    cases h
  | some agent =>
    rw [hagent] at h
    dsimp only at h
    split at h
    · cases h
    · rename_i hscope
      have hself : user.agentName = some agent.name ∨ user.username = agent.name := by
        by_contra hother
        apply hscope
        simp only [not_or] at hother
        simp only [hother, hrole, false_and, decide_false, Bool.or_self, Bool.not_false,
          Bool.and_self]
      split at h
      · cases h
      · split at h
        · cases h
        · obtain ⟨rfl, -, -⟩ := Reply.report.inj h
          exact ⟨resolveAgent_mem hagent, hself⟩

theorem Diagnostics.report_self {number : String → Option Int} {agentId : String}
    {query : ReportQuery} {hours : Int} {sections : List String} (hrole : user.role ≠ "admin")
    (h : Diagnostics.report number w user agentId query = .report a hours sections) :
    a ∈ w.agents ∧ orElse (trim (user.agentName.getD "")) user.username = a.name := by
  rw [Diagnostics.report] at h
  cases hagent : resolveAgent w user.workspaceId agentId with
  | none =>
    rw [hagent] at h
    cases h
  | some agent =>
    rw [hagent] at h
    dsimp only at h
    split at h
    · cases h
    · rename_i hscope
      have hself : orElse (trim (user.agentName.getD "")) user.username = agent.name := by
        by_contra hother
        apply hscope
        simp only [hother, hrole, decide_false, Bool.and_false, Bool.not_false, Bool.and_self]
      split at h
      · cases h
      · split at h
        · cases h
        · obtain ⟨rfl, -, -⟩ := Reply.report.inj h
          exact ⟨resolveAgent_mem hagent, hself⟩


theorem eq_report_of_withRole (huser : getUserFromRequest env w headers = .ok (some user))
    {minRole : Role} {route : User → Reply} {hours : Int} {sections : List String}
    (h : withRole env w headers minRole route = .report a hours sections) :
    route user = .report a hours sections := by
  rw [withRole, requireRole, huser] at h
  dsimp only at h
  split at h
  · rename_i hrequired
    cases h
  · rename_i hrequired
    split at hrequired
    · cases hrequired
    · obtain rfl := Except.ok.inj hrequired
      exact h

/-- The agent of a name is the one whose key speaks under that name. -/
theorem KeyOf.bound (hnames : (w.agents.map (·.name)).Nodup) {a' : AgentRow}
    (hkey : KeyOf env w headers a') (ha : a ∈ w.agents) (hname : a'.name = a.name) :
    Bound env w headers a := by
  obtain ⟨apiKey, k, hheader, hunlocks⟩ := hkey
  obtain rfl : a' = a := List.inj_on_of_nodup_map hnames hunlocks.2.2.2.2.1 ha hname
  exact .inl ⟨apiKey, k, hheader, hunlocks⟩

theorem attribution_scope (hnames : (w.agents.map (·.name)).Nodup)
    (huser : getUserFromRequest env w headers = .ok (some user)) (hrole : user.role ≠ "admin")
    {agentId : String} {query : ReportQuery} {hours : Int} {sections : List String}
    (h : attribution env w headers agentId query = .report a hours sections) :
    Bound env w headers a ∨
      user.principalType = .user ∧ announcedAgent headers = some a.name := by
  obtain ⟨ha, hself⟩ := Attribution.report_self hrole (eq_report_of_withRole huser h)
  cases getUserFromRequest_speaker huser with
  | session hsession type agentName =>
    rcases hself with hheader | husername
    · exact .inr ⟨type, agentName.symm.trans hheader⟩
    · exact .inl (.inr (husername ▸ hsession))
  | agent a' key type username agentName =>
    have hname : a'.name = a.name := by
      rcases hself with hheader | husername
      · exact Option.some.inj (agentName.symm.trans hheader)
      · exact username.symm.trans husername
    exact .inl (key.bound hnames ha hname)
  | system role => exact absurd role hrole

theorem announcedAgent_eq_some {name : String} (h : announcedAgent headers = some name) :
    name ≠ "" ∧ trim name = name := by
  rw [announcedAgent, truthy, Option.filter_eq_some_iff] at h
  obtain ⟨hname, hfull⟩ := h
  obtain rfl := Option.some.inj hname
  exact ⟨of_decide_eq_true hfull, trim_trim _⟩

theorem diagnostics_scope (hnames : (w.agents.map (·.name)).Nodup)
    (huser : getUserFromRequest env w headers = .ok (some user)) (hrole : user.role ≠ "admin")
    (hplain : user.principalType = .agentApiKey → trim user.username = user.username)
    {number : String → Option Int} {agentId : String} {query : ReportQuery} {hours : Int}
    {sections : List String}
    (h : diagnostics env number w headers agentId query = .report a hours sections) :
    Bound env w headers a ∨
      user.principalType = .user ∧ announcedAgent headers = some a.name := by
  obtain ⟨ha, hself⟩ := Diagnostics.report_self hrole (eq_report_of_withRole huser h)
  cases getUserFromRequest_speaker huser with
  | session hsession type agentName =>
    rw [agentName] at hself
    cases hannounced : announcedAgent headers with
    | none =>
      have husername : user.username = a.name := by
        rw [hannounced] at hself
        exact hself
      exact .inl (.inr (husername ▸ hsession))
    | some name =>
      obtain ⟨hname, htrimmed⟩ := announcedAgent_eq_some hannounced
      rw [hannounced, Option.getD_some, htrimmed, orElse, if_neg hname] at hself
      exact .inr ⟨type, by rw [hself]⟩
  | agent a' key type username agentName =>
    have hsame : trim a'.name = a'.name := by
      rw [← username]
      exact hplain type
    rw [agentName, Option.getD_some, hsame, username, orElse] at hself
    have hname : a'.name = a.name := by
      split at hself
      · exact hself
      · exact hself
    exact .inl (key.bound hnames ha hname)
  | system role => exact absurd role hrole

/-- Below the role of admin, a report is for the agent that the credential binds the request
to, or for the agent that the request of a session says it speaks for. -/
theorem report_bound_or_announced (hnames : (w.agents.map (·.name)).Nodup)
    (huser : getUserFromRequest env w headers = .ok (some user))
    (hrole : roleLevel user.role < roleLevel "admin") (agentId : String) (query : ReportQuery)
    (a : AgentRow) (hours : Int) (sections : List String) :
    (attribution env w headers agentId query = .report a hours sections →
      Bound env w headers a ∨
        user.principalType = .user ∧ announcedAgent headers = some a.name) ∧
    ((user.principalType = .agentApiKey → trim user.username = user.username) →
      ∀ number, diagnostics env number w headers agentId query = .report a hours sections →
        Bound env w headers a ∨
          user.principalType = .user ∧ announcedAgent headers = some a.name) := by
  have hnot : user.role ≠ "admin" := by
    intro hadmin
    rw [hadmin] at hrole
    exact absurd hrole (Int.lt_irrefl _)
  exact ⟨attribution_scope hnames huser hnot, fun hplain _ =>
    diagnostics_scope hnames huser hnot hplain⟩


/-! ### A viewer who says it is an agent -/

def mallory : UserRow where
  id := 1
  username := "mallory"
  displayName := "Mallory"
  passwordHash := "salt:hash"
  role := "viewer"
  provider := .localAccount
  providerUserId := none
  email := none
  avatarUrl := none
  isApproved := 1
  approvedBy := none
  approvedAt := none
  workspaceId := 1
  updatedAt := 0
  lastLoginAt := none

def scout : AgentRow := ⟨1, "scout", 1⟩

def oneViewer : World :=
  { World.empty 1000 with
    users := [mallory]
    sessions := [⟨"token", 1, 1, 2000⟩]
    agents := [scout] }

def asScout : Headers := ⟨some "scout", some "mc-session=token", none, none⟩

/-- The principal of the request. -/
def malloryAsScout : User where
  id := 1
  username := "mallory"
  displayName := "Mallory"
  role := "viewer"
  workspaceId := 1
  agentName := some "scout"
  principalType := .user
  agentId := none
  authScopes := none

def plainQuery : ReportQuery := ⟨none, none, none⟩

theorem report_bound_or_announced_scout :
    Bound plainEnvironment oneViewer asScout scout ∨
      malloryAsScout.principalType = .user ∧ announcedAgent asScout = some scout.name :=
  (@report_bound_or_announced plainEnvironment oneViewer asScout malloryAsScout (by decide)
    (by decide +kernel) (by decide) "scout" plainQuery scout 24 Attribution.allowedSections).1
    (by decide +kernel)

/-- Mallory reads both reports about an agent that she has no credential of. -/
theorem viewer_reads_agent_reports :
    getUserFromRequest plainEnvironment oneViewer asScout = .ok (some malloryAsScout) ∧
      roleLevel malloryAsScout.role < roleLevel "admin" ∧
      attribution plainEnvironment oneViewer asScout "scout" plainQuery =
        .report scout 24 Attribution.allowedSections ∧
      diagnostics plainEnvironment (fun _ => none) oneViewer asScout "scout" plainQuery =
        .report scout 24 Diagnostics.allowedSections ∧
      ¬ Bound plainEnvironment oneViewer asScout scout := by
  refine ⟨by decide +kernel, by decide, by decide +kernel, by decide +kernel, ?_⟩
  rintro (⟨apiKey, k, -, hk, -⟩ | ⟨token, s, u, -, -, hu, -, hname⟩)
  · exact List.not_mem_nil hk
  · obtain rfl := List.mem_singleton.mp hu
    exact absurd hname (by decide)


end MissionControl.Auth.SelfScope
