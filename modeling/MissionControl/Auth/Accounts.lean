import MissionControl.Foundations.HeaderText
import MissionControl.Foundations.Query

/-!
Users, their sessions, and the API keys of agents: the tables, the functions of the account
library that read and write them, and how a request is given its principal. Ids come from
counters that only grow. Time is in whole seconds.
-/

set_option autoImplicit false
set_option relaxedAutoImplicit false

namespace MissionControl.Auth.Accounts

open MissionControl.Foundations.JsText
open MissionControl.Foundations.HeaderText
open MissionControl.Foundations.Query (pickFirst)

/-! ### Tables -/

inductive Role where
  | admin
  | operator
  | viewer
  deriving DecidableEq

def Role.text : Role → String
  | .admin => "admin"
  | .operator => "operator"
  | .viewer => "viewer"

inductive Provider where
  | localAccount
  | google
  deriving DecidableEq

/-- A row of `users`. An update may leave a role in it that is no `Role`. -/
structure UserRow where
  id : Nat
  username : String
  displayName : String
  passwordHash : String
  role : String
  provider : Provider
  providerUserId : Option String
  email : Option String
  avatarUrl : Option String
  isApproved : Int
  approvedBy : Option String
  approvedAt : Option Nat
  workspaceId : Nat
  updatedAt : Nat
  lastLoginAt : Option Nat
  deriving DecidableEq

/-- A row of `user_sessions`. -/
structure UserSession where
  token : String
  userId : Nat
  workspaceId : Nat
  expiresAt : Nat
  deriving DecidableEq

/-- A row of `agents`. -/
structure AgentRow where
  id : Nat
  name : String
  workspaceId : Nat
  deriving DecidableEq

/-- A row of `agent_api_keys`; `scopes` is the array that the column holds as a text. -/
structure AgentApiKeyRow where
  id : Nat
  agentId : Nat
  workspaceId : Nat
  name : String
  keyHash : String
  keyPrefix : String
  scopes : List String
  expiresAt : Option Nat
  revokedAt : Option Nat
  createdBy : String
  deriving DecidableEq

inductive RequestStatus where
  | pending
  | approved
  | rejected
  deriving DecidableEq

/-- A row of `access_requests`. -/
structure AccessRequest where
  id : Nat
  email : String
  providerUserId : Option String
  displayName : Option String
  avatarUrl : Option String
  status : RequestStatus
  attemptCount : Nat
  lastAttemptAt : Nat
  reviewedBy : Option String
  reviewedAt : Option Nat
  reviewNote : Option String
  approvedUserId : Option Nat
  deriving DecidableEq

/-- What has happened to credentials. -/
inductive Record where
  | sessionCreated (token : String) (userId expiresAt : Nat)
  | sessionDestroyed (token : String)
  | userDeleted (userId : Nat)
  | keyCreated (keyHash : String) (expiresAt : Option Nat)
  | keyRevoked (keyHash : String)
  /-- A login with Google: the account's sub, the row whose session was opened, and the
  approved rows that carried the sub before. -/
  | googleLogin (sub : String) (userId : Nat) (carriers : List Nat)
  deriving DecidableEq

structure World where
  users : List UserRow
  sessions : List UserSession
  agents : List AgentRow
  keys : List AgentApiKeyRow
  requests : List AccessRequest
  nextUserId : Nat
  nextAgentId : Nat
  nextKeyId : Nat
  nextRequestId : Nat
  now : Nat
  history : List Record
  deriving DecidableEq

namespace World

def empty (now : Nat) : World := ⟨[], [], [], [], [], 1, 1, 1, 1, now, []⟩

def record (w : World) (r : Record) : World := { w with history := w.history ++ [r] }

@[simp] theorem record_users (w : World) (r : Record) : (w.record r).users = w.users := rfl

@[simp] theorem record_sessions (w : World) (r : Record) :
    (w.record r).sessions = w.sessions := rfl

@[simp] theorem record_keys (w : World) (r : Record) : (w.record r).keys = w.keys := rfl

@[simp] theorem record_nextUserId (w : World) (r : Record) :
    (w.record r).nextUserId = w.nextUserId := rfl

@[simp] theorem record_now (w : World) (r : Record) : (w.record r).now = w.now := rfl

@[simp] theorem mem_record {w : World} {r r' : Record} :
    r' ∈ (w.record r).history ↔ r' ∈ w.history ∨ r' = r := by
  rw [record, List.mem_append, List.mem_singleton]

/-- `UPDATE users SET … WHERE id = ?`. -/
def modifyUser (w : World) (id : Nat) (f : UserRow → UserRow) : World :=
  { w with users := w.users.map fun u => if u.id = id then f u else u }

end World

/-- What the account library takes from outside: the configuration, the functions of the
crypto module, and the lower case that the runtime gives a text. -/
structure Environment where
  /-- `API_KEY`. -/
  apiKey : Option String
  /-- `GOOGLE_CLIENT_ID`, or else `NEXT_PUBLIC_GOOGLE_CLIENT_ID`. -/
  googleClientId : Option String
  /-- The id of the workspace with the slug `default`, or else 1. -/
  defaultWorkspaceId : Nat
  /-- The SHA-256 digest of a text, in hexadecimal. -/
  sha256 : String → String
  /-- `scryptSync(password, salt, 32, { N: 16384 })`. -/
  scryptSync : String → String → List UInt8
  toLowerCase : String → String

/-! ### Passwords -/

def hexDigits (b : UInt8) : List Char :=
  let digit (n : Nat) : Char := Char.ofNat (if n < 10 then '0'.toNat + n else 'a'.toNat + (n - 10))
  [digit (b.toNat / 16), digit (b.toNat % 16)]

/-- `Buffer.from(text, 'hex')`, which stops at the first pair that is no byte. -/
def bytesOfHex : List Char → List UInt8
  | a :: b :: cs =>
    match digitValue a, digitValue b with
    | some high, some low => UInt8.ofNat (high * 16 + low) :: bytesOfHex cs
    | _, _ => []
  | _ => []

/-- `hashPassword`, with the salt that it draws. -/
def hashPassword (env : Environment) (password salt : String) : String :=
  salt ++ ":" ++ String.ofList ((env.scryptSync password salt).flatMap hexDigits)

def verifyPassword (env : Environment) (password stored : String) : Bool :=
  let salt := stored.toList.takeWhile (· ≠ ':')
  let hash := ((stored.toList.dropWhile (· ≠ ':')).drop 1).takeWhile (· ≠ ':')
  if salt = [] ∨ hash = [] then false
  else env.scryptSync password (String.ofList salt) = bytesOfHex hash

/-! ### Sessions -/

inductive PrincipalType where
  | user
  | systemApiKey
  | agentApiKey
  deriving DecidableEq

/-- The user of a request, which all three kinds of principal are given the shape of. -/
structure User where
  id : Nat
  username : String
  displayName : String
  role : String
  workspaceId : Nat
  agentName : Option String
  principalType : PrincipalType
  agentId : Option Nat
  authScopes : Option (List String)
  deriving DecidableEq

def sessionDuration : Nat := 7 * 24 * 60 * 60

def getUserById (w : World) (id : Nat) : Option UserRow := w.users.find? fun u => u.id = id

/-- `SELECT … FROM users WHERE … ORDER BY id ASC LIMIT 1`. -/
def firstUser (w : World) (matching : UserRow → Bool) : Option UserRow :=
  pickFirst (fun a b => a.id ≤ b.id) (w.users.filter matching)

/-- `UPDATE users SET last_login_at = ?, updated_at = ?`. -/
def noteLogin (now : Nat) (u : UserRow) : UserRow :=
  { u with lastLoginAt := some now, updatedAt := now }

/-- `createSession`, with the token that it draws. Drawing one that is in use throws. -/
def createSession (w : World) (userId workspaceId : Nat) (token : String) : Except String World :=
  if w.sessions.any fun s => s.token = token then
    .error "UNIQUE constraint failed: user_sessions.token"
  else
    let session : UserSession := ⟨token, userId, workspaceId, w.now + sessionDuration⟩
    let w := w.modifyUser userId (noteLogin w.now)
    .ok (World.record
      { w with sessions := (w.sessions ++ [session]).filter fun s => w.now ≤ s.expiresAt }
      (.sessionCreated token userId session.expiresAt))

/-- `row.workspace_id || getDefaultWorkspaceId()`. -/
def workspaceOr (env : Environment) (workspaceId : Nat) : Nat :=
  if workspaceId = 0 then env.defaultWorkspaceId else workspaceId

def validateSession (env : Environment) (w : World) (token : String) : Option User :=
  if token = "" then none
  else
    w.sessions.findSome? fun s =>
      if s.token = token ∧ w.now < s.expiresAt then
        (getUserById w s.userId).map fun u =>
          { id := u.id
            username := u.username
            displayName := u.displayName
            role := u.role
            workspaceId := workspaceOr env s.workspaceId
            agentName := none
            principalType := .user
            agentId := none
            authScopes := none }
      else none

/-- `destroySession`, which goes down in the history when there is such a session. -/
def destroySession (w : World) (token : String) : World :=
  if w.sessions.any fun s => s.token = token then
    World.record { w with sessions := w.sessions.filter fun s => s.token ≠ token }
      (.sessionDestroyed token)
  else w

def destroyAllUserSessions (w : World) (userId : Nat) : World :=
  { w with sessions := w.sessions.filter fun s => s.userId ≠ userId }

/-! ### Users -/

def authenticateUser (env : Environment) (w : World) (username password : String) :
    Option UserRow :=
  match w.users.find? fun u => u.username = username with
  | none => none
  | some row =>
    if row.provider ≠ .localAccount then none
    else if row.isApproved ≠ 1 then none
    else if verifyPassword env password row.passwordHash = false then none
    else some row

/-- The options of `createUser`. -/
structure CreateUserOptions where
  provider : Provider
  providerUserId : Option String
  email : Option String
  avatarUrl : Option String
  approvedBy : Option String
  approvedAt : Option Nat
  workspaceId : Option Nat

/-- `createUser`, for an approved user; also the id of the row. -/
def createUser (env : Environment) (w : World) (username password displayName : String)
    (role : Role) (options : CreateUserOptions) (salt : String) : Except String (World × Nat) :=
  if utf16Length password < 12 then .error "Password must be at least 12 characters"
  else if w.users.any fun u => u.username = username then
    .error "UNIQUE constraint failed: users.username"
  else
    let row : UserRow :=
      { id := w.nextUserId
        username := username
        displayName := displayName
        passwordHash := hashPassword env password salt
        role := role.text
        provider := options.provider
        providerUserId := truthy options.providerUserId
        email := truthy options.email
        avatarUrl := truthy options.avatarUrl
        isApproved := 1
        approvedBy := truthy options.approvedBy
        approvedAt := options.approvedAt.filter (· ≠ 0)
        workspaceId := workspaceOr env (options.workspaceId.getD 0)
        updatedAt := w.now
        lastLoginAt := none }
    .ok ({ w with users := w.users ++ [row], nextUserId := w.nextUserId + 1 }, w.nextUserId)

/-- The updates of `updateUser`; `none` is a field that is left alone. -/
structure UserUpdates where
  displayName : Option String
  role : Option String
  password : Option String
  email : Option (Option String)
  avatarUrl : Option (Option String)
  isApproved : Option Int
  deriving DecidableEq

def UserUpdates.none : UserUpdates := ⟨.none, .none, .none, .none, .none, .none⟩

/-- The row after the assignments of `updateUser`. -/
def UserUpdates.apply (env : Environment) (updates : UserUpdates) (salt : String) (now : Nat)
    (u : UserRow) : UserRow :=
  { u with
    displayName := updates.displayName.getD u.displayName
    role := updates.role.getD u.role
    passwordHash := (updates.password.map fun p => hashPassword env p salt).getD u.passwordHash
    email := updates.email.getD u.email
    avatarUrl := updates.avatarUrl.getD u.avatarUrl
    isApproved := updates.isApproved.getD u.isApproved
    updatedAt := now }

/-- `updateUser`, with the salt that hashing a password draws. -/
def updateUser (env : Environment) (w : World) (id : Nat) (updates : UserUpdates)
    (salt : String) : World :=
  if updates = .none then w
  else w.modifyUser id (updates.apply env salt w.now)

/-- `deleteUser`; an access request that led to the user forgets it. -/
def deleteUser (w : World) (id : Nat) : World :=
  let w := destroyAllUserSessions w id
  World.record
    { w with
      users := w.users.filter fun u => u.id ≠ id
      requests := w.requests.map fun r =>
        if r.approvedUserId = some id then { r with approvedUserId := none } else r }
    (.userDeleted id)

/-! ### Agent keys -/

def toRoleFromScopes (scopes : List String) : Role :=
  if "admin" ∈ scopes then .admin
  else if "operator" ∈ scopes then .operator
  else .viewer

def parseScopes (raw : List String) : List String :=
  let scopes := (raw.map trim).filter (· ≠ "")
  if scopes = [] then ["viewer"] else scopes

/-- `validateAgentApiKey`. That a key was used is noted in columns that nothing else reads. -/
def validateAgentApiKey (env : Environment) (w : World) (rawApiKey : String) : Option User :=
  let keyHash := env.sha256 rawApiKey
  w.keys.findSome? fun k =>
    if k.keyHash = keyHash ∧ k.revokedAt = none ∧ k.expiresAt.all (w.now < ·) then
      (w.agents.find? fun a => a.id = k.agentId ∧ a.workspaceId = k.workspaceId).map fun a =>
        let scopes := parseScopes k.scopes
        { id := k.agentId
          username := a.name
          displayName := a.name
          role := (toRoleFromScopes scopes).text
          workspaceId := k.workspaceId
          agentName := some a.name
          principalType := .agentApiKey
          agentId := some k.agentId
          authScopes := some scopes }
    else none

/-! ### Requests -/

structure Headers where
  xAgentName : Option String
  cookie : Option String
  xApiKey : Option String
  authorization : Option String
  deriving DecidableEq

def extractApiKeyFromHeaders (headers : Headers) : Option String :=
  match truthy (some (trim (headers.xApiKey.getD ""))) with
  | some direct => some direct
  | none => authorizationKey (headers.authorization.getD "")

def systemUser (env : Environment) (agentName : Option String) : User where
  id := 0
  username := "api"
  displayName := "API Access"
  role := "admin"
  workspaceId := env.defaultWorkspaceId
  agentName := agentName
  principalType := .systemApiKey
  agentId := none
  authScopes := some ["admin"]

/-- The principal behind an API key. -/
def apiKeyUser (env : Environment) (w : World) (agentName : Option String) (apiKey : String) :
    Option User :=
  match validateAgentApiKey env w apiKey with
  | some agentPrincipal => some agentPrincipal
  | none =>
    let configuredApiKey := trim (env.apiKey.getD "")
    if configuredApiKey ≠ "" ∧ apiKey = configuredApiKey then some (systemUser env agentName)
    else none

/-- `getUserFromRequest`; it throws on a session cookie that cannot be decoded. -/
def getUserFromRequest (env : Environment) (w : World) (headers : Headers) :
    Except String (Option User) :=
  let agentName := truthy (some (trim (headers.xAgentName.getD "")))
  match parseCookie (headers.cookie.getD "") "mc-session" with
  | .error e => .error e
  | .ok sessionToken =>
    match validateSession env w (sessionToken.getD "") with
    | some user => .ok (some { user with agentName := agentName })
    | none => .ok ((extractApiKeyFromHeaders headers).bind (apiKeyUser env w agentName))

def roleLevel (role : String) : Int :=
  if role = "viewer" then 0 else if role = "operator" then 1 else if role = "admin" then 2 else -1

/-- `requireRole`: the user, or an error with its status. -/
def requireRole (env : Environment) (w : World) (headers : Headers) (minRole : Role) :
    Except (String × Nat) User :=
  match getUserFromRequest env w headers with
  | .error e => .error (e, 500)
  | .ok none => .error ("Authentication required", 401)
  | .ok (some user) =>
    if roleLevel user.role < roleLevel minRole.text then
      .error ("Requires " ++ minRole.text ++ " role or higher", 403)
    else .ok user

end MissionControl.Auth.Accounts
