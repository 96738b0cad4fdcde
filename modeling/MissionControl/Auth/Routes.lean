import MissionControl.Auth.Accounts
import MissionControl.Foundations.Transition

/-!
The routes that change accounts, sessions, access requests and agent keys, and the machine
whose events they are. A route finds out who is asking before it awaits its body, so that the
user it acts for is part of the event; what it does afterwards is not interrupted.
-/

set_option autoImplicit false
set_option relaxedAutoImplicit false

namespace MissionControl.Auth.Routes

open MissionControl.Foundations.JsText
open MissionControl.Foundations.HeaderText
open MissionControl.Foundations.Transition (Machine)
open Accounts

/-- The answer to a request. -/
inductive Reply where
  | done
  | refused (status : Nat) (error : String)
  deriving DecidableEq

/-- The answer of a handler that may throw; what it had written by then is `w`. -/
def caught (w : World) (failed : String → Reply) : Except String World → World × Reply
  | .ok w' => (w', .done)
  | .error e => (w, failed e)

/-! ### Sessions -/

/-- `POST /api/auth/login`. -/
def login (env : Environment) (w : World) (username password token : String) : World × Reply :=
  if username = "" ∨ password = "" then
    (w, .refused 400 "Username and password are required")
  else
    match authenticateUser env w username password with
    | none => (w, .refused 401 "Invalid credentials")
    | some user =>
      caught w (fun _ => .refused 500 "Internal server error")
        (createSession w user.id (workspaceOr env user.workspaceId) token)

/-- `POST /api/auth/logout`. -/
def logout (w : World) (headers : Headers) : World × Reply :=
  match parseCookie (headers.cookie.getD "") "mc-session" with
  | .error e => (w, .refused 500 e)
  | .ok token =>
    match truthy token with
    | none => (w, .done)
    | some token => (destroySession w token, .done)

/-! ### Google identities -/

/-- What the token service of Google says of a credential. -/
structure GoogleIdTokenPayload where
  sub : Option String
  email : Option String
  emailVerified : Bool
  name : Option String
  picture : Option String
  aud : Option String
  deriving DecidableEq

/-- A payload that has been checked, with the two fields that it must have. -/
structure GoogleProfile where
  sub : String
  email : String
  name : Option String
  picture : Option String
  deriving DecidableEq

def verifyGoogleIdToken (env : Environment) (payload : GoogleIdTokenPayload) :
    Except String GoogleProfile :=
  let audExpected := trim (env.googleClientId.getD "")
  if audExpected ≠ "" ∧ payload.aud ≠ some audExpected then
    .error "Google token audience mismatch"
  else
    match truthy payload.email, truthy payload.sub with
    | some email, some sub =>
      if payload.emailVerified = false then .error "Google email is not verified"
      else .ok ⟨sub, email, payload.name, payload.picture⟩
    | _, _ => .error "Google token missing required identity fields"

/-- `lower(…)` of SQLite, which knows the letters from A to Z. -/
def sqlLower (s : String) : String := String.ofList (s.toList.map Char.toLower)

/-- `lower(email) = ?`. -/
def UserHasEmail (email : String) (u : UserRow) : Prop := u.email.map sqlLower = some email

/-- `provider = 'google' AND provider_user_id = ?`. -/
def Carries (sub : String) (u : UserRow) : Prop :=
  u.provider = .google ∧ u.providerUserId = some sub

instance decidableUserHasEmail (email : String) (u : UserRow) :
    Decidable (UserHasEmail email u) :=
  inferInstanceAs (Decidable (u.email.map sqlLower = some email))

instance decidableCarries (sub : String) (u : UserRow) : Decidable (Carries sub u) :=
  inferInstanceAs (Decidable (u.provider = .google ∧ u.providerUserId = some sub))

/-- The row that both a login and an approval pick for a Google account. -/
def accountRow (w : World) (sub email : String) : Option UserRow :=
  firstUser w fun u => Carries sub u ∨ UserHasEmail email u

/-- `text.split('@')[0]`. -/
def beforeAt (email : String) : String := String.ofList (email.toList.takeWhile (· ≠ '@'))

def upsertAccessRequest (env : Environment) (w : World) (email providerUserId displayName : String)
    (avatarUrl : Option String) : World :=
  let email := env.toLowerCase email
  if w.requests.any fun r => r.email = email then
    { w with
      requests := w.requests.map fun r =>
        if r.email = email then
          { r with
            providerUserId := some providerUserId
            displayName := some displayName
            avatarUrl := truthy avatarUrl
            status := .pending
            attemptCount := r.attemptCount + 1
            lastAttemptAt := w.now }
        else r }
  else
    { w with
      requests := w.requests ++
        [{ id := w.nextRequestId
           email := email
           providerUserId := some providerUserId
           displayName := some displayName
           avatarUrl := truthy avatarUrl
           status := .pending
           attemptCount := 1
           lastAttemptAt := w.now
           reviewedBy := none
           reviewedAt := none
           reviewNote := none
           approvedUserId := none }]
      nextRequestId := w.nextRequestId + 1 }

/-- The assignments of a login with Google to the row it picked. -/
def adoptIdentity (sub email : String) (avatar : Option String) (now : Nat) (u : UserRow) :
    UserRow :=
  { u with
    provider := .google
    providerUserId := some sub
    email := some email
    avatarUrl := avatar.or u.avatarUrl
    updatedAt := now }

/-- `POST /api/auth/google`, once the credential is verified. -/
def loginWithProfile (env : Environment) (w : World) (profile : GoogleProfile) (token : String) :
    World × Reply :=
  let email := trim (env.toLowerCase profile.email)
  let sub := trim profile.sub
  let displayName := trim (orElse (profile.name.getD "") (orElse (beforeAt email) "Google User"))
  let avatar := truthy profile.picture
  match accountRow w sub email with
  | none =>
    (upsertAccessRequest env w email sub displayName avatar,
      .refused 403 "Access request pending admin approval")
  | some row =>
    if row.isApproved ≠ 1 then
      (upsertAccessRequest env w email sub displayName avatar,
        .refused 403 "Access request pending admin approval")
    else
      let carriers := (w.users.filter fun u => Carries sub u ∧ u.isApproved = 1).map (·.id)
      let adopted := w.modifyUser row.id (adoptIdentity sub email avatar w.now)
      caught adopted (.refused 400) <|
        (createSession adopted row.id row.workspaceId token).map fun w =>
          w.record (.googleLogin sub row.id carriers)

/-- `POST /api/auth/google`. -/
def googleLogin (env : Environment) (w : World) (payload : GoogleIdTokenPayload) (token : String) :
    World × Reply :=
  match verifyGoogleIdToken env payload with
  | .error e => (w, .refused 400 e)
  | .ok profile => loginWithProfile env w profile token

inductive RequestAction where
  | approve
  | reject
  deriving DecidableEq

def makeUsernameFromEmail (email : String) : String :=
  let kept := (beforeAt email).toList.filter fun c =>
    c.isAlphanum ∨ c = '.' ∨ c = '_' ∨ c = '-'
  let base := orElse (sqlLower (String.ofList kept)) "user"
  String.ofList (base.toList.take 28)

/-- `ensureUniqueUsername`: among more candidates than there are users, one is free. -/
def ensureUniqueUsername (w : World) (base : String) : String :=
  let candidate (i : Nat) : String :=
    if i = 0 then base else String.ofList (base.toList.take 24) ++ "-" ++ toString i
  (((List.range (w.users.length + 2)).map candidate).find? fun c =>
    ¬ w.users.any fun u => u.username = c).getD base

/-- The assignments of an approval to the row it picked. -/
def approveRow (providerUserId : Option String) (email : String) (avatarUrl : Option String)
    (role : Role) (approver : String) (now : Nat) (u : UserRow) : UserRow :=
  { u with
    provider := .google
    providerUserId := providerUserId
    email := some email
    avatarUrl := avatarUrl.or u.avatarUrl
    isApproved := 1
    role := role.text
    approvedBy := some approver
    approvedAt := some now
    updatedAt := now }

def reviewRow (id : Nat) (f : AccessRequest → AccessRequest) (w : World) : World :=
  { w with requests := w.requests.map fun r => if r.id = id then f r else r }

/-- The transaction that approves a request, with the password and the salt it draws for a row
that it creates. -/
def approveRequest (env : Environment) (w : World) (request : AccessRequest) (role : Role)
    (note : Option String) (approver password salt : String) : Except String World :=
  let email := env.toLowerCase request.email
  let providerUserId := truthy request.providerUserId
  let displayName :=
    orElse (request.displayName.getD "") (orElse (beforeAt email) "Google User")
  let avatarUrl := truthy request.avatarUrl
  let settled (userId : Nat) (r : AccessRequest) : AccessRequest :=
    { r with
      status := .approved
      reviewedBy := some approver
      reviewedAt := some w.now
      reviewNote := note
      approvedUserId := some userId }
  match accountRow w (providerUserId.getD "") email with
  | some existing =>
    .ok (reviewRow request.id (settled existing.id)
      (w.modifyUser existing.id (approveRow providerUserId email avatarUrl role approver w.now)))
  | none =>
    (createUser env w (ensureUniqueUsername w (makeUsernameFromEmail email)) password displayName
      role ⟨.google, providerUserId, some email, avatarUrl, some approver, some w.now, none⟩
      salt).map fun (w', userId) => reviewRow request.id (settled userId) w'

/-- `POST /api/auth/access-requests`. -/
def reviewRequest (env : Environment) (w : World) (admin : Option User) (requestId : Nat)
    (action : RequestAction) (role : Role) (note : Option String) (password salt : String) :
    World × Reply :=
  match admin.filter fun u => u.role = "admin" with
  | none => (w, .refused 403 "Admin access required")
  | some admin =>
    match w.requests.find? fun r => r.id = requestId with
    | none => (w, .refused 404 "Request not found")
    | some request =>
      match action with
      | .reject =>
        (reviewRow requestId (fun r =>
          { r with
            status := .rejected
            reviewedBy := some admin.username
            reviewedAt := some w.now
            reviewNote := note }) w, .done)
      | .approve =>
        caught w (.refused 500)
          (approveRequest env w request role note admin.username password salt)

/-! ### Users -/

/-- The body of `POST /api/auth/users`. -/
structure CreateUserBody where
  username : String
  password : String
  displayName : Option String
  role : Role
  provider : Provider
  email : Option String
  deriving DecidableEq

/-- `POST /api/auth/users`. -/
def postUser (env : Environment) (w : World) (currentUser : Option User) (body : CreateUserBody)
    (salt : String) : World × Reply :=
  match currentUser.filter fun u => u.role = "admin" with
  | none => (w, .refused 403 "Admin access required")
  | some currentUser =>
    if body.username = "" then (w, .refused 400 "Username is required")
    else if utf16Length body.password < 12 then
      (w, .refused 400 "Password must be at least 12 characters")
    else
      caught w (fun _ => .refused 409 "Username already exists") <|
        (createUser env w body.username body.password
          (orElse (body.displayName.getD "") body.username) body.role
          ⟨body.provider, none, truthy body.email, none, none, none, some currentUser.workspaceId⟩
          salt).map Prod.fst

/-- The body of `PUT /api/auth/users`; `id` is the text of the id, unless the id is falsy. -/
structure UserBody where
  id : Option String
  displayName : Option String
  role : Option String
  password : Option String
  isApproved : Option Int
  email : Option (Option String)
  avatarUrl : Option (Option String)
  deriving DecidableEq

def UserBody.updates (body : UserBody) : UserUpdates where
  displayName := body.displayName
  role := body.role
  password := truthy body.password
  isApproved := body.isApproved
  email := body.email
  avatarUrl := body.avatarUrl

/-- The row with the id, if it belongs to the workspace of the user who asks. -/
def workspaceUser (w : World) (currentUser : User) (userId : Option Int) : Option UserRow :=
  ((userId.bind Int.toNat?).bind (getUserById w)).filter fun u =>
    u.workspaceId = currentUser.workspaceId

/-- `PUT /api/auth/users`. -/
def putUser (env : Environment) (w : World) (currentUser : Option User) (body : UserBody)
    (salt : String) : World × Reply :=
  match currentUser.filter fun u => u.role = "admin" with
  | none => (w, .refused 403 "Admin access required")
  | some currentUser =>
    match body.id.bind parseInt with
    | none => (w, .refused 400 "User ID is required")
    | some userId =>
      let role := truthy body.role
      if ¬ role.all fun r => r ∈ ["admin", "operator", "viewer"] then
        (w, .refused 400 "Invalid role")
      else if userId = currentUser.id ∧ role ≠ none ∧ role ≠ some currentUser.role then
        (w, .refused 400 "Cannot change your own role")
      else
        match workspaceUser w currentUser (some userId) with
        | none => (w, .refused 404 "User not found")
        | some existing => (updateUser env w existing.id body.updates salt, .done)

/-- `DELETE /api/auth/users`; `id` is the text of the id, unless the id is falsy. -/
def removeUser (w : World) (currentUser : Option User) (id : Option String) : World × Reply :=
  match currentUser.filter fun u => u.role = "admin" with
  | none => (w, .refused 403 "Admin access required")
  | some currentUser =>
    match id with
    | none => (w, .refused 400 "User ID is required")
    | some id =>
      if parseInt id = some (currentUser.id : Int) then
        (w, .refused 400 "Cannot delete your own account")
      else
        match workspaceUser w currentUser (parseInt id) with
        | none => (w, .refused 404 "User not found")
        | some existing => (deleteUser w existing.id, .done)

/-- The body of `PATCH /api/auth/me`. -/
structure ProfileBody where
  currentPassword : Option String
  newPassword : Option String
  displayName : Option String
  deriving DecidableEq

/-- The password that a self-service update sets, after its checks. -/
def passwordChange (env : Environment) (w : World) (user : User) (body : ProfileBody) :
    Except Reply (Option String) :=
  match truthy body.newPassword with
  | none => .ok none
  | some newPassword =>
    match truthy body.currentPassword with
    | none => .error (.refused 400 "Current password is required")
    | some currentPassword =>
      if utf16Length newPassword < 8 then
        .error (.refused 400 "New password must be at least 8 characters")
      else if (getUserById w user.id).any fun row =>
          verifyPassword env currentPassword row.passwordHash then
        .ok (some newPassword)
      else .error (.refused 403 "Current password is incorrect")

def profileUpdates (displayName password : Option String) : UserUpdates :=
  ⟨displayName, none, password, none, none, none⟩

/-- The end of `PATCH /api/auth/me`, with the updates in hand. -/
def updateProfile (env : Environment) (w : World) (user : User)
    (displayName password : Option String) (salt : String) : World × Reply :=
  let w := updateUser env w user.id (profileUpdates displayName password) salt
  match getUserById w user.id with
  | none => (w, .refused 404 "User not found")
  | some _ => (w, .done)

/-- `PATCH /api/auth/me`. -/
def patchMe (env : Environment) (w : World) (user : Option User) (body : ProfileBody)
    (salt : String) : World × Reply :=
  match user with
  | none => (w, .refused 401 "Not authenticated")
  | some user =>
    if user.id = 0 then (w, .refused 403 "API key users cannot change passwords")
    else
      match passwordChange env w user body with
      | .error reply => (w, reply)
      | .ok password =>
        match body.displayName with
        | none =>
          if password = none then (w, .refused 400 "No updates provided")
          else updateProfile env w user none password salt
        | some displayName =>
          if trim displayName = "" then (w, .refused 400 "Display name cannot be empty")
          else updateProfile env w user (some (trim displayName)) password salt

/-! ### Agents and their keys -/

/-- The `[id]` of a path: digits name an agent by its id, another text by its name. -/
inductive AgentRef where
  | id (id : Nat)
  | name (name : String)
  deriving DecidableEq

def AgentRef.names : AgentRef → AgentRow → Bool
  | .id n, a => a.id = n
  | .name text, a => a.name = text

def resolveAgent (w : World) (ref : AgentRef) (workspaceId : Nat) : Option AgentRow :=
  w.agents.find? fun a => ref.names a ∧ a.workspaceId = workspaceId

/-- `INSERT INTO agents`, which several routes make; names are unique. -/
def insertAgent (w : World) (name : String) (workspaceId : Nat) : World :=
  if w.agents.any fun a => a.name = name then w
  else
    { w with
      agents := w.agents ++ [⟨w.nextAgentId, name, workspaceId⟩]
      nextAgentId := w.nextAgentId + 1 }

/-- `DELETE /api/agents/[id]`; the keys of the agent go with it. -/
def removeAgent (w : World) (user : User) (ref : AgentRef) : World × Reply :=
  if user.role ≠ "admin" then (w, .refused 403 "Requires admin role or higher")
  else
    match resolveAgent w ref user.workspaceId with
    | none => (w, .refused 404 "Agent not found")
    | some agent =>
      ({ w with
        agents := w.agents.filter fun a => a.id ≠ agent.id
        keys := w.keys.filter fun k => k.agentId ≠ agent.id }, .done)

def allowedScopes : List String :=
  ["viewer", "operator", "admin", "agent:self", "agent:diagnostics", "agent:attribution",
    "agent:heartbeat", "agent:messages"]

/-- The scopes that a new key gets. -/
def parseKeyScopes (rawScopes : Option (List String)) : List String :=
  match rawScopes with
  | none => ["viewer", "agent:self"]
  | some rawScopes =>
    let scopes := (rawScopes.map trim).filter (· ∈ allowedScopes)
    if scopes = [] then ["viewer", "agent:self"] else scopes.eraseDups

/-- What the body of a request for a key says of its expiry. -/
inductive KeyExpiry where
  | never
  | expiresAt (value : Rat)
  | expiresInDays (days : Rat)
  deriving DecidableEq

def parseExpiry (now : Nat) : KeyExpiry → Except String (Option Nat)
  | .never => .ok none
  | .expiresAt value =>
    if value.den ≠ 1 ∨ value.num ≤ 0 then .error "expires_at must be a future unix timestamp"
    else .ok (some value.num.toNat)
  | .expiresInDays days =>
    if days ≤ 0 ∨ 3650 < days then .error "expires_in_days must be between 1 and 3650"
    else .ok (some (now + (days * 24 * 60 * 60).floor.toNat))

/-- The body of `POST /api/agents/[id]/keys`. -/
structure KeyBody where
  name : Option String
  scopes : Option (List String)
  expiry : KeyExpiry
  deriving DecidableEq

/-- `POST /api/agents/[id]/keys`, with the key that it draws. -/
def postKey (env : Environment) (w : World) (user : User) (ref : AgentRef) (body : KeyBody)
    (rawKey : String) : World × Reply :=
  if user.role ≠ "admin" then (w, .refused 403 "Requires admin role or higher")
  else
    match resolveAgent w ref user.workspaceId with
    | none => (w, .refused 404 "Agent not found")
    | some agent =>
      let name := String.ofList
        (takeUnits 128 (trim (orElse (body.name.getD "") "default")).toList)
      if name = "" then (w, .refused 400 "name is required")
      else
        match parseExpiry w.now body.expiry with
        | .error e => (w, .refused 400 e)
        | .ok expiresAt =>
          let keyHash := env.sha256 rawKey
          if w.keys.any fun k => k.keyHash = keyHash then
            (w, .refused 500 "Failed to create agent API key")
          else
            (World.record
              { w with
                keys := w.keys ++
                  [{ id := w.nextKeyId
                     agentId := agent.id
                     workspaceId := user.workspaceId
                     name := name
                     keyHash := keyHash
                     keyPrefix := String.ofList (rawKey.toList.take 12)
                     scopes := parseKeyScopes body.scopes
                     expiresAt := expiresAt
                     revokedAt := none
                     createdBy := user.username }]
                nextKeyId := w.nextKeyId + 1 }
              (.keyCreated keyHash expiresAt), .done)

/-- `DELETE /api/agents/[id]/keys`. -/
def revokeKey (w : World) (user : User) (ref : AgentRef) (keyId : Nat) : World × Reply :=
  if user.role ≠ "admin" then (w, .refused 403 "Requires admin role or higher")
  else
    match resolveAgent w ref user.workspaceId with
    | none => (w, .refused 404 "Agent not found")
    | some agent =>
      if keyId = 0 then (w, .refused 400 "key_id must be a positive integer")
      else
        match w.keys.find? fun k =>
            k.id = keyId ∧ k.agentId = agent.id ∧ k.workspaceId = user.workspaceId ∧
              k.revokedAt = none with
        | none => (w, .refused 404 "Active key not found for this agent")
        | some key =>
          (World.record
            { w with
              keys := w.keys.map fun k =>
                if k.id = keyId then { k with revokedAt := some w.now } else k }
            (.keyRevoked key.keyHash), .done)

/-! ### Histories -/

inductive Event where
  | wait (seconds : Nat)
  | login (username password token : String)
  | logout (headers : Headers)
  | googleLogin (payload : GoogleIdTokenPayload) (token : String)
  | reviewRequest (admin : Option User) (requestId : Nat) (action : RequestAction) (role : Role)
      (note : Option String) (password salt : String)
  | postUser (currentUser : Option User) (body : CreateUserBody) (salt : String)
  | putUser (currentUser : Option User) (body : UserBody) (salt : String)
  | removeUser (currentUser : Option User) (id : Option String)
  | patchMe (user : Option User) (body : ProfileBody) (salt : String)
  | insertAgent (name : String) (workspaceId : Nat)
  | removeAgent (user : User) (ref : AgentRef)
  | postKey (user : User) (ref : AgentRef) (body : KeyBody) (rawKey : String)
  | revokeKey (user : User) (ref : AgentRef) (keyId : Nat)
  deriving DecidableEq

def handle (env : Environment) (w : World) : Event → World
  | .wait seconds => { w with now := w.now + seconds }
  | .login username password token => (login env w username password token).1
  | .logout headers => (logout w headers).1
  | .googleLogin payload token => (googleLogin env w payload token).1
  | .reviewRequest admin requestId action role note password salt =>
    (reviewRequest env w admin requestId action role note password salt).1
  | .postUser currentUser body salt => (postUser env w currentUser body salt).1
  | .putUser currentUser body salt => (putUser env w currentUser body salt).1
  | .removeUser currentUser id => (removeUser w currentUser id).1
  | .patchMe user body salt => (patchMe env w user body salt).1
  | .insertAgent name workspaceId => insertAgent w name workspaceId
  | .removeAgent user ref => (removeAgent w user ref).1
  | .postKey user ref body rawKey => (postKey env w user ref body rawKey).1
  | .revokeKey user ref keyId => (revokeKey w user ref keyId).1

def machine (env : Environment) : Machine World Event := ⟨fun w e => some (handle env w e)⟩

/-- The admin of `AUTH_USER` and `AUTH_PASS`. -/
structure SeedAdmin where
  username : String
  displayName : String
  passwordHash : String
  deriving DecidableEq

/-- The tables of a new installation: `seedAdminUserFromEnv` adds the first user, unless it has
no password for it. -/
def seeded (now : Nat) (admin : Option SeedAdmin) : World :=
  match admin with
  | none => World.empty now
  | some admin =>
    { World.empty now with
      users :=
        [{ id := 1
           username := admin.username
           displayName := admin.displayName
           passwordHash := admin.passwordHash
           role := "admin"
           provider := .localAccount
           providerUserId := none
           email := none
           avatarUrl := none
           isApproved := 1
           approvedBy := none
           approvedAt := none
           workspaceId := 1
           updatedAt := now
           lastLoginAt := none }]
      nextUserId := 2 }

/-! ### A small installation -/

def plainEnvironment : Environment where
  apiKey := none
  googleClientId := none
  defaultWorkspaceId := 1
  sha256 text := text
  scryptSync _ _ := []
  toLowerCase := sqlLower

def rootAdmin : SeedAdmin := ⟨"root", "Root", "salt:hash"⟩

/-- The first user, signed in. -/
def rootUser : User where
  id := 1
  username := "root"
  displayName := "Root"
  role := "admin"
  workspaceId := 1
  agentName := none
  principalType := .user
  agentId := none
  authScopes := none

def teamPayload : GoogleIdTokenPayload :=
  ⟨some "g-1", some "team@example.com", true, none, none, none⟩

def firstToken : String := "3f0c6d2b9a41e8750c6d2b9a41e8753f0c6d2b9a41e8753f0c6d2b9a41e87511"

def secondToken : String := "84e1c07d5b3a96f284e1c07d5b3a96f284e1c07d5b3a96f284e1c07d5b3a96f2"

/-- The admin makes a user, who logs in with Google. -/
def teamLogin : List Event :=
  [.postUser (some rootUser)
    ⟨"team", "long-enough-pw", none, .operator, .google, some "team@example.com"⟩ "s1",
   .googleLogin teamPayload firstToken]

end MissionControl.Auth.Routes
