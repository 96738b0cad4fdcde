import MissionControl.Auth.Routes
import MissionControl.Foundations.Lists

/-!
What the validators accept, stated over the tables; the constraints of the schema; and what
one event can do to the tables, said once for all the invariants about them.
-/

set_option autoImplicit false
set_option relaxedAutoImplicit false

namespace MissionControl.Auth.AccountSteps

open MissionControl.Foundations.JsText
open MissionControl.Foundations.HeaderText
open MissionControl.Foundations.Lists
open MissionControl.Foundations.Query
open Accounts Routes

variable {env : Environment} {w : World}

/-! ### Validators -/

theorem getUserById_eq_some {id : Nat} {u : UserRow} (h : getUserById w id = some u) :
    u ∈ w.users ∧ u.id = id :=
  ⟨List.mem_of_find?_eq_some h, of_decide_eq_true (List.find?_some h :)⟩

theorem getUserById_isSome {id : Nat} : (∃ u, getUserById w id = some u) ↔ ∃ u ∈ w.users, u.id = id := by
  constructor
  · rintro ⟨u, h⟩
    obtain ⟨hu, hid⟩ := getUserById_eq_some h
    exact ⟨u, hu, hid⟩
  · rintro ⟨u, hu, hid⟩
    apply Option.isSome_iff_exists.mp
    exact List.find?_isSome.mpr ⟨u, hu, decide_eq_true hid⟩

/-- A session that a token opens now. -/
def Opens (w : World) (token : String) (s : UserSession) : Prop :=
  token ≠ "" ∧ s ∈ w.sessions ∧ s.token = token ∧ w.now < s.expiresAt ∧
    ∃ u ∈ w.users, u.id = s.userId

theorem validateSession_sound {token : String} {user : User}
    (h : validateSession env w token = some user) :
    ∃ s, Opens w token s ∧ user.id = s.userId ∧ user.principalType = .user := by
  rw [validateSession] at h
  by_cases htoken : token = ""
  · rw [if_pos htoken] at h
    cases h
  · rw [if_neg htoken] at h
    obtain ⟨s, hs, hfound⟩ := List.exists_of_findSome?_eq_some h
    by_cases hcurrent : s.token = token ∧ w.now < s.expiresAt
    · rw [if_pos hcurrent] at hfound
      obtain ⟨u, hu, rfl⟩ := Option.map_eq_some_iff.mp hfound
      obtain ⟨hmem, hid⟩ := getUserById_eq_some hu
      exact ⟨s, ⟨htoken, hs, hcurrent.1, hcurrent.2, u, hmem, hid⟩, hid, rfl⟩
    · rw [if_neg hcurrent] at hfound
      cases hfound

theorem validateSession_complete {token : String} {s : UserSession} (h : Opens w token s) :
    ∃ user, validateSession env w token = some user := by
  obtain ⟨htoken, hs, hmatch, hcurrent, huser⟩ := h
  obtain ⟨u, hu⟩ := getUserById_isSome.mpr huser
  rw [validateSession, if_neg htoken]
  apply Option.isSome_iff_exists.mp
  rw [List.findSome?_isSome_iff]
  refine ⟨s, hs, ?_⟩
  rw [if_pos ⟨hmatch, hcurrent⟩, hu]
  rfl

/-- A key that a text is now, of an agent in the workspace that the key belongs to. -/
def Unlocks (env : Environment) (w : World) (rawApiKey : String) (k : AgentApiKeyRow)
    (a : AgentRow) : Prop :=
  k ∈ w.keys ∧ k.keyHash = env.sha256 rawApiKey ∧ k.revokedAt = none ∧
    (∀ t, k.expiresAt = some t → w.now < t) ∧
    a ∈ w.agents ∧ a.id = k.agentId ∧ a.workspaceId = k.workspaceId

theorem validateAgentApiKey_sound {rawApiKey : String} {user : User}
    (h : validateAgentApiKey env w rawApiKey = some user) :
    ∃ k a, Unlocks env w rawApiKey k a ∧ user.id = a.id ∧ user.principalType = .agentApiKey := by
  obtain ⟨k, hk, hfound⟩ := List.exists_of_findSome?_eq_some h
  by_cases hlive : k.keyHash = env.sha256 rawApiKey ∧ k.revokedAt = none ∧
      k.expiresAt.all (w.now < ·) = true
  · rw [if_pos hlive] at hfound
    obtain ⟨a, ha, rfl⟩ := Option.map_eq_some_iff.mp hfound
    obtain ⟨hid, hworkspace⟩ := of_decide_eq_true (List.find?_some ha :)
    obtain ⟨hhash, hrevoked, hexpiry⟩ := hlive
    refine ⟨k, a, ⟨hk, hhash, hrevoked, ?_, List.mem_of_find?_eq_some ha, hid, hworkspace⟩,
      hid.symm, rfl⟩
    intro t ht
    rw [ht] at hexpiry
    exact of_decide_eq_true hexpiry
  · rw [if_neg hlive] at hfound
    cases hfound

/-- The three kinds of principal, and what authenticated each. -/
inductive Principal (env : Environment) (w : World) (headers : Headers) (user : User) : Prop where
  | session (token : String) (s : UserSession)
      (cookie : parseCookie (headers.cookie.getD "") "mc-session" = .ok (some token))
      (opens : Opens w token s) (id : user.id = s.userId) (type : user.principalType = .user)
  | agent (apiKey : String) (k : AgentApiKeyRow) (a : AgentRow)
      (unopened : ∀ token s, parseCookie (headers.cookie.getD "") "mc-session" = .ok (some token) →
        ¬ Opens w token s)
      (key : extractApiKeyFromHeaders headers = some apiKey) (unlocks : Unlocks env w apiKey k a)
      (id : user.id = a.id) (type : user.principalType = .agentApiKey)
  | system (apiKey : String)
      (unopened : ∀ token s, parseCookie (headers.cookie.getD "") "mc-session" = .ok (some token) →
        ¬ Opens w token s)
      (key : extractApiKeyFromHeaders headers = some apiKey)
      (configured : apiKey = trim (env.apiKey.getD "")) (id : user.id = 0)
      (type : user.principalType = .systemApiKey)

theorem apiKeyUser_cases {agentName : Option String} {apiKey : String} {user : User}
    (h : apiKeyUser env w agentName apiKey = some user) :
    validateAgentApiKey env w apiKey = some user ∨
      (apiKey = trim (env.apiKey.getD "") ∧ user = systemUser env agentName) := by
  rw [apiKeyUser] at h
  cases hagent : validateAgentApiKey env w apiKey with
  | some agentPrincipal =>
    rw [hagent] at h
    exact .inl h
  | none =>
    rw [hagent] at h
    dsimp only at h
    by_cases hconfigured : trim (env.apiKey.getD "") ≠ "" ∧ apiKey = trim (env.apiKey.getD "")
    · rw [if_pos hconfigured] at h
      exact .inr ⟨hconfigured.2, (Option.some.inj h).symm⟩
    · rw [if_neg hconfigured] at h
      cases h

theorem getUserFromRequest_principal {headers : Headers} {user : User}
    (h : getUserFromRequest env w headers = .ok (some user)) : Principal env w headers user := by
  rw [getUserFromRequest] at h
  cases hcookie : parseCookie (headers.cookie.getD "") "mc-session" with
  | error e =>
    rw [hcookie] at h
    cases h
  | ok sessionToken =>
    rw [hcookie] at h
    dsimp only at h
    cases hsession : validateSession env w (sessionToken.getD "") with
    | some sessionUser =>
      rw [hsession] at h
      obtain rfl := Option.some.inj (Except.ok.inj h)
      obtain ⟨s, hopens, hid, htype⟩ := validateSession_sound hsession
      cases sessionToken with
      | none => exact absurd rfl hopens.1
      | some token => exact .session token s hcookie hopens hid htype
    | none =>
      rw [hsession] at h
      have hunopened : ∀ token s,
          parseCookie (headers.cookie.getD "") "mc-session" = .ok (some token) →
            ¬ Opens w token s := by
        intro token s htoken hopens
        rw [hcookie] at htoken
        obtain rfl := Except.ok.inj htoken
        obtain ⟨user, huser⟩ : ∃ user, validateSession env w token = some user :=
          validateSession_complete hopens
        rw [Option.getD_some, huser] at hsession
        cases hsession
      obtain ⟨apiKey, hkey, huser⟩ := Option.bind_eq_some_iff.mp (Except.ok.inj h)
      rcases apiKeyUser_cases huser with hagent | ⟨hconfigured, rfl⟩
      · obtain ⟨k, a, hunlocks, hid, htype⟩ := validateAgentApiKey_sound hagent
        exact .agent apiKey k a (hcookie ▸ hunopened) hkey hunlocks hid htype
      · exact .system apiKey (hcookie ▸ hunopened) hkey hconfigured rfl rfl

theorem authenticateUser_eq_some {username password : String} {u : UserRow}
    (h : authenticateUser env w username password = some u) :
    u ∈ w.users ∧ u.isApproved = 1 := by
  rw [authenticateUser] at h
  cases hfound : w.users.find? fun u => u.username = username with
  | none =>
    rw [hfound] at h
    cases h
  | some row =>
    rw [hfound] at h
    dsimp only at h
    by_cases hlocal : row.provider ≠ .localAccount
    · rw [if_pos hlocal] at h
      cases h
    · rw [if_neg hlocal] at h
      by_cases happroved : row.isApproved ≠ 1
      · rw [if_pos happroved] at h
        cases h
      · rw [if_neg happroved] at h
        by_cases hpassword : verifyPassword env password row.passwordHash = false
        · rw [if_pos hpassword] at h
          cases h
        · rw [if_neg hpassword] at h
          obtain rfl := Option.some.inj h
          exact ⟨List.mem_of_find?_eq_some hfound, not_not.mp happroved⟩

/-! ### Steps -/

/-- A login with Google that picks a row and finds it approved. -/
def Identifies (env : Environment) (w : World) (payload : GoogleIdTokenPayload)
    (sub email : String) (row : UserRow) : Prop :=
  ∃ profile, verifyGoogleIdToken env payload = .ok profile ∧ sub = trim profile.sub ∧
    email = trim (env.toLowerCase profile.email) ∧ accountRow w sub email = some row ∧
      row.isApproved = 1

/-- An admin approves a request for which an existing row is picked. -/
def Approves (env : Environment) (w : World) (admin : Option User) (requestId : Nat)
    (request : AccessRequest) (row : UserRow) : Prop :=
  (∃ user, admin = some user ∧ user.role = "admin") ∧
    (w.requests.find? fun r => r.id = requestId) = some request ∧
      accountRow w ((truthy request.providerUserId).getD "") (env.toLowerCase request.email) =
        some row

/-- An update of a user by an admin that passes every check of the route. -/
structure Admitted (w : World) (currentUser : Option User) (body : UserBody)
    (existing : UserRow) : Prop where
  admin : ∃ user userId, currentUser = some user ∧ user.role = "admin" ∧
    body.id.bind parseInt = some userId ∧
      (∀ r, truthy body.role = some r → r ∈ ["admin", "operator", "viewer"]) ∧
        ¬ (userId = user.id ∧ truthy body.role ≠ none ∧ truthy body.role ≠ some user.role) ∧
          workspaceUser w user (some userId) = some existing

/-- Everything that one event can do. -/
inductive Moved (env : Environment) (w : World) : Event → World → Prop where
  | kept (e : Event) : Moved env w e w
  | waited (seconds : Nat) : Moved env w (.wait seconds) { w with now := w.now + seconds }
  | requests (e : Event) (rs : List AccessRequest) (next : Nat) :
      Moved env w e { w with requests := rs, nextRequestId := next }
  | loggedIn (username password token : String) (u : UserRow) (workspaceId : Nat) (w' : World)
      (user : u ∈ w.users) (approved : u.isApproved = 1)
      (created : createSession w u.id workspaceId token = .ok w') :
      Moved env w (.login username password token) w'
  | loggedOut (headers : Headers) (token : String) :
      Moved env w (.logout headers) (destroySession w token)
  | adopted (payload : GoogleIdTokenPayload) (token sub email : String) (avatar : Option String)
      (row : UserRow) (picked : Identifies env w payload sub email row) :
      Moved env w (.googleLogin payload token)
        (w.modifyUser row.id (adoptIdentity sub email avatar w.now))
  | identified (payload : GoogleIdTokenPayload) (token sub email : String)
      (avatar : Option String) (row : UserRow) (w' : World)
      (picked : Identifies env w payload sub email row)
      (created : createSession (w.modifyUser row.id (adoptIdentity sub email avatar w.now))
        row.id row.workspaceId token = .ok w') :
      Moved env w (.googleLogin payload token) (w'.record (.googleLogin sub row.id
        ((w.users.filter fun u => Carries sub u ∧ u.isApproved = 1).map (·.id))))
  | approved (admin : Option User) (requestId : Nat) (action : RequestAction) (role : Role)
      (note : Option String) (password salt : String) (request : AccessRequest) (row : UserRow)
      (avatarUrl : Option String) (approver : String) (rs : List AccessRequest)
      (accepted : action = .approve) (picked : Approves env w admin requestId request row) :
      Moved env w (.reviewRequest admin requestId action role note password salt)
        { w.modifyUser row.id (approveRow (truthy request.providerUserId)
            (env.toLowerCase request.email) avatarUrl role approver w.now) with requests := rs }
  | inserted (e : Event) (row : UserRow) (rs : List AccessRequest) (id : row.id = w.nextUserId)
      (approved : row.isApproved = 1)
      (identity : ∀ sub, Carries sub row → ∀ u ∈ w.users, ¬ Carries sub u) :
      Moved env w e
        { w with users := w.users ++ [row], nextUserId := w.nextUserId + 1, requests := rs }
  | updated (currentUser : Option User) (body : UserBody) (salt : String) (existing : UserRow)
      (admitted : Admitted w currentUser body existing) :
      Moved env w (.putUser currentUser body salt)
        (updateUser env w existing.id body.updates salt)
  | profile (user : Option User) (body : ProfileBody) (salt : String) (id : Nat)
      (updates : UserUpdates) (approval : updates.isApproved = none) :
      Moved env w (.patchMe user body salt) (updateUser env w id updates salt)
  | deleted (currentUser : Option User) (id : Option String) (u : UserRow) (user : u ∈ w.users) :
      Moved env w (.removeUser currentUser id) (deleteUser w u.id)
  | agentInserted (name : String) (workspaceId : Nat) :
      Moved env w (.insertAgent name workspaceId)
        { w with
          agents := w.agents ++ [⟨w.nextAgentId, name, workspaceId⟩]
          nextAgentId := w.nextAgentId + 1 }
  | agentRemoved (user : User) (ref : AgentRef) (agent : AgentRow) :
      Moved env w (.removeAgent user ref)
        { w with
          agents := w.agents.filter fun a => a.id ≠ agent.id
          keys := w.keys.filter fun k => k.agentId ≠ agent.id }
  | posted (user : User) (ref : AgentRef) (body : KeyBody) (rawKey : String)
      (k : AgentApiKeyRow) (id : k.id = w.nextKeyId) (hash : k.keyHash = env.sha256 rawKey)
      (unused : ∀ k' ∈ w.keys, k'.keyHash ≠ k.keyHash) :
      Moved env w (.postKey user ref body rawKey)
        (World.record { w with keys := w.keys ++ [k], nextKeyId := w.nextKeyId + 1 }
          (.keyCreated k.keyHash k.expiresAt))
  | revoked (user : User) (ref : AgentRef) (keyId : Nat) (key : AgentApiKeyRow)
      (found : key ∈ w.keys) (id : key.id = keyId) :
      Moved env w (.revokeKey user ref keyId)
        (World.record
          { w with
            keys := w.keys.map fun k =>
              if k.id = keyId then { k with revokedAt := some w.now } else k }
          (.keyRevoked key.keyHash))

theorem firstUser_eq_some {matching : UserRow → Bool} {u : UserRow}
    (h : firstUser w matching = some u) : u ∈ w.users ∧ matching u = true :=
  List.mem_filter.mp (pickFirst_mem h)

theorem firstUser_eq_none {matching : UserRow → Bool} (h : firstUser w matching = none) :
    ∀ u ∈ w.users, matching u = false := by
  intro u hu
  by_contra hmatch
  have hmem : u ∈ w.users.filter matching :=
    List.mem_filter.mpr ⟨hu, by rwa [Bool.not_eq_false] at hmatch⟩
  rw [pickFirst_eq_none.mp h] at hmem
  cases hmem

theorem moved_login (username password token : String) :
    Moved env w (.login username password token) (login env w username password token).1 := by
  rw [login]
  by_cases hempty : username = "" ∨ password = ""
  · rw [if_pos hempty]
    exact .kept _
  · rw [if_neg hempty]
    cases hauth : authenticateUser env w username password with
    | none => exact .kept _
    | some u =>
      obtain ⟨hu, happroved⟩ := authenticateUser_eq_some hauth
      dsimp only
      cases hcreated : createSession w u.id (workspaceOr env u.workspaceId) token with
      | error => exact .kept _
      | ok w' => exact .loggedIn username password token u _ w' hu happroved hcreated

theorem moved_logout (headers : Headers) :
    Moved env w (.logout headers) (logout w headers).1 := by
  rw [logout]
  cases parseCookie (headers.cookie.getD "") "mc-session" with
  | error => exact .kept _
  | ok token =>
    dsimp only
    cases truthy token with
    | none => exact .kept _
    | some token => exact .loggedOut headers token

private theorem moved_upsert (e : Event) (email providerUserId displayName : String)
    (avatarUrl : Option String) :
    Moved env w e (upsertAccessRequest env w email providerUserId displayName avatarUrl) := by
  rw [upsertAccessRequest]
  split
  · exact .requests e _ w.nextRequestId
  · exact .requests e _ (w.nextRequestId + 1)

theorem moved_googleLogin (payload : GoogleIdTokenPayload) (token : String) :
    Moved env w (.googleLogin payload token) (googleLogin env w payload token).1 := by
  rw [googleLogin]
  cases hverified : verifyGoogleIdToken env payload with
  | error => exact .kept _
  | ok profile =>
    simp only [loginWithProfile]
    cases hpicked : accountRow w (trim profile.sub) (trim (env.toLowerCase profile.email)) with
    | none => exact moved_upsert ..
    | some row =>
      dsimp only
      by_cases happroved : row.isApproved ≠ 1
      · rw [if_pos happroved]
        exact moved_upsert ..
      · rw [if_neg happroved]
        have hidentifies : Identifies env w payload (trim profile.sub)
            (trim (env.toLowerCase profile.email)) row :=
          ⟨profile, hverified, rfl, rfl, hpicked, not_not.mp happroved⟩
        cases hcreated : createSession (w.modifyUser row.id (adoptIdentity (trim profile.sub)
            (trim (env.toLowerCase profile.email)) (truthy profile.picture) w.now))
              row.id row.workspaceId token with
        | error => exact .adopted payload token _ _ _ row hidentifies
        | ok w' => exact .identified payload token _ _ _ row w' hidentifies hcreated

theorem createUser_eq_ok {username password displayName salt : String} {role : Role}
    {options : CreateUserOptions} {w' : World} {id : Nat}
    (h : createUser env w username password displayName role options salt = .ok (w', id)) :
    ∃ row : UserRow, row.id = w.nextUserId ∧ row.isApproved = 1 ∧
      row.provider = options.provider ∧ row.providerUserId = truthy options.providerUserId ∧
        w' = { w with users := w.users ++ [row], nextUserId := w.nextUserId + 1 } := by
  rw [createUser] at h
  split at h
  · cases h
  · split at h
    · cases h
    · obtain ⟨rfl, rfl⟩ := Prod.mk.inj (Except.ok.inj h)
      exact ⟨_, rfl, rfl, rfl, rfl, rfl⟩

private theorem not_carries_of_unpicked {sub email : String} (h : accountRow w sub email = none) :
    ∀ u ∈ w.users, ¬ Carries sub u := by
  intro u hu hcarries
  have hunmatched := of_decide_eq_false (firstUser_eq_none h u hu)
  exact hunmatched (.inl hcarries)

theorem truthy_truthy (text : Option String) : truthy (truthy text) = truthy text := by
  rw [truthy, truthy, Option.filter_filter]
  simp only [Bool.and_self]

theorem moved_reviewRequest (admin : Option User) (requestId : Nat) (action : RequestAction)
    (role : Role) (note : Option String) (password salt : String) :
    Moved env w (.reviewRequest admin requestId action role note password salt)
      (reviewRequest env w admin requestId action role note password salt).1 := by
  rw [reviewRequest]
  cases hadmin : admin.filter fun u => u.role = "admin" with
  | none => exact .kept _
  | some user =>
    dsimp only
    cases hrequest : w.requests.find? fun r => r.id = requestId with
    | none => exact .kept _
    | some request =>
      dsimp only
      cases action with
      | reject => exact .requests _ _ w.nextRequestId
      | approve =>
        dsimp only
        rw [approveRequest]
        dsimp only
        cases hpicked : accountRow w ((truthy request.providerUserId).getD "")
            (env.toLowerCase request.email) with
        | some existing =>
          obtain ⟨husers, hrole⟩ := Option.filter_eq_some_iff.mp hadmin
          exact .approved admin requestId .approve role note password salt request existing
            (truthy request.avatarUrl) user.username _ rfl
            ⟨⟨user, husers, of_decide_eq_true hrole⟩, hrequest, hpicked⟩
        | none =>
          dsimp only
          cases hcreated : createUser env w
              (ensureUniqueUsername w (makeUsernameFromEmail (env.toLowerCase request.email)))
              password
              (orElse (request.displayName.getD "")
                (orElse (beforeAt (env.toLowerCase request.email)) "Google User")) role
              ⟨.google, truthy request.providerUserId, some (env.toLowerCase request.email),
                truthy request.avatarUrl, some user.username, some w.now, none⟩ salt with
          | error => exact .kept _
          | ok created =>
            obtain ⟨row, hid, happroved, -, hsub, hw⟩ := createUser_eq_ok hcreated
            have hidentity : ∀ sub, Carries sub row → ∀ u ∈ w.users, ¬ Carries sub u := by
              intro sub hcarries
              have hsub : truthy request.providerUserId = some sub := by
                rw [← truthy_truthy, ← hcarries.2, hsub]
              rw [hsub] at hpicked
              exact not_carries_of_unpicked hpicked
            simp only [Except.map, caught, hw]
            exact .inserted _ row _ hid happroved hidentity

theorem moved_postUser (currentUser : Option User) (body : CreateUserBody) (salt : String) :
    Moved env w (.postUser currentUser body salt) (postUser env w currentUser body salt).1 := by
  rw [postUser]
  cases currentUser.filter fun u => u.role = "admin" with
  | none => exact .kept _
  | some user =>
    dsimp only
    split
    · exact .kept _
    · split
      · exact .kept _
      · cases hcreated : createUser env w body.username body.password
            (orElse (body.displayName.getD "") body.username) body.role
            ⟨body.provider, none, truthy body.email, none, none, none, some user.workspaceId⟩
            salt with
        | error => exact .kept _
        | ok created =>
          obtain ⟨row, hid, happroved, -, hsub, hw⟩ := createUser_eq_ok hcreated
          have hidentity : ∀ sub, Carries sub row → ∀ u ∈ w.users, ¬ Carries sub u := by
            intro sub hcarries
            have hnone : row.providerUserId = some sub := hcarries.2
            rw [hsub] at hnone
            cases hnone
          simp only [Except.map, caught, hw]
          exact .inserted _ row w.requests hid happroved hidentity

theorem workspaceUser_mem {user : User} {userId : Option Int} {u : UserRow}
    (h : workspaceUser w user userId = some u) : u ∈ w.users ∧ userId = some (u.id : Int) := by
  obtain ⟨hfound, -⟩ := Option.filter_eq_some_iff.mp h
  obtain ⟨n, hn, hu⟩ := Option.bind_eq_some_iff.mp hfound
  obtain ⟨i, rfl, hi⟩ := Option.bind_eq_some_iff.mp hn
  obtain ⟨hmem, hid⟩ := getUserById_eq_some hu
  refine ⟨hmem, ?_⟩
  rw [hid, Int.mem_toNat?.mp hi]

/-- The two ways in which an update by an admin ends. -/
theorem putUser_cases (currentUser : Option User) (body : UserBody) (salt : String) :
    (putUser env w currentUser body salt).1 = w ∨
      ∃ existing, Admitted w currentUser body existing ∧
        (putUser env w currentUser body salt).1 =
          updateUser env w existing.id body.updates salt := by
  rw [putUser]
  cases hadmin : currentUser.filter fun u => u.role = "admin" with
  | none => exact .inl rfl
  | some user =>
    obtain ⟨huser, hrole⟩ := Option.filter_eq_some_iff.mp hadmin
    dsimp only
    cases hid : body.id.bind parseInt with
    | none => exact .inl rfl
    | some userId =>
      dsimp only
      split
      · exact .inl rfl
      · rename_i hvalid
        split
        · exact .inl rfl
        · rename_i hself
          cases hexisting : workspaceUser w user (some userId) with
          | none => exact .inl rfl
          | some existing =>
            refine .inr ⟨existing, ⟨user, userId, huser, of_decide_eq_true hrole, hid, ?_,
              hself, hexisting⟩, rfl⟩
            intro r hr
            rw [hr] at hvalid
            exact of_decide_eq_true (not_not.mp hvalid)

theorem moved_putUser (currentUser : Option User) (body : UserBody) (salt : String) :
    Moved env w (.putUser currentUser body salt) (putUser env w currentUser body salt).1 := by
  rcases @putUser_cases env w currentUser body salt with h | ⟨existing, hadmitted, h⟩
  · rw [h]
    exact .kept _
  · rw [h]
    exact .updated currentUser body salt existing hadmitted

theorem moved_removeUser (currentUser : Option User) (id : Option String) :
    Moved env w (.removeUser currentUser id) (removeUser w currentUser id).1 := by
  rw [removeUser]
  cases currentUser.filter fun u => u.role = "admin" with
  | none => exact .kept _
  | some user =>
    cases id with
    | none => exact .kept _
    | some text =>
      dsimp only
      split
      · exact .kept _
      · cases hexisting : workspaceUser w user (parseInt text) with
        | none => exact .kept _
        | some existing => exact .deleted currentUser _ existing (workspaceUser_mem hexisting).1

theorem updateProfile_fst (user : User) (displayName password : Option String) (salt : String) :
    (updateProfile env w user displayName password salt).1 =
      updateUser env w user.id (profileUpdates displayName password) salt := by
  rw [updateProfile]
  split <;> rfl

theorem moved_patchMe (user : Option User) (body : ProfileBody) (salt : String) :
    Moved env w (.patchMe user body salt) (patchMe env w user body salt).1 := by
  cases user with
  | none => exact .kept _
  | some user =>
    rw [patchMe]
    split
    · exact .kept _
    · cases passwordChange env w user body with
      | error reply => exact .kept _
      | ok password =>
        cases body.displayName with
        | none =>
          dsimp only
          split
          · exact .kept _
          · rw [updateProfile_fst]
            exact .profile _ body salt user.id _ rfl
        | some displayName =>
          dsimp only
          split
          · exact .kept _
          · rw [updateProfile_fst]
            exact .profile _ body salt user.id _ rfl

theorem moved_insertAgent (name : String) (workspaceId : Nat) :
    Moved env w (.insertAgent name workspaceId) (insertAgent w name workspaceId) := by
  rw [insertAgent]
  split
  · exact .kept _
  · exact .agentInserted name workspaceId

theorem moved_removeAgent (user : User) (ref : AgentRef) :
    Moved env w (.removeAgent user ref) (removeAgent w user ref).1 := by
  rw [removeAgent]
  split
  · exact .kept _
  · cases resolveAgent w ref user.workspaceId with
    | none => exact .kept _
    | some agent => exact .agentRemoved user ref agent

theorem moved_postKey (user : User) (ref : AgentRef) (body : KeyBody) (rawKey : String) :
    Moved env w (.postKey user ref body rawKey) (postKey env w user ref body rawKey).1 := by
  rw [postKey]
  split
  · exact .kept _
  · cases resolveAgent w ref user.workspaceId with
    | none => exact .kept _
    | some agent =>
      dsimp only
      split
      · exact .kept _
      · cases parseExpiry w.now body.expiry with
        | error => exact .kept _
        | ok expiresAt =>
          dsimp only
          split
          · exact .kept _
          · rename_i hunused
            refine .posted user ref body rawKey _ rfl rfl ?_
            intro k hk hhash
            exact hunused (List.any_eq_true.mpr ⟨k, hk, decide_eq_true hhash⟩)

theorem moved_revokeKey (user : User) (ref : AgentRef) (keyId : Nat) :
    Moved env w (.revokeKey user ref keyId) (revokeKey w user ref keyId).1 := by
  rw [revokeKey]
  split
  · exact .kept _
  · cases resolveAgent w ref user.workspaceId with
    | none => exact .kept _
    | some agent =>
      dsimp only
      split
      · exact .kept _
      · split
        · exact .kept _
        · rename_i key hkey
          have hid := (of_decide_eq_true (List.find?_some hkey :)).1
          exact .revoked user ref keyId key (List.mem_of_find?_eq_some hkey) hid

/-- The inversion of a step. -/
theorem moved_of_step {e : Event} {w' : World} (h : (machine env).step w e = some w') :
    Moved env w e w' := by
  obtain rfl := Option.some.inj h
  cases e with
  | wait seconds => exact .waited seconds
  | login => exact moved_login ..
  | logout => exact moved_logout ..
  | googleLogin => exact moved_googleLogin ..
  | reviewRequest => exact moved_reviewRequest ..
  | postUser => exact moved_postUser ..
  | putUser => exact moved_putUser ..
  | removeUser => exact moved_removeUser ..
  | patchMe => exact moved_patchMe ..
  | insertAgent => exact moved_insertAgent ..
  | removeAgent => exact moved_removeAgent ..
  | postKey => exact moved_postKey ..
  | revokeKey => exact moved_revokeKey ..

/-! ### Constraints -/

/-- What the schema enforces: keys that are issued once, and texts that occur once. -/
structure Constraints (w : World) : Prop where
  users : Keyed (·.id) w.users w.nextUserId
  agents : ∀ a ∈ w.agents, 0 < a.id
  nextAgent : 0 < w.nextAgentId
  tokens : (w.sessions.map (·.token)).Nodup
  hashes : (w.keys.map (·.keyHash)).Nodup

namespace Constraints

theorem seeded (now : Nat) (admin : Option SeedAdmin) : Constraints (seeded now admin) := by
  cases admin with
  | none =>
    exact ⟨⟨List.nodup_nil, fun _ h => absurd h List.not_mem_nil⟩,
      fun _ h => absurd h List.not_mem_nil, Nat.one_pos, List.nodup_nil, List.nodup_nil⟩
  | some admin =>
    refine ⟨⟨List.nodup_singleton _, ?_⟩, fun _ h => absurd h List.not_mem_nil, Nat.one_pos,
      List.nodup_nil, List.nodup_nil⟩
    intro u hu
    rw [List.mem_singleton.mp hu]
    exact Nat.one_lt_two

/-- An update of a user that leaves its id. -/
theorem modifyUser (h : Constraints w) (id : Nat) {f : UserRow → UserRow}
    (hf : ∀ u, (f u).id = u.id) : Constraints (w.modifyUser id f) := by
  refine ⟨h.users.map ?_, h.agents, h.nextAgent, h.tokens, h.hashes⟩
  intro u
  by_cases hid : u.id = id
  · rw [if_pos hid]
    exact hf u
  · rw [if_neg hid]

theorem updateUser (h : Constraints w) (id : Nat) (updates : UserUpdates) (salt : String) :
    Constraints (updateUser env w id updates salt) := by
  rw [Accounts.updateUser]
  split
  · exact h
  · exact h.modifyUser id fun _ => rfl

end Constraints

/-- What a session that is created changes. -/
theorem createSession_eq_ok {userId workspaceId : Nat} {token : String} {w' : World}
    (h : createSession w userId workspaceId token = .ok w') :
    (∀ s ∈ w.sessions, s.token ≠ token) ∧
      w' = World.record
        { w.modifyUser userId (noteLogin w.now) with
          sessions := (w.sessions ++
            [UserSession.mk token userId workspaceId (w.now + sessionDuration)]).filter
              fun s => w.now ≤ s.expiresAt }
        (.sessionCreated token userId (w.now + sessionDuration)) := by
  rw [createSession] at h
  split at h
  · cases h
  · rename_i hunused
    refine ⟨?_, (Except.ok.inj h).symm⟩
    intro s hs htoken
    exact hunused (List.any_eq_true.mpr ⟨s, hs, decide_eq_true htoken⟩)

namespace Constraints

theorem createSession (h : Constraints w) {userId workspaceId : Nat} {token : String} {w' : World}
    (hcreated : createSession w userId workspaceId token = .ok w') : Constraints w' := by
  obtain ⟨hunused, rfl⟩ := createSession_eq_ok hcreated
  have hmodified := h.modifyUser userId (f := noteLogin w.now) fun _ => rfl
  refine ⟨hmodified.users, hmodified.agents, hmodified.nextAgent, ?_, hmodified.hashes⟩
  have hnodup : ((w.sessions ++
      [UserSession.mk token userId workspaceId (w.now + sessionDuration)]).map
        UserSession.token).Nodup := by
    rw [List.map_append, List.nodup_append]
    refine ⟨h.tokens, List.nodup_singleton _, ?_⟩
    intro t ht t' ht'
    obtain ⟨s, hs, rfl⟩ := List.mem_map.mp ht
    rw [List.mem_singleton.mp ht']
    exact hunused s hs
  exact hnodup.sublist (List.filter_sublist.map _)

theorem moved (h : Constraints w) {e : Event} {w' : World} (hmoved : Moved env w e w') :
    Constraints w' := by
  cases hmoved with
  | kept | waited | requests => exact ⟨h.users, h.agents, h.nextAgent, h.tokens, h.hashes⟩
  | loggedIn _ _ _ _ _ _ _ _ created => exact h.createSession created
  | loggedOut headers token =>
    rw [destroySession]
    split
    · exact ⟨h.users, h.agents, h.nextAgent, h.tokens.sublist (List.filter_sublist.map _), h.hashes⟩
    · exact h
  | adopted => exact h.modifyUser _ fun _ => rfl
  | identified _ _ sub email avatar row _ _ created =>
    have hadopted := h.modifyUser row.id (f := adoptIdentity sub email avatar w.now) fun _ => rfl
    have hopened := hadopted.createSession created
    exact ⟨hopened.users, hopened.agents, hopened.nextAgent, hopened.tokens, hopened.hashes⟩
  | approved _ _ _ role _ _ _ request row avatarUrl approver =>
    have hmodified := h.modifyUser row.id (f := approveRow (truthy request.providerUserId)
      (env.toLowerCase request.email) avatarUrl role approver w.now) fun _ => rfl
    exact ⟨hmodified.users, hmodified.agents, hmodified.nextAgent, hmodified.tokens,
      hmodified.hashes⟩
  | inserted _ row rs id => exact ⟨h.users.snoc id, h.agents, h.nextAgent, h.tokens, h.hashes⟩
  | updated => exact h.updateUser ..
  | profile => exact h.updateUser ..
  | deleted _ _ u =>
    exact ⟨h.users.filter _, h.agents, h.nextAgent, h.tokens.sublist (List.filter_sublist.map _),
      h.hashes⟩
  | agentInserted name workspaceId =>
    refine ⟨h.users, ?_, Nat.succ_pos _, h.tokens, h.hashes⟩
    intro a ha
    rcases List.mem_append.mp ha with ha | ha
    · exact h.agents a ha
    · rw [List.mem_singleton.mp ha]
      exact h.nextAgent
  | agentRemoved =>
    exact ⟨h.users, fun a ha => h.agents a (List.mem_of_mem_filter ha), h.nextAgent, h.tokens,
      h.hashes.sublist (List.filter_sublist.map _)⟩
  | posted _ _ _ _ k _ _ unused =>
    refine ⟨h.users, h.agents, h.nextAgent, h.tokens, ?_⟩
    rw [World.record, List.map_append, List.nodup_append]
    refine ⟨h.hashes, List.nodup_singleton _, ?_⟩
    intro hash hhash hash' hhash'
    obtain ⟨k', hk', rfl⟩ := List.mem_map.mp hhash
    rw [List.mem_singleton.mp hhash']
    exact unused k' hk'
  | revoked _ _ keyId =>
    refine ⟨h.users, h.agents, h.nextAgent, h.tokens, ?_⟩
    have hsame : (w.keys.map fun k =>
        if k.id = keyId then { k with revokedAt := some w.now } else k).map (·.keyHash) =
          w.keys.map (·.keyHash) := by
      rw [List.map_map]
      apply List.map_congr_left
      intro k _
      rw [Function.comp_apply]
      split <;> rfl
    rw [World.record, hsame]
    exact h.hashes

end Constraints

end MissionControl.Auth.AccountSteps
