import MissionControl.Auth.AccountSteps

/-!
Whom a route takes a request for. The three kinds of principal share one shape, and the routes
of the profile and of the users compare its `id` with the ids of the users, whatever its kind.
-/

set_option autoImplicit false
set_option relaxedAutoImplicit false

namespace MissionControl.Auth.Principals

open MissionControl.Foundations.JsText
open MissionControl.Foundations.HeaderText
open Accounts Routes AccountSteps

variable {env : Environment} {w : World} {headers : Headers} {user : User}

/-- The session cookie of the request opens a session of the user with the id. -/
def OwnSession (w : World) (headers : Headers) (userId : Int) : Prop :=
  ∃ token s, parseCookie (headers.cookie.getD "") "mc-session" = .ok (some token) ∧
    Opens w token s ∧ (s.userId : Int) = userId

theorem ownSession_iff (hw : Constraints w)
    (h : getUserFromRequest env w headers = .ok (some user)) (userId : Int) :
    OwnSession w headers userId ↔ user.principalType = .user ∧ userId = user.id := by
  cases getUserFromRequest_principal h with
  | session token s cookie opens id type =>
    constructor
    · rintro ⟨token', s', hcookie, hopens, hid⟩
      rw [cookie] at hcookie
      obtain rfl := Option.some.inj (Except.ok.inj hcookie)
      have hsame : s' = s :=
        List.inj_on_of_nodup_map hw.tokens hopens.2.1 opens.2.1
          (hopens.2.2.1.trans opens.2.2.1.symm)
      refine ⟨type, ?_⟩
      rw [← hid, id, hsame]
    · rintro ⟨-, hid⟩
      exact ⟨token, s, cookie, opens, by rw [hid, id]⟩
  | agent apiKey k a unopened key unlocks id type =>
    constructor
    · rintro ⟨token, s, hcookie, hopens, -⟩
      exact absurd hopens (unopened token s hcookie)
    · rintro ⟨htype, -⟩
      rw [type] at htype
      cases htype
  | system apiKey unopened key configured id type =>
    constructor
    · rintro ⟨token, s, hcookie, hopens, -⟩
      exact absurd hopens (unopened token s hcookie)
    · rintro ⟨htype, -⟩
      rw [type] at htype
      cases htype

/-! ### The profile -/

/-- No self-service update that the user can ask for changes a row of `users`. -/
def LeavesUsers (env : Environment) (w : World) (user : User) : Prop :=
  ∀ body salt, (patchMe env w (some user) body salt).1.users = w.users

theorem updateUser_users_of_absent {id : Nat} (habsent : ∀ u ∈ w.users, u.id ≠ id)
    (updates : UserUpdates) (salt : String) : (updateUser env w id updates salt).users = w.users := by
  rw [updateUser]
  split
  · rfl
  · calc
      (w.modifyUser id (updates.apply env salt w.now)).users = w.users.map fun u => u := by
        apply List.map_congr_left
        intro u hu
        rw [if_neg (habsent u hu)]
      _ = w.users := List.map_id' w.users

theorem leavesUsers_of_absent (habsent : ∀ u ∈ w.users, u.id ≠ user.id) :
    LeavesUsers env w user := by
  intro body salt
  rw [patchMe]
  split
  · rfl
  · split
    · rfl
    · split
      · split
        · rfl
        · rw [updateProfile_fst, updateUser_users_of_absent habsent]
      · split
        · rfl
        · rw [updateProfile_fst, updateUser_users_of_absent habsent]

/-- A display name that the row does not have. -/
def otherName (u : UserRow) : String := if u.displayName = "a" then "b" else "a"

theorem otherName_ne (u : UserRow) : otherName u ≠ u.displayName := by
  rw [otherName]
  by_cases h : u.displayName = "a"
  · rw [if_pos h, h]
    decide
  · rw [if_neg h]
    exact Ne.symm h

theorem trim_otherName (u : UserRow) : trim (otherName u) = otherName u := by
  rw [otherName]
  by_cases h : u.displayName = "a"
  · rw [if_pos h]
    decide +kernel
  · rw [if_neg h]
    decide +kernel

theorem not_leavesUsers {u : UserRow} (hid : user.id ≠ 0) (hu : u ∈ w.users)
    (hsame : u.id = user.id) : ¬ LeavesUsers env w user := by
  intro hleaves
  have hname : otherName u ≠ "" := by
    rw [otherName]
    split <;> decide
  have hupdates : profileUpdates (some (otherName u)) none ≠ UserUpdates.none := by
    intro h
    cases congrArg UserUpdates.displayName h
  have hpatched := hleaves ⟨none, none, some (otherName u)⟩ ""
  rw [patchMe, if_neg hid, passwordChange] at hpatched
  have hnone : truthy (none : Option String) = none := rfl
  rw [hnone] at hpatched
  dsimp only at hpatched
  rw [trim_otherName, if_neg hname, updateProfile_fst, updateUser, if_neg hupdates] at hpatched
  have hfixed := List.map_inj_left.mp (hpatched.trans (List.map_id' w.users).symm) u hu
  rw [if_pos hsame] at hfixed
  exact otherName_ne u (congrArg UserRow.displayName hfixed)

/-! ### Self-checks -/

/-- The answer of the check that keeps admins from deleting themselves. -/
def ownAccount : Reply := .refused 400 "Cannot delete your own account"

/-- The answer of the check that keeps admins from changing their own role. -/
def ownRole : Reply := .refused 400 "Cannot change your own role"

theorem removeUser_eq_ownAccount (hadmin : user.role = "admin") (id : String) :
    (removeUser w (some user) (some id)).2 = ownAccount ↔ parseInt id = some (user.id : Int) := by
  have hfilter : (some user).filter (fun u => u.role = "admin") = some user :=
    Option.filter_eq_some_iff.mpr ⟨rfl, decide_eq_true hadmin⟩
  rw [removeUser, hfilter]
  dsimp only
  by_cases hself : parseInt id = some (user.id : Int)
  · rw [if_pos hself]
    exact ⟨fun _ => hself, fun _ => rfl⟩
  · rw [if_neg hself]
    refine ⟨?_, fun h => absurd h hself⟩
    intro h
    cases hrow : workspaceUser w user (parseInt id) with
    | none =>
      rw [hrow] at h
      cases h
    | some existing =>
      rw [hrow] at h
      cases h

/-- The body asks for a role that exists and that is not the role of the user who asks. -/
def AsksForRole (user : User) (body : UserBody) : Prop :=
  ∃ role, truthy body.role = some role ∧ role ∈ ["admin", "operator", "viewer"] ∧ role ≠ user.role

theorem putUser_eq_ownRole (hadmin : user.role = "admin") {body : UserBody} {userId : Int}
    (hid : body.id.bind parseInt = some userId) (hrole : AsksForRole user body) (salt : String) :
    (putUser env w (some user) body salt).2 = ownRole ↔ userId = user.id := by
  have hfilter : (some user).filter (fun u => u.role = "admin") = some user :=
    Option.filter_eq_some_iff.mpr ⟨rfl, decide_eq_true hadmin⟩
  obtain ⟨role, hsome, hmem, hne⟩ := hrole
  have hvalid : ¬ ¬ ((some role).all fun r => r ∈ ["admin", "operator", "viewer"]) = true :=
    not_not.mpr (decide_eq_true hmem)
  rw [putUser, hfilter, hid]
  dsimp only
  rw [hsome, if_neg hvalid]
  by_cases hself : userId = user.id
  · have hrefused : userId = user.id ∧ some role ≠ none ∧ some role ≠ some user.role :=
      ⟨hself, Option.some_ne_none role, fun h => hne (Option.some.inj h)⟩
    rw [if_pos hrefused]
    exact ⟨fun _ => hself, fun _ => rfl⟩
  · rw [if_neg fun h => hself h.1]
    refine ⟨?_, fun h => absurd h hself⟩
    intro h
    cases hrow : workspaceUser w user (some userId) with
    | none =>
      rw [hrow] at h
      cases h
    | some existing =>
      rw [hrow] at h
      cases h

/-- A self-check that fires when `userId` is the id of the principal fires for the right
requests exactly when the principal is a user or has another id. -/
private theorem exact_iff (hw : Constraints w)
    (h : getUserFromRequest env w headers = .ok (some user)) {fires : Prop} {userId : Int}
    (hfires : fires ↔ userId = user.id) :
    (fires ↔ OwnSession w headers userId) ↔ user.principalType = .user ∨ userId ≠ user.id := by
  rw [hfires, ownSession_iff hw h]
  constructor
  · intro hexact
    by_cases hid : userId = user.id
    · exact .inl (hexact.mp hid).1
    · exact .inr hid
  · rintro (htype | hne)
    · exact ⟨fun hid => ⟨htype, hid⟩, fun hown => hown.2⟩
    · exact ⟨fun hid => absurd hid hne, fun hown => hown.2⟩

theorem agent_id_ne_zero (hw : Constraints w)
    (h : getUserFromRequest env w headers = .ok (some user))
    (hagent : user.principalType = .agentApiKey) : user.id ≠ 0 := by
  cases getUserFromRequest_principal h with
  | session token s cookie opens id type =>
    rw [type] at hagent
    cases hagent
  | agent apiKey k a unopened key unlocks id type =>
    have hpositive := hw.agents a unlocks.2.2.2.2.1
    omega
  | system apiKey unopened key configured id type =>
    rw [type] at hagent
    cases hagent

/-- When principals are kept apart: an agent's key leaves the users alone exactly if no user
has the agent's id, and a self-check fires for the user's own session alone exactly if the
request has a session or does not name the id of its principal. -/
theorem principals_kept_apart_iff (hw : Constraints w)
    (h : getUserFromRequest env w headers = .ok (some user)) :
    (user.principalType = .agentApiKey →
      (LeavesUsers env w user ↔ ∀ u ∈ w.users, u.id ≠ user.id)) ∧
    (user.role = "admin" → ∀ id userId, parseInt id = some userId →
      (((removeUser w (some user) (some id)).2 = ownAccount ↔ OwnSession w headers userId) ↔
        user.principalType = .user ∨ userId ≠ user.id)) ∧
    (user.role = "admin" → ∀ body salt userId, body.id.bind parseInt = some userId →
      AsksForRole user body →
        (((putUser env w (some user) body salt).2 = ownRole ↔ OwnSession w headers userId) ↔
          user.principalType = .user ∨ userId ≠ user.id)) := by
  refine ⟨?_, ?_, ?_⟩
  · intro hagent
    refine ⟨?_, leavesUsers_of_absent⟩
    intro hleaves u hu hsame
    exact not_leavesUsers (agent_id_ne_zero hw h hagent) hu hsame hleaves
  · intro hadmin id userId hid
    have hfires := removeUser_eq_ownAccount (w := w) hadmin id
    rw [hid, Option.some.injEq] at hfires
    exact exact_iff hw h hfires
  · intro hadmin body salt userId hid hrole
    exact exact_iff hw h (putUser_eq_ownRole hadmin hid hrole salt)

/-! ### A shared id -/

def sharedKey : String := "mca_0123456789abcdef0123456789abcdef0123456789abcdef"

def sharedKeyHash : String := "d550c0009cfa68de0a66b60388f88337a40888d9e8cb95b8e76eb8e063c8abb6"

def sharedEnvironment : Environment :=
  { plainEnvironment with sha256 := fun text => if text = sharedKey then sharedKeyHash else text }

def firstOwner : UserRow where
  id := 1
  username := "owner"
  displayName := "Owner"
  passwordHash := "salt:hash"
  role := "admin"
  provider := .localAccount
  providerUserId := none
  email := none
  avatarUrl := none
  isApproved := 1
  approvedBy := none
  approvedAt := none
  workspaceId := 1
  updatedAt := 0
  lastLoginAt := none

/-- The first user and the first agent, who has an admin key, both have the id 1. -/
def sharedIds : World where
  users := [firstOwner]
  sessions := []
  agents := [⟨1, "worker", 1⟩]
  keys := [⟨1, 1, 1, "default", sharedKeyHash, "mca_01234567", ["admin"], none, none, "owner"⟩]
  requests := []
  nextUserId := 2
  nextAgentId := 2
  nextKeyId := 2
  nextRequestId := 1
  now := 1000
  history := []

def withSharedKey : Headers := ⟨none, none, some sharedKey, none⟩

/-- The principal that the key of the agent stands for. -/
def worker : User where
  id := 1
  username := "worker"
  displayName := "worker"
  role := "admin"
  workspaceId := 1
  agentName := some "worker"
  principalType := .agentApiKey
  agentId := some 1
  authScopes := some ["admin"]

theorem sharedIds_constraints : Constraints sharedIds where
  users := ⟨by decide, by decide⟩
  agents := by decide
  nextAgent := by decide
  tokens := by decide
  hashes := by decide

/-- The agent renames the user with its id, and cannot delete that user. -/
theorem worker_taken_for_owner :
    getUserFromRequest sharedEnvironment sharedIds withSharedKey = .ok (some worker) ∧
      worker.principalType = .agentApiKey ∧
      (patchMe sharedEnvironment sharedIds (some worker) ⟨none, none, some "Taken"⟩ "").1.users =
        [{ firstOwner with displayName := "Taken", updatedAt := 1000 }] ∧
      (removeUser sharedIds (some worker) (some "1")).2 = ownAccount := by
  refine ⟨by decide +kernel, rfl, by decide +kernel, by decide +kernel⟩

theorem worker_kept_apart_iff :
    ¬ LeavesUsers sharedEnvironment sharedIds worker ∧
      ((removeUser sharedIds (some worker) (some "2")).2 = ownAccount ↔
        OwnSession sharedIds withSharedKey 2) := by
  have hiff := principals_kept_apart_iff sharedIds_constraints
    (show getUserFromRequest sharedEnvironment sharedIds withSharedKey = .ok (some worker) by
      decide +kernel)
  refine ⟨?_, ?_⟩
  · intro hleaves
    exact (hiff.1 rfl).mp hleaves firstOwner List.mem_cons_self rfl
  · exact (hiff.2.1 rfl "2" 2 (by decide +kernel)).mpr (.inr (by decide))

end MissionControl.Auth.Principals
