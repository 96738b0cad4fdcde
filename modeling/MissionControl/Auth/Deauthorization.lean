import MissionControl.Auth.AccountSteps

/-!
Credentials that have been taken back. The history says which sessions, users and keys are
gone; the validators read the tables. A session outlives the approval of its user, since
nothing but a login looks at `is_approved`.
-/

set_option autoImplicit false
set_option relaxedAutoImplicit false

namespace MissionControl.Auth.Deauthorization

open MissionControl.Foundations.JsText
open MissionControl.Foundations.HeaderText
open MissionControl.Foundations.Transition (Machine)
open Accounts Routes AccountSteps

variable {env : Environment} {w : World}

/-! ### Credentials -/

/-- The request carries the token of a session and nothing else. -/
def CarriesOnlySession (headers : Headers) (token : String) : Prop :=
  parseCookie (headers.cookie.getD "") "mc-session" = .ok (some token) ∧
    extractApiKeyFromHeaders headers = none

/-- The request carries a key that is not the key of the system, and nothing else. -/
def CarriesOnlyKey (env : Environment) (headers : Headers) (key : String) : Prop :=
  parseCookie (headers.cookie.getD "") "mc-session" = .ok none ∧
    extractApiKeyFromHeaders headers = some key ∧ key ≠ trim (env.apiKey.getD "")

/-- The session was destroyed or has expired, or its user was deleted or is not approved. -/
def SessionRevoked (w : World) (token : String) : Prop :=
  .sessionDestroyed token ∈ w.history ∨
    ∃ userId expiresAt, .sessionCreated token userId expiresAt ∈ w.history ∧
      (expiresAt ≤ w.now ∨ .userDeleted userId ∈ w.history ∨
        ∃ u ∈ w.users, u.id = userId ∧ u.isApproved = 0)

/-- The key was revoked or has expired. -/
def KeyRevoked (env : Environment) (w : World) (key : String) : Prop :=
  .keyRevoked (env.sha256 key) ∈ w.history ∨
    ∃ t, .keyCreated (env.sha256 key) (some t) ∈ w.history ∧ t ≤ w.now

/-- No request with a revoked credential alone passes `requireRole` for any role. -/
structure Shut (env : Environment) (w : World) : Prop where
  session : ∀ headers token minRole user, CarriesOnlySession headers token →
    SessionRevoked w token → requireRole env w headers minRole ≠ .ok user
  key : ∀ headers key minRole user, CarriesOnlyKey env headers key →
    KeyRevoked env w key → requireRole env w headers minRole ≠ .ok user

/-! ### Conditions on a step -/

/-- The token that a record says was drawn. -/
def drawnToken : Record → Option String
  | .sessionCreated token _ _ => some token
  | _ => none

def drawnKey : Record → Option String
  | .keyCreated keyHash _ => some keyHash
  | _ => none

/-- A random draw is new: no token and no digest of a key is drawn twice. -/
def FreshDraw (env : Environment) (w : World) : Event → Prop
  | .login _ _ token => ∀ r ∈ w.history, drawnToken r ≠ some token
  | .googleLogin _ token => ∀ r ∈ w.history, drawnToken r ≠ some token
  | .postKey _ _ _ rawKey => ∀ r ∈ w.history, drawnKey r ≠ some (env.sha256 rawKey)
  | _ => True

/-- A user whose approval is withdrawn has no session left. -/
def WithdrawnAlone (w : World) : Event → Prop
  | .putUser currentUser body _ => body.isApproved = some 0 →
    ∀ existing, Admitted w currentUser body existing →
      ∀ s ∈ w.sessions, s.userId = existing.id → s.expiresAt ≤ w.now
  | _ => True

/-! ### What the tables keep of the history -/

structure Tracked (w : World) : Prop where
  opened : ∀ s ∈ w.sessions, .sessionCreated s.token s.userId s.expiresAt ∈ w.history
  once : ∀ token userId t userId' t', .sessionCreated token userId t ∈ w.history →
    .sessionCreated token userId' t' ∈ w.history → userId = userId' ∧ t = t'
  destroyed : ∀ token, .sessionDestroyed token ∈ w.history →
    (∃ userId t, .sessionCreated token userId t ∈ w.history) ∧ ∀ s ∈ w.sessions, s.token ≠ token
  deleted : ∀ id, .userDeleted id ∈ w.history →
    id < w.nextUserId ∧ (∀ s ∈ w.sessions, s.userId ≠ id) ∧ ∀ u ∈ w.users, u.id ≠ id
  approval : ∀ u ∈ w.users, u.isApproved = 0 →
    ∀ s ∈ w.sessions, s.userId = u.id → s.expiresAt ≤ w.now
  keyed : ∀ k ∈ w.keys, .keyCreated k.keyHash k.expiresAt ∈ w.history
  keyOnce : ∀ keyHash t t', .keyCreated keyHash t ∈ w.history →
    .keyCreated keyHash t' ∈ w.history → t = t'
  revoked : ∀ keyHash, .keyRevoked keyHash ∈ w.history →
    (∃ t, .keyCreated keyHash t ∈ w.history) ∧
      ∀ k ∈ w.keys, k.keyHash = keyHash → k.revokedAt ≠ none

/-- The tables are what the validators need them to be. -/
theorem Tracked.shut (h : Tracked w) : Shut env w := by
  have hprincipal : ∀ {headers minRole user}, requireRole env w headers minRole = .ok user →
      Principal env w headers user := by
    intro headers minRole user hok
    rw [requireRole] at hok
    split at hok
    · cases hok
    · cases hok
    · rename_i found hfound
      split at hok
      · cases hok
      · obtain rfl := Except.ok.inj hok
        exact getUserFromRequest_principal hfound
  constructor
  · rintro headers token minRole user ⟨hcookie, hnokey⟩ hrevoked hok
    cases hprincipal hok with
    | session token' s cookie opens id type =>
      rw [hcookie] at cookie
      obtain rfl := Option.some.inj (Except.ok.inj cookie)
      obtain ⟨-, hs, htoken, hcurrent, -⟩ := opens
      have hcreated := h.opened s hs
      rw [htoken] at hcreated
      rcases hrevoked with hdestroyed | ⟨userId, t, hlogged, hgone⟩
      · exact (h.destroyed token hdestroyed).2 s hs htoken
      · obtain ⟨huser, ht⟩ := h.once token _ _ _ _ hlogged hcreated
        rcases hgone with hexpired | hdeleted | ⟨u, hu, hid, happroval⟩
        · omega
        · exact (h.deleted userId hdeleted).2.1 s hs huser.symm
        · have hexpired := h.approval u hu happroval s hs (huser.symm.trans hid.symm)
          omega
    | agent apiKey k a unopened key =>
      rw [hnokey] at key
      cases key
    | system apiKey unopened key =>
      rw [hnokey] at key
      cases key
  · rintro headers key minRole user ⟨hcookie, hkey, hsystem⟩ hrevoked hok
    cases hprincipal hok with
    | session token s cookie =>
      rw [hcookie] at cookie
      cases Except.ok.inj cookie
    | agent apiKey k a unopened found unlocks =>
      rw [hkey] at found
      obtain rfl := Option.some.inj found
      obtain ⟨hk, hhash, hlive, hunexpired, -⟩ := unlocks
      rcases hrevoked with hrevoked | ⟨t, hcreated, hexpired⟩
      · exact (h.revoked _ hrevoked).2 k hk hhash hlive
      · have hlogged := h.keyed k hk
        rw [hhash] at hlogged
        have ht := h.keyOnce _ _ _ hlogged hcreated
        have hcurrent := hunexpired t ht
        omega
    | system apiKey unopened found configured =>
      rw [hkey] at found
      obtain rfl := Option.some.inj found
      exact hsystem configured

/-! ### Steps -/

/-- An update that disapproves of a user only when no session of the user is left. -/
theorem Tracked.modifyUser (h : Tracked w) (id : Nat) {f : UserRow → UserRow}
    (hf : ∀ u, (f u).id = u.id)
    (happroval : ∀ u ∈ w.users, u.id = id → (f u).isApproved = 0 →
      ∀ s ∈ w.sessions, s.userId = id → s.expiresAt ≤ w.now) :
    Tracked (w.modifyUser id f) := by
  refine { h with deleted := ?_, approval := ?_ }
  · intro gone hgone
    obtain ⟨hlt, hsessions, husers⟩ := h.deleted gone hgone
    refine ⟨hlt, hsessions, ?_⟩
    intro u' hu'
    obtain ⟨u, hu, rfl⟩ := List.mem_map.mp hu'
    by_cases hid : u.id = id
    · rw [if_pos hid, hf u]
      exact husers u hu
    · rw [if_neg hid]
      exact husers u hu
  · intro u' hu' hunapproved s hs huser
    obtain ⟨u, hu, rfl⟩ := List.mem_map.mp hu'
    by_cases hid : u.id = id
    · rw [if_pos hid] at hunapproved huser
      rw [hf u, hid] at huser
      exact happroval u hu hid hunapproved s hs huser
    · rw [if_neg hid] at hunapproved huser
      exact h.approval u hu hunapproved s hs huser

/-- A row that is approved may be given a Google identity. -/
theorem Tracked.adopt (h : Tracked w) (hw : Constraints w) {row : UserRow} (hrow : row ∈ w.users)
    (happroved : row.isApproved = 1) (sub email : String) (avatar : Option String) :
    Tracked (w.modifyUser row.id (adoptIdentity sub email avatar w.now)) := by
  refine h.modifyUser row.id (fun _ => rfl) ?_
  intro u hu hid hunapproved
  obtain rfl := hw.users.eq_of_key hrow hu hid.symm
  rw [adoptIdentity, happroved] at hunapproved
  cases hunapproved

theorem Tracked.updateUser (h : Tracked w) (id : Nat) {updates : UserUpdates} (salt : String)
    (happroval : updates.isApproved = some 0 →
      ∀ s ∈ w.sessions, s.userId = id → s.expiresAt ≤ w.now) :
    Tracked (updateUser env w id updates salt) := by
  rw [Accounts.updateUser]
  split
  · exact h
  · refine h.modifyUser id (fun _ => rfl) ?_
    intro u hu hid hunapproved s hs huser
    cases hgiven : updates.isApproved with
    | none =>
      have hkept : u.isApproved = 0 := by
        rw [UserUpdates.apply, hgiven] at hunapproved
        exact hunapproved
      exact h.approval u hu hkept s hs (huser.trans hid.symm)
    | some approval =>
      rw [UserUpdates.apply, hgiven] at hunapproved
      obtain rfl : approval = 0 := hunapproved
      exact happroval hgiven s hs huser

/-- A record that is about no credential. -/
theorem Tracked.record_login (h : Tracked w) (sub : String) (userId : Nat) (carriers : List Nat) :
    Tracked (w.record (.googleLogin sub userId carriers)) := by
  constructor
  · simpa using h.opened
  · simpa using h.once
  · simpa using h.destroyed
  · simpa using h.deleted
  · exact h.approval
  · simpa using h.keyed
  · simpa using h.keyOnce
  · simpa using h.revoked

/-- Fewer sessions. -/
theorem Tracked.filterSessions (h : Tracked w) (keep : UserSession → Bool) :
    Tracked { w with sessions := w.sessions.filter keep } := by
  have hmem : ∀ {s}, s ∈ w.sessions.filter keep → s ∈ w.sessions := List.mem_of_mem_filter
  refine { h with opened := ?_, destroyed := ?_, deleted := ?_, approval := ?_ }
  · exact fun s hs => h.opened s (hmem hs)
  · exact fun token ht => ⟨(h.destroyed token ht).1, fun s hs => (h.destroyed token ht).2 s (hmem hs)⟩
  · intro id hid
    obtain ⟨hlt, hsessions, husers⟩ := h.deleted id hid
    exact ⟨hlt, fun s hs => hsessions s (hmem hs), husers⟩
  · exact fun u hu hunapproved s hs => h.approval u hu hunapproved s (hmem hs)

/-- A session of an approved user, with a token that was not drawn before. -/
theorem Tracked.openSession (h : Tracked w) (s : UserSession)
    (hfresh : ∀ r ∈ w.history, drawnToken r ≠ some s.token)
    (huser : ∃ u ∈ w.users, u.id = s.userId)
    (happroved : ∀ u ∈ w.users, u.id = s.userId → u.isApproved ≠ 0) :
    Tracked (World.record { w with sessions := w.sessions ++ [s] }
      (.sessionCreated s.token s.userId s.expiresAt)) := by
  have hnew : ∀ i t, .sessionCreated s.token i t ∉ w.history := fun i t hmem => hfresh _ hmem rfl
  constructor
  · intro s' hs'
    rw [World.mem_record]
    rcases List.mem_append.mp hs' with hs' | hs'
    · exact .inl (h.opened s' hs')
    · rw [List.mem_singleton.mp hs']
      exact .inr rfl
  · intro token i t i' t' hi hi'
    simp only [World.mem_record, Record.sessionCreated.injEq] at hi hi'
    rcases hi with hi | ⟨rfl, rfl, rfl⟩
    · rcases hi' with hi' | ⟨rfl, rfl, rfl⟩
      · exact h.once token i t i' t' hi hi'
      · exact absurd hi (hnew i t)
    · rcases hi' with hi' | ⟨-, rfl, rfl⟩
      · exact absurd hi' (hnew i' t')
      · exact ⟨rfl, rfl⟩
  · intro token htoken
    simp only [World.mem_record, reduceCtorEq, or_false] at htoken
    obtain ⟨⟨i, t, hcreated⟩, hgone⟩ := h.destroyed token htoken
    refine ⟨⟨i, t, World.mem_record.mpr (.inl hcreated)⟩, ?_⟩
    intro s' hs'
    rcases List.mem_append.mp hs' with hs' | hs'
    · exact hgone s' hs'
    · rw [List.mem_singleton.mp hs']
      rintro rfl
      exact hnew i t hcreated
  · intro id hid
    simp only [World.mem_record, reduceCtorEq, or_false] at hid
    obtain ⟨hlt, hsessions, husers⟩ := h.deleted id hid
    refine ⟨hlt, ?_, husers⟩
    intro s' hs'
    rcases List.mem_append.mp hs' with hs' | hs'
    · exact hsessions s' hs'
    · rw [List.mem_singleton.mp hs']
      obtain ⟨u, hu, huid⟩ := huser
      exact huid ▸ husers u hu
  · intro u hu hunapproved s' hs' hid
    rcases List.mem_append.mp hs' with hs' | hs'
    · exact h.approval u hu hunapproved s' hs' hid
    · rw [List.mem_singleton.mp hs'] at hid
      exact absurd hunapproved (happroved u hu hid.symm)
  · simpa using h.keyed
  · simpa using h.keyOnce
  · simpa using h.revoked

theorem Tracked.createSession (h : Tracked w) (hw : Constraints w) {u : UserRow} (hu : u ∈ w.users)
    (happroved : u.isApproved = 1) {workspaceId : Nat} {token : String} {w' : World}
    (hfresh : ∀ r ∈ w.history, drawnToken r ≠ some token)
    (hcreated : createSession w u.id workspaceId token = .ok w') : Tracked w' := by
  obtain ⟨-, rfl⟩ := createSession_eq_ok hcreated
  have hnoted : Tracked (w.modifyUser u.id (noteLogin w.now)) := by
    refine h.modifyUser u.id (fun _ => rfl) ?_
    intro v hv hid hunapproved
    obtain rfl := hw.users.eq_of_key hu hv hid.symm
    rw [noteLogin, happroved] at hunapproved
    cases hunapproved
  have hopened := hnoted.openSession ⟨token, u.id, workspaceId, w.now + sessionDuration⟩ hfresh
    ⟨_, List.mem_map_of_mem hu, by rw [if_pos rfl]; rfl⟩ (by
      intro v' hv' hid
      obtain ⟨v, hv, rfl⟩ := List.mem_map.mp hv'
      by_cases hvid : v.id = u.id
      · obtain rfl := hw.users.eq_of_key hu hv hvid.symm
        rw [if_pos rfl, noteLogin, happroved]
        decide
      · rw [if_neg hvid] at hid
        exact absurd hid hvid)
  exact hopened.filterSessions fun s => w.now ≤ s.expiresAt

theorem Tracked.destroySession (h : Tracked w) (token : String) :
    Tracked (destroySession w token) := by
  rw [Accounts.destroySession]
  split
  · rename_i hany
    obtain ⟨s, hs, htoken⟩ := List.any_eq_true.mp hany
    have hcreated := h.opened s hs
    rw [of_decide_eq_true htoken] at hcreated
    have hfiltered := h.filterSessions fun s => s.token ≠ token
    constructor
    · simpa using hfiltered.opened
    · simpa using hfiltered.once
    · intro token' htoken'
      simp only [World.mem_record, Record.sessionDestroyed.injEq] at htoken'
      rcases htoken' with htoken' | rfl
      · obtain ⟨⟨i, t, hlogged⟩, hgone⟩ := hfiltered.destroyed token' htoken'
        exact ⟨⟨i, t, World.mem_record.mpr (.inl hlogged)⟩, hgone⟩
      · refine ⟨⟨_, _, World.mem_record.mpr (.inl hcreated)⟩, ?_⟩
        intro s' hs'
        exact of_decide_eq_true (List.mem_filter.mp hs').2
    · simpa using hfiltered.deleted
    · exact hfiltered.approval
    · simpa using hfiltered.keyed
    · simpa using hfiltered.keyOnce
    · simpa using hfiltered.revoked
  · exact h

theorem Tracked.deleteUser (h : Tracked w) (hw : Constraints w) {u : UserRow} (hu : u ∈ w.users) :
    Tracked (deleteUser w u.id) := by
  have hfiltered := h.filterSessions fun s => s.userId ≠ u.id
  simp only [Accounts.deleteUser, destroyAllUserSessions]
  constructor
  · simpa using hfiltered.opened
  · simpa using hfiltered.once
  · simpa using hfiltered.destroyed
  · intro id hid
    have hid : .userDeleted id ∈ w.history ∨ Record.userDeleted id = .userDeleted u.id :=
      World.mem_record.mp hid
    rcases hid with hid | hid
    · obtain ⟨hlt, hsessions, husers⟩ := hfiltered.deleted id hid
      exact ⟨hlt, hsessions, fun v hv => husers v (List.mem_of_mem_filter hv)⟩
    · obtain rfl := Record.userDeleted.inj hid
      refine ⟨hw.users.fresh u hu, ?_, ?_⟩
      · intro s hs
        exact of_decide_eq_true (List.mem_filter.mp hs).2
      · intro v hv
        exact of_decide_eq_true (List.mem_filter.mp hv).2
  · exact fun v hv => hfiltered.approval v (List.mem_of_mem_filter hv)
  · simpa using hfiltered.keyed
  · simpa using hfiltered.keyOnce
  · simpa using hfiltered.revoked

/-- Fewer keys. -/
theorem Tracked.filterKeys (h : Tracked w) (keep : AgentApiKeyRow → Bool) :
    Tracked { w with keys := w.keys.filter keep } := by
  refine { h with keyed := ?_, revoked := ?_ }
  · exact fun k hk => h.keyed k (List.mem_of_mem_filter hk)
  · intro keyHash hrevoked
    obtain ⟨hcreated, hgone⟩ := h.revoked keyHash hrevoked
    exact ⟨hcreated, fun k hk => hgone k (List.mem_of_mem_filter hk)⟩

/-- A key whose digest was not drawn before. -/
theorem Tracked.postKey (h : Tracked w) (k : AgentApiKeyRow)
    (hfresh : ∀ r ∈ w.history, drawnKey r ≠ some k.keyHash) :
    Tracked (World.record { w with keys := w.keys ++ [k], nextKeyId := w.nextKeyId + 1 }
      (.keyCreated k.keyHash k.expiresAt)) := by
  have hnew : ∀ t, .keyCreated k.keyHash t ∉ w.history := fun t hmem => hfresh _ hmem rfl
  constructor
  · simpa using h.opened
  · simpa using h.once
  · simpa using h.destroyed
  · simpa using h.deleted
  · exact h.approval
  · intro k' hk'
    rw [World.mem_record]
    rcases List.mem_append.mp hk' with hk' | hk'
    · exact .inl (h.keyed k' hk')
    · rw [List.mem_singleton.mp hk']
      exact .inr rfl
  · intro keyHash t t' ht ht'
    simp only [World.mem_record, Record.keyCreated.injEq] at ht ht'
    rcases ht with ht | ⟨rfl, rfl⟩
    · rcases ht' with ht' | ⟨rfl, rfl⟩
      · exact h.keyOnce keyHash t t' ht ht'
      · exact absurd ht (hnew t)
    · rcases ht' with ht' | ⟨-, rfl⟩
      · exact absurd ht' (hnew t')
      · rfl
  · intro keyHash hrevoked
    simp only [World.mem_record, reduceCtorEq, or_false] at hrevoked
    obtain ⟨⟨t, hcreated⟩, hgone⟩ := h.revoked keyHash hrevoked
    refine ⟨⟨t, World.mem_record.mpr (.inl hcreated)⟩, ?_⟩
    intro k' hk' hhash
    rcases List.mem_append.mp hk' with hk' | hk'
    · exact hgone k' hk' hhash
    · rw [List.mem_singleton.mp hk'] at hhash
      rw [← hhash] at hcreated
      exact absurd hcreated (hnew t)

theorem Tracked.revokeKey (h : Tracked w) (hw : Constraints w) {key : AgentApiKeyRow}
    (hkey : key ∈ w.keys) :
    Tracked (World.record
      { w with
        keys := w.keys.map fun k =>
          if k.id = key.id then { k with revokedAt := some w.now } else k }
      (.keyRevoked key.keyHash)) := by
  have hold : ∀ k' ∈ w.keys.map (fun k =>
      if k.id = key.id then { k with revokedAt := some w.now } else k), ∃ k ∈ w.keys,
        k'.keyHash = k.keyHash ∧ k'.expiresAt = k.expiresAt ∧
          (k.revokedAt ≠ none ∨ k.id = key.id → k'.revokedAt ≠ none) := by
    intro k' hk'
    obtain ⟨k, hk, rfl⟩ := List.mem_map.mp hk'
    by_cases hid : k.id = key.id
    · rw [if_pos hid]
      exact ⟨k, hk, rfl, rfl, fun _ => Option.some_ne_none w.now⟩
    · rw [if_neg hid]
      exact ⟨k, hk, rfl, rfl, fun hrevoked => hrevoked.resolve_right hid⟩
  constructor
  · simpa using h.opened
  · simpa using h.once
  · simpa using h.destroyed
  · simpa using h.deleted
  · exact h.approval
  · intro k' hk'
    obtain ⟨k, hk, hhash, hexpiry, -⟩ := hold k' hk'
    rw [hhash, hexpiry, World.mem_record]
    exact .inl (h.keyed k hk)
  · simpa using h.keyOnce
  · intro keyHash hrevoked
    simp only [World.mem_record, Record.keyRevoked.injEq] at hrevoked
    rcases hrevoked with hrevoked | rfl
    · obtain ⟨⟨t, hcreated⟩, hgone⟩ := h.revoked keyHash hrevoked
      refine ⟨⟨t, World.mem_record.mpr (.inl hcreated)⟩, ?_⟩
      intro k' hk' hhash'
      obtain ⟨k, hk, hhash, -, hkept⟩ := hold k' hk'
      exact hkept (.inl (hgone k hk (hhash ▸ hhash')))
    · refine ⟨⟨_, World.mem_record.mpr (.inl (h.keyed key hkey))⟩, ?_⟩
      intro k' hk' hhash'
      obtain ⟨k, hk, hhash, -, hkept⟩ := hold k' hk'
      have hsame : k = key := List.inj_on_of_nodup_map hw.hashes hk hkey (hhash ▸ hhash')
      exact hkept (.inr (congrArg AgentApiKeyRow.id hsame))

/-- What a step of the history must meet. -/
def Orderly (env : Environment) (w : World) (e : Event) : Prop :=
  FreshDraw env w e ∧ WithdrawnAlone w e

theorem Tracked.moved (h : Tracked w) (hw : Constraints w) {e : Event} {w' : World}
    (horderly : Orderly env w e) (hmoved : Moved env w e w') : Tracked w' := by
  cases hmoved with
  | kept => exact h
  | waited seconds =>
    refine { h with approval := ?_ }
    intro u hu hunapproved s hs huser
    have hexpired := h.approval u hu hunapproved s hs huser
    exact Nat.le_add_right_of_le hexpired
  | requests => exact { h with }
  | loggedIn _ _ _ u _ _ user approved created =>
    exact h.createSession hw user approved horderly.1 created
  | loggedOut headers token => exact h.destroySession token
  | adopted payload token sub email avatar row picked =>
    obtain ⟨-, -, -, -, hpicked, happroved⟩ := picked
    exact h.adopt hw (firstUser_eq_some hpicked).1 happroved sub email avatar
  | identified payload token sub email avatar row _ picked created =>
    obtain ⟨-, -, -, -, hpicked, happroved⟩ := picked
    have hrow := (firstUser_eq_some hpicked).1
    have hadopted := h.adopt hw hrow happroved sub email avatar
    have hconstraints := hw.modifyUser row.id (f := adoptIdentity sub email avatar w.now)
      fun _ => rfl
    have hmem : adoptIdentity sub email avatar w.now row ∈
        (w.modifyUser row.id (adoptIdentity sub email avatar w.now)).users :=
      List.mem_map.mpr ⟨row, hrow, if_pos rfl⟩
    have hopened := hadopted.createSession hconstraints hmem happroved horderly.1 created
    exact hopened.record_login ..
  | approved admin requestId action role note password salt request row avatarUrl approver =>
    have hmodified := h.modifyUser row.id (f := approveRow (truthy request.providerUserId)
      (env.toLowerCase request.email) avatarUrl role approver w.now) (fun _ => rfl) (by
        intro u hu hid hunapproved
        rw [approveRow] at hunapproved
        cases hunapproved)
    exact { hmodified with }
  | inserted _ row rs id approved =>
    refine { h with deleted := ?_, approval := ?_ }
    · intro gone hgone
      obtain ⟨hlt, hsessions, husers⟩ := h.deleted gone hgone
      refine ⟨Nat.lt_succ_of_lt hlt, hsessions, ?_⟩
      intro u hu
      rcases List.mem_append.mp hu with hu | hu
      · exact husers u hu
      · rw [List.mem_singleton.mp hu, id]
        omega
    · intro u hu hunapproved
      rcases List.mem_append.mp hu with hu | hu
      · exact h.approval u hu hunapproved
      · rw [List.mem_singleton.mp hu, approved] at hunapproved
        cases hunapproved
  | updated currentUser body salt existing admitted =>
    apply h.updateUser
    intro hzero s hs huser
    exact horderly.2 hzero existing admitted s hs huser
  | profile user body salt id updates approval =>
    apply h.updateUser
    intro hzero
    rw [approval] at hzero
    cases hzero
  | deleted currentUser id u user => exact h.deleteUser hw user
  | agentInserted => exact { h with }
  | agentRemoved user ref agent =>
    have hfiltered := h.filterKeys fun k => k.agentId ≠ agent.id
    exact { hfiltered with }
  | posted user ref body rawKey k id hash =>
    apply h.postKey
    rw [hash]
    exact horderly.1
  | revoked user ref keyId key found id =>
    subst id
    exact h.revokeKey hw found

/-! ### Histories -/

theorem tracked_seeded (now : Nat) (admin : Option SeedAdmin) : Tracked (seeded now admin) := by
  have hhistory : (seeded now admin).history = [] := by
    cases admin <;> rfl
  have hsessions : (seeded now admin).sessions = [] := by
    cases admin <;> rfl
  have hkeys : (seeded now admin).keys = [] := by
    cases admin <;> rfl
  have hnone : ∀ r, r ∉ (seeded now admin).history := by
    intro r
    rw [hhistory]
    exact List.not_mem_nil
  constructor
  · intro s hs
    rw [hsessions] at hs
    cases hs
  · exact fun _ _ _ _ _ h => absurd h (hnone _)
  · exact fun _ h => absurd h (hnone _)
  · exact fun _ h => absurd h (hnone _)
  · intro u hu hunapproved s hs
    rw [hsessions] at hs
    cases hs
  · intro k hk
    rw [hkeys] at hk
    cases hk
  · exact fun _ _ _ h => absurd h (hnone _)
  · exact fun _ h => absurd h (hnone _)

/-- In a history that draws nothing twice and withdraws an approval only from users without a
session, no revoked credential is ever let in. -/
theorem revoked_never_admitted (env : Environment) (now : Nat) (admin : Option SeedAdmin)
    {trace : List Event} (hmeets : (machine env).Meets (Orderly env) (seeded now admin) trace) :
    (machine env).Always (Shut env) (seeded now admin) trace := by
  intro front back w hsplit hrun
  rw [hsplit] at hmeets
  have hkept : ∀ w e w', Constraints w ∧ Tracked w → Orderly env w e →
      (machine env).step w e = some w' → Constraints w' ∧ Tracked w' := by
    intro w e w' hw horderly hstep
    have hmoved := moved_of_step hstep
    exact ⟨hw.1.moved hmoved, hw.2.moved hw.1 horderly hmoved⟩
  have hinv : Constraints w ∧ Tracked w := Machine.run_invariant hkept
    ⟨Constraints.seeded now admin, tracked_seeded now admin⟩ hmeets.append_left hrun
  exact hinv.2.shut

theorem removed_user_never_admitted :
    (machine plainEnvironment).Always (Shut plainEnvironment) (seeded 1000 (some rootAdmin))
      (teamLogin ++ [.removeUser (some rootUser) (some "2")]) := by
  apply revoked_never_admitted
  refine ⟨⟨trivial, trivial⟩, ?_⟩
  intro w₁ h₁
  obtain rfl := Option.some.inj h₁
  refine ⟨⟨?_, trivial⟩, ?_⟩
  · intro r hr
    have hnone : (handle plainEnvironment (seeded 1000 (some rootAdmin))
        (.postUser (some rootUser)
          ⟨"team", "long-enough-pw", none, .operator, .google, some "team@example.com"⟩
            "s1")).history = [] := by
      decide +kernel
    rw [hnone] at hr
    cases hr
  · intro w₂ _
    exact ⟨⟨trivial, trivial⟩, fun _ _ => trivial⟩

/-- The admin withdraws the approval of a user who is logged in. -/
def withdrawal : Event :=
  .putUser (some rootUser) ⟨some "2", none, none, none, some 0, none, none⟩ "s2"

def withFirstToken : Headers := ⟨none, some ("mc-session=" ++ firstToken), none, none⟩

theorem withdrawn_user_admitted :
    ¬ (machine plainEnvironment).Always (Shut plainEnvironment) (seeded 1000 (some rootAdmin))
      (teamLogin ++ [withdrawal]) := by
  intro h
  have hreached : ((machine plainEnvironment).run (seeded 1000 (some rootAdmin))
      (teamLogin ++ [withdrawal])).any (fun w =>
        .sessionCreated firstToken 2 605800 ∈ w.history ∧
          (∃ u ∈ w.users, u.id = 2 ∧ u.isApproved = 0) ∧
            (requireRole plainEnvironment w withFirstToken .operator).toOption.isSome) = true := by
    decide +kernel
  obtain ⟨w, hrun, hfacts⟩ := (Option.any_eq_true _ _).mp hreached
  obtain ⟨hcreated, hunapproved, hadmitted⟩ := of_decide_eq_true hfacts
  have hshut := h (teamLogin ++ [withdrawal]) [] w (List.append_nil _).symm hrun
  have hcarries : CarriesOnlySession withFirstToken firstToken := by
    refine ⟨?_, ?_⟩ <;> decide +kernel
  cases hrole : requireRole plainEnvironment w withFirstToken .operator with
  | error =>
    rw [hrole] at hadmitted
    cases hadmitted
  | ok user =>
    exact hshut.session withFirstToken firstToken .operator user hcarries
      (.inr ⟨2, 605800, hcreated, .inr (.inr hunapproved)⟩) hrole

end MissionControl.Auth.Deauthorization
