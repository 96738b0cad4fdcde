import MissionControl.Auth.AccountSteps

/-!
The row behind a Google account. A login and an approval pick the first row that matches the
sub or the email and give it both, which leaves one row for a sub as long as no other row
already carries it.
-/

set_option autoImplicit false
set_option relaxedAutoImplicit false

namespace MissionControl.Auth.GoogleIdentity

open MissionControl.Foundations.JsText
open MissionControl.Foundations.Lists
open MissionControl.Foundations.Transition (Machine)
open Accounts Routes AccountSteps

variable {env : Environment} {w : World}

/-- At most one row carries each sub. -/
def Single (users : List UserRow) : Prop :=
  ∀ sub, ∀ u ∈ users, ∀ v ∈ users, Carries sub u → Carries sub v → u = v

/-- Each login has opened a session for the approved row that carried the sub, if any did. -/
def Recognized (history : List Record) : Prop :=
  ∀ sub userId carriers, .googleLogin sub userId carriers ∈ history → ∀ id ∈ carriers, id = userId

/-- Google identities are stable. -/
structure Stable (w : World) : Prop where
  single : Single w.users
  recognized : Recognized w.history

/-- No row but the one that is picked carries the sub that it is given. -/
def Unrivalled (w : World) (sub : String) (row : UserRow) : Prop :=
  ∀ u ∈ w.users, Carries sub u → u.id = row.id

/-- A login or an approval that changes a row finds no other row with the sub. -/
def IdentityKept (env : Environment) (w : World) : Event → Prop
  | .googleLogin payload _ =>
    ∀ sub email row, Identifies env w payload sub email row → Unrivalled w sub row
  | .reviewRequest admin requestId .approve _ _ _ _ =>
    ∀ request row sub, Approves env w admin requestId request row →
      truthy request.providerUserId = some sub → Unrivalled w sub row
  | _ => True

/-! ### Rows -/

theorem Single.modifyUser (h : Single w.users) (hw : Constraints w) (id : Nat)
    {f : UserRow → UserRow} (hf : ∀ u ∈ w.users, u.id = id → ∀ sub, Carries sub (f u) →
      ∀ v ∈ w.users, Carries sub v → v.id = id) : Single (w.modifyUser id f).users := by
  intro sub u' hu' v' hv' hcu hcv
  obtain ⟨u, hu, rfl⟩ := List.mem_map.mp hu'
  obtain ⟨v, hv, rfl⟩ := List.mem_map.mp hv'
  by_cases hui : u.id = id
  · rw [if_pos hui] at hcu ⊢
    by_cases hvi : v.id = id
    · rw [if_pos hvi]
      have huv : u = v := hw.users.eq_of_key hu hv (hui.trans hvi.symm)
      rw [huv]
    · rw [if_neg hvi] at hcv
      exact absurd (hf u hu hui sub hcu v hv hcv) hvi
  · rw [if_neg hui] at hcu ⊢
    by_cases hvi : v.id = id
    · rw [if_pos hvi] at hcv
      exact absurd (hf v hv hvi sub hcv u hu hcu) hui
    · rw [if_neg hvi] at hcv ⊢
      exact h sub u hu v hv hcu hcv

/-- An update that leaves the identity of the row. -/
theorem Single.modifyOther (h : Single w.users) (hw : Constraints w) (id : Nat)
    {f : UserRow → UserRow} (hf : ∀ sub u, Carries sub (f u) → Carries sub u) :
    Single (w.modifyUser id f).users := by
  apply h.modifyUser hw id
  intro u hu hui sub hcarries v hv hcv
  rw [h sub v hv u hu hcv (hf sub u hcarries), hui]

theorem Single.updateUser (h : Single w.users) (hw : Constraints w) (id : Nat)
    (updates : UserUpdates) (salt : String) : Single (updateUser env w id updates salt).users := by
  rw [Accounts.updateUser]
  split
  · exact h
  · exact h.modifyOther hw id fun _ _ hcarries => hcarries

theorem Single.createSession (h : Single w.users) (hw : Constraints w) {userId workspaceId : Nat}
    {token : String} {w' : World} (hcreated : createSession w userId workspaceId token = .ok w') :
    Single w'.users := by
  obtain ⟨-, rfl⟩ := createSession_eq_ok hcreated
  exact h.modifyOther hw userId fun _ _ hcarries => hcarries

theorem Single.adopt (h : Single w.users) (hw : Constraints w) {sub : String} {row : UserRow}
    (hrow : Unrivalled w sub row) (email : String) (avatar : Option String) :
    Single (w.modifyUser row.id (adoptIdentity sub email avatar w.now)).users := by
  apply h.modifyUser hw row.id
  intro u hu hui sub' hcarries v hv hcv
  obtain rfl : sub = sub' := Option.some.inj hcarries.2
  exact hrow v hv hcv

/-! ### History -/

theorem Recognized.snoc {history : List Record} (h : Recognized history) {r : Record}
    (hr : ∀ sub userId carriers, r = .googleLogin sub userId carriers →
      ∀ id ∈ carriers, id = userId) : Recognized (history ++ [r]) := by
  intro sub userId carriers hmem
  rcases List.mem_append.mp hmem with hmem | hmem
  · exact h sub userId carriers hmem
  · exact hr sub userId carriers (List.mem_singleton.mp hmem).symm

theorem Recognized.createSession (h : Recognized w.history) {userId workspaceId : Nat}
    {token : String} {w' : World} (hcreated : createSession w userId workspaceId token = .ok w') :
    Recognized w'.history := by
  obtain ⟨-, rfl⟩ := createSession_eq_ok hcreated
  apply h.snoc
  intro sub userId carriers heq
  cases heq

/-! ### Steps -/

/-- A step that meets the condition keeps the identities stable. -/
theorem Stable.moved (h : Stable w) (hw : Constraints w) {e : Event} {w' : World}
    (hkept : IdentityKept env w e) (hmoved : Moved env w e w') : Stable w' := by
  cases hmoved with
  | kept | waited | requests | agentInserted | agentRemoved => exact ⟨h.single, h.recognized⟩
  | loggedIn _ _ _ _ _ _ _ _ created =>
    exact ⟨h.single.createSession hw created, h.recognized.createSession created⟩
  | loggedOut headers token =>
    rw [destroySession]
    split
    · refine ⟨h.single, h.recognized.snoc ?_⟩
      intro sub userId carriers heq
      cases heq
    · exact h
  | adopted payload token sub email avatar row picked =>
    exact ⟨h.single.adopt hw (hkept sub email row picked) email avatar, h.recognized⟩
  | identified payload token sub email avatar row _ picked created =>
    have hrow : Unrivalled w sub row := hkept sub email row picked
    have hadopted := h.single.adopt hw hrow email avatar
    have hconstraints := hw.modifyUser row.id (f := adoptIdentity sub email avatar w.now)
      fun _ => rfl
    have hopened := hadopted.createSession hconstraints created
    refine ⟨hopened, ?_⟩
    have hrecognized : Recognized
        (w.modifyUser row.id (adoptIdentity sub email avatar w.now)).history := h.recognized
    refine (hrecognized.createSession created).snoc ?_
    intro sub' userId carriers heq id hid
    obtain ⟨rfl, rfl, rfl⟩ := Record.googleLogin.inj heq
    obtain ⟨u, hu, rfl⟩ := List.mem_map.mp hid
    obtain ⟨hmem, hcarries⟩ := List.mem_filter.mp hu
    exact hrow u hmem (of_decide_eq_true hcarries).1
  | approved admin requestId action role note password salt request row avatarUrl approver rs
      accepted picked =>
    subst accepted
    refine ⟨?_, h.recognized⟩
    apply h.single.modifyUser hw row.id
    intro u hu hui sub hcarries v hv hcv
    exact hkept request row sub picked hcarries.2 v hv hcv
  | inserted _ row rs id approved identity =>
    refine ⟨?_, h.recognized⟩
    intro sub u hu v hv hcu hcv
    rcases List.mem_append.mp hu with hu | hu
    · rcases List.mem_append.mp hv with hv | hv
      · exact h.single sub u hu v hv hcu hcv
      · rw [List.mem_singleton.mp hv] at hcv
        exact absurd hcu (identity sub hcv u hu)
    · rw [List.mem_singleton.mp hu] at hcu
      rcases List.mem_append.mp hv with hv | hv
      · exact absurd hcv (identity sub hcu v hv)
      · rw [List.mem_singleton.mp hu, List.mem_singleton.mp hv]
  | updated currentUser body salt existing =>
    refine ⟨h.single.updateUser hw existing.id body.updates salt, ?_⟩
    rw [updateUser]
    split <;> exact h.recognized
  | profile user body salt id updates =>
    refine ⟨h.single.updateUser hw id updates salt, ?_⟩
    rw [updateUser]
    split <;> exact h.recognized
  | deleted currentUser id u =>
    refine ⟨?_, h.recognized.snoc ?_⟩
    · intro sub u hu v hv
      exact h.single sub u (List.mem_of_mem_filter hu) v (List.mem_of_mem_filter hv)
    · intro sub userId carriers heq
      cases heq
  | posted =>
    refine ⟨h.single, h.recognized.snoc ?_⟩
    intro sub userId carriers heq
    cases heq
  | revoked =>
    refine ⟨h.single, h.recognized.snoc ?_⟩
    intro sub userId carriers heq
    cases heq

/-! ### A rival row -/

/-- The rows after the one with the id has been given the sub. -/
structure Given (users : List UserRow) (id : Nat) (sub : String) (users' : List UserRow)
    (g : UserRow → UserRow) : Prop where
  rows : users' = users.map g
  ids : ∀ u, (g u).id = u.id
  picked : ∀ u, u.id = id → Carries sub (g u)
  others : ∀ u, u.id ≠ id → g u = u

theorem given_modify (id : Nat) (sub : String) {f : UserRow → UserRow}
    (hid : ∀ u, (f u).id = u.id) (hsub : ∀ u, Carries sub (f u)) :
    Given w.users id sub (w.modifyUser id f).users fun u => if u.id = id then f u else u := by
  refine ⟨rfl, ?_, ?_, ?_⟩
  · intro u
    by_cases h : u.id = id
    · rw [if_pos h]
      exact hid u
    · rw [if_neg h]
  · intro u h
    rw [if_pos h]
    exact hsub u
  · intro u h
    exact if_neg h

theorem Given.noteLogin {users users' : List UserRow} {id : Nat} {sub : String}
    {g : UserRow → UserRow} (h : Given users id sub users' g) (now : Nat) :
    Given users id sub (users'.map fun u => if u.id = id then Accounts.noteLogin now u else u)
      fun u => if u.id = id then Accounts.noteLogin now (g u) else g u := by
  refine ⟨?_, ?_, ?_, ?_⟩
  · rw [h.rows, List.map_map]
    apply List.map_congr_left
    intro u _
    rw [Function.comp_apply, h.ids u]
  · intro u
    split
    · exact h.ids u
    · exact h.ids u
  · intro u hu
    rw [if_pos hu]
    exact h.picked u hu
  · intro u hu
    rw [if_neg hu]
    exact h.others u hu

theorem Given.not_single {users users' : List UserRow} {row u : UserRow} {sub : String}
    {g : UserRow → UserRow} (h : Given users row.id sub users' g) (hrow : row ∈ users)
    (hu : u ∈ users) (hcarries : Carries sub u) (hne : u.id ≠ row.id) : ¬ Single users' := by
  intro hsingle
  rw [h.rows] at hsingle
  have hother : g u ∈ users.map g := List.mem_map_of_mem hu
  have hsame := hsingle sub (g row) (List.mem_map_of_mem hrow) (g u) hother (h.picked row rfl)
    (by rwa [h.others u hne])
  have hids : row.id = u.id := by
    rw [← h.ids row, ← h.ids u, hsame]
  exact hne hids.symm

theorem googleLogin_gives {payload : GoogleIdTokenPayload} {sub email : String} {row : UserRow}
    (h : Identifies env w payload sub email row) (token : String) :
    ∃ g, Given w.users row.id sub (googleLogin env w payload token).1.users g := by
  obtain ⟨profile, hverified, rfl, rfl, hpicked, happroved⟩ := h
  have hadopted := given_modify (w := w) row.id (trim profile.sub)
    (f := adoptIdentity (trim profile.sub) (trim (env.toLowerCase profile.email))
      (truthy profile.picture) w.now) (fun _ => rfl) fun _ => ⟨rfl, rfl⟩
  rw [googleLogin, hverified]
  simp only [loginWithProfile, hpicked]
  rw [if_neg (not_not.mpr happroved)]
  cases hcreated : createSession (w.modifyUser row.id (adoptIdentity (trim profile.sub)
      (trim (env.toLowerCase profile.email)) (truthy profile.picture) w.now))
        row.id row.workspaceId token with
  | error => exact ⟨_, hadopted⟩
  | ok w' =>
    obtain ⟨-, rfl⟩ := createSession_eq_ok hcreated
    exact ⟨_, hadopted.noteLogin w.now⟩

theorem reviewRequest_gives {admin : Option User} {requestId : Nat} {request : AccessRequest}
    {row : UserRow} {sub : String} (h : Approves env w admin requestId request row)
    (hsub : truthy request.providerUserId = some sub) (role : Role) (note : Option String)
    (password salt : String) :
    ∃ g, Given w.users row.id sub
      (reviewRequest env w admin requestId .approve role note password salt).1.users g := by
  obtain ⟨⟨user, rfl, hrole⟩, hrequest, hpicked⟩ := h
  have hfilter : (some user).filter (fun u => u.role = "admin") = some user :=
    Option.filter_eq_some_iff.mpr ⟨rfl, decide_eq_true hrole⟩
  have hgiven := given_modify (w := w) row.id sub
    (f := approveRow (truthy request.providerUserId) (env.toLowerCase request.email)
      (truthy request.avatarUrl) role user.username w.now) (fun _ => rfl) fun _ => ⟨rfl, hsub⟩
  rw [reviewRequest, hfilter]
  dsimp only
  rw [hrequest]
  dsimp only
  rw [approveRequest]
  dsimp only
  rw [hpicked]
  exact ⟨_, hgiven⟩

theorem accountRow_mem {sub email : String} {row : UserRow}
    (h : accountRow w sub email = some row) : row ∈ w.users := (firstUser_eq_some h).1

/-- A step that does not meet the condition leaves two rows with one sub. -/
theorem not_stable_of_rival {e : Event} (h : ¬ IdentityKept env w e) :
    ∃ w', (machine env).step w e = some w' ∧ ¬ Stable w' := by
  refine ⟨handle env w e, rfl, ?_⟩
  intro hstable
  apply h
  cases e with
  | googleLogin payload token =>
    intro sub email row hidentifies u hu hcarries
    obtain ⟨g, hgiven⟩ := googleLogin_gives hidentifies token
    obtain ⟨-, -, -, -, hpicked, -⟩ := hidentifies
    by_contra hne
    exact hgiven.not_single (accountRow_mem hpicked) hu hcarries hne hstable.single
  | reviewRequest admin requestId action role note password salt =>
    cases action with
    | reject => trivial
    | approve =>
      intro request row sub happroves hsub u hu hcarries
      obtain ⟨g, hgiven⟩ := reviewRequest_gives happroves hsub role note password salt
      by_contra hne
      exact hgiven.not_single (accountRow_mem happroves.2.2) hu hcarries hne hstable.single
  | _ => trivial

/-! ### Histories -/

theorem stable_seeded (now : Nat) (admin : Option SeedAdmin) : Stable (seeded now admin) := by
  cases admin with
  | none =>
    exact ⟨fun _ _ h => absurd h List.not_mem_nil, fun _ _ _ h => absurd h List.not_mem_nil⟩
  | some admin =>
    refine ⟨?_, fun _ _ _ h => absurd h List.not_mem_nil⟩
    intro sub u hu v hv _ _
    rw [List.mem_singleton.mp hu, List.mem_singleton.mp hv]

/-- Google identities are stable throughout a history exactly if every login and approval in it
that changes a row finds no other row with the sub. -/
theorem identities_stable_iff (env : Environment) (now : Nat) (admin : Option SeedAdmin)
    (trace : List Event) :
    (machine env).Always Stable (seeded now admin) trace ↔
      (machine env).Meets (IdentityKept env) (seeded now admin) trace := by
  have hkept : ∀ w e w', Constraints w ∧ Stable w → IdentityKept env w e →
      (machine env).step w e = some w' → Constraints w' ∧ Stable w' := by
    intro w e w' hw hkept hstep
    have hmoved := moved_of_step hstep
    exact ⟨hw.1.moved hmoved, hw.2.moved hw.1 hkept hmoved⟩
  refine Machine.always_iff_meets (fun w hw => hw.2) hkept ?_
    ⟨Constraints.seeded now admin, stable_seeded now admin⟩ trace
  intro w e _ hrival
  exact not_stable_of_rival hrival

/-! ### A shared email -/

/-- A Google account has its row, then the first user gets the same email, and the account
logs in once more. -/
def sharedEmail : List Event :=
  teamLogin ++
    [.putUser (some rootUser)
      ⟨some "1", none, none, none, none, some (some "team@example.com"), none⟩ "s2",
     .googleLogin teamPayload secondToken]

theorem shared_email_unstable :
    ¬ (machine plainEnvironment).Always Stable (seeded 1000 (some rootAdmin)) sharedEmail := by
  intro h
  have hreached : ((machine plainEnvironment).run (seeded 1000 (some rootAdmin)) sharedEmail).any
      (fun w => .googleLogin "g-1" 1 [2] ∈ w.history) = true := by
    decide +kernel
  obtain ⟨w, hrun, hlogged⟩ := (Option.any_eq_true _ _).mp hreached
  have hstable := h sharedEmail [] w (List.append_nil _).symm hrun
  have hopened : (2 : Nat) = 1 :=
    hstable.recognized "g-1" 1 [2] (of_decide_eq_true hlogged) 2 (List.mem_singleton_self 2)
  cases hopened

end MissionControl.Auth.GoogleIdentity
