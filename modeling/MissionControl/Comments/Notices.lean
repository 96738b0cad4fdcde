import MissionControl.Comments.Routes

/-!
Whom a comment is told to. A notification is made for every name among the subscribers but the
name of the author, so people are told once, and commenters are not told of their own comments,
exactly as long as everyone is subscribed under one name.
-/

set_option autoImplicit false
set_option relaxedAutoImplicit false

namespace MissionControl.Comments.Notices

open MissionControl.Auth.Accounts (UserRow)
open MissionControl.Comments.Mentions
open MissionControl.Comments.Routes
open MissionControl.Events.Producers (Caller)
open MissionControl.Events.Stores
open MissionControl.Foundations.JsText
open MissionControl.Foundations.Lists
open MissionControl.Foundations.Query (FirstBy)
open MissionControl.Foundations.Schema (Json)
open MissionControl.Foundations.Transition (Machine)
open MissionControl.Tasks.Database (Response Task sorts_newer sorts_queue task?_id)

/-! ### People and their names -/

/-- Whether a name is one of those of a person of the workspace: the username or the display name
of a user, or the name of an agent, also without the blanks around it. -/
def goesBy (users : List UserRow) (agents : List Agent) (workspaceId : Nat) :
    Person → String → Bool
  | .user id, name => users.any fun user => user.id = id ∧ user.workspaceId = workspaceId ∧
      (name = user.username ∨ name = trim user.username ∨ name = user.displayName ∧ name ≠ "")
  | .agent id, name => agents.any fun agent => agent.id = id ∧ agent.workspaceId = workspaceId ∧
      (name = agent.name ∨ name = trim agent.name)
  | .apiKey, name => name = "api" ∨ name = "API Access"

/-- Whether a person is what a target stands for. -/
def isTarget (users : List UserRow) (agents : List Agent) (workspaceId : Nat)
    (target : MentionTarget) : Person → Bool
  | .user id => target.type = .user ∧ users.any fun user =>
      user.id = id ∧ user.workspaceId = workspaceId ∧ target.recipient = trim user.username
  | .agent id => target.type = .agent ∧ agents.any fun agent =>
      agent.id = id ∧ agent.workspaceId = workspaceId ∧ target.recipient = trim agent.name
  | .apiKey => false

/-- Whether a text mentions a person: one of its tokens leads to them. -/
def isMentioned (users : List UserRow) (agents : List Agent) (workspaceId : Nat) (text : String)
    (person : Person) : Bool :=
  (parseMentions text).any fun token =>
    (targetOf (getMentionTargets users agents workspaceId) token).any fun target =>
      isTarget users agents workspaceId target person

/-! ### The promise and the condition -/

/-- The notifications that a step adds. -/
def createdNotices (b b' : Board) : List Notification :=
  b'.world.notifications.drop b.world.notifications.length

/-- Every subscriber who is someone else than the commenter is told exactly once, by a mention
exactly if the comment mentions them, and the commenter is not told. -/
structure Notified (users : List UserRow) (b b' : Board) (workspaceId : Nat) (commenter : Person)
    (taskId : Nat) (content : String) : Prop where
  others : ∀ person, person ≠ commenter →
    (∃ name ∈ b'.getTaskSubscribers taskId workspaceId,
      goesBy users b.world.agents workspaceId person name = true) →
    ∃ notice, (createdNotices b b').filter (fun notice =>
        goesBy users b.world.agents workspaceId person notice.recipient) = [notice] ∧
      (notice.type = "mention" ↔
        isMentioned users b.world.agents workspaceId content person = true)
  commenter : ∀ notice ∈ createdNotices b b',
    goesBy users b.world.agents workspaceId commenter notice.recipient = false

/-- A comment that is accepted is told as promised. -/
def Notifies (setting : Setting) (b : Board) : Event → Prop
  | .comment workspaceId person taskId json =>
    ∀ caller body commentId b', callerOf setting b workspaceId person = some caller →
      parseComment json = .ok body →
      postComment setting.users b workspaceId caller taskId json = (b', .created commentId) →
      Notified setting.users b b' workspaceId person taskId body.content
  | _ => True

/-- The request is for a task of the workspace, replies to a comment on it if to any, and mentions
nobody that is not known. -/
structure Accepted (users : List UserRow) (b : Board) (workspaceId taskId : Nat) (json : Json)
    (body : CommentBody) (task : Task) : Prop where
  parses : parseComment json = .ok body
  found : b.world.tasks.task? workspaceId taskId = some task
  parent : ∀ id, body.parentId = some id → id ≠ 0 → (parentComment b taskId workspaceId id).isSome
  known : (resolveMentionRecipients users b.world.agents workspaceId body.content).unresolved = []

/-- Everyone but the commenter who goes by one of the names goes by exactly one besides that of the
author, which is a recipient of the mentions exactly if the text mentions them; the commenter goes
by none but that of the author. -/
structure OneName (users : List UserRow) (agents : List Agent) (workspaceId : Nat)
    (commenter : Person) (author content : String) (names : List String) : Prop where
  others : ∀ person, person ≠ commenter →
    (∃ name ∈ names, goesBy users agents workspaceId person name = true) →
    ∃ name ∈ names, name ≠ author ∧ goesBy users agents workspaceId person name = true ∧
      (∀ other ∈ names, other ≠ author →
        goesBy users agents workspaceId person other = true → other = name) ∧
      (name ∈ (resolveMentionRecipients users agents workspaceId content).recipients ↔
        isMentioned users agents workspaceId content person = true)
  commenter : ∀ name ∈ names,
    goesBy users agents workspaceId commenter name = true → name = author

/-- The names that a task is subscribed under once a comment has subscribed its own. -/
def namesWith (users : List UserRow) (b : Board) (workspaceId taskId : Nat) (author content : String)
    (task : Task) : List String :=
  b.getTaskSubscribers taskId workspaceId ++
    (subscribedBy author
      (resolveMentionRecipients users b.world.agents workspaceId content).recipients task).filter
        (· ≠ "")

/-- The names that a comment meets or adds give everyone one name. -/
def NamesAgree (setting : Setting) (b : Board) : Event → Prop
  | .comment workspaceId person taskId json =>
    ∀ caller body task, callerOf setting b workspaceId person = some caller →
      Accepted setting.users b workspaceId taskId json body task →
      OneName setting.users b.world.agents workspaceId person (authorOf caller) body.content
        (namesWith setting.users b workspaceId taskId (authorOf caller) body.content task)
  | _ => True

/-! ### Subscriptions -/

section

variable {b : Board} {taskId workspaceId : Nat} {name : String} {names : List String}

theorem ensureTaskSubscription_world (b : Board) (taskId : Nat) (name : String)
    (workspaceId : Nat) : (b.ensureTaskSubscription taskId name workspaceId).world = b.world := by
  unfold Board.ensureTaskSubscription
  split
  · rfl
  · split <;> rfl

theorem ensureTaskSubscriptions_world (b : Board) (taskId workspaceId : Nat)
    (names : List String) :
    (b.ensureTaskSubscriptions taskId workspaceId names).world = b.world := by
  unfold Board.ensureTaskSubscriptions
  induction names generalizing b with
  | nil => rfl
  | cons name names ih =>
    rw [List.foldl_cons, ih]
    exact ensureTaskSubscription_world b taskId name workspaceId

theorem mem_getTaskSubscribers : name ∈ b.getTaskSubscribers taskId workspaceId ↔
    (b.world.tasks.task? workspaceId taskId).isSome ∧ ⟨taskId, name⟩ ∈ b.subscriptions := by
  unfold Board.getTaskSubscribers
  split
  · rename_i hsome
    simp only [List.mem_map, List.mem_filter, decide_eq_true_eq, hsome, true_and]
    constructor
    · rintro ⟨⟨_, _⟩, ⟨hmem, rfl⟩, rfl⟩
      exact hmem
    · intro hmem
      exact ⟨⟨taskId, name⟩, ⟨hmem, rfl⟩, rfl⟩
  · rename_i hnone
    simp [hnone]

/-- A subscription of a task that the workspace has adds its name, if it is not empty. -/
theorem mem_ensureTaskSubscription {agentName : String}
    (htask : (b.world.tasks.task? workspaceId taskId).isSome) :
    name ∈ (b.ensureTaskSubscription taskId agentName workspaceId).getTaskSubscribers taskId
        workspaceId ↔
      name ∈ b.getTaskSubscribers taskId workspaceId ∨ name = agentName ∧ name ≠ "" := by
  rw [mem_getTaskSubscribers, mem_getTaskSubscribers, ensureTaskSubscription_world]
  simp only [htask, true_and]
  unfold Board.ensureTaskSubscription
  by_cases hempty : agentName = ""
  · rw [if_pos hempty]
    constructor
    · exact .inl
    · rintro (hmem | ⟨rfl, hne⟩)
      · exact hmem
      · exact absurd hempty hne
  · rw [if_neg hempty]
    by_cases hthere : (⟨taskId, agentName⟩ : Subscription) ∈ b.subscriptions
    · rw [if_pos (.inr hthere)]
      constructor
      · exact .inl
      · rintro (hmem | ⟨rfl, -⟩)
        · exact hmem
        · exact hthere
    · rw [if_neg (by simp [Option.isSome_iff_ne_none.mp htask, hthere])]
      simp only [List.mem_append, List.mem_singleton, Subscription.mk.injEq, true_and]
      constructor
      · rintro (hmem | rfl)
        · exact .inl hmem
        · exact .inr ⟨rfl, hempty⟩
      · rintro (hmem | ⟨rfl, -⟩)
        · exact .inl hmem
        · exact .inr rfl

theorem mem_ensureTaskSubscriptions
    (htask : (b.world.tasks.task? workspaceId taskId).isSome) :
    name ∈ (b.ensureTaskSubscriptions taskId workspaceId names).getTaskSubscribers taskId
        workspaceId ↔
      name ∈ b.getTaskSubscribers taskId workspaceId ∨ name ∈ names.filter (· ≠ "") := by
  unfold Board.ensureTaskSubscriptions
  induction names generalizing b with
  | nil => simp
  | cons first names ih =>
    have hnext : ((b.ensureTaskSubscription taskId first workspaceId).world.tasks.task? workspaceId
        taskId).isSome := by
      rwa [ensureTaskSubscription_world]
    rw [List.foldl_cons, ih hnext, mem_ensureTaskSubscription htask]
    simp only [List.mem_filter, List.mem_cons, decide_eq_true_eq]
    constructor
    · rintro ((hmem | ⟨rfl, hne⟩) | ⟨hmem, hne⟩)
      · exact .inl hmem
      · exact .inr ⟨.inl rfl, hne⟩
      · exact .inr ⟨.inr hmem, hne⟩
    · rintro (hmem | ⟨rfl | hmem, hne⟩)
      · exact .inl (.inl hmem)
      · exact .inl (.inr ⟨rfl, hne⟩)
      · exact .inr ⟨hmem, hne⟩

end

/-! ### Notifications -/

section

/-- The type of the notification of a name. -/
def noticeType (recipients : List String) (name : String) : String :=
  if name ∈ recipients then "mention" else "comment"

variable (author title content : String) (recipients : List String) (commentId workspaceId : Nat)

/-- One subscriber is sent one notification. -/
theorem notifySubscriber_notifications (w : World) (name : String) :
    ∃ notice : Notification, notice.recipient = name ∧ notice.type = noticeType recipients name ∧
      (notifySubscriber author title content recipients commentId workspaceId w
        name).notifications = w.notifications ++ [notice] := by
  unfold notifySubscriber noticeType
  dsimp only
  split
  · exact ⟨_, rfl, rfl, rfl⟩
  · exact ⟨_, rfl, rfl, rfl⟩

theorem notifySubscriber_tasks (w : World) (name : String) :
    (notifySubscriber author title content recipients commentId workspaceId w name).tasks =
      w.tasks := by
  unfold notifySubscriber
  dsimp only
  split <;> rfl

/-- The subscribers are sent one notification each, in their order. -/
theorem notifySubscribers_notifications (w : World) (names : List String) :
    ∃ notices : List Notification, notices.map Notification.recipient = names ∧
      (∀ notice ∈ notices, notice.type = noticeType recipients notice.recipient) ∧
      (names.foldl (notifySubscriber author title content recipients commentId workspaceId)
        w).notifications = w.notifications ++ notices := by
  induction names generalizing w with
  | nil => exact ⟨[], rfl, by simp, by simp⟩
  | cons name names ih =>
    obtain ⟨notice, rfl, htype, hfirst⟩ := notifySubscriber_notifications author
      title content recipients commentId workspaceId w name
    obtain ⟨notices, hnames, htypes, hrest⟩ := ih (notifySubscriber author title content recipients
      commentId workspaceId w notice.recipient)
    refine ⟨notice :: notices, by rw [List.map_cons, hnames], ?_, ?_⟩
    · exact List.forall_mem_cons.mpr ⟨htype, htypes⟩
    · rw [List.foldl_cons, hrest, hfirst, List.append_assoc, List.singleton_append]

theorem notifySubscribers_tasks (w : World) (names : List String) :
    (names.foldl (notifySubscriber author title content recipients commentId workspaceId)
      w).tasks = w.tasks := by
  induction names generalizing w with
  | nil => rfl
  | cons name names ih => rw [List.foldl_cons, ih, notifySubscriber_tasks]

end

/-- Exactly one entry is for a person where exactly one of the names is theirs. -/
theorem one_notice_iff {notices : List Notification} {p : String → Bool} {q : Prop}
    {recipients : List String} (hnodup : (notices.map Notification.recipient).Nodup)
    (htype : ∀ notice ∈ notices, notice.type = noticeType recipients notice.recipient) :
    (∃ notice, notices.filter (fun notice => p notice.recipient) = [notice] ∧
        (notice.type = "mention" ↔ q)) ↔
      ∃ name ∈ notices.map Notification.recipient, p name = true ∧
        (∀ other ∈ notices.map Notification.recipient, p other = true → other = name) ∧
        (name ∈ recipients ↔ q) := by
  have hmention : ∀ notice ∈ notices,
      (notice.type = "mention" ↔ notice.recipient ∈ recipients) := by
    intro notice hnotice
    rw [htype notice hnotice, noticeType]
    split
    · rename_i hmem
      exact iff_of_true rfl hmem
    · rename_i hmem
      exact iff_of_false (by decide) hmem
  have hnotices : notices.Nodup := hnodup.of_map
  constructor
  · rintro ⟨notice, hfilter, hq⟩
    obtain ⟨hmem, hp, honly⟩ := (filter_eq_singleton_iff hnotices).mp hfilter
    refine ⟨notice.recipient, List.mem_map_of_mem hmem, hp, ?_, (hmention notice hmem).symm.trans hq⟩
    intro other hother hpother
    obtain ⟨notice', hmem', rfl⟩ := List.mem_map.mp hother
    rw [honly notice' hmem' hpother]
  · rintro ⟨name, hname, hp, honly, hq⟩
    obtain ⟨notice, hmem, rfl⟩ := List.mem_map.mp hname
    refine ⟨notice, (filter_eq_singleton_iff hnotices).mpr ⟨hmem, hp, ?_⟩,
      (hmention notice hmem).trans hq⟩
    intro notice' hmem' hp'
    exact List.inj_on_of_nodup_map hnodup hmem' hmem
      (honly notice'.recipient (List.mem_map_of_mem hmem') hp')

/-! ### What an accepted comment does -/

section

variable {users : List UserRow} {b b' : Board} {workspaceId taskId commentId : Nat} {caller : Caller}
  {json : Json} {body : CommentBody} {task : Task}

/-- What a comment leaves: the subscribers that it meets or adds, and a notification for each of
their names but that of the author. -/
structure Told (users : List UserRow) (b b' : Board) (workspaceId taskId : Nat)
    (author content : String) (task : Task) : Prop where
  subscribers : ∀ name, name ∈ b'.getTaskSubscribers taskId workspaceId ↔
    name ∈ namesWith users b workspaceId taskId author content task
  notices : ∃ notices, createdNotices b b' = notices ∧
    (notices.map Notification.recipient).Nodup ∧
    (∀ name, name ∈ notices.map Notification.recipient ↔
      name ∈ namesWith users b workspaceId taskId author content task ∧ name ≠ author) ∧
    ∀ notice ∈ notices, notice.type = noticeType
      (resolveMentionRecipients users b.world.agents workspaceId content).recipients
      notice.recipient

/-- The names to notify are those of the subscribers but that of the author, each of them once. -/
theorem mem_notifiedNames {author name : String} :
    name ∈ notifiedNames b taskId workspaceId author ↔
      name ∈ b.getTaskSubscribers taskId workspaceId ∧ name ≠ author := by
  have hkept : name ∈ keepFirst id [] (b.getTaskSubscribers taskId workspaceId) ↔
      name ∈ b.getTaskSubscribers taskId workspaceId := by
    have hmap : name ∈ (keepFirst id [] (b.getTaskSubscribers taskId workspaceId)).map id ↔ _ :=
      mem_map_keepFirst
    simpa using hmap
  rw [notifiedNames, List.mem_filter, decide_eq_true_eq, hkept]

theorem nodup_notifiedNames (b : Board) (taskId workspaceId : Nat) (author : String) :
    (notifiedNames b taskId workspaceId author).Nodup := by
  have hkept : (keepFirst id [] (b.getTaskSubscribers taskId workspaceId)).Nodup := by
    have hmap : ((keepFirst id [] (b.getTaskSubscribers taskId workspaceId)).map id).Nodup :=
      nodup_map_keepFirst [] _
    simpa using hmap
  exact hkept.filter _

/-- What a comment writes once it is accepted. -/
theorem told_writeComment (author : String) (parent : Option Comment) (body : CommentBody)
    (htask : b.world.tasks.task? workspaceId task.id = some task) :
    Told users b (writeComment b workspaceId author task body parent
      (resolveMentionRecipients users b.world.agents workspaceId body.content)) workspaceId task.id
      author body.content task := by
  unfold writeComment
  dsimp only
  set resolution := resolveMentionRecipients users b.world.agents workspaceId body.content with hres
  set inserted := insertComment b _ task body.parentId resolution.tokens with hinserted
  set subscribed := inserted.ensureTaskSubscriptions task.id workspaceId
    (subscribedBy author resolution.recipients task) with hsubscribed
  have hworld : subscribed.world = inserted.world := ensureTaskSubscriptions_world ..
  have hnames : ∀ name, name ∈ subscribed.getTaskSubscribers task.id workspaceId ↔
      name ∈ namesWith users b workspaceId task.id author body.content task := by
    intro name
    have hfound : (inserted.world.tasks.task? workspaceId task.id).isSome := by
      change (b.world.tasks.task? workspaceId task.id).isSome
      rw [htask]
      rfl
    rw [hsubscribed, mem_ensureTaskSubscriptions hfound, namesWith, List.mem_append]
    rfl
  obtain ⟨notices, hrecipients, htypes, hwritten⟩ := notifySubscribers_notifications author task.title
    body.content resolution.recipients b.nextCommentId workspaceId subscribed.world
    (notifiedNames subscribed task.id workspaceId author)
  refine ⟨?_, notices, ?_, ?_, ?_, htypes⟩
  · intro name
    rw [mem_getTaskSubscribers, notifySubscribers_tasks, ← mem_getTaskSubscribers]
    exact hnames name
  · rw [createdNotices, hwritten, hworld]
    exact List.drop_left
  · rw [hrecipients]
    exact nodup_notifiedNames subscribed task.id workspaceId author
  · intro name
    rw [hrecipients, mem_notifiedNames, hnames]

/-- An accepted comment is written. -/
theorem postComment_eq (caller : Caller)
    (h : Accepted users b workspaceId taskId json body task) :
    ∃ parent, postComment users b workspaceId caller taskId json =
      (writeComment b workspaceId (authorOf caller) task body parent
        (resolveMentionRecipients users b.world.agents workspaceId body.content),
        .created b.nextCommentId) := by
  have hparent : (body.parentId.filter (· ≠ 0)).map (parentComment b taskId workspaceId) ≠
      some none := by
    intro hcontra
    obtain ⟨id, hid, hnone⟩ := Option.map_eq_some_iff.mp hcontra
    obtain ⟨hid, hne⟩ := Option.filter_eq_some_iff.mp hid
    have hsome := h.parent id hid (by simpa using hne)
    rw [hnone] at hsome
    cases hsome
  refine ⟨((body.parentId.filter (· ≠ 0)).map (parentComment b taskId workspaceId)).bind id, ?_⟩
  unfold postComment
  simp only [h.parses, h.found, if_neg hparent, h.known, ne_eq, not_true_eq_false, if_false]

/-- An accepted comment is created, and told. -/
theorem postComment_of_accepted (caller : Caller)
    (h : Accepted users b workspaceId taskId json body task) :
    ∃ b', postComment users b workspaceId caller taskId json = (b', .created b.nextCommentId) ∧
      Told users b b' workspaceId taskId (authorOf caller) body.content task := by
  obtain rfl : task.id = taskId := task?_id h.found
  obtain ⟨parent, heq⟩ := postComment_eq caller h
  exact ⟨_, heq, told_writeComment (authorOf caller) parent body h.found⟩

theorem accepted_of_created
    (h : postComment users b workspaceId caller taskId json = (b', .created commentId)) :
    ∃ body task, Accepted users b workspaceId taskId json body task := by
  unfold postComment at h
  cases hbody : parseComment json with
  | error issues =>
    rw [hbody] at h
    cases h
  | ok body =>
    cases htask : b.world.tasks.task? workspaceId taskId with
    | none =>
      simp only [hbody, htask] at h
      cases h
    | some task =>
      simp only [hbody, htask] at h
      split at h
      · cases h
      · rename_i hparent
        split at h
        · cases h
        · rename_i hknown
          refine ⟨body, task, hbody, htask, ?_, by simpa using hknown⟩
          intro id hid hne
          apply Option.isSome_iff_ne_none.mpr
          intro hnone
          apply hparent
          simp [hid, Option.filter, hne, hnone]

end

/-! ### Histories -/

/-- What is told is as promised exactly when the names give everyone one name. -/
theorem notified_iff {users : List UserRow} {b b' : Board} {workspaceId taskId : Nat}
    {commenter : Person} {author content : String} {task : Task}
    (h : Told users b b' workspaceId taskId author content task) :
    Notified users b b' workspaceId commenter taskId content ↔
      OneName users b.world.agents workspaceId commenter author content
        (namesWith users b workspaceId taskId author content task) := by
  obtain ⟨notices, hcreated, hnodup, hnames, htypes⟩ := h.notices
  constructor
  · intro hnotified
    constructor
    · rintro person hperson ⟨name, hname, hgoes⟩
      have hone := hnotified.others person hperson ⟨name, (h.subscribers name).mpr hname, hgoes⟩
      rw [hcreated] at hone
      obtain ⟨name, hmem, hgoes, honly, hmention⟩ := (one_notice_iff hnodup htypes).mp hone
      obtain ⟨hname, hne⟩ := (hnames name).mp hmem
      refine ⟨name, hname, hne, hgoes, ?_, hmention⟩
      intro other hother hneOther hgoesOther
      exact honly other ((hnames other).mpr ⟨hother, hneOther⟩) hgoesOther
    · intro name hname hgoes
      by_contra hne
      obtain ⟨notice, hnotice, rfl⟩ := List.mem_map.mp ((hnames name).mpr ⟨hname, hne⟩)
      have hnot := hnotified.commenter notice (by rw [hcreated]; exact hnotice)
      rw [hgoes] at hnot
      cases hnot
  · intro hagree
    constructor
    · rintro person hperson ⟨name, hname, hgoes⟩
      obtain ⟨name, hname, hne, hgoes, honly, hmention⟩ :=
        hagree.others person hperson ⟨name, (h.subscribers name).mp hname, hgoes⟩
      rw [hcreated]
      refine (one_notice_iff hnodup htypes).mpr ⟨name, (hnames name).mpr ⟨hname, hne⟩, hgoes, ?_,
        hmention⟩
      intro other hother hgoesOther
      obtain ⟨hmem, hneOther⟩ := (hnames other).mp hother
      exact honly other hmem hneOther hgoesOther
    · intro notice hnotice
      rw [hcreated] at hnotice
      obtain ⟨hname, hne⟩ := (hnames notice.recipient).mp (List.mem_map_of_mem hnotice)
      rw [← Bool.not_eq_true]
      intro hgoes
      exact hne (hagree.commenter notice.recipient hname hgoes)

variable (setting : Setting)

/-- A step tells its comment as promised exactly when the names agree. -/
theorem notifies_iff (b : Board) (e : Event) : Notifies setting b e ↔ NamesAgree setting b e := by
  cases e with
  | wait milliseconds => exact Iff.rfl
  | task workspaceId person request => exact Iff.rfl
  | comment workspaceId person taskId json =>
    constructor
    · intro hnotifies caller body task hcaller haccepted
      obtain ⟨b', hpost, htold⟩ := postComment_of_accepted caller haccepted
      exact (notified_iff htold).mp
        (hnotifies caller body b.nextCommentId b' hcaller haccepted.parses hpost)
    · intro hagree caller body commentId b' hcaller hparses hpost
      obtain ⟨body', task, haccepted⟩ := accepted_of_created hpost
      obtain rfl : body = body' := Except.ok.inj (hparses.symm.trans haccepted.parses)
      obtain ⟨last, hcreated, htold⟩ := postComment_of_accepted caller haccepted
      obtain rfl : b' = last := (Prod.mk.inj (hpost.symm.trans hcreated)).1
      exact (notified_iff htold).mpr (hagree caller body task hcaller haccepted)

/-- In a history every comment is told as promised exactly when every comment meets names that
agree. -/
theorem comments_notify_iff (b : Board) (trace : List Event) :
    (machine setting).Meets (Notifies setting) b trace ↔
      (machine setting).Meets (NamesAgree setting) b trace := by
  have hagree : ∀ b, True → ∀ e, Notifies setting b e ↔ NamesAgree setting b e :=
    fun b _ e => notifies_iff setting b e
  exact Machine.meets_congr hagree (fun _ _ _ _ _ => trivial) trivial trace

/-! ### Someone with two names -/

def account (id : Nat) (username displayName : String) : UserRow where
  id := id
  username := username
  displayName := displayName
  passwordHash := ""
  role := "operator"
  provider := .localAccount
  providerUserId := none
  email := none
  avatarUrl := none
  isApproved := 1
  approvedBy := none
  approvedAt := none
  workspaceId := 1
  updatedAt := 0
  lastLoginAt := none

/-- Two users, of whom one is displayed under another name than the one to log in with. -/
def twoUsers : Setting where
  users := [account 1 "ada" "Ada Lovelace", account 2 "bob" "Bob"]
  defaultWorkspace := 1
  latestReview := FirstBy.first sorts_newer
  nextTask := FirstBy.first sorts_queue

def sampleBoard : Board where
  world :=
    { tasks := Tasks.Routes.sampleDb
      rooms := .empty 1000000
      agents := []
      messages := []
      activities := []
      notifications := []
      forwarding := []
      nextAgentId := 1
      nextMessageId := 1
      nextActivityId := 1
      nextNotificationId := 1
      clients := [] }
  subscriptions := []
  comments := []
  nextCommentId := 1

/-- The first user creates a task, and the second mentions her in a comment on it. -/
def sampleHistory : List Event :=
  [.task 1 (.user 1) (.postTask (.object [("title", .string "Fix the login")])),
    .comment 1 (.user 2) 2 (.object [("content", .string "@ada please have a look")])]

/-- She is told twice: by a mention under the name that the text mentions, and by another
notification under the name that she created the task with. -/
theorem told_twice : ¬ (machine twoUsers).Meets (Notifies twoUsers) sampleBoard sampleHistory := by
  rintro ⟨-, hrest⟩
  obtain ⟨hnotifies, -⟩ := hrest _ rfl
  have hnotified := hnotifies _ _ _ _ rfl rfl (Prod.ext rfl (by decide +kernel))
  obtain ⟨notice, hone, -⟩ := hnotified.others (.user 1) (by decide)
    ⟨"ada", by decide +kernel, by decide +kernel⟩
  have hcount := congrArg List.length hone
  rw [List.length_singleton] at hcount
  revert hcount
  decide +kernel

end MissionControl.Comments.Notices
