import Mathlib.Data.List.Forall2
import MissionControl.Comments.Notices
import MissionControl.Foundations.Forests

/-!
The comments of a task as threads. A map has an object for every comment; a comment that names a
parent is added to the replies of the parent's object, and the others are at the top. A parent is a
comment of the same task that is older, as comments lose the parent that is removed.
-/

set_option autoImplicit false
set_option relaxedAutoImplicit false

namespace MissionControl.Comments.Threads

open MissionControl.Auth.Accounts (UserRow)
open MissionControl.Comments.Mentions
open MissionControl.Comments.Notices
open MissionControl.Comments.Routes
open MissionControl.Events.Producers (Caller)
open MissionControl.Events.Stores
open MissionControl.Foundations.Forests
open MissionControl.Foundations.JsText
open MissionControl.Foundations.Lists
open MissionControl.Foundations.Query
open MissionControl.Foundations.Schema
open MissionControl.Foundations.Transition (Machine)
open MissionControl.Tasks.Database (Effect Task task?_id)

/-! ### The route -/

/-- `ORDER BY created_at ASC`. -/
def Earlier (c c' : Comment) : Prop := c.createdAt ≤ c'.createdAt

instance decidableEarlier : DecidableRel Earlier :=
  fun c c' => inferInstanceAs (Decidable (c.createdAt ≤ c'.createdAt))

/-- An object of the map: the comment, and the ids of the objects among its replies. -/
structure CommentWithReplies where
  comment : Comment
  replies : List Nat
  deriving DecidableEq

/-- The map and the list that the passes over the comments fill. -/
structure Organized where
  commentMap : List (Nat × CommentWithReplies)
  topLevelComments : List Nat
  deriving DecidableEq

/-- `commentMap.set(comment.id, { ...comment, replies: [] })`. -/
def register (m : List (Nat × CommentWithReplies)) (comment : Comment) :
    List (Nat × CommentWithReplies) :=
  if comment.id ∈ m.map Prod.fst then
    m.map fun e => if e.1 = comment.id then (comment.id, ⟨comment, []⟩) else e
  else m ++ [(comment.id, ⟨comment, []⟩)]

/-- `parent.replies.push(commentWithReplies)`, if the map has the parent. -/
def pushReply (m : List (Nat × CommentWithReplies)) (parentId id : Nat) :
    List (Nat × CommentWithReplies) :=
  m.map fun e => if e.1 = parentId then (e.1, { e.2 with replies := e.2.replies ++ [id] }) else e

/-- The parent that a comment names; 0 is none. -/
def parentOf (comment : Comment) : Option Nat := comment.parentId.filter (· ≠ 0)

def organize (o : Organized) (comment : Comment) : Organized :=
  match parentOf comment with
  | some parentId => { o with commentMap := pushReply o.commentMap parentId comment.id }
  | none => { o with topLevelComments := o.topLevelComments ++ [comment.id] }

def organized (comments : List Comment) : Organized :=
  comments.foldl organize ⟨comments.foldl register [], []⟩

/-- What is written for an object. One that is among its own replies cannot be written, and no way
down through different objects is longer than the map. -/
def written (m : List (Nat × CommentWithReplies)) : Nat → Nat → Option (RoseTree Comment)
  | 0, _ => none
  | fuel + 1, id =>
    (m.lookup id).bind fun object =>
      (object.replies.mapM (written m fuel)).map (RoseTree.node object.comment)

def threadsOf (comments : List Comment) : Option (List (RoseTree Comment)) :=
  let o := organized comments
  o.topLevelComments.mapM (written o.commentMap o.commentMap.length)

/-- `mentions: comment.mentions ? JSON.parse(comment.mentions) : []`. -/
def withParsedData (comment : Comment) : Comment :=
  { comment with mentions := some (comment.mentions.getD []) }

def taskComments (b : Board) (taskId workspaceId : Nat) : List Comment :=
  b.comments.filter fun c => c.taskId = taskId ∧ c.workspaceId = workspaceId

/-- `GET /api/tasks/[id]/comments`: the threads and the total, or a status and an error. -/
def getComments (order : OrderBy Earlier) (b : Board) (workspaceId : Nat) (id : String) :
    Except (Nat × String) (List (RoseTree Comment) × Nat) :=
  match parseInt id with
  | none => .error (400, "Invalid task ID")
  | some (.negSucc _) => .error (404, "Task not found")
  | some (.ofNat taskId) =>
    match b.world.tasks.task? workspaceId taskId with
    | none => .error (404, "Task not found")
    | some _ =>
      let comments := order.arrange (taskComments b taskId workspaceId)
      match threadsOf (comments.map withParsedData) with
      | none => .error (500, "Failed to fetch comments")
      | some threads => .ok (threads, comments.length)

/-! ### Histories -/

/-- `addComment` of the integration, which names no parent. -/
def addComment (b : Board) (workspaceId taskId : Nat) (author content : String)
    (metadata : Json) : Board :=
  { b with
    comments := b.comments ++
      [{ id := b.nextCommentId
         taskId := taskId
         author := author
         content := content
         createdAt := b.world.now
         parentId := none
         mentions := none
         workspaceId := workspaceId }]
    nextCommentId := b.nextCommentId + 1
    world := b.world.logActivity "comment_added" "comment" b.nextCommentId author
      ("Added comment to task " ++ toString taskId)
      (some (.object [("source", .string "nimbus-integration"), ("metadata", metadata)]))
      workspaceId }

/-- A comment is removed, and its replies lose their parent. -/
def removeComment (b : Board) (id : Nat) : Board :=
  { b with
    comments := (b.comments.filter fun c => c.id ≠ id).map fun c =>
      if c.parentId = some id then { c with parentId := none } else c }

inductive Event where
  | request (e : Routes.Event)
  | addComment (workspaceId taskId : Nat) (author content : String) (metadata : Json)
  | removeComment (id : Nat)

def machine (setting : Setting) : Machine Board Event where
  step b
    | .request e => (Routes.machine setting).step b e
    | .addComment workspaceId taskId author content metadata =>
      some (addComment b workspaceId taskId author content metadata)
    | .removeComment id => some (removeComment b id)

/-! ### The two passes -/

theorem foldl_register {comments : List Comment} (hnodup : (comments.map Comment.id).Nodup) :
    comments.foldl register [] = comments.map fun c => (c.id, ⟨c, []⟩) := by
  induction comments using List.reverseRecOn with
  | nil => rfl
  | append_singleton comments c ih =>
    rw [List.map_append, List.nodup_append] at hnodup
    obtain ⟨hnodup, -, hdisjoint⟩ := hnodup
    have hnew : c.id ∉ (comments.map fun c => (c.id, (⟨c, []⟩ : CommentWithReplies))).map
        Prod.fst := by
      rw [List.map_map]
      intro hmem
      exact hdisjoint c.id hmem c.id (List.mem_singleton_self _) rfl
    rw [List.foldl_append, ih hnodup, List.foldl_cons, List.foldl_nil, register, if_neg hnew,
      List.map_append, List.map_singleton]

/-- After the second pass has gone over some of the comments. -/
theorem foldl_organize (comments done : List Comment) :
    done.foldl organize ⟨comments.map fun c => (c.id, ⟨c, []⟩), []⟩ =
      ⟨comments.map fun c => (c.id, ⟨c, (childrenOf Comment.id parentOf done c).map Comment.id⟩),
        (roots parentOf done).map Comment.id⟩ := by
  induction done using List.reverseRecOn with
  | nil => rfl
  | append_singleton done c ih =>
    rw [List.foldl_append, ih, List.foldl_cons, List.foldl_nil, organize]
    cases hparent : parentOf c with
    | none => simp [childrenOf, roots, hparent]
    | some parentId =>
      simp only [pushReply, List.map_map, Organized.mk.injEq]
      constructor
      · apply List.map_congr_left
        intro p _
        by_cases hp : p.id = parentId
        · simp [childrenOf, hparent, hp]
        · simp [childrenOf, hparent, hp, Ne.symm hp]
      · simp [roots, hparent]

theorem lookup_map_of_mem {β : Type} {comments : List Comment}
    (hnodup : (comments.map Comment.id).Nodup) (f : Comment → β) {c : Comment}
    (hc : c ∈ comments) : (comments.map fun c => (c.id, f c)).lookup c.id = some (f c) := by
  induction comments with
  | nil => cases hc
  | cons d comments ih =>
    obtain ⟨hd, hnodup⟩ := List.nodup_cons.mp hnodup
    rcases List.mem_cons.mp hc with rfl | hc
    · simp
    · have hne : c.id ≠ d.id := fun hsame => hd (hsame ▸ List.mem_map_of_mem hc)
      rw [List.map_cons, List.lookup_cons, beq_eq_false_iff_ne.mpr hne]
      exact ih hnodup hc

/-- What is written for a comment is grown from it. -/
theorem written_eq_grow {comments : List Comment} (hnodup : (comments.map Comment.id).Nodup)
    (fuel : Nat) {c : Comment} (hc : c ∈ comments) :
    written (organized comments).commentMap fuel c.id =
      RoseTree.grow (childrenOf Comment.id parentOf comments) fuel c := by
  induction fuel generalizing c with
  | zero => rfl
  | succ fuel ih =>
    have hmap : (organized comments).commentMap = comments.map fun c =>
        (c.id, ⟨c, (childrenOf Comment.id parentOf comments c).map Comment.id⟩) := by
      rw [organized, foldl_register hnodup, foldl_organize]
    rw [written, hmap, lookup_map_of_mem hnodup _ hc, ← hmap, Option.bind_some, RoseTree.grow]
    apply congrArg (Option.map (RoseTree.node c))
    rw [List.mapM_map]
    have hsame : ∀ ds : List Comment, (∀ d ∈ ds, d ∈ comments) →
        ds.mapM (written (organized comments).commentMap fuel ∘ Comment.id) =
          ds.mapM (RoseTree.grow (childrenOf Comment.id parentOf comments) fuel) := by
      intro ds hds
      induction ds with
      | nil => rfl
      | cons d ds ihds =>
        have hd := ih (hds d List.mem_cons_self)
        rw [List.mapM_cons, List.mapM_cons, Function.comp_apply, hd,
          ihds fun d' hd' => hds d' (List.mem_cons_of_mem d hd')]
    exact hsame _ fun d hd => List.mem_of_mem_filter hd

/-! ### Parents -/

/-- Every comment that names a parent is a reply to an older comment of its task. -/
structure Threaded (b : Board) : Prop where
  keyed : Keyed Comment.id b.comments b.nextCommentId
  counted : 0 < b.nextCommentId
  positive : ∀ c ∈ b.comments, 0 < c.id
  parents : ∀ c ∈ b.comments, ∀ p ∈ c.parentId, ∃ a ∈ b.comments, a.id = p ∧ a.id < c.id ∧
    a.taskId = c.taskId ∧ a.workspaceId = c.workspaceId

variable {setting : Setting} {users : List UserRow} {b b' : Board} {taskId workspaceId : Nat}

/-- The comments stay as they are. -/
def SameComments (b b' : Board) : Prop :=
  b'.comments = b.comments ∧ b'.nextCommentId = b.nextCommentId

/-- A comment is added, whose parent is a comment of its task. -/
def Added (b b' : Board) : Prop :=
  ∃ c, b'.comments = b.comments ++ [c] ∧ b'.nextCommentId = b.nextCommentId + 1 ∧
    c.id = b.nextCommentId ∧ ∀ p ∈ c.parentId, ∃ a ∈ b.comments, a.id = p ∧
      a.taskId = c.taskId ∧ a.workspaceId = c.workspaceId

theorem Threaded.same (h : Threaded b) (hsame : SameComments b b') : Threaded b' := by
  obtain ⟨hcomments, hnext⟩ := hsame
  constructor
  · rw [hcomments, hnext]
    exact h.keyed
  · rw [hnext]
    exact h.counted
  · rw [hcomments]
    exact h.positive
  · rw [hcomments]
    exact h.parents

theorem Threaded.added (h : Threaded b) (hadded : Added b b') : Threaded b' := by
  obtain ⟨c, hcomments, hnext, hid, hparent⟩ := hadded
  constructor
  · rw [hcomments, hnext]
    exact h.keyed.snoc hid
  · omega
  · intro d hd
    rw [hcomments] at hd
    rcases List.mem_append.mp hd with hd | hd
    · exact h.positive d hd
    · rw [List.mem_singleton.mp hd, hid]
      exact h.counted
  · intro d hd p hp
    rw [hcomments] at hd ⊢
    rcases List.mem_append.mp hd with hd | hd
    · obtain ⟨a, ha, hfacts⟩ := h.parents d hd p hp
      exact ⟨a, List.mem_append_left _ ha, hfacts⟩
    · obtain rfl := List.mem_singleton.mp hd
      obtain ⟨a, ha, hsame, htask⟩ := hparent p hp
      refine ⟨a, List.mem_append_left _ ha, hsame, ?_, htask⟩
      rw [hid]
      exact h.keyed.fresh a ha

theorem Threaded.removeComment (h : Threaded b) (id : Nat) : Threaded (removeComment b id) := by
  have hid : ∀ c : Comment,
      (if c.parentId = some id then { c with parentId := none } else c).id = c.id := by
    intro c
    split <;> rfl
  refine ⟨(h.keyed.filter _).map hid, h.counted, ?_, ?_⟩
  · intro d hd
    obtain ⟨c, hc, rfl⟩ := List.mem_map.mp hd
    rw [hid]
    exact h.positive c (List.mem_of_mem_filter hc)
  · intro d hd p hp
    obtain ⟨c, hc, rfl⟩ := List.mem_map.mp hd
    by_cases hgone : c.parentId = some id
    · rw [if_pos hgone] at hp
      cases hp
    · rw [if_neg hgone] at hp ⊢
      obtain ⟨a, ha, rfl, hfacts⟩ := h.parents c (List.mem_of_mem_filter hc) p hp
      have hkept : a ∈ b.comments.filter fun c => c.id ≠ id := by
        rw [List.mem_filter]
        refine ⟨ha, decide_eq_true fun hsame => hgone ?_⟩
        rw [← hsame]
        exact hp
      refine ⟨_, List.mem_map_of_mem hkept, ?_⟩
      split <;> exact ⟨rfl, hfacts⟩

/-! ### What a step does to the comments -/

theorem ensureTaskSubscription_comments (b : Board) (taskId : Nat) (name : String)
    (workspaceId : Nat) : SameComments b (b.ensureTaskSubscription taskId name workspaceId) := by
  unfold Board.ensureTaskSubscription
  split
  · exact ⟨rfl, rfl⟩
  · split <;> exact ⟨rfl, rfl⟩

theorem SameComments.trans {b'' : Board} (h : SameComments b b') (h' : SameComments b' b'') :
    SameComments b b'' :=
  ⟨h'.1.trans h.1, h'.2.trans h.2⟩

theorem ensureTaskSubscriptions_comments (b : Board) (taskId workspaceId : Nat)
    (names : List String) : SameComments b (b.ensureTaskSubscriptions taskId workspaceId names) := by
  unfold Board.ensureTaskSubscriptions
  induction names generalizing b with
  | nil => exact ⟨rfl, rfl⟩
  | cons name names ih =>
    rw [List.foldl_cons]
    exact (ensureTaskSubscription_comments b taskId name workspaceId).trans (ih _)

theorem foldl_subscribeEffect_comments (effects : List Effect) (b : Board) :
    SameComments b (effects.foldl subscribeEffect b) := by
  induction effects generalizing b with
  | nil => exact ⟨rfl, rfl⟩
  | cons effect effects ih =>
    have hfirst : SameComments b (subscribeEffect b effect) := by
      cases effect with
      | subscription workspaceId taskId agent =>
        exact ensureTaskSubscription_comments b taskId agent workspaceId
      | _ => exact ⟨rfl, rfl⟩
    rw [List.foldl_cons]
    exact hfirst.trans (ih _)

theorem serveTask_comments (b : Board) (workspaceId : Nat) (caller : Caller)
    (request : Tasks.RouteSteps.Request) :
    SameComments b (serveTask setting b workspaceId caller request) := by
  have hstart : ∀ w, SameComments b { b with world := w } := fun w => ⟨rfl, rfl⟩
  simp only [serveTask]
  exact (hstart _).trans (foldl_subscribeEffect_comments _ _)

theorem writeComment_added {author : String} {task : Task} {body : CommentBody}
    {parent : Option Comment} {mentionResolution : Resolution}
    (hparent : ∀ a ∈ parent, a ∈ b.comments ∧ a.taskId = task.id ∧ a.workspaceId = workspaceId) :
    Added b (writeComment b workspaceId author task body parent mentionResolution) := by
  obtain ⟨hcomments, hnext⟩ := ensureTaskSubscriptions_comments
    (insertComment b
      { id := b.nextCommentId
        taskId := task.id
        author := author
        content := body.content
        createdAt := b.world.now
        parentId := parent.map Comment.id
        mentions := if mentionResolution.tokens = [] then none else some mentionResolution.tokens
        workspaceId := workspaceId } task body.parentId mentionResolution.tokens)
    task.id workspaceId (subscribedBy author mentionResolution.recipients task)
  refine ⟨_, hcomments, hnext, rfl, ?_⟩
  intro p hp
  obtain ⟨a, ha, rfl⟩ := Option.map_eq_some_iff.mp hp
  obtain ⟨hmem, htask, hworkspace⟩ := hparent a ha
  exact ⟨a, hmem, rfl, htask, hworkspace⟩

theorem postComment_comments (users : List UserRow) (b : Board) (workspaceId taskId : Nat)
    (caller : Caller) (json : Json) :
    let b' := (postComment users b workspaceId caller taskId json).1
    SameComments b b' ∨ Added b b' := by
  have hsame : SameComments b b := ⟨rfl, rfl⟩
  unfold postComment
  split
  · exact .inl hsame
  · split
    · exact .inl hsame
    · rename_i body _ task htask
      dsimp only
      split
      · exact .inl hsame
      · split
        · exact .inl hsame
        · refine .inr (writeComment_added fun a ha => ?_)
          obtain ⟨found, hfound, rfl⟩ := Option.bind_eq_some_iff.mp ha
          obtain ⟨parentId, -, hparent⟩ := Option.map_eq_some_iff.mp hfound
          obtain ⟨id, -, hfind⟩ := Option.bind_eq_some_iff.mp hparent
          have hmatch := of_decide_eq_true (List.find?_some hfind :)
          exact ⟨List.mem_of_find?_eq_some hfind, hmatch.2.1.trans (task?_id htask).symm,
            hmatch.2.2⟩

theorem Threaded.step (h : Threaded b) {e : Event} (hstep : (machine setting).step b e = some b') :
    Threaded b' := by
  cases e with
  | request e =>
    cases e with
    | wait milliseconds =>
      obtain rfl := Option.some.inj hstep
      exact h.same ⟨rfl, rfl⟩
    | task workspaceId person request =>
      obtain ⟨caller, -, rfl⟩ := Option.map_eq_some_iff.mp hstep
      exact h.same (serveTask_comments b workspaceId caller request)
    | comment workspaceId person taskId json =>
      obtain ⟨caller, -, rfl⟩ := Option.map_eq_some_iff.mp hstep
      rcases postComment_comments setting.users b workspaceId taskId caller json with
        hsame | hadded
      · exact h.same hsame
      · exact h.added hadded
  | addComment workspaceId taskId author content metadata =>
    obtain rfl := Option.some.inj hstep
    refine h.added ⟨_, rfl, rfl, rfl, ?_⟩
    intro p hp
    cases hp
  | removeComment id =>
    obtain rfl := Option.some.inj hstep
    exact h.removeComment id

theorem threaded_of_run {trace : List Event} (hempty : b.comments = [])
    (hnext : 0 < b.nextCommentId) (hr : (machine setting).run b trace = some b') : Threaded b' := by
  refine Machine.invariant_of_run ?_ ?_ hr
  · intro s e s' h hstep
    exact h.step hstep
  · constructor
    · rw [hempty]
      exact ⟨List.nodup_nil, fun _ h => absurd h List.not_mem_nil⟩
    · exact hnext
    · simp [hempty]
    · simp [hempty]

/-! ### The threads of a task -/

/-- What an answer says about the comments of a task. -/
structure Complete (comments : List Comment) (threads : List (RoseTree Comment)) (total : Nat) :
    Prop where
  once : (RoseTree.flattenAll threads).Perm comments
  nodup : ((RoseTree.flattenAll threads).map Comment.id).Nodup
  total : total = (RoseTree.flattenAll threads).length
  top : ∀ t ∈ threads, t.value.parentId = none
  below : ∀ p c, (p, c) ∈ RoseTree.edgesAll threads ↔
    p ∈ comments ∧ c ∈ comments ∧ c.parentId = some p.id

theorem parentOf_eq {c : Comment} (hpositive : ∀ p ∈ c.parentId, 0 < p) :
    parentOf c = c.parentId := by
  unfold parentOf
  cases hparent : c.parentId with
  | none => rfl
  | some p =>
    have hp : p ≠ 0 := Nat.pos_iff_ne_zero.mp (hpositive p hparent)
    simp [hp]

/-- The threads of comments of which each is a reply to an older one, if to any. -/
theorem threads_of_parents {comments : List Comment} (hnodup : (comments.map Comment.id).Nodup)
    (hpositive : ∀ c ∈ comments, 0 < c.id)
    (hparents : ∀ c ∈ comments, ∀ p ∈ c.parentId, ∃ a ∈ comments, a.id = p ∧ a.id < c.id) :
    ∃ threads, threadsOf comments = some threads ∧ Complete comments threads comments.length := by
  have hparentOf : ∀ c ∈ comments, parentOf c = c.parentId := by
    intro c hc
    apply parentOf_eq
    intro p hp
    obtain ⟨a, ha, rfl, -⟩ := hparents c hc p hp
    exact hpositive a ha
  let next := childrenOf Comment.id parentOf comments
  let rank := fun c : Comment => comments.countP fun d => c.id < d.id
  have hmem : ∀ p c, c ∈ next p ↔ c ∈ comments ∧ c.parentId = some p.id := by
    intro p c
    simp only [next, childrenOf, List.mem_filter, decide_eq_true_eq]
    constructor
    · rintro ⟨hc, hparent⟩
      exact ⟨hc, (hparentOf c hc).symm.trans hparent⟩
    · rintro ⟨hc, hparent⟩
      exact ⟨hc, (hparentOf c hc).trans hparent⟩
  -- Fewer comments are newer than a reply than are newer than its parent.
  have hlower : ∀ a b, a ∈ comments → b ∈ next a → b ∈ comments ∧ rank b < rank a := by
    intro a b _ hb
    obtain ⟨hb, hparent⟩ := (hmem a b).mp hb
    obtain ⟨c, -, hsame, holder⟩ := hparents b hb a.id hparent
    have hsplit : rank b = (comments.filter fun d => b.id < d.id).countP fun d => a.id < d.id := by
      rw [List.countP_filter]
      apply List.countP_congr
      intro d _
      simp only [decide_eq_true_eq, Bool.and_eq_true]
      omega
    refine ⟨hb, ?_⟩
    rw [hsplit]
    exact countP_filter_lt hb (decide_eq_true (by omega)) (by simp)
  have hrank : ∀ c ∈ comments, rank c < comments.length := by
    intro c hc
    refine lt_of_le_of_ne List.countP_le_length ?_
    intro hall
    have hself := List.countP_eq_length.mp hall c hc
    rw [decide_eq_true_eq] at hself
    omega
  have hmap : (organized comments).commentMap.length = comments.length := by
    rw [organized, foldl_register hnodup, foldl_organize, List.length_map]
  have htop : (organized comments).topLevelComments =
      (roots parentOf comments).map Comment.id := by
    rw [organized, foldl_register hnodup, foldl_organize]
  obtain ⟨threads, hthreads⟩ : ∃ threads, threadsOf comments = some threads := by
    rw [threadsOf, htop, hmap, List.mapM_map, exists_mapM]
    intro c hc
    have hc := List.mem_of_mem_filter hc
    rw [Option.isSome_iff_exists, Function.comp_apply, written_eq_grow hnodup _ hc]
    exact RoseTree.exists_grow hlower hc (hrank c hc)
  have hgrown : List.Forall₂ (fun c t => t.value = c ∧ RoseTree.Grown next t)
      (roots parentOf comments) threads := by
    rw [threadsOf, htop, List.mapM_map] at hthreads
    have hmembers := (List.forall₂_and_left _ _).mpr
      ⟨fun c hc => List.mem_of_mem_filter (p := fun c => parentOf c = none) hc,
        mapM_eq_some_iff.mp hthreads⟩
    refine hmembers.imp ?_
    rintro c t ⟨hc, ht⟩
    rw [Function.comp_apply, written_eq_grow hnodup _ hc] at ht
    exact RoseTree.grown_of_grow ht
  have hroots : threads.map RoseTree.value = roots parentOf comments := by
    have hvalues := map_eq_of_forall₂ (f := id) (g := RoseTree.value) (fun c t h => h.1) hgrown
    rw [hvalues, List.map_id]
  have hall : RoseTree.GrownAll next threads := by
    rw [RoseTree.grownAll_iff]
    intro t ht
    obtain ⟨c, -, hc⟩ := mem_of_forall₂ hgrown ht
    exact hc.2
  have hperm : (RoseTree.flattenAll threads).Perm comments := by
    refine flattenAll_perm_nodes hnodup Comment.id ?_ hroots hall
    intro c hc p hp
    rw [hparentOf c hc] at hp
    exact hparents c hc p hp
  refine ⟨threads, hthreads, hperm, ?_, hperm.length_eq.symm, ?_, ?_⟩
  · exact (hperm.map Comment.id).nodup_iff.mpr hnodup
  · intro t ht
    have hroot : t.value ∈ roots parentOf comments := hroots ▸ List.mem_map_of_mem ht
    obtain ⟨hc, hnone⟩ := List.mem_filter.mp hroot
    rw [← hparentOf _ hc]
    exact of_decide_eq_true hnone
  · intro p c
    rw [RoseTree.mem_edgesAll threads p c hall, hmem, hperm.mem_iff]

theorem Threaded.complete (h : Threaded b) {rows : List Comment}
    (hrows : rows.Perm (taskComments b taskId workspaceId)) :
    ∃ threads, threadsOf (rows.map withParsedData) = some threads ∧
      Complete ((taskComments b taskId workspaceId).map withParsedData) threads rows.length := by
  have hparsed := hrows.map withParsedData
  have hids : (rows.map withParsedData).map Comment.id = rows.map Comment.id := List.map_map ..
  have hnodup : ((rows.map withParsedData).map Comment.id).Nodup := by
    rw [hids, (hrows.map Comment.id).nodup_iff]
    exact h.keyed.unique.sublist (List.filter_sublist.map _)
  have hmem : ∀ c, c ∈ rows ↔ c ∈ b.comments ∧ c.taskId = taskId ∧ c.workspaceId = workspaceId := by
    intro c
    rw [hrows.mem_iff, taskComments, List.mem_filter, decide_eq_true_eq]
  obtain ⟨threads, hthreads, hcomplete⟩ := threads_of_parents hnodup
    (by
      intro d hd
      obtain ⟨c, hc, rfl⟩ := List.mem_map.mp hd
      exact h.positive c ((hmem c).mp hc).1)
    (by
      intro d hd p hp
      obtain ⟨c, hc, rfl⟩ := List.mem_map.mp hd
      obtain ⟨hc, rfl, rfl⟩ := (hmem c).mp hc
      obtain ⟨a, ha, hid, holder, htask⟩ := h.parents c hc p hp
      exact ⟨withParsedData a, List.mem_map_of_mem ((hmem a).mpr ⟨ha, htask⟩), hid, holder⟩)
  rw [List.length_map] at hcomplete
  refine ⟨threads, hthreads, hcomplete.once.trans hparsed, hcomplete.nodup, hcomplete.total,
    hcomplete.top, ?_⟩
  intro p c
  rw [hcomplete.below p c, hparsed.mem_iff, hparsed.mem_iff]

/-- The threads of a task have every comment of it once, each reply right below its parent. -/
theorem threads_complete (setting : Setting) (order : OrderBy Earlier) (b₀ b : Board)
    (trace : List Event) (workspaceId taskId : Nat) (id : String) (task : Task)
    (hempty : b₀.comments = []) (hnext : 0 < b₀.nextCommentId)
    (hrun : (machine setting).run b₀ trace = some b) (hid : parseInt id = some (.ofNat taskId))
    (htask : b.world.tasks.task? workspaceId taskId = some task) :
    ∃ threads total, getComments order b workspaceId id = .ok (threads, total) ∧
      Complete ((taskComments b taskId workspaceId).map withParsedData) threads total := by
  have h := threaded_of_run hempty hnext hrun
  obtain ⟨threads, hthreads, hcomplete⟩ := h.complete
    (order.perm (taskComments b taskId workspaceId))
  refine ⟨threads, _, ?_, hcomplete⟩
  rw [getComments, hid]
  simp only [htask, hthreads]

/-- A reply is answered, and then it is removed. -/
def conversation : List Event :=
  [.request (.task 1 (.user 1) (.postTask (.object [("title", .string "Fix the login")]))),
    .request (.comment 1 (.user 2) 2 (.object [("content", .string "Which page is it?")])),
    .request (.comment 1 (.user 1) 2
      (.object [("content", .string "The first one"), ("parent_id", .number 1)])),
    .request (.comment 1 (.user 2) 2
      (.object [("content", .string "I see"), ("parent_id", .number 2)])),
    .removeComment 2]

example : ((machine twoUsers).run sampleBoard conversation).map
    (fun b => b.comments.map fun c => (c.id, c.parentId)) = some [(1, none), (3, none)] := by
  decide +kernel

theorem conversation_complete : ∃ b, (machine twoUsers).run sampleBoard conversation = some b ∧
    ∃ threads total, getComments (OrderBy.stable (sorts_by_key Comment.createdAt)) b 1 "2" =
        .ok (threads, total) ∧
      Complete ((taskComments b 2 1).map withParsedData) threads total := by
  have htask : (((machine twoUsers).run sampleBoard conversation).bind fun b =>
      b.world.tasks.task? 1 2).isSome = true := by decide +kernel
  obtain ⟨task, htask⟩ := Option.isSome_iff_exists.mp htask
  obtain ⟨b, hrun, htask⟩ := Option.bind_eq_some_iff.mp htask
  exact ⟨b, hrun, threads_complete twoUsers _ sampleBoard b conversation 1 2 "2" task rfl
    (by decide) hrun (by decide +kernel) htask⟩

end MissionControl.Comments.Threads
