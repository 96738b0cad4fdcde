import MissionControl.Comments.Mentions
import MissionControl.Events.Producers

/-!
The requests that write comments, and those that write tasks, with the subscriptions that both
make. A comment subscribes its author, everyone whom it mentions and the assignee of the task, and
is then told to all subscribers but the author. Subscriptions and notifications know people by a
text only.
-/

set_option autoImplicit false
set_option relaxedAutoImplicit false

namespace MissionControl.Comments.Routes

open MissionControl.Auth.Accounts (UserRow)
open MissionControl.Comments.Mentions
open MissionControl.Events.Producers (Caller TaskQueries defined)
open MissionControl.Events.Stores
open MissionControl.Foundations.JsText
open MissionControl.Foundations.Lists
open MissionControl.Foundations.Query
open MissionControl.Foundations.Schema
open MissionControl.Foundations.Transition (Machine)
open MissionControl.Tasks.Database (Effect Newer QueueOrder
  Response Task)
open MissionControl.Tasks.RouteSteps (Request serve)
open MissionControl.Tasks.Routes (rowId)
open MissionControl.Tasks.Validation (minLength)

/-! ### Rows -/

/-- A row of `task_subscriptions`. -/
structure Subscription where
  taskId : Nat
  agentName : String
  deriving DecidableEq

/-- A row of `comments`. -/
structure Comment where
  id : Nat
  taskId : Nat
  author : String
  content : String
  createdAt : Nat
  parentId : Option Nat
  mentions : Option (List String)
  workspaceId : Nat
  deriving DecidableEq

structure Board where
  world : World
  subscriptions : List Subscription
  comments : List Comment
  nextCommentId : Nat

namespace Board

variable (b : Board)

/-- `INSERT OR IGNORE` into the subscriptions, if the workspace has the task. -/
def ensureTaskSubscription (taskId : Nat) (agentName : String) (workspaceId : Nat) : Board :=
  if agentName = "" then b
  else if (b.world.tasks.task? workspaceId taskId).isNone ∨
      (⟨taskId, agentName⟩ : Subscription) ∈ b.subscriptions then b
  else { b with subscriptions := b.subscriptions ++ [⟨taskId, agentName⟩] }

def getTaskSubscribers (taskId workspaceId : Nat) : List String :=
  if (b.world.tasks.task? workspaceId taskId).isSome then
    (b.subscriptions.filter fun subscription => subscription.taskId = taskId).map
      Subscription.agentName
  else []

/-- Subscribe one after the other. -/
def ensureTaskSubscriptions (taskId workspaceId : Nat) (names : List String) : Board :=
  names.foldl (fun b name => b.ensureTaskSubscription taskId name workspaceId) b

end Board

/-! ### Comments -/

structure CommentBody where
  taskId : Option Rat
  content : String
  parentId : Option Rat
  deriving DecidableEq

inductive CommentField where
  | task_id
  | content
  | parent_id
  deriving DecidableEq

abbrev CommentField.Value : CommentField → Type
  | task_id => Rat
  | content => String
  | parent_id => Rat

def createCommentSchema : (field : CommentField) → FieldSchema field.Value
  | .task_id => optional (number [])
  | .content => string [minLength 1 (some "Comment content is required")]
  | .parent_id => optional (number [])

def parseComment (json : Json) : Parsed CommentBody :=
  match parseObject [.task_id, .content, .parent_id]
      (fun
        | CommentField.task_id => "task_id"
        | .content => "content"
        | .parent_id => "parent_id") createCommentSchema json with
  | .error issues => .error issues
  | .ok data =>
    match data .content with
    | some content => .ok ⟨data .task_id, content, data .parent_id⟩
    | none => invalidType

/-- `auth.user.display_name || auth.user.username || 'system'`. -/
def authorOf (caller : Caller) : String :=
  (truthy caller.displayName).getD (orElse caller.username "system")

/-- `content.substring(0, 100)`. -/
def contentStart (content : String) : String := String.ofList (takeUnits 100 content.toList)

/-- The notification of one subscriber. -/
def notifySubscriber (author title content : String) (mentionRecipients : List String)
    (commentId workspaceId : Nat) (w : World) (subscriber : String) : World :=
  let shown := contentStart content ++ if 100 < utf16Length content then "..." else ""
  if subscriber ∈ mentionRecipients then
    w.createNotification subscriber "mention" "You were mentioned"
      (author ++ " mentioned you in a comment on \"" ++ title ++ "\": " ++ shown)
      (some "comment") (some commentId) workspaceId
  else
    w.createNotification subscriber "comment" "New comment on a subscribed task"
      (author ++ " commented on \"" ++ title ++ "\": " ++ shown)
      (some "comment") (some commentId) workspaceId

/-- The comment that a reply names as its parent, if it names one. -/
def parentComment (b : Board) (taskId workspaceId : Nat) (parentId : Rat) : Option Comment :=
  (rowId parentId).bind fun id =>
    b.comments.find? fun comment =>
      comment.id = id ∧ comment.taskId = taskId ∧ comment.workspaceId = workspaceId

/-- Insert the comment and log it. -/
def insertComment (b : Board) (comment : Comment) (task : Task) (parentId : Option Rat)
    (tokens : List String) : Board :=
  let description := match parentId.filter (· ≠ 0) with
    | some _ => "Replied to comment on task: " ++ task.title
    | none => "Added comment to task: " ++ task.title
  { b with
    comments := b.comments ++ [comment]
    nextCommentId := b.nextCommentId + 1
    world := b.world.logActivity "comment_added" "comment" comment.id comment.author description
      (some (.object <|
        [("task_id", natural task.id), ("task_title", .string task.title)] ++
        defined "parent_id" .number parentId ++
        [("mentions", .array (tokens.map .string)),
          ("content_preview", .string (contentStart comment.content))])) comment.workspaceId }

/-- The names that a comment subscribes: its author, the recipients of its mentions, and the
assignee of the task. -/
def subscribedBy (author : String) (recipients : List String) (task : Task) : List String :=
  author :: recipients ++ (truthy task.assignedTo).toList

/-- Whom a comment is told to: all subscribers but the author. -/
def notifiedNames (b : Board) (taskId workspaceId : Nat) (author : String) : List String :=
  (keepFirst id [] (b.getTaskSubscribers taskId workspaceId)).filter (· ≠ author)

/-- Write the comment, subscribe whom it concerns, and notify the subscribers. -/
def writeComment (b : Board) (workspaceId : Nat) (author : String) (task : Task) (body : CommentBody)
    (parent : Option Comment) (mentionResolution : Resolution) : Board :=
  let comment : Comment :=
    { id := b.nextCommentId
      taskId := task.id
      author := author
      content := body.content
      createdAt := b.world.now
      parentId := parent.map Comment.id
      mentions := if mentionResolution.tokens = [] then none else some mentionResolution.tokens
      workspaceId := workspaceId }
  let inserted := insertComment b comment task body.parentId mentionResolution.tokens
  let subscribed := inserted.ensureTaskSubscriptions task.id workspaceId
    (subscribedBy author mentionResolution.recipients task)
  { subscribed with
    world := (notifiedNames subscribed task.id workspaceId author).foldl
      (notifySubscriber author task.title body.content mentionResolution.recipients comment.id
        workspaceId) subscribed.world }

/-- `POST /api/tasks/[id]/comments`. -/
def postComment (users : List UserRow) (b : Board) (workspaceId : Nat) (caller : Caller)
    (taskId : Nat) (json : Json) : Board × Response :=
  match parseComment json with
  | .error issues => (b, .invalid issues)
  | .ok body =>
    match b.world.tasks.task? workspaceId taskId with
    | none => (b, .error 404 "Task not found")
    | some task =>
      let parent := (body.parentId.filter (· ≠ 0)).map (parentComment b taskId workspaceId)
      if parent = some none then (b, .error 404 "Parent comment not found")
      else
        let mentionResolution :=
          resolveMentionRecipients users b.world.agents workspaceId body.content
        if mentionResolution.unresolved ≠ [] then
          (b, .unknownMentions mentionResolution.unresolved)
        else
          (writeComment b workspaceId (authorOf caller) task body (parent.bind id)
            mentionResolution, .created b.nextCommentId)

/-! ### The system -/

/-- Someone who makes requests, or whom a subscription may stand for. -/
inductive Person where
  | user (id : Nat)
  | agent (id : Nat)
  /-- The key of the system, which is no account. -/
  | apiKey
  deriving DecidableEq

/-- The accounts, the workspace of the key of the system, and how the database answers the queries
that do not name a single row. -/
structure Setting where
  users : List UserRow
  defaultWorkspace : Nat
  latestReview : FirstBy Newer
  nextTask : FirstBy QueueOrder

variable (setting : Setting)

/-- The user that `requireRole` returns for someone of a workspace. -/
def callerOf (b : Board) (workspaceId : Nat) : Person → Option Caller
  | .user id =>
    (setting.users.find? fun user => user.id = id ∧ user.workspaceId = workspaceId).map fun user =>
      ⟨user.username, some user.displayName⟩
  | .agent id =>
    (b.world.agents.find? fun agent => agent.id = id ∧ agent.workspaceId = workspaceId).map
      fun agent => ⟨agent.name, some agent.name⟩
  | .apiKey =>
    if workspaceId = setting.defaultWorkspace then some ⟨"api", some "API Access"⟩ else none

/-- The queries of the task routes, with the mentions resolved in a workspace. -/
def taskQueries (b : Board) (workspaceId : Nat) : TaskQueries where
  mentions text :=
    let resolution := resolveMentionRecipients setting.users b.world.agents workspaceId text
    ⟨resolution.unresolved, resolution.recipients⟩
  latestReview := setting.latestReview
  nextTask := setting.nextTask

/-- The subscription that an effect of a task route makes. -/
def subscribeEffect (b : Board) : Effect → Board
  | .subscription workspaceId taskId agent => b.ensureTaskSubscription taskId agent workspaceId
  | _ => b

/-- A request that writes tasks, with the subscriptions that it makes. -/
def serveTask (b : Board) (workspaceId : Nat) (caller : Caller) (request : Request) : Board :=
  let queries := taskQueries setting b workspaceId
  let served := (serve (queries.context b.world workspaceId caller) b.world.tasks request).1
  served.effects.foldl subscribeEffect
    { b with world := (Events.Producers.serveTask queries b.world workspaceId caller request).1 }

inductive Event where
  | wait (milliseconds : Nat)
  | task (workspaceId : Nat) (person : Person) (request : Request)
  | comment (workspaceId : Nat) (person : Person) (taskId : Nat) (json : Json)

/-- A request is one step; it takes someone of the workspace. -/
def machine : Machine Board Event where
  step b
    | .wait milliseconds =>
      some { b with world := { b.world with rooms := { b.world.rooms with
        tables := { b.world.rooms.tables with
          now := b.world.rooms.tables.now + milliseconds } } } }
    | .task workspaceId person request =>
      (callerOf setting b workspaceId person).map fun caller =>
        serveTask setting b workspaceId caller request
    | .comment workspaceId person taskId json =>
      (callerOf setting b workspaceId person).map fun caller =>
        (postComment setting.users b workspaceId caller taskId json).1

end MissionControl.Comments.Routes
