import MissionControl.Foundations.JsText
import MissionControl.Foundations.Schema

/-!
The schemas of the task and review requests. A task body is read field by field, so the fields
are indexed by an enumeration and the schema, the body and the update all range over it.
-/

set_option autoImplicit false
set_option relaxedAutoImplicit false

namespace MissionControl.Tasks.Validation

open MissionControl.Foundations.JsText (utf16Length)
open MissionControl.Foundations.Schema

inductive TaskStatus where
  | inbox
  | assigned
  | in_progress
  | review
  | quality_review
  | done
  deriving DecidableEq

def TaskStatus.text : TaskStatus → String
  | .inbox => "inbox"
  | .assigned => "assigned"
  | .in_progress => "in_progress"
  | .review => "review"
  | .quality_review => "quality_review"
  | .done => "done"

/-- The priorities that are stored; requests cannot ask for `urgent`. -/
inductive TaskPriority where
  | critical
  | urgent
  | high
  | medium
  | low
  deriving DecidableEq

def TaskPriority.text : TaskPriority → String
  | .critical => "critical"
  | .urgent => "urgent"
  | .high => "high"
  | .medium => "medium"
  | .low => "low"

inductive TaskOutcome where
  | success
  | failed
  | partly
  | abandoned
  deriving DecidableEq

def TaskOutcome.text : TaskOutcome → String
  | .success => "success"
  | .failed => "failed"
  | .partly => "partial"
  | .abandoned => "abandoned"

/-- The keys of `createTaskSchema`. -/
inductive TaskField where
  | title
  | description
  | status
  | priority
  | project_id
  | assigned_to
  | due_date
  | estimated_hours
  | actual_hours
  | outcome
  | error_message
  | resolution
  | feedback_rating
  | feedback_notes
  | retry_count
  | completed_at
  | tags
  | metadata
  deriving DecidableEq

namespace TaskField

def all : List TaskField :=
  [title, description, status, priority, project_id, assigned_to, due_date, estimated_hours,
    actual_hours, outcome, error_message, resolution, feedback_rating, feedback_notes,
    retry_count, completed_at, tags, metadata]

def name : TaskField → String
  | title => "title"
  | description => "description"
  | status => "status"
  | priority => "priority"
  | project_id => "project_id"
  | assigned_to => "assigned_to"
  | due_date => "due_date"
  | estimated_hours => "estimated_hours"
  | actual_hours => "actual_hours"
  | outcome => "outcome"
  | error_message => "error_message"
  | resolution => "resolution"
  | feedback_rating => "feedback_rating"
  | feedback_notes => "feedback_notes"
  | retry_count => "retry_count"
  | completed_at => "completed_at"
  | tags => "tags"
  | metadata => "metadata"

/-- What a field holds once it is read. -/
abbrev Value : TaskField → Type
  | title => String
  | description => String
  | status => TaskStatus
  | priority => TaskPriority
  | project_id => Nat
  | assigned_to => String
  | due_date => Rat
  | estimated_hours => Rat
  | actual_hours => Rat
  | outcome => TaskOutcome
  | error_message => String
  | resolution => String
  | feedback_rating => Nat
  | feedback_notes => String
  | retry_count => Nat
  | completed_at => Rat
  | tags => List String
  | metadata => List (String × Json)

end TaskField

/-- A request body after its schema: every field defined or undefined. -/
abbrev TaskBody := (field : TaskField) → Option field.Value

/-! ### Schemas -/

def minLength (n : Nat) (message : Option String) : Check String :=
  ⟨fun s => decide (n ≤ utf16Length s), .tooSmall, message⟩

def maxLength (n : Nat) : Check String := ⟨fun s => decide (utf16Length s ≤ n), .tooBig, none⟩

/-- `z.number().min(0)`. -/
def notNegative : Check Rat := ⟨fun n => decide (0 ≤ n), .tooSmall, none⟩

def statusOptions : List (String × TaskStatus) :=
  [("inbox", .inbox), ("assigned", .assigned), ("in_progress", .in_progress),
    ("review", .review), ("quality_review", .quality_review), ("done", .done)]

def createTaskSchema : (field : TaskField) → FieldSchema field.Value
  | .title => string [minLength 1 (some "Title is required"), maxLength 500]
  | .description => optional (string [maxLength 5000])
  | .status => withDefault .inbox (oneOf statusOptions)
  | .priority => withDefault .medium (oneOf
      [("critical", .critical), ("high", .high), ("medium", .medium), ("low", .low)])
  | .project_id => optional (int 1 maxSafeInteger)
  | .assigned_to => optional (string [maxLength 100])
  | .due_date => optional (number [])
  | .estimated_hours => optional (number [notNegative])
  | .actual_hours => optional (number [notNegative])
  | .outcome => optional (oneOf
      [("success", .success), ("failed", .failed), ("partial", .partly), ("abandoned", .abandoned)])
  | .error_message => optional (string [maxLength 5000])
  | .resolution => optional (string [maxLength 5000])
  | .feedback_rating => optional (int 1 5)
  | .feedback_notes => optional (string [maxLength 5000])
  | .retry_count => optional (int 0 maxSafeInteger)
  | .completed_at => optional (number [])
  | .tags => withDefault [] (array (fun
      | .string s => .ok s
      | _ => invalidType) [])
  | .metadata => withDefault [] record

/-- `createTaskSchema.partial()`. -/
def updateTaskSchema (field : TaskField) : FieldSchema field.Value :=
  optional (createTaskSchema field)

def validateBody (schema : (field : TaskField) → FieldSchema field.Value) (json : Json) :
    Parsed TaskBody :=
  parseObject TaskField.all TaskField.name schema json

structure BulkItem where
  id : Nat
  status : TaskStatus
  deriving DecidableEq

/-- The keys of an element of the bulk update. -/
inductive BulkField where
  | id
  | status
  deriving DecidableEq

abbrev BulkField.Value : BulkField → Type
  | id => Nat
  | status => TaskStatus

def bulkItemSchema : (field : BulkField) → FieldSchema field.Value
  | .id => int 1 maxSafeInteger
  | .status => oneOf statusOptions

def parseBulkItem (json : Json) : Parsed BulkItem :=
  match parseObject [.id, .status]
      (fun | BulkField.id => "id" | .status => "status") bulkItemSchema json with
  | .error issues => .error issues
  | .ok data =>
    match data .id, data .status with
    | some id, some status => .ok ⟨id, status⟩
    | _, _ => invalidType

/-- `bulkUpdateTaskStatusSchema`. -/
def parseBulkUpdate (json : Json) : Parsed (List BulkItem) :=
  match parseObject [()] (fun _ => "tasks")
      (fun _ => array parseBulkItem
        [⟨fun items => decide (1 ≤ items.length), .tooSmall, some "At least one task is required"⟩,
          ⟨fun items => decide (items.length ≤ 100), .tooBig, none⟩]) json with
  | .error issues => .error issues
  | .ok data =>
    match data () with
    | some items => .ok items
    | none => invalidType

inductive ReviewStatus where
  | approved
  | rejected
  deriving DecidableEq

def ReviewStatus.text : ReviewStatus → String
  | .approved => "approved"
  | .rejected => "rejected"

structure ReviewBody where
  taskId : Rat
  reviewer : String
  status : ReviewStatus
  notes : String
  deriving DecidableEq

inductive ReviewField where
  | taskId
  | reviewer
  | status
  | notes
  deriving DecidableEq

abbrev ReviewField.Value : ReviewField → Type
  | taskId => Rat
  | reviewer => String
  | status => ReviewStatus
  | notes => String

def qualityReviewSchema : (field : ReviewField) → FieldSchema field.Value
  | .taskId => number []
  | .reviewer => withDefault "aegis" (string [])
  | .status => oneOf [("approved", .approved), ("rejected", .rejected)]
  | .notes => string [minLength 1 (some "Notes are required for quality reviews")]

def parseReview (json : Json) : Parsed ReviewBody :=
  match parseObject [.taskId, .reviewer, .status, .notes]
      (fun
        | ReviewField.taskId => "taskId"
        | .reviewer => "reviewer"
        | .status => "status"
        | .notes => "notes") qualityReviewSchema json with
  | .error issues => .error issues
  | .ok data =>
    match data .taskId, data .reviewer, data .status, data .notes with
    | some taskId, some reviewer, some status, some notes => .ok ⟨taskId, reviewer, status, notes⟩
    | _, _, _, _ => invalidType

/-! ### Missing fields -/

/-- Whether the body has no value for a field. -/
def Absent (json : Json) (field : TaskField) : Prop :=
  ∃ fields, json = .object fields ∧ lookup fields field.name = none

/-- What the update schema puts in the place of a missing field. -/
def updateDefault : (field : TaskField) → Option field.Value
  | .status => some .inbox
  | .priority => some .medium
  | .tags => some []
  | .metadata => some []
  | _ => none

theorem updateTaskSchema_absent (field : TaskField) :
    (updateTaskSchema field).parse none = .ok (updateDefault field) := by
  cases field <;> rfl

theorem body_absent {json : Json} {body : TaskBody} {field : TaskField}
    (h : validateBody updateTaskSchema json = .ok body) (habsent : Absent json field) :
    body field = updateDefault field := by
  obtain ⟨fields, hjson, -, hbody⟩ := parseObject_ok h
  obtain ⟨fields', hjson', hlookup⟩ := habsent
  obtain rfl := Json.object.inj (hjson.symm.trans hjson')
  rw [hbody field, valueAt, hlookup, updateTaskSchema_absent]

/-- An update always carries a status, if only the one that the schema fills in. -/
theorem status_provided {json : Json} {body : TaskBody}
    (h : validateBody updateTaskSchema json = .ok body) : ∃ status, body .status = some status := by
  obtain ⟨fields, -, hissues, hbody⟩ := parseObject_ok h
  have hstatus := hissues .status (by simp [TaskField.all])
  have hvalue := hbody .status
  simp only [issuesAt] at hstatus
  simp only [valueAt] at hvalue
  cases hlookup : lookup fields TaskField.status.name with
  | none =>
    rw [hlookup, updateTaskSchema_absent] at hvalue
    exact ⟨.inbox, hvalue⟩
  | some value =>
    have hparse : (updateTaskSchema .status).parse (some value) =
        (oneOf statusOptions).parse (some value) := rfl
    rw [hlookup, hparse] at hstatus hvalue
    rcases oneOf_parse statusOptions value with ⟨status, hok⟩ | herror
    · rw [hok] at hvalue
      exact ⟨status, hvalue⟩
    · rw [herror] at hstatus
      cases hstatus

end MissionControl.Tasks.Validation
