import MissionControl.Events.Stores

/-!
The two files of the Conductor, and the columns of a task that the synchronization derives from an
entry of the first one. A value of the wrong shape makes the synchronization throw where it comes
to it; the others have the fields of their interface.
-/

set_option autoImplicit false
set_option relaxedAutoImplicit false

namespace MissionControl.Conductor.Files

open MissionControl.Foundations.JsText
open MissionControl.Foundations.Schema (Json)
open MissionControl.Tasks.Validation
open MissionControl.Events.Stores

/-! ### Entries -/

structure ConductorPR where
  number : Option Nat
  url : Option String
  lastCommitSha : Option String
  deriving DecidableEq

structure ConductorChecks where
  tmuxAlive : Bool
  prCreated : Bool
  ciStatus : Option String
  reviews : List String
  deriving DecidableEq

/-- An entry of `active-tasks.json`. The times are in milliseconds. -/
structure ConductorTask where
  id : String
  executor : String
  company : String
  repoSlug : String
  baseBranch : String
  branchName : String
  tmuxSession : String
  worktree : String
  modelTier : Nat
  model : String
  prompt : String
  startedAt : Nat
  updatedAt : Nat
  status : String
  retries : Nat
  pr : ConductorPR
  checks : ConductorChecks
  deriving DecidableEq

/-- An entry of `companies.json`: a name may be missing; of the repositories only the context of
each is read. -/
structure ConductorCompany where
  name : Option String
  type : String
  contexts : List String
  deriving DecidableEq

/-- An entry as the loop of the synchronization meets it. -/
inductive Entry (α : Type) where
  | wellFormed (value : α)
  | malformed
  deriving DecidableEq

/-! ### Reading -/

/-- `mtimeMs` and `size` of a file. -/
structure FileStat where
  mtimeMs : Rat
  size : Nat
  deriving DecidableEq

/-- What comes of reading a file and parsing it. -/
inductive Contents (α : Type) where
  | unreadable
  | unparsable
  | parsed (value : α)
  deriving DecidableEq

/-- A file that exists. -/
structure File (α : Type) where
  stat : FileStat
  contents : Contents α
  deriving DecidableEq

abbrev TasksFile := File (List (Entry ConductorTask))

/-- Companies with their keys, in the order in which an object has them. -/
abbrev CompaniesFile := File (List (String × Entry ConductorCompany))

/-- The readers answer with an empty list also where they fail. -/
def readFile {α : Type} (file : Option (File (List α))) : List α :=
  match file with
  | none => []
  | some file =>
    match file.contents with
    | .parsed value => value
    | .unreadable => []
    | .unparsable => []

def readActiveTasksFile (file : Option TasksFile) : List (Entry ConductorTask) := readFile file

def readCompaniesFile (file : Option CompaniesFile) : List (String × Entry ConductorCompany) :=
  readFile file

/-! ### Mapped values -/

/-- `STATUS_MAP[status] || 'inbox'`. -/
def mcStatus (status : String) : TaskStatus :=
  match status with
  | "queued" => .inbox
  | "running" => .in_progress
  | "pr_open" => .review
  | "reviewing" => .review
  | "ready" => .quality_review
  | "merged" => .done
  | "failed" => .in_progress
  | "cancelled" => .done
  | _ => .inbox

/-- `PRIORITY_MAP[modelTier] || 'medium'`. -/
def tierPriority (modelTier : Nat) : TaskPriority :=
  match modelTier with
  | 1 => .urgent
  | 2 => .high
  | 3 => .medium
  | 4 => .low
  | _ => .medium

/-- The lines of a text, as `split('\n')` has them. -/
def lines : List Char → List (List Char)
  | [] => [[]]
  | c :: cs =>
    if c = '\n' then [] :: lines cs
    else
      match lines cs with
      | [] => [[c]]
      | line :: rest => (c :: line) :: rest

/-- The text without a beginning that the pattern `^[a-z-]+-` matches. -/
def withoutKind (cs : List Char) : List Char :=
  let run := cs.takeWhile fun c => ('a' ≤ c ∧ c ≤ 'z') ∨ c = '-'
  let kind := run.length - (run.reverse.takeWhile (· ≠ '-')).length
  if 2 ≤ kind then cs.drop kind else cs

def extractTitle (id prompt : String) : String :=
  let marker := "Task: ".toList
  match (lines prompt.toList).find? fun line => marker.isPrefixOf line with
  | some line =>
    let title := trim (String.ofList (line.drop marker.length))
    if 200 < utf16Length title then String.ofList (takeUnits 197 title.toList) ++ "..." else title
  | none =>
    let cleaned := (withoutKind id.toList).map fun c => if c = '-' then ' ' else c
    String.ofList (takeUnits 200 cleaned)

namespace ConductorTask

variable (task : ConductorTask)

def title : String := extractTitle task.id task.prompt

/-- Failed tasks are urgent whatever their tier is. -/
def priority : TaskPriority :=
  if task.status = "failed" then .urgent else tierPriority task.modelTier

def tags : List String :=
  [task.company, task.executor] ++
    (match truthy task.checks.ciStatus with
      | some ciStatus => ["ci:" ++ ciStatus]
      | none => []) ++
    (if task.status = "failed" then ["failed"] else [])

def metadata : List (String × Json) :=
  [("conductor_id", .string task.id), ("repo_slug", .string task.repoSlug),
    ("branch", .string task.branchName), ("base_branch", .string task.baseBranch),
    ("worktree", .string task.worktree), ("model", .string task.model),
    ("model_tier", natural task.modelTier), ("tmux_session", .string task.tmuxSession),
    ("retries", natural task.retries), ("pr_number", nullable natural task.pr.number),
    ("pr_url", text task.pr.url), ("pr_commit", text task.pr.lastCommitSha),
    ("ci_status", text task.checks.ciStatus), ("tmux_alive", .bool task.checks.tmuxAlive),
    ("pr_created", .bool task.checks.prCreated),
    ("reviews", .array (task.checks.reviews.map .string)),
    ("conductor_status", .string task.status)]

/-- The Conductor is through with the task. -/
def completed : Bool := task.status = "merged" ∨ task.status = "cancelled"

def outcome : Option TaskOutcome :=
  if task.status = "merged" then some .success
  else if task.status = "cancelled" then some .abandoned
  else none

def completedAt : Option Rat := if task.completed then some (seconds task.updatedAt) else none

end ConductorTask

example : extractTitle "acme-fix-login" "You are an agent\nTask: Fix the login \nBe careful" =
    "Fix the login" := by decide +kernel

example : extractTitle "acme-web-42-fix" "No such line" = "42 fix" := by decide +kernel

end MissionControl.Conductor.Files
