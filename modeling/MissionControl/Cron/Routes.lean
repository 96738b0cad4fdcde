import Mathlib.Data.Nat.Digits.Defs
import MissionControl.Foundations.JsText
import MissionControl.Foundations.JsonValues

/-!
`POST /api/cron`: toggle, trigger, remove and add a job of `jobs.json`. The file is what the request
finds there; its jobs are any values, and a property that is read of `null` throws.
-/

set_option autoImplicit false
set_option relaxedAutoImplicit false

namespace MissionControl.Cron.Routes

open MissionControl.Foundations.JsText (orElse trim)
open MissionControl.Foundations.JsonValues
open MissionControl.Foundations.Schema (Json lookup)

/-! ### The file -/

/-- What is at the path of the file. -/
inductive CronPath (Text : Type) where
  | missing
  | unreadable
  | file (raw : Text)
  deriving DecidableEq

/-- The settings that the route reads. -/
structure Environment where
  openclawStateDir : String
  allowCommandTrigger : Option String
  cronAgentId : Option String
  coordinatorAgent : Option String

variable {Text : Type}

/-- Every failure is no file. -/
def loadCronFile (format : Format Text) (env : Environment) : CronPath Text → Option Json
  | .missing | .unreadable => none
  | .file raw => if env.openclawStateDir = "" then none else format.parse raw

/-- The text that is written, if the disk takes it. -/
def saveCronFile (format : Format Text) (env : Environment) (writes : Bool) (data : Json) :
    Option Text :=
  if env.openclawStateDir = "" ∨ writes = false then none else format.print data

/-- `cronFile.jobs`, if it has the methods of an array. -/
def jobsOf (cronFile : Json) : Option (List Json) :=
  match getField cronFile "jobs" with
  | some (.array jobs) => some jobs
  | _ => none

/-- `cronFile.jobs = jobs`, or the file after its jobs have been changed in place. -/
def withJobs (cronFile : Json) (jobs : List Json) : Json :=
  match cronFile with
  | .object fields => .object (setField fields "jobs" (.array jobs))
  | other => other

theorem jobsOf_object {cronFile : Json} {jobs : List Json} (h : jobsOf cronFile = some jobs) :
    ∃ fields, cronFile = .object fields := by
  cases cronFile with
  | object fields => exact ⟨fields, rfl⟩
  | null | bool b | number n | string s | array items => cases h

theorem jobsOf_of_false {cronFile : Json} (h : truthy cronFile = false) : jobsOf cronFile = none := by
  cases cronFile with
  | object fields => cases h
  | null | bool b | number n | string s | array items => rfl

theorem jobsOf_withJobs {cronFile : Json} {jobs : List Json} (h : jobsOf cronFile = some jobs)
    (jobs' : List Json) : jobsOf (withJobs cronFile jobs') = some jobs' := by
  obtain ⟨fields, rfl⟩ := jobsOf_object h
  simp [jobsOf, withJobs, getField]

/-! ### The jobs -/

/-- `===` between a property of a job and a value of the request; objects are never the same. -/
def strictEquals (property : Option Json) : Json → Bool
  | .array _ | .object _ => false
  | value => property = some value

def hasId (id job : Json) : Bool := strictEquals (getField job "id") id

def hasName (name job : Json) : Bool := strictEquals (getField job "name") name

def isNamed (id job : Json) : Bool := hasId id job || hasName id job

/-- `jobs.findIndex(j => j.id === id || j.name === id)`; `none` if it throws. -/
def findJob (id : Json) : List Json → Option (Option Nat)
  | [] => some none
  | job :: jobs =>
    if job = .null then none
    else if isNamed id job then some (some 0)
    else (findJob id jobs).map fun found => found.map (· + 1)

/-- Three readings of the clock in a request. -/
structure Clock where
  id : Nat
  createdAt : Nat
  updatedAt : Nat
  deriving DecidableEq

def isEnabled (job : Json) : Bool := (getField job "enabled").any truthy

/-- `job.enabled = !job.enabled; job.updatedAtMs = Date.now()`. -/
def toggled (clock : Clock) : Json → Json
  | .object fields =>
    .object (setField (setField fields "enabled" (.bool !isEnabled (.object fields))) "updatedAtMs"
      (.number clock.updatedAt))
  | other => other

theorem getField_toggled (clock : Clock) {key : String} (henabled : key ≠ "enabled")
    (hupdated : key ≠ "updatedAtMs") (job : Json) :
    getField (toggled clock job) key = getField job key := by
  cases job with
  | object fields =>
    show lookup (setField (setField fields "enabled" _) "updatedAtMs" _) key = lookup fields key
    rw [lookup_setField_ne _ _ hupdated.symm, lookup_setField_ne _ _ henabled.symm]
  | null | bool b | number n | string s | array items => rfl

theorem isEnabled_toggled (clock : Clock) (fields : List (String × Json)) :
    isEnabled (toggled clock (.object fields)) = !isEnabled (.object fields) := by
  have henabled : getField (toggled clock (.object fields)) "enabled" =
      some (.bool !isEnabled (.object fields)) := by
    show lookup (setField (setField fields "enabled" _) "updatedAtMs" _) "enabled" = _
    rw [lookup_setField_ne _ _ (by decide), lookup_setField_self]
  rw [isEnabled, henabled]
  rfl

def digit36 (n : Nat) : Char :=
  if n < 10 then Char.ofNat ('0'.toNat + n) else Char.ofNat ('a'.toNat + (n - 10))

/-- `n.toString(36)`. -/
def toString36 (n : Nat) : String :=
  if n = 0 then "0" else String.ofList ((Nat.digits 36 n).reverse.map digit36)

/-- The id of a new job. -/
def newId (clock : Clock) : Json := .string ("mc-" ++ toString36 clock.id)

def agentId (env : Environment) : String :=
  orElse (env.cronAgentId.getD "") (orElse (env.coordinatorAgent.getD "") "system")

/-- The model of the payload, if the request names one. -/
def modelField (model : Option Json) : List (String × Json) :=
  match model with
  | some (.string model) => if trim model = "" then [] else [("model", .string (trim model))]
  | _ => []

def newJob (env : Environment) (clock : Clock) (name schedule command : Json)
    (model : Option Json) : Json :=
  .object [("id", newId clock), ("agentId", .string (agentId env)), ("name", name),
    ("enabled", .bool true), ("createdAtMs", .number clock.createdAt),
    ("updatedAtMs", .number clock.updatedAt),
    ("schedule", .object [("kind", .string "cron"), ("expr", schedule)]),
    ("payload", .object ([("kind", .string "agentTurn"), ("message", command)] ++
      modelField model)),
    ("delivery", .object [("mode", .string "none")]), ("state", .object [])]

/-- The file that `add` starts from where there is none. -/
def newCronFile : Json := .object [("version", .number 1), ("jobs", .array [])]

/-! ### The request -/

inductive Reply where
  | idOrNameRequired
  | idRequired
  | fieldsRequired
  | triggersDisabled
  | fileNotFound
  | jobNotFound
  | saveFailed
  | invalidAction
  | internalError
  | toggled (enabled : Bool)
  | triggered (id : Option Json)
  | removed
  | added
  deriving DecidableEq

/-- The status of a reply and its text, if it is an error. What the command prints is not part of
`triggered`. -/
def Reply.error : Reply → Option (Nat × String)
  | .idOrNameRequired => some (400, "Job ID or name required")
  | .idRequired => some (400, "Job ID required")
  | .fieldsRequired => some (400, "Schedule, command, and name required")
  | .triggersDisabled => some (403,
      "Manual triggers disabled. Set MISSION_CONTROL_ALLOW_COMMAND_TRIGGER=1 to enable.")
  | .fileNotFound => some (404, "Cron file not found")
  | .jobNotFound => some (404, "Job not found")
  | .saveFailed => some (500, "Failed to save cron file")
  | .invalidAction => some (400, "Invalid action")
  | .internalError => some (500, "Internal server error")
  | .toggled _ | .triggered _ | .removed | .added => none

/-- What a request makes of the file that it has read: an answer, or a new file and the answer that
is given when that has been written. -/
inductive Outcome where
  | reply (reply : Reply)
  | save (data : Json) (reply : Reply)
  deriving DecidableEq

/-- The actions on a job that exists. -/
inductive Action where
  | toggle
  | trigger
  | remove
  deriving DecidableEq

/-- What an action does with the job at an index. -/
def Action.act (clock : Clock) (cronFile : Json) (jobs : List Json) (i : Nat) : Action → Outcome
  | .toggle =>
    .save (withJobs cronFile (jobs.modify i (Routes.toggled clock)))
      (.toggled ((jobs[i]?).any fun job => !isEnabled job))
  | .trigger => .reply (.triggered ((jobs[i]?).bind fun job => getField job "id"))
  | .remove => .save (withJobs cronFile (jobs.eraseIdx i)) .removed

/-- Find the job and do the action with it. -/
def Action.onJob (action : Action) (clock : Clock) (id cronFile : Json) : Outcome :=
  match jobsOf cronFile with
  | none => .reply .internalError
  | some jobs =>
    match findJob id jobs with
    | none => .reply .internalError
    | some none => .reply .jobNotFound
    | some (some i) => action.act clock cronFile jobs i

/-- `a || b`, where it is true. -/
def firstTruthy (a b : Option Json) : Option Json := (a.filter truthy).orElse fun _ => b.filter truthy

def givenId (body : Json) : Option Json := firstTruthy (getField body "jobId") (getField body "jobName")

def givenName (body : Json) : Option Json := firstTruthy (getField body "jobName") (getField body "name")

def toggle (clock : Clock) (body : Json) (cronFile : Option Json) : Outcome :=
  match givenId body with
  | none => .reply .idOrNameRequired
  | some id =>
    match cronFile.filter truthy with
    | none => .reply .fileNotFound
    | some cronFile => Action.toggle.onJob clock id cronFile

/-- Here a file that is `null` has no job; another false value has no property `find` and throws. -/
def trigger (env : Environment) (clock : Clock) (body : Json) (cronFile : Option Json) : Outcome :=
  match givenId body with
  | none => .reply .idRequired
  | some id =>
    if env.allowCommandTrigger = some "1" then
      match cronFile with
      | none | some .null => .reply .jobNotFound
      | some cronFile => Action.trigger.onJob clock id cronFile
    else .reply .triggersDisabled

def remove (clock : Clock) (body : Json) (cronFile : Option Json) : Outcome :=
  match givenId body with
  | none => .reply .idOrNameRequired
  | some id =>
    match cronFile.filter truthy with
    | none => .reply .fileNotFound
    | some cronFile => Action.remove.onJob clock id cronFile

/-- `jobs.filter(j => j.name !== name)` and the new job; `none` if the filter throws. -/
def replaceNamed (name job : Json) (jobs : List Json) : Option (List Json) :=
  if .null ∈ jobs then none else some (jobs.filter (fun j => !hasName name j) ++ [job])

def add (env : Environment) (clock : Clock) (body : Json) (cronFile : Option Json) : Outcome :=
  match (getField body "schedule").filter truthy, (getField body "command").filter truthy,
      givenName body with
  | some schedule, some command, some name =>
    let cronFile := (cronFile.filter truthy).getD newCronFile
    match (jobsOf cronFile).bind
        (replaceNamed name (newJob env clock name schedule command (getField body "model"))) with
    | none => .reply .internalError
    | some jobs => .save (withJobs cronFile jobs) .added
  | _, _, _ => .reply .fieldsRequired

/-- The request up to the writing of the file. `request.json()` fails without a body. -/
def post (env : Environment) (clock : Clock) (body : Option Json) (cronFile : Option Json) :
    Outcome :=
  match body with
  | none | some .null => .reply .internalError
  | some body =>
    let action := getField body "action"
    if action = some (.string "toggle") then toggle clock body cronFile
    else if action = some (.string "trigger") then trigger env clock body cronFile
    else if action = some (.string "remove") then remove clock body cronFile
    else if action = some (.string "add") then add env clock body cronFile
    else .reply .invalidAction

/-! ### What is written -/

variable {env : Environment} {clock : Clock} {body cronFile data : Json} {reply : Reply}

/-- An action that writes leaves a file with jobs. -/
theorem onJob_save {action : Action} {id : Json}
    (h : action.onJob clock id cronFile = .save data reply) :
    ∃ jobs i, jobsOf cronFile = some jobs ∧
      ((action = .toggle ∧ data = withJobs cronFile (jobs.modify i (toggled clock))) ∨
        (action = .remove ∧ data = withJobs cronFile (jobs.eraseIdx i))) := by
  unfold Action.onJob at h
  cases hjobs : jobsOf cronFile with
  | none => simp [hjobs] at h
  | some jobs =>
    simp only [hjobs] at h
    cases hfound : findJob id jobs with
    | none => simp [hfound] at h
    | some found =>
      cases found with
      | none => simp [hfound] at h
      | some i =>
        simp only [hfound] at h
        cases action with
        | toggle => exact ⟨jobs, i, rfl, .inl ⟨rfl, (Outcome.save.inj h).1.symm⟩⟩
        | trigger => cases h
        | remove => exact ⟨jobs, i, rfl, .inr ⟨rfl, (Outcome.save.inj h).1.symm⟩⟩

theorem add_save {loaded : Option Json} (h : add env clock body loaded = .save data reply) :
    ∃ schedule command name jobs,
      givenName body = some name ∧ jobsOf ((loaded.filter truthy).getD newCronFile) = some jobs ∧
      data = withJobs ((loaded.filter truthy).getD newCronFile)
        (jobs.filter (fun job => !hasName name job) ++
          [newJob env clock name schedule command (getField body "model")]) := by
  unfold add at h
  split at h
  · rename_i schedule command name hschedule hcommand hname
    cases hjobs : jobsOf ((loaded.filter truthy).getD newCronFile) with
    | none => simp [hjobs] at h
    | some jobs =>
      simp only [hjobs, Option.bind_some, replaceNamed] at h
      by_cases hnull : Json.null ∈ jobs
      · simp [hnull] at h
      · simp only [hnull, if_false, Outcome.save.injEq] at h
        exact ⟨schedule, command, name, jobs, hname, rfl, h.1.symm⟩
  · cases h

/-- An action wrote what it made of a job that it found. -/
def WroteJob (clock : Clock) (loaded : Option Json) (data : Json) (reply : Reply) : Prop :=
  ∃ action id cronFile, loaded = some cronFile ∧
    Action.onJob action clock id cronFile = .save data reply

theorem toggle_save {loaded : Option Json} (h : toggle clock body loaded = .save data reply) :
    WroteJob clock loaded data reply := by
  unfold toggle at h
  cases hid : givenId body with
  | none => simp [hid] at h
  | some id =>
    simp only [hid] at h
    cases hloaded : loaded.filter truthy with
    | none => simp [hloaded] at h
    | some cronFile =>
      simp only [hloaded] at h
      exact ⟨.toggle, id, cronFile, Option.eq_some_of_filter_eq_some hloaded, h⟩

theorem remove_save {loaded : Option Json} (h : remove clock body loaded = .save data reply) :
    WroteJob clock loaded data reply := by
  unfold remove at h
  cases hid : givenId body with
  | none => simp [hid] at h
  | some id =>
    simp only [hid] at h
    cases hloaded : loaded.filter truthy with
    | none => simp [hloaded] at h
    | some cronFile =>
      simp only [hloaded] at h
      exact ⟨.remove, id, cronFile, Option.eq_some_of_filter_eq_some hloaded, h⟩

/-- A trigger does not write. -/
theorem trigger_ne_save {loaded : Option Json} : trigger env clock body loaded ≠ .save data reply := by
  intro h
  unfold trigger at h
  cases hid : givenId body with
  | none => simp [hid] at h
  | some id =>
    simp only [hid] at h
    split at h
    · split at h
      · cases h
      · cases h
      · obtain ⟨jobs, i, -, ⟨htoggle, -⟩ | ⟨hremove, -⟩⟩ := onJob_save h
        · cases htoggle
        · cases hremove
    · cases h

/-- A request that writes has changed a job that it found, or adds one. -/
theorem post_cases {body loaded : Option Json} (h : post env clock body loaded = .save data reply) :
    ∃ body', body = some body' ∧
      ((getField body' "action" ≠ some (.string "add") ∧ WroteJob clock loaded data reply) ∨
        (getField body' "action" = some (.string "add") ∧
          add env clock body' loaded = .save data reply)) := by
  unfold post at h
  split at h
  · cases h
  · cases h
  · rename_i body _
    refine ⟨body, rfl, ?_⟩
    by_cases htoggle : getField body "action" = some (.string "toggle")
    · rw [if_pos htoggle] at h
      exact .inl ⟨by simp [htoggle], toggle_save h⟩
    · rw [if_neg htoggle] at h
      by_cases htrigger : getField body "action" = some (.string "trigger")
      · rw [if_pos htrigger] at h
        exact absurd h trigger_ne_save
      · rw [if_neg htrigger] at h
        by_cases hremove : getField body "action" = some (.string "remove")
        · rw [if_pos hremove] at h
          exact .inl ⟨by simp [hremove], remove_save h⟩
        · rw [if_neg hremove] at h
          by_cases hadd : getField body "action" = some (.string "add")
          · rw [if_pos hadd] at h
            exact .inr ⟨hadd, h⟩
          · rw [if_neg hadd] at h
            cases h

end MissionControl.Cron.Routes
