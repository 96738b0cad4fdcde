import MissionControl.Foundations.JsText
import MissionControl.Foundations.Transition

/-!
The token usage file. A request reads the whole file, keeps the records of its own workspace,
puts its record in front and writes the file back; a cleanup reads the file and writes the
records back that are young enough. Reads and writes are atomic, and anything may happen between
them. Numbers are whole, and the clock is in milliseconds.
-/

set_option autoImplicit false
set_option relaxedAutoImplicit false

namespace MissionControl.Tokens.UsageFile

open MissionControl.Foundations.JsText
open MissionControl.Foundations.Transition (Machine)

structure TokenUsageRecord where
  id : String
  model : String
  sessionId : String
  agentName : String
  timestamp : Int
  inputTokens : Int
  outputTokens : Int
  totalTokens : Int
  cost : Int
  operation : String
  taskId : Option Int
  workspaceId : Nat
  duration : Option Int
  deriving DecidableEq

/-- `Partial<TokenUsageRecord>`: an element of the array that the file holds as a text. -/
structure StoredRecord where
  id : Option String
  model : Option String
  sessionId : Option String
  agentName : Option String
  timestamp : Option Int
  inputTokens : Option Int
  outputTokens : Option Int
  totalTokens : Option Int
  cost : Option Int
  operation : Option String
  taskId : Option Int
  workspaceId : Option Nat
  duration : Option Int
  deriving DecidableEq

/-- `JSON.stringify`, and then `JSON.parse`. -/
def store (record : TokenUsageRecord) : StoredRecord where
  id := some record.id
  model := some record.model
  sessionId := some record.sessionId
  agentName := some record.agentName
  timestamp := some record.timestamp
  inputTokens := some record.inputTokens
  outputTokens := some record.outputTokens
  totalTokens := some record.totalTokens
  cost := some record.cost
  operation := some record.operation
  taskId := record.taskId
  workspaceId := some record.workspaceId
  duration := record.duration

structure Environment where
  /-- `calculateTokenCost`, with the subscriptions of the installation. -/
  tokenCost : String → Int → Int → Int
  /-- `config.retention.tokenUsage`, in milliseconds. -/
  tokenUsageRetention : Int

def extractAgentName (sessionId : String) : String :=
  let trimmed := trimChars sessionId.toList
  if trimmed = [] then "unknown"
  else orElse (String.ofList (trimChars (trimmed.takeWhile (· ≠ ':')))) "unknown"

/-- The record that an element stands for; `drawn` is the id that one without an id would get. -/
def normalizeTokenRecord (env : Environment) (now : Int) (drawn : String)
    (record : StoredRecord) : Option TokenUsageRecord :=
  (truthy record.model).bind fun model =>
    (truthy record.sessionId).map fun sessionId =>
      let inputTokens := record.inputTokens.getD 0
      let outputTokens := record.outputTokens.getD 0
      { id := record.id.getD drawn
        model := model
        sessionId := sessionId
        agentName := record.agentName.getD (extractAgentName sessionId)
        timestamp := record.timestamp.getD now
        inputTokens := inputTokens
        outputTokens := outputTokens
        totalTokens := record.totalTokens.getD (inputTokens + outputTokens)
        cost := record.cost.getD (env.tokenCost model inputTokens outputTokens)
        operation := record.operation.getD "chat_completion"
        taskId := record.taskId
        workspaceId := record.workspaceId.getD 1
        duration := record.duration }

/-- `loadTokenDataFromFile`, when the text of the file is there. -/
def loadTokenDataFromFile (env : Environment) (now : Int) (drawn : String) (workspaceId : Nat)
    (parsed : List StoredRecord) : List TokenUsageRecord :=
  (parsed.filterMap (normalizeTokenRecord env now drawn)).filter fun record =>
    record.workspaceId = workspaceId ∨
      (workspaceId = 1 ∧ (record.workspaceId = 0 ∨ record.workspaceId = 1))

/-- The records that a request saves. -/
def dataToSave (record : TokenUsageRecord) (existingData : List TokenUsageRecord) :
    List TokenUsageRecord :=
  let data := record :: existingData
  if 10000 < data.length then data.take 10000 else data

/-! ### Requests and cleanups -/

/-- The body of `POST /api/tokens`. -/
structure UsageBody where
  model : String
  sessionId : String
  inputTokens : Option Int
  outputTokens : Option Int
  operation : Option String
  duration : Option Int
  taskId : Option Int
  deriving DecidableEq

/-- The record of a request, if its body is complete. `id` is drawn, and `taskFound` is the
answer of the query for the task. -/
def newRecord (env : Environment) (now : Int) (workspaceId : Nat) (body : UsageBody) (id : String)
    (taskFound : Bool) : Option TokenUsageRecord :=
  if body.model = "" ∨ body.sessionId = "" then none
  else
    body.inputTokens.bind fun inputTokens =>
      body.outputTokens.map fun outputTokens =>
        { id := id
          model := body.model
          sessionId := body.sessionId
          agentName := extractAgentName body.sessionId
          timestamp := now
          inputTokens := inputTokens
          outputTokens := outputTokens
          totalTokens := inputTokens + outputTokens
          cost := env.tokenCost body.model inputTokens outputTokens
          operation := body.operation.getD "chat_completion"
          taskId := body.taskId.filter fun taskId => 0 < taskId ∧ taskFound
          workspaceId := workspaceId
          duration := body.duration }

/-- A suspended `POST /api/tokens`: before its read, or before its write. -/
inductive Post where
  | started (record : TokenUsageRecord)
  | loaded (record : TokenUsageRecord) (found : List StoredRecord) (data : List TokenUsageRecord)
  deriving DecidableEq

def Post.record : Post → TokenUsageRecord
  | .started record => record
  | .loaded record _ _ => record

/-- A suspended `POST /api/cleanup` or `runCleanup`: before its read, or before its write. -/
inductive Cleanup where
  | started (dryRun : Bool)
  | loaded (found kept : List StoredRecord)
  deriving DecidableEq

/-- `saved` are the records of the requests that have succeeded, in order. -/
structure World where
  file : Option (List StoredRecord)
  now : Int
  posts : List Post
  cleanups : List Cleanup
  saved : List TokenUsageRecord
  deriving DecidableEq

def World.empty (now : Int) : World := ⟨none, now, [], [], []⟩

/-- The array in the file. -/
def World.records (w : World) : List StoredRecord := w.file.getD []

/-- `r.timestamp >= cutoffMs`. -/
def Recent (cutoffMs : Int) (record : StoredRecord) : Bool :=
  record.timestamp.any fun timestamp => cutoffMs ≤ timestamp

inductive Event where
  | wait (milliseconds : Nat)
  | post (workspaceId : Nat) (body : UsageBody) (id : String) (taskFound : Bool)
  | readPost (i : Nat) (fails : Bool) (drawn : String)
  | writePost (i : Nat) (fails : Bool)
  | cleanup (dryRun : Bool)
  | readCleanup (i : Nat) (fails : Bool)
  | writeCleanup (i : Nat) (fails : Bool)
  deriving DecidableEq

/-- `POST /api/tokens` up to its read. No workspace has the id 0. -/
def postTokens (env : Environment) (w : World) (workspaceId : Nat) (body : UsageBody) (id : String)
    (taskFound : Bool) : Option World :=
  if workspaceId = 0 then none
  else
    match newRecord env w.now workspaceId body id taskFound with
    | none => some w
    | some record => some { w with posts := w.posts ++ [.started record] }

/-- The read of a request; if it fails, the request goes on with no records. -/
def readPost (env : Environment) (w : World) (i : Nat) (fails : Bool) (drawn : String) :
    Option World :=
  match w.posts[i]? with
  | some (.started record) =>
    let found := if fails then [] else w.records
    let existingData := loadTokenDataFromFile env w.now drawn record.workspaceId found
    some { w with posts := w.posts.set i (.loaded record found (dataToSave record existingData)) }
  | _ => none

/-- The write of a request, and its success. -/
def writePost (w : World) (i : Nat) (fails : Bool) : Option World :=
  match w.posts[i]? with
  | some (.loaded record _ data) =>
    let w := { w with posts := w.posts.eraseIdx i }
    if fails then some w
    else some { w with file := some (data.map store), saved := w.saved ++ [record] }
  | _ => none

/-- The read of a cleanup; it ends here if there is nothing to remove. -/
def readCleanup (env : Environment) (w : World) (i : Nat) (fails : Bool) : Option World :=
  match w.cleanups[i]? with
  | some (.started dryRun) =>
    match if fails then none else w.file with
    | none => some { w with cleanups := w.cleanups.eraseIdx i }
    | some data =>
      let kept := data.filter (Recent (w.now - env.tokenUsageRetention))
      if dryRun = false ∧ 0 < data.length - kept.length then
        some { w with cleanups := w.cleanups.set i (.loaded data kept) }
      else some { w with cleanups := w.cleanups.eraseIdx i }
  | _ => none

/-- The write of a cleanup. -/
def writeCleanup (w : World) (i : Nat) (fails : Bool) : Option World :=
  match w.cleanups[i]? with
  | some (.loaded _ kept) =>
    let w := { w with cleanups := w.cleanups.eraseIdx i }
    if fails then some w else some { w with file := some kept }
  | _ => none

def step (env : Environment) (w : World) : Event → Option World
  | .wait milliseconds => some { w with now := w.now + milliseconds }
  | .post workspaceId body id taskFound => postTokens env w workspaceId body id taskFound
  | .readPost i fails drawn => readPost env w i fails drawn
  | .writePost i fails => writePost w i fails
  | .cleanup dryRun =>
    if 0 < env.tokenUsageRetention then
      some { w with cleanups := w.cleanups ++ [.started dryRun] }
    else some w
  | .readCleanup i fails => readCleanup env w i fails
  | .writeCleanup i fails => writeCleanup w i fails

def machine (env : Environment) : Machine World Event := ⟨step env⟩

end MissionControl.Tokens.UsageFile
