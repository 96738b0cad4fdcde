import Mathlib.Data.List.Sort
import MissionControl.Foundations.Lists
import MissionControl.Foundations.Numbers
import MissionControl.Tokens.UsageFile

/-!
The usage that the routes for tokens work on: the rows of the table and the records of the file, of
which those with one key are taken for one. The file may hold any JSON value.
-/

set_option autoImplicit false
set_option relaxedAutoImplicit false

namespace MissionControl.Tokens.LoadedUsage

open MissionControl.Foundations.JsonValues
open MissionControl.Foundations.JsText (orElse)
open MissionControl.Foundations.Lists
open MissionControl.Foundations.Numbers
open MissionControl.Foundations.Schema (Json lookup)
open UsageFile (extractAgentName)

/-- `duration` is whatever the file has under that name. -/
structure TokenUsageRecord where
  id : String
  model : String
  sessionId : String
  agentName : String
  timestamp : Number
  inputTokens : Number
  outputTokens : Number
  totalTokens : Number
  cost : Number
  operation : String
  taskId : Option ℚ
  workspaceId : ℚ
  duration : Option Json
  deriving DecidableEq

structure Environment where
  conv : Conversions
  /-- `calculateTokenCost`, with the subscriptions of the installation. -/
  calculateTokenCost : String → Number → Number → Number
  /-- `records.sort((a, b) => b.timestamp - a.timestamp)`; timestamps that are no numbers leave the
  order to the engine. -/
  sortByTime : List TokenUsageRecord → List TokenUsageRecord
  sortByTime_perm : ∀ records, (sortByTime records).Perm records

/-- `a + b`. -/
def plus : Number → Number → Number
  | .finite x, .finite y => .finite (x + y)
  | .nan, _ => .nan
  | _, .nan => .nan
  | .infinite negative, .infinite negative' =>
    if negative = negative' then .infinite negative else .nan
  | .infinite negative, .finite _ => .infinite negative
  | .finite _, .infinite negative => .infinite negative

/-- `String(a)`. -/
def numberText (conv : Conversions) : Number → String
  | .nan => "NaN"
  | .finite x => conv.numberText x
  | .infinite negative => if negative then "-Infinity" else "Infinity"

/-! ### The table -/

/-- `DbTokenUsageRow`. -/
structure UsageRow where
  id : Nat
  model : String
  sessionId : String
  inputTokens : ℚ
  outputTokens : ℚ
  taskId : Option Int
  workspaceId : Nat
  createdAt : Int
  deriving DecidableEq

def rowRecord (env : Environment) (row : UsageRow) : TokenUsageRecord where
  id := "db-" ++ toString row.id
  model := row.model
  sessionId := row.sessionId
  agentName := extractAgentName row.sessionId
  timestamp := .finite (row.createdAt * 1000)
  inputTokens := .finite row.inputTokens
  outputTokens := .finite row.outputTokens
  totalTokens := .finite (row.inputTokens + row.outputTokens)
  cost := env.calculateTokenCost row.model (.finite row.inputTokens) (.finite row.outputTokens)
  operation := "heartbeat"
  taskId := row.taskId.map fun taskId => (taskId : ℚ)
  workspaceId := row.workspaceId
  duration := none

/-- `ORDER BY created_at DESC, id DESC`. -/
def comesFirst (a b : UsageRow) : Prop :=
  b.createdAt < a.createdAt ∨ (b.createdAt = a.createdAt ∧ b.id ≤ a.id)

instance decidableComesFirst : DecidableRel comesFirst := fun a b =>
  inferInstanceAs (Decidable (b.createdAt < a.createdAt ∨ (b.createdAt = a.createdAt ∧ b.id ≤ a.id)))

/-- `none` is a table that cannot be read. -/
def loadTokenDataFromDb (env : Environment) (workspaceId : Nat) :
    Option (List UsageRow) → List TokenUsageRecord
  | none => []
  | some table =>
    (((table.filter fun row : UsageRow => row.workspaceId = workspaceId).insertionSort comesFirst).take
      10000).map (rowRecord env)

/-! ### The file -/

/-- What the clock shows and what is drawn for an id while an element is read. -/
structure Reading where
  now : Int
  drawn : String
  deriving DecidableEq

/-- `record.key`, if it is not nullish. -/
def member (fields : List (String × Json)) (key : String) : Option Json :=
  (lookup fields key).filter (· ≠ .null)

/-- `Number(value ?? default)`; `none` is an exception, here and below. -/
def numberOr (conv : Conversions) (value : Option Json) (default : Number) : Option Number :=
  match value with
  | none => some default
  | some value => toNumber conv value

/-- `value != null && Number.isFinite(Number(value)) ? Number(value) : null`. -/
def finiteOf (conv : Conversions) (value : Option Json) : Option (Option ℚ) :=
  match value with
  | none => some none
  | some value =>
    (toNumber conv value).map fun n =>
      match n with
      | .finite x => some x
      | _ => none

/-- `String(value ?? default)`. -/
def textOr (conv : Conversions) (value : Option Json) (default : String) : Option String :=
  match value with
  | none => some default
  | some value => toText conv value

/-- The record of an object with a model and a session. -/
def recordOf (env : Environment) (reading : Reading) (fields : List (String × Json))
    (modelField sessionField : Json) : Option TokenUsageRecord := do
  let field := member fields
  let inputTokens ← numberOr env.conv (field "inputTokens") (.finite 0)
  let outputTokens ← numberOr env.conv (field "outputTokens") (.finite 0)
  let totalTokens ← numberOr env.conv (field "totalTokens") (plus inputTokens outputTokens)
  let model ← toText env.conv modelField
  let id ← textOr env.conv (field "id") (toString reading.now ++ "-" ++ reading.drawn)
  let sessionId ← toText env.conv sessionField
  let agentName ← textOr env.conv (field "agentName") (extractAgentName sessionId)
  let timestamp ← numberOr env.conv (field "timestamp") (.finite reading.now)
  let cost ← numberOr env.conv (field "cost")
    (env.calculateTokenCost model inputTokens outputTokens)
  let operation ← textOr env.conv (field "operation") "chat_completion"
  let taskId ← finiteOf env.conv (field "taskId")
  let workspaceId ← finiteOf env.conv (field "workspaceId")
  some
    { id := id
      model := model
      sessionId := sessionId
      agentName := agentName
      timestamp := timestamp
      inputTokens := inputTokens
      outputTokens := outputTokens
      totalTokens := totalTokens
      cost := cost
      operation := operation
      taskId := taskId
      workspaceId := workspaceId.getD 1
      duration := lookup fields "duration" }

/-- Only an object has properties, and `null` cannot be asked for one. -/
def normalizeTokenRecord (env : Environment) (reading : Reading) :
    Json → Option (Option TokenUsageRecord)
  | .null => none
  | .object fields =>
    match (lookup fields "model").filter truthy, (lookup fields "sessionId").filter truthy with
    | some model, some sessionId => (recordOf env reading fields model sessionId).map some
    | _, _ => some none
  | _ => some none

/-- The filter for the workspace. -/
def ofWorkspace (workspaceId : Nat) (record : TokenUsageRecord) : Bool :=
  record.workspaceId = workspaceId ∨
    (workspaceId = 1 ∧ (record.workspaceId = 0 ∨ record.workspaceId = 1))

/-- The elements of the file, each with its reading. `none` is a file that is not there or holds no
JSON. -/
def elements (readings : Nat → Reading) : Option Json → List (Reading × Json)
  | some (.array items) => items.zipIdx.map fun item => (readings item.2, item.1)
  | _ => []

def loadTokenDataFromFile (env : Environment) (readings : Nat → Reading) (workspaceId : Nat)
    (file : Option Json) : List TokenUsageRecord :=
  match (elements readings file).mapM fun e => normalizeTokenRecord env e.1 e.2 with
  | none => []
  | some records => (records.filterMap id).filter (ofWorkspace workspaceId)

/-! ### Both -/

/-- `record.duration ?? ''`, as `join` writes it. -/
def durationText (conv : Conversions) : Option Json → Option String
  | none => some ""
  | some .null => some ""
  | some value => toText conv value

def dedupeKey (conv : Conversions) (record : TokenUsageRecord) : Option String :=
  (durationText conv record.duration).map fun duration =>
    "|".intercalate
      [record.sessionId, record.model, numberText conv record.timestamp,
        numberText conv record.inputTokens, numberText conv record.outputTokens,
        numberText conv record.totalTokens, record.operation,
        (record.taskId.map conv.numberText).getD "", conv.numberText record.workspaceId, duration]

def dedupeTokenRecords (conv : Conversions) (records : List TokenUsageRecord) :
    Option (List TokenUsageRecord) :=
  (records.mapM fun record => (dedupeKey conv record).map fun key => (key, record)).map
    fun keyed => (keepFirst Prod.fst [] keyed).map Prod.snd

structure GatewaySession where
  key : String
  agent : String
  updatedAt : ℚ
  chatType : String
  model : String
  inputTokens : ℚ
  outputTokens : ℚ
  deriving DecidableEq

/-- `totalTokens <= 0 && !session.model`. -/
def emptySession (session : GatewaySession) : Bool :=
  decide (session.inputTokens + session.outputTokens ≤ 0) && decide (session.model = "")

def sessionRecord (env : Environment) (workspaceId : Nat) (session : GatewaySession) :
    TokenUsageRecord where
  id := "session-" ++ session.agent ++ "-" ++ session.key
  model := orElse session.model "unknown"
  sessionId := session.agent ++ ":" ++ session.chatType
  agentName := orElse session.agent "unknown"
  timestamp := .finite session.updatedAt
  inputTokens := .finite session.inputTokens
  outputTokens := .finite session.outputTokens
  totalTokens := .finite (session.inputTokens + session.outputTokens)
  cost := env.calculateTokenCost session.model (.finite session.inputTokens)
    (.finite session.outputTokens)
  operation := orElse session.chatType "chat"
  taskId := none
  workspaceId := workspaceId
  duration := none

def deriveFromSessions (env : Environment) (workspaceId : Nat) (sessions : List GatewaySession) :
    List TokenUsageRecord :=
  env.sortByTime ((sessions.filter fun session => !emptySession session).map
    (sessionRecord env workspaceId))

/-- What there is to load from. -/
structure Sources where
  table : Option (List UsageRow)
  file : Option Json
  readings : Nat → Reading
  sessions : List GatewaySession

def loadTokenData (env : Environment) (workspaceId : Nat) (sources : Sources) :
    Option (List TokenUsageRecord) :=
  let dbRecords := loadTokenDataFromDb env workspaceId sources.table
  let fileRecords := loadTokenDataFromFile env sources.readings workspaceId sources.file
  (dedupeTokenRecords env.conv (dbRecords ++ fileRecords)).map fun deduped =>
    let combined := env.sortByTime deduped
    if 0 < combined.length then combined
    else deriveFromSessions env workspaceId sources.sessions

end MissionControl.Tokens.LoadedUsage
