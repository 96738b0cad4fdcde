import Mathlib.Algebra.Order.Field.Rat
import MissionControl.Foundations.JsObjects
import MissionControl.Foundations.JsText
import MissionControl.Foundations.Transition

/-!
The sessions that are found on the disk. A scan reads all transcripts below a directory, and what it
finds is written over the rows of the same sessions. Costs and token counts are exact.
-/

set_option autoImplicit false
set_option relaxedAutoImplicit false

namespace MissionControl.Sessions.ClaudeSessions

open MissionControl.Foundations.JsText
open MissionControl.Foundations.Transition (Machine)

/-- What the language makes of texts. -/
structure Environment where
  /-- `new Date(text).getTime()`; `none` is `NaN`. -/
  getTime : String → Option Int

/-! ### Transcripts -/

structure Usage where
  inputTokens : Option Rat
  outputTokens : Option Rat
  cacheReadInputTokens : Option Rat
  cacheCreationInputTokens : Option Rat
  deriving DecidableEq

inductive Content where
  | text (content : String)
  /-- Blocks, by their types. -/
  | blocks (types : List String)
  deriving DecidableEq

structure Message where
  content : Option Content
  model : Option String
  usage : Option Usage
  deriving DecidableEq

structure JSONLEntry where
  type : Option String
  sessionId : Option String
  timestamp : Option String
  isSidechain : Option Bool
  gitBranch : Option String
  cwd : Option String
  message : Option Message
  deriving DecidableEq

/-- A line of a transcript that is not empty, as `JSON.parse` reads it. -/
inductive Line where
  | malformed
  | null
  | entry (entry : JSONLEntry)
  deriving DecidableEq

/-- A file, with what the clock says when it is read; one without lines cannot be read. -/
structure File where
  name : String
  lines : Option (List Line)
  readAt : Int
  deriving DecidableEq

structure SessionStats where
  sessionId : String
  projectSlug : String
  projectPath : Option String
  model : Option String
  gitBranch : Option String
  userMessages : Nat
  assistantMessages : Nat
  toolUses : Nat
  inputTokens : Rat
  outputTokens : Rat
  /-- `none` is `NaN`. -/
  estimatedCost : Option Rat
  firstMessageAt : Option String
  lastMessageAt : Option String
  lastUserPrompt : Option String
  isActive : Bool
  deriving DecidableEq

/-- The variables of the loop over the lines. -/
structure Totals where
  sessionId : Option String
  model : Option String
  gitBranch : Option String
  projectPath : Option String
  userMessages : Nat
  assistantMessages : Nat
  toolUses : Nat
  inputTokens : Rat
  outputTokens : Rat
  cacheReadTokens : Rat
  cacheCreationTokens : Rat
  firstMessageAt : Option String
  lastMessageAt : Option String
  lastUserPrompt : Option String
  deriving DecidableEq

def noTotals : Totals :=
  ⟨none, none, none, none, 0, 0, 0, 0, 0, 0, 0, none, none, none⟩

/-- What every entry says of its session. -/
def addSession (t : Totals) (entry : JSONLEntry) : Totals :=
  { t with
    sessionId := t.sessionId <|> truthy entry.sessionId
    gitBranch := t.gitBranch <|> truthy entry.gitBranch
    projectPath := t.projectPath <|> truthy entry.cwd
    firstMessageAt := t.firstMessageAt <|> truthy entry.timestamp
    lastMessageAt := truthy entry.timestamp <|> t.lastMessageAt }

def addUserMessage (t : Totals) (message : Message) : Totals :=
  { t with
    userMessages := t.userMessages + 1
    lastUserPrompt :=
      match message.content with
      | some (.text content) =>
        if content = "" then t.lastUserPrompt
        else some (String.ofList (takeUnits 500 content.toList))
      | _ => t.lastUserPrompt }

def addUsage (t : Totals) (usage : Usage) : Totals :=
  { t with
    inputTokens := t.inputTokens + usage.inputTokens.getD 0
    cacheReadTokens := t.cacheReadTokens + usage.cacheReadInputTokens.getD 0
    cacheCreationTokens := t.cacheCreationTokens + usage.cacheCreationInputTokens.getD 0
    outputTokens := t.outputTokens + usage.outputTokens.getD 0 }

def toolUses : Option Content → Nat
  | some (.blocks types) => types.countP fun type => type = "tool_use"
  | _ => 0

def addAssistantMessage (t : Totals) (message : Message) : Totals :=
  let counted := (message.usage.map (addUsage t)).getD t
  { counted with
    assistantMessages := t.assistantMessages + 1
    model := truthy message.model <|> t.model
    toolUses := t.toolUses + toolUses message.content }

/-- One turn of the loop. Messages of a side chain are not counted. -/
def addEntry (t : Totals) (entry : JSONLEntry) : Totals :=
  let t := addSession t entry
  if entry.isSidechain.getD false then t
  else
    match entry.message with
    | none => t
    | some message =>
      if entry.type = some "user" then addUserMessage t message
      else if entry.type = some "assistant" then addAssistantMessage t message
      else t

/-- `null` has no fields, so reading one of them throws. -/
def addLine (t : Totals) : Line → Option Totals
  | .malformed => some t
  | .null => none
  | .entry entry => some (addEntry t entry)

structure Pricing where
  input : Rat
  output : Rat
  deriving DecidableEq

def modelPricing : List (String × Pricing) :=
  [("claude-opus-4-6", ⟨15 / 1000000, 75 / 1000000⟩),
    ("claude-sonnet-4-6", ⟨3 / 1000000, 15 / 1000000⟩),
    ("claude-haiku-4-5", ⟨(8 / 10) / 1000000, 4 / 1000000⟩)]

def defaultPricing : Pricing := ⟨3 / 1000000, 15 / 1000000⟩

/-- The prices of a model. The table is an object and answers for the members that every object
has, which are no prices. -/
def pricingOf (model : Option String) : Option Pricing :=
  match truthy model with
  | none => some defaultPricing
  | some model =>
    match modelPricing.lookup model with
    | some pricing => some pricing
    | none => if model ∈ Foundations.JsObjects.members then none else some defaultPricing

def estimatedCost (t : Totals) : Option Rat :=
  (pricingOf t.model).map fun pricing =>
    let cost := t.inputTokens * pricing.input + t.cacheReadTokens * pricing.input * (1 / 10) +
      t.cacheCreationTokens * pricing.input * (5 / 4) + t.outputTokens * pricing.output
    ((cost * 10000 + 1 / 2).floor : Rat) / 10000

def activeThresholdMs : Int := 5 * 60 * 1000

def isActive (env : Environment) (now : Int) (lastMessageAt : Option String) : Bool :=
  lastMessageAt.any fun text => (env.getTime text).any fun time => now - time < activeThresholdMs

def statsOf (env : Environment) (projectSlug : String) (readAt : Int) (t : Totals)
    (sessionId : String) : SessionStats where
  sessionId := sessionId
  projectSlug := projectSlug
  projectPath := t.projectPath
  model := t.model
  gitBranch := t.gitBranch
  userMessages := t.userMessages
  assistantMessages := t.assistantMessages
  toolUses := t.toolUses
  inputTokens := t.inputTokens + t.cacheReadTokens + t.cacheCreationTokens
  outputTokens := t.outputTokens
  estimatedCost := estimatedCost t
  firstMessageAt := t.firstMessageAt
  lastMessageAt := t.lastMessageAt
  lastUserPrompt := t.lastUserPrompt
  isActive := isActive env readAt t.lastMessageAt

def parseSessionFile (env : Environment) (projectSlug : String) (file : File) :
    Option SessionStats :=
  match file.lines with
  | none => none
  | some lines =>
    if lines = [] then none
    else
      (lines.foldlM addLine noTotals).bind fun t =>
        t.sessionId.map (statsOf env projectSlug file.readAt t)

/-! ### Scans -/

/-- What there is under a name in the directory of the projects. -/
inductive ProjectEntry where
  | missing
  | notDirectory
  | unreadable
  | directory (files : List File)
  deriving DecidableEq

structure Project where
  slug : String
  entry : ProjectEntry
  deriving DecidableEq

/-- The directory that is scanned; without projects there is none, or it cannot be read. -/
structure Home where
  claudeHome : String
  projects : Option (List Project)
  deriving DecidableEq

def jsonlFiles : ProjectEntry → List File
  | .directory files => files.filter fun file => ".jsonl".toList.isSuffixOf file.name.toList
  | _ => []

def scanClaudeSessions (env : Environment) (home : Home) : List SessionStats :=
  if home.claudeHome = "" then []
  else
    (home.projects.getD []).flatMap fun project =>
      (jsonlFiles project.entry).filterMap (parseSessionFile env project.slug)

/-! ### Rows -/

structure ClaudeSession where
  sessionId : String
  projectSlug : String
  projectPath : Option String
  model : Option String
  gitBranch : Option String
  userMessages : Nat
  assistantMessages : Nat
  toolUses : Nat
  inputTokens : Rat
  outputTokens : Rat
  estimatedCost : Rat
  firstMessageAt : Option String
  lastMessageAt : Option String
  lastUserPrompt : Option String
  isActive : Nat
  scannedAt : Int
  updatedAt : Int
  deriving DecidableEq

def insertedRow (s : SessionStats) (cost : Rat) (now : Int) : ClaudeSession where
  sessionId := s.sessionId
  projectSlug := s.projectSlug
  projectPath := s.projectPath
  model := s.model
  gitBranch := s.gitBranch
  userMessages := s.userMessages
  assistantMessages := s.assistantMessages
  toolUses := s.toolUses
  inputTokens := s.inputTokens
  outputTokens := s.outputTokens
  estimatedCost := cost
  firstMessageAt := s.firstMessageAt
  lastMessageAt := s.lastMessageAt
  lastUserPrompt := s.lastUserPrompt
  isActive := if s.isActive then 1 else 0
  scannedAt := now
  updatedAt := now

/-- `DO UPDATE SET`, which leaves the project and the first message. -/
def updatedRow (row excluded : ClaudeSession) : ClaudeSession :=
  { excluded with
    projectSlug := row.projectSlug
    projectPath := row.projectPath
    firstMessageAt := row.firstMessageAt }

/-- A cost that is no number is no value for its column. -/
def upsert (now : Int) (rows : List ClaudeSession) (s : SessionStats) :
    Option (List ClaudeSession) :=
  s.estimatedCost.map fun cost =>
    let inserted := insertedRow s cost now
    if s.sessionId ∈ rows.map ClaudeSession.sessionId then
      rows.map fun row => if row.sessionId = s.sessionId then updatedRow row inserted else row
    else rows ++ [inserted]

structure Result where
  ok : Bool
  message : String
  deriving DecidableEq

/-- A synchronization: what lies on the disk, what the clock says when the rows are written, and an
error of the database, which then keeps all rows. -/
structure Sync where
  home : Home
  now : Int
  failure : Option String
  deriving DecidableEq

def markInactive (rows : List ClaudeSession) : List ClaudeSession :=
  rows.map fun row => { row with isActive := 0 }

def writeSessions (sync : Sync) (sessions : List SessionStats) (rows : List ClaudeSession) :
    Except String (List ClaudeSession) :=
  match sync.failure with
  | some message => .error message
  | none =>
    match sessions.foldlM (upsert (sync.now / 1000)) (markInactive rows) with
    | none => .error "NOT NULL constraint failed: claude_sessions.estimated_cost"
    | some rows => .ok rows

def syncClaudeSessions (env : Environment) (rows : List ClaudeSession) (sync : Sync) :
    List ClaudeSession × Result :=
  let sessions := scanClaudeSessions env sync.home
  if sessions = [] then (rows, ⟨true, "No Claude sessions found"⟩)
  else
    match writeSessions sync sessions rows with
    | .error message => (rows, ⟨false, "Scan failed: " ++ message⟩)
    | .ok rows =>
      (rows, ⟨true, "Scanned " ++ toString sessions.length ++ " session(s), " ++
        toString (sessions.countP SessionStats.isActive) ++ " active"⟩)

def machine (env : Environment) : Machine (List ClaudeSession) Sync where
  step rows sync := some (syncClaudeSessions env rows sync).1

end MissionControl.Sessions.ClaudeSessions
