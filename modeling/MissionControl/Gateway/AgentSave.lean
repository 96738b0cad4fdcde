import MissionControl.Foundations.JsText
import MissionControl.Gateway.AgentFile

/-!
The request that saves the configuration of an agent in two places: first it is merged into
`openclaw.json`, then the row of the agent is updated. If that fails, the configuration that the
row had is merged into the file.
-/

set_option autoImplicit false
set_option relaxedAutoImplicit false

namespace MissionControl.Gateway.AgentSave

open MissionControl.Foundations.JsText (isWhiteSpace)
open MissionControl.Foundations.JsonValues
open MissionControl.Foundations.Schema (Json lookup)
open MissionControl.Gateway.AgentFile

/-! ### Rows -/

/-- A row of `agents`; `config` is `none` where the column has no text. -/
structure AgentRow (Text : Type) where
  id : Nat
  name : String
  role : String
  soulContent : Option String
  config : Option Text
  workspaceId : Nat
  updatedAt : Nat
  deriving DecidableEq

/-- What the last part of the path is read as. -/
inductive Target where
  | named (name : String)
  | numbered (id : Nat)
  deriving DecidableEq

variable {Text : Type}

def Target.selects (workspaceId : Nat) (target : Target) (agent : AgentRow Text) : Bool :=
  decide (agent.workspaceId = workspaceId) &&
    match target with
    | .named name => decide (agent.name = name)
    | .numbered id => decide (agent.id = id)

/-! ### The request -/

structure Request (Text : Type) where
  target : Target
  workspaceId : Nat
  body : Text
  now : Nat

/-- What the request meets: the lower case of texts, the text that the database makes of a number,
a path to the file or none, whether it can be written for the update and again for the way back,
whether the row can be updated, and whether the logs can be written. -/
structure Environment where
  toLowerCase : String → String
  numberText : Rat → String
  configPath : Bool
  writes : Bool
  writesBack : Bool
  updates : Bool
  logs : Bool

/-- Nothing fails. -/
def Environment.plain : Environment := ⟨id, toString, true, true, true, true, true⟩

inductive Reply where
  | saved
  | notFound
  /-- Status 502, `Save failed: unable to update gateway config: `. -/
  | gatewayFailed
  /-- Status 500, `Save failed: `. -/
  | saveFailed
  /-- Status 500, `Save failed after gateway update and rollback failed: `. -/
  | rollbackFailed
  /-- Status 500, with the message of the error. -/
  | failed
  deriving DecidableEq

/-- The properties that a spread takes from a value. -/
def spreadFields : Json → List (String × Json)
  | .object fields => fields
  | .array items => items.zipIdx.map fun (item, i) => (toString i, item)
  | .string s => s.toList.zipIdx.map fun (c, i) => (toString i, .string (String.singleton c))
  | _ => []

def isObject : Json → Bool
  | .array _ => true
  | .object _ => true
  | _ => false

/-- `{ ...existingConfig, ...gateway_config }`, or the configuration as it is. -/
def mergedConfig (existingConfig : Json) (gatewayConfig : Option Json) : Json :=
  match gatewayConfig with
  | none => existingConfig
  | some gatewayConfig =>
    if isObject gatewayConfig then
      .object (spread (spread [] (spreadFields existingConfig)) (spreadFields gatewayConfig))
    else existingConfig

/-- `text.replace(/\s+/g, '-')`. -/
def hyphenate : List Char → List Char
  | [] => []
  | [c] => if isWhiteSpace c then ['-'] else [c]
  | c :: d :: cs =>
    if isWhiteSpace c then
      if isWhiteSpace d then hyphenate (d :: cs) else '-' :: hyphenate (d :: cs)
    else c :: hyphenate (d :: cs)

def openclawId (env : Environment) (existingConfig : Json) (name : String) : Json :=
  ((getField existingConfig "openclawId").filter truthy).getD
    (.string (String.ofList (hyphenate (env.toLowerCase name).toList)))

/-- The properties that are written back to the file. -/
def writeBackKeys : List String :=
  ["model", "identity", "sandbox", "tools", "subagents", "memorySearch"]

/-- `getWriteBackPayload(source)`. -/
def writeBackPayload (id source : Json) : AgentConfig where
  id := id
  fields := select writeBackKeys fun key => (getField source key).filter truthy

def shouldWriteToGateway (gatewayConfig writeToGateway : Option Json) : Bool :=
  gatewayConfig.any truthy &&
    (writeToGateway = none || writeToGateway = some .null || writeToGateway = some (.bool true))

/-- `writeAgentToConfig`, and the text that is then in the file. -/
def writeFile (disk : Format Text) (configPath writes : Bool) (file : Option Text)
    (agentConfig : AgentConfig) : Option Text :=
  if configPath ∧ writes then file.bind (writeAgentToConfig disk agentConfig) else none

/-- The text that a bound value becomes in a column of texts that must have one. An array is taken
for the values to bind. -/
def boundText (numberText : Rat → String) : Json → Option String
  | .string s => some s
  | .number n => some (numberText n)
  | .array [.string s] => some s
  | .array [.number n] => some (numberText n)
  | _ => none

/-- The row with the update, or `none` if it fails. -/
def updateRow (json : Format Text) (env : Environment) (role gatewayConfig : Option Json)
    (newConfig : Json) (now : Nat) (agent : AgentRow Text) : Option (AgentRow Text) :=
  match role.map (boundText env.numberText) with
  | some none => none
  | role' =>
    match if gatewayConfig.any truthy then (json.print newConfig).map some else some agent.config with
    | none => none
    | some config =>
      if env.updates then
        some { agent with
          role := (role'.bind id).getD agent.role
          config := config
          updatedAt := now }
      else none

def setRow (agent : AgentRow Text) (agents : List (AgentRow Text)) : List (AgentRow Text) :=
  agents.map fun a => if a.id = agent.id ∧ a.workspaceId = agent.workspaceId then agent else a

/-- The update of the row, and the way back in the file if it fails. -/
def saveRow (disk : Format Text) (env : Environment) (file : Option Text)
    (agents : List (AgentRow Text)) (row : Option (AgentRow Text)) (written : Bool)
    (writeBack : AgentConfig) : Reply × Option Text × List (AgentRow Text) :=
  match row with
  | some row => (if env.logs then .saved else .failed, file, setRow row agents)
  | none =>
    if written then
      match writeFile disk env.configPath env.writesBack file writeBack with
      | none => (.rollbackFailed, file, agents)
      | some text => (.saveFailed, some text, agents)
    else (.saveFailed, file, agents)

/-- `PUT /api/agents/[id]` of an operator. -/
def put (json disk : Format Text) (env : Environment) (file : Option Text)
    (agents : List (AgentRow Text)) (request : Request Text) :
    Reply × Option Text × List (AgentRow Text) :=
  match json.parse request.body with
  | none => (.failed, file, agents)
  | some .null => (.failed, file, agents)
  | some body =>
    match agents.find? (request.target.selects request.workspaceId) with
    | none => (.notFound, file, agents)
    | some agent =>
      match agent.config.elim (some (.object [])) json.parse with
      | none => (.failed, file, agents)
      | some .null => (.failed, file, agents)
      | some existingConfig =>
        let gatewayConfig := getField body "gateway_config"
        let writes := shouldWriteToGateway gatewayConfig (getField body "write_to_gateway")
        let id := openclawId env existingConfig agent.name
        let row := updateRow json env (getField body "role") gatewayConfig
          (mergedConfig existingConfig gatewayConfig) request.now agent
        let writeBack := writeBackPayload id existingConfig
        if writes then
          match writeFile disk env.configPath env.writes file
              (writeBackPayload id (gatewayConfig.getD .null)) with
          | none => (.gatewayFailed, file, agents)
          | some text => saveRow disk env (some text) agents row true writeBack
        else saveRow disk env file agents row false writeBack

/-! ### What is written back -/

/-- What is written back has every name once. -/
theorem distinct_writeBackPayload {id source : Json} (hid : distinct id = true)
    (hsource : distinct source = true) :
    distinct (.object (writeBackPayload id source).object) = true := by
  have hkeys : ("id" :: writeBackKeys).Nodup := by decide
  obtain ⟨hnot, hnodup⟩ := List.nodup_cons.mp hkeys
  have hvalues : ∀ key v, (getField source key).filter truthy = some v → distinct v = true :=
    fun key v hv => distinct_getField hsource (Option.filter_eq_some_iff.mp hv).1
  have hfields : distinctFields (writeBackPayload id source).fields = true :=
    distinctFields_select writeBackKeys hvalues
  have hnames : names (writeBackPayload id source).fields =
      writeBackKeys.filter fun key => ((getField source key).filter truthy).isSome :=
    names_select _ _
  have hnew : "id" ∉ names (writeBackPayload id source).fields := by
    rw [hnames]
    exact fun hmem => hnot (List.mem_of_mem_filter hmem)
  have honce : (names (writeBackPayload id source).fields).Nodup := by
    rw [hnames]
    exact hnodup.filter _
  have hid' : distinct (writeBackPayload id source).id = true := hid
  simp [AgentConfig.object, distinct, distinctFields, hid', hfields, hnew, honce]

theorem writeFile_eq_some {disk : Format Text} {file : Option Text} {configPath writes : Bool} {agentConfig : AgentConfig} {text : Text}
    (h : writeFile disk configPath writes file agentConfig = some text) :
    ∃ raw doc doc', file = some raw ∧ disk.parse raw = some doc ∧
      writeAgent agentConfig doc = some doc' ∧ disk.parse text = some doc' := by
  unfold writeFile at h
  split at h
  · obtain ⟨raw, hraw, hwritten⟩ := Option.bind_eq_some_iff.mp h
    obtain ⟨doc', hdoc', hprint⟩ := Option.bind_eq_some_iff.mp hwritten
    obtain ⟨doc, hdoc, hwrite⟩ := Option.bind_eq_some_iff.mp hdoc'
    exact ⟨raw, doc, doc', hraw, hdoc, hwrite, disk.parse_print doc' text hprint⟩
  · cases h

end MissionControl.Gateway.AgentSave
