import MissionControl.Foundations.JsText
import MissionControl.Foundations.JsonValues
import MissionControl.Gateway.AgentSave

/-!
What is read from the files in the workspace of an agent: its identity, and the tools that it may
use.
-/

set_option autoImplicit false
set_option relaxedAutoImplicit false

namespace MissionControl.Gateway.WorkspaceFiles

open MissionControl.Foundations.JsText
open MissionControl.Foundations.Schema (Json)

/-- The lines of a file without the white space around them; empty ones are left out. -/
def trimmedLines (content : String) : List (List Char) :=
  ((content.toList.splitOn '\n').map trimChars).filter (· ≠ [])

def joinLines (lines : List (List Char)) : Json :=
  .string (String.ofList (['\n'].intercalate lines))

/-- A character that a dot in a pattern does not stand for. -/
def isLineTerminator (c : Char) : Bool :=
  c = '\n' ∨ c = '\r' ∨ c = '\u2028' ∨ c = '\u2029'

/-- What `/^label\s*:\s*(.+)$/i` captures in a line. -/
def labelled (label : List Char) (line : List Char) : Option (List Char) :=
  if (line.take label.length).map Char.toLower = label then
    match (line.drop label.length).dropWhile isWhiteSpace with
    | ':' :: rest =>
      let value := rest.dropWhile isWhiteSpace
      if value ≠ [] ∧ value.all (fun c => !isLineTerminator c) then some value else none
    | _ => none
  else none

/-- What the lines read so far say of an identity; an empty text is none. -/
structure Identity where
  name : List Char
  theme : List Char
  emoji : List Char
  deriving DecidableEq

/-- Read one line of `identity.md`. -/
def readIdentityLine (identity : Identity) (line : List Char) : Identity :=
  if identity.name = [] ∧ line.head? = some '#' then
    { identity with name := trimChars (line.dropWhile (· = '#')) }
  else
    match if identity.theme = [] then labelled "theme".toList line else none with
    | some theme => { identity with theme := trimChars theme }
    | none =>
      match if identity.emoji = [] then labelled "emoji".toList line else none with
      | some emoji => { identity with emoji := trimChars emoji }
      | none => identity

def textField (key : String) (text : List Char) : List (String × Json) :=
  if text = [] then [] else [(key, .string (String.ofList text))]

def parseIdentityFromFile (content : String) : List (String × Json) :=
  let lines := trimmedLines content
  if lines = [] then []
  else
    let identity := lines.foldl readIdentityLine ⟨[], [], []⟩
    textField "name" identity.name ++ textField "theme" identity.theme ++
      textField "emoji" identity.emoji ++ [("content", joinLines (lines.take 8))]

/-- The text without a last backquote, if it is not empty and has no other one. -/
def beforeQuote (text : List Char) : Option (List Char) :=
  let body := if text.getLast? = some '\x60' then text.dropLast else text
  if body ≠ [] ∧ '\x60' ∉ body then some body else none

/-- What a line of `TOOLS.md` names: an item of a list, in backquotes or not, or a text in
backquotes. -/
def toolName : List Char → Option (List Char)
  | [] => none
  | c :: rest =>
    if c = '-' ∨ c = '*' then
      if rest.head?.any isWhiteSpace then
        match rest.dropWhile isWhiteSpace with
        | '\x60' :: item => (beforeQuote item).map trimChars
        | item => (beforeQuote item).map trimChars
      else none
    else if c = '\x60' ∧ rest.getLast? = some '\x60' then (beforeQuote rest).map trimChars
    else none

/-- The tools that the lines name, each of them once. -/
def toolNames (lines : List (List Char)) : List (List Char) :=
  ((lines.filterMap toolName).filter (· ≠ [])).foldl
    (fun tools tool => if tool ∈ tools then tools else tools ++ [tool]) []

def parseToolsFromFile (content : String) : List (String × Json) :=
  let lines := trimmedLines content
  if lines = [] then []
  else
    let allow := toolNames lines
    (if allow = [] then []
      else [("allow", .array (allow.map fun tool => .string (String.ofList tool)))]) ++
      [("raw", joinLines (lines.take 24))]

end MissionControl.Gateway.WorkspaceFiles

/-!
The synchronisation of the agents in `openclaw.json` into the table of agents. Every entry is
mapped to a name, a role and a configuration, to which the files in its workspace add, and the row
with that name is compared to them as texts.
-/

namespace MissionControl.Gateway.AgentSync

open MissionControl.Foundations.JsonValues
open MissionControl.Foundations.Schema (Json lookup)
open MissionControl.Gateway.AgentSave
open MissionControl.Gateway.WorkspaceFiles

/-! ### Entries -/

/-- The text of a file in a workspace, if it can be read, and the text that the database makes of
a number. -/
structure Workspaces where
  readFile : String → String → Option String
  numberText : Rat → String

/-- `readWorkspaceFile(workspace, filename)`. -/
def readWorkspaceFile (ws : Workspaces) (workspace : Option Json) (filename : String) :
    Option String :=
  match workspace with
  | some (.string workspace) => if workspace = "" then none else ws.readFile workspace filename
  | _ => none

/-- The value that a workspace file adds to, if there is a workspace. -/
def enriched (ws : Workspaces) (workspace : Option Json) (filename : String)
    (parseFile : String → List (String × Json)) (value : Option Json) : Option Json :=
  match workspace with
  | some (.string name) =>
    if name = "" then value
    else
      let merged := spread (parseFile ((readWorkspaceFile ws workspace filename).getD ""))
        ((value.filter isObject).elim [] spreadFields)
      if merged = [] then value else some (.object merged)
  | _ => value

/-- The properties of the configuration of an agent, in their order. -/
def configKeys : List String :=
  ["openclawId", "model", "identity", "sandbox", "tools", "subagents", "memorySearch", "workspace",
    "agentDir", "isDefault"]

/-- `agent.default || false`. -/
def isDefault (agent : Json) : Json := ((getField agent "default").filter truthy).getD (.bool false)

/-- A property of the configuration of an agent, after its workspace files have been added. -/
def configValue (ws : Workspaces) (agent : Json) (key : String) : Option Json :=
  if key = "openclawId" then getField agent "id"
  else if key = "isDefault" then some (isDefault agent)
  else if key = "identity" then
    enriched ws (getField agent "workspace") "identity.md" parseIdentityFromFile
      (getField agent "identity")
  else if key = "tools" then
    enriched ws (getField agent "workspace") "TOOLS.md" parseToolsFromFile (getField agent "tools")
  else getField agent key

/-- The configuration of an agent; a property without a value has no text. -/
def agentConfig (ws : Workspaces) (agent : Json) : List (String × Json) :=
  select configKeys (configValue ws agent)

/-- `agent.identity?.name || agent.name || agent.id`. -/
def agentName (agent : Json) : Option Json :=
  let identityName := (getField agent "identity").bind fun identity => getField identity "name"
  ((identityName.filter truthy).or ((getField agent "name").filter truthy)).or (getField agent "id")

/-- `agent.identity?.theme || 'agent'`. -/
def agentRole (agent : Json) : Json :=
  let theme := (getField agent "identity").bind fun identity => getField identity "theme"
  (theme.filter truthy).getD (.string "agent")

def agentSoul (ws : Workspaces) (agent : Json) : Option String :=
  readWorkspaceFile ws (getField agent "workspace") "soul.md"

/-- The name of an entry as the table of agents has it. -/
def boundName (ws : Workspaces) (agent : Json) : Option String :=
  if agent = .null then none else (agentName agent).bind (boundText ws.numberText)

/-! ### Rows -/

inductive Action where
  | created
  | updated
  | unchanged
  deriving DecidableEq

/-- What a synchronisation reports of one entry. -/
structure Report where
  id : Option Json
  name : String
  action : Action
  deriving DecidableEq

variable {Text : Type}

/-- The row that a table has under a name. -/
def rowNamed (name : String) (agents : List (AgentRow Text)) : Option (AgentRow Text) :=
  agents.find? fun row => row.name = name

/-- Update the rows with a name. -/
def updateNamed (name : String) (update : AgentRow Text → AgentRow Text)
    (agents : List (AgentRow Text)) : List (AgentRow Text) :=
  agents.map fun row => if row.name = name then update row else row

/-- A row with what an entry is mapped to. -/
def overwrite (now : Nat) (role : String) (config : Text) (soulToWrite : Option String)
    (row : AgentRow Text) : AgentRow Text :=
  { row with role := role, config := some config, soulContent := soulToWrite, updatedAt := now }

/-- An id that no row has. -/
def nextId (agents : List (AgentRow Text)) : Nat := (agents.map AgentRow.id).foldl max 0 + 1

variable [DecidableEq Text]

/-- Whether the row differs from what the entry is mapped to. -/
def differs (json : Format Text) (row : AgentRow Text) (config : Text) (role : Json)
    (soul : Option String) : Bool :=
  row.config.or (json.print (.object [])) ≠ some config ∨ .string row.role ≠ role ∨
    (soul.isSome ∧ soul ≠ row.soulContent.filter (· ≠ ""))

/-- Synchronise one entry; `none` is an error. -/
def syncAgent (json : Format Text) (ws : Workspaces) (now : Nat) (agents : List (AgentRow Text))
    (agent : Json) : Option (Report × List (AgentRow Text)) :=
  match boundName ws agent with
  | none => none
  | some name =>
    match json.print (.object (agentConfig ws agent)), boundText ws.numberText (agentRole agent) with
    | some config, some role =>
      match rowNamed name agents with
      | some row =>
        if differs json row config (agentRole agent) (agentSoul ws agent) then
          some (⟨getField agent "id", name, .updated⟩, updateNamed name (overwrite now role config
            ((agentSoul ws agent).or (row.soulContent.filter (· ≠ "")))) agents)
        else some (⟨getField agent "id", name, .unchanged⟩, agents)
      | none =>
        some (⟨getField agent "id", name, .created⟩, agents ++
          [⟨nextId agents, name, role, agentSoul ws agent, some config, 1, now⟩])
    | _, _ => none

/-- Synchronise the entries one after the other. -/
def syncAgents (json : Format Text) (ws : Workspaces) (now : Nat) :
    List (AgentRow Text) → List Json → Option (List Report × List (AgentRow Text))
  | agents, [] => some ([], agents)
  | agents, agent :: list =>
    match syncAgent json ws now agents agent with
    | none => none
    | some (report, agents) =>
      (syncAgents json ws now agents list).map fun (reports, agents) => (report :: reports, agents)

/-- `parsed?.agents?.list || []`, if it is a list. -/
def agentsOf (parsed : Json) : Option (List Json) :=
  match ((getField parsed "agents").bind fun agents => getField agents "list").filter truthy with
  | none => some []
  | some (.array list) => some list
  | some _ => none

/-- `syncAgentsFromConfig` on the text of the file; a file that cannot be read has no agents to
report. -/
def syncAgentsFromConfig (json disk : Format Text) (ws : Workspaces) (now : Nat)
    (file : Option Text) (agents : List (AgentRow Text)) :
    Option (List Report × List (AgentRow Text)) :=
  match file.bind disk.parse with
  | none => some ([], agents)
  | some parsed => (agentsOf parsed).bind (syncAgents json ws now agents)

/-! ### What a synchronisation does -/

variable {json disk : Format Text} {ws : Workspaces} {now : Nat} {agents agents' : List (AgentRow Text)}
  {agent : Json} {list : List Json} {report : Report} {reports : List Report}

/-- The entry has a name, and its configuration and its role are texts. -/
def Bindable (json : Format Text) (ws : Workspaces) (agent : Json) : Prop :=
  (boundName ws agent).isSome ∧ (json.print (.object (agentConfig ws agent))).isSome ∧
    (boundText ws.numberText (agentRole agent)).isSome

/-- The row is what a synchronisation makes of the entry. -/
structure Synced (json : Format Text) (ws : Workspaces) (agent : Json) (row : AgentRow Text) :
    Prop where
  config : ∃ text, row.config = some text ∧ json.print (.object (agentConfig ws agent)) = some text
  role : boundText ws.numberText (agentRole agent) = some row.role
  soul : ∀ text, agentSoul ws agent = some text → row.soulContent = some text

theorem syncAgent_isSome : (syncAgent json ws now agents agent).isSome ↔ Bindable json ws agent := by
  unfold syncAgent Bindable
  cases boundName ws agent with
  | none => simp
  | some name =>
    cases json.print (.object (agentConfig ws agent)) with
    | none => simp
    | some config =>
      cases boundText ws.numberText (agentRole agent) with
      | none => simp
      | some role =>
        dsimp only
        split
        · split <;> simp
        · simp

theorem agentConfig_ne_nil (ws : Workspaces) (agent : Json) : agentConfig ws agent ≠ [] := by
  intro hnil
  have hdefault : lookup (agentConfig ws agent) "isDefault" = some (isDefault agent) := by
    rw [agentConfig, lookup_select, if_pos (by decide)]
    rfl
  rw [hnil] at hdefault
  cases hdefault

/-- A row that does not differ from an entry is as a synchronisation makes it. -/
theorem synced_of_not_differs {row : AgentRow Text} {config : Text}
    (hconfig : json.print (.object (agentConfig ws agent)) = some config)
    (h : differs json row config (agentRole agent) (agentSoul ws agent) = false) :
    Synced json ws agent row := by
  simp only [differs, decide_eq_false_iff_not, not_or, not_not, ne_eq, not_and] at h
  obtain ⟨hsame, hsameRole, hsoul⟩ := h
  refine ⟨?_, ?_, ?_⟩
  · refine ⟨config, ?_, hconfig⟩
    cases hrow : row.config with
    | some text => simpa [hrow] using hsame
    | none =>
      rw [hrow, Option.none_or] at hsame
      have hnil := json.print_injective hsame hconfig
      exact absurd (Json.object.inj hnil).symm (agentConfig_ne_nil ws agent)
  · rw [← hsameRole]
    rfl
  · intro text htext
    have hkept := hsoul (by simp [htext])
    rw [htext] at hkept
    exact (Option.filter_eq_some_iff.mp hkept.symm).1

/-- What a synchronisation does with one entry. -/
theorem syncAgent_cases (h : syncAgent json ws now agents agent = some (report, agents')) :
    ∃ name config role, boundName ws agent = some name ∧
      json.print (.object (agentConfig ws agent)) = some config ∧
      boundText ws.numberText (agentRole agent) = some role ∧
      report.id = getField agent "id" ∧ report.name = name ∧
      ((∃ row, rowNamed name agents = some row ∧
          differs json row config (agentRole agent) (agentSoul ws agent) = false ∧
          report.action = .unchanged ∧ agents' = agents) ∨
        (∃ row, rowNamed name agents = some row ∧ report.action = .updated ∧
          agents' = updateNamed name (overwrite now role config
            ((agentSoul ws agent).or (row.soulContent.filter (· ≠ "")))) agents) ∨
        (rowNamed name agents = none ∧ report.action = .created ∧
          agents' = agents ++ [⟨nextId agents, name, role, agentSoul ws agent, some config, 1, now⟩])) := by
  unfold syncAgent at h
  split at h
  · cases h
  · rename_i name hname
    split at h
    · rename_i config role hconfig hrole
      refine ⟨name, config, role, hname, hconfig, hrole, ?_⟩
      split at h
      · rename_i row hrow
        split at h
        · obtain ⟨rfl, rfl⟩ := Prod.mk.inj (Option.some.inj h)
          exact ⟨rfl, rfl, .inr (.inl ⟨row, hrow, rfl, rfl⟩)⟩
        · rename_i hdiffers
          obtain ⟨rfl, rfl⟩ := Prod.mk.inj (Option.some.inj h)
          exact ⟨rfl, rfl, .inl ⟨row, hrow, by simpa using hdiffers, rfl, rfl⟩⟩
      · rename_i hnone
        obtain ⟨rfl, rfl⟩ := Prod.mk.inj (Option.some.inj h)
        exact ⟨rfl, rfl, .inr (.inr ⟨hnone, rfl, rfl⟩)⟩
    · cases h

omit [DecidableEq Text] in
theorem rowNamed_cons (name : String) (row : AgentRow Text) (agents : List (AgentRow Text)) :
    rowNamed name (row :: agents) = if row.name = name then some row else rowNamed name agents := by
  by_cases h : row.name = name <;> simp [rowNamed, h]

omit [DecidableEq Text] in
theorem rowNamed_updateNamed (name other role : String) (config : Text) (soul : Option String) :
    rowNamed other (updateNamed name (overwrite now role config soul) agents) =
      if name = other then (rowNamed other agents).map (overwrite now role config soul)
      else rowNamed other agents := by
  induction agents with
  | nil => simp [rowNamed, updateNamed]
  | cons row agents ih =>
    have hcons : updateNamed name (overwrite now role config soul) (row :: agents) =
        (if row.name = name then overwrite now role config soul row else row) ::
          updateNamed name (overwrite now role config soul) agents := rfl
    have hkept : (overwrite now role config soul row).name = row.name := rfl
    rw [hcons, rowNamed_cons, rowNamed_cons, ih]
    by_cases hname : name = other
    · subst hname
      by_cases hrow : row.name = name
      · simp [hrow, hkept]
      · simp [hrow]
    · by_cases hrow : row.name = name
      · have hne : ¬ row.name = other := fun hcontra => hname (hrow.symm.trans hcontra)
        simp [hrow, hkept, hname]
      · simp [hrow, hname]

/-- Synchronising an entry leaves the rows with other names alone. -/
theorem rowNamed_syncAgent_ne {name : String} (h : syncAgent json ws now agents agent =
    some (report, agents')) (hname : boundName ws agent ≠ some name) :
    rowNamed name agents' = rowNamed name agents := by
  obtain ⟨name', config, role, hname', -, -, -, -, ⟨row, -, -, -, rfl⟩ | ⟨row, -, -, rfl⟩ |
    ⟨-, -, rfl⟩⟩ := syncAgent_cases h
  · rfl
  · have hne : name' ≠ name := fun hcontra => hname (hcontra ▸ hname')
    rw [rowNamed_updateNamed, if_neg hne]
  · have hne : name' ≠ name := fun hcontra => hname (hcontra ▸ hname')
    simp [rowNamed, hne]

/-- Synchronising an entry leaves a row for it under its name. -/
theorem synced_syncAgent {name : String} (h : syncAgent json ws now agents agent =
    some (report, agents')) (hname : boundName ws agent = some name) :
    ∃ row, rowNamed name agents' = some row ∧ Synced json ws agent row := by
  obtain ⟨name', config, role, hname', hconfig, hrole, -, -, ⟨row, hrow, hsame, -, rfl⟩ |
    ⟨row, hrow, -, rfl⟩ | ⟨hnone, -, rfl⟩⟩ := syncAgent_cases h
  · obtain rfl : name' = name := Option.some.inj (hname'.symm.trans hname)
    exact ⟨row, hrow, synced_of_not_differs hconfig hsame⟩
  · obtain rfl : name' = name := Option.some.inj (hname'.symm.trans hname)
    refine ⟨_, by rw [rowNamed_updateNamed, if_pos rfl, hrow]; rfl, ?_⟩
    refine ⟨⟨config, rfl, hconfig⟩, hrole, ?_⟩
    intro text htext
    simp [overwrite, htext]
  · obtain rfl : name' = name := Option.some.inj (hname'.symm.trans hname)
    refine ⟨⟨nextId agents, name', role, agentSoul ws agent, some config, 1, now⟩, ?_,
      ⟨config, rfl, hconfig⟩, hrole, fun _ htext => htext⟩
    have hfind : agents.find? (fun row => row.name = name') = none := hnone
    simp [rowNamed, List.find?_append, hfind]

/-! ### All entries -/

theorem syncAgents_cons : syncAgents json ws now agents (agent :: list) =
    (syncAgent json ws now agents agent).bind fun result =>
      (syncAgents json ws now result.2 list).map fun rest => (result.1 :: rest.1, rest.2) := by
  rw [syncAgents]
  cases syncAgent json ws now agents agent <;> rfl

theorem syncAgents_cons_eq_some : syncAgents json ws now agents (agent :: list) =
    some (reports, agents') ↔ ∃ report mid reports', syncAgent json ws now agents agent =
      some (report, mid) ∧ syncAgents json ws now mid list = some (reports', agents') ∧
      reports = report :: reports' := by
  simp only [syncAgents_cons, Option.bind_eq_some_iff, Option.map_eq_some_iff, Prod.exists,
    Prod.mk.injEq]
  constructor
  · rintro ⟨report, mid, hagent, reports', last, hrest, rfl, rfl⟩
    exact ⟨report, mid, reports', hagent, hrest, rfl⟩
  · rintro ⟨report, mid, reports', hagent, hrest, rfl⟩
    exact ⟨report, mid, hagent, reports', agents', hrest, rfl, rfl⟩

/-- A synchronisation ends without an error exactly when every entry can be bound. -/
theorem syncAgents_isSome :
    (syncAgents json ws now agents list).isSome ↔ ∀ agent ∈ list, Bindable json ws agent := by
  induction list generalizing agents with
  | nil => simp [syncAgents]
  | cons agent list ih =>
    have hagent : (syncAgent json ws now agents agent).isSome ↔ Bindable json ws agent :=
      syncAgent_isSome
    rw [List.forall_mem_cons, ← hagent, syncAgents_cons]
    cases syncAgent json ws now agents agent with
    | none => simp
    | some result => simp [ih]

theorem syncAgents_append {front back : List Json} :
    syncAgents json ws now agents (front ++ back) = some (reports, agents') ↔
      ∃ reports₁ mid reports₂, syncAgents json ws now agents front = some (reports₁, mid) ∧
        syncAgents json ws now mid back = some (reports₂, agents') ∧
        reports = reports₁ ++ reports₂ := by
  induction front generalizing agents reports with
  | nil =>
    constructor
    · intro h
      exact ⟨[], agents, reports, rfl, h, rfl⟩
    · rintro ⟨reports₁, mid, reports₂, hfront, hback, rfl⟩
      obtain ⟨rfl, rfl⟩ := Prod.mk.inj (Option.some.inj hfront)
      exact hback
  | cons agent front ih =>
    simp only [List.cons_append, syncAgents_cons_eq_some]
    constructor
    · rintro ⟨report, mid, reports', hagent, hrest, rfl⟩
      obtain ⟨reports₁, mid', reports₂, hfront, hback, rfl⟩ := ih.mp hrest
      exact ⟨report :: reports₁, mid', reports₂, ⟨report, mid, reports₁, hagent, hfront, rfl⟩,
        hback, rfl⟩
    · rintro ⟨reports₁, mid', reports₂, ⟨report, mid, reports', hagent, hfront, rfl⟩, hback, rfl⟩
      exact ⟨report, mid, reports' ++ reports₂, hagent,
        ih.mpr ⟨reports', mid', reports₂, hfront, hback, rfl⟩, rfl⟩

/-- Entries of other names leave the row of a name alone. -/
theorem rowNamed_syncAgents_ne {name : String}
    (h : syncAgents json ws now agents list = some (reports, agents'))
    (hnames : ∀ agent ∈ list, boundName ws agent ≠ some name) :
    rowNamed name agents' = rowNamed name agents := by
  induction list generalizing agents reports with
  | nil =>
    obtain ⟨rfl, rfl⟩ := Prod.mk.inj (Option.some.inj h)
    rfl
  | cons agent list ih =>
    obtain ⟨report, mid, reports', hagent, hrest, rfl⟩ := syncAgents_cons_eq_some.mp h
    rw [List.forall_mem_cons] at hnames
    rw [ih hrest hnames.2, rowNamed_syncAgent_ne hagent hnames.1]

/-- A report is of an entry of that name. -/
theorem boundName_of_report (h : syncAgents json ws now agents list = some (reports, agents'))
    (hreport : report ∈ reports) : ∃ agent ∈ list, boundName ws agent = some report.name := by
  induction list generalizing agents reports with
  | nil =>
    obtain ⟨rfl, rfl⟩ := Prod.mk.inj (Option.some.inj h)
    cases hreport
  | cons agent list ih =>
    obtain ⟨first, mid, reports', hagent, hrest, rfl⟩ := syncAgents_cons_eq_some.mp h
    rcases List.mem_cons.mp hreport with rfl | hreport
    · obtain ⟨name, -, -, hname, -, -, -, rfl, -⟩ := syncAgent_cases hagent
      exact ⟨agent, List.mem_cons_self, hname⟩
    · obtain ⟨agent', hmem, hname⟩ := ih hrest hreport
      exact ⟨agent', List.mem_cons_of_mem agent hmem, hname⟩

/-- The entry has the id and the name, and the row of that name does not differ from it. -/
def Unchanged (json : Format Text) (ws : Workspaces) (id : Option Json) (name : String)
    (row : AgentRow Text) (agent : Json) : Prop :=
  getField agent "id" = id ∧ boundName ws agent = some name ∧
    ∃ config, json.print (.object (agentConfig ws agent)) = some config ∧
      differs json row config (agentRole agent) (agentSoul ws agent) = false

theorem Unchanged.role {id : Option Json} {name : String} {row : AgentRow Text}
    (h : Unchanged json ws id name row agent) : .string row.role = agentRole agent := by
  obtain ⟨-, -, config, -, hsame⟩ := h
  simp only [differs, decide_eq_false_iff_not, not_or, not_not, ne_eq] at hsame
  exact hsame.2.1

/-- An entry among others of other names is reported as unchanged exactly when its row does not
differ from it. -/
theorem reported_unchanged_iff {id : Option Json} {name : String} {row : AgentRow Text}
    {front back : List Json} (hfront : ∀ agent ∈ front, Bindable json ws agent)
    (hback : ∀ agent ∈ back, Bindable json ws agent)
    (hnames : ∀ agent ∈ front ++ back, boundName ws agent ≠ some name)
    (hrow : rowNamed name agents = some row) :
    (∃ reports agents', syncAgents json ws now agents (front ++ agent :: back) =
      some (reports, agents') ∧ ⟨id, name, .unchanged⟩ ∈ reports) ↔
      Unchanged json ws id name row agent := by
  have hfrontNames : ∀ agent ∈ front, boundName ws agent ≠ some name :=
    fun agent hmem => hnames agent (List.mem_append_left back hmem)
  have hbackNames : ∀ agent ∈ back, boundName ws agent ≠ some name :=
    fun agent hmem => hnames agent (List.mem_append_right front hmem)
  constructor
  · rintro ⟨reports, agents', hsync, hreport⟩
    obtain ⟨reports₁, mid, reports₂, hsync₁, hsync₂, rfl⟩ := syncAgents_append.mp hsync
    obtain ⟨report, last, reports₃, hagent, hsync₃, rfl⟩ := syncAgents_cons_eq_some.mp hsync₂
    have hmid : rowNamed name mid = some row :=
      (rowNamed_syncAgents_ne hsync₁ hfrontNames).trans hrow
    rcases List.mem_append.mp hreport with hreport | hreport
    · obtain ⟨agent', hmem, hname⟩ := boundName_of_report hsync₁ hreport
      exact absurd hname (hfrontNames agent' hmem)
    · rcases List.mem_cons.mp hreport with rfl | hreport
      · obtain ⟨name', config, role, hname, hconfig, -, hid, rfl, ⟨row', hrow', hsame, -, -⟩ |
          ⟨-, -, hcontra, -⟩ | ⟨-, hcontra, -⟩⟩ := syncAgent_cases hagent
        · obtain rfl : row = row' := Option.some.inj (hmid.symm.trans hrow')
          exact ⟨hid.symm, hname, config, hconfig, hsame⟩
        · cases hcontra
        · cases hcontra
      · obtain ⟨agent', hmem, hname⟩ := boundName_of_report hsync₃ hreport
        exact absurd hname (hbackNames agent' hmem)
  · intro hunchanged
    have hrole := hunchanged.role
    obtain ⟨hid, hname, config, hconfig, hsame⟩ := hunchanged
    obtain ⟨⟨reports₁, mid⟩, hsync₁⟩ : ∃ result, syncAgents json ws now agents front = some result :=
      Option.isSome_iff_exists.mp (syncAgents_isSome.mpr hfront)
    obtain ⟨⟨reports₂, last⟩, hsync₂⟩ : ∃ result, syncAgents json ws now mid back = some result :=
      Option.isSome_iff_exists.mp (syncAgents_isSome.mpr hback)
    have hmid : rowNamed name mid = some row :=
      (rowNamed_syncAgents_ne hsync₁ hfrontNames).trans hrow
    have hbound : boundText ws.numberText (agentRole agent) = some row.role := by
      rw [← hrole]
      rfl
    have hagent : syncAgent json ws now mid agent = some (⟨id, name, .unchanged⟩, mid) := by
      simp [syncAgent, hname, hconfig, hbound, hmid, hsame, hid]
    refine ⟨reports₁ ++ ⟨id, name, .unchanged⟩ :: reports₂, last, ?_, by simp⟩
    exact syncAgents_append.mpr ⟨reports₁, mid, _, hsync₁,
      syncAgents_cons_eq_some.mpr ⟨_, mid, reports₂, hagent, hsync₂, rfl⟩, rfl⟩

end MissionControl.Gateway.AgentSync
