import MissionControl.Foundations.Doubles
import MissionControl.Foundations.JsText
import MissionControl.Foundations.Numbers
import MissionControl.Foundations.SqlValues

/-!
Alert rules, behind `/api/alerts`. An evaluation goes over the enabled rules of a workspace: a rule
that was triggered a short time ago is left, one whose condition is met is counted and tells
someone.
-/

set_option autoImplicit false
set_option relaxedAutoImplicit false

namespace MissionControl.Alerts.Rules

open MissionControl.Foundations
open MissionControl.Foundations.JsText (includes orElse parseInt toLowerCase)
open MissionControl.Foundations.JsonValues (getField truthy)
open MissionControl.Foundations.Numbers (Number)
open MissionControl.Foundations.Schema (Json)
open MissionControl.Foundations.SqlValues

/-- What the database and the language make of numbers and of texts. -/
structure Environment where
  conversions : Conversions
  /-- `String(number)`. -/
  numberText : Rat → String
  /-- `JSON.parse`; `none` is the exception. -/
  parseJson : String → Option Json
  /-- `JSON.stringify`. -/
  stringify : Json → String

/-! ### The tables -/

/-- The columns that a request can set. -/
inductive Column where
  | name
  | description
  | enabled
  | entity_type
  | condition_field
  | condition_operator
  | condition_value
  | action_type
  | action_config
  | cooldown_minutes
  deriving DecidableEq

/-- `allowed`. -/
def Column.all : List Column :=
  [.name, .description, .enabled, .entity_type, .condition_field, .condition_operator,
    .condition_value, .action_type, .action_config, .cooldown_minutes]

def Column.key : Column → String
  | .name => "name"
  | .description => "description"
  | .enabled => "enabled"
  | .entity_type => "entity_type"
  | .condition_field => "condition_field"
  | .condition_operator => "condition_operator"
  | .condition_value => "condition_value"
  | .action_type => "action_type"
  | .action_config => "action_config"
  | .cooldown_minutes => "cooldown_minutes"

def Column.affinity : Column → Affinity
  | .enabled | .cooldown_minutes => .integer
  | _ => .text

def Column.notNull : Column → Bool
  | .description => false
  | _ => true

structure AlertRule where
  id : Nat
  workspaceId : Nat
  cell : Column → Value
  lastTriggeredAt : Option Int
  triggerCount : Int
  updatedAt : Int

/-- A row of a table that conditions are about, by the names of its columns. -/
structure Row where
  workspaceId : Nat
  createdAt : Int
  cell : String → Value

/-- The tables that an evaluation reads; one that cannot be read makes the query throw. -/
structure Tables where
  alertRules : Bool
  agents : Option (List Row)
  tasks : Option (List Row)
  activities : Option (List Row)

structure AlertNotification where
  recipient : Value
  title : Value
  message : Value
  sourceId : Nat
  workspaceId : Nat
  deriving DecidableEq

structure Db where
  rules : List AlertRule
  notifications : List AlertNotification

/-- The text in a column of texts. -/
def textOf : Value → String
  | .text s => s
  | _ => ""

def AlertRule.text (rule : AlertRule) (column : Column) : String := textOf (rule.cell column)

/-! ### Conditions -/

def agentColumns : List String := ["status", "role", "name", "last_seen", "last_activity"]

def taskColumns : List String := ["status", "priority", "assigned_to", "title"]

def activityColumns : List String := ["type", "actor", "entity_type"]

/-- `safeColumn`, for the columns of a table. -/
def safeColumn (columns : List String) (column : String) : String :=
  if column ∈ columns then column else "id"

def affinityOf (column : String) : Affinity :=
  if column = "id" ∨ column = "last_seen" then .integer else .text

section

variable (env : Environment)

/-- `column = ?`. -/
def cellEquals (column : String) (value : Value) (row : Row) : Bool :=
  row.cell column ≠ .null ∧ row.cell column = (affinityOf column).apply env.conversions value

/-- `column < ?`, where nothing is below `NULL`. -/
def cellBelow (column : String) (value : Value) (row : Row) : Bool :=
  let value := (affinityOf column).apply env.conversions value
  row.cell column ≠ .null ∧ value ≠ .null ∧ row.cell column ≠ value ∧ (row.cell column).le value

/-- `Number(value)`. -/
def valueNumber : Value → Number
  | .null => .finite 0
  | .number n => .finite n
  | .text s => Doubles.number s.toList

def compareValue (actual : Value) (operator expected : String) : Bool :=
  let compared (strActual : String) : Bool :=
    if operator = "equals" then strActual = expected
    else if operator = "not_equals" then strActual ≠ expected
    else if operator = "greater_than" then
      Number.lt (Doubles.number expected.toList) (valueNumber actual)
    else if operator = "less_than" then
      Number.lt (valueNumber actual) (Doubles.number expected.toList)
    else if operator = "contains" then includes (toLowerCase strActual) (toLowerCase expected)
    else false
  match actual with
  | .null => false
  | .number n => compared (env.numberText n)
  | .text s => compared s

/-- `count > parseInt(text)`. -/
def above (count : Nat) (text : String) : Bool := (parseInt text).any fun n => n < (count : Int)

/-- `count < parseInt(text)`. -/
def below (count : Nat) (text : String) : Bool := (parseInt text).any fun n => (count : Int) < n

def isOnline (row : Row) : Bool := row.cell "status" ≠ .text "offline"

def evaluateAgentRule (tables : Tables) (rule : AlertRule) (now : Int) (workspaceId : Nat) :
    Option Bool :=
  tables.agents.map fun agents =>
    let rows := agents.filter fun row => row.workspaceId = workspaceId
    let column := safeColumn agentColumns (rule.text .condition_field)
    let operator := rule.text .condition_operator
    let expected := rule.text .condition_value
    let equal := rows.countP (cellEquals env column (.text expected))
    if operator = "count_above" then above equal expected
    else if operator = "count_below" then below equal expected
    else if operator = "age_minutes_above" then
      let threshold :=
        ((parseInt expected).map fun n => Value.number (now - n * 60)).getD .null
      decide (0 < rows.countP fun row => isOnline row && cellBelow env column threshold row)
    else
      (rows.filter isOnline).any fun row => compareValue env (row.cell column) operator expected

def evaluateTaskRule (tables : Tables) (rule : AlertRule) (workspaceId : Nat) : Option Bool :=
  tables.tasks.map fun tasks =>
    let rows := tasks.filter fun row => row.workspaceId = workspaceId
    let column := safeColumn taskColumns (rule.text .condition_field)
    let operator := rule.text .condition_operator
    let expected := rule.text .condition_value
    if operator = "count_above" then
      above (rows.countP (cellEquals env column (.text expected))) expected
    else if operator = "count_below" then below rows.length expected
    else rows.any fun row => compareValue env (row.cell column) operator expected

def evaluateSessionRule (tables : Tables) (rule : AlertRule) (workspaceId : Nat) : Option Bool :=
  if rule.text .condition_operator = "count_above" then
    tables.agents.map fun agents =>
      above (agents.countP fun row =>
        row.workspaceId = workspaceId ∧ row.cell "status" = .text "busy")
        (rule.text .condition_value)
  else some false

def evaluateActivityRule (tables : Tables) (rule : AlertRule) (now : Int) (workspaceId : Nat) :
    Option Bool :=
  if rule.text .condition_operator = "count_above" then
    tables.activities.map fun activities =>
      let column := safeColumn activityColumns (rule.text .condition_field)
      let expected := rule.text .condition_value
      let rows := activities.filter fun row =>
        row.workspaceId = workspaceId ∧ now - 3600 < row.createdAt
      above (rows.countP (cellEquals env column (.text expected))) expected
  else some false

/-- An exception is a condition that is not met. -/
def evaluateRule (tables : Tables) (rule : AlertRule) (now : Int) (workspaceId : Nat) : Bool :=
  let entityType := rule.text .entity_type
  let met :=
    if entityType = "agent" then evaluateAgentRule env tables rule now workspaceId
    else if entityType = "task" then evaluateTaskRule env tables rule workspaceId
    else if entityType = "session" then evaluateSessionRule tables rule workspaceId
    else if entityType = "activity" then evaluateActivityRule env tables rule now workspaceId
    else some false
  met.getD false

/-! ### Evaluations -/

/-- `rule.last_triggered_at && (now - rule.last_triggered_at) < rule.cooldown_minutes * 60`. -/
def inCooldown (rule : AlertRule) (now : Int) : Bool :=
  rule.lastTriggeredAt.any fun (last : Int) => last ≠ 0 ∧
    Number.lt (.finite (now - last)) (Number.times 60 (valueNumber (rule.cell .cooldown_minutes)))

def recordTrigger (db : Db) (id : Nat) (now : Int) : Db :=
  { db with rules := db.rules.map fun rule =>
      if rule.id = id then
        { rule with lastTriggeredAt := some now, triggerCount := rule.triggerCount + 1 }
      else rule }

/-- The recipient of a configuration, which throws if it is `null`. -/
def recipientOf (config : Json) : Option Json :=
  match config with
  | .null => none
  | config => some (((getField config "recipient").filter truthy).getD (.string "system"))

/-- The message: the description, if it says anything. -/
def messageOf (rule : AlertRule) : String :=
  orElse (rule.text .description) ("Rule \"" ++ rule.text .name ++ "\" triggered")

/-- The notification of a rule that is triggered, if it can be inserted. -/
def notificationOf (rule : AlertRule) (workspaceId : Nat) : Option AlertNotification :=
  let parameters (recipient : Json) : List Json :=
    [recipient, .string ("Alert: " ++ rule.text .name), .string (messageOf rule), .number rule.id,
      .number workspaceId]
  (env.parseJson (orElse (rule.text .action_config) "\x7b\x7d")).bind fun config =>
    (recipientOf config).bind fun recipient =>
      (bindParameters 5 (parameters recipient)).bind fun values =>
        match Affinity.text.apply env.conversions (values.headD .null) with
        | .null => none
        | recipient =>
          some ⟨recipient, .text ("Alert: " ++ rule.text .name), .text (messageOf rule), rule.id,
            workspaceId⟩

def notify (db : Db) (rule : AlertRule) (workspaceId : Nat) : Db :=
  { db with notifications := db.notifications ++ (notificationOf env rule workspaceId).toList }

/-- What an evaluation says of a rule. -/
structure Outcome where
  rule : AlertRule
  triggered : Bool
  reason : String

/-- One turn of the loop over the rules. -/
def evaluateNext (tables : Tables) (now : Int) (workspaceId : Nat) (done : Db × List Outcome)
    (rule : AlertRule) : Db × List Outcome :=
  let (db, results) := done
  if inCooldown rule now then (db, results ++ [⟨rule, false, "In cooldown"⟩])
  else if evaluateRule env tables rule now workspaceId then
    (notify env (recordTrigger db rule.id now) rule workspaceId,
      results ++ [⟨rule, true, "Condition met"⟩])
  else (db, results ++ [⟨rule, false, "Condition not met"⟩])

/-- `SELECT * FROM alert_rules WHERE enabled = 1 AND workspace_id = ?`. -/
def enabledRules (db : Db) (workspaceId : Nat) : List AlertRule :=
  db.rules.filter fun rule => rule.cell .enabled = .number 1 ∧ rule.workspaceId = workspaceId

def evaluateRules (tables : Tables) (now : Int) (workspaceId : Nat) (db : Db) :
    Db × List Outcome :=
  if tables.alertRules then
    (enabledRules db workspaceId).foldl (evaluateNext env tables now workspaceId) (db, [])
  else (db, [])

/-! ### Edits -/

inductive Reply where
  | rule (rule : AlertRule)
  | error (status : Nat) (message : String)
  /-- An exception that the route does not catch. -/
  | threw

/-- A property of the body that is missing, or that a condition takes as false. -/
def falsy (value : Option Json) : Bool := !value.any truthy

/-- The columns that the body has a value for, with what is bound for them. -/
def updates (body : Json) : List (Column × Json) :=
  Column.all.filterMap fun column => (getField body column.key).map fun value =>
    (column, if column = .action_config then .string (env.stringify value) else value)

/-- The row has the id and is in the workspace. -/
def isRule (id : Value) (workspaceId : Nat) (rule : AlertRule) : Bool :=
  equalsKey env.conversions rule.id id ∧ rule.workspaceId = workspaceId

/-- `SELECT * FROM alert_rules WHERE id = ? AND workspace_id = ?`, `none` where the id cannot be
bound. -/
def selectRule (db : Db) (id : Json) (workspaceId : Nat) : Option (Option AlertRule) :=
  (bindParameters 2 [id, .number workspaceId]).map fun values =>
    db.rules.find? (isRule env (values.headD .null) workspaceId)

/-- The values of the columns, in their affinity. -/
def stored (columns : List Column) (values : List Value) : List (Column × Value) :=
  (columns.zip values).map fun entry => (entry.1, entry.1.affinity.apply env.conversions entry.2)

/-- What is written, and the id that it is written to. -/
def updatedValues (body : Json) (workspaceId : Nat) : Option (List (Column × Value) × Value) :=
  (bindParameters ((updates env body).length + 2)
    ((updates env body).map Prod.snd ++
      [(getField body "id").getD .null, .number workspaceId])).map fun values =>
    (stored env ((updates env body).map Prod.fst) values, values.dropLast.getLastD .null)

/-- The cells with these values in their columns. -/
def assign (values : List (Column × Value)) (cell : Column → Value) (column : Column) : Value :=
  ((values.find? fun entry => entry.1 = column).map Prod.snd).getD (cell column)

/-- `UPDATE alert_rules SET … WHERE id = ? AND workspace_id = ?`. -/
def updateRule (now : Int) (db : Db) (workspaceId : Nat) (values : List (Column × Value))
    (id : Value) : Option Db :=
  if values.any fun entry => entry.1.notNull && entry.2 = .null then none
  else some
    { db with rules := db.rules.map fun rule =>
        if isRule env id workspaceId rule then
          { rule with cell := assign values rule.cell, updatedAt := now }
        else rule }

def putRule (now : Int) (workspaceId : Nat) (db : Db) (body : Json) : Db × Reply :=
  if body = .null then (db, .threw)
  else if falsy (getField body "id") then (db, .error 400 "id is required")
  else
    let id := (getField body "id").getD .null
    match selectRule env db id workspaceId with
    | none => (db, .threw)
    | some none => (db, .error 404 "Rule not found")
    | some (some _) =>
      if (updates env body).isEmpty then (db, .error 400 "No valid fields to update")
      else
        match (updatedValues env body workspaceId).bind fun (values, id) =>
          updateRule env now db workspaceId values id with
        | none => (db, .threw)
        | some updated =>
          match selectRule env updated id workspaceId with
          | some (some rule) => (updated, .rule rule)
          | _ => (updated, .threw)

end

end MissionControl.Alerts.Rules
