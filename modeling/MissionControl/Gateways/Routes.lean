import MissionControl.Foundations.JsText
import MissionControl.Foundations.SqlValues
import MissionControl.Foundations.Transition

/-!
The gateways that the dashboard knows, behind `/api/gateways`. The columns keep what they are given,
of whatever type, and each statement of a request is on its own: what has been written stays when a
later statement fails.
-/

set_option autoImplicit false
set_option relaxedAutoImplicit false

namespace MissionControl.Gateways.Routes

open MissionControl.Foundations
open MissionControl.Foundations.JsText (parseInt)
open MissionControl.Foundations.JsonValues (getField truthy)
open MissionControl.Foundations.Schema (Json)
open MissionControl.Foundations.SqlValues
open MissionControl.Foundations.Transition (Machine)

/-! ### The table -/

/-- The columns that a request can set. -/
inductive Column where
  | name
  | host
  | port
  | token
  | is_primary
  | status
  | last_seen
  | latency
  | sessions_count
  | agents_count
  deriving DecidableEq

/-- `allowed`. -/
def Column.all : List Column :=
  [.name, .host, .port, .token, .is_primary, .status, .last_seen, .latency, .sessions_count,
    .agents_count]

def Column.key : Column → String
  | .name => "name"
  | .host => "host"
  | .port => "port"
  | .token => "token"
  | .is_primary => "is_primary"
  | .status => "status"
  | .last_seen => "last_seen"
  | .latency => "latency"
  | .sessions_count => "sessions_count"
  | .agents_count => "agents_count"

def Column.affinity : Column → Affinity
  | .name | .host | .token | .status => .text
  | .port | .is_primary | .last_seen | .latency | .sessions_count | .agents_count => .integer

def Column.notNull : Column → Bool
  | .last_seen | .latency => false
  | _ => true

def Column.default : Column → Value
  | .name => .null
  | .host => .text "127.0.0.1"
  | .port => .number 18789
  | .token => .text ""
  | .is_primary => .number 0
  | .status => .text "unknown"
  | .last_seen => .null
  | .latency => .null
  | .sessions_count => .number 0
  | .agents_count => .number 0

structure GatewayEntry where
  id : Nat
  cell : Column → Value
  created_at : Nat
  updated_at : Nat

/-- The row counts as the primary gateway. -/
def GatewayEntry.primary (gateway : GatewayEntry) : Bool := (gateway.cell .is_primary).truthy

structure Table where
  rows : List GatewayEntry
  nextId : Nat

def Table.empty : Table := ⟨[], 1⟩

/-- The cells with these values in their columns. -/
def assign (values : List (Column × Value)) (cell : Column → Value) (column : Column) : Value :=
  ((values.find? fun entry => entry.1 = column).map Prod.snd).getD (cell column)

/-- `NOT NULL constraint failed`. -/
def lacks (values : List (Column × Value)) : Bool :=
  values.any fun entry => entry.1.notNull && entry.2 = .null

/-- `UNIQUE constraint failed`: one of the rows has the name. -/
def taken (rows : List GatewayEntry) (values : List (Column × Value)) : Bool :=
  values.any fun entry => entry.1 = .name && rows.any fun row => row.cell .name = entry.2

def rejects (rows : List GatewayEntry) (values : List (Column × Value)) : Bool :=
  lacks values || taken rows values

/-- `INSERT INTO gateways (…) VALUES (…)`. -/
def insertGateway (now : Nat) (t : Table) (values : List (Column × Value)) : Option Table :=
  if rejects t.rows values then none
  else some ⟨t.rows ++ [⟨t.nextId, assign values Column.default, now, now⟩], t.nextId + 1⟩

/-- `UPDATE gateways SET is_primary = 0`. -/
def clearPrimary (t : Table) : Table :=
  { t with rows := t.rows.map fun row =>
      { row with cell := assign [(.is_primary, .number 0)] row.cell } }

/-! ### Requests -/

structure Redacted where
  gateway : GatewayEntry
  token_set : Bool

def redactToken (gateway : GatewayEntry) : Redacted :=
  let set := (gateway.cell .token).truthy
  ⟨{ gateway with cell := assign [(.token, .text (if set then "--------" else ""))] gateway.cell },
    set⟩

inductive Reply where
  | gateways (rows : List Redacted)
  | gateway (status : Nat) (row : Redacted)
  | deleted (deleted : Bool)
  | error (status : Nat) (message : String)
  /-- A failure of the database that the route answers with its message. -/
  | failed
  /-- An exception that the route does not catch. -/
  | threw

def Reply.isError : Reply → Bool
  | .gateways _ | .gateway _ _ | .deleted _ => false
  | .error _ _ | .failed | .threw => true

/-- The variables of the process that the seed is made from. -/
structure Environment where
  defaultGatewayName : Option String
  openclawGatewayHost : Option String
  openclawGatewayPort : Option String
  gatewayPort : Option String
  publicGatewayPort : Option String
  openclawGatewayToken : Option String
  gatewayToken : Option String

/-- `a || b || …`. -/
def firstOf (fallback : String) (values : List (Option String)) : String :=
  (values.findSome? JsText.truthy).getD fallback

def seed (env : Environment) : List (Column × Value) :=
  [(.name, .text (firstOf "primary" [env.defaultGatewayName])),
    (.host, .text (firstOf "127.0.0.1" [env.openclawGatewayHost])),
    (.port, ((parseInt (firstOf "18789" [env.openclawGatewayPort, env.gatewayPort,
      env.publicGatewayPort])).map fun port => Value.number port).getD .null),
    (.token, .text (firstOf "" [env.openclawGatewayToken, env.gatewayToken])),
    (.is_primary, .number 1)]

/-- `ORDER BY is_primary DESC, name ASC`. -/
def listed (t : Table) : List Redacted :=
  (t.rows.mergeSort fun a b =>
    if a.cell .is_primary = b.cell .is_primary then (a.cell .name).le (b.cell .name)
    else (b.cell .is_primary).le (a.cell .is_primary)).map redactToken

def getGateways (env : Environment) (now : Nat) (t : Table) : Table × Reply :=
  if t.rows.isEmpty then
    match insertGateway now t (seed env) with
    | none => (t, .threw)
    | some seeded => (seeded, .gateways (listed seeded))
  else (t, .gateways (listed t))

/-- A property of the body that is missing, or that a condition takes as false. -/
def falsy (value : Option Json) : Bool := !value.any truthy

section

variable (conv : Conversions)

/-- The values of the columns, in their affinity. -/
def stored (columns : List Column) (values : List Value) : List (Column × Value) :=
  (columns.zip values).map fun entry => (entry.1, entry.1.affinity.apply conv entry.2)

/-- What `POST` inserts. -/
def addedValues (body : Json) : Option (List (Column × Value)) :=
  let token := getField body "token"
  (bindParameters 5
    [(getField body "name").getD .null, (getField body "host").getD .null,
      (getField body "port").getD .null, if falsy token then .string "" else token.getD .null,
      .number (if falsy (getField body "is_primary") then 0 else 1)]).map
    (stored conv [.name, .host, .port, .token, .is_primary])

def postGateway (now : Nat) (t : Table) (body : Json) : Table × Reply :=
  if body = .null then (t, .threw)
  else if falsy (getField body "name") ∨ falsy (getField body "host") ∨
      falsy (getField body "port") then
    (t, .error 400 "name, host, and port are required")
  else
    -- every other gateway has lost its rank by the time the insertion is tried
    let cleared := if falsy (getField body "is_primary") then t else clearPrimary t
    match addedValues conv body with
    | none => (cleared, .failed)
    | some values =>
      match insertGateway now cleared values with
      | none =>
        if lacks values then (cleared, .failed)
        else (cleared, .error 409 "A gateway with that name already exists")
      | some added =>
        (added, .gateway 201 (redactToken ⟨cleared.nextId, assign values Column.default, now, now⟩))

/-- `SELECT * FROM gateways WHERE id = ?`, `none` where the id cannot be bound. -/
def selectGateway (t : Table) (id : Json) : Option (Option GatewayEntry) :=
  (bindParameters 1 [id]).map fun values =>
    t.rows.find? fun row => values.all (equalsKey conv row.id)

/-- The columns that the body of a `PUT` has a value for, with these. -/
def updates (body : Json) : List (Column × Json) :=
  Column.all.filterMap fun column => (getField body column.key).map fun value => (column, value)

/-- What `PUT` writes, and the id that it writes to. -/
def updatedValues (body : Json) : Option (List (Column × Value) × Value) :=
  (bindParameters ((updates body).length + 1)
    ((updates body).map Prod.snd ++ [(getField body "id").getD .null])).map fun values =>
    (stored conv ((updates body).map Prod.fst) values, values.getLastD .null)

/-- `UPDATE gateways SET … WHERE id = ?`. -/
def updateGateway (now : Nat) (t : Table) (values : List (Column × Value)) (id : Value) :
    Option Table :=
  let written (row : GatewayEntry) : GatewayEntry :=
    { row with cell := assign values row.cell, updated_at := now }
  if rejects (t.rows.filter fun row => !equalsKey conv row.id id) values then none
  else some
    { t with rows := t.rows.map fun row => if equalsKey conv row.id id then written row else row }

def putGateway (now : Nat) (t : Table) (body : Json) : Table × Reply :=
  if body = .null then (t, .threw)
  else if falsy (getField body "id") then (t, .error 400 "id is required")
  else
    let id := (getField body "id").getD .null
    match selectGateway conv t id with
    | none => (t, .threw)
    | some none => (t, .error 404 "Gateway not found")
    | some (some _) =>
      let cleared := if falsy (getField body "is_primary") then t else clearPrimary t
      if (updates body).isEmpty then (cleared, .error 400 "No valid fields to update")
      else
        match (updatedValues conv body).bind fun (values, id) =>
          updateGateway conv now cleared values id with
        | none => (cleared, .threw)
        | some updated =>
          match selectGateway conv updated id with
          | some (some row) => (updated, .gateway 200 (redactToken row))
          | _ => (updated, .threw)

def deleteGateway (t : Table) (body : Json) : Table × Reply :=
  if body = .null then (t, .threw)
  else if falsy (getField body "id") then (t, .error 400 "id is required")
  else
    match bindParameters 1 [(getField body "id").getD .null] with
    | none => (t, .threw)
    | some values =>
      let kept := t.rows.filter fun row => !values.all (equalsKey conv row.id)
      match t.rows.find? fun row => values.all (equalsKey conv row.id) with
      | some gateway =>
        if gateway.primary then (t, .error 400 "Cannot delete the primary gateway")
        else ({ t with rows := kept }, .deleted true)
      | none => ({ t with rows := kept }, .deleted false)

end

/-! ### The machine -/

inductive Request where
  | get (now : Nat)
  | post (now : Nat) (body : Json)
  | put (now : Nat) (body : Json)
  | delete (body : Json)

def serve (conv : Conversions) (env : Environment) (t : Table) : Request → Table × Reply
  | .get now => getGateways env now t
  | .post now body => postGateway conv now t body
  | .put now body => putGateway conv now t body
  | .delete body => deleteGateway conv t body

def machine (conv : Conversions) (env : Environment) : Machine Table Request :=
  ⟨fun t request => some (serve conv env t request).1⟩

end MissionControl.Gateways.Routes
