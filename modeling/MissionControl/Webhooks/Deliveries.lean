import MissionControl.Foundations.JsText
import MissionControl.Foundations.Schema
import MissionControl.Foundations.Transition

/-!
Webhooks and their deliveries. `deliverWebhook` is cut at the await of its answer: it begins,
and when the answer is there it writes without a pause. A batch of retries claims its rows in
one piece and then delivers them one after the other. Time is in whole seconds.
-/

set_option autoImplicit false
set_option relaxedAutoImplicit false

namespace MissionControl.Webhooks.Deliveries

open MissionControl.Foundations.JsText
open MissionControl.Foundations.Schema (Json)
open MissionControl.Foundations.Transition (Machine)

/-- A row of `webhooks`; `events` is the array that the column holds as a text. -/
structure Webhook where
  id : Nat
  name : String
  url : String
  secret : Option String
  events : List String
  enabled : Bool
  workspaceId : Nat
  consecutiveFailures : Nat
  lastFiredAt : Option Nat
  lastStatus : Option Int
  deriving DecidableEq

/-- What is sent, and stored as `payload`. -/
structure Body where
  event : String
  timestamp : Nat
  data : Json

/-- A call of `deliverWebhook`: what it took from the row of the webhook, and its options.
`seq` counts the calls. -/
structure Delivery where
  seq : Nat
  webhookId : Nat
  workspaceId : Nat
  url : String
  secret : Option String
  body : Body
  attempt : Nat
  parentDeliveryId : Option Nat
  allowRetry : Bool

/-- A row of `webhook_deliveries`. -/
structure DeliveryRow where
  id : Nat
  webhookId : Nat
  eventType : String
  payload : Body
  statusCode : Option Nat
  responseBody : Option String
  error : Option String
  durationMs : Nat
  attempt : Nat
  isRetry : Bool
  parentDeliveryId : Option Nat
  workspaceId : Nat
  nextRetryAt : Option Nat
  createdAt : Nat

/-- A row that a batch has claimed, joined with its webhook. -/
structure PendingRetry where
  id : Nat
  webhookId : Nat
  workspaceId : Nat
  url : String
  secret : Option String
  eventType : String
  payload : Body
  attempt : Nat

/-- A suspended `processWebhookRetries`: the delivery that it awaits, and the rows after it. -/
structure Batch where
  awaiting : Option Nat
  remaining : List PendingRetry

/-- What has happened, in order. -/
inductive Entry where
  | began (d : Delivery)
  | recorded (rowId : Nat) (d : Delivery) (success : Bool)
  /-- The circuit breaker has set `enabled` to 0. -/
  | tripped (webhookId : Nat)
  /-- An admin has set `enabled` to 1. -/
  | enabled (webhookId : Nat)
  /-- An admin has set `consecutive_failures` to 0. -/
  | reset (webhookId : Nat)

structure World where
  webhooks : List Webhook
  deliveries : List DeliveryRow
  inFlight : List Delivery
  batches : List Batch
  nextWebhookId : Nat
  nextDeliveryId : Nat
  nextSeq : Nat
  now : Nat
  history : List Entry

namespace World

def empty (now : Nat) : World := ⟨[], [], [], [], 1, 1, 0, now, []⟩

def log (w : World) (entry : Entry) : World := { w with history := w.history ++ [entry] }

@[simp] theorem log_webhooks (w : World) (entry : Entry) :
    (w.log entry).webhooks = w.webhooks := rfl

@[simp] theorem log_deliveries (w : World) (entry : Entry) :
    (w.log entry).deliveries = w.deliveries := rfl

@[simp] theorem log_inFlight (w : World) (entry : Entry) :
    (w.log entry).inFlight = w.inFlight := rfl

@[simp] theorem log_batches (w : World) (entry : Entry) :
    (w.log entry).batches = w.batches := rfl

@[simp] theorem log_nextDeliveryId (w : World) (entry : Entry) :
    (w.log entry).nextDeliveryId = w.nextDeliveryId := rfl

@[simp] theorem log_nextSeq (w : World) (entry : Entry) :
    (w.log entry).nextSeq = w.nextSeq := rfl

@[simp] theorem mem_log {w : World} {entry entry' : Entry} :
    entry' ∈ (w.log entry).history ↔ entry' ∈ w.history ∨ entry' = entry := by
  rw [log, List.mem_append, List.mem_singleton]

/-- `UPDATE webhooks SET … WHERE id = ? AND workspace_id = ?`. -/
def updateWebhook (w : World) (id workspaceId : Nat) (f : Webhook → Webhook) : World :=
  { w with
    webhooks := w.webhooks.map fun wh =>
      if wh.id = id ∧ wh.workspaceId = workspaceId then f wh else wh }

end World

structure Environment where
  /-- `MC_WEBHOOK_MAX_RETRIES`. -/
  webhookMaxRetries : Option String
  /-- Whether `new URL(text)` returns. -/
  validUrl : String → Bool

/-- `MAX_RETRIES`. -/
def maxRetries (env : Environment) : Int :=
  match parseDecimal ((truthy env.webhookMaxRetries).getD "5") with
  | some n => if n = 0 then 5 else n
  | none => 5

def backoffSeconds : List Nat := [30, 300, 1800, 7200, 28800]

/-- What `nextRetryDelay` can return: the base of the attempt within a fifth of it. -/
def ValidDelay (attempt delay : Nat) : Prop :=
  let base := backoffSeconds.getD (min attempt (backoffSeconds.length - 1)) 0
  4 * base ≤ 5 * delay ∧ 5 * delay ≤ 6 * base

instance decidableValidDelay (attempt delay : Nat) : Decidable (ValidDelay attempt delay) :=
  inferInstanceAs (Decidable (_ ∧ _))

/-! ### One delivery -/

/-- The options of `deliverWebhook`. -/
structure DeliverOpts where
  attempt : Nat
  parentDeliveryId : Option Nat
  allowRetry : Bool

/-- `deliverWebhook` up to its await; also the number of the call. -/
def beginDelivery (w : World) (webhookId workspaceId : Nat) (url : String) (secret : Option String)
    (eventType : String) (payload : Json) (opts : DeliverOpts) : World :=
  let d : Delivery :=
    { seq := w.nextSeq
      webhookId := webhookId
      workspaceId := workspaceId
      url := url
      secret := secret
      body := ⟨eventType, w.now, payload⟩
      attempt := opts.attempt
      parentDeliveryId := opts.parentDeliveryId
      allowRetry := opts.allowRetry }
  World.log { w with inFlight := w.inFlight ++ [d], nextSeq := w.nextSeq + 1 } (.began d)

/-- What awaiting the answer gives: a status and the text of the answer, or an exception. -/
inductive FetchOutcome where
  | responded (statusCode : Nat) (text : Option String)
  | failed (message : String)
  deriving DecidableEq

def FetchOutcome.statusCode : FetchOutcome → Option Nat
  | .responded statusCode _ => some statusCode
  | .failed _ => none

def FetchOutcome.success (outcome : FetchOutcome) : Bool :=
  outcome.statusCode.any fun statusCode => 200 ≤ statusCode ∧ statusCode < 300

/-- The body that is stored, cut to a thousand units. -/
def FetchOutcome.responseBody : FetchOutcome → Option String
  | .responded _ text => text.map fun s =>
    if 1000 < utf16Length s then String.ofList (takeUnits 1000 s.toList) ++ "..." else s
  | .failed _ => none

def FetchOutcome.error : FetchOutcome → Option String
  | .responded _ _ => none
  | .failed message => some message

/-- The row that logs the attempt. -/
def newRow (w : World) (d : Delivery) (outcome : FetchOutcome) (durationMs : Nat) :
    DeliveryRow where
  id := w.nextDeliveryId
  webhookId := d.webhookId
  eventType := d.body.event
  payload := d.body
  statusCode := outcome.statusCode
  responseBody := outcome.responseBody
  error := outcome.error
  durationMs := durationMs
  attempt := d.attempt
  isRetry := d.attempt > 0
  parentDeliveryId := d.parentDeliveryId
  workspaceId := d.workspaceId
  nextRetryAt := none
  createdAt := w.now

/-- `UPDATE webhook_deliveries SET next_retry_at = ? WHERE id = ?`. -/
def scheduleRetry (w : World) (rowId nextRetryAt : Nat) : World :=
  { w with
    deliveries := w.deliveries.map fun r =>
      if r.id = rowId then { r with nextRetryAt := some nextRetryAt } else r }

/-- The branch of an exhausted attempt: the circuit breaker. -/
def tripBreaker (env : Environment) (w : World) (d : Delivery) : World :=
  match w.webhooks.find? fun wh => wh.id = d.webhookId ∧ wh.workspaceId = d.workspaceId with
  | none => w
  | some wh =>
    if maxRetries env ≤ wh.consecutiveFailures then
      (w.updateWebhook d.webhookId d.workspaceId fun wh => { wh with enabled := false }).log
        (.tripped d.webhookId)
    else w

/-- The bookkeeping of an attempt that may be retried. -/
def noteOutcome (env : Environment) (w : World) (d : Delivery) (success : Bool)
    (rowId delay : Nat) : World :=
  if success then
    w.updateWebhook d.webhookId d.workspaceId fun wh => { wh with consecutiveFailures := 0 }
  else
    let w := w.updateWebhook d.webhookId d.workspaceId fun wh =>
      { wh with consecutiveFailures := wh.consecutiveFailures + 1 }
    if (d.attempt : Int) < maxRetries env - 1 then scheduleRetry w rowId (w.now + delay)
    else tripBreaker env w d

/-- The rows of a webhook. -/
def webhookRows (w : World) (webhookId workspaceId : Nat) : List DeliveryRow :=
  w.deliveries.filter fun r => r.webhookId = webhookId ∧ r.workspaceId = workspaceId

/-- An answer to `SELECT id … ORDER BY created_at DESC LIMIT 200` where there are more rows: the
order says nothing about rows of one second. -/
def Newest (rows : List DeliveryRow) (kept : List Nat) : Prop :=
  kept.Nodup ∧ kept.length = 200 ∧ (∀ id ∈ kept, ∃ r ∈ rows, r.id = id) ∧
    ∀ r ∈ rows, r.id ∉ kept → ∀ k ∈ rows, k.id ∈ kept → r.createdAt ≤ k.createdAt

instance decidableNewest (rows : List DeliveryRow) (kept : List Nat) :
    Decidable (Newest rows kept) :=
  inferInstanceAs (Decidable (_ ∧ _))

/-- Keep the last 200 rows of a webhook; `kept` are those that the query finds, if there are
more. -/
def pruneDeliveries (w : World) (webhookId workspaceId : Nat) (kept : List Nat) : Option World :=
  let rows := webhookRows w webhookId workspaceId
  if rows.length ≤ 200 then some w
  else if Newest rows kept then
    some { w with
      deliveries := w.deliveries.filter fun r =>
        ¬ (r.webhookId = webhookId ∧ r.workspaceId = workspaceId) ∨ r.id ∈ kept }
  else none

/-- Log the attempt. -/
def recordAttempt (w : World) (d : Delivery) (outcome : FetchOutcome) (durationMs : Nat) : World :=
  World.log
    { w with
      deliveries := w.deliveries ++ [newRow w d outcome durationMs]
      nextDeliveryId := w.nextDeliveryId + 1 }
    (.recorded w.nextDeliveryId d outcome.success)

/-- `UPDATE webhooks SET last_fired_at = unixepoch(), last_status = ?`. -/
def noteFired (w : World) (d : Delivery) (outcome : FetchOutcome) : World :=
  w.updateWebhook d.webhookId d.workspaceId fun wh =>
    { wh with
      lastFiredAt := some w.now
      lastStatus := some ((outcome.statusCode.map Int.ofNat).getD (-1)) }

/-- `deliverWebhook` from its answer to its end. The insertion throws when the webhook is gone,
and then nothing is written. -/
def finishDelivery (env : Environment) (w : World) (d : Delivery) (outcome : FetchOutcome)
    (durationMs delay : Nat) (kept : List Nat) : Option World :=
  if w.webhooks.any fun wh => wh.id = d.webhookId then
    let rowId := w.nextDeliveryId
    let w := noteFired (recordAttempt w d outcome durationMs) d outcome
    let w := if d.allowRetry then noteOutcome env w d outcome.success rowId delay else w
    pruneDeliveries w d.webhookId d.workspaceId kept
  else some w

/-! ### Batches of retries -/

/-- A row that is due, with a webhook that is enabled. -/
def Due (w : World) (r : DeliveryRow) : Prop :=
  (∃ t, r.nextRetryAt = some t ∧ t ≤ w.now) ∧
    ∃ wh ∈ w.webhooks, wh.id = r.webhookId ∧ wh.workspaceId = r.workspaceId ∧ wh.enabled

instance decidableDue (w : World) (r : DeliveryRow) : Decidable (Due w r) :=
  match h : r.nextRetryAt with
  | none => .isFalse fun hdue => by
      obtain ⟨⟨t, ht, -⟩, -⟩ := hdue
      rw [h] at ht
      cases ht
  | some t =>
    decidable_of_iff (t ≤ w.now ∧
      ∃ wh ∈ w.webhooks, wh.id = r.webhookId ∧ wh.workspaceId = r.workspaceId ∧ wh.enabled) <| by
        rw [Due, h]
        simp only [Option.some.injEq, exists_eq_left']

/-- The row as the query of `processWebhookRetries` returns it. -/
def pendingRetry (w : World) (r : DeliveryRow) : Option PendingRetry :=
  (w.webhooks.find? fun wh => wh.id = r.webhookId ∧ wh.workspaceId = r.workspaceId).map fun wh =>
    ⟨r.id, wh.id, r.workspaceId, wh.url, wh.secret, r.eventType, r.payload, r.attempt⟩

/-- The payload that a retry sends: `parsed.data ?? parsed`. -/
def retryPayload (body : Body) : Json :=
  match body.data with
  | .null =>
    .object [("event", .string body.event), ("timestamp", .number body.timestamp), ("data", .null)]
  | data => data

/-- One round of the loop over the claimed rows, up to its await. -/
def retryRow (w : World) (row : PendingRetry) : World :=
  beginDelivery w row.webhookId row.workspaceId row.url row.secret row.eventType
    (retryPayload row.payload) ⟨row.attempt + 1, some row.id, true⟩

/-- `UPDATE webhook_deliveries SET next_retry_at = NULL` for the claimed rows. -/
def clearRetries (w : World) (picked : List Nat) : World :=
  { w with
    deliveries := w.deliveries.map fun r =>
      if r.id ∈ picked then { r with nextRetryAt := none } else r }

/-- An answer to the query for due rows, which has a limit and no order. -/
def Picks (w : World) (picked : List DeliveryRow) : Prop :=
  (picked.map (·.id)).Nodup ∧ (∀ r ∈ picked, Due w r) ∧
    picked.length = min 50 (w.deliveries.countP fun r => Due w r)

instance decidablePicks (w : World) (picked : List DeliveryRow) : Decidable (Picks w picked) :=
  inferInstanceAs (Decidable (_ ∧ _))

def rowById (rows : List DeliveryRow) (id : Nat) : Option DeliveryRow :=
  rows.find? fun r => r.id = id

/-- `processWebhookRetries` up to its first await of a delivery; `picked` are the ids of the
rows that its query returns. -/
def processWebhookRetries (w : World) (picked : List Nat) : Option World :=
  let rows := picked.filterMap (rowById w.deliveries)
  if picked.length = rows.length ∧ Picks w rows then
    match rows.filterMap (pendingRetry w) with
    | [] => some w
    | row :: rest =>
      let w := clearRetries w picked
      some { retryRow w row with batches := w.batches ++ [⟨some w.nextSeq, rest⟩] }
  else none

/-- A batch goes on when the delivery that it awaits is done. -/
def continueBatch (w : World) (i : Nat) : Option World :=
  match w.batches[i]? with
  | some ⟨none, []⟩ => some { w with batches := w.batches.eraseIdx i }
  | some ⟨none, row :: rest⟩ =>
    some { retryRow w row with batches := w.batches.set i ⟨some w.nextSeq, rest⟩ }
  | _ => none

/-! ### Events and requests -/

/-- `fireWebhooksAsync`: every enabled webhook of the workspace that listens gets a delivery. -/
def fireWebhooks (w : World) (eventType : String) (payload : Json) (workspaceId : Nat) : World :=
  (w.webhooks.filter fun wh => wh.enabled ∧ wh.workspaceId = workspaceId ∧
      ("*" ∈ wh.events ∨ eventType ∈ wh.events)).foldl
    (fun w wh => beginDelivery w wh.id wh.workspaceId wh.url wh.secret eventType payload
      ⟨0, none, true⟩) w

/-- `POST /api/webhooks/retry`. -/
def retryDelivery (w : World) (deliveryId workspaceId : Nat) : World :=
  match w.deliveries.find? fun r => r.id = deliveryId ∧ r.workspaceId = workspaceId with
  | none => w
  | some r =>
    match w.webhooks.find? fun wh => wh.id = r.webhookId ∧ wh.workspaceId = r.workspaceId with
    | none => w
    | some wh =>
      beginDelivery w wh.id wh.workspaceId wh.url wh.secret r.eventType (retryPayload r.payload)
        ⟨r.attempt + 1, some r.id, false⟩

/-- `POST /api/webhooks/test`. -/
def testWebhook (w : World) (id workspaceId : Nat) (triggeredBy : String) : World :=
  match w.webhooks.find? fun wh => wh.id = id ∧ wh.workspaceId = workspaceId with
  | none => w
  | some wh =>
    beginDelivery w wh.id wh.workspaceId wh.url wh.secret "test.ping"
      (.object
        [("message", .string "This is a test webhook from Mission Control"),
         ("webhook_id", .number wh.id),
         ("webhook_name", .string wh.name),
         ("triggered_by", .string triggeredBy)])
      ⟨0, none, false⟩

/-- The body of `POST /api/webhooks`, checked, and the secret that is drawn for it. -/
structure NewWebhook where
  name : String
  url : String
  events : Option (List String)
  secret : Option String
  deriving DecidableEq

/-- `POST /api/webhooks`. -/
def postWebhook (w : World) (body : NewWebhook) (workspaceId : Nat) : World :=
  { w with
    webhooks := w.webhooks ++
      [{ id := w.nextWebhookId
         name := body.name
         url := body.url
         secret := body.secret
         events := body.events.getD ["*"]
         enabled := true
         workspaceId := workspaceId
         consecutiveFailures := 0
         lastFiredAt := none
         lastStatus := none }]
    nextWebhookId := w.nextWebhookId + 1 }

/-- The body of `PUT /api/webhooks`, and the secret that is drawn if it asks for one. -/
structure WebhookUpdate where
  id : Nat
  name : Option String
  url : Option String
  events : Option (List String)
  enabled : Option Bool
  secret : Option String
  resetCircuit : Bool
  deriving DecidableEq

/-- The row after the assignments; the last one to a column is the one that counts. -/
def WebhookUpdate.apply (body : WebhookUpdate) (wh : Webhook) : Webhook :=
  { wh with
    name := body.name.getD wh.name
    url := body.url.getD wh.url
    events := body.events.getD wh.events
    enabled := if body.resetCircuit then true else body.enabled.getD wh.enabled
    consecutiveFailures := if body.resetCircuit then 0 else wh.consecutiveFailures
    secret := body.secret.or wh.secret }

/-- What an update says of the circuit of the webhook. -/
def WebhookUpdate.entries (body : WebhookUpdate) : List Entry :=
  (if body.resetCircuit then [.reset body.id] else []) ++
    (if body.resetCircuit ∨ body.enabled = some true then [.enabled body.id] else [])

/-- `PUT /api/webhooks`. -/
def putWebhook (env : Environment) (w : World) (body : WebhookUpdate) (workspaceId : Nat) : World :=
  if w.webhooks.any fun wh => wh.id = body.id ∧ wh.workspaceId = workspaceId then
    if (truthy body.url).all env.validUrl then
      let w := w.updateWebhook body.id workspaceId body.apply
      { w with history := w.history ++ body.entries }
    else w
  else w

/-- `DELETE /api/webhooks`; the deliveries of the webhook go with it. -/
def removeWebhook (w : World) (id workspaceId : Nat) : World :=
  let w := { w with
    deliveries := w.deliveries.filter fun r => ¬ (r.webhookId = id ∧ r.workspaceId = workspaceId) }
  if w.webhooks.any fun wh => wh.id = id ∧ wh.workspaceId = workspaceId then
    { w with
      webhooks := w.webhooks.filter fun wh => ¬ (wh.id = id ∧ wh.workspaceId = workspaceId)
      deliveries := w.deliveries.filter fun r => r.webhookId ≠ id }
  else w

/-! ### Histories -/

inductive Event where
  | wait (seconds : Nat)
  | fire (eventType : String) (payload : Json) (workspaceId : Nat)
  /-- The `i`-th delivery in flight gets its answer. -/
  | finish (i : Nat) (outcome : FetchOutcome) (durationMs delay : Nat) (kept : List Nat)
  | processRetries (picked : List Nat)
  | continueBatch (i : Nat)
  | retryDelivery (deliveryId workspaceId : Nat)
  | testWebhook (id workspaceId : Nat) (triggeredBy : String)
  | postWebhook (body : NewWebhook) (workspaceId : Nat)
  | putWebhook (body : WebhookUpdate) (workspaceId : Nat)
  | removeWebhook (id workspaceId : Nat)

/-- The batch that awaits the delivery, if one does, may go on. -/
def Batch.wake (seq : Nat) (b : Batch) : Batch :=
  if b.awaiting = some seq then { b with awaiting := none } else b

def step (env : Environment) (w : World) : Event → Option World
  | .wait seconds => some { w with now := w.now + seconds }
  | .fire eventType payload workspaceId => some (fireWebhooks w eventType payload workspaceId)
  | .finish i outcome durationMs delay kept =>
    (w.inFlight[i]?).bind fun d =>
      if ValidDelay d.attempt delay then
        finishDelivery env
          { w with
            inFlight := w.inFlight.eraseIdx i
            batches := w.batches.map (Batch.wake d.seq) } d outcome durationMs delay kept
      else none
  | .processRetries picked => processWebhookRetries w picked
  | .continueBatch i => continueBatch w i
  | .retryDelivery deliveryId workspaceId => some (retryDelivery w deliveryId workspaceId)
  | .testWebhook id workspaceId triggeredBy => some (testWebhook w id workspaceId triggeredBy)
  | .postWebhook body workspaceId => some (postWebhook w body workspaceId)
  | .putWebhook body workspaceId => some (putWebhook env w body workspaceId)
  | .removeWebhook id workspaceId => some (removeWebhook w id workspaceId)

def machine (env : Environment) : Machine World Event := ⟨step env⟩

/-! ### A sample installation: it retries once, and has one webhook -/

def twoAttempts : Environment := ⟨some "2", fun _ => true⟩

def hook : NewWebhook := ⟨"hook", "https://example.com/hook", none, none⟩

/-- The answer of a receiver that is down. -/
def unavailable : FetchOutcome := .responded 503 none

/-- A delivery that fails twice, the second time as a retry. -/
def oneRetry : List Event :=
  [.postWebhook hook 1, .fire "agent.error" .null 1, .finish 0 unavailable 5 30 [], .wait 60,
    .processRetries [1], .finish 0 unavailable 5 300 [], .continueBatch 0]

end MissionControl.Webhooks.Deliveries
