import MissionControl.Foundations.Lists
import MissionControl.Webhooks.Deliveries

/-!
What one event can do to webhooks, rows, batches and the history, said once for the invariants
about them, and the lemmas on the pieces that the events are made of.
-/

set_option autoImplicit false
set_option relaxedAutoImplicit false

namespace MissionControl.Webhooks.DeliverySteps

open MissionControl.Foundations.Lists
open MissionControl.Foundations.Schema (Json)
open Deliveries

variable {env : Environment} {w : World}

/-! ### Pieces -/

/-- A step of `deliverWebhook` begins, and nothing else changes but the counter and the log. -/
theorem beginDelivery_eq (webhookId workspaceId : Nat) (url : String) (secret : Option String)
    (eventType : String) (payload : Json) (opts : DeliverOpts) :
    ∃ d : Delivery, d.seq = w.nextSeq ∧ d.webhookId = webhookId ∧ d.workspaceId = workspaceId ∧
      d.attempt = opts.attempt ∧ d.parentDeliveryId = opts.parentDeliveryId ∧
        d.allowRetry = opts.allowRetry ∧
          beginDelivery w webhookId workspaceId url secret eventType payload opts =
            World.log { w with inFlight := w.inFlight ++ [d], nextSeq := w.nextSeq + 1 }
              (.began d) :=
  ⟨_, rfl, rfl, rfl, rfl, rfl, rfl, rfl⟩

/-- Beginning deliveries one after the other keeps what beginning one of them keeps. -/
theorem fold_begin {Inv : World → Prop} {whs : List Webhook}
    {begin : World → Webhook → World} (h : Inv w)
    (hstep : ∀ w wh, wh ∈ whs → Inv w → Inv (begin w wh)) : Inv (whs.foldl begin w) := by
  induction whs generalizing w with
  | nil => exact h
  | cons wh whs ih =>
    rw [List.foldl_cons]
    apply ih
    · exact hstep w wh List.mem_cons_self h
    · intro w wh' hmem hw
      exact hstep w wh' (List.mem_cons_of_mem wh hmem) hw

/-- An event begins a delivery to each of the webhooks, and nothing else changes but the counter
and the log. -/
theorem fold_deliver (eventType : String) (payload : Json) (whs : List Webhook) :
    ∃ ds : List Delivery,
      whs.foldl (fun w wh => beginDelivery w wh.id wh.workspaceId wh.url wh.secret eventType payload
          ⟨0, none, true⟩) w =
        { w with
          inFlight := w.inFlight ++ ds
          nextSeq := w.nextSeq + ds.length
          history := w.history ++ ds.map .began } ∧
      ∀ d ∈ ds, ∃ wh ∈ whs, d.webhookId = wh.id ∧ d.workspaceId = wh.workspaceId := by
  induction whs generalizing w with
  | nil =>
    refine ⟨[], ?_, fun _ h => absurd h List.not_mem_nil⟩
    simp only [List.foldl_nil, List.append_nil, List.map_nil, List.length_nil, Nat.add_zero]
  | cons wh whs ih =>
    obtain ⟨d, -, hid, hworkspace, -, -, -, heq⟩ := beginDelivery_eq (w := w) wh.id wh.workspaceId
      wh.url wh.secret eventType payload ⟨0, none, true⟩
    obtain ⟨ds, hfold, hds⟩ := ih (w := beginDelivery w wh.id wh.workspaceId wh.url wh.secret
      eventType payload ⟨0, none, true⟩)
    refine ⟨d :: ds, ?_, ?_⟩
    · rw [List.foldl_cons, hfold, heq]
      simp only [World.log, List.append_assoc, List.cons_append, List.nil_append, List.map_cons,
        List.length_cons, Nat.add_assoc, Nat.add_comm 1]
    · intro d' hd'
      rcases List.mem_cons.mp hd' with rfl | hd'
      · exact ⟨wh, List.mem_cons_self, hid, hworkspace⟩
      · obtain ⟨wh', hwh', hfacts⟩ := hds d' hd'
        exact ⟨wh', List.mem_cons_of_mem wh hwh', hfacts⟩

/-- The deliveries of an event go to enabled webhooks. -/
theorem fireWebhooks_eq (eventType : String) (payload : Json) (workspaceId : Nat) :
    ∃ ds : List Delivery,
      fireWebhooks w eventType payload workspaceId =
        { w with
          inFlight := w.inFlight ++ ds
          nextSeq := w.nextSeq + ds.length
          history := w.history ++ ds.map .began } ∧
      ∀ d ∈ ds, ∃ wh ∈ w.webhooks, wh.enabled = true ∧ d.webhookId = wh.id ∧
        d.workspaceId = wh.workspaceId := by
  obtain ⟨ds, hfold, hds⟩ := fold_deliver (w := w) eventType payload
    (w.webhooks.filter fun wh => wh.enabled ∧ wh.workspaceId = workspaceId ∧
      ("*" ∈ wh.events ∨ eventType ∈ wh.events))
  refine ⟨ds, hfold, ?_⟩
  intro d hd
  obtain ⟨wh, hwh, hfacts⟩ := hds d hd
  obtain ⟨hmem, hmatch⟩ := List.mem_filter.mp hwh
  exact ⟨wh, hmem, (of_decide_eq_true hmatch).1, hfacts⟩

theorem retryRow_eq (row : PendingRetry) :
    ∃ d : Delivery, d.seq = w.nextSeq ∧ d.webhookId = row.webhookId ∧
      d.workspaceId = row.workspaceId ∧ d.attempt = row.attempt + 1 ∧
        d.parentDeliveryId = some row.id ∧ d.allowRetry = true ∧
          retryRow w row =
            World.log { w with inFlight := w.inFlight ++ [d], nextSeq := w.nextSeq + 1 }
              (.began d) :=
  ⟨_, rfl, rfl, rfl, rfl, rfl, rfl, rfl⟩

/-- A due row joins with its webhook. -/
theorem pendingRetry_of_due {r : DeliveryRow} (h : Due w r) :
    ∃ p, pendingRetry w r = some p ∧ p.id = r.id ∧ p.attempt = r.attempt ∧
      p.webhookId = r.webhookId ∧ p.workspaceId = r.workspaceId := by
  obtain ⟨-, wh, hwh, hid, hworkspace, -⟩ := h
  have hfound : (w.webhooks.find? fun wh =>
      wh.id = r.webhookId ∧ wh.workspaceId = r.workspaceId).isSome :=
    List.find?_isSome.mpr ⟨wh, hwh, decide_eq_true ⟨hid, hworkspace⟩⟩
  obtain ⟨found, hfound⟩ := Option.isSome_iff_exists.mp hfound
  have hmatch : found.id = r.webhookId ∧ found.workspaceId = r.workspaceId :=
    of_decide_eq_true (List.find?_some hfound :)
  refine ⟨⟨r.id, found.id, r.workspaceId, found.url, found.secret, r.eventType, r.payload,
    r.attempt⟩, ?_, rfl, rfl, hmatch.1, rfl⟩
  rw [pendingRetry, hfound]
  rfl

theorem joined_ids {rows : List DeliveryRow} (h : ∀ r ∈ rows, Due w r) :
    (rows.filterMap (pendingRetry w)).map (·.id) = rows.map (·.id) := by
  induction rows with
  | nil => rfl
  | cons r rows ih =>
    obtain ⟨p, hp, hid, -⟩ := pendingRetry_of_due (h r List.mem_cons_self)
    rw [List.filterMap_cons_some hp, List.map_cons, List.map_cons, hid,
      ih fun r' hr' => h r' (List.mem_cons_of_mem r hr')]

/-- A claimed row comes from a row that is due. -/
theorem mem_joined {rows : List DeliveryRow} (h : ∀ r ∈ rows, Due w r) {p : PendingRetry}
    (hp : p ∈ rows.filterMap (pendingRetry w)) :
    ∃ r ∈ rows, p.id = r.id ∧ p.attempt = r.attempt ∧ p.webhookId = r.webhookId ∧
      p.workspaceId = r.workspaceId := by
  obtain ⟨r, hr, hjoined⟩ := List.mem_filterMap.mp hp
  obtain ⟨p', hp', hfacts⟩ := pendingRetry_of_due (h r hr)
  rw [hjoined] at hp'
  obtain rfl := Option.some.inj hp'
  exact ⟨r, hr, hfacts⟩

theorem pending_of_due {r : DeliveryRow} (h : Due w r) : r.nextRetryAt ≠ none := by
  obtain ⟨⟨t, ht, -⟩, -⟩ := h
  rw [ht]
  exact Option.some_ne_none t

/-- What pruning keeps: everything, or the rows of other webhooks and 200 newest ones. -/
theorem pruneDeliveries_eq_some {webhookId workspaceId : Nat} {kept : List Nat} {w' : World}
    (h : pruneDeliveries w webhookId workspaceId kept = some w') :
    ∃ keep : DeliveryRow → Bool, w' = { w with deliveries := w.deliveries.filter keep } ∧
      ((∀ r, keep r = true) ∨ (Newest (webhookRows w webhookId workspaceId) kept ∧
        ∀ r, keep r = true ↔
          ¬ (r.webhookId = webhookId ∧ r.workspaceId = workspaceId) ∨ r.id ∈ kept)) := by
  rw [pruneDeliveries] at h
  split at h
  · obtain rfl := Option.some.inj h
    refine ⟨fun _ => true, ?_, .inl fun _ => rfl⟩
    rw [List.filter_eq_self.mpr fun _ _ => rfl]
  · split at h
    · rename_i hnewest
      obtain rfl := Option.some.inj h
      exact ⟨_, rfl, .inr ⟨hnewest, fun r => decide_eq_true_iff⟩⟩
    · cases h

/-! ### Steps -/

/-- The world of a delivery that has its answer: it is no longer in flight, and the batch that
awaited it may go on. -/
def landed (w : World) (i : Nat) (d : Delivery) : World :=
  { w with inFlight := w.inFlight.eraseIdx i, batches := w.batches.map (Batch.wake d.seq) }

/-- The world before the pruning of a delivery whose webhook is there. -/
def attempted (env : Environment) (w : World) (d : Delivery) (outcome : FetchOutcome)
    (durationMs delay : Nat) : World :=
  let logged := noteFired (recordAttempt w d outcome durationMs) d outcome
  if d.allowRetry then noteOutcome env logged d outcome.success w.nextDeliveryId delay
  else logged

/-- The attempt is exhausted and has failed, and its webhook has failed often enough. -/
def Trips (env : Environment) (w : World) (d : Delivery) (outcome : FetchOutcome) : Prop :=
  d.allowRetry = true ∧ outcome.success = false ∧ ¬ (d.attempt : Int) < maxRetries env - 1 ∧
    ∃ wh, (w.webhooks.find? fun wh => wh.id = d.webhookId ∧ wh.workspaceId = d.workspaceId) =
      some wh ∧ maxRetries env ≤ wh.consecutiveFailures + 1

instance decidableTrips (w : World) (d : Delivery) (outcome : FetchOutcome) :
    Decidable (Trips env w d outcome) :=
  match h : w.webhooks.find? fun wh => wh.id = d.webhookId ∧ wh.workspaceId = d.workspaceId with
  | none => .isFalse fun htrips => by
      obtain ⟨-, -, -, wh, hwh, -⟩ := htrips
      rw [h] at hwh
      cases hwh
  | some wh =>
    decidable_of_iff (d.allowRetry = true ∧ outcome.success = false ∧
      ¬ (d.attempt : Int) < maxRetries env - 1 ∧ maxRetries env ≤ wh.consecutiveFailures + 1) <| by
        rw [Trips, h]
        simp only [Option.some.injEq, exists_eq_left']

/-- The counter of a webhook after an attempt. -/
def counted (d : Delivery) (outcome : FetchOutcome) (consecutiveFailures : Nat) : Nat :=
  if d.allowRetry then if outcome.success then 0 else consecutiveFailures + 1
  else consecutiveFailures

/-- A row of `webhooks` with the last attempt noted. -/
def firedWith (w : World) (outcome : FetchOutcome) (wh : Webhook) : Webhook :=
  { wh with
    lastFiredAt := some w.now
    lastStatus := some ((outcome.statusCode.map Int.ofNat).getD (-1)) }

/-- A row of `webhooks` after an attempt. -/
def afterAttempt (env : Environment) (w : World) (d : Delivery) (outcome : FetchOutcome)
    (wh : Webhook) : Webhook :=
  if wh.id = d.webhookId ∧ wh.workspaceId = d.workspaceId then
    { firedWith w outcome wh with
      consecutiveFailures := counted d outcome wh.consecutiveFailures
      enabled := wh.enabled && ¬ Trips env w d outcome }
  else wh

theorem fired_updateWebhook (d : Delivery) (outcome : FetchOutcome) (durationMs : Nat)
    (f : Webhook → Webhook) :
    ((noteFired (recordAttempt w d outcome durationMs) d outcome).updateWebhook d.webhookId
      d.workspaceId f).webhooks = w.webhooks.map fun wh =>
        if wh.id = d.webhookId ∧ wh.workspaceId = d.workspaceId then f (firedWith w outcome wh)
        else wh := by
  simp only [noteFired, recordAttempt, World.updateWebhook, World.log, List.map_map]
  apply List.map_congr_left
  intro wh _
  by_cases h : wh.id = d.webhookId ∧ wh.workspaceId = d.workspaceId
  · simp only [Function.comp_apply, h, and_self, if_true, firedWith]
  · simp only [Function.comp_apply, h, if_false]

/-- The webhooks after an attempt that does not trip the breaker. -/
theorem webhooks_untripped {d : Delivery} {outcome : FetchOutcome}
    (h : ¬ Trips env w d outcome) {f : Webhook → Webhook}
    (hf : ∀ wh, f (firedWith w outcome wh) = { firedWith w outcome wh with
      consecutiveFailures := counted d outcome wh.consecutiveFailures }) (durationMs : Nat) :
    ((noteFired (recordAttempt w d outcome durationMs) d outcome).updateWebhook d.webhookId
      d.workspaceId f).webhooks = w.webhooks.map (afterAttempt env w d outcome) := by
  rw [fired_updateWebhook]
  apply List.map_congr_left
  intro wh _
  rw [hf wh, afterAttempt]
  simp only [h, not_false_eq_true, decide_true, Bool.and_true]
  rfl

/-- The webhooks after an attempt that trips the breaker. -/
theorem webhooks_tripped {d : Delivery} {outcome : FetchOutcome} (h : Trips env w d outcome)
    (durationMs : Nat) :
    (((noteFired (recordAttempt w d outcome durationMs) d outcome).updateWebhook d.webhookId
      d.workspaceId fun wh =>
        { wh with consecutiveFailures := wh.consecutiveFailures + 1 }).updateWebhook d.webhookId
          d.workspaceId fun wh => { wh with enabled := false }).webhooks =
      w.webhooks.map (afterAttempt env w d outcome) := by
  have hcounted := fired_updateWebhook (w := w) d outcome durationMs fun wh =>
    { wh with consecutiveFailures := wh.consecutiveFailures + 1 }
  rw [World.updateWebhook, hcounted, List.map_map]
  apply List.map_congr_left
  intro wh _
  by_cases hwh : wh.id = d.webhookId ∧ wh.workspaceId = d.workspaceId
  · simp only [Function.comp_apply, afterAttempt, firedWith, counted, hwh, h, h.1, h.2.1,
      and_self, not_true_eq_false, decide_false, Bool.and_false, if_true, Bool.false_eq_true, if_false]
  · simp only [Function.comp_apply, afterAttempt, hwh, if_false]

/-- The webhooks after an attempt that is not counted. -/
theorem webhooks_once {d : Delivery} (h : d.allowRetry = false) (outcome : FetchOutcome)
    (durationMs : Nat) : (noteFired (recordAttempt w d outcome durationMs) d outcome).webhooks =
      w.webhooks.map (afterAttempt env w d outcome) := by
  have htrips : ¬ Trips env w d outcome := by
    rintro ⟨hallow, -⟩
    rw [h] at hallow
    cases hallow
  apply List.map_congr_left
  intro wh _
  simp only [afterAttempt, firedWith, counted, h, htrips, not_false_eq_true, decide_true,
    Bool.and_true, Bool.false_eq_true, if_false]
  rfl

/-- The failed attempt trips the breaker or leaves the circuit as it is. -/
theorem tripBreaker_eq {d : Delivery} {outcome : FetchOutcome} (hauto : d.allowRetry = true)
    (hfailed : outcome.success = false) (hattempt : ¬ (d.attempt : Int) < maxRetries env - 1)
    (durationMs : Nat) :
    let failed := (noteFired (recordAttempt w d outcome durationMs) d outcome).updateWebhook
      d.webhookId d.workspaceId fun wh =>
        { wh with consecutiveFailures := wh.consecutiveFailures + 1 }
    tripBreaker env failed d = if Trips env w d outcome then
      (failed.updateWebhook d.webhookId d.workspaceId fun wh => { wh with enabled := false }).log
        (.tripped d.webhookId)
    else failed := by
  intro failed
  have hwebhooks : failed.webhooks = w.webhooks.map fun wh =>
      if wh.id = d.webhookId ∧ wh.workspaceId = d.workspaceId then
        { firedWith w outcome wh with consecutiveFailures := wh.consecutiveFailures + 1 }
      else wh :=
    fired_updateWebhook d outcome durationMs _
  have hfound := find?_update
    (P := fun wh : Webhook => wh.id = d.webhookId ∧ wh.workspaceId = d.workspaceId)
    (f := fun wh => { firedWith w outcome wh with
      consecutiveFailures := wh.consecutiveFailures + 1 }) (fun _ h => h) w.webhooks
  rw [tripBreaker, hwebhooks, hfound]
  cases hwh : w.webhooks.find? fun wh => wh.id = d.webhookId ∧ wh.workspaceId = d.workspaceId with
  | none =>
    have htrips : ¬ Trips env w d outcome := by
      rintro ⟨-, -, -, wh, hsome, -⟩
      rw [hwh] at hsome
      cases hsome
    rw [if_neg htrips]
    rfl
  | some wh =>
    have htrips : Trips env w d outcome ↔ maxRetries env ≤ ((wh.consecutiveFailures + 1 : Nat) : Int) := by
      constructor
      · rintro ⟨-, -, -, wh', hsome, hmax⟩
        rw [hwh] at hsome
        obtain rfl := Option.some.inj hsome
        exact hmax
      · exact fun hmax => ⟨hauto, hfailed, hattempt, wh, hwh, hmax⟩
    simp only [htrips, Option.map_some]

/-- The webhooks and the history after an attempt. -/
theorem attempted_eq (d : Delivery) (outcome : FetchOutcome) (durationMs delay : Nat) :
    (attempted env w d outcome durationMs delay).webhooks =
        w.webhooks.map (afterAttempt env w d outcome) ∧
      (attempted env w d outcome durationMs delay).history =
        w.history ++ .recorded w.nextDeliveryId d outcome.success ::
          if Trips env w d outcome then [.tripped d.webhookId] else [] := by
  by_cases htrips : Trips env w d outcome
  · rw [attempted, if_pos htrips.1, noteOutcome, if_neg (Bool.eq_false_iff.mp htrips.2.1)]
    dsimp only
    rw [if_neg htrips.2.2.1, tripBreaker_eq htrips.1 htrips.2.1 htrips.2.2.1, if_pos htrips,
      if_pos htrips]
    exact ⟨webhooks_tripped htrips durationMs, List.append_assoc _ _ _⟩
  · rw [if_neg htrips, attempted]
    split
    · rename_i hauto
      rw [noteOutcome]
      split
      · rename_i hsuccess
        refine ⟨webhooks_untripped htrips ?_ durationMs, rfl⟩
        intro wh
        rw [counted, if_pos hauto, if_pos hsuccess]
      · rename_i hfailed
        have hcounted := webhooks_untripped htrips (f := fun wh =>
          { wh with consecutiveFailures := wh.consecutiveFailures + 1 }) (fun wh => by
            rw [counted, if_pos hauto, if_neg hfailed]; rfl) durationMs
        dsimp only
        split
        · exact ⟨hcounted, rfl⟩
        · rename_i hattempt
          rw [tripBreaker_eq hauto (Bool.eq_false_iff.mpr hfailed) hattempt, if_neg htrips]
          exact ⟨hcounted, rfl⟩
    · rename_i honce
      exact ⟨webhooks_once (Bool.eq_false_iff.mpr honce) outcome durationMs, rfl⟩

theorem tripBreaker_frame (d : Delivery) :
    (tripBreaker env w d).inFlight = w.inFlight ∧ (tripBreaker env w d).batches = w.batches ∧
      (tripBreaker env w d).nextWebhookId = w.nextWebhookId := by
  rw [tripBreaker]
  split
  · exact ⟨rfl, rfl, rfl⟩
  · split <;> exact ⟨rfl, rfl, rfl⟩

/-- An attempt is logged under the next number, and takes no time. -/
theorem attempted_counters (d : Delivery) (outcome : FetchOutcome) (durationMs delay : Nat) :
    (attempted env w d outcome durationMs delay).nextDeliveryId = w.nextDeliveryId + 1 ∧
      (attempted env w d outcome durationMs delay).now = w.now := by
  rw [attempted]
  split
  · rw [noteOutcome]
    split
    · exact ⟨rfl, rfl⟩
    · dsimp only
      split
      · exact ⟨rfl, rfl⟩
      · rw [tripBreaker]
        split
        · exact ⟨rfl, rfl⟩
        · split <;> exact ⟨rfl, rfl⟩
  · exact ⟨rfl, rfl⟩

/-- What an attempt leaves alone. -/
theorem attempted_frame (d : Delivery) (outcome : FetchOutcome) (durationMs delay : Nat) :
    (attempted env w d outcome durationMs delay).inFlight = w.inFlight ∧
      (attempted env w d outcome durationMs delay).batches = w.batches ∧
        (attempted env w d outcome durationMs delay).nextWebhookId = w.nextWebhookId := by
  rw [attempted]
  split
  · rw [noteOutcome]
    split
    · exact ⟨rfl, rfl, rfl⟩
    · dsimp only
      split
      · exact ⟨rfl, rfl, rfl⟩
      · exact tripBreaker_frame d
  · exact ⟨rfl, rfl, rfl⟩

/-- Everything that one event can do. -/
inductive Moved (env : Environment) (w : World) : Event → World → Prop where
  | kept (e : Event) : Moved env w e w
  | waited (seconds : Nat) : Moved env w (.wait seconds) { w with now := w.now + seconds }
  | fired (eventType : String) (payload : Json) (workspaceId : Nat) :
      Moved env w (.fire eventType payload workspaceId)
        (fireWebhooks w eventType payload workspaceId)
  | dropped (i : Nat) (outcome : FetchOutcome) (durationMs delay : Nat) (kept : List Nat)
      (d : Delivery) (flight : w.inFlight[i]? = some d)
      (gone : ∀ wh ∈ w.webhooks, wh.id ≠ d.webhookId) :
      Moved env w (.finish i outcome durationMs delay kept) (landed w i d)
  | finished (i : Nat) (outcome : FetchOutcome) (durationMs delay : Nat) (kept : List Nat)
      (d : Delivery) (w' : World) (flight : w.inFlight[i]? = some d)
      (found : ∃ wh ∈ w.webhooks, wh.id = d.webhookId)
      (pruned : pruneDeliveries (attempted env (landed w i d) d outcome durationMs delay)
        d.webhookId d.workspaceId kept = some w') :
      Moved env w (.finish i outcome durationMs delay kept) w'
  | claimed (picked : List Nat) (rows : List DeliveryRow) (row : PendingRetry)
      (rest : List PendingRetry) (ids : picked = rows.map (·.id))
      (members : ∀ r ∈ rows, r ∈ w.deliveries) (picks : Picks w rows)
      (joined : rows.filterMap (pendingRetry w) = row :: rest) :
      Moved env w (.processRetries picked)
        { retryRow (clearRetries w picked) row with
          batches := w.batches ++ [⟨some w.nextSeq, rest⟩] }
  | ended (i : Nat) (batch : w.batches[i]? = some ⟨none, []⟩) :
      Moved env w (.continueBatch i) { w with batches := w.batches.eraseIdx i }
  | continued (i : Nat) (row : PendingRetry) (rest : List PendingRetry)
      (batch : w.batches[i]? = some ⟨none, row :: rest⟩) :
      Moved env w (.continueBatch i)
        { retryRow w row with batches := w.batches.set i ⟨some w.nextSeq, rest⟩ }
  | manual (e : Event) (wh : Webhook) (eventType : String) (payload : Json) (opts : DeliverOpts)
      (webhook : wh ∈ w.webhooks) (once : opts.allowRetry = false)
      (repeated : ∀ rowId ∈ opts.parentDeliveryId, ∃ r ∈ w.deliveries, r.id = rowId ∧
        eventType = r.eventType ∧ payload = retryPayload r.payload) :
      Moved env w e
        (beginDelivery w wh.id wh.workspaceId wh.url wh.secret eventType payload opts)
  | posted (body : NewWebhook) (workspaceId : Nat) :
      Moved env w (.postWebhook body workspaceId) (postWebhook w body workspaceId)
  | put (body : WebhookUpdate) (workspaceId : Nat)
      (found : ∃ wh ∈ w.webhooks, wh.id = body.id ∧ wh.workspaceId = workspaceId) :
      Moved env w (.putWebhook body workspaceId)
        { w.updateWebhook body.id workspaceId body.apply with
          history := w.history ++ body.entries }
  | removed (id workspaceId : Nat) :
      Moved env w (.removeWebhook id workspaceId) (removeWebhook w id workspaceId)

theorem find?_pair_eq_some {whs : List Webhook} {id workspaceId : Nat} {wh : Webhook}
    (h : (whs.find? fun wh => wh.id = id ∧ wh.workspaceId = workspaceId) = some wh) :
    wh ∈ whs ∧ wh.id = id ∧ wh.workspaceId = workspaceId :=
  ⟨List.mem_of_find?_eq_some h, of_decide_eq_true (List.find?_some h :)⟩

/-- The end of a delivery, whose webhook is gone or not. -/
theorem finish_cases {i : Nat} {outcome : FetchOutcome} {durationMs delay : Nat}
    {kept : List Nat} {w' : World}
    (h : step env w (.finish i outcome durationMs delay kept) = some w') :
    ∃ d, w.inFlight[i]? = some d ∧
      (((∀ wh ∈ w.webhooks, wh.id ≠ d.webhookId) ∧ w' = landed w i d) ∨
        ((∃ wh ∈ w.webhooks, wh.id = d.webhookId) ∧
          pruneDeliveries (attempted env (landed w i d) d outcome durationMs delay) d.webhookId
            d.workspaceId kept = some w')) := by
  obtain ⟨d, hflight, h⟩ := Option.bind_eq_some_iff.mp h
  refine ⟨d, hflight, ?_⟩
  split at h
  · rw [finishDelivery] at h
    split at h
    · rename_i hany
      obtain ⟨wh, hwh, hid⟩ := List.any_eq_true.mp hany
      exact .inr ⟨⟨wh, hwh, of_decide_eq_true hid⟩, h⟩
    · rename_i hany
      refine .inl ⟨?_, (Option.some.inj h).symm⟩
      intro wh hwh hid
      exact hany (List.any_eq_true.mpr ⟨wh, hwh, decide_eq_true hid⟩)
  · cases h

/-- The end of a delivery whose webhook is there. -/
theorem finish_of_found {i : Nat} {d : Delivery} (outcome : FetchOutcome) {durationMs delay : Nat}
    (kept : List Nat) (hflight : w.inFlight[i]? = some d) (hdelay : ValidDelay d.attempt delay)
    (hfound : ∃ wh ∈ w.webhooks, wh.id = d.webhookId) :
    step env w (.finish i outcome durationMs delay kept) =
      pruneDeliveries (attempted env (landed w i d) d outcome durationMs delay) d.webhookId
        d.workspaceId kept := by
  obtain ⟨wh, hwh, hid⟩ := hfound
  have hany : (landed w i d).webhooks.any (fun wh => wh.id = d.webhookId) = true :=
    List.any_eq_true.mpr ⟨wh, hwh, decide_eq_true hid⟩
  rw [step, hflight, Option.bind_some, if_pos hdelay]
  exact if_pos hany

theorem moved_finish {i : Nat} {outcome : FetchOutcome} {durationMs delay : Nat}
    {kept : List Nat} {w' : World}
    (h : step env w (.finish i outcome durationMs delay kept) = some w') :
    Moved env w (.finish i outcome durationMs delay kept) w' := by
  obtain ⟨d, hflight, ⟨hgone, rfl⟩ | ⟨hfound, hpruned⟩⟩ := finish_cases h
  · exact .dropped i outcome durationMs delay kept d hflight hgone
  · exact .finished i outcome durationMs delay kept d w' hflight hfound hpruned

theorem rowById_eq_some {rows : List DeliveryRow} {id : Nat} {r : DeliveryRow}
    (h : rowById rows id = some r) : r ∈ rows ∧ r.id = id :=
  ⟨List.mem_of_find?_eq_some h, of_decide_eq_true (List.find?_some h :)⟩

/-- Looking up ids one by one finds rows with these ids, when it finds one for each. -/
theorem find_ids {rows : List DeliveryRow} {ids : List Nat}
    (h : ids.length = (ids.filterMap (rowById rows)).length) :
    ids = (ids.filterMap (rowById rows)).map (·.id) := by
  induction ids with
  | nil => rfl
  | cons id ids ih =>
    cases hfound : rowById rows id with
    | none =>
      have hle := List.length_filterMap_le (rowById rows) ids
      rw [List.filterMap_cons_none hfound, List.length_cons] at h
      omega
    | some r =>
      have hid := (rowById_eq_some hfound).2
      rw [List.filterMap_cons_some hfound] at h ⊢
      simp only [List.length_cons, Nat.add_right_cancel_iff] at h
      rw [List.map_cons, hid, ← ih h]

theorem moved_processRetries {picked : List Nat} {w' : World}
    (h : processWebhookRetries w picked = some w') :
    Moved env w (.processRetries picked) w' := by
  rw [processWebhookRetries] at h
  dsimp only at h
  split at h
  · rename_i hvalid
    have hids := find_ids hvalid.1
    have hmembers : ∀ r ∈ picked.filterMap (rowById w.deliveries), r ∈ w.deliveries := by
      intro r hr
      obtain ⟨id, -, hfound⟩ := List.mem_filterMap.mp hr
      exact (rowById_eq_some hfound).1
    split at h
    · obtain rfl := Option.some.inj h
      exact .kept _
    · rename_i row rest hjoined
      obtain rfl := Option.some.inj h
      exact .claimed picked _ row rest hids hmembers hvalid.2 hjoined
  · cases h

theorem moved_continueBatch {i : Nat} {w' : World} (h : continueBatch w i = some w') :
    Moved env w (.continueBatch i) w' := by
  rw [continueBatch] at h
  split at h
  · rename_i hbatch
    obtain rfl := Option.some.inj h
    exact .ended i hbatch
  · rename_i row rest hbatch
    obtain rfl := Option.some.inj h
    exact .continued i row rest hbatch
  · cases h

theorem moved_retryDelivery (deliveryId workspaceId : Nat) :
    Moved env w (.retryDelivery deliveryId workspaceId) (retryDelivery w deliveryId workspaceId) := by
  rw [retryDelivery]
  split
  · exact .kept _
  · rename_i r hr
    split
    · exact .kept _
    · rename_i wh hwh
      refine .manual _ wh _ _ _ (find?_pair_eq_some hwh).1 rfl ?_
      intro rowId hrow
      obtain rfl := Option.some.inj hrow
      exact ⟨r, List.mem_of_find?_eq_some hr, rfl, rfl, rfl⟩

theorem moved_testWebhook (id workspaceId : Nat) (triggeredBy : String) :
    Moved env w (.testWebhook id workspaceId triggeredBy)
      (testWebhook w id workspaceId triggeredBy) := by
  rw [testWebhook]
  split
  · exact .kept _
  · rename_i wh hwh
    refine .manual _ wh _ _ _ (find?_pair_eq_some hwh).1 rfl ?_
    intro rowId hrow
    cases hrow

theorem moved_putWebhook (body : WebhookUpdate) (workspaceId : Nat) :
    Moved env w (.putWebhook body workspaceId) (putWebhook env w body workspaceId) := by
  rw [putWebhook]
  split
  · rename_i hany
    obtain ⟨wh, hwh, hmatch⟩ := List.any_eq_true.mp hany
    split
    · exact .put body workspaceId ⟨wh, hwh, of_decide_eq_true hmatch⟩
    · exact .kept _
  · exact .kept _

/-- The inversion of a step. -/
theorem moved_of_step {e : Event} {w' : World} (h : (machine env).step w e = some w') :
    Moved env w e w' := by
  cases e with
  | wait seconds =>
    obtain rfl := Option.some.inj h
    exact .waited seconds
  | fire eventType payload workspaceId =>
    obtain rfl := Option.some.inj h
    exact .fired eventType payload workspaceId
  | finish => exact moved_finish h
  | processRetries => exact moved_processRetries h
  | continueBatch => exact moved_continueBatch h
  | retryDelivery =>
    obtain rfl := Option.some.inj h
    exact moved_retryDelivery ..
  | testWebhook =>
    obtain rfl := Option.some.inj h
    exact moved_testWebhook ..
  | postWebhook body workspaceId =>
    obtain rfl := Option.some.inj h
    exact .posted body workspaceId
  | putWebhook =>
    obtain rfl := Option.some.inj h
    exact moved_putWebhook ..
  | removeWebhook id workspaceId =>
    obtain rfl := Option.some.inj h
    exact .removed id workspaceId

end MissionControl.Webhooks.DeliverySteps
