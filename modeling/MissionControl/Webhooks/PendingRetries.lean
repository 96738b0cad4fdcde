import MissionControl.Webhooks.CircuitBreaker
import MissionControl.Webhooks.RetryChains

/-!
Pending retries. Nothing but its own batch and the deletion of its webhook takes a retry away
from a row, except the pruning: it keeps the 200 newest rows, whatever they wait for.
-/

set_option autoImplicit false
set_option relaxedAutoImplicit false

namespace MissionControl.Webhooks.PendingRetries

open MissionControl.Foundations.Lists
open MissionControl.Foundations.Schema (Json)
open MissionControl.Foundations.Transition (Machine)
open Deliveries DeliverySteps RetryChains CircuitBreaker

variable {env : Environment} {w : World}

/-! ### Pruning -/

/-- Fewer than 200 rows are as new as that. -/
def Uncrowded (rows : List DeliveryRow) (createdAt : Nat) : Prop :=
  (rows.countP fun k => createdAt ≤ k.createdAt) < 200

instance decidableUncrowded (rows : List DeliveryRow) (createdAt : Nat) :
    Decidable (Uncrowded rows createdAt) :=
  inferInstanceAs (Decidable (_ < _))

/-- A row that the query leaves out has 200 others that are as new. -/
theorem mem_kept_of_newest {rows : List DeliveryRow} {kept : List Nat} (h : Newest rows kept)
    {r : DeliveryRow} (hr : r ∈ rows)
    (hcount : (rows.countP fun k => r.createdAt ≤ k.createdAt) ≤ 200) : r.id ∈ kept := by
  by_contra hout
  obtain ⟨hnodup, hlength, hrows, hnewer⟩ := h
  have hids : r.id :: kept ⊆
      (rows.filter fun k => r.createdAt ≤ k.createdAt).map (·.id) := by
    intro id hid
    rcases List.mem_cons.mp hid with rfl | hid
    · refine List.mem_map_of_mem (List.mem_filter.mpr ⟨hr, ?_⟩)
      exact decide_eq_true (Nat.le_refl _)
    · obtain ⟨k, hk, rfl⟩ := hrows id hid
      refine List.mem_map_of_mem (List.mem_filter.mpr ⟨hk, ?_⟩)
      exact decide_eq_true (hnewer r hr hout k hk hid)
  have hle := ((List.nodup_cons.mpr ⟨hout, hnodup⟩).subperm hids).length_le
  rw [List.length_map, ← List.countP_eq_length_filter, List.length_cons, hlength] at hle
  omega

/-- What an attempt adds to the log. -/
theorem attempted_deliveries (hfresh : ∀ r ∈ w.deliveries, r.id < w.nextDeliveryId) (d : Delivery)
    (outcome : FetchOutcome) (durationMs delay : Nat) :
    ∃ new : DeliveryRow, new.id = w.nextDeliveryId ∧ new.webhookId = d.webhookId ∧
      new.workspaceId = d.workspaceId ∧ new.createdAt = w.now ∧
        (attempted env w d outcome durationMs delay).deliveries = w.deliveries ++ [new] := by
  have hold : ∀ t, (w.deliveries.map fun r =>
      if r.id = w.nextDeliveryId then { r with nextRetryAt := some t } else r) = w.deliveries := by
    intro t
    refine (List.map_congr_left ?_).trans (List.map_id' w.deliveries)
    intro r hr
    exact if_neg (Nat.ne_of_lt (hfresh r hr))
  have hlogged : ∃ new : DeliveryRow, new.id = w.nextDeliveryId ∧ new.webhookId = d.webhookId ∧
      new.workspaceId = d.workspaceId ∧ new.createdAt = w.now ∧
        w.deliveries ++ [newRow w d outcome durationMs] = w.deliveries ++ [new] :=
    ⟨newRow w d outcome durationMs, rfl, rfl, rfl, rfl, rfl⟩
  rw [attempted]
  split
  · rw [noteOutcome]
    split
    · exact hlogged
    · dsimp only
      split
      · refine ⟨{ newRow w d outcome durationMs with nextRetryAt := some (w.now + delay) }, rfl,
          rfl, rfl, rfl, ?_⟩
        have hnew : (scheduleRetry (recordAttempt w d outcome durationMs) w.nextDeliveryId
            (w.now + delay)).deliveries = _ := List.map_append
        have hid : (newRow w d outcome durationMs).id = w.nextDeliveryId := rfl
        refine hnew.trans ?_
        rw [hold, List.map_singleton, if_pos hid]
      · rw [tripBreaker]
        split
        · exact hlogged
        · split <;> exact hlogged
  · exact hlogged

/-- The end of a delivery comes at a time when few rows of its webhook are as new as the rows
that wait for a retry, and as the one that it logs. -/
def Unhurried (w : World) : Event → Prop
  | .finish i _ _ _ _ => ∀ d, w.inFlight[i]? = some d →
    Uncrowded (webhookRows w d.webhookId d.workspaceId) w.now ∧
      ∀ r ∈ webhookRows w d.webhookId d.workspaceId, r.nextRetryAt ≠ none →
        Uncrowded (webhookRows w d.webhookId d.workspaceId) r.createdAt
  | _ => True

instance decidableUnhurried (w : World) : ∀ e : Event, Decidable (Unhurried w e)
  | .finish i _ _ _ _ =>
    match hflight : w.inFlight[i]? with
    | none => .isTrue fun d hd => absurd (hflight.symm.trans hd) (Option.some_ne_none d).symm
    | some d =>
      decidable_of_iff (Uncrowded (webhookRows w d.webhookId d.workspaceId) w.now ∧
        ∀ r ∈ webhookRows w d.webhookId d.workspaceId, r.nextRetryAt ≠ none →
          Uncrowded (webhookRows w d.webhookId d.workspaceId) r.createdAt) <| by
            simp only [Unhurried, hflight, Option.some.injEq, forall_eq']
  | .wait _ | .fire .. | .processRetries _ | .continueBatch _ | .retryDelivery .. | .testWebhook ..
  | .postWebhook .. | .putWebhook .. | .removeWebhook .. => .isTrue trivial

/-- The rows of a webhook after one is logged. -/
theorem countP_logged {deliveries : List DeliveryRow} {new : DeliveryRow} {p : DeliveryRow → Bool}
    {createdAt : Nat} (h : Uncrowded (deliveries.filter p) createdAt) :
    (((deliveries ++ [new]).filter p).countP fun k => createdAt ≤ k.createdAt) ≤ 200 := by
  have hnew : (([new].filter p).countP fun k => createdAt ≤ k.createdAt) ≤ 1 :=
    List.countP_le_length.trans (List.length_filter_le p [new])
  rw [Uncrowded] at h
  rw [List.filter_append, List.countP_append]
  omega

/-- What the end of a delivery keeps: the row that it logs, and the rows that wait for a retry. -/
theorem kept_of_finish (hfresh : ∀ r ∈ w.deliveries, r.id < w.nextDeliveryId) {i : Nat}
    {outcome : FetchOutcome} {durationMs delay : Nat} {kept : List Nat} {d : Delivery} {w' : World}
    (hflight : w.inFlight[i]? = some d)
    (hpruned : pruneDeliveries (attempted env (landed w i d) d outcome durationMs delay)
      d.webhookId d.workspaceId kept = some w')
    (h : Unhurried w (.finish i outcome durationMs delay kept)) :
    (∃ r ∈ w'.deliveries, r.id = w.nextDeliveryId) ∧
      ∀ r ∈ w.deliveries, r.nextRetryAt ≠ none → r ∈ w'.deliveries := by
  obtain ⟨new, hid, hwebhook, hworkspace, hcreated, hdeliveries⟩ :=
    @attempted_deliveries env (landed w i d) hfresh d outcome durationMs delay
  obtain ⟨hnew, hpending⟩ := h d hflight
  obtain ⟨keep, rfl, hkeep⟩ := pruneDeliveries_eq_some hpruned
  have hmem : ∀ r ∈ w.deliveries ++ [new], keep r = true →
      r ∈ ((attempted env (landed w i d) d outcome durationMs delay).deliveries.filter keep) := by
    intro r hr hk
    rw [hdeliveries]
    exact List.mem_filter.mpr ⟨hr, hk⟩
  rcases hkeep with hall | ⟨hnewest, hkeep⟩
  · exact ⟨⟨new, hmem new (List.mem_append_right _ List.mem_cons_self) (hall new), hid⟩,
      fun r hr _ => hmem r (List.mem_append_left _ hr) (hall r)⟩
  · rw [webhookRows, hdeliveries] at hnewest
    constructor
    · refine ⟨new, hmem new (List.mem_append_right _ List.mem_cons_self) ?_, hid⟩
      refine (hkeep new).mpr (.inr (mem_kept_of_newest hnewest ?_ ?_))
      · exact List.mem_filter.mpr ⟨List.mem_append_right _ List.mem_cons_self,
          decide_eq_true ⟨hwebhook, hworkspace⟩⟩
      · rw [hcreated]
        exact countP_logged hnew
    · intro r hr hset
      refine hmem r (List.mem_append_left _ hr) ((hkeep r).mpr ?_)
      by_cases hmatch : r.webhookId = d.webhookId ∧ r.workspaceId = d.workspaceId
      · refine .inr (mem_kept_of_newest hnewest ?_ ?_)
        · exact List.mem_filter.mpr ⟨List.mem_append_left _ hr, decide_eq_true hmatch⟩
        · exact countP_logged (hpending r (List.mem_filter.mpr ⟨hr, decide_eq_true hmatch⟩) hset)
      · exact .inl hmatch

/-! ### Rows of webhooks of the workspace -/

/-- What a step does to the webhooks that there are. -/
theorem webhooks_of_moved {e : Event} {w' : World} (hmoved : Moved env w e w') :
    w.nextWebhookId ≤ w'.nextWebhookId ∧ ∀ wh' ∈ w'.webhooks, wh'.id < w.nextWebhookId →
      ∃ wh ∈ w.webhooks, wh.id = wh'.id ∧ wh.workspaceId = wh'.workspaceId := by
  have hsame : w.nextWebhookId ≤ w.nextWebhookId ∧ ∀ wh' ∈ w.webhooks, wh'.id < w.nextWebhookId →
      ∃ wh ∈ w.webhooks, wh.id = wh'.id ∧ wh.workspaceId = wh'.workspaceId :=
    ⟨Nat.le_refl _, fun wh hwh _ => ⟨wh, hwh, rfl, rfl⟩⟩
  cases hmoved with
  | kept | waited | dropped | claimed | ended | continued | manual => exact hsame
  | fired eventType payload workspaceId =>
    obtain ⟨ds, heq, -⟩ := fireWebhooks_eq (w := w) eventType payload workspaceId
    rw [heq]
    exact hsame
  | finished i outcome durationMs delay kept d w' flight found pruned =>
    obtain ⟨keep, rfl, -⟩ := pruneDeliveries_eq_some pruned
    obtain ⟨hwebhooks, -⟩ := @attempted_eq env (landed w i d) d outcome durationMs delay
    obtain ⟨-, -, hnext⟩ := @attempted_frame env (landed w i d) d outcome durationMs delay
    refine ⟨hnext.ge, ?_⟩
    intro wh' hwh' _
    change wh' ∈ (attempted env (landed w i d) d outcome durationMs delay).webhooks at hwh'
    rw [hwebhooks] at hwh'
    obtain ⟨wh, hwh, rfl⟩ := List.mem_map.mp hwh'
    exact ⟨wh, hwh, (afterAttempt_id d outcome wh).1.symm, (afterAttempt_id d outcome wh).2.symm⟩
  | posted body workspaceId =>
    refine ⟨Nat.le_succ _, ?_⟩
    intro wh hwh hlt
    rcases List.mem_append.mp hwh with hold | hnew
    · exact ⟨wh, hold, rfl, rfl⟩
    · rw [List.mem_singleton.mp hnew] at hlt
      exact absurd hlt (Nat.lt_irrefl _)
  | put body workspaceId found =>
    refine ⟨Nat.le_refl _, ?_⟩
    intro wh' hwh' _
    obtain ⟨wh, hwh, rfl⟩ := List.mem_map.mp hwh'
    exact ⟨wh, hwh, (apply_id body workspaceId wh).1.symm, (apply_id body workspaceId wh).2.symm⟩
  | removed id workspaceId =>
    rw [removeWebhook]
    dsimp only
    split
    · exact ⟨Nat.le_refl _, fun wh hwh _ => ⟨wh, List.mem_of_mem_filter hwh, rfl, rfl⟩⟩
    · exact hsame

/-- A row after a step was there before it, or logs a delivery that was in flight. -/
theorem deliveries_of_moved (hfresh : ∀ r ∈ w.deliveries, r.id < w.nextDeliveryId) {e : Event}
    {w' : World} (hmoved : Moved env w e w') : ∀ r' ∈ w'.deliveries,
      (∃ r ∈ w.deliveries, r.webhookId = r'.webhookId ∧ r.workspaceId = r'.workspaceId) ∨
        ∃ d ∈ w.inFlight, d.webhookId = r'.webhookId ∧ d.workspaceId = r'.workspaceId := by
  have hsame : ∀ r' ∈ w.deliveries,
      (∃ r ∈ w.deliveries, r.webhookId = r'.webhookId ∧ r.workspaceId = r'.workspaceId) ∨
        ∃ d ∈ w.inFlight, d.webhookId = r'.webhookId ∧ d.workspaceId = r'.workspaceId :=
    fun r hr => .inl ⟨r, hr, rfl, rfl⟩
  cases hmoved with
  | kept | waited | dropped | ended | continued | manual | posted | put => exact hsame
  | fired eventType payload workspaceId =>
    obtain ⟨ds, heq, -⟩ := fireWebhooks_eq (w := w) eventType payload workspaceId
    rw [heq]
    exact hsame
  | finished i outcome durationMs delay kept d w' flight found pruned =>
    obtain ⟨keep, rfl, -⟩ := pruneDeliveries_eq_some pruned
    obtain ⟨new, -, hwebhook, hworkspace, -, hdeliveries⟩ :=
      @attempted_deliveries env (landed w i d) hfresh d outcome durationMs delay
    intro r' hr'
    have hmem := List.mem_of_mem_filter hr'
    rw [hdeliveries] at hmem
    rcases List.mem_append.mp hmem with hold | hnew
    · exact hsame r' hold
    · rw [List.mem_singleton.mp hnew]
      exact .inr ⟨d, List.mem_of_getElem? flight, hwebhook.symm, hworkspace.symm⟩
  | claimed picked rows row rest ids members picks joined =>
    intro r' hr'
    obtain ⟨r, hr, rfl⟩ := List.mem_map.mp hr'
    refine .inl ⟨r, hr, ?_⟩
    split <;> exact ⟨rfl, rfl⟩
  | removed id workspaceId =>
    rw [removeWebhook]
    dsimp only
    split
    · exact fun r hr => hsame r (List.mem_of_mem_filter (List.mem_of_mem_filter hr))
    · exact fun r hr => hsame r (List.mem_of_mem_filter hr)

/-- The rows that there are have ids of their own and belong to the workspace of their webhook. -/
structure Filed (env : Environment) (w : World) : Prop where
  chains : Chains env w
  addresses : Addresses w
  rows : ∀ r ∈ w.deliveries, Addressed w r.webhookId r.workspaceId

theorem Filed.empty (now : Nat) : Filed env (World.empty now) :=
  ⟨.empty now, .empty now, fun _ h => absurd h List.not_mem_nil⟩

theorem Filed.step (h : Filed env w) {e : Event} {w' : World} (hmoved : Moved env w e w') :
    Filed env w' := by
  refine ⟨h.chains.step hmoved, h.addresses.step hmoved, ?_⟩
  obtain ⟨hnext, hwebhooks⟩ := webhooks_of_moved hmoved
  intro r' hr'
  rcases deliveries_of_moved h.chains.rows.ids.fresh hmoved r' hr' with
    ⟨r, hr, hid, hworkspace⟩ | ⟨d, hd, hid, hworkspace⟩
  · rw [← hid, ← hworkspace]
    exact (h.rows r hr).mono hnext hwebhooks
  · rw [← hid, ← hworkspace]
    exact (h.addresses.flights d hd).mono hnext hwebhooks

/-! ### Pending rows stay -/

/-- The event lets a batch claim the row, or deletes its webhook. -/
def Takes (r : DeliveryRow) (e : Event) : Prop :=
  (∃ picked, e = .processRetries picked ∧ r.id ∈ picked) ∨
    e = .removeWebhook r.webhookId r.workspaceId

/-- The step lemma. -/
theorem kept_of_step (h : Filed env w) {e : Event} {w' : World} (hunhurried : Unhurried w e)
    (hmoved : Moved env w e w') {r : DeliveryRow} (hr : r ∈ w.deliveries)
    (hset : r.nextRetryAt ≠ none) (htakes : ¬ Takes r e) : r ∈ w'.deliveries := by
  cases hmoved with
  | kept | waited | dropped | ended | continued | manual | posted | put => exact hr
  | fired eventType payload workspaceId =>
    obtain ⟨ds, heq, -⟩ := fireWebhooks_eq (w := w) eventType payload workspaceId
    rw [heq]
    exact hr
  | finished i outcome durationMs delay kept d w' flight found pruned =>
    exact (kept_of_finish h.chains.rows.ids.fresh flight pruned hunhurried).2 r hr hset
  | claimed picked rows row rest ids members picks joined =>
    have hunpicked : r.id ∉ picked := fun hmem => htakes (.inl ⟨picked, rfl, hmem⟩)
    refine List.mem_map.mpr ⟨r, hr, ?_⟩
    rw [if_neg hunpicked]
  | removed id workspaceId =>
    have hother : ¬ (r.webhookId = id ∧ r.workspaceId = workspaceId) := by
      rintro ⟨rfl, rfl⟩
      exact htakes (.inr rfl)
    have hmem : r ∈ w.deliveries.filter fun r =>
        ¬ (r.webhookId = id ∧ r.workspaceId = workspaceId) :=
      List.mem_filter.mpr ⟨hr, decide_eq_true hother⟩
    rw [removeWebhook]
    dsimp only
    split
    · rename_i hany
      obtain ⟨wh, hwh, hmatch⟩ := List.any_eq_true.mp hany
      obtain ⟨hid, hworkspace⟩ := of_decide_eq_true hmatch
      refine List.mem_filter.mpr ⟨hmem, decide_eq_true ?_⟩
      rintro rfl
      exact hother ⟨rfl, ((h.rows r hr).2 wh hwh hid).symm.trans hworkspace⟩
    · exact hmem

/-- In every history in which the ends of deliveries are unhurried, a row that waits for a retry
stays as it is until a batch claims it or its webhook is deleted, and every end of a delivery
whose webhook is there leaves the row that it logs. -/
theorem pending_retry_kept (env : Environment) (now : Nat) (front back : List Event)
    {w w' : World} (hmeets : (machine env).Meets Unhurried (World.empty now) (front ++ back))
    (hfront : (machine env).run (World.empty now) front = some w)
    (hback : (machine env).run w back = some w') :
    (∀ r ∈ w.deliveries, r.nextRetryAt ≠ none → (∀ e ∈ back, ¬ Takes r e) → r ∈ w'.deliveries) ∧
    ∀ i outcome durationMs delay kept, back = [.finish i outcome durationMs delay kept] →
      ∀ d, w.inFlight[i]? = some d → (∃ wh ∈ w.webhooks, wh.id = d.webhookId) →
        ∃ r ∈ w'.deliveries, r.id = w.nextDeliveryId := by
  have hstep : ∀ w e w', Filed env w → Unhurried w e → (machine env).step w e = some w' →
      Filed env w' :=
    fun w e w' h _ hstep => h.step (moved_of_step hstep)
  have hfiled : Filed env w :=
    Machine.run_invariant hstep (Filed.empty now) hmeets.append_left hfront
  have hmeetsBack := hmeets.append_right hfront
  constructor
  · clear hmeets hfront
    intro r hr hset htakes
    induction back generalizing w with
    | nil =>
      obtain rfl := Option.some.inj hback
      exact hr
    | cons e back ih =>
      obtain ⟨w₁, h₁, hrest⟩ := (Machine.run_cons_eq_some _).mp hback
      have hmoved := moved_of_step h₁
      refine ih hrest (hfiled.step hmoved) (hmeetsBack.2 w₁ h₁) ?_ ?_
      · exact kept_of_step hfiled hmeetsBack.1 hmoved hr hset (htakes e List.mem_cons_self)
      · exact fun e' he' => htakes e' (List.mem_cons_of_mem e he')
  · rintro i outcome durationMs delay kept rfl d hflight ⟨wh, hwh, hid⟩
    obtain ⟨w₁, h₁, hend⟩ := (Machine.run_cons_eq_some _).mp hback
    obtain rfl := Option.some.inj hend
    obtain ⟨d', hflight', hgone | ⟨-, hpruned⟩⟩ := finish_cases h₁
    · rw [hflight] at hflight'
      obtain rfl := Option.some.inj hflight'
      exact absurd hid (hgone.1 wh hwh)
    · exact (kept_of_finish hfiled.chains.rows.ids.fresh hflight' hpruned hmeetsBack.1).1

/-! ### A busy webhook -/

/-- The answer of a receiver that is up. -/
def delivered : FetchOutcome := .responded 200 none

/-- A delivery fails, and its row waits for a retry. -/
def oneFailure : List Event :=
  [.postWebhook hook 1, .fire "agent.error" .null 1, .finish 0 unavailable 5 30 [], .wait 1]

/-- An event is delivered. -/
def round (kept : List Nat) : List Event :=
  [.fire "agent.error" .null 1, .finish 0 delivered 5 30 kept]

theorem pending_retry_kept_sample :
    ∃ w w', (machine twoAttempts).run (World.empty 0) oneFailure = some w ∧
      (machine twoAttempts).run w (round []) = some w' ∧
        ∃ r ∈ w.deliveries, r.nextRetryAt = some 30 ∧ r ∈ w'.deliveries := by
  have hreached : ((machine twoAttempts).run (World.empty 0) oneFailure).any (fun w =>
      (∃ r ∈ w.deliveries, r.nextRetryAt = some 30) ∧
        ((machine twoAttempts).run w (round [])).isSome) = true := by
    decide +kernel
  obtain ⟨w, hfront, hfacts⟩ := (Option.any_eq_true _ _).mp hreached
  obtain ⟨⟨r, hr, hset⟩, hsome⟩ := of_decide_eq_true hfacts
  obtain ⟨w', hback⟩ := Option.isSome_iff_exists.mp hsome
  refine ⟨w, w', hfront, hback, r, hr, hset, ?_⟩
  have hkept := pending_retry_kept twoAttempts 0 oneFailure (round []) (by decide +kernel) hfront
    hback
  refine hkept.1 r hr ?_ ?_
  · rw [hset]
    exact Option.some_ne_none 30
  · rintro e he (⟨picked, rfl, -⟩ | rfl)
    · simp [round] at he
    · simp [round] at he

/-- The only webhook has logged `n` deliveries, the first of them a second before the others. -/
structure Busy (n : Nat) (w : World) : Prop where
  webhooks : w.webhooks.map (fun wh => (wh.id, wh.workspaceId, wh.enabled, wh.events)) =
    [(1, 1, true, ["*"])]
  idle : w.inFlight = []
  next : w.nextDeliveryId = n + 1
  now : w.now = 1
  ids : w.deliveries.map (·.id) = List.range' 1 n
  rows : ∀ r ∈ w.deliveries, r.webhookId = 1 ∧ r.workspaceId = 1 ∧ (r.id = 1 → r.createdAt = 0)

theorem Busy.webhook {n : Nat} (h : Busy n w) : ∃ wh, w.webhooks = [wh] ∧ wh.id = 1 ∧
    wh.workspaceId = 1 ∧ wh.enabled = true ∧ wh.events = ["*"] := by
  obtain ⟨wh, hwebhooks, hwh⟩ := List.map_eq_singleton_iff.mp h.webhooks
  exact ⟨wh, hwebhooks, by simpa only [Prod.mk.injEq] using hwh⟩

/-- The event begins one delivery. -/
theorem Busy.fire {n : Nat} (h : Busy n w) : ∃ d : Delivery, d.webhookId = 1 ∧ d.workspaceId = 1 ∧
    d.attempt = 0 ∧ fireWebhooks w "agent.error" .null 1 =
      World.log { w with inFlight := [d], nextSeq := w.nextSeq + 1 } (.began d) := by
  obtain ⟨wh, hwebhooks, hid, hworkspace, henabled, hevents⟩ := h.webhook
  obtain ⟨d, -, hdid, hdworkspace, hattempt, -, -, hbegin⟩ := beginDelivery_eq (w := w) wh.id
    wh.workspaceId wh.url wh.secret "agent.error" .null ⟨0, none, true⟩
  refine ⟨d, hdid.trans hid, hdworkspace.trans hworkspace, hattempt, ?_⟩
  have hlisten : (w.webhooks.filter fun wh => wh.enabled ∧ wh.workspaceId = 1 ∧
      ("*" ∈ wh.events ∨ "agent.error" ∈ wh.events)) = [wh] := by
    simp only [hwebhooks, henabled, hworkspace, hevents, List.mem_singleton, true_or, and_self,
      decide_true, List.filter_cons_of_pos, List.filter_nil]
  rw [fireWebhooks, hlisten]
  rw [h.idle] at hbegin
  exact hbegin

theorem Busy.fresh {n : Nat} (h : Busy n w) : ∀ r ∈ w.deliveries, r.id < w.nextDeliveryId := by
  intro r hr
  have hmem : r.id ∈ w.deliveries.map (·.id) := List.mem_map_of_mem hr
  rw [h.ids, List.mem_range'_1] at hmem
  rw [h.next]
  omega

/-- A delivery to the webhook is logged. -/
theorem Busy.attempted {n : Nat} (h : Busy n w) (hn : 0 < n) {d : Delivery} (hid : d.webhookId = 1)
    (hworkspace : d.workspaceId = 1) : Busy (n + 1) (attempted env w d delivered 5 30) := by
  obtain ⟨hwebhooks, -⟩ := @attempted_eq env w d delivered 5 30
  obtain ⟨hflight, -, -⟩ := @attempted_frame env w d delivered 5 30
  obtain ⟨hnext, hnow⟩ := @attempted_counters env w d delivered 5 30
  obtain ⟨new, hnewId, hnewWebhook, hnewWorkspace, -, hdeliveries⟩ :=
    @attempted_deliveries env w h.fresh d delivered 5 30
  constructor
  · have htrips : ¬ Trips env w d delivered := fun htrips => Bool.noConfusion htrips.2.1
    have hsame : ∀ wh, ((afterAttempt env w d delivered wh).id,
        (afterAttempt env w d delivered wh).workspaceId,
        (afterAttempt env w d delivered wh).enabled, (afterAttempt env w d delivered wh).events) =
          (wh.id, wh.workspaceId, wh.enabled, wh.events) := by
      intro wh
      rw [afterAttempt]
      split
      · simp only [firedWith, htrips, not_false_eq_true, decide_true, Bool.and_true]
      · rfl
    rw [hwebhooks, List.map_map, ← h.webhooks]
    exact List.map_congr_left fun wh _ => hsame wh
  · rw [hflight, h.idle]
  · rw [hnext, h.next]
  · rw [hnow, h.now]
  · rw [hdeliveries, List.map_append, h.ids, List.map_singleton, hnewId, h.next,
      List.range'_1_concat, Nat.add_comm 1 n]
  · intro r hr
    rw [hdeliveries] at hr
    rcases List.mem_append.mp hr with hold | hnew
    · exact h.rows r hold
    · rw [List.mem_singleton.mp hnew, hnewWebhook, hnewWorkspace, hnewId, h.next]
      exact ⟨hid, hworkspace, fun hfirst => by omega⟩

/-- A round of an event logs a row, and then prunes. -/
theorem Busy.round (env : Environment) {n : Nat} (h : Busy n w) (hn : 0 < n) (kept : List Nat) :
    ∃ w₁, Busy (n + 1) w₁ ∧
      (machine env).run w (round kept) = pruneDeliveries w₁ 1 1 kept := by
  obtain ⟨d, hdid, hdworkspace, hattempt, hfire⟩ := h.fire
  obtain ⟨wh, hwebhooks, hid, hworkspace, henabled, hevents⟩ := h.webhook
  have hrun : ∀ w₀, fireWebhooks w "agent.error" .null 1 = w₀ → (machine env).run w
      (PendingRetries.round kept) = step env w₀ (.finish 0 delivered 5 30 kept) := by
    rintro w₀ rfl
    exact Option.bind_fun_some _
  rw [hrun _ hfire, finish_of_found (d := d) delivered kept rfl, hdid, hdworkspace]
  · refine ⟨_, ?_, rfl⟩
    have hlanded : Busy n (landed
        (World.log { w with inFlight := [d], nextSeq := w.nextSeq + 1 } (.began d)) 0 d) :=
      ⟨h.webhooks, rfl, h.next, h.now, h.ids, h.rows⟩
    exact hlanded.attempted hn hdid hdworkspace
  · rw [hattempt]
    decide
  · refine ⟨wh, ?_, hid.trans hdid.symm⟩
    change wh ∈ w.webhooks
    rw [hwebhooks]
    exact List.mem_singleton_self wh

theorem Busy.webhookRows {n : Nat} (h : Busy n w) : webhookRows w 1 1 = w.deliveries :=
  List.filter_eq_self.mpr fun r hr => decide_eq_true ⟨(h.rows r hr).1, (h.rows r hr).2.1⟩

theorem Busy.length {n : Nat} (h : Busy n w) : w.deliveries.length = n := by
  rw [← List.length_map (·.id), h.ids, List.length_range']

/-- Up to 200 rows, rounds follow each other. -/
theorem Busy.rounds (env : Environment) {n : Nat} (h : Busy n w) (hn : 0 < n) (m : Nat) (hm : n + m ≤ 200) :
    ∃ w', (machine env).run w (List.replicate m (PendingRetries.round [])).flatten = some w' ∧
      Busy (n + m) w' := by
  induction m generalizing w n with
  | zero => exact ⟨w, rfl, h⟩
  | succ m ih =>
    obtain ⟨w₁, h₁, hrun⟩ := h.round env hn []
    have hkept : pruneDeliveries w₁ 1 1 [] = some w₁ := by
      rw [pruneDeliveries, h₁.webhookRows, h₁.length]
      exact if_pos (by omega)
    obtain ⟨w', hrest, hw'⟩ := ih h₁ (Nat.succ_pos n) (by omega)
    refine ⟨w', ?_, ?_⟩
    · rw [List.replicate_succ, List.flatten_cons, Machine.run_append, hrun, hkept, Option.bind_some]
      exact hrest
    · rw [← Nat.add_assoc, Nat.add_right_comm]
      exact hw'

/-- With a row more than it keeps, the pruning drops the first one. -/
theorem Busy.pruned (h : Busy 201 w) :
    ∃ w', pruneDeliveries w 1 1 (List.range' 2 200) = some w' ∧ ∀ r ∈ w'.deliveries, r.id ≠ 1 := by
  have hids : ∀ id, id ∈ w.deliveries.map (·.id) ↔ 1 ≤ id ∧ id < 202 := by
    intro id
    rw [h.ids, List.mem_range'_1]
  have hnewest : Newest w.deliveries (List.range' 2 200) := by
    refine ⟨List.nodup_range', List.length_range', ?_, ?_⟩
    · intro id hid
      rw [List.mem_range'_1] at hid
      obtain ⟨r, hr, rfl⟩ := List.mem_map.mp ((hids id).mpr (by omega))
      exact ⟨r, hr, rfl⟩
    · intro r hr hout k _ _
      have hrange := (hids r.id).mp (List.mem_map_of_mem hr)
      rw [List.mem_range'_1] at hout
      rw [(h.rows r hr).2.2 (by omega)]
      exact Nat.zero_le _
  rw [pruneDeliveries, h.webhookRows, h.length, if_neg (by omega), if_pos hnewest]
  refine ⟨_, rfl, ?_⟩
  intro r hr hfirst
  obtain ⟨hmem, hkeep⟩ := List.mem_filter.mp hr
  rcases of_decide_eq_true hkeep with hother | hkept
  · exact hother ⟨(h.rows r hmem).1, (h.rows r hmem).2.1⟩
  · rw [hfirst, List.mem_range'_1] at hkept
    omega

/-- Two hundred deliveries within the second that follows the failure. -/
def busySecond : List Event :=
  (List.replicate 199 (round [])).flatten ++ round (List.range' 2 200)

/-- The row that waits for its retry is gone before the retry is due. -/
theorem pending_retry_lost :
    ∃ w w', (machine twoAttempts).run (World.empty 0) oneFailure = some w ∧
      (machine twoAttempts).run w busySecond = some w' ∧
        ∃ r ∈ w.deliveries, r.nextRetryAt ≠ none ∧ (∀ e ∈ busySecond, ¬ Takes r e) ∧
          r ∉ w'.deliveries := by
  have hreached : ((machine twoAttempts).run (World.empty 0) oneFailure).any (fun w =>
      w.webhooks.map (fun wh => (wh.id, wh.workspaceId, wh.enabled, wh.events)) =
          [(1, 1, true, ["*"])] ∧
        w.inFlight.isEmpty ∧ w.nextDeliveryId = 2 ∧ w.now = 1 ∧ w.deliveries.map (·.id) = [1] ∧
          (∀ r ∈ w.deliveries, r.webhookId = 1 ∧ r.workspaceId = 1 ∧
            (r.id = 1 → r.createdAt = 0)) ∧
          ∃ r ∈ w.deliveries, r.id = 1 ∧ r.nextRetryAt = some 30) = true := by
    decide +kernel
  obtain ⟨w, hfailure, hfacts⟩ := (Option.any_eq_true _ _).mp hreached
  obtain ⟨hwebhooks, hidle, hnext, hnow, hids, hrows, r, hr, hid, hset⟩ := of_decide_eq_true hfacts
  have hbusy : Busy 1 w := ⟨hwebhooks, List.isEmpty_iff.mp hidle, hnext, hnow, hids, hrows⟩
  obtain ⟨w₁, hrounds, h₁⟩ := hbusy.rounds twoAttempts Nat.one_pos 199 (Nat.le_refl _)
  obtain ⟨w₂, h₂, hlast⟩ := h₁.round twoAttempts (Nat.succ_pos _) (List.range' 2 200)
  obtain ⟨w', hpruned, hgone⟩ := h₂.pruned
  refine ⟨w, w', hfailure, ?_, r, hr, ?_, ?_, fun hr' => hgone r hr' hid⟩
  · rw [busySecond, Machine.run_append, hrounds, Option.bind_some, hlast, hpruned]
  · rw [hset]
    exact Option.some_ne_none 30
  · have hround : ∀ kept, ∀ e ∈ round kept, ¬ Takes r e := by
      rintro kept e he (⟨picked, rfl, -⟩ | rfl)
      · simp [round] at he
      · simp [round] at he
    intro e he
    rcases List.mem_append.mp he with he | he
    · obtain ⟨l, hl, he⟩ := List.mem_flatten.mp he
      rw [List.eq_of_mem_replicate hl] at he
      exact hround [] e he
    · exact hround _ e he

end MissionControl.Webhooks.PendingRetries
