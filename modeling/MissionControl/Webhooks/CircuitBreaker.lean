import MissionControl.Webhooks.DeliverySteps

/-!
The circuit breaker. The counter of a webhook is a function of its recorded attempts, and the
breaker trips on a run of failures. A retry batch does not look at the circuit between two of
its rows, so that an open circuit stops automatic traffic only if no batch holds rows of the
webhook when the breaker trips.
-/

set_option autoImplicit false
set_option relaxedAutoImplicit false

namespace MissionControl.Webhooks.CircuitBreaker

open MissionControl.Foundations.Lists
open MissionControl.Foundations.Schema (Json)
open MissionControl.Foundations.Transition (Machine)
open Deliveries DeliverySteps

variable {env : Environment} {w : World}

/-! ### What a history says of a webhook -/

/-- The webhook that an entry is about. -/
def aboutWebhook : Entry → Nat
  | .began d => d.webhookId
  | .recorded _ d _ => d.webhookId
  | .tripped id => id
  | .enabled id => id
  | .reset id => id

/-- A successful automatic attempt, or a reset by an admin. -/
def Clears (id : Nat) : Entry → Bool
  | .recorded _ d success => d.webhookId = id ∧ d.allowRetry ∧ success
  | .reset id' => id' = id
  | _ => false

/-- A failed automatic attempt. -/
def Fails (id : Nat) : Entry → Bool
  | .recorded _ d success => d.webhookId = id ∧ d.allowRetry ∧ ¬ success
  | _ => false

/-- The failed automatic attempts since the last success or reset. -/
def failures (id : Nat) (history : List Entry) : Nat :=
  (history.reverse.takeWhile fun e => ¬ Clears id e).countP (Fails id)

/-- What an entry says of an automatic attempt. -/
def automaticOutcome (id : Nat) : Entry → Option Bool
  | .recorded _ d success => if d.webhookId = id ∧ d.allowRetry then some success else none
  | _ => none

/-- The outcomes of the automatic attempts, in the order in which they were recorded. -/
def automaticOutcomes (id : Nat) (history : List Entry) : List Bool :=
  history.filterMap (automaticOutcome id)

theorem failures_snoc (id : Nat) (history : List Entry) (e : Entry) :
    failures id (history ++ [e]) = if Clears id e then 0
      else if Fails id e then failures id history + 1 else failures id history := by
  rw [failures, List.reverse_append, List.reverse_singleton, List.singleton_append,
    List.takeWhile_cons]
  cases Clears id e with
  | true => simp only [not_true_eq_false, decide_false, Bool.false_eq_true, if_false, List.countP_nil, if_true]
  | false =>
    simp only [Bool.false_eq_true, not_false_eq_true, decide_true, if_true, if_false, List.countP_cons]
    cases Fails id e with
    | true => rfl
    | false => rfl

/-- An entry that is no automatic attempt and no reset. -/
def Silent (id : Nat) (e : Entry) : Prop := Clears id e = false ∧ Fails id e = false

theorem failures_append_silent {id : Nat} {entries : List Entry} (history : List Entry)
    (h : ∀ e ∈ entries, Silent id e) : failures id (history ++ entries) = failures id history := by
  induction entries using List.reverseRecOn with
  | nil => rw [List.append_nil]
  | append_singleton entries e ih =>
    have he := h e (List.mem_append_right _ (List.mem_singleton_self e))
    rw [← List.append_assoc, failures_snoc, he.1, he.2]
    exact ih fun e' he' => h e' (List.mem_append_left _ he')

/-- The failures that are counted are the last outcomes. -/
theorem trailing_failures (id : Nat) (history : List Entry) :
    ∃ earlier, automaticOutcomes id history =
      earlier ++ List.replicate (failures id history) false := by
  induction history using List.reverseRecOn with
  | nil => exact ⟨[], rfl⟩
  | append_singleton history e ih =>
    obtain ⟨earlier, hearlier⟩ := ih
    have hsnoc : automaticOutcomes id (history ++ [e]) =
        automaticOutcomes id history ++ (automaticOutcome id e).toList := by
      rw [automaticOutcomes, List.filterMap_append, List.filterMap_cons]
      cases automaticOutcome id e <;> rfl
    rw [failures_snoc, hsnoc, hearlier]
    cases hclears : Clears id e with
    | true =>
      rw [if_pos rfl]
      exact ⟨_, (List.append_nil _).symm⟩
    | false =>
      rw [if_neg Bool.false_ne_true]
      cases e with
      | recorded rowId d success =>
        by_cases hauto : d.webhookId = id ∧ d.allowRetry = true
        · cases success with
          | true => simp [Clears, hauto] at hclears
          | false =>
            refine ⟨earlier, ?_⟩
            simp only [automaticOutcome, Fails, hauto, and_self, if_true, Bool.false_eq_true,
              not_false_eq_true, decide_true, Option.toList_some, List.append_assoc,
              List.replicate_succ']
        · refine ⟨earlier, ?_⟩
          have hfails : Fails id (.recorded rowId d success) = false :=
            decide_eq_false fun h => hauto ⟨h.1, h.2.1⟩
          rw [hfails, if_neg Bool.false_ne_true, automaticOutcome, if_neg hauto]
          exact List.append_nil _
      | _ => exact ⟨earlier, List.append_nil _⟩

/-! ### Deliveries go to the webhook of their workspace -/

/-- If the webhook is there, it is one of the workspace. -/
def Addressed (w : World) (id workspaceId : Nat) : Prop :=
  id < w.nextWebhookId ∧ ∀ wh ∈ w.webhooks, wh.id = id → wh.workspaceId = workspaceId

structure Addresses (w : World) : Prop where
  webhooks : Keyed (·.id) w.webhooks w.nextWebhookId
  flights : ∀ d ∈ w.inFlight, Addressed w d.webhookId d.workspaceId
  remaining : ∀ b ∈ w.batches, ∀ p ∈ b.remaining, Addressed w p.webhookId p.workspaceId
  logged : ∀ e ∈ w.history, aboutWebhook e < w.nextWebhookId

theorem Addresses.empty (now : Nat) : Addresses (World.empty now) :=
  ⟨⟨List.nodup_nil, fun _ h => absurd h List.not_mem_nil⟩, fun _ h => absurd h List.not_mem_nil,
    fun _ h => absurd h List.not_mem_nil, fun _ h => absurd h List.not_mem_nil⟩

/-- A webhook that is there is addressed by its own workspace. -/
theorem Addresses.of_mem (h : Addresses w) {wh : Webhook} (hwh : wh ∈ w.webhooks) :
    Addressed w wh.id wh.workspaceId := by
  refine ⟨h.webhooks.fresh wh hwh, ?_⟩
  intro wh' hwh' hid
  rw [h.webhooks.eq_of_key hwh' hwh hid]

theorem Addressed.mono {w w' : World} (hnext : w.nextWebhookId ≤ w'.nextWebhookId)
    (hwebhooks : ∀ wh' ∈ w'.webhooks, wh'.id < w.nextWebhookId →
      ∃ wh ∈ w.webhooks, wh.id = wh'.id ∧ wh.workspaceId = wh'.workspaceId)
    {id workspaceId : Nat} (h : Addressed w id workspaceId) : Addressed w' id workspaceId := by
  refine ⟨Nat.lt_of_lt_of_le h.1 hnext, ?_⟩
  rintro wh' hwh' rfl
  obtain ⟨wh, hwh, hid, hworkspace⟩ := hwebhooks wh' hwh' h.1
  rw [← hworkspace]
  exact h.2 wh hwh hid

/-- What is new in a step is addressed. -/
theorem Addresses.grow {w w' : World} (h : Addresses w)
    (hkeyed : Keyed (·.id) w'.webhooks w'.nextWebhookId)
    (hnext : w.nextWebhookId ≤ w'.nextWebhookId)
    (hwebhooks : ∀ wh' ∈ w'.webhooks, wh'.id < w.nextWebhookId →
      ∃ wh ∈ w.webhooks, wh.id = wh'.id ∧ wh.workspaceId = wh'.workspaceId)
    (hflights : ∀ d ∈ w'.inFlight, d ∈ w.inFlight ∨ Addressed w d.webhookId d.workspaceId)
    (hremaining : ∀ b ∈ w'.batches, ∀ p ∈ b.remaining,
      (∃ b' ∈ w.batches, p ∈ b'.remaining) ∨ Addressed w p.webhookId p.workspaceId)
    (hlogged : ∀ e ∈ w'.history, e ∈ w.history ∨ aboutWebhook e < w.nextWebhookId) :
    Addresses w' := by
  refine ⟨hkeyed, ?_, ?_, ?_⟩
  · intro d hd
    rcases hflights d hd with hold | hnew
    · exact (h.flights d hold).mono hnext hwebhooks
    · exact hnew.mono hnext hwebhooks
  · intro b hb p hp
    rcases hremaining b hb p hp with ⟨b', hb', hp'⟩ | hnew
    · exact (h.remaining b' hb' p hp').mono hnext hwebhooks
    · exact hnew.mono hnext hwebhooks
  · intro e he
    rcases hlogged e he with hold | hnew
    · exact Nat.lt_of_lt_of_le (h.logged e hold) hnext
    · exact Nat.lt_of_lt_of_le hnew hnext

/-- A step that keeps the webhooks. -/
theorem Addresses.deliver {w w' : World} (h : Addresses w) (hwebhooks : w'.webhooks = w.webhooks)
    (hnext : w'.nextWebhookId = w.nextWebhookId)
    (hflights : ∀ d ∈ w'.inFlight, d ∈ w.inFlight ∨ Addressed w d.webhookId d.workspaceId)
    (hremaining : ∀ b ∈ w'.batches, ∀ p ∈ b.remaining,
      (∃ b' ∈ w.batches, p ∈ b'.remaining) ∨ Addressed w p.webhookId p.workspaceId)
    (hlogged : ∀ e ∈ w'.history, e ∈ w.history ∨ aboutWebhook e < w.nextWebhookId) :
    Addresses w' := by
  refine h.grow ?_ hnext.ge ?_ hflights hremaining hlogged
  · rw [hwebhooks, hnext]
    exact h.webhooks
  · intro wh hwh _
    exact ⟨wh, hwebhooks ▸ hwh, rfl, rfl⟩

/-- A step that updates webhooks, and begins nothing. -/
theorem Addresses.update {w w' : World} (h : Addresses w) {g : Webhook → Webhook}
    (hg : ∀ wh, (g wh).id = wh.id ∧ (g wh).workspaceId = wh.workspaceId)
    (hwebhooks : w'.webhooks = w.webhooks.map g) (hnext : w'.nextWebhookId = w.nextWebhookId)
    (hflights : ∀ d ∈ w'.inFlight, d ∈ w.inFlight)
    (hremaining : ∀ b ∈ w'.batches, ∀ p ∈ b.remaining, ∃ b' ∈ w.batches, p ∈ b'.remaining)
    (hlogged : ∀ e ∈ w'.history, e ∈ w.history ∨ aboutWebhook e < w.nextWebhookId) :
    Addresses w' := by
  refine h.grow ?_ hnext.ge ?_ (fun d hd => .inl (hflights d hd))
    (fun b hb p hp => .inl (hremaining b hb p hp)) hlogged
  · rw [hwebhooks, hnext]
    exact h.webhooks.map fun wh => (hg wh).1
  · intro wh' hwh' _
    rw [hwebhooks] at hwh'
    obtain ⟨wh, hwh, rfl⟩ := List.mem_map.mp hwh'
    exact ⟨wh, hwh, (hg wh).1.symm, (hg wh).2.symm⟩

theorem remaining_landed {i : Nat} {d : Delivery} :
    ∀ b ∈ (landed w i d).batches, ∀ p ∈ b.remaining, ∃ b' ∈ w.batches, p ∈ b'.remaining := by
  intro b hb p hp
  obtain ⟨b', hb', rfl⟩ := List.mem_map.mp hb
  refine ⟨b', hb', ?_⟩
  rw [Batch.wake] at hp
  split at hp <;> exact hp

theorem afterAttempt_id (d : Delivery) (outcome : FetchOutcome) (wh : Webhook) :
    (afterAttempt env w d outcome wh).id = wh.id ∧
      (afterAttempt env w d outcome wh).workspaceId = wh.workspaceId := by
  rw [afterAttempt]
  split <;> exact ⟨rfl, rfl⟩

theorem apply_id (body : WebhookUpdate) (workspaceId : Nat) (wh : Webhook) :
    (if wh.id = body.id ∧ wh.workspaceId = workspaceId then body.apply wh else wh).id = wh.id ∧
      (if wh.id = body.id ∧ wh.workspaceId = workspaceId then body.apply wh else wh).workspaceId =
        wh.workspaceId := by
  split <;> exact ⟨rfl, rfl⟩

theorem entries_about (body : WebhookUpdate) : ∀ e ∈ body.entries, aboutWebhook e = body.id := by
  intro e he
  rw [WebhookUpdate.entries] at he
  rcases List.mem_append.mp he with he | he
  · split at he
    · rw [List.mem_singleton.mp he]
      rfl
    · cases he
  · split at he
    · rw [List.mem_singleton.mp he]
      rfl
    · cases he

/-- A call that is begun for a webhook that is addressed. -/
theorem Addresses.begin (h : Addresses w) {d : Delivery} {batches : List Batch}
    (hd : Addressed w d.webhookId d.workspaceId)
    (hremaining : ∀ b ∈ batches, ∀ p ∈ b.remaining,
      (∃ b' ∈ w.batches, p ∈ b'.remaining) ∨ Addressed w p.webhookId p.workspaceId) :
    Addresses { w with
      inFlight := w.inFlight ++ [d]
      nextSeq := w.nextSeq + 1
      history := w.history ++ [.began d]
      batches := batches } := by
  refine h.deliver rfl rfl ?_ hremaining ?_
  · intro d' hd'
    rcases List.mem_append.mp hd' with hold | hnew
    · exact .inl hold
    · exact .inr (List.mem_singleton.mp hnew ▸ hd)
  · intro e he
    rcases List.mem_append.mp he with hold | hnew
    · exact .inl hold
    · rw [List.mem_singleton.mp hnew]
      exact .inr hd.1

/-- The step lemma. -/
theorem Addresses.step (h : Addresses w) {e : Event} {w' : World} (hmoved : Moved env w e w') :
    Addresses w' := by
  cases hmoved with
  | kept => exact h
  | waited =>
    exact h.deliver rfl rfl (fun d hd => .inl hd) (fun b hb p hp => .inl ⟨b, hb, hp⟩)
      fun e he => .inl he
  | fired eventType payload workspaceId =>
    obtain ⟨ds, heq, hds⟩ := fireWebhooks_eq (w := w) eventType payload workspaceId
    have haddressed : ∀ d ∈ ds, Addressed w d.webhookId d.workspaceId := by
      intro d hd
      obtain ⟨wh, hwh, -, hid, hworkspace⟩ := hds d hd
      rw [hid, hworkspace]
      exact h.of_mem hwh
    rw [heq]
    refine h.deliver rfl rfl ?_ (fun b hb p hp => .inl ⟨b, hb, hp⟩) ?_
    · intro d hd
      exact (List.mem_append.mp hd).imp_right (haddressed d)
    · intro e he
      rcases List.mem_append.mp he with hold | hnew
      · exact .inl hold
      · obtain ⟨d, hd, rfl⟩ := List.mem_map.mp hnew
        exact .inr (haddressed d hd).1
  | dropped i outcome durationMs delay kept d flight gone =>
    refine h.deliver rfl rfl ?_ (fun b hb p hp => .inl (remaining_landed b hb p hp))
      fun e he => .inl he
    exact fun d' hd' => .inl (List.mem_of_mem_eraseIdx hd')
  | finished i outcome durationMs delay kept d w' flight found pruned =>
    obtain ⟨keep, rfl, -⟩ := pruneDeliveries_eq_some pruned
    obtain ⟨hwebhooks, hhistory⟩ := @attempted_eq env (landed w i d) d outcome
      durationMs delay
    obtain ⟨hflight, hbatches, hnext⟩ := @attempted_frame env (landed w i d) d outcome
      durationMs delay
    refine h.update (afterAttempt_id d outcome) hwebhooks hnext ?_ ?_ ?_
    · intro d' hd'
      rw [hflight] at hd'
      exact List.mem_of_mem_eraseIdx hd'
    · intro b hb
      rw [hbatches] at hb
      exact remaining_landed b hb
    · intro e he
      rw [hhistory] at he
      have hd := (h.flights d (List.mem_of_getElem? flight)).1
      rcases List.mem_append.mp he with hold | hnew
      · exact .inl hold
      · rcases List.mem_cons.mp hnew with rfl | hnew
        · exact .inr hd
        · split at hnew
          · rw [List.mem_singleton.mp hnew]
            exact .inr hd
          · cases hnew
  | claimed picked rows row rest ids members picks joined =>
    have haddressed : ∀ p ∈ row :: rest, Addressed w p.webhookId p.workspaceId := by
      intro p hp
      rw [← joined] at hp
      obtain ⟨r, hr, -, -, hid, hworkspace⟩ := mem_joined picks.2.1 hp
      obtain ⟨-, wh, hwh, hwhid, hwhworkspace, -⟩ := picks.2.1 r hr
      rw [hid, hworkspace, ← hwhid, ← hwhworkspace]
      exact h.of_mem hwh
    obtain ⟨d, -, hid, hworkspace, -, -, -, heq⟩ :=
      retryRow_eq (w := clearRetries w picked) row
    have hd : Addressed w d.webhookId d.workspaceId := by
      rw [hid, hworkspace]
      exact haddressed row List.mem_cons_self
    have hcleared : Addresses (clearRetries w picked) :=
      ⟨h.webhooks, h.flights, h.remaining, h.logged⟩
    rw [heq]
    refine hcleared.begin hd ?_
    intro b hb p hp
    rcases List.mem_append.mp hb with hb | hb
    · exact .inl ⟨b, hb, hp⟩
    · rw [List.mem_singleton.mp hb] at hp
      exact .inr (haddressed p (List.mem_cons_of_mem row hp))
  | ended i batch =>
    refine h.deliver rfl rfl (fun d hd => .inl hd) ?_ fun e he => .inl he
    exact fun b hb p hp => .inl ⟨b, List.mem_of_mem_eraseIdx hb, hp⟩
  | continued i row rest batch =>
    have hrows := h.remaining _ (List.mem_of_getElem? batch)
    obtain ⟨d, -, hid, hworkspace, -, -, -, heq⟩ := retryRow_eq (w := w) row
    rw [heq]
    refine h.begin ?_ ?_
    · rw [hid, hworkspace]
      exact hrows row List.mem_cons_self
    · intro b hb p hp
      rcases List.mem_or_eq_of_mem_set hb with hb | rfl
      · exact .inl ⟨b, hb, hp⟩
      · exact .inr (hrows p (List.mem_cons_of_mem row hp))
  | manual e wh eventType payload opts webhook once repeated =>
    obtain ⟨d, -, hid, hworkspace, -, -, -, heq⟩ :=
      beginDelivery_eq (w := w) wh.id wh.workspaceId wh.url wh.secret eventType payload opts
    rw [heq]
    refine h.begin ?_ fun b hb p hp => .inl ⟨b, hb, hp⟩
    rw [hid, hworkspace]
    exact h.of_mem webhook
  | posted body workspaceId =>
    refine h.grow (h.webhooks.snoc rfl) (Nat.le_succ _) ?_ (fun d hd => .inl hd)
      (fun b hb p hp => .inl ⟨b, hb, hp⟩) fun e he => .inl he
    intro wh hwh hlt
    rcases List.mem_append.mp hwh with hold | hnew
    · exact ⟨wh, hold, rfl, rfl⟩
    · rw [List.mem_singleton.mp hnew] at hlt
      exact absurd hlt (Nat.lt_irrefl _)
  | put body workspaceId found =>
    refine h.update (apply_id body workspaceId) rfl rfl (fun d hd => hd)
      (fun b hb p hp => ⟨b, hb, hp⟩) ?_
    intro e he
    rcases List.mem_append.mp he with hold | hnew
    · exact .inl hold
    · obtain ⟨wh, hwh, hid, -⟩ := found
      rw [entries_about body e hnew, ← hid]
      exact .inr (h.webhooks.fresh wh hwh)
  | removed id workspaceId =>
    rw [removeWebhook]
    dsimp only
    split
    · refine h.grow (h.webhooks.filter _) (Nat.le_refl _) ?_ (fun d hd => .inl hd)
        (fun b hb p hp => .inl ⟨b, hb, hp⟩) fun e he => .inl he
      exact fun wh hwh _ => ⟨wh, List.mem_of_mem_filter hwh, rfl, rfl⟩
    · exact h.deliver rfl rfl (fun d hd => .inl hd) (fun b hb p hp => .inl ⟨b, hb, hp⟩)
        fun e he => .inl he

/-! ### The counter -/

/-- The breaker trips only when the last outcomes, as many as there are retries, are failures. -/
def TripsLate (env : Environment) (front : List Entry) (e : Entry) : Prop :=
  ∀ id, e = .tripped id → ∃ (earlier : List Bool) (n : Nat), maxRetries env ≤ n ∧
    automaticOutcomes id front = earlier ++ List.replicate n false

structure Counted (env : Environment) (w : World) : Prop where
  failures : ∀ wh ∈ w.webhooks, wh.consecutiveFailures = failures wh.id w.history
  trips : Throughout (TripsLate env) w.history

theorem Counted.empty (now : Nat) : Counted env (World.empty now) :=
  ⟨fun _ h => absurd h List.not_mem_nil, throughout_nil⟩

theorem Throughout.append_untripped {history entries : List Entry}
    (h : Throughout (TripsLate env) history) (hentries : ∀ e ∈ entries, ∀ id, e ≠ .tripped id) :
    Throughout (TripsLate env) (history ++ entries) := by
  refine h.append ?_
  rintro front e back hsplit id rfl
  refine absurd rfl (hentries (.tripped id) ?_ id)
  rw [hsplit]
  exact List.mem_append_right _ List.mem_cons_self

/-- Entries that say nothing of attempts, and webhooks whose counters stay. -/
theorem Counted.quiet {w w' : World} (h : Counted env w) {entries : List Entry}
    (hhistory : w'.history = w.history ++ entries) (hentries : ∀ e ∈ entries, ∃ d, e = .began d)
    (hwebhooks : ∀ wh' ∈ w'.webhooks, ∃ wh ∈ w.webhooks,
      wh.id = wh'.id ∧ wh.consecutiveFailures = wh'.consecutiveFailures) : Counted env w' := by
  constructor
  · intro wh' hwh'
    obtain ⟨wh, hwh, hid, hcount⟩ := hwebhooks wh' hwh'
    rw [hhistory, failures_append_silent, ← hcount, ← hid]
    · exact h.failures wh hwh
    · intro e he
      obtain ⟨d, rfl⟩ := hentries e he
      exact ⟨rfl, rfl⟩
  · rw [hhistory]
    refine Throughout.append_untripped h.trips ?_
    rintro e he id rfl
    obtain ⟨d, hd⟩ := hentries _ he
    cases hd

theorem failures_recorded (id rowId : Nat) (d : Delivery) (success : Bool) (history : List Entry) :
    failures id (history ++ [.recorded rowId d success]) =
      if d.webhookId = id ∧ d.allowRetry = true then
        if success then 0 else failures id history + 1
      else failures id history := by
  rw [failures_snoc, Clears, Fails]
  by_cases hauto : d.webhookId = id ∧ d.allowRetry = true
  · cases success <;> simp [hauto]
  · have hclears : ¬ (d.webhookId = id ∧ d.allowRetry = true ∧ success = true) :=
      fun h => hauto ⟨h.1, h.2.1⟩
    have hfails : ¬ (d.webhookId = id ∧ d.allowRetry = true ∧ ¬ success = true) :=
      fun h => hauto ⟨h.1, h.2.1⟩
    rw [decide_eq_false hclears, decide_eq_false hfails, if_neg hauto]
    rfl

/-- The step of a recorded attempt. -/
theorem Counted.attempted (h : Counted env w) {d : Delivery}
    (haddressed : Addressed w d.webhookId d.workspaceId) (outcome : FetchOutcome)
    (durationMs delay : Nat) : Counted env (attempted env w d outcome durationMs delay) := by
  obtain ⟨hwebhooks, hhistory⟩ := @attempted_eq env w d outcome durationMs delay
  rw [List.append_cons] at hhistory
  have htail : ∀ e ∈ if Trips env w d outcome then [Entry.tripped d.webhookId] else [],
      e = .tripped d.webhookId := by
    intro e he
    split at he
    · exact List.mem_singleton.mp he
    · cases he
  constructor
  · intro wh' hwh'
    rw [hwebhooks] at hwh'
    obtain ⟨wh, hwh, rfl⟩ := List.mem_map.mp hwh'
    have hsilent : ∀ e ∈ if Trips env w d outcome then [Entry.tripped d.webhookId] else [],
        Silent (afterAttempt env w d outcome wh).id e := by
      intro e he
      rw [htail e he]
      exact ⟨rfl, rfl⟩
    rw [hhistory, failures_append_silent _ hsilent, (afterAttempt_id d outcome wh).1,
      failures_recorded, ← h.failures wh hwh, afterAttempt]
    by_cases hid : wh.id = d.webhookId
    · rw [if_pos ⟨hid, haddressed.2 wh hwh hid⟩]
      simp only [hid, true_and, counted]
    · rw [if_neg fun hmatch => hid hmatch.1, if_neg fun hmatch => hid hmatch.1.symm]
  · rw [hhistory]
    have hrecorded : Throughout (TripsLate env)
        (w.history ++ [.recorded w.nextDeliveryId d outcome.success]) := by
      refine Throughout.append_untripped h.trips ?_
      intro e he id heq
      rw [List.mem_singleton.mp he] at heq
      cases heq
    split
    · rename_i htrips
      refine throughout_snoc.mpr ⟨hrecorded, ?_⟩
      intro id heq
      obtain rfl := Entry.tripped.inj heq
      obtain ⟨hauto, hfailed, -, wh, hfound, hmax⟩ := htrips
      obtain ⟨hwh, hid, -⟩ := find?_pair_eq_some hfound
      obtain ⟨earlier, hearlier⟩ := trailing_failures d.webhookId
        (w.history ++ [.recorded w.nextDeliveryId d outcome.success])
      refine ⟨earlier, _, ?_, hearlier⟩
      rw [failures_recorded, if_pos ⟨rfl, hauto⟩, hfailed, if_neg Bool.false_ne_true, ← hid,
        ← h.failures wh hwh]
      exact hmax
    · rw [List.append_nil]
      exact hrecorded

/-- An update sets the counter to zero if it resets the circuit. -/
theorem failures_entries (id : Nat) (body : WebhookUpdate) (history : List Entry) :
    failures id (history ++ body.entries) =
      if body.id = id ∧ body.resetCircuit = true then 0 else failures id history := by
  have hsilent : ∀ e ∈ if body.resetCircuit ∨ body.enabled = some true then
      [Entry.enabled body.id] else [], Silent id e := by
    intro e he
    split at he
    · rw [List.mem_singleton.mp he]
      exact ⟨rfl, rfl⟩
    · cases he
  rw [WebhookUpdate.entries, ← List.append_assoc, failures_append_silent _ hsilent]
  cases hreset : body.resetCircuit with
  | true =>
    rw [if_pos rfl, failures_snoc]
    by_cases hid : body.id = id
    · simp only [Clears, hid, decide_true, if_true, and_self]
    · simp only [Clears, Fails, hid, decide_false, Bool.false_eq_true, if_false, false_and]
  | false => simp only [Bool.false_eq_true, if_false, List.append_nil, and_false]

/-- The step of an update by an admin. -/
theorem Counted.put (h : Counted env w) (haddresses : Addresses w) {body : WebhookUpdate}
    {workspaceId : Nat} (found : ∃ wh ∈ w.webhooks, wh.id = body.id ∧ wh.workspaceId = workspaceId) :
    Counted env { w.updateWebhook body.id workspaceId body.apply with
      history := w.history ++ body.entries } := by
  have huntripped : ∀ e ∈ body.entries, ∀ id, e ≠ .tripped id := by
    rintro e he id rfl
    simp [WebhookUpdate.entries] at he
  refine ⟨?_, Throughout.append_untripped h.trips huntripped⟩
  intro wh' hwh'
  obtain ⟨wh, hwh, rfl⟩ := List.mem_map.mp hwh'
  rw [failures_entries, (apply_id body workspaceId wh).1, ← h.failures wh hwh]
  obtain ⟨target, htarget, hid, hworkspace⟩ := found
  by_cases hmatch : wh.id = body.id
  · obtain rfl := haddresses.webhooks.eq_of_key hwh htarget (hmatch.trans hid.symm)
    rw [if_pos ⟨hid, hworkspace⟩]
    simp only [WebhookUpdate.apply, hid, true_and]
  · rw [if_neg fun h => hmatch h.1, if_neg fun h => hmatch h.1.symm]

/-- A new webhook has no past. -/
theorem Counted.posted (h : Counted env w) (haddresses : Addresses w) (body : NewWebhook)
    (workspaceId : Nat) : Counted env (postWebhook w body workspaceId) := by
  refine ⟨?_, h.trips⟩
  intro wh hwh
  rcases List.mem_append.mp hwh with hold | hnew
  · exact h.failures wh hold
  · rw [List.mem_singleton.mp hnew]
    have hsilent : ∀ e ∈ w.history, Silent w.nextWebhookId e := by
      intro e he
      have hlt := haddresses.logged e he
      cases e with
      | began | tripped | enabled => exact ⟨rfl, rfl⟩
      | recorded rowId d success =>
        have hne : d.webhookId ≠ w.nextWebhookId := Nat.ne_of_lt hlt
        exact ⟨decide_eq_false fun h => hne h.1, decide_eq_false fun h => hne h.1⟩
      | reset id =>
        have hne : id ≠ w.nextWebhookId := Nat.ne_of_lt hlt
        exact ⟨decide_eq_false hne, rfl⟩
    exact (failures_append_silent [] hsilent).symm

/-- The step lemma. -/
theorem Counted.step (h : Counted env w) (haddresses : Addresses w) {e : Event} {w' : World}
    (hmoved : Moved env w e w') : Counted env w' := by
  have hsame : ∀ {w₁ : World}, w₁.webhooks = w.webhooks → ∀ wh' ∈ w₁.webhooks, ∃ wh ∈ w.webhooks,
      wh.id = wh'.id ∧ wh.consecutiveFailures = wh'.consecutiveFailures := by
    intro w₁ heq wh' hwh'
    exact ⟨wh', heq ▸ hwh', rfl, rfl⟩
  have hbegan : ∀ d : Delivery, ∀ e ∈ [Entry.began d], ∃ d, e = .began d :=
    fun d e he => ⟨d, List.mem_singleton.mp he⟩
  cases hmoved with
  | kept => exact h
  | waited => exact ⟨h.failures, h.trips⟩
  | fired eventType payload workspaceId =>
    obtain ⟨ds, heq, -⟩ := fireWebhooks_eq (w := w) eventType payload workspaceId
    rw [heq]
    refine h.quiet rfl ?_ (hsame rfl)
    intro e he
    obtain ⟨d, -, rfl⟩ := List.mem_map.mp he
    exact ⟨d, rfl⟩
  | dropped => exact ⟨h.failures, h.trips⟩
  | finished i outcome durationMs delay kept d w' flight found pruned =>
    obtain ⟨keep, rfl, -⟩ := pruneDeliveries_eq_some pruned
    have hlanded : Counted env (landed w i d) := ⟨h.failures, h.trips⟩
    have hattempted := hlanded.attempted (haddresses.flights d (List.mem_of_getElem? flight))
      outcome durationMs delay
    exact ⟨hattempted.failures, hattempted.trips⟩
  | claimed picked rows row rest ids members picks joined =>
    obtain ⟨d, -, -, -, -, -, -, heq⟩ := retryRow_eq (w := clearRetries w picked) row
    rw [heq]
    exact h.quiet rfl (hbegan d) (hsame rfl)
  | ended => exact ⟨h.failures, h.trips⟩
  | continued i row rest batch =>
    obtain ⟨d, -, -, -, -, -, -, heq⟩ := retryRow_eq (w := w) row
    rw [heq]
    exact h.quiet rfl (hbegan d) (hsame rfl)
  | manual e wh eventType payload opts webhook once repeated =>
    obtain ⟨d, -, -, -, -, -, -, heq⟩ :=
      beginDelivery_eq (w := w) wh.id wh.workspaceId wh.url wh.secret eventType payload opts
    rw [heq]
    exact h.quiet rfl (hbegan d) (hsame rfl)
  | posted body workspaceId => exact h.posted haddresses body workspaceId
  | put body workspaceId found => exact h.put haddresses found
  | removed id workspaceId =>
    rw [removeWebhook]
    dsimp only
    split
    · exact ⟨fun wh hwh => h.failures wh (List.mem_of_mem_filter hwh), h.trips⟩
    · exact ⟨h.failures, h.trips⟩

theorem counted_of_run {now : Nat} {trace : List Event} {w : World}
    (hr : (machine env).run (World.empty now) trace = some w) : Addresses w ∧ Counted env w := by
  have hkept : ∀ w e w', Addresses w ∧ Counted env w → (machine env).step w e = some w' →
      Addresses w' ∧ Counted env w' := by
    intro w e w' h hstep
    have hmoved := moved_of_step hstep
    exact ⟨h.1.step hmoved, h.2.step h.1 hmoved⟩
  exact Machine.invariant_of_run hkept ⟨Addresses.empty now, Counted.empty now⟩ hr

/-! ### Attempts that are not counted -/

/-- The requests for a test delivery and for a manual retry. -/
def IsManual : Event → Prop
  | .retryDelivery _ _ => True
  | .testWebhook _ _ _ => True
  | _ => False

/-- A step of a test delivery or of a manual retry: its request, or its end. -/
def Uncounted (w : World) : Event → Prop
  | .finish i _ _ _ _ => ∀ d, w.inFlight[i]? = some d → d.allowRetry = false
  | e => IsManual e

/-- What the circuit breaker keeps of the webhooks. -/
def circuits (w : World) : List (Nat × Nat × Bool) :=
  w.webhooks.map fun wh => (wh.id, wh.consecutiveFailures, wh.enabled)

theorem circuits_afterAttempt {d : Delivery} (h : d.allowRetry = false) (outcome : FetchOutcome)
    (wh : Webhook) :
    let after := afterAttempt env w d outcome wh
    (after.id, after.consecutiveFailures, after.enabled) =
      (wh.id, wh.consecutiveFailures, wh.enabled) := by
  intro after
  have htrips : ¬ Trips env w d outcome := by
    rintro ⟨hauto, -⟩
    rw [h] at hauto
    cases hauto
  by_cases hmatch : wh.id = d.webhookId ∧ wh.workspaceId = d.workspaceId
  · simp only [after, afterAttempt, if_pos hmatch, counted, h, Bool.false_eq_true, if_false, htrips,
      not_false_eq_true, decide_true, Bool.and_true, firedWith]
  · simp only [after, afterAttempt, if_neg hmatch]

theorem circuits_uncounted {e : Event} {w' : World} (hmoved : Moved env w e w')
    (h : Uncounted w e) : circuits w' = circuits w := by
  cases hmoved with
  | kept => rfl
  | dropped => rfl
  | manual => rfl
  | finished i outcome durationMs delay kept d w' flight found pruned =>
    obtain ⟨keep, rfl, -⟩ := pruneDeliveries_eq_some pruned
    obtain ⟨hwebhooks, -⟩ := @attempted_eq env (landed w i d) d outcome durationMs delay
    rw [circuits, hwebhooks, List.map_map]
    exact List.map_congr_left fun wh _ => circuits_afterAttempt (h d flight) outcome wh
  | _ => exact absurd h id

theorem began_manual {e : Event} {w' : World} (hmoved : Moved env w e w') (h : IsManual e) :
    ∀ d ∈ w'.inFlight, d ∈ w.inFlight ∨ d.allowRetry = false := by
  cases hmoved with
  | kept => exact fun d hd => .inl hd
  | manual e wh eventType payload opts webhook once repeated =>
    obtain ⟨d, -, -, -, -, -, hallow, heq⟩ :=
      beginDelivery_eq (w := w) wh.id wh.workspaceId wh.url wh.secret eventType payload opts
    intro d' hd'
    rw [heq] at hd'
    rcases List.mem_append.mp hd' with hold | hnew
    · exact .inl hold
    · rw [List.mem_singleton.mp hnew]
      exact .inr (hallow.trans once)
  | _ => exact absurd h id

/-- The end of a delivery turns a webhook off only by tripping the breaker. -/
theorem tripped_of_disabled (haddresses : Addresses w) {i : Nat} {outcome : FetchOutcome}
    {durationMs delay : Nat} {kept : List Nat} {w' : World}
    (hmoved : Moved env w (.finish i outcome durationMs delay kept) w') {wh wh' : Webhook}
    (hwh : wh ∈ w.webhooks) (hwh' : wh' ∈ w'.webhooks) (hid : wh'.id = wh.id)
    (henabled : wh.enabled = true) (hdisabled : wh'.enabled = false) :
    ∃ rowId d success, w'.history = w.history ++ [.recorded rowId d success, .tripped wh.id] := by
  have hsame : wh' ∈ w.webhooks → False := by
    intro hold
    rw [haddresses.webhooks.eq_of_key hold hwh hid, henabled] at hdisabled
    cases hdisabled
  cases hmoved with
  | kept => exact (hsame hwh').elim
  | dropped => exact (hsame hwh').elim
  | manual => exact (hsame hwh').elim
  | finished i outcome durationMs delay kept d w' flight found pruned =>
    obtain ⟨keep, rfl, -⟩ := pruneDeliveries_eq_some pruned
    obtain ⟨hwebhooks, hhistory⟩ := @attempted_eq env (landed w i d) d outcome
      durationMs delay
    change wh' ∈ (attempted env (landed w i d) d outcome durationMs delay).webhooks at hwh'
    rw [hwebhooks] at hwh'
    obtain ⟨wh₀, hwh₀, rfl⟩ := List.mem_map.mp hwh'
    rw [(afterAttempt_id d outcome wh₀).1] at hid
    obtain rfl := haddresses.webhooks.eq_of_key hwh₀ hwh hid
    by_cases hmatch : wh₀.id = d.webhookId ∧ wh₀.workspaceId = d.workspaceId
    · rw [afterAttempt, if_pos hmatch] at hdisabled
      have htrips : Trips env (landed w i d) d outcome := by
        by_contra hn
        rw [henabled] at hdisabled
        simp only [hn, not_false_eq_true, decide_true, Bool.and_true, Bool.true_eq_false] at hdisabled
      rw [if_pos htrips] at hhistory
      refine ⟨w.nextDeliveryId, d, outcome.success, ?_⟩
      rw [hmatch.1]
      exact hhistory
    · rw [afterAttempt, if_neg hmatch, henabled] at hdisabled
      cases hdisabled

/-- In every history, the counter of a webhook is the number of failed automatic attempts since
the last success or reset, the breaker turns a webhook off only after a run of failures, and
test deliveries and manual retries change neither. -/
theorem failures_counted (env : Environment) (now : Nat) (trace : List Event) (w : World)
    (hr : (machine env).run (World.empty now) trace = some w) :
    (∀ wh ∈ w.webhooks, wh.consecutiveFailures = failures wh.id w.history) ∧
    Throughout (TripsLate env) w.history ∧
    ∀ e w', (machine env).step w e = some w' →
      (Uncounted w e → circuits w' = circuits w) ∧
      (IsManual e → ∀ d ∈ w'.inFlight, d ∈ w.inFlight ∨ d.allowRetry = false) ∧
      ((∃ i outcome durationMs delay kept, e = .finish i outcome durationMs delay kept) →
        ∀ wh ∈ w.webhooks, wh.enabled = true →
          ∀ wh' ∈ w'.webhooks, wh'.id = wh.id → wh'.enabled = false →
            ∃ rowId d success,
              w'.history = w.history ++ [.recorded rowId d success, .tripped wh.id]) := by
  obtain ⟨haddresses, hcounted⟩ := counted_of_run hr
  refine ⟨hcounted.failures, hcounted.trips, ?_⟩
  intro e w' hstep
  have hmoved := moved_of_step hstep
  refine ⟨circuits_uncounted hmoved, began_manual hmoved, ?_⟩
  rintro ⟨i, outcome, durationMs, delay, kept, rfl⟩ wh hwh henabled wh' hwh' hid hdisabled
  exact tripped_of_disabled haddresses hmoved hwh hwh' hid henabled hdisabled

theorem failures_counted_after_one_retry :
    ∃ w, (machine twoAttempts).run (World.empty 0) oneRetry = some w ∧
      w.webhooks.map (·.consecutiveFailures) = [2] ∧
        ∀ wh ∈ w.webhooks, wh.consecutiveFailures = failures wh.id w.history := by
  have hreached : ((machine twoAttempts).run (World.empty 0) oneRetry).any
      (fun w => w.webhooks.map (·.consecutiveFailures) = [2]) = true := by
    decide +kernel
  obtain ⟨w, hr, hcount⟩ := (Option.any_eq_true _ _).mp hreached
  exact ⟨w, hr, of_decide_eq_true hcount, (failures_counted twoAttempts 0 oneRetry w hr).1⟩

/-! ### Open circuits -/

/-- Whether the circuit is open after an entry. -/
def switch (id : Nat) (isOpen : Bool) : Entry → Bool
  | .tripped id' => isOpen ∨ id' = id
  | .enabled id' => isOpen ∧ id' ≠ id
  | _ => isOpen

/-- The breaker has tripped, and no admin has enabled the webhook since. -/
def circuitOpen (id : Nat) (history : List Entry) : Bool := history.foldl (switch id) false

/-- No automatic attempt begins while the circuit of its webhook is open. -/
def Quiet (front : List Entry) (e : Entry) : Prop :=
  ∀ d, e = .began d → d.allowRetry = true → circuitOpen d.webhookId front = false

/-- When the breaker trips, no batch holds a row of the webhook. -/
def TripAlone (env : Environment) (w : World) : Event → Prop
  | .finish i outcome _ _ _ => ∀ d, w.inFlight[i]? = some d → Trips env w d outcome →
    ∀ b ∈ w.batches, ∀ p ∈ b.remaining, p.webhookId ≠ d.webhookId
  | _ => True

instance decidableTripAlone (w : World) : ∀ e : Event, Decidable (TripAlone env w e)
  | .finish i outcome _ _ _ =>
    match hflight : w.inFlight[i]? with
    | none => .isTrue fun d hd => absurd (hflight.symm.trans hd) (Option.some_ne_none d).symm
    | some d =>
      decidable_of_iff (Trips env w d outcome →
        ∀ b ∈ w.batches, ∀ p ∈ b.remaining, p.webhookId ≠ d.webhookId) <| by
          simp only [TripAlone, hflight, Option.some.injEq, forall_eq']
  | .wait _ | .fire .. | .processRetries _ | .continueBatch _ | .retryDelivery .. | .testWebhook ..
  | .postWebhook .. | .putWebhook .. | .removeWebhook .. => .isTrue trivial

/-- An open circuit has a webhook that is off, and no row that is claimed. -/
structure Shut (w : World) : Prop where
  disabled : ∀ id, circuitOpen id w.history = true →
    (∀ wh ∈ w.webhooks, wh.id = id → wh.enabled = false) ∧
      ∀ b ∈ w.batches, ∀ p ∈ b.remaining, p.webhookId ≠ id
  quiet : Throughout Quiet w.history

theorem Shut.empty (now : Nat) : Shut (World.empty now) :=
  ⟨fun _ h => absurd h Bool.false_ne_true, throughout_nil⟩

theorem circuitOpen_snoc (id : Nat) (history : List Entry) (e : Entry) :
    circuitOpen id (history ++ [e]) = switch id (circuitOpen id history) e := by
  rw [circuitOpen, List.foldl_append]
  rfl

/-- Entries that do not touch the circuit of a webhook. -/
theorem circuitOpen_append {id : Nat} {entries : List Entry} (history : List Entry)
    (h : ∀ e ∈ entries, ∀ isOpen, switch id isOpen e = isOpen) :
    circuitOpen id (history ++ entries) = circuitOpen id history := by
  induction entries using List.reverseRecOn with
  | nil => rw [List.append_nil]
  | append_singleton entries e ih =>
    rw [← List.append_assoc, circuitOpen_snoc, h e (List.mem_append_right _ List.mem_cons_self)]
    exact ih fun e' he' => h e' (List.mem_append_left _ he')

theorem circuitOpen_began (id : Nat) (history : List Entry) (ds : List Delivery) :
    circuitOpen id (history ++ ds.map .began) = circuitOpen id history := by
  apply circuitOpen_append
  intro e he isOpen
  obtain ⟨d, -, rfl⟩ := List.mem_map.mp he
  rfl

/-- Deliveries begin for webhooks whose circuits are not open, and nothing else is new. -/
theorem Shut.begin {w w' : World} (h : Shut w) (ds : List Delivery)
    (hhistory : w'.history = w.history ++ ds.map .began) (hwebhooks : w'.webhooks = w.webhooks)
    (hds : ∀ d ∈ ds, d.allowRetry = true → circuitOpen d.webhookId w.history = false)
    (hremaining : ∀ b ∈ w'.batches, ∀ p ∈ b.remaining,
      (∃ b' ∈ w.batches, p ∈ b'.remaining) ∨ circuitOpen p.webhookId w.history = false) :
    Shut w' := by
  constructor
  · intro id hopen
    rw [hhistory, circuitOpen_began] at hopen
    obtain ⟨hoff, hunclaimed⟩ := h.disabled id hopen
    refine ⟨hwebhooks ▸ hoff, ?_⟩
    intro b hb p hp
    rcases hremaining b hb p hp with ⟨b', hb', hp'⟩ | hclosed
    · exact hunclaimed b' hb' p hp'
    · rintro rfl
      rw [hopen] at hclosed
      cases hclosed
  · rw [hhistory]
    refine h.quiet.append ?_
    rintro front e back hsplit d rfl hauto
    obtain ⟨ds₁, rest, hds', hfront, hrest⟩ := List.map_eq_append_iff.mp hsplit
    obtain ⟨d', ds₂, hrest', heq, -⟩ := List.map_eq_cons_iff.mp hrest
    obtain rfl := Entry.began.inj heq
    rw [← hfront, circuitOpen_began]
    refine hds d' ?_ hauto
    rw [hds', hrest']
    exact List.mem_append_right _ List.mem_cons_self

/-- An enabled webhook has a closed circuit. -/
theorem Shut.closed_of_enabled (h : Shut w) {wh : Webhook} (hwh : wh ∈ w.webhooks)
    (henabled : wh.enabled = true) : circuitOpen wh.id w.history = false := by
  by_contra hopen
  have hoff := (h.disabled wh.id (eq_true_of_ne_false hopen)).1 wh hwh rfl
  rw [henabled] at hoff
  cases hoff

/-- A claimed row has a closed circuit. -/
theorem Shut.closed_of_claimed (h : Shut w) {b : Batch} (hb : b ∈ w.batches) {p : PendingRetry}
    (hp : p ∈ b.remaining) : circuitOpen p.webhookId w.history = false := by
  by_contra hopen
  exact (h.disabled p.webhookId (eq_true_of_ne_false hopen)).2 b hb p hp rfl

theorem Quiet.append_unbegun {history entries : List Entry} (h : Throughout Quiet history)
    (hentries : ∀ e ∈ entries, ∀ d, e ≠ .began d) : Throughout Quiet (history ++ entries) := by
  refine h.append ?_
  rintro front e back hsplit d rfl
  refine absurd rfl (hentries (.began d) ?_ d)
  rw [hsplit]
  exact List.mem_append_right _ List.mem_cons_self

/-- The step of a recorded attempt. -/
theorem Shut.attempted (h : Shut w) {d : Delivery}
    (haddressed : Addressed w d.webhookId d.workspaceId) {outcome : FetchOutcome}
    (halone : Trips env w d outcome → ∀ b ∈ w.batches, ∀ p ∈ b.remaining,
      p.webhookId ≠ d.webhookId) (durationMs delay : Nat) :
    Shut (attempted env w d outcome durationMs delay) := by
  obtain ⟨hwebhooks, hhistory⟩ := @attempted_eq env w d outcome durationMs delay
  obtain ⟨-, hbatches, -⟩ := @attempted_frame env w d outcome durationMs delay
  constructor
  · intro id hopen
    rw [hbatches, hwebhooks]
    have hbefore : circuitOpen id w.history = true ∨ (Trips env w d outcome ∧ d.webhookId = id) := by
      rw [hhistory, List.append_cons] at hopen
      split at hopen
      · rename_i htrips
        rw [circuitOpen_snoc, circuitOpen_snoc] at hopen
        exact (of_decide_eq_true hopen).imp_right fun hid => ⟨htrips, hid⟩
      · rw [List.append_nil, circuitOpen_snoc] at hopen
        exact .inl hopen
    rcases hbefore with hold | ⟨htrips, rfl⟩
    · obtain ⟨hoff, hunclaimed⟩ := h.disabled id hold
      refine ⟨?_, hunclaimed⟩
      intro wh' hwh' hid
      obtain ⟨wh, hwh, rfl⟩ := List.mem_map.mp hwh'
      have hwhoff := hoff wh hwh ((afterAttempt_id d outcome wh).1 ▸ hid)
      rw [afterAttempt]
      split
      · simp only [hwhoff, Bool.false_and]
      · exact hwhoff
    · refine ⟨?_, halone htrips⟩
      intro wh' hwh' hid
      obtain ⟨wh, hwh, rfl⟩ := List.mem_map.mp hwh'
      rw [(afterAttempt_id d outcome wh).1] at hid
      rw [afterAttempt, if_pos ⟨hid, haddressed.2 wh hwh hid⟩]
      simp only [htrips, not_true_eq_false, decide_false, Bool.and_false]
  · rw [hhistory]
    apply Quiet.append_unbegun h.quiet
    rintro e he d' rfl
    rcases List.mem_cons.mp he with heq | he
    · cases heq
    · split at he
      · cases List.mem_singleton.mp he
      · cases he

theorem switch_of_ne {id : Nat} {e : Entry} (h : aboutWebhook e ≠ id) (isOpen : Bool) :
    switch id isOpen e = isOpen := by
  cases e with
  | began | recorded | reset => rfl
  | tripped id' =>
    have hne : ¬ id' = id := h
    simp only [switch, hne, or_false, Bool.decide_eq_true]
  | enabled id' =>
    have hne : id' ≠ id := h
    simp only [switch, hne, ne_eq, not_false_eq_true, and_true, Bool.decide_eq_true]

/-- An update closes the circuit if it enables the webhook. -/
theorem circuitOpen_entries (id : Nat) (body : WebhookUpdate) (history : List Entry) :
    circuitOpen id (history ++ body.entries) = true → circuitOpen id history = true ∧
      (body.id = id → body.resetCircuit = false ∧ body.enabled ≠ some true) := by
  intro hopen
  rw [WebhookUpdate.entries, ← List.append_assoc] at hopen
  have hreset : ∀ isOpen, ∀ e ∈ (if body.resetCircuit = true then [Entry.reset body.id] else []),
      switch id isOpen e = isOpen := by
    intro isOpen e he
    split at he
    · rw [List.mem_singleton.mp he]
      rfl
    · cases he
  by_cases henables : body.resetCircuit = true ∨ body.enabled = some true
  · rw [if_pos henables, circuitOpen_snoc, circuitOpen_append _ fun e he isOpen => hreset isOpen e he] at hopen
    obtain ⟨hbefore, hne⟩ := of_decide_eq_true hopen
    exact ⟨hbefore, fun hid => absurd hid hne⟩
  · rw [if_neg henables, List.append_nil,
      circuitOpen_append _ fun e he isOpen => hreset isOpen e he] at hopen
    obtain ⟨hnoreset, henabled⟩ := not_or.mp henables
    exact ⟨hopen, fun _ => ⟨Bool.eq_false_iff.mpr hnoreset, henabled⟩⟩

/-- The step of an update by an admin. -/
theorem Shut.put (h : Shut w) (body : WebhookUpdate) (workspaceId : Nat) :
    Shut { w.updateWebhook body.id workspaceId body.apply with
      history := w.history ++ body.entries } := by
  constructor
  · intro id hopen
    obtain ⟨hbefore, hkeeps⟩ := circuitOpen_entries id body w.history hopen
    obtain ⟨hoff, hunclaimed⟩ := h.disabled id hbefore
    refine ⟨?_, hunclaimed⟩
    intro wh' hwh' hid
    obtain ⟨wh, hwh, rfl⟩ := List.mem_map.mp hwh'
    have hwhoff := hoff wh hwh ((apply_id body workspaceId wh).1 ▸ hid)
    split
    · rename_i hmatch
      rw [if_pos hmatch] at hid
      obtain ⟨hreset, henabled⟩ := hkeeps (hmatch.1.symm.trans hid)
      simp only [WebhookUpdate.apply, hreset, Bool.false_eq_true, if_false, hwhoff]
      cases hbody : body.enabled with
      | none => rfl
      | some b =>
        cases b with
        | false => rfl
        | true => exact absurd hbody henabled
    · exact hwhoff
  · apply Quiet.append_unbegun h.quiet
    rintro e he d rfl
    simp [WebhookUpdate.entries] at he

/-- The step lemma. -/
theorem Shut.step (h : Shut w) (haddresses : Addresses w) {e : Event} {w' : World}
    (halone : TripAlone env w e) (hmoved : Moved env w e w') : Shut w' := by
  have hsame : ∀ b ∈ w.batches, ∀ p ∈ b.remaining,
      (∃ b' ∈ w.batches, p ∈ b'.remaining) ∨ circuitOpen p.webhookId w.history = false :=
    fun b hb p hp => .inl ⟨b, hb, hp⟩
  cases hmoved with
  | kept => exact h
  | waited => exact ⟨h.disabled, h.quiet⟩
  | fired eventType payload workspaceId =>
    obtain ⟨ds, heq, hds⟩ := fireWebhooks_eq (w := w) eventType payload workspaceId
    rw [heq]
    refine h.begin ds rfl rfl ?_ hsame
    intro d hd _
    obtain ⟨wh, hwh, henabled, hid, -⟩ := hds d hd
    rw [hid]
    exact h.closed_of_enabled hwh henabled
  | dropped i outcome durationMs delay kept d flight gone =>
    refine h.begin [] (List.append_nil _).symm rfl (fun d hd => absurd hd List.not_mem_nil) ?_
    exact fun b hb p hp => .inl (remaining_landed b hb p hp)
  | finished i outcome durationMs delay kept d w' flight found pruned =>
    obtain ⟨keep, rfl, -⟩ := pruneDeliveries_eq_some pruned
    have hlanded : Shut (landed w i d) := by
      refine h.begin [] (List.append_nil _).symm rfl
        (fun d hd => absurd hd List.not_mem_nil) ?_
      exact fun b hb p hp => .inl (remaining_landed b hb p hp)
    have hattempted :
        Shut (DeliverySteps.attempted env (landed w i d) d outcome durationMs delay) := by
      refine hlanded.attempted (haddresses.flights d (List.mem_of_getElem? flight)) ?_ durationMs
        delay
      intro htrips b hb p hp
      obtain ⟨b', hb', hp'⟩ := remaining_landed b hb p hp
      exact halone d flight htrips b' hb' p hp'
    exact ⟨hattempted.disabled, hattempted.quiet⟩
  | claimed picked rows row rest ids members picks joined =>
    have hclosed : ∀ p ∈ row :: rest, circuitOpen p.webhookId w.history = false := by
      intro p hp
      rw [← joined] at hp
      obtain ⟨r, hr, -, -, hid, -⟩ := mem_joined picks.2.1 hp
      obtain ⟨-, wh, hwh, hwhid, -, henabled⟩ := picks.2.1 r hr
      rw [hid, ← hwhid]
      exact h.closed_of_enabled hwh henabled
    obtain ⟨d, -, hid, -, -, -, -, heq⟩ := retryRow_eq (w := clearRetries w picked) row
    rw [heq]
    refine h.begin [d] rfl rfl ?_ ?_
    · intro d' hd' _
      rw [List.mem_singleton.mp hd', hid]
      exact hclosed row List.mem_cons_self
    · intro b hb p hp
      rcases List.mem_append.mp hb with hb | hb
      · exact .inl ⟨b, hb, hp⟩
      · rw [List.mem_singleton.mp hb] at hp
        exact .inr (hclosed p (List.mem_cons_of_mem row hp))
  | ended i batch =>
    refine h.begin [] (List.append_nil _).symm rfl (fun d hd => absurd hd List.not_mem_nil) ?_
    exact fun b hb p hp => .inl ⟨b, List.mem_of_mem_eraseIdx hb, hp⟩
  | continued i row rest batch =>
    have hb := List.mem_of_getElem? batch
    obtain ⟨d, -, hid, -, -, -, -, heq⟩ := retryRow_eq (w := w) row
    rw [heq]
    refine h.begin [d] rfl rfl ?_ ?_
    · intro d' hd' _
      rw [List.mem_singleton.mp hd', hid]
      exact h.closed_of_claimed hb List.mem_cons_self
    · intro b' hb' p hp
      rcases List.mem_or_eq_of_mem_set hb' with hb' | rfl
      · exact .inl ⟨b', hb', hp⟩
      · exact .inr (h.closed_of_claimed hb (List.mem_cons_of_mem row hp))
  | manual e wh eventType payload opts webhook once repeated =>
    obtain ⟨d, -, -, -, -, -, hallow, heq⟩ :=
      beginDelivery_eq (w := w) wh.id wh.workspaceId wh.url wh.secret eventType payload opts
    rw [heq]
    refine h.begin [d] rfl rfl ?_ hsame
    intro d' hd' hauto
    rw [List.mem_singleton.mp hd', hallow, once] at hauto
    cases hauto
  | posted body workspaceId =>
    have hnew : circuitOpen w.nextWebhookId w.history = false :=
      circuitOpen_append [] fun e he => switch_of_ne (Nat.ne_of_lt (haddresses.logged e he))
    refine ⟨?_, h.quiet⟩
    intro id hopen
    obtain ⟨hoff, hunclaimed⟩ := h.disabled id hopen
    refine ⟨?_, hunclaimed⟩
    intro wh hwh hid
    rcases List.mem_append.mp hwh with hold | hadded
    · exact hoff wh hold hid
    · rw [List.mem_singleton.mp hadded] at hid
      change w.nextWebhookId = id at hid
      rw [← hid] at hopen
      exact absurd (hnew.symm.trans hopen) Bool.false_ne_true
  | put body workspaceId found => exact h.put body workspaceId
  | removed id workspaceId =>
    rw [removeWebhook]
    dsimp only
    split
    · refine ⟨?_, h.quiet⟩
      intro id' hopen
      obtain ⟨hoff, hunclaimed⟩ := h.disabled id' hopen
      exact ⟨fun wh hwh => hoff wh (List.mem_of_mem_filter hwh), hunclaimed⟩
    · exact ⟨h.disabled, h.quiet⟩

/-- In every history in which the breaker trips only for webhooks that no batch holds rows of, no
automatic attempt begins while a circuit is open. -/
theorem open_circuit_quiet (env : Environment) (now : Nat) {trace : List Event}
    (hmeets : (machine env).Meets (TripAlone env) (World.empty now) trace) :
    (machine env).Always (fun w => Throughout Quiet w.history) (World.empty now) trace := by
  have hkept : ∀ w e w', Addresses w ∧ Shut w → TripAlone env w e →
      (machine env).step w e = some w' → Addresses w' ∧ Shut w' := by
    intro w e w' h halone hstep
    have hmoved := moved_of_step hstep
    exact ⟨h.1.step hmoved, h.2.step h.1 halone hmoved⟩
  intro front back w hsplit hr
  rw [hsplit] at hmeets
  have hinv : Addresses w ∧ Shut w := Machine.run_invariant hkept
    ⟨Addresses.empty now, Shut.empty now⟩ hmeets.append_left hr
  exact hinv.2.quiet

theorem one_retry_quiet :
    (machine twoAttempts).Always (fun w => Throughout Quiet w.history) (World.empty 0) oneRetry :=
  open_circuit_quiet twoAttempts 0 (by decide +kernel)

/-! ### A batch of two rows -/

/-- Two events fail, a batch claims both rows, and the first retry trips the breaker. -/
def trippedInBatch : List Event :=
  [.postWebhook hook 1, .fire "agent.error" .null 1, .fire "agent.error" .null 1,
    .finish 0 unavailable 5 30 [], .finish 0 unavailable 5 30 [], .wait 60, .processRetries [1, 2],
    .finish 0 unavailable 5 300 [], .continueBatch 0]

/-- An automatic attempt that begins while the circuit is open, as the last entry. -/
def endsInTraffic (history : List Entry) : Bool :=
  match history.getLast? with
  | some (.began d) => d.allowRetry && circuitOpen d.webhookId history.dropLast
  | _ => false

theorem not_quiet_of_endsInTraffic {history : List Entry} (h : endsInTraffic history = true) :
    ¬ Throughout Quiet history := by
  intro hquiet
  rw [endsInTraffic] at h
  split at h
  · rename_i d hlast
    obtain ⟨hauto, hopen⟩ := Bool.and_eq_true_iff.mp h
    obtain ⟨front, rfl⟩ := List.getLast?_eq_some_iff.mp hlast
    rw [List.dropLast_concat] at hopen
    have hclosed := hquiet front (.began d) [] rfl d rfl hauto
    rw [hopen] at hclosed
    cases hclosed
  · cases h

theorem open_circuit_not_quiet :
    ¬ (machine twoAttempts).Always (fun w => Throughout Quiet w.history) (World.empty 0)
      trippedInBatch := by
  intro h
  have hreached : ((machine twoAttempts).run (World.empty 0) trippedInBatch).any
      (fun w => endsInTraffic w.history) = true := by
    decide +kernel
  obtain ⟨w, hr, htraffic⟩ := (Option.any_eq_true _ _).mp hreached
  exact not_quiet_of_endsInTraffic htraffic (h trippedInBatch [] w (List.append_nil _).symm hr)

end MissionControl.Webhooks.CircuitBreaker
