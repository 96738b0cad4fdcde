import MissionControl.Foundations.JsonValues
import MissionControl.Webhooks.RetryChains

/-!
What retries send. A delivery stores the text that it sends, and a retry takes the payload out of
the text that is stored and sends it in a text of its own. A payload that is null is not told from
one that is missing, and the retry sends the whole text that was stored in its place.
-/

set_option autoImplicit false
set_option relaxedAutoImplicit false

namespace MissionControl.Webhooks.RetriedMessages

open MissionControl.Foundations.JsonValues
open MissionControl.Foundations.Schema (Json lookup)
open MissionControl.Foundations.Transition (Machine)
open Deliveries DeliverySteps RetryChains

variable {env : Environment} {w w' : World} {Text : Type} {format : Format Text}

deriving instance DecidableEq for Body, Delivery, Entry

/-! ### Texts -/

/-- The value whose text `deliverWebhook` sends and stores. -/
def envelope (body : Body) : Json :=
  .object [("event", .string body.event), ("timestamp", .number body.timestamp),
    ("data", body.data)]

/-- The payload that a retry takes from a stored text: `parsed.data ?? parsed`, or an empty object
where the text cannot be parsed or has no properties. -/
def storedPayload (format : Format Text) (text : Text) : Json :=
  match format.parse text with
  | none => .object []
  | some .null => .object []
  | some parsed =>
    match getField parsed "data" with
    | none => parsed
    | some .null => parsed
    | some data => data

theorem retryPayload_of_ne {body : Body} (h : body.data ≠ .null) : retryPayload body = body.data := by
  obtain ⟨event, timestamp, data⟩ := body
  cases data with
  | null => exact absurd rfl h
  | _ => rfl

theorem retryPayload_of_null {body : Body} (h : body.data = .null) :
    retryPayload body = envelope body := by
  simp [retryPayload, envelope, h]

theorem retryPayload_ne_null (body : Body) : retryPayload body ≠ .null := by
  by_cases h : body.data = .null
  · simp [retryPayload_of_null h, envelope]
  · rwa [retryPayload_of_ne h]

/-- What a retry takes from the text of a delivery. -/
theorem storedPayload_print {body : Body} {text : Text}
    (h : format.print (envelope body) = some text) : storedPayload format text = retryPayload body := by
  have hdata : getField (envelope body) "data" = some body.data := by
    simp [envelope, getField, lookup]
  rw [storedPayload, format.parse_print _ _ h]
  simp only [envelope] at hdata ⊢
  rw [hdata]
  by_cases hnull : body.data = .null
  · simp [retryPayload, hnull]
  · rw [retryPayload_of_ne hnull]
    generalize body.data = data at hnull
    cases data with
    | null => exact absurd rfl hnull
    | _ => rfl

/-! ### What is stored and repeated -/

/-- The row was logged for a call, and holds what the call sent. -/
def Holds (history : List Entry) (id : Nat) (eventType : String) (payload : Body) : Prop :=
  ∃ d s, .recorded id d s ∈ history ∧ payload = d.body ∧ eventType = d.body.event

/-- A call that repeats a row sends what a retry takes from the text of the row's call. -/
def Repeats (history : List Entry) (d : Delivery) : Prop :=
  ∀ id ∈ d.parentDeliveryId, ∃ d' s, .recorded id d' s ∈ history ∧
    d.body.event = d'.body.event ∧ d.body.data = retryPayload d'.body

structure Stored (w : World) : Prop where
  rows : ∀ r ∈ w.deliveries, Holds w.history r.id r.eventType r.payload
  remaining : ∀ b ∈ w.batches, ∀ p ∈ b.remaining, Holds w.history p.id p.eventType p.payload
  children : ∀ d, .began d ∈ w.history → Repeats w.history d

theorem Stored.empty (now : Nat) : Stored (World.empty now) :=
  ⟨fun _ h => absurd h List.not_mem_nil, fun _ h => absurd h List.not_mem_nil,
    fun _ h => absurd h List.not_mem_nil⟩

theorem Holds.mono {history history' : List Entry} (hsub : ∀ e ∈ history, e ∈ history') {id : Nat}
    {eventType : String} {payload : Body} (h : Holds history id eventType payload) :
    Holds history' id eventType payload := by
  obtain ⟨d, s, hlogged, hsame⟩ := h
  exact ⟨d, s, hsub _ hlogged, hsame⟩

theorem Repeats.mono {history history' : List Entry} (hsub : ∀ e ∈ history, e ∈ history')
    {d : Delivery} (h : Repeats history d) : Repeats history' d := by
  intro id hid
  obtain ⟨d', s, hlogged, hsame⟩ := h id hid
  exact ⟨d', s, hsub _ hlogged, hsame⟩

/-- What is kept when the history grows, and rows and batches become fewer. -/
theorem Stored.grow (h : Stored w) (hsub : ∀ e ∈ w.history, e ∈ w'.history)
    (hrows : ∀ r ∈ w'.deliveries, (∃ r' ∈ w.deliveries, r'.id = r.id ∧
      r'.eventType = r.eventType ∧ r'.payload = r.payload) ∨
        Holds w'.history r.id r.eventType r.payload)
    (hbatches : ∀ b ∈ w'.batches, ∀ p ∈ b.remaining, (∃ b' ∈ w.batches, p ∈ b'.remaining) ∨
      Holds w'.history p.id p.eventType p.payload)
    (hbegan : ∀ d, .began d ∈ w'.history → .began d ∈ w.history ∨ Repeats w'.history d) :
    Stored w' := by
  refine ⟨?_, ?_, ?_⟩
  · intro r hr
    rcases hrows r hr with ⟨r', hr', hid, htype, hpayload⟩ | hnew
    · have hold := h.rows r' hr'
      rw [hid, htype, hpayload] at hold
      exact hold.mono hsub
    · exact hnew
  · intro b hb p hp
    rcases hbatches b hb p hp with ⟨b', hb', hp'⟩ | hnew
    · exact (h.remaining b' hb' p hp').mono hsub
    · exact hnew
  · intro d hd
    rcases hbegan d hd with hold | hnew
    · exact (h.children d hold).mono hsub
    · exact hnew

/-- A call begins, and rows and batches stay, or the batches have what rows hold. -/
theorem Stored.begin (h : Stored w) {webhookId workspaceId : Nat} {url : String}
    {secret : Option String} {eventType : String} {payload : Json} {opts : DeliverOpts}
    (hparent : ∀ id ∈ opts.parentDeliveryId, ∃ body, Holds w.history id eventType body ∧
      payload = retryPayload body) :
    Stored (beginDelivery w webhookId workspaceId url secret eventType payload opts) := by
  refine h.grow (fun e he => List.mem_append_left _ he) ?_ ?_ ?_
  · exact fun r hr => .inl ⟨r, hr, rfl, rfl, rfl⟩
  · exact fun b hb p hp => .inl ⟨b, hb, hp⟩
  · intro d hd
    rcases World.mem_log.mp hd with hold | hnew
    · exact .inl hold
    · obtain rfl := Entry.began.inj hnew
      refine .inr fun id hid => ?_
      obtain ⟨body, ⟨d', s, hlogged, rfl, htype⟩, hpayload⟩ := hparent id hid
      exact ⟨d', s, List.mem_append_left _ hlogged, htype, hpayload⟩

theorem Stored.retryRow (h : Stored w) {row : PendingRetry}
    (hrow : Holds w.history row.id row.eventType row.payload) : Stored (retryRow w row) := by
  apply h.begin
  intro id hid
  obtain rfl := Option.some.inj hid
  exact ⟨row.payload, hrow, rfl⟩

/-- Batches whose rows hold what calls sent. -/
theorem Stored.setBatches (h : Stored w) {batches : List Batch}
    (hbatches : ∀ b ∈ batches, ∀ p ∈ b.remaining, Holds w.history p.id p.eventType p.payload) :
    Stored { w with batches := batches } :=
  ⟨h.rows, hbatches, h.children⟩

theorem Stored.landed (h : Stored w) (i : Nat) (d : Delivery) : Stored (landed w i d) := by
  refine h.grow (fun e he => he) ?_ ?_ fun d hd => .inl hd
  · exact fun r hr => .inl ⟨r, hr, rfl, rfl, rfl⟩
  · intro b hb p hp
    obtain ⟨b', hb', rfl⟩ := List.mem_map.mp hb
    refine .inl ⟨b', hb', ?_⟩
    rw [Batch.wake] at hp
    split at hp <;> exact hp

theorem Stored.filterDeliveries (h : Stored w) (keep : DeliveryRow → Bool) :
    Stored { w with deliveries := w.deliveries.filter keep } :=
  ⟨fun r hr => h.rows r (List.mem_of_mem_filter hr), h.remaining, h.children⟩

/-- A row after an attempt was there, or is the one that logs the attempt. -/
theorem mem_attempted {d : Delivery} {outcome : FetchOutcome} {durationMs delay : Nat}
    {r : DeliveryRow} (h : r ∈ (attempted env w d outcome durationMs delay).deliveries) :
    (∃ r' ∈ w.deliveries, r'.id = r.id ∧ r'.eventType = r.eventType ∧ r'.payload = r.payload) ∨
      (r.id = w.nextDeliveryId ∧ r.payload = d.body ∧ r.eventType = d.body.event) := by
  have hlogged : ∀ r ∈ w.deliveries ++ [newRow w d outcome durationMs],
      (∃ r' ∈ w.deliveries, r'.id = r.id ∧ r'.eventType = r.eventType ∧ r'.payload = r.payload) ∨
        (r.id = w.nextDeliveryId ∧ r.payload = d.body ∧ r.eventType = d.body.event) := by
    intro r hr
    rcases List.mem_append.mp hr with hold | hnew
    · exact .inl ⟨r, hold, rfl, rfl, rfl⟩
    · rw [List.mem_singleton.mp hnew]
      exact .inr ⟨rfl, rfl, rfl⟩
  rw [attempted] at h
  split at h
  · rw [noteOutcome] at h
    split at h
    · exact hlogged r h
    · dsimp only at h
      split at h
      · obtain ⟨r', hr', rfl⟩ := List.mem_map.mp h
        split
        · exact hlogged r' hr'
        · exact hlogged r' hr'
      · rw [tripBreaker] at h
        split at h
        · exact hlogged r h
        · split at h <;> exact hlogged r h
  · exact hlogged r h

theorem Stored.attempted (h : Stored w) (d : Delivery) (outcome : FetchOutcome)
    (durationMs delay : Nat) : Stored (attempted env w d outcome durationMs delay) := by
  have hhistory := (@attempted_eq env w d outcome durationMs delay).2
  have hbatches := (@attempted_frame env w d outcome durationMs delay).2.1
  refine h.grow ?_ ?_ ?_ ?_
  · intro e he
    rw [hhistory]
    exact List.mem_append_left _ he
  · intro r hr
    rcases mem_attempted hr with hold | ⟨hid, hpayload, htype⟩
    · exact .inl hold
    · refine .inr ⟨d, outcome.success, ?_, hpayload, htype⟩
      rw [hhistory, hid]
      exact List.mem_append_right _ List.mem_cons_self
  · intro b hb p hp
    rw [hbatches] at hb
    exact .inl ⟨b, hb, hp⟩
  · intro d' hd'
    rw [hhistory] at hd'
    left
    rcases List.mem_append.mp hd' with hold | hnew
    · exact hold
    · rcases List.mem_cons.mp hnew with hnew | hnew
      · cases hnew
      · split at hnew
        · cases List.mem_singleton.mp hnew
        · cases hnew

/-- A row that is claimed holds what the row of the table holds. -/
theorem holds_of_joined (h : Stored w) {rows : List DeliveryRow}
    (hmembers : ∀ r ∈ rows, r ∈ w.deliveries) {p : PendingRetry}
    (hp : p ∈ rows.filterMap (pendingRetry w)) : Holds w.history p.id p.eventType p.payload := by
  obtain ⟨r, hr, hjoined⟩ := List.mem_filterMap.mp hp
  obtain ⟨wh, -, rfl⟩ := Option.map_eq_some_iff.mp hjoined
  exact h.rows r (hmembers r hr)

theorem Stored.clearRetries (h : Stored w) (picked : List Nat) : Stored (clearRetries w picked) := by
  refine h.grow (fun e he => he) ?_ (fun b hb p hp => .inl ⟨b, hb, hp⟩) fun d hd => .inl hd
  intro r' hr'
  obtain ⟨r, hr, rfl⟩ := List.mem_map.mp hr'
  refine .inl ⟨r, hr, ?_⟩
  split <;> exact ⟨rfl, rfl, rfl⟩

theorem Stored.removeWebhook (h : Stored w) (id workspaceId : Nat) :
    Stored (removeWebhook w id workspaceId) := by
  have hfewer := h.filterDeliveries fun r => ¬ (r.webhookId = id ∧ r.workspaceId = workspaceId)
  rw [Deliveries.removeWebhook]
  dsimp only
  split
  · have hgone := hfewer.filterDeliveries fun r => r.webhookId ≠ id
    exact ⟨hgone.rows, hgone.remaining, hgone.children⟩
  · exact hfewer

theorem Stored.step (h : Stored w) {e : Event} (hmoved : Moved env w e w') : Stored w' := by
  cases hmoved with
  | kept => exact h
  | waited => exact ⟨h.rows, h.remaining, h.children⟩
  | fired eventType payload workspaceId =>
    rw [fireWebhooks]
    refine fold_begin h ?_
    intro w wh _ hw
    exact hw.begin fun id hid => by cases hid
  | dropped i outcome durationMs delay kept d flight gone => exact h.landed i d
  | finished i outcome durationMs delay kept d w' flight found pruned =>
    obtain ⟨keep, rfl, -⟩ := pruneDeliveries_eq_some pruned
    exact ((h.landed i d).attempted d outcome durationMs delay).filterDeliveries keep
  | claimed picked rows row rest ids members picks joined =>
    have hheld : ∀ p ∈ row :: rest, Holds w.history p.id p.eventType p.payload := by
      rw [← joined]
      exact fun p hp => holds_of_joined h members hp
    have hbegun := (h.clearRetries picked).retryRow (hheld row List.mem_cons_self)
    apply hbegun.setBatches
    intro b hb p hp
    have hheld' : Holds w.history p.id p.eventType p.payload := by
      rcases List.mem_append.mp hb with hb | hb
      · exact h.remaining b hb p hp
      · rw [List.mem_singleton.mp hb] at hp
        exact hheld p (List.mem_cons_of_mem row hp)
    exact hheld'.mono fun e he => List.mem_append_left _ he
  | ended i batch =>
    apply h.setBatches
    intro b hb
    exact h.remaining b (List.mem_of_mem_eraseIdx hb)
  | continued i row rest batch =>
    have hheld := h.remaining _ (List.mem_of_getElem? batch)
    have hbegun := h.retryRow (hheld row List.mem_cons_self)
    apply hbegun.setBatches
    intro b hb p hp
    have hheld' : Holds w.history p.id p.eventType p.payload := by
      rcases List.mem_or_eq_of_mem_set hb with hb | rfl
      · exact h.remaining b hb p hp
      · exact hheld p (List.mem_cons_of_mem row hp)
    exact hheld'.mono fun e he => List.mem_append_left _ he
  | manual e wh eventType payload opts webhook once repeated =>
    apply h.begin
    intro id hid
    obtain ⟨r, hr, rfl, rfl, rfl⟩ := repeated id hid
    exact ⟨r.payload, h.rows r hr, rfl⟩
  | posted => exact ⟨h.rows, h.remaining, h.children⟩
  | put body workspaceId found =>
    have hcircuit := WebhookUpdate.entries_circuit body
    refine h.grow (fun e he => List.mem_append_left _ he) ?_ ?_ ?_
    · exact fun r hr => .inl ⟨r, hr, rfl, rfl, rfl⟩
    · exact fun b hb p hp => .inl ⟨b, hb, hp⟩
    · exact fun d hd => .inl ((mem_of_circuit hcircuit id).mp hd)
  | removed id workspaceId => exact h.removeWebhook id workspaceId

theorem stored_of_run {now : Nat} {trace : List Event} {w : World}
    (hr : (machine env).run (World.empty now) trace = some w) : Stored w := by
  refine Machine.invariant_of_run ?_ (Stored.empty now) hr
  intro s e s' h hstep
  exact h.step (moved_of_step hstep)

/-! ### Chains -/

/-- The chain of a delivery keeps its event, and all its retries send one payload. -/
theorem message_of_chain (h : Stored w) (hchains : Chains env w) {o d : Delivery}
    (hchain : InChain w.history o d) :
    d.body.event = o.body.event ∧ (d = o ∨ d.body.data = retryPayload o.body) := by
  induction hchain with
  | original => exact ⟨rfl, .inl rfl⟩
  | @again d d' rowId success before logged begun parent ih =>
    obtain ⟨d₁, s, hlogged, hevent, hdata⟩ := h.children d' begun rowId parent
    obtain rfl := hchains.calls.rowOnce _ _ _ _ _ logged hlogged
    refine ⟨hevent.trans ih.1, .inr ?_⟩
    rcases ih.2 with rfl | hrepeated
    · exact hdata
    · have hne : d.body.data ≠ .null := by
        rw [hrepeated]
        exact retryPayload_ne_null o.body
      rw [hdata, retryPayload_of_ne hne, hrepeated]

/-- Every retry takes its payload from the text of the delivery that it repeats, and its event and
its payload are those of the first delivery of the chain exactly if that payload is not null. -/
theorem retries_repeat_iff (format : Format Text) (env : Environment) (now : Nat)
    (trace : List Event) (w : World)
    (hr : (machine env).run (World.empty now) trace = some w) (o d : Delivery)
    (hfirst : o.parentDeliveryId = none) (hchain : InChain w.history o d)
    (hretry : d.parentDeliveryId ≠ none) :
    (∃ d' rowId success, InChain w.history o d' ∧ .recorded rowId d' success ∈ w.history ∧
      d.parentDeliveryId = some rowId ∧ d.body.event = d'.body.event ∧
        ∀ text, format.print (envelope d'.body) = some text →
          d.body.data = storedPayload format text) ∧
      (d.body.event = o.body.event ∧ d.body.data = o.body.data ↔ o.body.data ≠ .null) := by
  have hstored := stored_of_run hr
  have hchains := chains_of_run hr
  constructor
  · cases hchain with
    | original => exact absurd hfirst hretry
    | @again d' _ rowId success before logged begun parent =>
      obtain ⟨d₁, s, hlogged, hevent, hdata⟩ := hstored.children d begun rowId parent
      obtain rfl := hchains.calls.rowOnce _ _ _ _ _ logged hlogged
      refine ⟨d', rowId, success, before, logged, parent, hevent, fun text htext => ?_⟩
      rw [storedPayload_print htext, hdata]
  · obtain ⟨hevent, hdata⟩ := message_of_chain hstored hchains hchain
    have hrepeated : d.body.data = retryPayload o.body := by
      rcases hdata with rfl | hdata
      · exact absurd hfirst hretry
      · exact hdata
    constructor
    · rintro ⟨-, hsame⟩
      rw [← hsame, hrepeated]
      exact retryPayload_ne_null o.body
    · intro hne
      exact ⟨hevent, hrepeated.trans (retryPayload_of_ne hne)⟩

/-! ### A delivery that is tried again -/

/-- A delivery that fails, and a retry that fails as well. -/
def tried (payload : Json) : List Event :=
  [.postWebhook hook 1, .fire "agent.error" payload 1, .finish 0 unavailable 5 30 [], .wait 60,
    .processRetries [1], .finish 0 unavailable 5 300 []]

/-- The call that sends a payload at a time, first or once more. -/
def triedCall (timestamp attempt : Nat) (payload : Json) : Delivery :=
  { seq := attempt
    webhookId := 1
    workspaceId := 1
    url := "https://example.com/hook"
    secret := none
    body := ⟨"agent.error", timestamp, payload⟩
    attempt := attempt
    parentDeliveryId := if attempt = 0 then none else some 1
    allowRetry := true }

theorem exists_tried (payload retried : Json)
    (h : ((machine twoAttempts).run (World.empty 0) (tried payload)).any (fun w =>
      decide (Entry.began (triedCall 0 0 payload) ∈ w.history ∧
        Entry.recorded 1 (triedCall 0 0 payload) false ∈ w.history ∧
          Entry.began (triedCall 60 1 retried) ∈ w.history)) = true) :
    ∃ w, (machine twoAttempts).run (World.empty 0) (tried payload) = some w ∧
      InChain w.history (triedCall 0 0 payload) (triedCall 60 1 retried) := by
  obtain ⟨w, hr, hentries⟩ := (Option.any_eq_true _ _).mp h
  obtain ⟨-, hlogged, hbegun⟩ := of_decide_eq_true hentries
  exact ⟨w, hr, .again .original hlogged hbegun rfl⟩

/-- A payload with a member of its own that is called data is repeated. -/
theorem retries_repeat_member :
    ∃ w, (machine twoAttempts).run (World.empty 0) (tried (.object [("data", .null)])) = some w ∧
      ∃ d, InChain w.history (triedCall 0 0 (.object [("data", .null)])) d ∧
        d.parentDeliveryId = some 1 ∧ d.body.event = "agent.error" ∧
          d.body.data = .object [("data", .null)] := by
  obtain ⟨w, hr, hchain⟩ := exists_tried (.object [("data", .null)])
    (.object [("data", .null)]) (by decide +kernel)
  have hsame := (retries_repeat_iff Format.plain twoAttempts 0 _ w hr _ _ rfl hchain
    (Option.some_ne_none 1)).2.mpr Json.noConfusion
  exact ⟨w, hr, _, hchain, rfl, hsame.1, hsame.2⟩

/-- A payload that is null is replaced by the whole value that was sent. -/
theorem null_payload_wrapped :
    ¬ ∀ (env : Environment) (now : Nat) (trace : List Event) (w : World) (o d : Delivery),
      (machine env).run (World.empty now) trace = some w → o.parentDeliveryId = none →
        InChain w.history o d → d.body.event = o.body.event ∧ d.body.data = o.body.data := by
  intro h
  obtain ⟨w, hr, hchain⟩ := exists_tried .null (envelope ⟨"agent.error", 0, .null⟩)
    (by decide +kernel)
  have hsame := (h twoAttempts 0 _ w _ _ hr rfl hchain).2
  cases hsame

end MissionControl.Webhooks.RetriedMessages
