import Mathlib.Data.List.Pairwise
import Mathlib.Data.List.Perm.Subperm
import MissionControl.Webhooks.DeliverySteps

/-!
Chains of retries. A row that is due is claimed by one batch, which delivers it once; its
delivery has the next attempt number, and so a chain of automatic attempts is no longer than
the number of retries allows.
-/

set_option autoImplicit false
set_option relaxedAutoImplicit false

namespace MissionControl.Webhooks.RetryChains

open MissionControl.Foundations.Lists
open MissionControl.Foundations.Schema (Json)
open MissionControl.Foundations.Transition (Machine)
open Deliveries DeliverySteps

variable {env : Environment} {w : World}

/-! ### Calls of `deliverWebhook` -/

/-- Calls are numbered, and each is logged in at most one row. -/
structure Calls (w : World) : Prop where
  began : ∀ d, .began d ∈ w.history → d.seq < w.nextSeq
  beganOnce : ∀ d d', .began d ∈ w.history → .began d' ∈ w.history → d.seq = d'.seq → d = d'
  flights : ∀ d ∈ w.inFlight, .began d ∈ w.history ∧
    ∀ id d' s, .recorded id d' s ∈ w.history → d'.seq ≠ d.seq
  flightsOnce : (w.inFlight.map (·.seq)).Nodup
  logged : ∀ id d s, .recorded id d s ∈ w.history → .began d ∈ w.history ∧ id < w.nextDeliveryId
  rowOnce : ∀ id d s d' s', .recorded id d s ∈ w.history → .recorded id d' s' ∈ w.history → d = d'
  callOnce : ∀ id d s id' s', .recorded id d s ∈ w.history → .recorded id' d s' ∈ w.history →
    id = id'

theorem Calls.empty (now : Nat) : Calls (World.empty now) := by
  constructor
  all_goals simp [World.empty]

/-- Rows, batches, webhooks and the clock do not count. -/
theorem Calls.congr {w w' : World} (h : Calls w) (hflight : w'.inFlight = w.inFlight)
    (hid : w'.nextDeliveryId = w.nextDeliveryId) (hseq : w'.nextSeq = w.nextSeq)
    (hhistory : w'.history = w.history) : Calls w' := by
  constructor
  · rw [hhistory, hseq]
    exact h.began
  · rw [hhistory]
    exact h.beganOnce
  · rw [hflight, hhistory]
    exact h.flights
  · rw [hflight]
    exact h.flightsOnce
  · rw [hhistory, hid]
    exact h.logged
  · rw [hhistory]
    exact h.rowOnce
  · rw [hhistory]
    exact h.callOnce

/-- An entry about the circuit. -/
def Entry.IsCircuit : Entry → Prop
  | .began _ => False
  | .recorded _ _ _ => False
  | _ => True

theorem mem_of_circuit {h entries : List Entry} (hcircuit : ∀ e ∈ entries, Entry.IsCircuit e)
    {e : Entry} (he : ¬ Entry.IsCircuit e) : e ∈ h ++ entries ↔ e ∈ h := by
  rw [List.mem_append]
  constructor
  · rintro (hmem | hmem)
    · exact hmem
    · exact absurd (hcircuit e hmem) he
  · exact .inl

theorem Calls.circuit (h : Calls w) {entries : List Entry}
    (hcircuit : ∀ e ∈ entries, Entry.IsCircuit e) :
    Calls { w with history := w.history ++ entries } := by
  have hbegan : ∀ d, Entry.began d ∈ w.history ++ entries ↔ .began d ∈ w.history :=
    fun d => mem_of_circuit hcircuit id
  have hrecorded : ∀ id d s, Entry.recorded id d s ∈ w.history ++ entries ↔
      .recorded id d s ∈ w.history :=
    fun _ d s => mem_of_circuit hcircuit id
  constructor
  all_goals simp only [hbegan, hrecorded]
  · exact h.began
  · exact h.beganOnce
  · exact h.flights
  · exact h.flightsOnce
  · exact h.logged
  · exact h.rowOnce
  · exact h.callOnce

theorem Calls.begin (h : Calls w) {d : Delivery} (hd : d.seq = w.nextSeq) :
    Calls (World.log { w with inFlight := w.inFlight ++ [d], nextSeq := w.nextSeq + 1 }
      (.began d)) := by
  have hfresh : ∀ d', .began d' ∈ w.history → d'.seq ≠ d.seq := by
    intro d' hd' heq
    have hlt := h.began d' hd'
    omega
  constructor
  · intro d' hd'
    simp only [World.mem_log, Entry.began.injEq] at hd'
    rcases hd' with hd' | rfl
    · exact Nat.lt_succ_of_lt (h.began d' hd')
    · rw [hd]
      exact Nat.lt_succ_self _
  · intro a b ha hb hab
    simp only [World.mem_log, Entry.began.injEq] at ha hb
    rcases ha with ha | rfl
    · rcases hb with hb | rfl
      · exact h.beganOnce a b ha hb hab
      · exact absurd hab (hfresh a ha)
    · rcases hb with hb | rfl
      · exact absurd hab.symm (hfresh b hb)
      · rfl
  · intro a ha
    simp only [World.mem_log, reduceCtorEq, or_false]
    rcases List.mem_append.mp ha with ha | ha
    · exact ⟨.inl (h.flights a ha).1, (h.flights a ha).2⟩
    · obtain rfl := List.mem_singleton.mp ha
      exact ⟨.inr rfl, fun id d' s hd' => hfresh d' (h.logged id d' s hd').1⟩
  · change ((w.inFlight ++ [d]).map (·.seq)).Nodup
    rw [List.map_append, List.nodup_append]
    refine ⟨h.flightsOnce, List.nodup_singleton _, ?_⟩
    intro n hn m hm
    obtain ⟨a, ha, rfl⟩ := List.mem_map.mp hn
    rw [List.mem_singleton.mp hm]
    exact hfresh a (h.flights a ha).1
  · intro id a s ha
    simp only [World.mem_log, reduceCtorEq, or_false] at ha ⊢
    exact ⟨.inl (h.logged id a s ha).1, (h.logged id a s ha).2⟩
  · simpa using h.rowOnce
  · simpa using h.callOnce

theorem Calls.landed (h : Calls w) (i : Nat) (d : Delivery) : Calls (landed w i d) := by
  have hsub : (w.inFlight.eraseIdx i).Sublist w.inFlight := List.eraseIdx_sublist w.inFlight i
  exact ⟨h.began, h.beganOnce, fun a ha => h.flights a (hsub.subset ha),
    h.flightsOnce.sublist (hsub.map _), h.logged, h.rowOnce, h.callOnce⟩

/-- The others in flight are other calls. -/
theorem seq_ne_of_landed (h : Calls w) {i : Nat} {d : Delivery} (hd : w.inFlight[i]? = some d) :
    ∀ a ∈ w.inFlight.eraseIdx i, a.seq ≠ d.seq := by
  obtain ⟨pre, post, hsplit, herase, -⟩ := split_at_index hd
  have hnodup := h.flightsOnce
  rw [hsplit, List.map_append, List.map_cons, List.nodup_middle, List.nodup_cons] at hnodup
  intro a ha heq
  rw [herase] at ha
  apply hnodup.1
  rw [← heq, ← List.map_append]
  exact List.mem_map_of_mem ha

theorem Calls.recordAttempt (h : Calls w) {d : Delivery} (hbegan : .began d ∈ w.history)
    (hnew : ∀ id d' s, .recorded id d' s ∈ w.history → d'.seq ≠ d.seq)
    (hothers : ∀ a ∈ w.inFlight, a.seq ≠ d.seq) (outcome : FetchOutcome) (durationMs : Nat) :
    Calls (recordAttempt w d outcome durationMs) := by
  constructor
  · simpa [Deliveries.recordAttempt] using h.began
  · simpa [Deliveries.recordAttempt] using h.beganOnce
  · intro a ha
    simp only [Deliveries.recordAttempt, World.mem_log, reduceCtorEq, or_false, Entry.recorded.injEq]
    refine ⟨(h.flights a ha).1, ?_⟩
    rintro id d' s (hd' | ⟨-, rfl, -⟩)
    · exact (h.flights a ha).2 id d' s hd'
    · exact (hothers a ha).symm
  · exact h.flightsOnce
  · intro id a s ha
    simp only [Deliveries.recordAttempt, World.mem_log, reduceCtorEq, or_false, Entry.recorded.injEq]
      at ha ⊢
    rcases ha with ha | ⟨rfl, rfl, rfl⟩
    · exact ⟨(h.logged id a s ha).1, Nat.lt_succ_of_lt (h.logged id a s ha).2⟩
    · exact ⟨hbegan, Nat.lt_succ_self _⟩
  · intro id a s b t ha hb
    simp only [Deliveries.recordAttempt, World.mem_log, Entry.recorded.injEq] at ha hb
    rcases ha with ha | ⟨rfl, rfl, rfl⟩
    · rcases hb with hb | ⟨rfl, rfl, rfl⟩
      · exact h.rowOnce id a s b t ha hb
      · exact absurd (h.logged _ _ _ ha).2 (Nat.lt_irrefl _)
    · rcases hb with hb | ⟨-, rfl, -⟩
      · exact absurd (h.logged _ _ _ hb).2 (Nat.lt_irrefl _)
      · rfl
  · intro id a s id' t ha hb
    simp only [Deliveries.recordAttempt, World.mem_log, Entry.recorded.injEq] at ha hb
    rcases ha with ha | ⟨rfl, rfl, rfl⟩
    · rcases hb with hb | ⟨rfl, rfl, rfl⟩
      · exact h.callOnce id a s id' t ha hb
      · exact absurd rfl (hnew id a s ha)
    · rcases hb with hb | ⟨rfl, -, -⟩
      · exact absurd rfl (hnew id' a t hb)
      · rfl

/-! ### Rows and what is logged of them -/

/-- An attempt whose failure schedules a retry. -/
def Retryable (env : Environment) (d : Delivery) : Prop :=
  d.allowRetry = true ∧ (d.attempt : Int) < maxRetries env - 1

/-- The row was logged for a call that may be retried. -/
def LoggedFor (env : Environment) (w : World) (id attempt : Nat) : Prop :=
  ∃ d s, .recorded id d s ∈ w.history ∧ d.attempt = attempt ∧ Retryable env d

/-- An automatic attempt is the first one, or the next one after that of the row. -/
def Follows (env : Environment) (w : World) (d : Delivery) : Prop :=
  (d.parentDeliveryId = none ∧ d.attempt = 0) ∨
    ∃ id a, d.parentDeliveryId = some id ∧ d.attempt = a + 1 ∧ LoggedFor env w id a

structure Rows (env : Environment) (w : World) : Prop where
  ids : Keyed (·.id) w.deliveries w.nextDeliveryId
  rows : ∀ r ∈ w.deliveries, (∃ d s, .recorded r.id d s ∈ w.history ∧ d.attempt = r.attempt) ∧
    (r.nextRetryAt ≠ none → LoggedFor env w r.id r.attempt)
  remaining : ∀ b ∈ w.batches, ∀ p ∈ b.remaining, LoggedFor env w p.id p.attempt
  children : ∀ d, .began d ∈ w.history → d.allowRetry = true → Follows env w d

theorem Rows.empty (now : Nat) : Rows env (World.empty now) :=
  ⟨⟨List.nodup_nil, fun _ h => absurd h List.not_mem_nil⟩, fun _ h => absurd h List.not_mem_nil,
    fun _ h => absurd h List.not_mem_nil, fun _ h => absurd h List.not_mem_nil⟩

theorem LoggedFor.mono {w w' : World} (hsub : ∀ e ∈ w.history, e ∈ w'.history) {id attempt : Nat}
    (h : LoggedFor env w id attempt) : LoggedFor env w' id attempt := by
  obtain ⟨d, s, hlogged, hattempt, hretryable⟩ := h
  exact ⟨d, s, hsub _ hlogged, hattempt, hretryable⟩

theorem Follows.mono {w w' : World} (hsub : ∀ e ∈ w.history, e ∈ w'.history) {d : Delivery}
    (h : Follows env w d) : Follows env w' d := by
  rcases h with hfirst | ⟨id, a, hparent, hattempt, hlogged⟩
  · exact .inl hfirst
  · exact .inr ⟨id, a, hparent, hattempt, hlogged.mono hsub⟩

/-- What is kept when the history grows: rows and batches may become fewer. -/
theorem Rows.grow {w w' : World} (h : Rows env w) (hsub : ∀ e ∈ w.history, e ∈ w'.history)
    (hids : Keyed (·.id) w'.deliveries w'.nextDeliveryId)
    (hrows : ∀ r ∈ w'.deliveries, ∃ r' ∈ w.deliveries, r'.id = r.id ∧ r'.attempt = r.attempt ∧
      (r.nextRetryAt ≠ none → r'.nextRetryAt ≠ none ∨ LoggedFor env w' r.id r.attempt))
    (hbatches : ∀ b ∈ w'.batches, ∀ p ∈ b.remaining, ∃ b' ∈ w.batches, p ∈ b'.remaining)
    (hbegan : ∀ d, .began d ∈ w'.history → d.allowRetry = true →
      .began d ∈ w.history ∨ Follows env w' d) : Rows env w' := by
  refine ⟨hids, ?_, ?_, ?_⟩
  · intro r hr
    obtain ⟨r', hr', hid, hattempt, hpending⟩ := hrows r hr
    obtain ⟨⟨d, s, hlogged, hd⟩, hretry⟩ := h.rows r' hr'
    rw [hid] at hlogged hretry
    rw [hattempt] at hd hretry
    refine ⟨⟨d, s, hsub _ hlogged, hd⟩, ?_⟩
    intro hset
    rcases hpending hset with hold | hnew
    · exact (hretry hold).mono hsub
    · exact hnew
  · intro b hb p hp
    obtain ⟨b', hb', hp'⟩ := hbatches b hb p hp
    exact (h.remaining b' hb' p hp').mono hsub
  · intro d hd hauto
    rcases hbegan d hd hauto with hold | hnew
    · exact (h.children d hold hauto).mono hsub
    · exact hnew

theorem Rows.begin (h : Rows env w) {d : Delivery}
    (hd : d.allowRetry = true → Follows env w d) :
    Rows env (World.log { w with inFlight := w.inFlight ++ [d], nextSeq := w.nextSeq + 1 }
      (.began d)) := by
  have hsub : ∀ e ∈ w.history, e ∈ w.history ++ [Entry.began d] :=
    fun e he => List.mem_append_left _ he
  refine h.grow hsub h.ids ?_ ?_ ?_
  · exact fun r hr => ⟨r, hr, rfl, rfl, fun hset => .inl hset⟩
  · exact fun b hb p hp => ⟨b, hb, hp⟩
  · intro a ha hauto
    simp only [World.mem_log, Entry.began.injEq] at ha
    rcases ha with ha | rfl
    · exact .inl ha
    · exact .inr ((hd hauto).mono hsub)

theorem Rows.landed (h : Rows env w) (i : Nat) (d : Delivery) : Rows env (landed w i d) := by
  refine h.grow (fun e he => he) h.ids ?_ ?_ ?_
  · exact fun r hr => ⟨r, hr, rfl, rfl, fun hset => .inl hset⟩
  · intro b hb p hp
    obtain ⟨b', hb', rfl⟩ := List.mem_map.mp hb
    refine ⟨b', hb', ?_⟩
    rw [Batch.wake] at hp
    split at hp <;> exact hp
  · exact fun a ha _ => .inl ha

theorem Rows.recordAttempt (h : Rows env w) (d : Delivery) (outcome : FetchOutcome)
    (durationMs : Nat) : Rows env (recordAttempt w d outcome durationMs) := by
  have hsub : ∀ e ∈ w.history, e ∈ (Deliveries.recordAttempt w d outcome durationMs).history :=
    fun e he => List.mem_append_left _ he
  refine ⟨h.ids.snoc rfl, ?_, ?_, ?_⟩
  · intro r hr
    rcases List.mem_append.mp hr with hr | hr
    · obtain ⟨⟨a, s, hlogged, hattempt⟩, hretry⟩ := h.rows r hr
      exact ⟨⟨a, s, hsub _ hlogged, hattempt⟩, fun hset => (hretry hset).mono hsub⟩
    · rw [List.mem_singleton.mp hr]
      refine ⟨⟨d, outcome.success, World.mem_log.mpr (.inr rfl), rfl⟩, ?_⟩
      intro hset
      exact absurd rfl hset
  · exact fun b hb p hp => (h.remaining b hb p hp).mono hsub
  · intro a ha hauto
    simp only [Deliveries.recordAttempt, World.mem_log, reduceCtorEq, or_false] at ha
    exact (h.children a ha hauto).mono hsub

theorem Rows.scheduleRetry (h : Rows env w) (hcalls : Calls w) {rowId : Nat} (nextRetryAt : Nat)
    {d : Delivery} {s : Bool} (hlogged : .recorded rowId d s ∈ w.history)
    (hretryable : Retryable env d) : Rows env (scheduleRetry w rowId nextRetryAt) := by
  have hids : Keyed (·.id) (Deliveries.scheduleRetry w rowId nextRetryAt).deliveries
      w.nextDeliveryId := by
    refine h.ids.map ?_
    intro r
    split <;> rfl
  refine h.grow (fun e he => he) hids ?_ ?_ ?_
  · intro r' hr'
    obtain ⟨r, hr, rfl⟩ := List.mem_map.mp hr'
    refine ⟨r, hr, ?_⟩
    by_cases hid : r.id = rowId
    · rw [if_pos hid]
      refine ⟨rfl, rfl, fun _ => .inr ?_⟩
      obtain ⟨⟨a, t, ha, hattempt⟩, -⟩ := h.rows r hr
      rw [hid] at ha
      obtain rfl := hcalls.rowOnce rowId a t d s ha hlogged
      exact ⟨a, s, hid.symm ▸ hlogged, hattempt, hretryable⟩
    · rw [if_neg hid]
      exact ⟨rfl, rfl, fun hset => .inl hset⟩
  · exact fun b hb p hp => ⟨b, hb, hp⟩
  · exact fun a ha _ => .inl ha

theorem Rows.circuit (h : Rows env w) {entries : List Entry}
    (hcircuit : ∀ e ∈ entries, Entry.IsCircuit e) :
    Rows env { w with history := w.history ++ entries } := by
  refine h.grow (fun e he => List.mem_append_left _ he) h.ids ?_ ?_ ?_
  · exact fun r hr => ⟨r, hr, rfl, rfl, fun hset => .inl hset⟩
  · exact fun b hb p hp => ⟨b, hb, hp⟩
  · exact fun a ha _ => .inl ((mem_of_circuit hcircuit id).mp ha)

theorem Rows.filterDeliveries (h : Rows env w) (keep : DeliveryRow → Bool) :
    Rows env { w with deliveries := w.deliveries.filter keep } := by
  refine h.grow (fun e he => he) (h.ids.filter keep) ?_ ?_ ?_
  · exact fun r hr => ⟨r, List.mem_of_mem_filter hr, rfl, rfl, fun hset => .inl hset⟩
  · exact fun b hb p hp => ⟨b, hb, hp⟩
  · exact fun a ha _ => .inl ha

theorem Rows.clearRetries (h : Rows env w) (picked : List Nat) : Rows env (clearRetries w picked) := by
  have hids : Keyed (·.id) (Deliveries.clearRetries w picked).deliveries w.nextDeliveryId := by
    refine h.ids.map ?_
    intro r
    split <;> rfl
  refine h.grow (fun e he => he) hids ?_ ?_ ?_
  · intro r' hr'
    obtain ⟨r, hr, rfl⟩ := List.mem_map.mp hr'
    refine ⟨r, hr, ?_⟩
    split
    · exact ⟨rfl, rfl, fun hset => absurd rfl hset⟩
    · exact ⟨rfl, rfl, fun hset => .inl hset⟩
  · exact fun b hb p hp => ⟨b, hb, hp⟩
  · exact fun a ha _ => .inl ha

/-! ### Claims -/

/-- The row that an automatic attempt repeats. -/
def automaticParent : Entry → Option Nat
  | .began d => if d.allowRetry then d.parentDeliveryId else none
  | _ => none

/-- The rows that have been delivered again automatically, once for each time. -/
def automaticParents (history : List Entry) : List Nat := history.filterMap automaticParent

/-- The rows that batches have claimed and not yet delivered. -/
def claimedIds (batches : List Batch) : List Nat :=
  batches.flatMap fun b => b.remaining.map (·.id)

/-- A row is pending, or claimed, or delivered again, and only one of these. -/
structure Claims (w : World) : Prop where
  once : (claimedIds w.batches).Nodup
  begunOnce : (automaticParents w.history).Nodup
  pending : ∀ r ∈ w.deliveries, r.nextRetryAt ≠ none →
    r.id ∉ claimedIds w.batches ∧ r.id ∉ automaticParents w.history
  claimed : ∀ id ∈ claimedIds w.batches, id ∉ automaticParents w.history

theorem Claims.empty (now : Nat) : Claims (World.empty now) :=
  ⟨List.nodup_nil, List.nodup_nil, fun _ h => absurd h List.not_mem_nil,
    fun _ h => absurd h List.not_mem_nil⟩

theorem automaticParents_append (front back : List Entry) :
    automaticParents (front ++ back) = automaticParents front ++ automaticParents back :=
  List.filterMap_append

theorem claimedIds_wake (seq : Nat) (batches : List Batch) :
    claimedIds (batches.map (Batch.wake seq)) = claimedIds batches := by
  rw [claimedIds, claimedIds, List.flatMap_map]
  congr 1
  funext b
  rw [Batch.wake]
  split <;> rfl

/-- Fewer pending rows, and no row begun or claimed. -/
theorem Claims.shrink {w w' : World} (h : Claims w)
    (hbatches : claimedIds w'.batches = claimedIds w.batches)
    (hhistory : automaticParents w'.history = automaticParents w.history)
    (hrows : ∀ r ∈ w'.deliveries, r.nextRetryAt ≠ none →
      ∃ r' ∈ w.deliveries, r'.id = r.id ∧ r'.nextRetryAt ≠ none) : Claims w' := by
  refine ⟨hbatches ▸ h.once, hhistory ▸ h.begunOnce, ?_, hbatches ▸ hhistory ▸ h.claimed⟩
  intro r hr hset
  obtain ⟨r', hr', hid, hset'⟩ := hrows r hr hset
  rw [hbatches, hhistory, ← hid]
  exact h.pending r' hr' hset'

theorem Claims.begin (h : Claims w) {d : Delivery} (hd : automaticParent (.began d) = none) :
    Claims (World.log { w with inFlight := w.inFlight ++ [d], nextSeq := w.nextSeq + 1 }
      (.began d)) := by
  refine h.shrink rfl ?_ fun r hr hset => ⟨r, hr, rfl, hset⟩
  rw [World.log, automaticParents_append]
  simp only [automaticParents, List.filterMap_cons, hd, List.filterMap_nil, List.append_nil]

theorem Claims.landed (h : Claims w) (i : Nat) (d : Delivery) : Claims (landed w i d) :=
  h.shrink (claimedIds_wake d.seq w.batches) rfl fun r hr hset => ⟨r, hr, rfl, hset⟩

theorem Claims.recordAttempt (h : Claims w) (d : Delivery) (outcome : FetchOutcome)
    (durationMs : Nat) : Claims (recordAttempt w d outcome durationMs) := by
  refine h.shrink rfl ?_ ?_
  · rw [Deliveries.recordAttempt, World.log, automaticParents_append]
    exact List.append_nil _
  · intro r hr hset
    rcases List.mem_append.mp hr with hr | hr
    · exact ⟨r, hr, rfl, hset⟩
    · rw [List.mem_singleton.mp hr] at hset
      exact absurd rfl hset

theorem automaticParents_circuit {entries : List Entry}
    (hcircuit : ∀ e ∈ entries, Entry.IsCircuit e) : automaticParents entries = [] := by
  rw [automaticParents, List.filterMap_eq_nil_iff]
  intro e he
  have hkind := hcircuit e he
  cases e with
  | began => exact absurd hkind id
  | _ => rfl

theorem Claims.circuit (h : Claims w) {entries : List Entry}
    (hcircuit : ∀ e ∈ entries, Entry.IsCircuit e) :
    Claims { w with history := w.history ++ entries } := by
  refine h.shrink rfl ?_ fun r hr hset => ⟨r, hr, rfl, hset⟩
  rw [automaticParents_append, automaticParents_circuit hcircuit, List.append_nil]

theorem Claims.filterDeliveries (h : Claims w) (keep : DeliveryRow → Bool) :
    Claims { w with deliveries := w.deliveries.filter keep } :=
  h.shrink rfl rfl fun r hr hset => ⟨r, List.mem_of_mem_filter hr, rfl, hset⟩

/-- A row that is neither claimed nor delivered again may become pending. -/
theorem Claims.scheduleRetry (h : Claims w) {rowId : Nat} (nextRetryAt : Nat)
    (hclaimed : rowId ∉ claimedIds w.batches) (hbegun : rowId ∉ automaticParents w.history) :
    Claims (scheduleRetry w rowId nextRetryAt) := by
  refine ⟨h.once, h.begunOnce, ?_, h.claimed⟩
  intro r' hr' hset
  obtain ⟨r, hr, rfl⟩ := List.mem_map.mp hr'
  by_cases hid : r.id = rowId
  · rw [if_pos hid]
    exact ⟨hid ▸ hclaimed, hid ▸ hbegun⟩
  · rw [if_neg hid] at hset ⊢
    exact h.pending r hr hset

/-- The number that the next row gets has not been used. -/
theorem next_unused (hcalls : Calls w) (hrows : Rows env w) :
    w.nextDeliveryId ∉ claimedIds w.batches ∧ w.nextDeliveryId ∉ automaticParents w.history := by
  constructor
  · intro hmem
    obtain ⟨b, hb, hp⟩ := List.mem_flatMap.mp hmem
    obtain ⟨p, hp, hid⟩ := List.mem_map.mp hp
    obtain ⟨d, s, hlogged, -, -⟩ := hrows.remaining b hb p hp
    have hlt := (hcalls.logged p.id d s hlogged).2
    omega
  · intro hmem
    obtain ⟨e, he, hparent⟩ := List.mem_filterMap.mp hmem
    cases e with
    | began d =>
      rw [automaticParent] at hparent
      split at hparent
      · rename_i hauto
        rcases hrows.children d he hauto with ⟨hnone, -⟩ | ⟨id, a, hsome, -, d', s, hlogged, -⟩
        · rw [hnone] at hparent
          cases hparent
        · rw [hsome] at hparent
          obtain rfl := Option.some.inj hparent
          have hlt := (hcalls.logged _ d' s hlogged).2
          omega
      · cases hparent
    | _ => cases hparent

/-! ### Batches -/

/-- An automatic attempt that repeats a row, and what is left of the claimed rows. -/
theorem Claims.deliver {w w' : World} (hclaimed : (claimedIds w'.batches).Nodup)
    (hbegunOnce : (automaticParents w.history).Nodup) {id : Nat}
    (hparents : automaticParents w'.history = automaticParents w.history ++ [id])
    (hid : id ∉ automaticParents w.history) (hidClaimed : id ∉ claimedIds w'.batches)
    (hpending : ∀ r ∈ w'.deliveries, r.nextRetryAt ≠ none → r.id ≠ id ∧
      r.id ∉ claimedIds w'.batches ∧ r.id ∉ automaticParents w.history)
    (hfree : ∀ i ∈ claimedIds w'.batches, i ∉ automaticParents w.history) : Claims w' := by
  refine ⟨hclaimed, ?_, ?_, ?_⟩
  · rw [hparents, List.nodup_append]
    refine ⟨hbegunOnce, List.nodup_singleton id, ?_⟩
    intro a ha b hb heq
    rw [List.mem_singleton.mp hb] at heq
    exact hid (heq ▸ ha)
  · intro r hr hset
    obtain ⟨hne, hunclaimed, hunbegun⟩ := hpending r hr hset
    refine ⟨hunclaimed, ?_⟩
    rw [hparents, List.mem_append, List.mem_singleton]
    exact not_or.mpr ⟨hunbegun, hne⟩
  · intro i hi
    rw [hparents, List.mem_append, List.mem_singleton]
    refine not_or.mpr ⟨hfree i hi, ?_⟩
    rintro rfl
    exact hidClaimed hi

theorem automaticParents_began {d : Delivery} {id : Nat} (hauto : d.allowRetry = true)
    (hparent : d.parentDeliveryId = some id) (history : List Entry) :
    automaticParents (history ++ [.began d]) = automaticParents history ++ [id] := by
  rw [automaticParents_append]
  congr 1
  simp only [automaticParents, List.filterMap_cons, automaticParent, hauto, if_true, hparent,
    List.filterMap_nil]

theorem Claims.claim (h : Claims w) {rows : List DeliveryRow} {row : PendingRetry} {rest : List PendingRetry}
    (hmembers : ∀ r ∈ rows, r ∈ w.deliveries) (hpicks : Picks w rows)
    (hjoined : rows.filterMap (pendingRetry w) = row :: rest) :
    Claims { retryRow (clearRetries w (rows.map (·.id))) row with
      batches := w.batches ++ [⟨some w.nextSeq, rest⟩] } := by
  obtain ⟨hnodup, hdue, -⟩ := hpicks
  have hjoinedIds := joined_ids hdue
  rw [hjoined, List.map_cons] at hjoinedIds
  have hsplit : row.id ∉ rest.map (·.id) ∧ (rest.map (·.id)).Nodup := by
    rw [← hjoinedIds, List.nodup_cons] at hnodup
    exact hnodup
  have hfree : ∀ id ∈ rows.map (·.id),
      id ∉ claimedIds w.batches ∧ id ∉ automaticParents w.history := by
    intro id hid
    obtain ⟨r, hr, rfl⟩ := List.mem_map.mp hid
    exact h.pending r (hmembers r hr) (pending_of_due (hdue r hr))
  have hrow : row.id ∈ rows.map (·.id) := hjoinedIds ▸ List.mem_cons_self
  have hrest : ∀ id ∈ rest.map (·.id), id ∈ rows.map (·.id) :=
    fun id hid => hjoinedIds ▸ List.mem_cons_of_mem _ hid
  have hbatches : claimedIds (w.batches ++ [⟨some w.nextSeq, rest⟩]) =
      claimedIds w.batches ++ rest.map (·.id) := by
    simp only [claimedIds, List.flatMap_append, List.flatMap_cons, List.flatMap_nil,
      List.append_nil]
  obtain ⟨d, -, -, -, -, hparent, hauto, heq⟩ :=
    retryRow_eq (w := clearRetries w (rows.map (·.id))) row
  rw [heq]
  refine Claims.deliver (w := w) ?_ h.begunOnce (automaticParents_began hauto hparent w.history)
    (hfree row.id hrow).2 ?_ ?_ ?_
  · rw [hbatches, List.nodup_append]
    refine ⟨h.once, hsplit.2, ?_⟩
    intro a ha b hb hab
    exact (hfree b (hrest b hb)).1 (hab ▸ ha)
  · rw [hbatches, List.mem_append]
    exact not_or.mpr ⟨(hfree row.id hrow).1, hsplit.1⟩
  · intro r' hr' hset
    obtain ⟨r, hr, rfl⟩ := List.mem_map.mp hr'
    by_cases hpicked : r.id ∈ rows.map (·.id)
    · rw [if_pos hpicked] at hset
      exact absurd rfl hset
    · rw [if_neg hpicked] at hset ⊢
      obtain ⟨hunclaimed, hunbegun⟩ := h.pending r hr hset
      refine ⟨?_, ?_, hunbegun⟩
      · intro heq
        exact hpicked (heq ▸ hrow)
      · rw [hbatches, List.mem_append]
        exact not_or.mpr ⟨hunclaimed, fun hmem => hpicked (hrest _ hmem)⟩
  · intro id hid
    rw [hbatches, List.mem_append] at hid
    rcases hid with hold | hnew
    · exact h.claimed id hold
    · exact (hfree id (hrest id hnew)).2

theorem Claims.continued (h : Claims w) {i : Nat} {row : PendingRetry} {rest : List PendingRetry}
    (hbatch : w.batches[i]? = some ⟨none, row :: rest⟩) :
    Claims { retryRow w row with batches := w.batches.set i ⟨some w.nextSeq, rest⟩ } := by
  obtain ⟨pre, post, hsplit, -, hset⟩ := split_at_index hbatch
  have hold : claimedIds w.batches =
      claimedIds pre ++ row.id :: (rest.map (·.id) ++ claimedIds post) := by
    rw [hsplit]
    simp only [claimedIds, List.flatMap_append, List.flatMap_cons, List.map_cons, List.cons_append]
  have hnew : claimedIds (w.batches.set i ⟨some w.nextSeq, rest⟩) =
      claimedIds pre ++ (rest.map (·.id) ++ claimedIds post) := by
    rw [hset]
    simp only [claimedIds, List.flatMap_append, List.flatMap_cons]
  have honce := h.once
  rw [hold, List.nodup_middle, List.nodup_cons] at honce
  have hsub : ∀ id ∈ claimedIds (w.batches.set i ⟨some w.nextSeq, rest⟩),
      id ∈ claimedIds w.batches := by
    intro id hid
    rw [hnew, List.mem_append] at hid
    rw [hold, List.mem_append, List.mem_cons]
    rcases hid with hid | hid
    · exact .inl hid
    · exact .inr (.inr hid)
  have hrow : row.id ∈ claimedIds w.batches := by
    rw [hold, List.mem_append, List.mem_cons]
    exact .inr (.inl rfl)
  obtain ⟨d, -, -, -, -, hparent, hauto, heq⟩ := retryRow_eq (w := w) row
  rw [heq]
  refine Claims.deliver (w := w) ?_ h.begunOnce (automaticParents_began hauto hparent w.history)
    (h.claimed row.id hrow) ?_ ?_ ?_
  · rw [hnew]
    exact honce.2
  · rw [hnew]
    exact honce.1
  · intro r hr hset
    obtain ⟨hunclaimed, hunbegun⟩ := h.pending r hr hset
    refine ⟨?_, fun hmem => hunclaimed (hsub _ hmem), hunbegun⟩
    intro heq
    exact hunclaimed (heq ▸ hrow)
  · exact fun id hid => h.claimed id (hsub id hid)

theorem Claims.ended (h : Claims w) {i : Nat} (hbatch : w.batches[i]? = some ⟨none, []⟩) :
    Claims { w with batches := w.batches.eraseIdx i } := by
  obtain ⟨pre, post, hsplit, herase, -⟩ := split_at_index hbatch
  refine h.shrink ?_ rfl fun r hr hset => ⟨r, hr, rfl, hset⟩
  rw [herase, hsplit]
  simp only [claimedIds, List.flatMap_append, List.flatMap_cons, List.map_nil, List.nil_append]

theorem Rows.deliver (h : Rows env w) {row : PendingRetry} {batches : List Batch}
    (hrow : LoggedFor env w row.id row.attempt)
    (hbatches : ∀ b ∈ batches, ∀ p ∈ b.remaining, LoggedFor env w p.id p.attempt) :
    Rows env { retryRow w row with batches := batches } := by
  obtain ⟨d, -, -, -, hattempt, hparent, -, heq⟩ := retryRow_eq (w := w) row
  have hbegun := h.begin (d := d) fun _ => .inr ⟨row.id, row.attempt, hparent, hattempt, hrow⟩
  rw [heq]
  refine ⟨hbegun.ids, hbegun.rows, ?_, hbegun.children⟩
  intro b hb p hp
  exact (hbatches b hb p hp).mono fun e he => List.mem_append_left _ he

theorem Calls.deliver (h : Calls w) (row : PendingRetry) (batches : List Batch) :
    Calls { retryRow w row with batches := batches } := by
  obtain ⟨d, hseq, -, -, -, -, -, heq⟩ := retryRow_eq (w := w) row
  have hbegun := h.begin hseq
  rw [heq]
  exact hbegun.congr rfl rfl rfl rfl

/-! ### All of it, along a run -/

structure Chains (env : Environment) (w : World) : Prop where
  calls : Calls w
  rows : Rows env w
  claims : Claims w

theorem Chains.empty (now : Nat) : Chains env (World.empty now) :=
  ⟨.empty now, .empty now, .empty now⟩

/-- Webhooks and the clock do not count. -/
theorem Chains.congr {w w' : World} (h : Chains env w) (hdeliveries : w'.deliveries = w.deliveries)
    (hflight : w'.inFlight = w.inFlight) (hbatches : w'.batches = w.batches)
    (hid : w'.nextDeliveryId = w.nextDeliveryId) (hseq : w'.nextSeq = w.nextSeq)
    (hhistory : w'.history = w.history) : Chains env w' := by
  cases w'
  subst hdeliveries hflight hbatches hid hseq hhistory
  obtain ⟨⟨⟩, ⟨⟩, ⟨⟩⟩ := h
  constructor
  all_goals constructor <;> assumption

theorem Chains.updateWebhook (h : Chains env w) (id workspaceId : Nat) (f : Webhook → Webhook) :
    Chains env (w.updateWebhook id workspaceId f) :=
  h.congr rfl rfl rfl rfl rfl rfl

theorem Chains.circuit (h : Chains env w) {entries : List Entry}
    (hcircuit : ∀ e ∈ entries, Entry.IsCircuit e) :
    Chains env { w with history := w.history ++ entries } :=
  ⟨h.calls.circuit hcircuit, h.rows.circuit hcircuit, h.claims.circuit hcircuit⟩

theorem Chains.filterDeliveries (h : Chains env w) (keep : DeliveryRow → Bool) :
    Chains env { w with deliveries := w.deliveries.filter keep } :=
  ⟨h.calls.congr rfl rfl rfl rfl, h.rows.filterDeliveries keep, h.claims.filterDeliveries keep⟩

theorem Chains.begin (h : Chains env w) (webhookId workspaceId : Nat) (url : String)
    (secret : Option String) (eventType : String) (payload : Json) {opts : DeliverOpts}
    (hopts : opts.allowRetry = true → opts.parentDeliveryId = none ∧ opts.attempt = 0) :
    Chains env (beginDelivery w webhookId workspaceId url secret eventType payload opts) := by
  obtain ⟨d, hseq, -, -, hattempt, hparent, hallow, heq⟩ :=
    beginDelivery_eq (w := w) webhookId workspaceId url secret eventType payload opts
  rw [heq]
  refine ⟨h.calls.begin hseq, h.rows.begin ?_, h.claims.begin ?_⟩
  · intro hauto
    rw [hallow] at hauto
    exact .inl ⟨hparent.trans (hopts hauto).1, hattempt.trans (hopts hauto).2⟩
  · rw [automaticParent]
    split
    · rename_i hauto
      rw [hallow] at hauto
      exact hparent.trans (hopts hauto).1
    · rfl

theorem Chains.tripBreaker (h : Chains env w) (d : Delivery) : Chains env (tripBreaker env w d) := by
  rw [Deliveries.tripBreaker]
  split
  · exact h
  · split
    · refine (h.updateWebhook d.webhookId d.workspaceId _).circuit ?_
      intro e he
      rw [List.mem_singleton.mp he]
      trivial
    · exact h

theorem Chains.noteOutcome (h : Chains env w) {d : Delivery} {success : Bool} {rowId : Nat}
    (delay : Nat) (hauto : d.allowRetry = true) (hlogged : .recorded rowId d success ∈ w.history)
    (hclaimed : rowId ∉ claimedIds w.batches) (hbegun : rowId ∉ automaticParents w.history) :
    Chains env (noteOutcome env w d success rowId delay) := by
  rw [Deliveries.noteOutcome]
  split
  · exact h.updateWebhook ..
  · have hcounted := h.updateWebhook d.webhookId d.workspaceId fun wh =>
      { wh with consecutiveFailures := wh.consecutiveFailures + 1 }
    dsimp only
    split
    · rename_i hattempt
      have hrows := hcounted.rows.scheduleRetry hcounted.calls (w.now + delay) hlogged
        ⟨hauto, hattempt⟩
      have hclaims := hcounted.claims.scheduleRetry (w.now + delay) hclaimed hbegun
      exact ⟨h.calls.congr rfl rfl rfl rfl, hrows, hclaims⟩
    · exact hcounted.tripBreaker d

theorem Chains.landed (h : Chains env w) (i : Nat) (d : Delivery) : Chains env (landed w i d) :=
  ⟨h.calls.landed i d, h.rows.landed i d, h.claims.landed i d⟩

theorem Chains.attempted (h : Chains env w) {i : Nat} {d : Delivery}
    (hflight : w.inFlight[i]? = some d) (outcome : FetchOutcome) (durationMs delay : Nat) :
    Chains env (attempted env (DeliverySteps.landed w i d) d outcome durationMs delay) := by
  have hlanded := h.landed i d
  obtain ⟨hbegan, hnew⟩ := h.calls.flights d (List.mem_of_getElem? hflight)
  have hcalls := hlanded.calls.recordAttempt hbegan hnew (seq_ne_of_landed h.calls hflight) outcome
    durationMs
  have hlogged : Chains env
      (noteFired (recordAttempt (DeliverySteps.landed w i d) d outcome durationMs) d outcome) :=
    Chains.updateWebhook ⟨hcalls, hlanded.rows.recordAttempt d outcome durationMs,
      hlanded.claims.recordAttempt d outcome durationMs⟩ ..
  obtain ⟨hclaimed, hbegun⟩ := next_unused hlanded.calls hlanded.rows
  rw [DeliverySteps.attempted]
  split
  · rename_i hauto
    refine hlogged.noteOutcome delay hauto (World.mem_log.mpr (.inr rfl)) hclaimed ?_
    change w.nextDeliveryId ∉ automaticParents (w.history ++ [_])
    rw [automaticParents_append]
    exact (List.append_nil _).symm ▸ hbegun
  · exact hlogged

theorem Chains.removeWebhook (h : Chains env w) (id workspaceId : Nat) :
    Chains env (removeWebhook w id workspaceId) := by
  have hfewer := h.filterDeliveries fun r => ¬ (r.webhookId = id ∧ r.workspaceId = workspaceId)
  rw [Deliveries.removeWebhook]
  dsimp only
  split
  · exact (hfewer.filterDeliveries fun r => r.webhookId ≠ id).congr rfl rfl rfl rfl rfl rfl
  · exact hfewer

theorem Chains.claim (h : Chains env w) {rows : List DeliveryRow} {row : PendingRetry}
    {rest : List PendingRetry} (hmembers : ∀ r ∈ rows, r ∈ w.deliveries) (hpicks : Picks w rows)
    (hjoined : rows.filterMap (pendingRetry w) = row :: rest) :
    Chains env { retryRow (clearRetries w (rows.map (·.id))) row with
      batches := w.batches ++ [⟨some w.nextSeq, rest⟩] } := by
  have hlogged : ∀ p ∈ row :: rest, LoggedFor env w p.id p.attempt := by
    intro p hp
    rw [← hjoined] at hp
    obtain ⟨r, hr, hid, hattempt, -⟩ := mem_joined hpicks.2.1 hp
    rw [hid, hattempt]
    exact (h.rows.rows r (hmembers r hr)).2 (pending_of_due (hpicks.2.1 r hr))
  have hcleared : Calls (clearRetries w (rows.map (·.id))) := h.calls.congr rfl rfl rfl rfl
  refine ⟨hcleared.deliver row _, ?_, h.claims.claim hmembers hpicks hjoined⟩
  refine (h.rows.clearRetries (rows.map (·.id))).deliver (hlogged row List.mem_cons_self) ?_
  intro b hb p hp
  rcases List.mem_append.mp hb with hb | hb
  · exact h.rows.remaining b hb p hp
  · rw [List.mem_singleton.mp hb] at hp
    exact hlogged p (List.mem_cons_of_mem row hp)

theorem Chains.continued (h : Chains env w) {i : Nat} {row : PendingRetry}
    {rest : List PendingRetry} (hbatch : w.batches[i]? = some ⟨none, row :: rest⟩) :
    Chains env { retryRow w row with batches := w.batches.set i ⟨some w.nextSeq, rest⟩ } := by
  have hlogged := h.rows.remaining _ (List.mem_of_getElem? hbatch)
  refine ⟨h.calls.deliver row _, h.rows.deliver (hlogged row List.mem_cons_self) ?_,
    h.claims.continued hbatch⟩
  intro b hb p hp
  rcases List.mem_or_eq_of_mem_set hb with hb | rfl
  · exact h.rows.remaining b hb p hp
  · exact hlogged p (List.mem_cons_of_mem row hp)

theorem Chains.ended (h : Chains env w) {i : Nat} (hbatch : w.batches[i]? = some ⟨none, []⟩) :
    Chains env { w with batches := w.batches.eraseIdx i } := by
  refine ⟨h.calls.congr rfl rfl rfl rfl, ?_, h.claims.ended hbatch⟩
  refine ⟨h.rows.ids, h.rows.rows, ?_, h.rows.children⟩
  intro b hb
  exact h.rows.remaining b (List.mem_of_mem_eraseIdx hb)

theorem WebhookUpdate.entries_circuit (body : WebhookUpdate) :
    ∀ e ∈ body.entries, Entry.IsCircuit e := by
  intro e he
  rw [Deliveries.WebhookUpdate.entries] at he
  rcases List.mem_append.mp he with he | he
  · split at he
    · rw [List.mem_singleton.mp he]
      trivial
    · cases he
  · split at he
    · rw [List.mem_singleton.mp he]
      trivial
    · cases he

/-- The step lemma. -/
theorem Chains.step (h : Chains env w) {e : Event} {w' : World} (hmoved : Moved env w e w') :
    Chains env w' := by
  cases hmoved with
  | kept => exact h
  | waited => exact h.congr rfl rfl rfl rfl rfl rfl
  | fired eventType payload workspaceId =>
    rw [fireWebhooks]
    refine fold_begin h ?_
    intro w wh _ hw
    exact hw.begin _ _ _ _ _ _ fun _ => ⟨rfl, rfl⟩
  | dropped i outcome durationMs delay kept d flight gone => exact h.landed i d
  | finished i outcome durationMs delay kept d w' flight found pruned =>
    obtain ⟨keep, rfl, -⟩ := pruneDeliveries_eq_some pruned
    exact (h.attempted flight outcome durationMs delay).filterDeliveries keep
  | claimed picked rows row rest ids members picks joined =>
    subst ids
    exact h.claim members picks joined
  | ended i batch => exact h.ended batch
  | continued i row rest batch => exact h.continued batch
  | manual e wh eventType payload opts webhook once repeated =>
    refine h.begin _ _ _ _ _ _ ?_
    intro hauto
    rw [once] at hauto
    cases hauto
  | posted => exact h.congr rfl rfl rfl rfl rfl rfl
  | put body workspaceId found =>
    exact (h.updateWebhook body.id workspaceId body.apply).circuit
      (WebhookUpdate.entries_circuit body)
  | removed id workspaceId => exact h.removeWebhook id workspaceId

theorem chains_of_run {now : Nat} {trace : List Event} {w : World}
    (hr : (machine env).run (World.empty now) trace = some w) : Chains env w := by
  refine Machine.invariant_of_run ?_ (Chains.empty now) hr
  intro s e s' h hstep
  exact h.step (moved_of_step hstep)

/-! ### The chain of one event delivery -/

/-- The chain of a delivery: itself, and what repeats a row that is logged for the chain. -/
inductive InChain (history : List Entry) (o : Delivery) : Delivery → Prop where
  | original : InChain history o o
  | again {d d' : Delivery} {rowId : Nat} {success : Bool} (before : InChain history o d)
      (logged : .recorded rowId d success ∈ history) (begun : .began d' ∈ history)
      (parent : d'.parentDeliveryId = some rowId) : InChain history o d'

/-- An automatic attempt after the first repeats the row of an automatic attempt. -/
theorem automatic_again (h : Chains env w) {d d' : Delivery} {rowId : Nat} {success : Bool}
    (hlogged : .recorded rowId d success ∈ w.history) (hbegun : .began d' ∈ w.history)
    (hparent : d'.parentDeliveryId = some rowId) (hauto : d'.allowRetry = true) :
    Retryable env d ∧ d'.attempt = d.attempt + 1 := by
  rcases h.rows.children d' hbegun hauto with ⟨hnone, -⟩ | ⟨id, a, hsome, hattempt, hrow⟩
  · rw [hparent] at hnone
    cases hnone
  · rw [hparent] at hsome
    obtain rfl := Option.some.inj hsome
    obtain ⟨d₁, s, hlogged₁, rfl, hretryable⟩ := hrow
    obtain rfl := h.calls.rowOnce _ _ _ _ _ hlogged hlogged₁
    exact ⟨hretryable, hattempt⟩

theorem attempt_of_original (h : Chains env w) {o : Delivery} (ho : .began o ∈ w.history)
    (hnone : o.parentDeliveryId = none) (hauto : o.allowRetry = true) : o.attempt = 0 := by
  rcases h.rows.children o ho hauto with ⟨-, hzero⟩ | ⟨id, a, hsome, -⟩
  · exact hzero
  · rw [hnone] at hsome
    cases hsome

theorem attempt_lt_maxRetries (h : Chains env w) (hmax : 1 ≤ maxRetries env) {o d : Delivery}
    (ho : .began o ∈ w.history) (hnone : o.parentDeliveryId = none)
    (hchain : InChain w.history o d) (hauto : d.allowRetry = true) :
    (d.attempt : Int) < maxRetries env := by
  cases hchain with
  | original =>
    rw [attempt_of_original h ho hnone hauto]
    omega
  | again before logged begun parent =>
    obtain ⟨⟨-, hlt⟩, hattempt⟩ := automatic_again h logged begun parent hauto
    omega

theorem eq_of_automaticParent {history : List Entry} (h : (automaticParents history).Nodup)
    {e e' : Entry} {id : Nat} (he : e ∈ history) (he' : e' ∈ history)
    (hparent : automaticParent e = some id) (hparent' : automaticParent e' = some id) : e = e' := by
  by_contra hne
  have hpairwise := List.pairwise_filterMap.mp h
  have hsymmetric : Std.Symm fun e e' : Entry =>
      ∀ a, automaticParent e = some a → ∀ b, automaticParent e' = some b → a ≠ b :=
    ⟨fun _ _ hdiffer a ha b hb => (hdiffer b hb a ha).symm⟩
  exact hpairwise.forall he he' hne id hparent id hparent' rfl

/-- Within a chain, the attempt number determines the automatic attempt. -/
theorem eq_of_attempt (h : Chains env w) {o : Delivery} (ho : .began o ∈ w.history)
    (hnone : o.parentDeliveryId = none) (n : Nat) :
    ∀ d d', InChain w.history o d → InChain w.history o d' → d.allowRetry = true →
      d'.allowRetry = true → d.attempt = n → d'.attempt = n → d = d' := by
  induction n with
  | zero =>
    have hfirst : ∀ d, InChain w.history o d → d.allowRetry = true → d.attempt = 0 → d = o := by
      intro d hd hauto hzero
      cases hd with
      | original => rfl
      | again before logged begun parent =>
        have hattempt := (automatic_again h logged begun parent hauto).2
        omega
    intro d d' hd hd' hauto hauto' hzero hzero'
    rw [hfirst d hd hauto hzero, hfirst d' hd' hauto' hzero']
  | succ n ih =>
    intro d d' hd hd' hauto hauto' hsucc hsucc'
    cases hd with
    | original =>
      have hzero := attempt_of_original h ho hnone hauto
      omega
    | again before logged begun parent =>
      cases hd' with
      | original =>
        have hzero := attempt_of_original h ho hnone hauto'
        omega
      | again before' logged' begun' parent' =>
        obtain ⟨⟨hallow, -⟩, hattempt⟩ := automatic_again h logged begun parent hauto
        obtain ⟨⟨hallow', -⟩, hattempt'⟩ := automatic_again h logged' begun' parent' hauto'
        obtain rfl := ih _ _ before before' hallow hallow' (by omega) (by omega)
        obtain rfl := h.calls.callOnce _ _ _ _ _ logged logged'
        have hentry : Entry.began d = .began d' := by
          have hparent : automaticParent (.began d) = _ := if_pos hauto
          have hparent' : automaticParent (.began d') = _ := if_pos hauto'
          exact eq_of_automaticParent h.claims.begunOnce begun begun' (hparent.trans parent)
            (hparent'.trans parent')
        exact Entry.began.inj hentry

/-- In every history, a row is delivered again automatically at most once, with the next attempt
number, and a chain has at most as many automatic attempts as there are retries. -/
theorem retries_bounded (env : Environment) (hmax : 1 ≤ maxRetries env) (now : Nat)
    (trace : List Event) (w : World)
    (hr : (machine env).run (World.empty now) trace = some w) :
    (automaticParents w.history).Nodup ∧
    (∀ d p, .began d ∈ w.history → d.allowRetry = true → d.parentDeliveryId = some p →
      ∃ d' success, .recorded p d' success ∈ w.history ∧ d.attempt = d'.attempt + 1) ∧
    ∀ o, .began o ∈ w.history → o.parentDeliveryId = none → ∀ ds : List Delivery, ds.Nodup →
      (∀ d ∈ ds, InChain w.history o d ∧ d.allowRetry = true) →
        (ds.length : Int) ≤ maxRetries env := by
  have h := chains_of_run hr
  refine ⟨h.claims.begunOnce, ?_, ?_⟩
  · intro d p hd hauto hparent
    rcases h.rows.children d hd hauto with ⟨hnone, -⟩ | ⟨id, a, hsome, hattempt, hrow⟩
    · rw [hparent] at hnone
      cases hnone
    · rw [hparent] at hsome
      obtain rfl := Option.some.inj hsome
      obtain ⟨d', s, hlogged, rfl, -⟩ := hrow
      exact ⟨d', s, hlogged, hattempt⟩
  · intro o ho hnone ds hdistinct hds
    have hattempts : (ds.map (·.attempt)).Nodup := by
      refine hdistinct.map_on ?_
      intro d hd d' hd' heq
      exact eq_of_attempt h ho hnone d'.attempt d d' (hds d hd).1 (hds d' hd').1 (hds d hd).2
        (hds d' hd').2 heq rfl
    have hbelow : ds.map (·.attempt) ⊆ List.range (maxRetries env).toNat := by
      intro a ha
      obtain ⟨d, hd, rfl⟩ := List.mem_map.mp ha
      have hlt := attempt_lt_maxRetries h hmax ho hnone (hds d hd).1 (hds d hd).2
      rw [List.mem_range]
      omega
    have hlength := (hattempts.subperm hbelow).length_le
    rw [List.length_map, List.length_range] at hlength
    omega

theorem one_retry_bounded :
    ∃ w, (machine twoAttempts).run (World.empty 0) oneRetry = some w ∧
      automaticParents w.history = [1] ∧ (automaticParents w.history).Nodup := by
  have hreached : ((machine twoAttempts).run (World.empty 0) oneRetry).any
      (fun w => automaticParents w.history = [1]) = true := by
    decide +kernel
  obtain ⟨w, hr, hparents⟩ := (Option.any_eq_true _ _).mp hreached
  exact ⟨w, hr, of_decide_eq_true hparents,
    (retries_bounded twoAttempts (by decide +kernel) 0 oneRetry w hr).1⟩

end MissionControl.Webhooks.RetryChains
