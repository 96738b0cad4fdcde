import MissionControl.Foundations.Lists
import MissionControl.Notifications.Delivery

/-!
Deliveries that overlap. A batch is selected long before its last notification is marked, so that
a second call can select what the first one is about to send.
-/

set_option autoImplicit false
set_option relaxedAutoImplicit false

namespace MissionControl.Notifications.SentOnce

open MissionControl.Foundations.JsText
open MissionControl.Foundations.Lists
open MissionControl.Foundations.Query
open MissionControl.Foundations.Transition (Machine)
open MissionControl.Events.Stores
open Delivery

/-- Every notification is sent at most once, and is marked exactly when it was sent. -/
def AtMostOnce (s : State) : Prop :=
  s.sent.Nodup ∧ ∀ n ∈ s.world.notifications, n.deliveredAt.isSome = true ↔ n.id ∈ s.sent

variable {toLocaleString : Nat → String} {order : OrderBy Older}

/-- A call selects nothing that a call under way has still to send. -/
def Separate (order : OrderBy Older) (s : State) : Event → Prop
  | .call request =>
    ∀ target ∈ targets request (undeliveredNotifications order s.world request),
      target ∉ s.targets
  | _ => True

instance decidableSeparate (order : OrderBy Older) (s : State) :
    ∀ e : Event, Decidable (Separate order s e)
  | .call request => inferInstanceAs (Decidable (∀ target ∈
      targets request (undeliveredNotifications order s.world request), target ∉ s.targets))
  | .wait _ | .notify _ _ _ _ _ _ _ | .settle _ _ => .isTrue trivial

/-! ### The batch -/

theorem mem_batch {w : World} {request : Request} {p : Pending}
    (h : p ∈ undeliveredNotifications order w request) :
    p.notification ∈ w.notifications ∧ request.selects p.notification = true ∧
      p = pending w p.notification := by
  have hpage := (page_sublist request.limit 0 _).subset h
  obtain ⟨n, hn, rfl⟩ := List.mem_map.mp ((order.perm _).mem_iff.mp hpage)
  obtain ⟨hmem, hselects⟩ := List.mem_filter.mp hn
  exact ⟨hmem, hselects, rfl⟩

variable (order) in
theorem nodup_batch {w : World} (hkeyed : (w.notifications.map Notification.id).Nodup)
    (request : Request) :
    ((undeliveredNotifications order w request).map fun p => p.notification.id).Nodup := by
  have hselected : ((w.notifications.filter request.selects).map Notification.id).Nodup :=
    hkeyed.sublist (List.filter_sublist.map _)
  have hjoined : (((w.notifications.filter request.selects).map (pending w)).map
      fun p => p.notification.id).Nodup := by
    rw [List.map_map]
    exact hselected
  have harranged := ((order.perm _).map fun p : Pending => p.notification.id).nodup_iff.mpr hjoined
  exact harranged.sublist ((page_sublist request.limit 0 _).map _)

theorem mem_targets {request : Request} {rows : List Pending} {target : Nat × Nat}
    (h : target ∈ targets request rows) :
    ∃ p ∈ rows, target = (p.notification.id, request.workspaceId) := by
  unfold targets at h
  split at h
  · cases h
  · obtain ⟨p, hp, rfl⟩ := List.mem_map.mp h
    exact ⟨p, List.mem_of_mem_filter hp, rfl⟩

theorem targets_ids_sublist (request : Request) (rows : List Pending) :
    ((targets request rows).map Prod.fst).Sublist (rows.map fun p => p.notification.id) := by
  unfold targets
  split
  · exact List.nil_sublist _
  · rw [List.map_map]
    exact List.filter_sublist.map _

/-! ### The invariant -/

/-- What was sent and what is still to be sent are different notifications, all of them rows of
the table, and a row is marked exactly when it was sent. -/
structure Exclusive (s : State) : Prop where
  keyed : Keyed Notification.id s.world.notifications s.world.nextNotificationId
  once : (s.sent ++ s.targets.map Prod.fst).Nodup
  marked : ∀ n ∈ s.world.notifications, n.deliveredAt.isSome = true ↔ n.id ∈ s.sent
  present : ∀ target ∈ s.targets, ∃ n ∈ s.world.notifications, target = (n.id, n.workspaceId)
  issued : ∀ id ∈ s.sent, id < s.world.nextNotificationId

theorem Exclusive.atMostOnce {s : State} (h : Exclusive s) : AtMostOnce s :=
  ⟨(List.nodup_append.mp h.once).1, h.marked⟩

theorem exclusive_init {w : World}
    (h : Keyed Notification.id w.notifications w.nextNotificationId) :
    Exclusive (State.init w) := by
  have hsent : (State.init w).sent.Nodup := h.unique.sublist (List.filter_sublist.map _)
  constructor
  · exact h
  · simpa [State.init, State.targets] using hsent
  · intro n hn
    simp only [State.init, List.mem_map, List.mem_filter]
    constructor
    · intro hdelivered
      exact ⟨n, ⟨hn, hdelivered⟩, rfl⟩
    · rintro ⟨other, ⟨hother, hdelivered⟩, hid⟩
      rwa [← h.eq_of_key hother hn hid]
  · intro target htarget
    simp [State.init, State.targets] at htarget
  · intro id hid
    obtain ⟨n, hn, rfl⟩ := List.mem_map.mp hid
    exact h.fresh n (List.mem_of_mem_filter hn)

/-- What the loop leaves of the invariant: new sends are rows that were not sent and that no
other call has before it. -/
theorem Exclusive.proceed {s : State} (h : Exclusive s) (request : Request) (report : Report)
    {rows : List Pending}
    (hnew : (s.sent ++ (s.targets ++ targets request rows).map Prod.fst).Nodup)
    (hrows : ∀ target ∈ targets request rows,
      ∃ n ∈ s.world.notifications, target = (n.id, n.workspaceId)) :
    Exclusive (proceed toLocaleString s request report rows) := by
  have hkept := proceed_kept toLocaleString s request report rows
  have htargets := proceed_targets toLocaleString s request report rows
  constructor
  · rw [hkept.notifications, hkept.next]
    exact h.keyed
  · rw [hkept.sent, htargets]
    exact hnew
  · rw [hkept.notifications, hkept.sent]
    exact h.marked
  · rw [hkept.notifications, htargets]
    intro target htarget
    rcases List.mem_append.mp htarget with htarget | htarget
    · exact h.present target htarget
    · exact hrows target htarget
  · rw [hkept.sent, hkept.next]
    exact h.issued

/-- A call that is separate from the others. -/
theorem Exclusive.call {s : State} (h : Exclusive s) (request : Request)
    (hseparate : Separate order s (.call request)) :
    Exclusive (begin toLocaleString order s request) := by
  unfold begin
  split
  · exact ⟨h.keyed, h.once, h.marked, h.present, h.issued⟩
  · have hrows : ∀ target ∈ targets request (undeliveredNotifications order s.world request),
        ∃ n ∈ s.world.notifications, target = (n.id, n.workspaceId) ∧ n.deliveredAt = none := by
      intro target htarget
      obtain ⟨p, hp, rfl⟩ := mem_targets htarget
      obtain ⟨hmem, hselects, -⟩ := mem_batch hp
      simp only [Request.selects, decide_eq_true_eq] at hselects
      exact ⟨p.notification, hmem, by rw [hselects.2.1], hselects.1⟩
    have hids := (nodup_batch order h.keyed.unique request).sublist
      (targets_ids_sublist request _)
    apply h.proceed
    · rw [List.map_append, ← List.append_assoc]
      refine List.nodup_append.mpr ⟨h.once, hids, ?_⟩
      intro id hold id' hnew
      rintro rfl
      obtain ⟨target, htarget, rfl⟩ := List.mem_map.mp hnew
      obtain ⟨n, hn, rfl, hopen⟩ := hrows target htarget
      rcases List.mem_append.mp hold with hsent | hwaiting
      · have hmarked := (h.marked n hn).mpr hsent
        simp [hopen] at hmarked
      · obtain ⟨other, hother, hid⟩ := List.mem_map.mp hwaiting
        obtain ⟨row, hrow, rfl⟩ := h.present other hother
        obtain rfl := h.keyed.eq_of_key hrow hn hid
        exact hseparate _ htarget hother
    · intro target htarget
      obtain ⟨n, hn, heq, -⟩ := hrows target htarget
      exact ⟨n, hn, heq⟩

/-- The sends of a call that is taken out. -/
theorem targets_eraseIdx {s : State} {i : Nat} {call : Call} (hcall : s.calls[i]? = some call) :
    s.targets.Perm ((call.sending.id, call.request.workspaceId) ::
      (({ s with calls := s.calls.eraseIdx i } : State).targets ++
        targets call.request call.rest)) := by
  obtain ⟨front, back, hcalls, herased, -⟩ := split_at_index hcall
  have hbefore : s.targets = front.flatMap Call.targets ++
      (call.sending.id, call.request.workspaceId) ::
        (targets call.request call.rest ++ back.flatMap Call.targets) := by
    rw [State.targets, hcalls]
    simp [Call.targets]
  have hafter : ({ s with calls := s.calls.eraseIdx i } : State).targets =
      front.flatMap Call.targets ++ back.flatMap Call.targets := by
    rw [State.targets, herased, List.flatMap_append]
  rw [hbefore, hafter, List.append_assoc]
  exact List.perm_middle.trans (List.Perm.cons _ (List.perm_append_comm.append_left _))

/-- The mark of a notification that was sent. -/
theorem Exclusive.delivered {s : State} {i : Nat} {call : Call} (h : Exclusive s)
    (hcall : s.calls[i]? = some call) :
    Exclusive (delivered { s with calls := s.calls.eraseIdx i } call) := by
  have hperm := targets_eraseIdx hcall
  have hpresent := fun target htarget => h.present target (hperm.mem_iff.mpr htarget)
  obtain ⟨row, hrow, hsending⟩ := hpresent _ List.mem_cons_self
  obtain ⟨hid, hworkspace⟩ := Prod.mk.inj hsending
  have honce := ((hperm.map Prod.fst).append_left s.sent).nodup_iff.mp h.once
  let mark (n : Notification) : Notification :=
    if n.id = call.sending.id ∧ n.workspaceId = call.request.workspaceId then
      { n with deliveredAt := some s.world.now }
    else n
  have hmark : ∀ n, (mark n).id = n.id ∧ (mark n).workspaceId = n.workspaceId := by
    intro n
    by_cases hn : n.id = call.sending.id ∧ n.workspaceId = call.request.workspaceId <;>
      simp [mark, hn]
  constructor
  · exact h.keyed.map fun n => (hmark n).1
  · show ((s.sent ++ [call.sending.id]) ++ _).Nodup
    rw [List.append_assoc]
    refine honce.sublist (List.Sublist.append_left ?_ s.sent)
    simp only [List.map_cons, List.map_append, List.singleton_append]
    exact List.Sublist.cons_cons _ (List.sublist_append_left _ _)
  · intro n hn
    obtain ⟨old, hold, rfl⟩ := List.mem_map.mp hn
    have hmarked := h.marked old hold
    show (mark old).deliveredAt.isSome = true ↔ (mark old).id ∈ s.sent ++ [call.sending.id]
    rw [(hmark old).1]
    by_cases hsame : old.id = call.sending.id
    · obtain rfl := h.keyed.eq_of_key hold hrow (hsame.trans hid)
      simp [mark, hid, hworkspace]
    · simp [mark, hsame, hmarked]
  · intro target htarget
    obtain ⟨n, hn, rfl⟩ := hpresent target
      (List.mem_cons_of_mem _ (List.mem_append_left _ htarget))
    exact ⟨mark n, List.mem_map_of_mem hn, by rw [(hmark n).1, (hmark n).2]⟩
  · intro id hsent
    rcases List.mem_append.mp hsent with hsent | hsent
    · exact h.issued id hsent
    · rw [List.mem_singleton.mp hsent, hid]
      exact h.keyed.fresh row hrow

/-- A send that fails leaves the notification to later calls. -/
theorem Exclusive.abandoned {s : State} {i : Nat} {call : Call} (h : Exclusive s)
    (hcall : s.calls[i]? = some call) : Exclusive { s with calls := s.calls.eraseIdx i } := by
  have hperm := targets_eraseIdx hcall
  have honce := ((hperm.map Prod.fst).append_left s.sent).nodup_iff.mp h.once
  refine ⟨h.keyed, ?_, h.marked, ?_, h.issued⟩
  · refine honce.sublist (List.Sublist.append_left ?_ s.sent)
    simp only [List.map_cons, List.map_append]
    exact List.Sublist.cons _ (List.sublist_append_left _ _)
  · intro target htarget
    exact h.present target
      (hperm.mem_iff.mpr (List.mem_cons_of_mem _ (List.mem_append_left _ htarget)))

/-- The end of a command, and the loop up to the next one. -/
theorem Exclusive.settle {s : State} {i : Nat} {call : Call} (h : Exclusive s)
    (hcall : s.calls[i]? = some call) (outcome : Outcome) :
    Exclusive (settle toLocaleString { s with calls := s.calls.eraseIdx i } call outcome) := by
  have hperm := targets_eraseIdx hcall
  have honce := ((hperm.map Prod.fst).append_left s.sent).nodup_iff.mp h.once
  have hrest : ∀ target ∈ targets call.request call.rest,
      ∃ n ∈ s.world.notifications, target = (n.id, n.workspaceId) := by
    intro target htarget
    exact h.present target
      (hperm.mem_iff.mpr (List.mem_cons_of_mem _ (List.mem_append_right _ htarget)))
  unfold Delivery.settle
  split
  · refine (h.abandoned hcall).proceed _ _ ?_ hrest
    refine honce.sublist (List.Sublist.append_left ?_ s.sent)
    exact List.sublist_cons_self _ _
  · refine (h.delivered hcall).proceed _ _ ?_ ?_
    · show ((s.sent ++ [call.sending.id]) ++ _).Nodup
      rw [List.append_assoc]
      exact honce
    · intro target htarget
      obtain ⟨n, hn, rfl⟩ := hrest target htarget
      refine ⟨_, List.mem_map_of_mem hn, ?_⟩
      split <;> rfl

theorem Exclusive.step {s s' : State} {e : Event} (h : Exclusive s) (hseparate : Separate order s e)
    (hstep : step toLocaleString order s e = some s') : Exclusive s' := by
  cases e with
  | wait milliseconds =>
    obtain rfl := Option.some.inj hstep
    exact ⟨h.keyed, h.once, h.marked, h.present, h.issued⟩
  | notify recipient type title message sourceType sourceId workspaceId =>
    obtain rfl := Option.some.inj hstep
    constructor
    · exact h.keyed.snoc rfl
    · exact h.once
    · intro n hn
      rcases List.mem_append.mp hn with hn | hn
      · exact h.marked n hn
      · obtain rfl := List.mem_singleton.mp hn
        have hfresh : s.world.nextNotificationId ∉ s.sent := fun hsent =>
          Nat.lt_irrefl _ (h.issued _ hsent)
        simpa [World.newNotification] using hfresh
    · intro target htarget
      obtain ⟨n, hn, heq⟩ := h.present target htarget
      exact ⟨n, List.mem_append_left _ hn, heq⟩
    · intro id hsent
      exact Nat.lt_succ_of_lt (h.issued id hsent)
  | call request =>
    obtain rfl := Option.some.inj hstep
    exact h.call request hseparate
  | settle i outcome =>
    obtain ⟨call, hcall, rfl⟩ := Option.map_eq_some_iff.mp hstep
    exact h.settle hcall outcome

/-- In a run in which no call selects what another one has still to send, every notification is
sent at most once and is marked exactly when it was sent. -/
theorem sent_once_of_separate {w : World}
    (hkeyed : Keyed Notification.id w.notifications w.nextNotificationId) {trace : List Event}
    {s : State}
    (hseparate : (machine toLocaleString order).Meets (Separate order) (State.init w) trace)
    (hrun : (machine toLocaleString order).run (State.init w) trace = some s) : AtMostOnce s := by
  have hpreserved : ∀ s e s', Exclusive s → Separate order s e →
      (machine toLocaleString order).step s e = some s' → Exclusive s' :=
    fun s e s' h hseparate hstep => h.step hseparate hstep
  exact (Machine.run_invariant hpreserved (exclusive_init hkeyed) hseparate hrun).atMostOnce

/-! ### Calls that are not separate -/

def success : Outcome := .exited "sent" ""

variable (toLocaleString) in
theorem proceed_waits (s : State) (report : Report) {request : Request} {rows : List Pending}
    (h : targets request rows ≠ []) : ∃ call : Call, call.targets = targets request rows ∧
      (proceed toLocaleString s request report rows).calls = s.calls ++ [call] := by
  induction rows generalizing report with
  | nil => simp at h
  | cons p rest ih =>
    cases hkey : truthy p.sessionKey with
    | none =>
      rw [targets_cons_none hkey] at h ⊢
      simp only [proceed, hkey]
      exact ih _ h
    | some sessionKey =>
      cases hlive : request.dryRun with
      | true => simp [targets, hlive] at h
      | false =>
        rw [targets_cons_some hkey hlive]
        simp only [proceed, hkey, hlive, Bool.false_eq_true, if_false]
        exact ⟨_, rfl, rfl⟩

variable (toLocaleString) in
theorem calls_prefix_proceed (s : State) (request : Request) (report : Report)
    (rows : List Pending) : s.calls <+: (proceed toLocaleString s request report rows).calls := by
  induction rows generalizing report with
  | nil => exact List.prefix_refl _
  | cons p rest ih =>
    unfold proceed
    split
    · exact ih _
    · dsimp only
      split
      · exact ih _
      · exact List.prefix_append _ _

variable (toLocaleString order) in
/-- A call that goes on with success sends what it has before it, and the others wait. -/
theorem exists_send {s : State} {i : Nat} {call : Call} (hcall : s.calls[i]? = some call)
    {target : Nat × Nat} (htarget : target ∈ call.targets) : ∃ trace t,
      (machine toLocaleString order).run s trace = some t ∧
      s.sent.count target.1 + 1 ≤ t.sent.count target.1 ∧ s.calls.eraseIdx i ⊆ t.calls := by
  induction hn : call.targets.length using Nat.strong_induction_on generalizing s i call with
  | _ n ih =>
    let rest : State := { s with calls := s.calls.eraseIdx i }
    let report := call.report.deliver ⟨call.sending.id, call.sending.recipient, call.sessionKey,
      some s.world.now, "delivered", success.output⟩
    let next := proceed toLocaleString (delivered rest call) call.request report call.rest
    have hstep : (machine toLocaleString order).step s (.settle i success) = some next := by
      have hsuccess : success.error = none := by decide
      simp [machine, step, hcall, settle, hsuccess, next, report, rest]
    have hsent : next.sent = s.sent ++ [call.sending.id] := (proceed_kept _ _ _ _ _).sent
    have hkept : rest.calls ⊆ next.calls := 
      (calls_prefix_proceed toLocaleString (delivered rest call) call.request report call.rest).subset
    rcases List.mem_cons.mp htarget with rfl | hlater
    · refine ⟨[.settle i success], next, ?_, ?_, hkept⟩
      · rw [Machine.run_cons_eq_some]
        exact ⟨next, hstep, rfl⟩
      · simp [hsent]
    · obtain ⟨later, htargets, hcalls⟩ := proceed_waits toLocaleString
        (delivered rest call) report (List.ne_nil_of_mem hlater)
      have hlast : next.calls[rest.calls.length]? = some later := by
        have hcalls : next.calls = rest.calls ++ [later] := hcalls
        rw [hcalls, List.getElem?_concat_length]
      have herased : next.calls.eraseIdx rest.calls.length = rest.calls := by
        have hcalls : next.calls = rest.calls ++ [later] := hcalls
        simp [hcalls, List.eraseIdx_append_of_length_le]
      have hshorter : later.targets.length < n := by
        rw [htargets, ← hn]
        exact Nat.lt_succ_self _
      obtain ⟨trace, t, hrun, hcount, hothers⟩ :=
        ih _ hshorter hlast (by rwa [htargets]) rfl
      refine ⟨.settle i success :: trace, t, ?_, ?_, ?_⟩
      · rw [Machine.run_cons_eq_some]
        exact ⟨next, hstep, hrun⟩
      · rw [hsent, List.count_append] at hcount
        omega
      · rwa [herased] at hothers

/-- A call that is not separate can go on so that a notification is sent twice. -/
theorem sent_twice_of_not_separate {s : State} {e : Event} (h : ¬ Separate order s e) :
    ∃ trace t, (machine toLocaleString order).run s (e :: trace) = some t ∧ ¬ AtMostOnce t := by
  cases e with
  | call request =>
    simp only [Separate, not_forall, not_not] at h
    obtain ⟨target, hnew, hold⟩ := h
    obtain ⟨old, hold, htarget⟩ := List.mem_flatMap.mp hold
    let s₁ := begin toLocaleString order s request
    have hbegin : ∃ call : Call, target ∈ call.targets ∧ s₁.calls = s.calls ++ [call] := by
      have hne := List.ne_nil_of_mem hnew
      obtain ⟨call, htargets, hcalls⟩ := proceed_waits toLocaleString s
        (.start (undeliveredNotifications order s.world request).length) hne
      refine ⟨call, by rwa [htargets], ?_⟩
      simp only [s₁, begin]
      split
      · rename_i hbatch
        simp [hbatch] at hne
      · exact hcalls
    obtain ⟨new, hnew, hcalls⟩ := hbegin
    obtain ⟨i, hi⟩ := List.getElem?_of_mem hold
    have hi' : s₁.calls[i]? = some old := by
      rw [hcalls, List.getElem?_append_left (List.getElem?_eq_some_iff.mp hi).1, hi]
    obtain ⟨trace, t, hrun, hcount, hothers⟩ :=
      exists_send toLocaleString order hi' htarget
    have hwaits : new ∈ t.calls := by
      apply hothers
      rw [hcalls, List.eraseIdx_append_of_lt_length (List.getElem?_eq_some_iff.mp hi).1]
      exact List.mem_append_right _ (List.mem_singleton_self new)
    obtain ⟨j, hj⟩ := List.getElem?_of_mem hwaits
    obtain ⟨trace', t', hrun', hcount', -⟩ :=
      exists_send toLocaleString order hj hnew
    refine ⟨trace ++ trace', t', ?_, ?_⟩
    · rw [Machine.run_cons_eq_some]
      refine ⟨s₁, rfl, ?_⟩
      rw [Machine.run_append, hrun, Option.bind_some]
      exact hrun'
    · rintro ⟨honce, -⟩
      have hle := List.nodup_iff_count_le_one.mp honce target.1
      omega
  | _ => exact absurd trivial h

/-! ### Two calls -/

def sampleMachine : Machine State Event := machine (fun _ => "") (OrderBy.stable sorts_older)

/-- A second call begins when the first one is done, and finds nothing to send. -/
theorem sent_once_of_separate_sample : ∃ s,
    sampleMachine.run (State.init (sampleWorld ["worker"]))
      [.call (sampleRequest 50), .settle 0 success, .call (sampleRequest 50)] = some s ∧
    s.sent = [1] ∧ AtMostOnce s := by
  have hkeyed : Keyed Notification.id (sampleWorld ["worker"]).notifications
      (sampleWorld ["worker"]).nextNotificationId := by
    constructor <;> decide +kernel
  have hseparate : sampleMachine.Meets (Separate (OrderBy.stable sorts_older))
      (State.init (sampleWorld ["worker"]))
      [.call (sampleRequest 50), .settle 0 success, .call (sampleRequest 50)] := by
    decide +kernel
  have hran : (sampleMachine.run (State.init (sampleWorld ["worker"]))
      [.call (sampleRequest 50), .settle 0 success, .call (sampleRequest 50)]).any
        (fun s => s.sent = [1]) = true := by
    decide +kernel
  obtain ⟨s, hrun, hsent⟩ := (Option.any_eq_true ..).mp hran
  exact ⟨s, hrun, of_decide_eq_true hsent, sent_once_of_separate hkeyed hseparate hrun⟩

/-- A second call begins while the first one waits for the command. -/
theorem overlapping_calls_send_twice : ∃ s,
    sampleMachine.run (State.init (sampleWorld ["worker"]))
      [.call (sampleRequest 50), .call (sampleRequest 50), .settle 0 success, .settle 0 success] =
        some s ∧ ¬ AtMostOnce s := by
  have hran : (sampleMachine.run (State.init (sampleWorld ["worker"]))
      [.call (sampleRequest 50), .call (sampleRequest 50), .settle 0 success,
        .settle 0 success]).any (fun s => s.sent = [1, 1]) = true := by
    decide +kernel
  obtain ⟨s, hrun, hsent⟩ := (Option.any_eq_true ..).mp hran
  refine ⟨s, hrun, ?_⟩
  rintro ⟨honce, -⟩
  rw [of_decide_eq_true hsent] at honce
  exact absurd honce (by decide)

end MissionControl.Notifications.SentOnce
