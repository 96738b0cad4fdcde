import MissionControl.Client.Actions
import MissionControl.Foundations.Transition
import Mathlib.Algebra.Order.Field.Rat

/-!
The number of unread notifications, which the store keeps beside the list.
-/

set_option autoImplicit false
set_option relaxedAutoImplicit false

namespace MissionControl.Client.Unread

open MissionControl.Foundations.JsonValues
open MissionControl.Foundations.Schema (Json lookup)
open MissionControl.Foundations.Transition (Machine)
open Actions Actions.Store

/-- The actions of the store that write notifications, the last two with the clock. -/
inductive Action where
  | setNotifications (notifications : List Entry)
  | addNotification (notification : Entry)
  | markNotificationRead (now : Nat) (notificationId : Int)
  | markAllNotificationsRead (now : Nat)
  deriving DecidableEq

def apply (s : Store) : Action → Store
  | .setNotifications notifications => s.setNotifications notifications
  | .addNotification notification => s.addNotification notification
  | .markNotificationRead now notificationId => s.markNotificationRead now notificationId
  | .markAllNotificationsRead now => s.markAllNotificationsRead now

def machine : Machine Store Action where
  step s action := some (apply s action)

/-- The entries whose `read_at` is falsy. -/
def unread (notifications : List Entry) : Nat := notifications.countP fun n => !isRead n

/-- The unread entries with the id. -/
def unreadOf (id : Int) (notifications : List Entry) : Nat :=
  notifications.countP fun n => !isRead n && n.id = some id

/-- The counter is right. -/
def Agrees (s : Store) : Prop := s.unreadNotificationCount = unread s.notifications

/-- The operation reads one unread notification, or there is nothing to count; a new one is unread.
A clock at zero reads nothing. -/
def Counted (s : Store) : Action → Prop
  | .setNotifications _ => True
  | .addNotification notification => isRead notification = false
  | .markNotificationRead now id =>
    if now = 0 then unread s.notifications = 0 ∧ ∀ n ∈ s.notifications, n.id ≠ some id
    else unread s.notifications = 0 ∨ unreadOf id s.notifications = 1
  | .markAllNotificationsRead now => now = 0 → unread s.notifications = 0

instance (s : Store) (action : Action) : Decidable (Counted s action) := by
  cases action <;> unfold Counted <;> infer_instance

/-! ### What is read -/

@[simp]
theorem isRead_update (n : Entry) (now : Rat) :
    isRead (n.update [("read_at", .number now)]) = decide (now ≠ 0) := by
  have hfield : lookup (spread n.fields [("read_at", .number now)]) "read_at" =
      some (.number now) := by
    simp [spread, lookup_setField_self]
  simp [isRead, Entry.update, hfield, truthy]

@[simp]
theorem id_update (n : Entry) (updates : List (String × Json)) : (n.update updates).id = n.id := rfl

/-- The unread entries are those with the id and the others. -/
theorem unreadOf_add (id : Int) (l : List Entry) :
    unreadOf id l + (l.countP fun n => !isRead n && !decide (n.id = some id)) = unread l := by
  induction l with
  | nil => rfl
  | cons n l ih =>
    simp only [unread, unreadOf, List.countP_cons] at ih ⊢
    by_cases hid : n.id = some id <;> simp only [hid, decide_true, decide_false, Bool.and_true,
      Bool.not_true, Bool.not_false, Bool.and_false] <;> simp <;> omega

/-- What is left when the entries with the id are read. -/
theorem unread_updateEntries {now : Nat} (hnow : now ≠ 0) (id : Int) (l : List Entry) :
    unread (updateEntries id [("read_at", .number now)] l) + unreadOf id l = unread l := by
  have hrest : unread (updateEntries id [("read_at", .number now)] l) =
      l.countP fun n => !isRead n && !decide (n.id = some id) := by
    unfold unread updateEntries
    rw [List.countP_map]
    refine List.countP_congr fun n _ => ?_
    by_cases hid : n.id = some id <;> simp [hid, hnow]
  rw [hrest, ← unreadOf_add id l]
  omega

/-- A clock at zero makes the entries with the id unread. -/
theorem unread_updateEntries_zero (id : Int) (l : List Entry) :
    unread (updateEntries id [("read_at", .number (0 : Nat))] l) =
      unread l + l.countP fun n => isRead n && n.id = some id := by
  induction l with
  | nil => rfl
  | cons n l ih =>
    simp only [unread, updateEntries, List.map_cons, List.countP_cons] at ih ⊢
    rw [ih]
    have hzero : isRead (n.update [("read_at", .number (0 : Nat))]) = false := by simp
    by_cases hid : n.id = some id <;> cases hread : isRead n <;>
      simp only [hid, hread, hzero, if_true, if_false, Bool.not_true, Bool.not_false,
        Bool.true_and, Bool.false_and, decide_true, decide_false, reduceCtorEq] <;> simp <;> omega

theorem unread_markAll {now : Nat} (l : List Entry) :
    unread (l.map fun n => if isRead n then n else n.update [("read_at", .number now)]) =
      if now = 0 then unread l else 0 := by
  unfold unread
  rw [List.countP_map]
  by_cases hnow : now = 0
  · rw [if_pos hnow]
    refine List.countP_congr fun n _ => ?_
    by_cases hread : isRead n <;> simp [hread, hnow]
  · rw [if_neg hnow, List.countP_eq_zero]
    intro n _
    by_cases hread : isRead n <;> simp [hread, hnow]

/-! ### The counter -/

/-- One operation keeps the counter right exactly if it counts what it does. -/
theorem agrees_apply_iff {s : Store} (h : Agrees s) (action : Action) :
    Agrees (apply s action) ↔ Counted s action := by
  cases action with
  | setNotifications notifications =>
    simp [Agrees, apply, setNotifications, Counted, unread, List.countP_eq_length_filter]
  | addNotification notification =>
    simp only [Agrees, apply, addNotification, Counted, unread, List.countP_cons] at h ⊢
    rw [h]
    cases isRead notification <;> simp
  | markNotificationRead now id =>
    simp only [Agrees, apply, markNotificationRead, Counted] at h ⊢
    rw [h]
    split
    · rename_i hnow
      subst hnow
      rw [unread_updateEntries_zero]
      have hnone : (s.notifications.countP fun n => isRead n && n.id = some id) = 0 ∧
          unread s.notifications = 0 ↔
          unread s.notifications = 0 ∧ ∀ n ∈ s.notifications, n.id ≠ some id := by
        rw [and_comm]
        refine and_congr_right fun hunread => ?_
        simp only [unread, List.countP_eq_zero] at hunread ⊢
        refine forall₂_congr fun n hn => ?_
        simp only [Bool.not_eq_true', Bool.not_eq_false] at hunread
        simp [hunread n hn]
      rw [← hnone]
      omega
    · rename_i hnow
      have hleft := unread_updateEntries hnow id s.notifications
      omega
  | markAllNotificationsRead now =>
    simp only [Agrees, apply, markAllNotificationsRead, Counted]
    rw [unread_markAll]
    split
    · rename_i hnow
      simp only [hnow, true_imp_iff]
      omega
    · rename_i hnow
      simp [hnow]

/-- The counter is right throughout a run exactly if every operation counts what it does. -/
theorem unread_count_iff (trace : List Action) :
    machine.Always Agrees Store.empty trace ↔ machine.Meets Counted Store.empty trace := by
  have hempty : Agrees Store.empty := rfl
  refine machine.always_iff_meets (fun s h => h) ?_ ?_ hempty trace
  · intro s action s' h hcounted hstep
    obtain rfl := Option.some.inj hstep
    exact (agrees_apply_iff h action).mpr hcounted
  · intro s action h hcounted
    exact ⟨_, rfl, fun hagrees => hcounted ((agrees_apply_iff h action).mp hagrees)⟩

def sampleNotification (id : Int) : Entry := ⟨some id, [("title", .string "Assigned")]⟩

/-- A notification is read twice. -/
theorem unread_undercounted :
    ∃ s, machine.run Store.empty [.setNotifications [sampleNotification 1, sampleNotification 2],
        .markNotificationRead 1700000000 1, .markNotificationRead 1700000001 1] = some s ∧
      s.unreadNotificationCount = 0 ∧ unread s.notifications = 1 := by
  refine ⟨_, rfl, ?_⟩
  decide +kernel

end MissionControl.Client.Unread
