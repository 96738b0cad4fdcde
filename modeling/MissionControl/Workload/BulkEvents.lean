import MissionControl.Events.Announcements
import MissionControl.Workload.Operations

/-!
What the bulk update of the task API announces. The transaction announces each change of a status
at once, also when a later item takes it back; afterwards the status that each item asks for is
announced, whether the item has found a task or not.
-/

set_option autoImplicit false
set_option relaxedAutoImplicit false

namespace MissionControl.Workload.BulkEvents

open MissionControl.Foundations.Lists
open MissionControl.Foundations.Schema (Json lookup)
open MissionControl.Tasks.Validation
open MissionControl.Tasks.Database
open MissionControl.Tasks.Routes (bulkItem bulkItems)
open MissionControl.Events.Bus
open MissionControl.Events.Stores
open MissionControl.Events.Producers
open MissionControl.Events.Announcements
open Operations

/-- The status of a task of the workspace. -/
def statusOf (db : Db) (workspaceId id : Nat) : Option TaskStatus :=
  (db.task? workspaceId id).map Task.status

/-- The item ends the transaction. -/
def fails (ctx : Context) (db : Db) (item : BulkItem) : Bool :=
  (statusOf db ctx.user.workspaceId item.id).isSome ∧ item.status = .done ∧
    ¬ hasAegisApproval ctx db item.id

/-- The item changes the status of a task. -/
def changes (ctx : Context) (db : Db) (item : BulkItem) : Bool :=
  (statusOf db ctx.user.workspaceId item.id).any fun status => status ≠ item.status

/-- What the update announces is true: where an item fails, no item before it changes a status;
otherwise every item names a task of the workspace, and no two ask for two statuses of one task. -/
def BulkTruthful (ctx : Context) (db : Db) (items : List BulkItem) : Prop :=
  if items.any (fails ctx db) = true then
    ∀ item ∈ items.takeWhile fun item => !fails ctx db item, changes ctx db item = false
  else
    ∀ item ∈ items, (statusOf db ctx.user.workspaceId item.id).isSome = true ∧
      ∀ other ∈ items, other.id = item.id → other.status = item.status

/-! ### One item -/

section

variable {ctx : Context} {db db' : Db} {item : BulkItem}

theorem hasAegisApproval_congr (h : db'.reviews = db.reviews) (taskId : Nat) :
    hasAegisApproval ctx db' taskId = hasAegisApproval ctx db taskId := by
  simp only [hasAegisApproval, Db.aegisReviews, h]

/-- What one item does where it does not fail. -/
structure ItemWrites (ctx : Context) (db : Db) (item : BulkItem) (db' : Db) : Prop where
  allowed : fails ctx db item = false
  status : ∀ id, statusOf db' ctx.user.workspaceId id =
    if id = item.id then (statusOf db ctx.user.workspaceId id).map fun _ => item.status
    else statusOf db ctx.user.workspaceId id
  reviews : db'.reviews = db.reviews
  effects : ∃ description, db'.effects = db.effects ++
    if changes ctx db item = true then
      [.activity ctx.user.workspaceId "task_updated" item.id ctx.user.username description]
    else []

variable (db) in
theorem statusOf_updateTask {f : Task → Task} {status : TaskStatus}
    (hf : ∀ t, (f t).id = t.id ∧ (f t).workspaceId = t.workspaceId ∧ (f t).status = status)
    (workspaceId id other : Nat) :
    statusOf (db.updateTask workspaceId id f) workspaceId other =
      if other = id then (statusOf db workspaceId other).map fun _ => status
      else statusOf db workspaceId other := by
  by_cases hid : other = id
  · subst hid
    rw [if_pos rfl, statusOf, task?_updateTask db workspaceId other fun t => ⟨(hf t).1, (hf t).2.1⟩,
      statusOf, Option.map_map, Option.map_map]
    congr 1
    funext t
    exact (hf t).2.2
  · rw [if_neg hid, statusOf, statusOf, Db.task?, Db.task?, Db.updateTask]
    dsimp only
    rw [List.find?_map, Option.map_map]
    have hsame : ((fun t : Task => decide (t.id = other ∧ t.workspaceId = workspaceId)) ∘ fun t =>
        if t.id = id ∧ t.workspaceId = workspaceId then f t else t) =
        fun t => decide (t.id = other ∧ t.workspaceId = workspaceId) := by
      funext t
      by_cases ht : t.id = id ∧ t.workspaceId = workspaceId
      · simp [ht, hf t]
      · simp [ht]
    rw [hsame]
    cases hfound : db.tasks.find? fun t => t.id = other ∧ t.workspaceId = workspaceId with
    | none => rfl
    | some t =>
      have hspec := List.find?_some hfound
      simp only [decide_eq_true_eq] at hspec
      have hne : ¬ (t.id = id ∧ t.workspaceId = workspaceId) := fun ht => hid (hspec.1.symm.trans ht.1)
      simp [hne]

theorem bulkItem_ok (h : bulkItem ctx db item = .ok db') : ItemWrites ctx db item db' := by
  unfold bulkItem at h
  dsimp only at h
  split at h
  · rename_i hrow
    obtain rfl := Except.ok.inj h
    have hnone : statusOf db ctx.user.workspaceId item.id = none := by simp [statusOf, hrow]
    refine ⟨by simp [fails, hnone], ?_, rfl, "", by simp [changes, hnone]⟩
    intro id
    split
    · rename_i hid
      rw [hid, hnone]
      rfl
    · rfl
  · rename_i old hrow
    have hstatus : statusOf db ctx.user.workspaceId item.id = some old.status := by
      simp [statusOf, hrow]
    split at h
    · cases h
    · rename_i happroved
      obtain rfl := Except.ok.inj h
      let f : Task → Task := fun t =>
        if item.status = .done then
          { t with
            status := item.status
            updatedAt := ctx.now
            completedAt := t.completedAt.or (some ctx.now) }
        else { t with status := item.status, updatedAt := ctx.now }
      have hf : ∀ t, (f t).id = t.id ∧ (f t).workspaceId = t.workspaceId ∧
          (f t).status = item.status := by
        intro t
        by_cases hdone : item.status = .done <;> simp [f, hdone]
      have hwritten := statusOf_updateTask db hf ctx.user.workspaceId item.id
      refine ⟨?_, ?_, ?_, "Task moved from " ++ old.status.text ++ " to " ++ item.status.text, ?_⟩
      · simpa [fails, hstatus] using happroved
      · intro id
        split <;> exact hwritten id
      · split <;> rfl
      · by_cases hsame : old.status = item.status
        · simp [changes, hstatus, hsame, Db.updateTask]
        · simp [changes, hstatus, hsame, Db.emit, Db.updateTask]

theorem bulkItem_error {message : String} (h : bulkItem ctx db item = .error message) :
    fails ctx db item = true := by
  unfold bulkItem at h
  dsimp only at h
  split at h
  · cases h
  · rename_i old hrow
    split at h
    · rename_i hrefused
      simpa [fails, statusOf, hrow] using hrefused
    · cases h

/-- Which items fail is known before the first one. -/
theorem ItemWrites.fails_eq (h : ItemWrites ctx db item db') : fails ctx db' = fails ctx db := by
  funext other
  have hsome : (statusOf db' ctx.user.workspaceId other.id).isSome =
      (statusOf db ctx.user.workspaceId other.id).isSome := by
    rw [h.status]
    split <;> simp
  simp only [fails, hsome, hasAegisApproval_congr h.reviews]

/-- An item that changes no status leaves all of them. -/
theorem ItemWrites.changes_eq (h : ItemWrites ctx db item db')
    (hkept : changes ctx db item = false) : changes ctx db' = changes ctx db := by
  funext other
  have hsame : statusOf db' ctx.user.workspaceId other.id =
      statusOf db ctx.user.workspaceId other.id := by
    rw [h.status]
    split
    · rename_i hid
      rw [hid]
      cases hstatus : statusOf db ctx.user.workspaceId item.id with
      | none => rfl
      | some status =>
        have hequal : status = item.status := by simpa [changes, hstatus] using hkept
        simp [hequal]
    · rfl
  simp only [changes, hsame]

end

/-! ### The transaction -/

section

variable {ctx : Context}

/-- The transaction fails where an item does. -/
theorem bulkItems_error_iff {db : Db} (items : List BulkItem) :
    (∃ message, bulkItems ctx db items = .error message) ↔ items.any (fails ctx db) = true := by
  induction items generalizing db with
  | nil => simp [bulkItems]
  | cons item items ih =>
    unfold bulkItems
    cases hitem : bulkItem ctx db item with
    | error message => simp [bulkItem_error hitem]
    | ok db' =>
      have hwrites := bulkItem_ok hitem
      dsimp only
      rw [ih, hwrites.fails_eq, List.any_cons, hwrites.allowed, Bool.false_or]

/-- The statuses that a transaction leaves, where the items agree on that of the task. -/
theorem statusOf_bulkItems {db db' : Db} {items : List BulkItem}
    (h : bulkItems ctx db items = .ok db') (id : Nat) :
    (statusOf db' ctx.user.workspaceId id).isSome = (statusOf db ctx.user.workspaceId id).isSome ∧
    ∀ status, (∀ item ∈ items, item.id = id → item.status = status) →
      (statusOf db ctx.user.workspaceId id).isSome = true →
      (∃ item ∈ items, item.id = id) ∨ statusOf db ctx.user.workspaceId id = some status →
      statusOf db' ctx.user.workspaceId id = some status := by
  induction items generalizing db with
  | nil =>
    obtain rfl := Except.ok.inj h
    refine ⟨rfl, ?_⟩
    rintro status - - (⟨item, hitem, -⟩ | hstatus)
    · cases hitem
    · exact hstatus
  | cons item items ih =>
    unfold bulkItems at h
    cases hitem : bulkItem ctx db item with
    | error message => simp [hitem] at h
    | ok next =>
      simp only [hitem] at h
      have hnext := (bulkItem_ok hitem).status id
      obtain ⟨hsome, hstatus⟩ := ih h
      constructor
      · rw [hsome, hnext]
        split <;> simp
      · intro status hagree hexists hgiven
        apply hstatus status fun other hother => hagree other (List.mem_cons_of_mem _ hother)
        · rw [hnext]
          split <;> simpa using hexists
        · by_cases hid : id = item.id
          · right
            rw [hnext, if_pos hid]
            obtain ⟨current, hcurrent⟩ := Option.isSome_iff_exists.mp hexists
            simp [hcurrent, hagree item List.mem_cons_self hid.symm]
          · rw [hnext, if_neg hid]
            rcases hgiven with ⟨other, hother, hotherid⟩ | hgiven
            · rcases List.mem_cons.mp hother with rfl | hother
              · exact absurd hotherid.symm hid
              · exact .inl ⟨other, hother, hotherid⟩
            · exact .inr hgiven

/-- What one item announces inside the transaction. -/
theorem settle_item {w : World} {item : BulkItem} {db : Db} (data : Json)
    (heffects : w.tasks.effects = []) (hwrites : ItemWrites ctx w.tasks item db) :
    ∃ events, Announces w (settle data ctx.user.workspaceId w db) events ∧
      (∀ event ∈ events, event.type = .activityCreated) ∧
      (events = [] ↔ changes ctx w.tasks item = false) := by
  obtain ⟨description, hdescription⟩ := hwrites.effects
  rw [heffects, List.nil_append] at hdescription
  unfold settle
  by_cases hchanges : changes ctx w.tasks item = true
  · rw [hdescription, if_pos hchanges, List.foldl_cons, List.foldl_nil]
    obtain ⟨activity, -, hlogged⟩ := announces_logActivity { w with tasks := { db with effects := [] } }
      "task_updated" "task" item.id ctx.user.username description (some data) ctx.user.workspaceId
    refine ⟨_, Announces.of_start ?_ ?_ hlogged, ?_, ?_⟩
    · rfl
    · rfl
    · intro event hevent
      obtain rfl := List.mem_singleton.mp hevent
      rfl
    · simp [hchanges]
  · rw [hdescription, if_neg hchanges, List.foldl_nil]
    refine ⟨[], .silent rfl rfl, by simp, ?_⟩
    simpa using hchanges

theorem bulkTransaction_ok {w : World} {item : BulkItem} {db : Db} (items : List BulkItem)
    (h : bulkItem ctx w.tasks item = .ok db) : ∃ data, bulkTransaction ctx w (item :: items) =
      bulkTransaction ctx (settle data ctx.user.workspaceId w db) items := by
  rw [bulkTransaction, h]
  exact ⟨_, rfl⟩

variable (ctx) in
/-- What the transaction announces on its own. -/
theorem bulkTransaction_announces (items : List BulkItem) {w : World}
    (heffects : w.tasks.effects = []) :
    ∃ events, Announces w (bulkTransaction ctx w items) events ∧
      (∀ event ∈ events, event.type = .activityCreated) ∧
      (events = [] ↔ ∀ item ∈ items.takeWhile fun item => !fails ctx w.tasks item,
        changes ctx w.tasks item = false) := by
  induction items generalizing w with
  | nil => exact ⟨[], .refl w, by simp, by simp⟩
  | cons item items ih =>
    cases hitem : bulkItem ctx w.tasks item with
    | error message =>
      rw [bulkTransaction, hitem]
      refine ⟨[], .refl w, by simp, ?_⟩
      simp [bulkItem_error hitem]
    | ok db =>
      have hwrites := bulkItem_ok hitem
      obtain ⟨data, hnext⟩ := bulkTransaction_ok items hitem
      rw [hnext]
      obtain ⟨first, hfirst, htype, hsilent⟩ := settle_item data heffects hwrites
      have htasks := tasks_settle data ctx.user.workspaceId w db
      obtain ⟨rest, hrest, htype', hsilent'⟩ := ih
        (w := settle data ctx.user.workspaceId w db) (by rw [htasks]; rfl)
      refine ⟨_, hfirst.trans hrest, ?_, ?_⟩
      · intro event hevent
        rcases List.mem_append.mp hevent with hevent | hevent
        · exact htype event hevent
        · exact htype' event hevent
      · rw [htasks] at hsilent'
        have hfails : fails ctx (rows db) = fails ctx w.tasks := hwrites.fails_eq
        rw [hfails] at hsilent'
        rw [List.append_eq_nil_iff, hsilent, hsilent', List.takeWhile_cons_of_pos (by simp [hwrites.allowed]),
          List.forall_mem_cons]
        refine and_congr_right fun hkept => ?_
        have hchanges : changes ctx (rows db) = changes ctx w.tasks := hwrites.changes_eq hkept
        rw [hchanges]

end

end MissionControl.Workload.BulkEvents
