import MissionControl.Tasks.RouteSteps

/-!
The quality gate over every run of the task API. An update that makes a task done has found
an approval; a creation is not asked for one.
-/

set_option autoImplicit false
set_option relaxedAutoImplicit false

namespace MissionControl.Tasks.QualityGate

open MissionControl.Foundations.Lists
open MissionControl.Foundations.Schema (Json)
open MissionControl.Foundations.Transition (Machine)
open Validation Database Routes RouteSteps

/-- The Aegis reviews of a task, in the order of insertion. -/
def aegisOf (db : Db) (taskId : Nat) : List Review :=
  db.reviews.filter fun r => r.taskId = taskId ∧ r.reviewer = "aegis"

/-- Task ids are unique and not used up, and reviews are of the workspace of their task. -/
structure Consistent (db : Db) : Prop where
  unique : (db.tasks.map Task.id).Nodup
  fresh : ∀ t ∈ db.tasks, t.id < db.nextTaskId
  reviewed : ∀ r ∈ db.reviews, r.taskId < db.nextTaskId
  workspace : ∀ r ∈ db.reviews, ∀ t ∈ db.tasks, t.id = r.taskId → r.workspaceId = t.workspaceId

theorem Consistent.keyed {db : Db} (h : Consistent db) : Keyed Task.id db.tasks db.nextTaskId :=
  ⟨h.unique, h.fresh⟩

/-- Rewriting rows that keep their identity, with the effects and projects as they may be. -/
theorem Consistent.rewrite {db : Db} (h : Consistent db) {g : Task → Task} (keeps : KeepsRow g)
    (projects : List Project) (effects : List Effect) :
    Consistent { db with tasks := db.tasks.map g, projects := projects, effects := effects } := by
  have hkeyed := h.keyed.map fun t => (keeps t).1
  refine ⟨hkeyed.unique, hkeyed.fresh, h.reviewed, ?_⟩
  intro r hr t ht hid
  obtain ⟨old, hold, rfl⟩ := List.mem_map.mp ht
  rw [(keeps old).1] at hid
  rw [(keeps old).2]
  exact h.workspace r hr old hold hid

theorem Consistent.insert {db : Db} (h : Consistent db) {task : Task} (hid : task.id = db.nextTaskId)
    (projects : List Project) (effects : List Effect) :
    Consistent { insertTask db task with projects := projects, effects := effects } := by
  have hkeyed := h.keyed.snoc hid
  refine ⟨hkeyed.unique, hkeyed.fresh, ?_, ?_⟩
  · intro r hr
    have hlt := h.reviewed r hr
    show r.taskId < db.nextTaskId + 1
    omega
  · intro r hr t ht hsame
    rcases List.mem_append.mp ht with ht | ht
    · exact h.workspace r hr t ht hsame
    · have hlt := h.reviewed r hr
      rw [List.mem_singleton.mp ht, hid] at hsame
      omega

theorem Consistent.review {db : Db} (h : Consistent db) (ctx : Context) {review : Review}
    (hreview : Reviews ctx db review) (nextReviewId : Nat) :
    Consistent { db with reviews := db.reviews ++ [review], nextReviewId := nextReviewId } := by
  obtain ⟨task, hmem, hid, hworkspace⟩ := hreview.task
  refine ⟨h.unique, h.fresh, ?_, ?_⟩
  · intro r hr
    rcases List.mem_append.mp hr with hr | hr
    · exact h.reviewed r hr
    · rw [List.mem_singleton.mp hr, ← hid]
      exact h.fresh task hmem
  · intro r hr t ht hsame
    rcases List.mem_append.mp hr with hr | hr
    · exact h.workspace r hr t ht hsame
    · obtain rfl := List.mem_singleton.mp hr
      obtain rfl := h.keyed.eq_of_key ht hmem (hsame.trans hid.symm)
      rw [hreview.workspaceId, hworkspace]

theorem consistent_change {ctx : Context} {db db' : Db} {request : Request} (h : Consistent db)
    (hchange : Change ctx db request db') : Consistent db' := by
  cases hchange with
  | kept => exact ⟨h.unique, h.fresh, h.reviewed, h.workspace⟩
  | created row id workspaceId number => exact h.insert id _ _
  | rewritten update rewrites => exact h.rewrite rewrites.row _ _
  | moved row keeps gate number => exact h.rewrite keeps.guarded _ _
  | reviewed reviews keeps gate number =>
    refine (h.rewrite keeps _ _).review ctx ?_ _
    obtain ⟨task, hmem, hid, hworkspace⟩ := reviews.task
    refine ⟨⟨_, List.mem_map_of_mem hmem, ?_, ?_⟩, reviews.workspaceId⟩
    · rw [(keeps task).1]
      exact hid
    · rw [(keeps task).2]
      exact hworkspace

theorem consistent_run {start db : Db} {trace : List (Context × Request)} (h : Consistent start)
    (hrun : machine.run start trace = some db) : Consistent db := by
  have hpreserved : ∀ s ev s', Consistent s → True → machine.step s ev = some s' →
      Consistent s' := by
    intro s ev s' hs _ hstep
    obtain rfl := Option.some.inj hstep
    exact consistent_change hs (serve_change hs.unique ev.2)
  exact Machine.run_invariant hpreserved h (Machine.Meets.of_forall (fun _ _ => trivial) start trace)
    hrun

/-! ### The gate -/

/-- In the workspace of the task the gate asks about all of its Aegis reviews. -/
theorem Consistent.aegisReviews_eq {db : Db} (h : Consistent db) {t : Task} (ht : t ∈ db.tasks) :
    db.aegisReviews t.workspaceId t.id = aegisOf db t.id := by
  apply List.filter_congr
  intro r hr
  by_cases htask : r.taskId = t.id
  · have hworkspace := h.workspace r hr t ht htask.symm
    simp [htask, hworkspace]
  · simp [htask]

/-- A task that the gate lets through has an approval that no review of it is newer than. -/
theorem Consistent.approved {ctx : Context} {db : Db} (h : Consistent db) {t : Task}
    (ht : t ∈ db.tasks) (hworkspace : t.workspaceId = ctx.user.workspaceId)
    (happroved : hasAegisApproval ctx db t.id = true) : ∃ review ∈ aegisOf db t.id,
      review.status = .approved ∧ ∀ other ∈ aegisOf db t.id, other.createdAt ≤ review.createdAt := by
  unfold hasAegisApproval at happroved
  rw [← hworkspace, h.aegisReviews_eq ht] at happroved
  split at happroved
  · rename_i review hpick
    exact ⟨review, ctx.latestReview.mem _ _ hpick, of_decide_eq_true happroved,
      ctx.latestReview.least _ _ hpick⟩
  · cases happroved

/-- The approvals of a task after a request: there is one, and it is the last review when the
times of the reviews tell their order, or when the request is a review. -/
def Approved (db : Db) (request : Request) (taskId : Nat) : Prop :=
  (∃ review ∈ aegisOf db taskId, review.status = .approved) ∧
    ((aegisOf db taskId).Pairwise (fun a b => a.createdAt < b.createdAt) ∨
      (∃ json, request = .postReview json) →
        ∃ review, (aegisOf db taskId).getLast? = some review ∧ review.status = .approved)

private theorem approved_of_gate {ctx : Context} {db db' : Db} {request : Request} {t : Task}
    (h : Consistent db) (ht : t ∈ db.tasks)
    (hgate : t.workspaceId = ctx.user.workspaceId ∧ hasAegisApproval ctx db t.id = true)
    (hreviews : db'.reviews = db.reviews) (hupdate : ∀ json, request ≠ .postReview json) :
    Approved db' request t.id := by
  obtain ⟨review, hmem, hstatus, hgreatest⟩ := h.approved ht hgate.1 hgate.2
  have hsame : aegisOf db' t.id = aegisOf db t.id := by
    rw [aegisOf, aegisOf, hreviews]
  rw [Approved, hsame]
  refine ⟨⟨review, hmem, hstatus⟩, ?_⟩
  rintro (hincreasing | ⟨json, hjson⟩)
  · exact ⟨review, getLast?_of_greatest hincreasing hmem hgreatest, hstatus⟩
  · exact absurd hjson (hupdate json)

private theorem approved_of_review {db : Db} {request : Request} {review : Review}
    (haegis : review.reviewer = "aegis") (hstatus : review.status = .approved)
    {tasks : List Task} {nextReviewId : Nat} {effects : List Effect} :
    Approved { db with
      tasks := tasks
      reviews := db.reviews ++ [review]
      nextReviewId := nextReviewId
      effects := effects } request review.taskId := by
  have hlast : aegisOf { db with
      tasks := tasks
      reviews := db.reviews ++ [review]
      nextReviewId := nextReviewId
      effects := effects } review.taskId = aegisOf db review.taskId ++ [review] := by
    simp [aegisOf, List.filter_append, haegis]
  rw [Approved, hlast]
  refine ⟨⟨review, List.mem_append_right _ (List.mem_singleton_self review), hstatus⟩, ?_⟩
  intro _
  exact ⟨review, List.getLast?_concat, hstatus⟩

/-- The step lemma: a request that makes an existing task done leaves it approved. -/
theorem approved_of_done {ctx : Context} {db db' : Db} {request : Request} {task task' : Task}
    (h : Consistent db) (hchange : Change ctx db request db') (hbefore : task ∈ db.tasks)
    (hafter : task' ∈ db'.tasks) (hid : task'.id = task.id) (hopen : task.status ≠ .done)
    (hdone : task'.status = .done) : Approved db' request task.id := by
  cases hchange with
  | kept =>
    obtain rfl := h.keyed.eq_of_key hafter hbefore hid
    exact absurd hdone hopen
  | created row hfresh workspaceId number =>
    rcases List.mem_append.mp hafter with hafter | hafter
    · obtain rfl := h.keyed.eq_of_key hafter hbefore hid
      exact absurd hdone hopen
    · have hlt := h.fresh task hbefore
      rw [List.mem_singleton.mp hafter, hfresh] at hid
      omega
  | rewritten update rewrites =>
    obtain ⟨t, ht, rfl⟩ := List.mem_map.mp hafter
    obtain rfl := h.keyed.eq_of_key ht hbefore ((rewrites.row t).1.symm.trans hid)
    rcases rewrites.gate t ht hdone with hdone | hgate
    · exact absurd hdone hopen
    · exact approved_of_gate h ht hgate rfl update
  | moved row keeps gate number =>
    obtain ⟨t, ht, rfl⟩ := List.mem_map.mp hafter
    have hkept : t.id = task.id := by
      rw [← hid]
      split
      · exact (keeps t).1.symm
      · rfl
    obtain rfl := h.keyed.eq_of_key ht hbefore hkept
    rcases gate t ht hdone with hdone | hgate
    · exact absurd hdone hopen
    · exact approved_of_gate h ht hgate rfl fun _ => nofun
  | reviewed reviews keeps gate number =>
    obtain ⟨t, ht, rfl⟩ := List.mem_map.mp hafter
    obtain rfl := h.keyed.eq_of_key ht hbefore ((keeps t).1.symm.trans hid)
    rcases gate t hdone with hdone | ⟨htask, haegis, hstatus⟩
    · exact absurd hdone hopen
    · rw [htask]
      exact approved_of_review haegis hstatus

theorem consistent_sampleDb : Consistent sampleDb := by
  constructor <;> decide

def sampleApproval : Json :=
  .object [("taskId", .number 1), ("status", .string "approved"), ("notes", .string "Complete")]

def sampleReopen : Json :=
  .object [("tasks", .array [.object [("id", .number 1), ("status", .string "review")]])]

def sampleFinish : Json := .object [("status", .string "done")]

def sampleFinished : Json := .object [("title", .string "Shipped"), ("status", .string "done")]

end MissionControl.Tasks.QualityGate
