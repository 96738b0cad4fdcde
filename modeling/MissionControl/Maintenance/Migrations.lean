import Mathlib.Data.List.Nodup
import MissionControl.Foundations.Transition

/-!
The migrations of the database. A run reads once which migrations have been applied, and applies
each of the others in a transaction of its own; so a run that is cut short is taken up by the next
one where it stopped.
-/

set_option autoImplicit false
set_option relaxedAutoImplicit false

namespace MissionControl.Maintenance.Migrations

open MissionControl.Foundations.Transition (Machine)

/-- The ids of `migrations`, in their order. -/
def migrationIds : List String :=
  ["001_init", "002_quality_reviews", "003_quality_review_status_backfill", "004_messages",
    "005_users", "006_workflow_templates", "007_audit_log", "008_webhooks", "009_pipelines",
    "010_settings", "011_alert_rules", "012_super_admin_tenants", "013_tenant_owner_gateway",
    "014_auth_google_approvals", "015_missing_indexes", "016_direct_connections",
    "017_github_sync", "018_token_usage", "019_webhook_retry", "020_claude_sessions",
    "021_workspace_isolation_phase1", "022_workspace_isolation_phase2",
    "023_workspace_isolation_phase3", "024_projects_support",
    "025_token_usage_task_attribution", "026_task_outcome_tracking", "027_agent_api_keys",
    "028_pipeline_run_context", "029_pipeline_auto_advance_and_task_linkage", "030_data_rooms"]

universe u

variable {Data : Type u}

/-- The database; `applied` is the table `schema_migrations`. -/
structure Db (Data : Type u) where
  data : Data
  applied : List String

/-- A call of `runMigrations`: the version of the list it has, as a number of migrations, the set
that it has read, and the migrations that its loop has not come to. -/
structure Run where
  version : Nat
  applied : List String
  remaining : List String
  deriving DecidableEq

structure World (Data : Type u) where
  db : Db Data
  runs : List Run

/-- `INSERT OR IGNORE INTO schema_migrations (id) VALUES (?)`. -/
def insertOrIgnore (applied : List String) (id : String) : List String :=
  if id ∈ applied then applied else applied ++ [id]

/-- The transaction of a migration; what it throws rolls it back. -/
def migrate (up : String → Data → Except String Data) (db : Db Data) (id : String) :
    Except String (Db Data) :=
  match up id db.data with
  | .ok data => .ok ⟨data, insertOrIgnore db.applied id⟩
  | .error message => .error message

/-- A process calls `runMigrations`, its loop goes on, or the process ends. -/
inductive Event where
  | start (version : Nat)
  | next (i : Nat)
  | crash (i : Nat)
  deriving DecidableEq

/-- The loop of a call: one migration is passed over, applied, or thrown out of; a call that is
through returns. -/
def next (up : String → Data → Except String Data) (w : World Data) (i : Nat) (run : Run) :
    World Data :=
  match run.remaining with
  | [] => { w with runs := w.runs.eraseIdx i }
  | id :: rest =>
    if id ∈ run.applied then { w with runs := w.runs.set i { run with remaining := rest } }
    else
      match migrate up w.db id with
      | .ok db => ⟨db, w.runs.set i { run with remaining := rest }⟩
      | .error _ => { w with runs := w.runs.eraseIdx i }

/-- `ids` are the migrations there will ever be: each version of the program has the first ones. -/
def machine (ids : List String) (up : String → Data → Except String Data) :
    Machine (World Data) Event where
  step w
    | .start version =>
      some { w with runs := w.runs ++ [⟨version, w.db.applied, ids.take version⟩] }
    | .next i => w.runs[i]?.map fun run => next up w i run
    | .crash i => w.runs[i]?.map fun _ => { w with runs := w.runs.eraseIdx i }

def World.fresh (data : Data) : World Data := ⟨⟨data, []⟩, []⟩

/-- No call begins before the last one has returned, thrown or crashed. -/
def Alone (w : World Data) : Event → Prop
  | .start _ => w.runs = []
  | _ => True

/-! ### The list and its versions -/

section

variable {ids rest : List String} {id : String} {p m v : Nat}

theorem take_succ_of_split (hp : p ≤ ids.length) (h : ids.take v = ids.take p ++ id :: rest) :
    ids.take (p + 1) = ids.take p ++ [id] := by
  have hsplit : ids = (ids.take p ++ id :: rest) ++ ids.drop v := by
    rw [← h, List.take_append_drop]
  have hlength : (ids.take p).length = p := List.length_take_of_le hp
  conv_lhs => rw [hsplit]
  rw [List.append_assoc, List.take_append, hlength, List.take_of_length_le (by omega)]
  simp

theorem mem_take_iff (hids : ids.Nodup) (hp : p ≤ ids.length)
    (h : ids.take v = ids.take p ++ id :: rest) : id ∈ ids.take m ↔ p < m := by
  have hsucc := take_succ_of_split hp h
  constructor
  · intro hmem
    by_contra hle
    have hbefore : id ∈ ids.take p := (List.take_subset_take_left ids (Nat.le_of_not_lt hle)) hmem
    have hnodup : (ids.take p ++ [id]).Nodup := hsucc ▸ hids.sublist (List.take_sublist _ _)
    exact (List.nodup_append.mp hnodup).2.2 id hbefore id (List.mem_singleton_self id) rfl
  · intro hlt
    have hmem : id ∈ ids.take (p + 1) := by
      rw [hsucc]
      exact List.mem_append_right _ (List.mem_singleton_self id)
    exact (List.take_subset_take_left ids hlt) hmem

end

/-! ### One call at a time -/

variable {ids : List String} {up : String → Data → Except String Data} {initial : Data}
variable {w w' : World Data}

/-- A call that began when `m` migrations were applied has come to the one after the first `p`. -/
structure Underway (ids : List String) (k : Nat) (run : Run) (m p : Nat) : Prop where
  began : run.applied = ids.take m
  come : ids.take run.version = ids.take p ++ run.remaining
  within : p ≤ ids.length
  applied : k = max m p

/-- The first `k` migrations have been applied, each once, in their order. -/
structure Reached (ids : List String) (up : String → Data → Except String Data) (initial : Data)
    (k : Nat) (db : Db Data) : Prop where
  within : k ≤ ids.length
  applied : db.applied = ids.take k
  data : (ids.take k).foldlM (fun data id => up id data) initial = .ok db.data

structure Sound (ids : List String) (up : String → Data → Except String Data) (initial : Data)
    (w : World Data) : Prop where
  reached : ∃ k, Reached ids up initial k w.db ∧
    (w.runs = [] ∨ ∃ run m p, w.runs = [run] ∧ Underway ids k run m p)

theorem sound_fresh : Sound ids up initial (World.fresh initial) :=
  ⟨0, ⟨Nat.zero_le _, rfl, rfl⟩, .inl rfl⟩

theorem Reached.succ {k : Nat} {db db' : Db Data} {id : String} (h : Reached ids up initial k db)
    (hnext : ids.take (k + 1) = ids.take k ++ [id]) (hlt : k < ids.length) (hnew : id ∉ ids.take k)
    (hup : migrate up db id = .ok db') : Reached ids up initial (k + 1) db' := by
  unfold migrate at hup
  cases hdata : up id db.data with
  | error message =>
    rw [hdata] at hup
    cases hup
  | ok data =>
    rw [hdata] at hup
    obtain rfl := Except.ok.inj hup
    refine ⟨hlt, ?_, ?_⟩
    · rw [hnext, insertOrIgnore, h.applied, if_neg hnew]
    · rw [hnext, List.foldlM_append, h.data]
      simp only [List.foldlM_cons, List.foldlM_nil, hdata, bind, Except.bind, pure, Except.pure]

theorem sound_next (hids : ids.Nodup) {run : Run} {m p k : Nat}
    (hreached : Reached ids up initial k w.db) (hruns : w.runs = [run])
    (hrun : Underway ids k run m p) : Sound ids up initial (next up w 0 run) := by
  unfold next
  cases hremaining : run.remaining with
  | nil => exact ⟨k, hreached, .inl (by simp [hruns])⟩
  | cons id rest =>
    have hcome := hrun.come
    rw [hremaining] at hcome
    have hsucc := take_succ_of_split hrun.within hcome
    have hlt : p < ids.length := by
      by_contra hle
      have hlength := congrArg List.length hsucc
      simp only [List.length_take, List.length_append, List.length_singleton] at hlength
      omega
    have hcome' : ids.take run.version = ids.take (p + 1) ++ rest := by
      rw [hcome, hsucc, List.append_assoc]
      rfl
    have hpassed := mem_take_iff (m := m) hids hrun.within hcome
    dsimp only
    split
    · rename_i hmem
      rw [hrun.began] at hmem
      have hpm := hpassed.mp hmem
      refine ⟨k, hreached, .inr ⟨{ run with remaining := rest }, m, p + 1, by rw [hruns]; rfl,
        hrun.began, hcome', hlt, ?_⟩⟩
      have happlied := hrun.applied
      omega
    · rename_i hmem
      rw [hrun.began] at hmem
      have hmp : m ≤ p := Nat.le_of_not_lt fun h => hmem (hpassed.mpr h)
      obtain rfl : k = p := hrun.applied.trans (Nat.max_eq_right hmp)
      have hnew : id ∉ ids.take k := fun h =>
        Nat.lt_irrefl k ((mem_take_iff hids hrun.within hcome).mp h)
      split
      · rename_i db hup
        refine ⟨k + 1, hreached.succ hsucc hlt hnew hup, .inr ⟨{ run with remaining := rest }, m,
          k + 1, by rw [hruns]; rfl, hrun.began, hcome', hlt, ?_⟩⟩
        omega
      · exact ⟨k, hreached, .inl (by simp [hruns])⟩

theorem sound_step (hids : ids.Nodup) {e : Event} (h : Sound ids up initial w) (halone : Alone w e)
    (hstep : (machine ids up).step w e = some w') : Sound ids up initial w' := by
  obtain ⟨k, hreached, hruns⟩ := h.reached
  cases e with
  | start version =>
    obtain rfl := Option.some.inj hstep
    have hnone : w.runs = [] := halone
    refine ⟨k, hreached, .inr ⟨_, k, 0, by rw [hnone]; rfl, hreached.applied, rfl,
      Nat.zero_le _, (Nat.max_zero k).symm⟩⟩
  | next i =>
    obtain ⟨run, hi, rfl⟩ := Option.map_eq_some_iff.mp hstep
    rcases hruns with hnone | ⟨run', m, p, hone, hrun⟩
    · rw [hnone] at hi
      cases hi
    · rw [hone, List.getElem?_singleton] at hi
      split at hi
      · obtain rfl := Option.some.inj hi
        subst i
        exact sound_next hids hreached hone hrun
      · cases hi
  | crash i =>
    obtain ⟨run, hi, rfl⟩ := Option.map_eq_some_iff.mp hstep
    rcases hruns with hnone | ⟨run', m, p, hone, hrun⟩
    · rw [hnone] at hi
      cases hi
    · rw [hone, List.getElem?_singleton] at hi
      split at hi
      · subst i
        exact ⟨k, hreached, .inl (by simp [hone])⟩
      · cases hi

theorem nodup_migrationIds : migrationIds.Nodup := by decide

/-- However calls end, and whatever versions of the program make them, the migrations that have been
applied are the first ones of the list, each applied once and in order; a call that has come through
its list has all of it applied. -/
theorem migrations_in_order {trace : List Event}
    (halone : (machine migrationIds up).Meets Alone (World.fresh initial) trace)
    (hrun : (machine migrationIds up).run (World.fresh initial) trace = some w) :
    ∃ k, w.db.applied = migrationIds.take k ∧
      (migrationIds.take k).foldlM (fun data id => up id data) initial = .ok w.db.data ∧
      ∀ run ∈ w.runs, run.remaining = [] →
        ∀ id ∈ migrationIds.take run.version, id ∈ w.db.applied := by
  have hsound : Sound migrationIds up initial w :=
    Machine.run_invariant (fun w e w' h halone hstep => sound_step nodup_migrationIds h halone hstep)
      sound_fresh halone hrun
  obtain ⟨k, hreached, hruns⟩ := hsound.reached
  refine ⟨k, hreached.applied, hreached.data, ?_⟩
  intro run hmem hdone id hid
  rcases hruns with hnone | ⟨run', m, p, hone, hunderway⟩
  · rw [hnone] at hmem
    cases hmem
  · rw [hone] at hmem
    obtain rfl := List.mem_singleton.mp hmem
    have hcome := hunderway.come
    rw [hdone, List.append_nil] at hcome
    rw [hcome] at hid
    rw [hreached.applied, hunderway.applied]
    exact List.take_subset_take_left _ (Nat.le_max_right m p) hid

/-! ### A call that is taken up -/

/-- Migrations that keep their ids as the data; the third one throws for want of the second. -/
def recorded (id : String) (data : List String) : Except String (List String) :=
  if id = "003_quality_review_status_backfill" ∧ "002_quality_reviews" ∉ data then
    .error "no such table: quality_reviews"
  else .ok (data ++ [id])

instance (w : World (List String)) : DecidablePred (Alone w)
  | .start _ => inferInstanceAs (Decidable (w.runs = []))
  | .next _ | .crash _ => inferInstanceAs (Decidable True)

/-- A process crashes after the second migration; the next one, of a later version, goes on. -/
def crashed : List Event :=
  [.start 4, .next 0, .next 0, .crash 0, .start 5] ++ List.replicate 5 (.next 0)

theorem crashed_in_order :
    ∃ w, (machine migrationIds recorded).run (World.fresh []) crashed = some w ∧
      ∃ k, w.db.applied = migrationIds.take k := by
  obtain ⟨w, hrun⟩ := Option.isSome_iff_exists.mp
    (by decide +kernel :
      ((machine migrationIds recorded).run (World.fresh []) crashed).isSome = true)
  have halone : (machine migrationIds recorded).Meets Alone (World.fresh []) crashed := by
    decide +kernel
  obtain ⟨k, happlied, -⟩ := migrations_in_order halone hrun
  exact ⟨w, hrun, k, happlied⟩

end MissionControl.Maintenance.Migrations
