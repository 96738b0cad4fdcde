import Mathlib.Data.List.Permutation
import MissionControl.Cron.Routes
import MissionControl.Foundations.Lists
import MissionControl.Foundations.ReadModifyWrite

/-!
Several requests to `/api/cron` at once. Each of them reads `jobs.json` and writes it later, and
what another one has written in between is lost.
-/

set_option autoImplicit false
set_option relaxedAutoImplicit false

namespace MissionControl.Cron.Store

open MissionControl.Cron.Routes
open MissionControl.Foundations.JsonValues
open MissionControl.Foundations.Lists (map_modify_of_eq)
open MissionControl.Foundations.ReadModifyWrite (applyAll applyAll_append)
open MissionControl.Foundations.Schema (Json)
open MissionControl.Foundations.Transition (Machine)

variable {Text : Type}

/-! ### Requests under way -/

/-- A request and what the clock showed it. -/
structure Request where
  body : Option Json
  clock : Clock
  deriving DecidableEq

/-- A request that has read the file, with what it will write. -/
structure Pending (Text : Type) where
  request : Request
  found : CronPath Text
  data : Json
  reply : Reply

/-- The file and the requests; `saved` has those that have written it, in this order. -/
structure World (Text : Type) where
  path : CronPath Text
  waiting : List (Option Json)
  loaded : List (Pending Text)
  saved : List Request
  answered : List Reply

def World.init (path : CronPath Text) : World Text := ⟨path, [], [], [], []⟩

inductive Event where
  | post (body : Option Json)
  | load (i : Nat) (clock : Clock)
  | save (i : Nat) (writes : Bool)

section

variable (format : Format Text) (env : Environment)

/-- A request makes a new file of the one that it reads. -/
def load (w : World Text) (i : Nat) (request : Request) : World Text :=
  match post env request.clock request.body (loadCronFile format env w.path) with
  | .reply reply =>
    { w with waiting := w.waiting.eraseIdx i, answered := w.answered ++ [reply] }
  | .save data reply =>
    { w with
      waiting := w.waiting.eraseIdx i
      loaded := w.loaded ++ [⟨request, w.path, data, reply⟩] }

/-- A request writes its file. -/
def save (w : World Text) (i : Nat) (p : Pending Text) (writes : Bool) : World Text :=
  match saveCronFile format env writes p.data with
  | none =>
    { w with loaded := w.loaded.eraseIdx i, answered := w.answered ++ [.saveFailed] }
  | some raw =>
    { w with
      path := .file raw
      loaded := w.loaded.eraseIdx i
      saved := w.saved ++ [p.request]
      answered := w.answered ++ [p.reply] }

def step (w : World Text) : Event → Option (World Text)
  | .post body => some { w with waiting := w.waiting ++ [body] }
  | .load i clock => (w.waiting[i]?).map fun body => load format env w i ⟨body, clock⟩
  | .save i writes => (w.loaded[i]?).map fun p => save format env w i p writes

def machine : Machine (World Text) Event := ⟨step format env⟩

/-! ### What is promised -/

/-- What a request makes of a file when nothing comes between its read and its write. -/
def edit (request : Request) (path : CronPath Text) : Option (CronPath Text) :=
  match post env request.clock request.body (loadCronFile format env path) with
  | .reply _ => none
  | .save data _ => (saveCronFile format env true data).map .file

def jobsIn (path : CronPath Text) : List Json :=
  ((loadCronFile format env path).bind jobsOf).getD []

/-- The jobs are those that the requests make when they come one after another. -/
def Serial (first : CronPath Text) (w : World Text) : Prop :=
  ∃ order final, order.Perm w.saved ∧ applyAll (edit format env) order first = some final ∧
    jobsIn format env final = jobsIn format env w.path

/-- The file is there, and cannot be read or parsed. -/
def Broken : CronPath Text → Prop
  | .missing => False
  | .unreadable => True
  | .file raw => format.parse raw = none

def ids (jobs : List Json) : List Json := jobs.filterMap fun job => getField job "id"

def UniqueIds (path : CronPath Text) : Prop := (ids (jobsIn format env path)).Nodup

/-- The action of a request on a job that exists, and what it names the job by. -/
def selected (body : Option Json) : Option (Action × Json) :=
  body.bind fun body =>
    let action := getField body "action"
    (if action = some (.string "toggle") then some Action.toggle
      else if action = some (.string "trigger") ∧ env.allowCommandTrigger = some "1" then
        some Action.trigger
      else if action = some (.string "remove") then some Action.remove
      else none).bind fun action => (givenId body).map fun id => (action, id)

/-- A request that reads the file acts on the first job with the id that it gives. -/
def ActsById (w : World Text) : Event → Prop
  | .load i clock =>
    ∀ body action id cronFile jobs k, w.waiting[i]? = some body →
      selected env body = some (action, id) → loadCronFile format env w.path = some cronFile →
      jobsOf cronFile = some jobs → jobs.findIdx? (hasId id) = some k →
      post env clock body (some cronFile) = action.act clock cronFile jobs k
  | .post _ | .save _ _ => True

/-! ### When it is kept -/

/-- A write finds a file of which its request makes the same as of the one that it has read. -/
def Unraced (w : World Text) : Event → Prop
  | .save i writes =>
    ∀ p, w.loaded[i]? = some p → saveCronFile format env writes p.data ≠ none →
      edit format env p.request w.path = edit format env p.request p.found
  | .post _ | .load _ _ => True

/-- A request that could not read or parse the file does not come to write it. -/
def NotBlind (w : World Text) : Event → Prop
  | .save i writes =>
    ∀ p, w.loaded[i]? = some p → Broken format p.found →
      saveCronFile format env writes p.data = none
  | .post _ | .load _ _ => True

/-- The name under which a request adds a job. -/
def addedName (body : Option Json) : Option Json :=
  body.bind fun body =>
    if getField body "action" = some (.string "add") then givenName body else none

/-- The clock gives a job that is added an id that no job has which stays. -/
def FreshId (w : World Text) : Event → Prop
  | .save i writes =>
    ∀ p name, w.loaded[i]? = some p → saveCronFile format env writes p.data ≠ none →
      addedName p.request.body = some name →
      newId p.request.clock ∉
        ids ((jobsIn format env p.found).filter fun job => !hasName name job)
  | .post _ | .load _ _ => True

/-- No job before the one with the id is named like it, and none is `null`. -/
def Unshadowed (w : World Text) : Event → Prop
  | .load i _ =>
    ∀ body action id cronFile jobs k, w.waiting[i]? = some body →
      selected env body = some (action, id) → loadCronFile format env w.path = some cronFile →
      jobsOf cronFile = some jobs → jobs.findIdx? (hasId id) = some k →
      ∀ job ∈ jobs.take k, job ≠ .null ∧ hasName id job = false
  | .post _ | .save _ _ => True

end

variable {format : Format Text} {env : Environment} {first : CronPath Text} {w w' : World Text}
  {e : Event}

/-! ### Steps -/

/-- A loaded request has made its file of the one that it found. -/
def Consistent (format : Format Text) (env : Environment) (p : Pending Text) : Prop :=
  post env p.request.clock p.request.body (loadCronFile format env p.found) = .save p.data p.reply

/-- What an event does. -/
theorem step_cases (h : step format env w e = some w') :
    (w'.path = w.path ∧ w'.saved = w.saved ∧
      ∀ p ∈ w'.loaded, p ∈ w.loaded ∨ (p.found = w.path ∧ Consistent format env p)) ∨
    ∃ i writes p raw, e = .save i writes ∧ w.loaded[i]? = some p ∧
      saveCronFile format env writes p.data = some raw ∧ w'.path = .file raw ∧
      w'.loaded = w.loaded.eraseIdx i ∧ w'.saved = w.saved ++ [p.request] := by
  cases e with
  | post body =>
    obtain rfl := Option.some.inj h
    exact .inl ⟨rfl, rfl, fun p hp => .inl hp⟩
  | load i clock =>
    obtain ⟨body, -, rfl⟩ := Option.map_eq_some_iff.mp h
    left
    unfold load
    cases hpost : post env clock body (loadCronFile format env w.path) with
    | reply reply => exact ⟨rfl, rfl, fun p hp => .inl hp⟩
    | save data reply =>
      refine ⟨rfl, rfl, fun p hp => ?_⟩
      rcases List.mem_append.mp hp with hp | hp
      · exact .inl hp
      · obtain rfl := List.mem_singleton.mp hp
        exact .inr ⟨rfl, hpost⟩
  | save i writes =>
    obtain ⟨p, hp, rfl⟩ := Option.map_eq_some_iff.mp h
    cases hsave : saveCronFile format env writes p.data with
    | none =>
      left
      simp only [save, hsave]
      exact ⟨trivial, trivial, fun p' hp' => .inl (List.mem_of_mem_eraseIdx hp')⟩
    | some raw =>
      right
      refine ⟨i, writes, p, raw, rfl, hp, hsave, ?_⟩
      simp [save, hsave]

/-- What is written can be read again. -/
theorem load_saved {writes : Bool} {data : Json} {raw : Text}
    (h : saveCronFile format env writes data = some raw) :
    loadCronFile format env (.file raw) = some data := by
  unfold saveCronFile at h
  by_cases hfails : env.openclawStateDir = "" ∨ writes = false
  · simp [hfails] at h
  · rw [if_neg hfails] at h
    simp only [loadCronFile]
    rw [if_neg (not_or.mp hfails).1, format.parse_print _ _ h]

theorem saveCronFile_true {writes : Bool} {data : Json} {raw : Text}
    (h : saveCronFile format env writes data = some raw) :
    saveCronFile format env true data = some raw := by
  cases writes with
  | true => exact h
  | false => simp [saveCronFile] at h

/-! ### One after another -/

/-- The path is what the requests that have written it make of the first one. -/
def InOrder (format : Format Text) (env : Environment) (first : CronPath Text) (w : World Text) :
    Prop :=
  (∀ p ∈ w.loaded, Consistent format env p) ∧
    applyAll (edit format env) w.saved first = some w.path

theorem consistent_step (hconsistent : ∀ p ∈ w.loaded, Consistent format env p)
    (h : step format env w e = some w') : ∀ p ∈ w'.loaded, Consistent format env p := by
  intro p hp
  obtain ⟨-, -, hloaded⟩ | ⟨i, writes, p', raw, -, -, -, -, hloaded, -⟩ := step_cases h
  · rcases hloaded p hp with hold | ⟨-, hnew⟩
    · exact hconsistent p hold
    · exact hnew
  · rw [hloaded] at hp
    exact hconsistent p (List.mem_of_mem_eraseIdx hp)

theorem edit_of_consistent {p : Pending Text} {writes : Bool} {raw : Text}
    (hconsistent : Consistent format env p)
    (hsave : saveCronFile format env writes p.data = some raw) :
    edit format env p.request p.found = some (.file raw) := by
  unfold edit
  rw [hconsistent]
  show (saveCronFile format env true p.data).map CronPath.file = _
  rw [saveCronFile_true hsave, Option.map_some]

theorem inOrder_step (hordered : InOrder format env first w) (hunraced : Unraced format env w e)
    (h : step format env w e = some w') : InOrder format env first w' := by
  refine ⟨consistent_step hordered.1 h, ?_⟩
  obtain ⟨hpath, hsaved, -⟩ | ⟨i, writes, p, raw, rfl, hp, hsave, hpath, -, hsaved⟩ := step_cases h
  · rw [hpath, hsaved]
    exact hordered.2
  · have hmade := edit_of_consistent (hordered.1 p (List.mem_of_getElem? hp)) hsave
    rw [← hunraced p hp (by simp [hsave])] at hmade
    rw [hsaved, hpath, applyAll_append, hordered.2, Option.bind_some]
    simp only [applyAll, hmade, Option.bind_some]

/-- Requests whose writes are not raced have the effect of one after another. -/
theorem serial_of_unraced_requests {trace : List Event}
    (hunraced : (machine format env).Meets (Unraced format env) (.init first) trace)
    (hrun : (machine format env).run (.init first) trace = some w) :
    Serial format env first w := by
  have hinit : InOrder format env first (.init first) := ⟨fun p hp => (nomatch hp), rfl⟩
  have hkept : ∀ w e w', InOrder format env first w → Unraced format env w e →
      (machine format env).step w e = some w' → InOrder format env first w' :=
    fun w e w' hordered hunraced hstep => inOrder_step hordered hunraced hstep
  obtain ⟨-, hordered⟩ := Machine.run_invariant hkept hinit hunraced hrun
  exact ⟨w.saved, w.path, List.Perm.refl _, hordered, rfl⟩

/-! ### A broken file -/

theorem load_of_broken {path : CronPath Text} (h : Broken format path) :
    loadCronFile format env path = none := by
  cases path with
  | missing => rfl
  | unreadable => rfl
  | file raw =>
    simp only [loadCronFile]
    rw [show format.parse raw = none from h, ite_self]

/-- Only a request that adds a job comes to write where nothing could be read. -/
theorem added_of_blind {clock : Clock} {body : Option Json} {data : Json} {reply : Reply}
    (h : post env clock body none = .save data reply) : (addedName body).isSome := by
  obtain ⟨body', rfl, ⟨-, action, id, cronFile, hloaded, -⟩ | ⟨hadd, hadded⟩⟩ := post_cases h
  · cases hloaded
  · obtain ⟨-, -, name, -, hname, -⟩ := add_save hadded
    simp [addedName, hadd, hname]

theorem not_broken_of_saved {writes : Bool} {data : Json} {raw : Text}
    (h : saveCronFile format env writes data = some raw) : ¬ Broken format (.file raw) := by
  intro hbroken
  have hloaded := load_saved h
  rw [load_of_broken hbroken] at hloaded
  cases hloaded

/-- Nothing has been written, and no request has found anything else. -/
def Untouched (first : CronPath Text) (w : World Text) : Prop :=
  w.path = first ∧ ∀ p ∈ w.loaded, p.found = first

/-- A broken file stays as it is exactly as long as no request that could not read it writes. -/
theorem broken_kept_iff (hbroken : Broken format first) (trace : List Event) :
    (machine format env).Always (fun w => w.path = first) (.init first) trace ↔
      (machine format env).Meets (NotBlind format env) (.init first) trace := by
  have hinit : Untouched first (.init first) := ⟨rfl, fun p hp => (nomatch hp)⟩
  have hsound : ∀ w, Untouched first w → w.path = first := fun w h => h.1
  refine Machine.always_iff_meets hsound ?_ ?_ hinit trace
  · rintro w e w' ⟨hpath, hfound⟩ hguard hstep
    obtain ⟨hpath', -, hloaded⟩ | ⟨i, writes, p, raw, rfl, hp, hsave, -, -, -⟩ := step_cases hstep
    · refine ⟨hpath'.trans hpath, fun p hp => ?_⟩
      rcases hloaded p hp with hold | ⟨hnew, -⟩
      · exact hfound p hold
      · exact hnew.trans hpath
    · have hfirst := hfound p (List.mem_of_getElem? hp)
      have hnone := hguard p hp (hfirst ▸ hbroken)
      rw [hsave] at hnone
      cases hnone
  · rintro w e ⟨hpath, -⟩ hguard
    cases e with
    | post body => exact absurd trivial hguard
    | load i clock => exact absurd trivial hguard
    | save i writes =>
      obtain ⟨p, hguard⟩ := not_forall.mp hguard
      obtain ⟨hp, hguard⟩ := Classical.not_imp.mp hguard
      obtain ⟨-, hsaved⟩ := Classical.not_imp.mp hguard
      obtain ⟨raw, hsave⟩ := Option.ne_none_iff_exists'.mp hsaved
      refine ⟨save format env w i p writes, by simp [machine, step, hp], ?_⟩
      simp only [save, hsave]
      rintro rfl
      exact not_broken_of_saved hsave hbroken

/-! ### Ids -/

theorem ids_append (jobs jobs' : List Json) : ids (jobs ++ jobs') = ids jobs ++ ids jobs' :=
  List.filterMap_append

theorem ids_toggled (clock : Clock) (jobs : List Json) (i : Nat) :
    ids (jobs.modify i (toggled clock)) = ids jobs := by
  have hids : ∀ jobs, ids jobs = (jobs.map fun job => getField job "id").filterMap id := by
    intro jobs
    simp [ids, List.filterMap_map]
  rw [hids, hids, map_modify_of_eq]
  intro job
  exact getField_toggled clock (by decide) (by decide) job

theorem ids_newJob (clock : Clock) (name schedule command : Json) (model : Option Json) :
    ids [newJob env clock name schedule command model] = [newId clock] := rfl

/-- The jobs that a request leaves: some of those that were there, and one with a new id if it adds
a job. -/
theorem post_save {clock : Clock} {body loaded : Option Json} {data : Json} {reply : Reply}
    (h : post env clock body loaded = .save data reply) :
    ∃ jobs', jobsOf data = some jobs' ∧
      ((addedName body = none ∧ (ids jobs').Sublist (ids ((loaded.bind jobsOf).getD []))) ∨
        ∃ name, addedName body = some name ∧
          ids jobs' = ids (((loaded.bind jobsOf).getD []).filter fun job => !hasName name job) ++
            [newId clock]) := by
  obtain ⟨body', rfl, ⟨hother, action, id, cronFile, rfl, honJob⟩ | ⟨hadd, hadded⟩⟩ := post_cases h
  · have hname : addedName (some body') = none := by simp [addedName, hother]
    obtain ⟨jobs, i, hjobs, ⟨-, rfl⟩ | ⟨-, rfl⟩⟩ := onJob_save honJob
    · refine ⟨_, jobsOf_withJobs hjobs _, .inl ⟨hname, ?_⟩⟩
      rw [Option.bind_some, hjobs, ids_toggled]
      exact List.Sublist.refl _
    · refine ⟨_, jobsOf_withJobs hjobs _, .inl ⟨hname, ?_⟩⟩
      rw [Option.bind_some, hjobs]
      exact (List.eraseIdx_sublist jobs i).filterMap _
  · obtain ⟨schedule, command, name, jobs, hname, hjobs, rfl⟩ := add_save hadded
    refine ⟨_, jobsOf_withJobs hjobs _, .inr ⟨name, by simp [addedName, hadd, hname], ?_⟩⟩
    have hkept : (loaded.bind jobsOf).getD [] = jobs := by
      cases hloaded : loaded with
      | none =>
        rw [hloaded] at hjobs
        exact Option.some.inj hjobs
      | some cronFile =>
        rw [hloaded] at hjobs
        cases htruthy : truthy cronFile with
        | true =>
          rw [Option.filter_some_pos htruthy, Option.getD_some] at hjobs
          rw [Option.bind_some, hjobs, Option.getD_some]
        | false =>
          rw [Option.filter_some_neg htruthy] at hjobs
          rw [Option.bind_some, jobsOf_of_false htruthy]
          exact Option.some.inj hjobs
    rw [ids_append, ids_newJob, hkept]

/-- The ids in what a request writes are told apart, if those in what it found are, exactly if the
id of a job that it adds is new. -/
theorem unique_saved_iff {p : Pending Text} {writes : Bool} {raw : Text}
    (hconsistent : Consistent format env p)
    (hsave : saveCronFile format env writes p.data = some raw)
    (hfound : UniqueIds format env p.found) :
    UniqueIds format env (.file raw) ↔ ∀ name, addedName p.request.body = some name →
      newId p.request.clock ∉
        ids ((jobsIn format env p.found).filter fun job => !hasName name job) := by
  obtain ⟨jobs', hjobs', ⟨hname, hids⟩ | ⟨name, hname, hids⟩⟩ := post_save hconsistent
  · have hjobsIn : jobsIn format env (.file raw) = jobs' := by
      rw [jobsIn, load_saved hsave, Option.bind_some, hjobs', Option.getD_some]
    refine iff_of_true ?_ (by simp [hname])
    rw [UniqueIds, hjobsIn]
    exact hfound.sublist hids
  · have hjobsIn : jobsIn format env (.file raw) = jobs' := by
      rw [jobsIn, load_saved hsave, Option.bind_some, hjobs', Option.getD_some]
    have hkept : (ids ((jobsIn format env p.found).filter fun job => !hasName name job)).Nodup :=
      hfound.sublist ((List.filter_sublist).filterMap _)
    rw [UniqueIds, hjobsIn, hids, hname]
    simp only [Option.some.injEq, forall_eq']
    rw [List.nodup_append]
    constructor
    · rintro ⟨-, -, hne⟩ hmem
      exact hne _ hmem _ (List.mem_singleton_self _) rfl
    · intro hnew
      refine ⟨hkept, List.nodup_singleton _, ?_⟩
      rintro a ha b hb rfl
      obtain rfl := List.mem_singleton.mp hb
      exact hnew ha

/-- The ids are told apart in the file and in all that the requests have found. -/
def AllUnique (format : Format Text) (env : Environment) (w : World Text) : Prop :=
  UniqueIds format env w.path ∧
    ∀ p ∈ w.loaded, UniqueIds format env p.found ∧ Consistent format env p

/-- The ids stay told apart exactly as long as the clock gives every new job an id that is new. -/
theorem unique_kept_iff (hunique : UniqueIds format env first) (trace : List Event) :
    (machine format env).Always (fun w => UniqueIds format env w.path) (.init first) trace ↔
      (machine format env).Meets (FreshId format env) (.init first) trace := by
  have hinit : AllUnique format env (.init first) := ⟨hunique, fun p hp => (nomatch hp)⟩
  have hsound : ∀ w, AllUnique format env w → UniqueIds format env w.path := fun w h => h.1
  refine Machine.always_iff_meets hsound ?_ ?_ hinit trace
  · rintro w e w' ⟨hpath, hloaded⟩ hguard hstep
    obtain ⟨hpath', -, hloaded'⟩ | ⟨i, writes, p, raw, rfl, hp, hsave, hpath', hloaded', -⟩ :=
      step_cases hstep
    · refine ⟨hpath' ▸ hpath, fun p hp => ?_⟩
      rcases hloaded' p hp with hold | ⟨hfound, hnew⟩
      · exact hloaded p hold
      · exact ⟨hfound ▸ hpath, hnew⟩
    · obtain ⟨hfound, hconsistent⟩ := hloaded p (List.mem_of_getElem? hp)
      constructor
      · rw [hpath']
        exact (unique_saved_iff hconsistent hsave hfound).mpr
          fun name hname => hguard p name hp (by simp [hsave]) hname
      · intro p' hp'
        rw [hloaded'] at hp'
        exact hloaded p' (List.mem_of_mem_eraseIdx hp')
  · rintro w e ⟨-, hloaded⟩ hguard
    cases e with
    | post body => exact absurd trivial hguard
    | load i clock => exact absurd trivial hguard
    | save i writes =>
      obtain ⟨p, hguard⟩ := not_forall.mp hguard
      obtain ⟨name, hguard⟩ := not_forall.mp hguard
      obtain ⟨hp, hguard⟩ := Classical.not_imp.mp hguard
      obtain ⟨hsaved, hguard⟩ := Classical.not_imp.mp hguard
      obtain ⟨hname, hold⟩ := Classical.not_imp.mp hguard
      obtain ⟨raw, hsave⟩ := Option.ne_none_iff_exists'.mp hsaved
      obtain ⟨hfound, hconsistent⟩ := hloaded p (List.mem_of_getElem? hp)
      refine ⟨save format env w i p writes, by simp [machine, step, hp], ?_⟩
      simp only [save, hsave]
      intro hunique
      exact hold ((unique_saved_iff hconsistent hsave hfound).mp hunique name hname)

/-! ### The job that a request names -/

theorem mem_take_of_getElem? {jobs : List Json} {job : Json} {i k : Nat} (h : jobs[i]? = some job)
    (hik : i < k) : job ∈ jobs.take k := by
  apply List.mem_of_getElem? (i := i)
  rw [List.getElem?_take_of_lt hik, h]

/-- The job that is found is the first one that has the id or is named like it, and comes before
every `null`. -/
theorem findJob_eq_iff {id : Json} {jobs : List Json} {k : Nat} :
    findJob id jobs = some (some k) ↔
      (∃ job, jobs[k]? = some job ∧ job ≠ .null ∧ isNamed id job = true) ∧
        ∀ job ∈ jobs.take k, job ≠ .null ∧ isNamed id job = false := by
  induction jobs generalizing k with
  | nil => simp [findJob]
  | cons job jobs ih =>
    unfold findJob
    by_cases hnull : job = .null
    · cases k with
      | zero => simp [hnull]
      | succ k => simp [hnull]
    · rw [if_neg hnull]
      cases hfound : isNamed id job with
      | true =>
        cases k with
        | zero => simp [hnull, hfound]
        | succ k => simp [hfound]
      | false =>
        cases k with
        | zero => simp [hfound]
        | succ k =>
          have htail : (findJob id jobs).map (fun found => found.map (· + 1)) = some (some (k + 1)) ↔
              findJob id jobs = some (some k) := by
            simp [Option.map_eq_some_iff]
          simp only [Bool.false_eq_true, if_false]
          rw [htail, ih]
          simp [hnull, hfound]

theorem object_of_isNamed {id job : Json} (h : isNamed id job = true) :
    ∃ fields, job = .object fields := by
  cases job with
  | object fields => exact ⟨fields, rfl⟩
  | null | bool b | number n | string s | array items =>
    cases id <;> simp [isNamed, hasId, hasName, strictEquals, getField] at h

theorem hasId_null (id : Json) : hasId id .null = false := by
  cases id <;> rfl

/-- The first job with an id. -/
theorem findIdx?_hasId {id : Json} {jobs : List Json} {k : Nat}
    (h : jobs.findIdx? (hasId id) = some k) :
    (∃ job, jobs[k]? = some job ∧ hasId id job = true) ∧
      ∀ job ∈ jobs.take k, hasId id job = false := by
  obtain ⟨hk, hid, hbefore⟩ := List.findIdx?_eq_some_iff_getElem.mp h
  refine ⟨⟨jobs[k], List.getElem?_eq_getElem hk, hid⟩, ?_⟩
  intro job hjob
  obtain ⟨i, hi, rfl⟩ := List.mem_take_iff_getElem.mp hjob
  exact Bool.eq_false_of_not_eq_true (hbefore i (by omega))

theorem findJob_first_iff {id : Json} {jobs : List Json} {k : Nat}
    (h : jobs.findIdx? (hasId id) = some k) :
    findJob id jobs = some (some k) ↔
      ∀ job ∈ jobs.take k, job ≠ .null ∧ hasName id job = false := by
  obtain ⟨⟨job, hjob, hid⟩, hbefore⟩ := findIdx?_hasId h
  rw [findJob_eq_iff]
  constructor
  · rintro ⟨-, hall⟩ job' hjob'
    obtain ⟨hnull, hneither⟩ := hall job' hjob'
    exact ⟨hnull, (Bool.or_eq_false_iff.mp hneither).2⟩
  · intro hall
    refine ⟨⟨job, hjob, ?_, by simp [isNamed, hid]⟩, ?_⟩
    · rintro rfl
      rw [hasId_null] at hid
      cases hid
    · intro job' hjob'
      obtain ⟨hnull, hname⟩ := hall job' hjob'
      exact ⟨hnull, by simp [isNamed, hbefore job' hjob', hname]⟩

/-- An action with an earlier job is not the one with the first job that has the id. -/
theorem act_ne {clock : Clock} {cronFile id : Json} {jobs : List Json} {j k : Nat}
    (hjobs : jobsOf cronFile = some jobs) (h : jobs.findIdx? (hasId id) = some k)
    (hfound : findJob id jobs = some (some j)) (hne : j ≠ k) (action : Action) :
    action.act clock cronFile jobs j ≠ action.act clock cronFile jobs k := by
  obtain ⟨⟨job, hjob, hid⟩, hbefore⟩ := findIdx?_hasId h
  obtain ⟨⟨job', hjob', hnull, hnamed⟩, hfirst⟩ := findJob_eq_iff.mp hfound
  have hlt : j < k := by
    by_contra hnot
    have hkj : k < j := by omega
    have hmem : job ∈ jobs.take j := mem_take_of_getElem? hjob hkj
    have hneither := (hfirst job hmem).2
    simp [isNamed, hid] at hneither
  have hother : hasId id job' = false := hbefore job' (mem_take_of_getElem? hjob' hlt)
  cases action with
  | toggle =>
    intro hsame
    have hlists := congrArg jobsOf (Outcome.save.inj hsame).1
    rw [jobsOf_withJobs hjobs, jobsOf_withJobs hjobs, Option.some.injEq] at hlists
    have hat := congrArg (fun l => (l[j]?).map isEnabled) hlists
    obtain ⟨fields, rfl⟩ := object_of_isNamed hnamed
    have hchanged : ((jobs.modify j (toggled clock))[j]?).map isEnabled =
        some (!isEnabled (.object fields)) := by
      simp [hjob', isEnabled_toggled]
    have hkept : ((jobs.modify k (toggled clock))[j]?).map isEnabled =
        some (isEnabled (.object fields)) := by
      simp [hjob', hne.symm]
    have hflip : some (!isEnabled (.object fields)) = some (isEnabled (.object fields)) :=
      hchanged.symm.trans (hat.trans hkept)
    simp at hflip
  | trigger =>
    intro hsame
    have hids := (Reply.triggered.inj (Outcome.reply.inj hsame))
    rw [hjob, hjob', Option.bind_some, Option.bind_some] at hids
    rw [hasId, hids] at hother
    rw [hasId, hother] at hid
    cases hid
  | remove =>
    intro hsame
    have hlists := congrArg jobsOf (Outcome.save.inj hsame).1
    rw [jobsOf_withJobs hjobs, jobsOf_withJobs hjobs, Option.some.injEq] at hlists
    have hat := congrArg (fun l => l[k - 1]?) hlists
    simp only [List.getElem?_eraseIdx] at hat
    rw [if_neg (by omega), if_pos (by omega), Nat.sub_add_cancel (by omega), hjob] at hat
    have hprevious := hbefore job (mem_take_of_getElem? hat.symm (by omega))
    rw [hid] at hprevious
    cases hprevious

theorem selected_cases {body : Option Json} {action : Action} {id : Json}
    (h : selected env body = some (action, id)) (clock : Clock) {cronFile : Json}
    {jobs : List Json} (hjobs : jobsOf cronFile = some jobs) :
    post env clock body (some cronFile) = action.onJob clock id cronFile := by
  obtain ⟨fields, rfl⟩ := jobsOf_object hjobs
  obtain ⟨body, rfl, hselected⟩ := Option.bind_eq_some_iff.mp h
  obtain ⟨action', haction, hid⟩ := Option.bind_eq_some_iff.mp hselected
  obtain ⟨id', hgiven, hpair⟩ := Option.map_eq_some_iff.mp hid
  obtain ⟨rfl, rfl⟩ := Prod.mk.inj hpair
  have hbody : body ≠ .null := by
    rintro rfl
    cases haction
  have hpost : post env clock (some body) (some (.object fields)) =
      if getField body "action" = some (.string "toggle") then
        toggle clock body (some (.object fields))
      else if getField body "action" = some (.string "trigger") then
        trigger env clock body (some (.object fields))
      else if getField body "action" = some (.string "remove") then
        remove clock body (some (.object fields))
      else if getField body "action" = some (.string "add") then
        add env clock body (some (.object fields))
      else .reply .invalidAction := by
    cases body with
    | null => exact absurd rfl hbody
    | bool b | number n | string s | array items | object fields => rfl
  rw [hpost]
  by_cases htoggle : getField body "action" = some (.string "toggle")
  · rw [if_pos htoggle] at haction
    obtain rfl := Option.some.inj haction
    rw [if_pos htoggle, toggle, hgiven]
    rfl
  · rw [if_neg htoggle] at haction ⊢
    by_cases htrigger : getField body "action" = some (.string "trigger") ∧
        env.allowCommandTrigger = some "1"
    · rw [if_pos htrigger] at haction
      obtain rfl := Option.some.inj haction
      rw [if_pos htrigger.1, trigger, hgiven]
      exact if_pos htrigger.2
    · rw [if_neg htrigger] at haction
      obtain ⟨hremove, haction⟩ := Option.ite_none_right_eq_some.mp haction
      obtain rfl := Option.some.inj haction
      rw [hremove, if_neg (by simp), if_pos rfl, remove, hgiven]
      rfl

/-- A request acts on the job with the id that it gives exactly if no job before it is named like
it, or is `null`. -/
theorem acts_iff {body : Option Json} {action : Action} {id : Json}
    (h : selected env body = some (action, id)) (clock : Clock) {cronFile : Json}
    {jobs : List Json} {k : Nat} (hjobs : jobsOf cronFile = some jobs)
    (hk : jobs.findIdx? (hasId id) = some k) :
    post env clock body (some cronFile) = action.act clock cronFile jobs k ↔
      ∀ job ∈ jobs.take k, job ≠ .null ∧ hasName id job = false := by
  rw [selected_cases h clock hjobs, ← findJob_first_iff hk]
  simp only [Action.onJob, hjobs]
  cases hfound : findJob id jobs with
  | none => exact iff_of_false (by cases action <;> simp [Action.act]) (by simp)
  | some found =>
    cases found with
    | none => exact iff_of_false (by cases action <;> simp [Action.act]) (by simp)
    | some j =>
      by_cases hjk : j = k
      · exact iff_of_true (by rw [hjk]) (by rw [hjk])
      · exact iff_of_false (act_ne hjobs hk hfound hjk action) (by simpa using hjk)

theorem actsById_iff (w : World Text) (e : Event) :
    ActsById format env w e ↔ Unshadowed format env w e := by
  cases e with
  | post body => exact Iff.rfl
  | save i writes => exact Iff.rfl
  | load i clock =>
    constructor
    · intro hacts body action id cronFile jobs k hbody hselected hloaded hjobs hk
      exact (acts_iff hselected clock hjobs hk).mp
        (hacts body action id cronFile jobs k hbody hselected hloaded hjobs hk)
    · intro hfirst body action id cronFile jobs k hbody hselected hloaded hjobs hk
      exact (acts_iff hselected clock hjobs hk).mpr
        (hfirst body action id cronFile jobs k hbody hselected hloaded hjobs hk)

/-- What is promised of the file and its jobs, and when it is kept: the jobs are those of the
requests one after another if no write is raced; and exactly under their own conditions, a broken
file is left alone, ids stay told apart, and a request acts on the job with the id that it gives. -/
theorem cron_store_iff (format : Format Text) (env : Environment) (first : CronPath Text)
    (trace : List Event) :
    (∀ w, (machine format env).run (.init first) trace = some w →
      (machine format env).Meets (Unraced format env) (.init first) trace →
      Serial format env first w) ∧
    (Broken format first →
      ((machine format env).Always (fun w => w.path = first) (.init first) trace ↔
        (machine format env).Meets (NotBlind format env) (.init first) trace)) ∧
    (UniqueIds format env first →
      ((machine format env).Always (fun w => UniqueIds format env w.path) (.init first) trace ↔
        (machine format env).Meets (FreshId format env) (.init first) trace)) ∧
    ((machine format env).Meets (ActsById format env) (.init first) trace ↔
      (machine format env).Meets (Unshadowed format env) (.init first) trace) := by
  refine ⟨fun w hrun hunraced => serial_of_unraced_requests hunraced hrun,
    fun hbroken => broken_kept_iff hbroken trace, fun hunique => unique_kept_iff hunique trace, ?_⟩
  have hagree : ∀ w : World Text, True → ∀ e, ActsById format env w e ↔ Unshadowed format env w e :=
    fun w _ e => actsById_iff w e
  exact Machine.meets_congr hagree (fun _ _ _ _ _ => trivial) trivial trace

/-! ### Runs that break it -/

/-- Texts that are values, and one that is none. -/
def sampleFormat : Format (Option Json) where
  parse text := text.bind Format.plain.parse
  print value := (Format.plain.print value).map some
  parse_print := by
    intro value text h
    obtain ⟨text, hprint, rfl⟩ := Option.map_eq_some_iff.mp h
    exact Format.plain.parse_print value text hprint
  parse_distinct := by
    intro value text h
    obtain ⟨text, rfl, hparse⟩ := Option.bind_eq_some_iff.mp h
    exact Format.plain.parse_distinct value text hparse

def sampleEnvironment : Environment := ⟨"/home/.openclaw", none, none, none⟩

def clock : Clock := ⟨1700000000000, 1700000000000, 1700000000000⟩

def addRequest (name : String) : Json :=
  .object [("action", .string "add"), ("name", .string name), ("schedule", .string "0 * * * *"),
    ("command", .string "check")]

def removeRequest (id : String) : Json :=
  .object [("action", .string "remove"), ("jobId", .string id)]

/-- Both requests read the file before one of them writes it. -/
def overlapping : List Event :=
  [.post (some (addRequest "a")), .post (some (addRequest "b")), .load 0 clock, .load 0 clock,
    .save 0 true, .save 0 true]

def oneByOne : List Event :=
  [.post (some (addRequest "a")), .load 0 clock, .save 0 true, .post (some (addRequest "b")),
    .load 0 clock, .save 0 true]

/-- The first job is named like the id of the second one. -/
def shadowingFile : Json :=
  .object [("version", .number 1), ("jobs", .array [
    .object [("id", .string "j1"), ("name", .string "j2")],
    .object [("id", .string "j2"), ("name", .string "nightly")]])]

theorem exists_of_path {first path : CronPath (Option Json)} {saved : List Request}
    {trace : List Event}
    (h : ((machine sampleFormat sampleEnvironment).run (.init first) trace).map
      (fun w => (w.path, w.saved)) = some (path, saved)) :
    ∃ w, (machine sampleFormat sampleEnvironment).run (.init first) trace = some w ∧
      w.path = path ∧ w.saved = saved := by
  obtain ⟨w, hrun, hpath⟩ := Option.map_eq_some_iff.mp h
  obtain ⟨rfl, rfl⟩ := Prod.mk.inj hpath
  exact ⟨w, hrun, rfl, rfl⟩

def jobNamed (name : String) : Json :=
  newJob sampleEnvironment clock (.string name) (.string "0 * * * *") (.string "check") none

def fileOf (jobs : List Json) : CronPath (Option Json) :=
  .file (some (.object [("version", .number 1), ("jobs", .array jobs)]))

/-- Two jobs are added at once and one of them is lost; a file that is no JSON is overwritten; two
jobs that are added in one millisecond get one id; and a job is removed for its name where another
one has the id. -/
theorem cron_store_fails :
    (∃ w, (machine sampleFormat sampleEnvironment).run (.init .missing) overlapping = some w ∧
      ¬ Serial sampleFormat sampleEnvironment .missing w) ∧
    (Broken sampleFormat (.file none) ∧
      ¬ (machine sampleFormat sampleEnvironment).Always (fun w => w.path = .file none)
        (.init (.file none)) [.post (some (addRequest "a")), .load 0 clock, .save 0 true]) ∧
    (UniqueIds sampleFormat sampleEnvironment .missing ∧
      ¬ (machine sampleFormat sampleEnvironment).Always
        (fun w => UniqueIds sampleFormat sampleEnvironment w.path) (.init .missing) oneByOne) ∧
    ¬ (machine sampleFormat sampleEnvironment).Meets (ActsById sampleFormat sampleEnvironment)
      (.init (.file (some shadowingFile))) [.post (some (removeRequest "j2")), .load 0 clock] := by
  refine ⟨?_, ⟨rfl, ?_⟩, ⟨List.nodup_nil, ?_⟩, ?_⟩
  · have hrun : ((machine sampleFormat sampleEnvironment).run (.init .missing) overlapping).map
        (fun w => (w.path, w.saved)) = some (fileOf [jobNamed "b"],
          [⟨some (addRequest "a"), clock⟩, ⟨some (addRequest "b"), clock⟩]) := by
      decide +kernel
    obtain ⟨w, hrun, hpath, hsaved⟩ := exists_of_path hrun
    refine ⟨w, hrun, ?_⟩
    rintro ⟨order, final, hperm, hfinal, hsame⟩
    rw [hsaved] at hperm
    rw [hpath] at hsame
    have hboth : ∀ order ∈ [[⟨some (addRequest "a"), clock⟩, ⟨some (addRequest "b"), clock⟩],
        [⟨some (addRequest "b"), clock⟩, (⟨some (addRequest "a"), clock⟩ : Request)]],
        (applyAll (edit sampleFormat sampleEnvironment) order .missing).any fun final =>
          (jobsIn sampleFormat sampleEnvironment final).length = 2 := by
      decide +kernel
    have hlength := hboth order (by simpa using List.perm_pair.mp hperm)
    rw [hfinal, Option.any_some, hsame] at hlength
    exact absurd hlength (by decide +kernel)
  · have hrun : ((machine sampleFormat sampleEnvironment).run (.init (.file none))
        [.post (some (addRequest "a")), .load 0 clock, .save 0 true]).map
        (fun w => (w.path, w.saved)) = some (fileOf [jobNamed "a"],
          [⟨some (addRequest "a"), clock⟩]) := by
      decide +kernel
    obtain ⟨w, hrun, hpath, -⟩ := exists_of_path hrun
    intro hkept
    have hsame : w.path = .file none := hkept _ [] w (List.append_nil _).symm hrun
    rw [hpath] at hsame
    exact absurd hsame (by decide +kernel)
  · have hrun : ((machine sampleFormat sampleEnvironment).run (.init .missing) oneByOne).map
        (fun w => (w.path, w.saved)) = some (fileOf [jobNamed "a", jobNamed "b"],
          [⟨some (addRequest "a"), clock⟩, ⟨some (addRequest "b"), clock⟩]) := by
      decide +kernel
    obtain ⟨w, hrun, hpath, -⟩ := exists_of_path hrun
    intro hkept
    have hunique : UniqueIds sampleFormat sampleEnvironment w.path := hkept _ [] w (List.append_nil _).symm hrun
    rw [hpath] at hunique
    exact absurd hunique (by unfold UniqueIds; decide +kernel)
  · rintro ⟨-, hkept⟩
    have hacts := (hkept _ rfl).1 (some (removeRequest "j2")) .remove (.string "j2") shadowingFile
      [.object [("id", .string "j1"), ("name", .string "j2")],
        .object [("id", .string "j2"), ("name", .string "nightly")]] 1 rfl (by decide +kernel)
      (by decide +kernel) (by decide +kernel) (by decide +kernel)
    exact absurd hacts (by decide +kernel)

end MissionControl.Cron.Store
