import MissionControl.Agents.WorkingMemory

/-!
What is read from the working memory of an agent. A path whose text the database reads as another
number than the language, or as none, finds an agent and writes the memory of another one or of
none.
-/

set_option autoImplicit false
set_option relaxedAutoImplicit false

namespace MissionControl.Agents.ReadBack

open MissionControl.Events.Stores (Agent)
open MissionControl.Foundations.Doubles (number)
open WorkingMemory

/-- The database reads the text of the path as the number that it is for the language, if it is
one. -/
def Readable (env : Environment) (path : String) : Prop :=
  ∀ x, number path.toList = .finite x → env.textNumber path = some x

/-! ### What should be remembered -/

/-- What the agents should remember after a request, if `m` is what they do before: what is put for
the agent of the path, or what was there followed by what is appended, and nothing after a delete
that succeeds. -/
def remember (env : Environment) (s : State) (m : Nat → String) (request : Request) :
    Nat → String :=
  match agent? s request.path request.workspaceId with
  | none => m
  | some a =>
    match request.operation with
    | .get => m
    | .put text append =>
      Function.update m a.id
        (if append then appended (m a.id) (entryText env (wait s request.waited) text) else text)
    | .delete => if s.column.isSome then Function.update m a.id "" else m

/-- The memory that a reply shows. -/
def shown : Reply → Option String
  | .memory _ _ _ workingMemory _ _ => some workingMemory
  | .updated _ workingMemory _ _ => some workingMemory
  | .cleared _ workingMemory _ => some workingMemory
  | .error _ _ => none

/-- A request that finds an agent shows what it should remember, unless it deletes from a column
that does not exist. -/
def Answers (env : Environment) (s : State) (m : Nat → String) (request : Request) : Prop :=
  ∀ a, agent? s request.path request.workspaceId = some a →
    (request.operation = .delete → s.column.isSome = true) →
      shown (serve env s request).2 = some (remember env s m request a.id)

/-- Throughout the requests all agents remember what they should, and each request shows it. -/
def ReadsBack (env : Environment) : State → (Nat → String) → List Request → Prop
  | s, m, [] => s.memory = m
  | s, m, request :: requests =>
    s.memory = m ∧ Answers env s m request ∧
      ReadsBack env (serve env s request).1 (remember env s m request) requests

variable {env : Environment} {s : State} {path : String} {workspaceId : Nat} {a : Agent}

/-! ### The agent of a path -/

theorem mem_of_agent? (h : agent? s path workspaceId = some a) : a ∈ s.world.agents :=
  List.mem_of_find?_eq_some h

/-- A path that is readable selects the agent that it finds, and no other one. -/
theorem isSelected_iff (h : agent? s path workspaceId = some a) (hreadable : Readable env path)
    {b : Agent} (hb : b ∈ s.world.agents) :
    isSelected env path workspaceId b = true ↔ b = a := by
  have ha := mem_of_agent? h
  have hnamed : isNamed path workspaceId a = true := List.find?_some h
  rw [isNamed, Bool.and_eq_true, decide_eq_true_eq] at hnamed
  obtain ⟨hworkspace, hnamed⟩ := hnamed
  rw [isSelected, Bool.and_eq_true, decide_eq_true_eq]
  cases hnumber : number path.toList with
  | nan =>
    rw [hnumber] at hnamed
    have hname : a.name = path := of_decide_eq_true hnamed
    simp only [decide_eq_true_eq]
    constructor
    · rintro ⟨-, hsame⟩
      exact List.inj_on_of_nodup_map s.names hb ha (hsame.trans hname.symm)
    · rintro rfl
      exact ⟨hworkspace, hname⟩
  | finite x =>
    rw [hnumber] at hnamed
    have hid : (a.id : Rat) = x := of_decide_eq_true hnamed
    simp only [hreadable x hnumber, ← hid, decide_eq_true_eq, Option.some.injEq, Nat.cast_inj]
    constructor
    · rintro ⟨-, hsame⟩
      exact List.inj_on_of_nodup_map s.ids hb ha hsame.symm
    · rintro rfl
      exact ⟨hworkspace, rfl⟩
  | infinite negative =>
    rw [hnumber] at hnamed
    cases hnamed

theorem selectMemory_eq (h : agent? s path workspaceId = some a) (hreadable : Readable env path) :
    selectMemory env s path workspaceId = s.memory a.id := by
  rw [selectMemory]
  cases hfind : s.world.agents.find? (isSelected env path workspaceId) with
  | none =>
    have hnot := List.find?_eq_none.mp hfind a (mem_of_agent? h)
    exact absurd ((isSelected_iff h hreadable (mem_of_agent? h)).mpr rfl) hnot
  | some b =>
    have hb := List.mem_of_find?_eq_some hfind
    obtain rfl := (isSelected_iff h hreadable hb).mp (List.find?_some hfind)
    rfl

theorem writeMemory_eq (h : agent? s path workspaceId = some a) (hreadable : Readable env path)
    (content : String) : (writeMemory s (isSelected env path workspaceId) content).memory =
      Function.update s.memory a.id content := by
  have ha := mem_of_agent? h
  funext id
  have hany : (s.world.agents.any fun b => b.id = id ∧ isSelected env path workspaceId b) = true ↔
      id = a.id := by
    rw [List.any_eq_true]
    constructor
    · rintro ⟨b, hb, hselected⟩
      obtain ⟨hid, hselected⟩ := of_decide_eq_true hselected
      rw [← hid, (isSelected_iff h hreadable hb).mp hselected]
    · rintro rfl
      exact ⟨a, ha, decide_eq_true ⟨rfl, (isSelected_iff h hreadable ha).mpr rfl⟩⟩
  by_cases hid : id = a.id
  · subst hid
    rw [Function.update_self]
    exact if_pos (hany.mpr rfl)
  · rw [Function.update_of_ne hid]
    exact if_neg fun hselected => hid (hany.mp hselected)

/-! ### Requests -/

theorem getMemory_readable (h : agent? s path workspaceId = some a)
    (hreadable : Readable env path) :
    (getMemory env s path workspaceId).1.memory = s.memory ∧
      shown (getMemory env s path workspaceId).2 = some (s.memory a.id) := by
  have hadded : agent? (addColumn s) path workspaceId = some a := h
  simp only [getMemory, h]
  exact ⟨rfl, congrArg some (selectMemory_eq hadded hreadable)⟩

theorem putMemory_readable (h : agent? s path workspaceId = some a)
    (hreadable : Readable env path) (text : String) (append : Bool) :
    let content :=
      if append then appended (s.memory a.id) (entryText env s text) else text
    (putMemory env s path workspaceId text append).1.memory =
        Function.update s.memory a.id content ∧
      shown (putMemory env s path workspaceId text append).2 = some content := by
  have hadded : agent? (addColumn s) path workspaceId = some a := h
  have hselect : selectMemory env (addColumn s) path workspaceId = s.memory a.id :=
    selectMemory_eq hadded hreadable
  simp only [putMemory, h, hselect]
  exact ⟨writeMemory_eq hadded hreadable _, rfl⟩

theorem deleteMemory_readable (h : agent? s path workspaceId = some a)
    (hreadable : Readable env path) (hcolumn : s.column.isSome = true) :
    (deleteMemory env s path workspaceId).1.memory = Function.update s.memory a.id "" ∧
      shown (deleteMemory env s path workspaceId).2 = some "" := by
  obtain ⟨column, hcolumn⟩ := Option.isSome_iff_exists.mp hcolumn
  simp only [deleteMemory, h, hcolumn]
  exact ⟨writeMemory_eq h hreadable "", rfl⟩

/-- The step lemma: a readable path shows and changes the memory of the agent that it finds. -/
theorem serve_readable (request : Request) (hreadable : Readable env request.path) :
    (serve env s request).1.memory = remember env s s.memory request ∧
      Answers env s s.memory request := by
  unfold Answers serve perform remember
  cases hagent : agent? s request.path request.workspaceId with
  | none =>
    have hwaited : agent? (wait s request.waited) request.path request.workspaceId = none := hagent
    refine ⟨?_, nofun⟩
    cases request.operation <;> simp only [getMemory, putMemory, deleteMemory, hwaited] <;> rfl
  | some a =>
    have hwaited : agent? (wait s request.waited) request.path request.workspaceId = some a :=
      hagent
    cases request.operation with
    | get =>
      obtain ⟨hmemory, hshown⟩ := getMemory_readable hwaited hreadable
      refine ⟨hmemory, fun b hb _ => ?_⟩
      obtain rfl := Option.some.inj hb
      exact hshown
    | put text append =>
      obtain ⟨hmemory, hshown⟩ := putMemory_readable hwaited hreadable text append
      refine ⟨hmemory, fun b hb _ => ?_⟩
      obtain rfl := Option.some.inj hb
      dsimp only
      rw [Function.update_self]
      exact hshown
    | delete =>
      by_cases hcolumn : s.column.isSome = true
      · obtain ⟨hmemory, hshown⟩ := deleteMemory_readable hwaited hreadable hcolumn
        dsimp only
        rw [if_pos hcolumn]
        refine ⟨hmemory, fun b hb _ => ?_⟩
        obtain rfl := Option.some.inj hb
        rw [Function.update_self]
        exact hshown
      · dsimp only
        rw [if_neg hcolumn]
        refine ⟨?_, fun _ _ hsome => absurd (hsome rfl) hcolumn⟩
        have hnone : (wait s request.waited).column = none := Option.not_isSome_iff_eq_none.mp hcolumn
        simp only [deleteMemory, hwaited, hnone]
        rfl

/-- The run lemma. -/
theorem readsBack_of_readable {requests : List Request}
    (hreadable : ∀ request ∈ requests, Readable env request.path) :
    ReadsBack env s s.memory requests := by
  induction requests generalizing s with
  | nil => rfl
  | cons request requests ih =>
    obtain ⟨hmemory, hanswers⟩ := serve_readable (s := s) request (hreadable request List.mem_cons_self)
    refine ⟨rfl, hanswers, ?_⟩
    rw [← hmemory]
    exact ih fun r hr => hreadable r (List.mem_cons_of_mem request hr)

/-- A path that the database reads otherwise does not select the agent that it finds. -/
theorem not_isSelected (h : agent? s path workspaceId = some a) {x : Rat}
    (hnumber : number path.toList = .finite x) (hother : env.textNumber path ≠ some x) :
    isSelected env path workspaceId a = false := by
  have hnamed : isNamed path workspaceId a = true := List.find?_some h
  rw [isNamed, hnumber, Bool.and_eq_true, decide_eq_true_eq, decide_eq_true_eq] at hnamed
  rw [isSelected, hnumber, Bool.and_eq_false_iff]
  right
  rw [decide_eq_false_iff_not, hnamed.2]
  exact hother

theorem writeMemory_of_not_selected {selected : Agent → Bool} (ha : a ∈ s.world.agents)
    (hselected : selected a = false) (content : String) :
    (writeMemory s selected content).memory a.id = s.memory a.id := by
  apply if_neg
  intro hany
  obtain ⟨b, hb, hfacts⟩ := List.any_eq_true.mp hany
  obtain ⟨hid, hselected'⟩ := of_decide_eq_true hfacts
  obtain rfl := List.inj_on_of_nodup_map s.ids hb ha hid
  exact Bool.false_ne_true (hselected.symm.trans hselected')

/-- A path that finds an agent reads back in every history with requests for it and for readable
paths if and only if it is readable itself. -/
theorem reads_back_iff (env : Environment) (s : State) (path : String) (workspaceId : Nat)
    (a : Agent) (hfound : agent? s path workspaceId = some a) :
    (∀ requests : List Request, (∀ r ∈ requests, r.path = path ∨ Readable env r.path) →
      ReadsBack env s s.memory requests) ↔ Readable env path := by
  constructor
  · intro h x hnumber
    by_contra hother
    -- What is put does not reach the agent.
    let text := s.memory a.id ++ "!"
    obtain ⟨-, -, hmemory⟩ := h [⟨0, path, workspaceId, .put text false⟩] (by simp)
    have hshould : remember env s s.memory ⟨0, path, workspaceId, .put text false⟩ a.id = text := by
      simp [remember, hfound]
    have hadded : agent? (addColumn (wait s 0)) path workspaceId = some a := hfound
    have hwaited : agent? (wait s 0) path workspaceId = some a := hfound
    have hkept : (serve env s ⟨0, path, workspaceId, .put text false⟩).1.memory a.id =
        s.memory a.id := by
      simp only [serve, perform, putMemory, hwaited]
      exact writeMemory_of_not_selected (mem_of_agent? hadded)
        (not_isSelected hadded hnumber hother) _
    have hsame : s.memory a.id = text := by
      rw [← hkept, hmemory, hshould]
    have hlength := congrArg String.length hsame
    simp [text] at hlength
  · intro hreadable requests hpaths
    apply readsBack_of_readable
    intro request hrequest
    rcases hpaths request hrequest with hsame | hreadable'
    · rw [hsame]
      exact hreadable
    · exact hreadable'

/-! ### A hexadecimal path -/

/-- A database that reads only digits as numbers. -/
def digitsOnly : Environment where
  toISOString _ := "2026-01-05T09:00:00.000Z"
  textNumber text := (Foundations.Doubles.digitsNumber 10 text.toList).map fun n => (n : Rat)

def scout : Agent where
  id := 1
  name := "scout"
  role := "researcher"
  sessionKey := none
  soulContent := none
  status := "idle"
  lastSeen := none
  lastActivity := none
  createdAt := 0
  updatedAt := 0
  config := []
  workspaceId := 1

theorem nodup_ids_scout : ([scout].map Agent.id).Nodup := List.nodup_singleton _

theorem nodup_names_scout : ([scout].map Agent.name).Nodup := List.nodup_singleton _

def oneAgent : State where
  world :=
    { tasks := Tasks.Routes.sampleDb
      rooms := .empty 1000000
      agents := [scout]
      messages := []
      activities := []
      notifications := []
      forwarding := []
      nextAgentId := 2
      nextMessageId := 1
      nextActivityId := 1
      nextNotificationId := 1
      clients := [] }
  column := none
  ids := nodup_ids_scout
  names := nodup_names_scout

theorem scout_reads_back : ReadsBack digitsOnly oneAgent oneAgent.memory
    [⟨0, "1", 1, .put "The build is green." false⟩, ⟨5, "1", 1, .get⟩] := by
  have hnamed : isNamed "1" 1 scout = true := by decide +kernel
  have hreadable : Readable digitsOnly "1" := by
    intro x hnumber
    have hone : number "1".toList = .finite 1 := by decide +kernel
    obtain rfl : 1 = x := by simpa using hone.symm.trans hnumber
    decide +kernel
  exact (reads_back_iff digitsOnly oneAgent "1" 1 scout (List.find?_cons_of_pos hnamed)).mpr
    hreadable _ (by simp)

/-- The agent is found, and does not remember what is put for it. -/
theorem hexadecimal_forgotten : ¬ ∀ (env : Environment) (s : State) (path : String)
    (workspaceId : Nat) (requests : List Request),
    (∃ a, agent? s path workspaceId = some a) → (∀ r ∈ requests, r.path = path) →
      ReadsBack env s s.memory requests := by
  intro h
  have hnamed : isNamed "0x1" 1 scout = true := by decide +kernel
  have hrun := h digitsOnly oneAgent "0x1" 1 [⟨0, "0x1", 1, .put "The build is green." false⟩]
    ⟨scout, List.find?_cons_of_pos hnamed⟩ (by simp)
  obtain ⟨-, -, hmemory⟩ := hrun
  have hone := congrFun hmemory 1
  revert hone
  decide +kernel

end MissionControl.Agents.ReadBack
