import Mathlib.Data.List.Perm.Basic
import MissionControl.Foundations.Transition

/-!
A value that several operations replace, each in two steps: it reads the value and makes another
one of it, and later it writes that one. If every write finds what its operation has read, then
the operations have the effect that they have one after the other, in the order of the writes.
-/

set_option autoImplicit false
set_option relaxedAutoImplicit false

namespace MissionControl.Foundations.ReadModifyWrite

open Transition (Machine)

universe u v

variable {Value : Type u} {Op : Type v}

/-- An operation between its read and its write. -/
structure Loaded (Value : Type u) (Op : Type v) where
  op : Op
  found : Value
  made : Value

/-- The value and the operations; `started` and `finished` are a record of all of them. -/
structure State (Value : Type u) (Op : Type v) where
  value : Value
  waiting : List Op
  loaded : List (Loaded Value Op)
  started : List Op
  finished : List Op

def State.init (value : Value) : State Value Op := ⟨value, [], [], [], []⟩

/-- No operation is under way. -/
def State.Quiet (s : State Value Op) : Prop := s.waiting = [] ∧ s.loaded = []

inductive Event (Op : Type v) where
  | start (op : Op)
  | read (i : Nat)
  | write (i : Nat)

/-- The operation that an event starts. -/
def Event.started : Event Op → Option Op
  | .start op => some op
  | _ => none

variable (apply : Op → Value → Option Value)

/-- Operations that fail are left out: an operation that makes nothing of the value cannot read. -/
def step (s : State Value Op) : Event Op → Option (State Value Op)
  | .start op => some { s with waiting := s.waiting ++ [op], started := s.started ++ [op] }
  | .read i =>
    match s.waiting[i]? with
    | none => none
    | some op =>
      (apply op s.value).map fun made =>
        { s with waiting := s.waiting.eraseIdx i, loaded := s.loaded ++ [⟨op, s.value, made⟩] }
  | .write i =>
    (s.loaded[i]?).map fun l =>
      { s with value := l.made, loaded := s.loaded.eraseIdx i, finished := s.finished ++ [l.op] }

def machine : Machine (State Value Op) (Event Op) := ⟨step apply⟩

/-- One operation after the other. -/
def applyAll : List Op → Value → Option Value
  | [], value => some value
  | op :: ops, value => (apply op value).bind (applyAll ops)

variable {apply}

theorem applyAll_append (front back : List Op) (value : Value) :
    applyAll apply (front ++ back) value =
      (applyAll apply front value).bind (applyAll apply back) := by
  induction front generalizing value with
  | nil => rfl
  | cons op front ih =>
    simp only [List.cons_append, applyAll, Option.bind_assoc]
    congr 1
    funext value'
    exact ih value'

/-- A write finds a value of which its operation makes the same as of the one that it has read. -/
def Unraced (apply : Op → Value → Option Value) (s : State Value Op) : Event Op → Prop
  | .write i => ∀ l, s.loaded[i]? = some l → apply l.op s.value = apply l.op l.found
  | _ => True

instance decidableUnraced [DecidableEq Value] (s : State Value Op) :
    ∀ e : Event Op, Decidable (Unraced apply s e)
  | .write i => inferInstanceAs (Decidable (∀ l ∈ s.loaded[i]?, _))
  | .start _ | .read _ => .isTrue trivial

/-- What holds in every state of a run: an operation is waiting, loaded or finished, and a loaded
one has made its value of the one that it found. -/
structure Consistent (apply : Op → Value → Option Value) (s : State Value Op) : Prop where
  perm : s.started.Perm (s.waiting ++ s.loaded.map Loaded.op ++ s.finished)
  made : ∀ l ∈ s.loaded, apply l.op l.found = some l.made

theorem consistent_init (value : Value) : Consistent apply (State.init value) :=
  ⟨List.Perm.refl _, fun _ h => by cases h⟩

/-- An element moves from one list to the end of the next one. -/
theorem perm_move {α : Type v} {front : List α} {i : Nat} {a : α} (h : front[i]? = some a)
    (back : List α) : (front ++ back).Perm (front.eraseIdx i ++ (back ++ [a])) := by
  have hfront : front.Perm (a :: front.eraseIdx i) := by
    obtain ⟨hi, rfl⟩ := List.getElem?_eq_some_iff.mp h
    exact (List.getElem_cons_eraseIdx_perm hi).symm
  have hmoved : (a :: front.eraseIdx i ++ back).Perm (front.eraseIdx i ++ back ++ [a]) :=
    (List.perm_append_singleton a _).symm
  rw [← List.append_assoc]
  exact (hfront.append_right back).trans hmoved

variable {s s' : State Value Op} {e : Event Op}

/-- What an event does. -/
theorem step_cases (h : step apply s e = some s') :
    (∃ op, e = .start op ∧
      s' = { s with waiting := s.waiting ++ [op], started := s.started ++ [op] }) ∨
    (∃ i op made, e = .read i ∧ s.waiting[i]? = some op ∧ apply op s.value = some made ∧
      s' = { s with
        waiting := s.waiting.eraseIdx i, loaded := s.loaded ++ [⟨op, s.value, made⟩] }) ∨
    ∃ i l, e = .write i ∧ s.loaded[i]? = some l ∧
      s' = { s with
        value := l.made, loaded := s.loaded.eraseIdx i, finished := s.finished ++ [l.op] } := by
  cases e with
  | start op => exact .inl ⟨op, rfl, (Option.some.inj h).symm⟩
  | read i =>
    right
    left
    simp only [step] at h
    cases hop : s.waiting[i]? with
    | none => simp [hop] at h
    | some op =>
      simp only [hop] at h
      obtain ⟨made, hmade, rfl⟩ := Option.map_eq_some_iff.mp h
      exact ⟨i, op, made, rfl, hop, hmade, rfl⟩
  | write i =>
    right
    right
    obtain ⟨l, hl, rfl⟩ := Option.map_eq_some_iff.mp h
    exact ⟨i, l, rfl, hl, rfl⟩

theorem Consistent.step (h : Consistent apply s) (hstep : step apply s e = some s') :
    Consistent apply s' := by
  obtain ⟨op, rfl, rfl⟩ | ⟨i, op, made, rfl, hop, hmade, rfl⟩ | ⟨i, l, rfl, hl, rfl⟩ :=
    step_cases hstep
  · refine ⟨?_, h.made⟩
    have hlast : ((s.loaded.map Loaded.op ++ s.finished) ++ [op]).Perm
        ([op] ++ (s.loaded.map Loaded.op ++ s.finished)) := List.perm_append_comm
    have hstarted := h.perm.append_right [op]
    simp only [List.append_assoc] at hstarted hlast ⊢
    exact hstarted.trans (hlast.append_left s.waiting)
  · constructor
    · have hmoved := (perm_move hop (s.loaded.map Loaded.op)).append_right s.finished
      simpa using h.perm.trans hmoved
    · intro l hl
      rcases List.mem_append.mp hl with hl | hl
      · exact h.made l hl
      · obtain rfl := List.mem_singleton.mp hl
        exact hmade
  · constructor
    · have hop : (s.loaded.map Loaded.op)[i]? = some l.op := by simp [hl]
      have hmoved := (perm_move hop s.finished).append_left s.waiting
      have hperm := h.perm
      rw [List.append_assoc] at hperm
      simpa [List.eraseIdx_map] using hperm.trans hmoved
    · intro l' hl'
      exact h.made l' (List.mem_of_mem_eraseIdx hl')

/-- The value is what the finished operations make of the first one. -/
theorem applyAll_step {first : Value} (hconsistent : Consistent apply s)
    (h : applyAll apply s.finished first = some s.value) (hunraced : Unraced apply s e)
    (hstep : step apply s e = some s') : applyAll apply s'.finished first = some s'.value := by
  obtain ⟨op, rfl, rfl⟩ | ⟨i, op, made, rfl, hop, hmade, rfl⟩ | ⟨i, l, rfl, hl, rfl⟩ :=
    step_cases hstep
  · exact h
  · exact h
  · have hmade : apply l.op s.value = some l.made :=
      (hunraced l hl).trans (hconsistent.made l (List.mem_of_getElem? hl))
    simp only [applyAll_append, h, Option.bind_some, applyAll, hmade]

/-- The record of what was started is that of the trace. -/
theorem started_of_run {s₀ : State Value Op} {trace : List (Event Op)}
    (hrun : (machine apply).run s₀ trace = some s) :
    s.started = s₀.started ++ trace.filterMap Event.started := by
  induction trace generalizing s₀ with
  | nil =>
    obtain rfl := Option.some.inj hrun
    simp
  | cons e trace ih =>
    obtain ⟨s₁, hstep, hrest⟩ := (Machine.run_cons_eq_some _).mp hrun
    rw [ih hrest]
    obtain ⟨op, rfl, rfl⟩ | ⟨i, op, made, rfl, hop, hmade, rfl⟩ | ⟨i, l, rfl, hl, rfl⟩ :=
      step_cases hstep
    · simp [Event.started]
    · simp [Event.started, List.filterMap_cons]
    · simp [Event.started, List.filterMap_cons]

/-- Operations that are not raced have the effect of one after the other, in some order. -/
theorem serial_of_unraced {first : Value} {trace : List (Event Op)}
    (hrun : (machine apply).run (State.init first) trace = some s)
    (hmeets : (machine apply).Meets (Unraced apply) (State.init first) trace) (hquiet : s.Quiet) :
    s.finished.Perm s.started ∧ applyAll apply s.finished first = some s.value := by
  have hinv : Consistent apply s ∧ applyAll apply s.finished first = some s.value := by
    have hpreserved : ∀ s e s',
        (Consistent apply s ∧ applyAll apply s.finished first = some s.value) →
        Unraced apply s e → (machine apply).step s e = some s' →
        Consistent apply s' ∧ applyAll apply s'.finished first = some s'.value := by
      rintro s e s' ⟨hconsistent, hserial⟩ hunraced hstep
      exact ⟨hconsistent.step hstep, applyAll_step hconsistent hserial hunraced hstep⟩
    exact Machine.run_invariant hpreserved ⟨consistent_init first, rfl⟩ hmeets hrun
  obtain ⟨hconsistent, hserial⟩ := hinv
  refine ⟨?_, hserial⟩
  have hperm := hconsistent.perm
  simp only [hquiet.1, hquiet.2, List.map_nil, List.nil_append] at hperm
  exact hperm.symm

end MissionControl.Foundations.ReadModifyWrite
