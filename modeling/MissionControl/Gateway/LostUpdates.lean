import Mathlib.Data.List.Permutation
import MissionControl.Foundations.ReadModifyWrite
import MissionControl.Gateway.AgentFile
import MissionControl.Gateway.ConfigRoute

/-!
Several writers of `openclaw.json` at once. Each of them reads the file, makes a new text of it
and waits before it writes that text; nothing tells a writer that the file has changed since.
-/

set_option autoImplicit false
set_option relaxedAutoImplicit false

namespace MissionControl.Gateway.LostUpdates

open MissionControl.Foundations.JsonValues
open MissionControl.Foundations.ReadModifyWrite
open MissionControl.Foundations.Schema (Json)
open MissionControl.Foundations.Transition (Machine)
open MissionControl.Gateway.AgentFile
open MissionControl.Gateway.ConfigRoute

/-- A request that updates fields by dot-paths, or a call that writes an agent. -/
inductive Writer where
  | put (env : Environment) (updates : List (String × Json))
  | agent (agentConfig : AgentConfig)

variable {Text : Type}

/-- The text that a writer makes of the one that it reads. -/
def Writer.edit (format : Format Text) : Writer → Text → Option Text
  | .put env updates, raw => rewrite format env updates raw
  | .agent agentConfig, raw => writeAgentToConfig format agentConfig raw

/-- The writers of a file; all of them are answered with success. -/
def writers (format : Format Text) : Machine (State Text Writer) (Event Writer) :=
  machine (Writer.edit format)

/-- The file is what the writers make of the first one when they come one after another. -/
def Serial (format : Format Text) (first : Text) (s : State Text Writer) : Prop :=
  ∃ order final, order.Perm s.started ∧ applyAll (Writer.edit format) order first = some final ∧
    format.parse final = format.parse s.value

/-- A request that succeeds has written what its writer makes of the file. -/
theorem put_edits {format : Format Text} {env : Environment} {file : Option Text}
    {body : Option Json} {keys : List String} (h : (put format env file body).1 = .updated keys) :
    ∃ updates raw text, file = some raw ∧ keys = updates.map Prod.fst ∧
      (Writer.put env updates).edit format raw = some text ∧
      (put format env file body).2 = some text := by
  obtain ⟨-, herror, -⟩ | ⟨updates, raw, text, ⟨-, -, -, hfile, hrewrite⟩, hput⟩ :=
    put_cases format env file body
  · rw [h] at herror
    cases herror
  · rw [hput] at h ⊢
    unfold save at h ⊢
    cases hwrites : env.writes with
    | false => simp [hwrites] at h
    | true =>
      cases haudits : env.audits with
      | false => simp [hwrites, haudits] at h
      | true =>
        simp only [hwrites, haudits, Bool.true_eq_false, if_false, Reply.updated.injEq] at h
        exact ⟨updates, raw, text, hfile, h.symm, hrewrite, rfl⟩

/-- In a run in which every write finds a file that its writer would change in the same way as the
one that it has read, no update is lost. -/
theorem serial_of_unraced_writers (format : Format Text) {first : Text}
    {trace : List (Event Writer)} {s : State Text Writer}
    (hrun : (writers format).run (State.init first) trace = some s)
    (hunraced : (writers format).Meets (Unraced (Writer.edit format)) (State.init first) trace)
    (hquiet : s.Quiet) : Serial format first s := by
  have hserial := serial_of_unraced hrun hunraced hquiet
  exact ⟨s.finished, s.value, hserial.1, hserial.2, rfl⟩

/-! ### Two writers -/

def portWriter : Writer := .put .plain [("gateway.port", .number 18790)]

def agentWriter : Writer := .agent ⟨.string "scout", [("model", .string "opus")]⟩

/-- Both writers read the file before either of them writes. -/
def overlapping : List (Event Writer) :=
  [.start portWriter, .start agentWriter, .read 0, .read 0, .write 0, .write 0]

def oneByOne : List (Event Writer) :=
  [.start portWriter, .start agentWriter, .read 0, .write 0, .read 0, .write 0]

/-- The file in the end, and whether no writer is left. -/
def outcome (s : State Json Writer) : Json × Bool :=
  (s.value, s.waiting.isEmpty && s.loaded.isEmpty)

theorem exists_of_outcome {trace : List (Event Writer)} {file final : Json}
    (h : ((writers .plain).run (State.init file) trace).map outcome = some (final, true)) :
    ∃ s, (writers .plain).run (State.init file) trace = some s ∧ s.Quiet ∧ s.value = final := by
  obtain ⟨s, hrun, houtcome⟩ := Option.map_eq_some_iff.mp h
  simp only [outcome, Prod.mk.injEq, Bool.and_eq_true, List.isEmpty_iff] at houtcome
  exact ⟨s, hrun, houtcome.2, houtcome.1⟩

/-- One after the other, both updates are in the file. -/
theorem both_updates_kept :
    ∃ s, (writers .plain).run (State.init (.object [])) oneByOne = some s ∧ s.Quiet ∧
      s.value = .object [("gateway", .object [("port", .number 18790)]),
        ("agents", .object [("list", .array [.object
          [("id", .string "scout"), ("model", .string "opus")]])])] ∧
      Serial .plain (.object []) s := by
  have houtcome : ((writers .plain).run (State.init (.object [])) oneByOne).map outcome =
      some (.object [("gateway", .object [("port", .number 18790)]),
        ("agents", .object [("list", .array [.object
          [("id", .string "scout"), ("model", .string "opus")]])])], true) := by
    decide +kernel
  have hunraced : (writers .plain).Meets (Unraced (Writer.edit .plain)) (State.init (.object []))
      oneByOne := by
    decide +kernel
  obtain ⟨s, hrun, hquiet, hvalue⟩ := exists_of_outcome houtcome
  exact ⟨s, hrun, hquiet, hvalue, serial_of_unraced_writers .plain hrun hunraced hquiet⟩

/-- If both read before one of them writes, the port is lost. -/
theorem port_lost :
    ∃ s, (writers .plain).run (State.init (.object [])) overlapping = some s ∧ s.Quiet ∧
      s.value = .object [("agents", .object [("list", .array [.object
        [("id", .string "scout"), ("model", .string "opus")]])])] ∧
      ¬ Serial .plain (.object []) s := by
  have houtcome : ((writers .plain).run (State.init (.object [])) overlapping).map outcome =
      some (.object [("agents", .object [("list", .array [.object
        [("id", .string "scout"), ("model", .string "opus")]])])], true) := by
    decide +kernel
  obtain ⟨s, hrun, hquiet, hvalue⟩ := exists_of_outcome houtcome
  refine ⟨s, hrun, hquiet, hvalue, ?_⟩
  rintro ⟨order, final, hperm, hfinal, hsame⟩
  have hstarted : s.started = [portWriter, agentWriter] := started_of_run hrun
  have hport : ∀ order ∈ [[portWriter, agentWriter], [agentWriter, portWriter]],
      ((applyAll (Writer.edit .plain) order (.object [])).bind Format.plain.parse).any fun final =>
        (valueAt final ["gateway", "port"]).isSome := by
    decide +kernel
  have hkept := hport order (by simpa using List.perm_pair.mp (hstarted ▸ hperm))
  rw [hfinal, Option.bind_some, hsame, hvalue] at hkept
  exact absurd hkept (by decide +kernel)

end MissionControl.Gateway.LostUpdates
