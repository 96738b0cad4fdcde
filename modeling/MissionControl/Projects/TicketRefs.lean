import MissionControl.Projects.Migration

/-!
Ticket references over every run from the migrated database. A reference is the prefix of a
project and the number of a task in it, so references are unique where the numbers are.
-/

set_option autoImplicit false
set_option relaxedAutoImplicit false

namespace MissionControl.Projects.TicketRefs

open MissionControl.Foundations.JsText
open MissionControl.Foundations.Lists (append_cons_inj)
open MissionControl.Foundations.Schema (Json)
open MissionControl.Foundations.Transition (Machine)
open Tasks.Database Tasks.Routes Tasks.RouteSteps Routes TicketNumbers Migration

/-- Numbers are unique in a project and at most its counter, and references are unique in a
workspace. -/
structure TicketsUnique (db : Db) : Prop where
  distinct : ∀ t ∈ db.tasks, ∀ t' ∈ db.tasks, ∀ id n, ticket t = (some id, some n) →
    ticket t' = (some id, some n) → t.id = t'.id
  bounded : ∀ t ∈ db.tasks, ∀ p ∈ db.projects, ∀ n, ticket t = (some p.id, some n) →
    n ≤ p.ticketCounter
  refs : ∀ t ∈ db.tasks, ∀ t' ∈ db.tasks, t.workspaceId = t'.workspaceId → ∀ ref,
    ticketRef db t = some ref → ticketRef db t' = some ref → t.id = t'.id

/-! ### References -/

theorem formatTicketRef_some {ticketPrefix : Option String} {num : Option Nat} {ref : String}
    (h : formatTicketRef ticketPrefix num = some ref) :
    ∃ text n, ticketPrefix = some text ∧ num = some n ∧
      ref = text ++ "-" ++ padStart 3 (toString n) := by
  cases num with
  | none =>
    rw [formatTicketRef] at h
    · cases h
    · intro text n _ hnum
      cases hnum
  | some n =>
    cases htext : truthy ticketPrefix with
    | none =>
      simp only [formatTicketRef, htext] at h
      cases h
    | some text =>
      obtain ⟨hpre, -⟩ := Option.filter_eq_some_iff.mp htext
      simp only [formatTicketRef, htext] at h
      split at h
      · cases h
      · exact ⟨text, n, hpre, rfl, (Option.some.inj h).symm⟩

/-- The digits of a reference hold no hyphen, so its last hyphen ends the prefix. -/
theorem ref_inj {text text' : String} {n n' : Nat}
    (h : text ++ "-" ++ padStart 3 (toString n) = text' ++ "-" ++ padStart 3 (toString n')) :
    text = text' ∧ n = n' := by
  have hdigits : ∀ k : Nat, '-' ∉ (padStart 3 (toString k)).toList := by
    intro k hmem
    exact absurd (isDigit_of_mem_padStart hmem) (by decide)
  have hlist := congrArg String.toList h
  simp only [String.toList_append, List.append_assoc] at hlist
  obtain ⟨htext, hpadded⟩ := append_cons_inj (hdigits n) (hdigits n') hlist
  exact ⟨String.toList_inj.mp htext, padStart_toString_inj (String.toList_inj.mp hpadded)⟩

/-- A reference names a project of the workspace and the number of the task there. -/
theorem ticketRef_some {db : Db} {t : Task} {ref : String} (h : ticketRef db t = some ref) :
    ∃ p n, db.project? t.workspaceId p.id = some p ∧ ticket t = (some p.id, some n) ∧
      ref = p.ticketPrefix ++ "-" ++ padStart 3 (toString n) := by
  obtain ⟨text, n, hpre, hnum, href⟩ := formatTicketRef_some h
  obtain ⟨p, hproject, rfl⟩ := Option.map_eq_some_iff.mp hpre
  obtain ⟨id, hid, hrow⟩ := Option.bind_eq_some_iff.mp hproject
  obtain rfl := project?_id hrow
  exact ⟨p, n, hrow, Prod.ext hid hnum, href⟩

theorem tickets_unique {db : Db} (h : Sound db) : TicketsUnique db := by
  refine ⟨h.numbered.distinct, h.numbered.bounded, ?_⟩
  intro t ht t' ht' hworkspace ref href href'
  obtain ⟨p, n, hrow, hticket, htext⟩ := ticketRef_some href
  obtain ⟨p', n', hrow', hticket', htext'⟩ := ticketRef_some href'
  obtain ⟨hpre, hn⟩ := ref_inj (htext.symm.trans htext')
  obtain ⟨hp, -, hpworkspace⟩ := project?_mem hrow
  obtain ⟨hp', -, hpworkspace'⟩ := project?_mem hrow'
  have hsame : p.workspaceId = p'.workspaceId := by
    rw [hpworkspace, hpworkspace', hworkspace]
  have hid := h.projectKeys.prefixes p hp p' hp' hsame hpre
  rw [← hid, ← hn] at hticket'
  exact h.numbered.distinct t ht t' ht' p.id n hticket hticket'

/-- From the migrated database the tickets stay unique throughout a run exactly if no deletion
in it carries over a number that the default project cannot hold. -/
theorem tickets_unique_iff (legacy : Legacy) (trace : List Event) :
    Routes.machine.Always TicketsUnique (migration024 legacy) trace ↔
      Routes.machine.Meets (fun db ev => ¬ Carries db ev) (migration024 legacy) trace := by
  have hstart := migration024_sound legacy
  refine Machine.always_iff_meets (fun db (h : Sound db) => tickets_unique h) ?_ ?_ hstart trace
  · intro db ev db' h hkept hstep
    exact sound_step h hkept hstep
  · intro db ev h hcarries
    obtain ⟨db', hstep, hspoiled⟩ := spoiled_step h (not_not.mp hcarries)
    exact ⟨db', hstep, fun hunique => hspoiled ⟨hunique.distinct, hunique.bounded⟩⟩

/-! ### A deletion -/

/-- One workspace with one task. -/
def sampleLegacy : Legacy where
  workspaces := [1]
  tasks := [{ sampleTask with projectId := none, projectTicketNo := none }]
  nextTaskId := 2
  unique := by decide
  fresh := by decide
  unnumbered := by decide

def sampleTrace : List Event :=
  [.project sampleContext (.postProject ⟨"Alpha", "", "", ""⟩),
    .task sampleContext (.postTask (.object [("title", .string "Draft"), ("project_id", .number 2)])),
    .project sampleContext (.deleteProject 2 "delete")]

/-- The first task of the deleted project and the first of the default one are both `TASK-001`. -/
theorem deleted_tickets_collide :
    ¬ Routes.machine.Always TicketsUnique (migration024 sampleLegacy) sampleTrace := by
  have hran : (Routes.machine.run (migration024 sampleLegacy) sampleTrace).any (fun db =>
      db.tasks.any fun t => db.tasks.any fun t' => t.id = 1 ∧ t'.id = 2 ∧
        t.workspaceId = t'.workspaceId ∧ ticketRef db t = some "TASK-001" ∧
        ticketRef db t' = some "TASK-001") = true := by decide +kernel
  obtain ⟨db, hrun, hcollide⟩ := (Option.any_eq_true ..).mp hran
  obtain ⟨t, ht, hrest⟩ := List.any_eq_true.mp hcollide
  obtain ⟨t', ht', hboth⟩ := List.any_eq_true.mp hrest
  obtain ⟨hid, hid', hworkspace, href, href'⟩ := of_decide_eq_true hboth
  intro halways
  have hunique := halways sampleTrace [] db (List.append_nil _).symm hrun
  have hsame := hunique.refs t ht t' ht' hworkspace _ href href'
  omega

end MissionControl.Projects.TicketRefs
