import MissionControl.Conductor.Convergence

/-!
The hash of the last synchronization over every run: it is that of a version that was written as a
whole, as long as no run gets past the check for changes with a file that it cannot read or parse,
or with a company that it passes over.
-/

set_option autoImplicit false
set_option relaxedAutoImplicit false

namespace MissionControl.Conductor.Retries

open MissionControl.Foundations.Lists
open MissionControl.Foundations.Transition (Machine)
open MissionControl.Tasks.Database
open MissionControl.Workload.Operations
open MissionControl.Workload.References
open Files Sync Rows Companies Convergence

/-- A file that exists was read and parsed. -/
def Parsed {α : Type} (file : Option (File α)) : Prop :=
  ∀ found ∈ file, ∃ value, found.contents = .parsed value

/-- The run writes its version as a whole: the files are parsed, every company has its project, and
the rows are those after all the entries, one at least for each task. -/
structure Complete (draws : Draws) (s : State) : Prop where
  tasks : Parsed s.disk.tasks
  companies : Parsed s.disk.companies
  projects : ∀ company ∈ readCompaniesFile s.disk.companies,
    (projectId (db (perform s (.syncConductor draws))) company.1).isSome = true
  written : ∃ companyToProjectId start, Commits draws s companyToProjectId start ∧
    writeTasks companyToProjectId start (readActiveTasksFile s.disk.tasks) =
      some (db (perform s (.syncConductor draws)))
  rows : ∀ task, Entry.wellFormed task ∈ readActiveTasksFile s.disk.tasks →
    (findTask (db (perform s (.syncConductor draws))) task.id).isSome = true

/-- Both files are parsed where they exist, and no company without a name lacks a project. -/
structure Clean (s : State) : Prop where
  tasks : Parsed s.disk.tasks
  companies : Parsed s.disk.companies
  named : ∀ company ∈ readCompaniesFile s.disk.companies,
    (∀ found, (company.1, Entry.wellFormed found) ∈ readCompaniesFile s.disk.companies →
      found.name = none) → (projectId (db s) company.1).isSome = true

/-- A run that gets past the check for changes finds the files clean. -/
def CleanStep (s : State) : Operation → Prop
  | .syncConductor _ => s.disk.directory = true →
      ¬ (s.disk.hash.isSome ∧ s.disk.hash = s.lastSyncHash) → Clean s
  | _ => True

/-! ### What a run writes -/

/-- A run that succeeds is complete exactly if it finds its files clean. -/
theorem complete_iff_clean {s : State} {draws : Draws} (hsound : Sound (db s))
    (hsynced : ∃ tasks stats projects, (syncConductorData draws s).2 = .synced tasks stats projects) :
    Complete draws s ↔ Clean s := by
  obtain ⟨companyToProjectId, start, hcommits, hwritten⟩ := commits_of_synced hsynced
  have hmapped := syncCompanies_mapped hcommits.companies
  have hkeyed : Keyed Task.id start.tasks start.nextTaskId := by
    rw [hcommits.tasks.1, hcommits.tasks.2]
    exact hsound.tasks
  have hproject : ∀ company, projectId (db (perform s (.syncConductor draws))) company =
      projectId start company := by
    intro company
    simp only [projectId, findProject, projects_writeTasks hwritten]
  constructor
  · intro hcomplete
    refine ⟨hcomplete.tasks, hcomplete.companies, ?_⟩
    intro company hmem hnameless
    have hsome := hcomplete.projects company hmem
    rw [hproject] at hsome
    by_contra hnone
    rw [hmapped.nameless company.1 (by simpa using hnone) hnameless] at hsome
    cases hsome
  · intro hclean
    refine ⟨hclean.tasks, hclean.companies, ?_, ⟨_, _, hcommits, hwritten⟩,
      (findTask_writeTasks hkeyed hwritten).2⟩
    intro company hmem
    rw [hproject]
    by_cases hnameless : ∀ found,
        (company.1, Entry.wellFormed found) ∈ readCompaniesFile s.disk.companies → found.name = none
    · obtain ⟨id, hid⟩ := Option.isSome_iff_exists.mp (hclean.named company hmem hnameless)
      rw [hmapped.kept company.1 id hid]
      rfl
    · simp only [not_forall] at hnameless
      obtain ⟨found, hfound, hname⟩ := hnameless
      exact hmapped.named company.1 found hfound (Option.isSome_iff_ne_none.mpr hname)

/-! ### The hash -/

/-- Only a run that succeeds changes the hash, and to that of its version. -/
theorem lastSyncHash_perform (s : State) (op : Operation) :
    (perform s op).lastSyncHash = s.lastSyncHash ∨
      ∃ draws, op = .syncConductor draws ∧ s.disk.directory = true ∧
        ¬ (s.disk.hash.isSome ∧ s.disk.hash = s.lastSyncHash) ∧
        (∃ tasks stats projects, (syncConductorData draws s).2 = .synced tasks stats projects) ∧
        (perform s op).lastSyncHash = s.disk.hash := by
  cases op with
  | wait milliseconds => exact .inl rfl
  | request queries workspaceId caller request => exact .inl rfl
  | importIssues params issues => exact .inl rfl
  | files disk => exact .inl rfl
  | syncCompleted files => exact .inl rfl
  | syncConductor draws =>
    simp only [perform, syncConductorData]
    split
    · exact .inl rfl
    · rename_i hdirectory
      split
      · exact .inl rfl
      · rename_i hchanged
        split
        · rename_i w tasks stats projects heq
          cases hhash : s.disk.hash with
          | none => exact .inl rfl
          | some h =>
            right
            refine ⟨draws, rfl, by simpa using hdirectory, by rwa [← hhash],
              ⟨tasks, stats, projects, ?_⟩, rfl⟩
            rw [heq]
        · exact .inl rfl

/-- A run that succeeds on files that are not clean marks a version that it has not written. -/
theorem marked_of_not_clean {s : State} {draws : Draws} (hsound : Sound (db s))
    (hsynced : ∃ tasks stats projects, (syncConductorData draws s).2 = .synced tasks stats projects)
    (hclean : ¬ Clean s) (hfiles : s.disk.hash.isSome = true) :
    (perform s (.syncConductor draws)).lastSyncHash = s.disk.hash ∧ ¬ Complete draws s := by
  refine ⟨?_, (complete_iff_clean hsound hsynced).not.mpr hclean⟩
  obtain ⟨tasks, stats, projects, hsynced⟩ := hsynced
  obtain ⟨hash, hhash⟩ := Option.isSome_iff_exists.mp hfiles
  simp only [perform]
  unfold syncConductorData at hsynced ⊢
  split
  · rename_i hdirectory
    rw [if_pos hdirectory] at hsynced
    cases hsynced
  · rename_i hdirectory
    rw [if_neg hdirectory] at hsynced
    split
    · rename_i hsame
      rw [if_pos hsame] at hsynced
      cases hsynced
    · rename_i hchanged
      rw [if_neg hchanged] at hsynced
      split at hsynced
      · rw [hhash]
        rfl
      · rename_i hreply _
        exact absurd hsynced (hreply _ _ _)

def sampleVersion : Disk := sampleDisk [.wellFormed (sampleConductorTask "acme-1" "running")]

/-- A version of the file whose writing was interrupted. -/
def sampleTruncated : Disk := ⟨true, some ⟨⟨1, 1⟩, .unparsable⟩, none⟩

end MissionControl.Conductor.Retries
