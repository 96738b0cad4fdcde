import MissionControl.Conductor.Sync

/-!
The projects that a synchronization maps the companies to. A project that exists keeps its id, and
the map that the run works with says what the table says afterwards.
-/

set_option autoImplicit false
set_option relaxedAutoImplicit false

namespace MissionControl.Conductor.Companies

open MissionControl.Tasks.Database
open Files Sync

/-- The id of the project with this slug. -/
def projectId (db : Db) (slug : String) : Option Nat := (findProject db slug).map Project.id

/-- The project of a company that the file lists. -/
def companyProject (db : Db) (companies : List (String × Entry ConductorCompany))
    (company : String) : Option Nat :=
  if company ∈ companies.map Prod.fst then projectId db company else none

/-- A company that the file lists with a name has its project. -/
def Known (db : Db) (companies : List (String × Entry ConductorCompany)) (company : String) : Prop :=
  ∀ found, (company, Entry.wellFormed found) ∈ companies → found.name.isSome = true →
    (projectId db company).isSome = true

/-! ### One company -/

section

variable {draws : Draws} {db db' : Db} {key slug : String}

theorem projectId_updateProject (id : Nat) (name description : String) :
    projectId (updateProject db id name description) slug = projectId db slug := by
  unfold projectId findProject updateProject
  rw [List.find?_map, Option.map_map]
  have hkeys : ((fun p : Project => decide (p.slug = slug ∧ p.workspaceId = CONDUCTOR_WORKSPACE_ID)) ∘
      fun p => if p.id = id then { p with name := name, description := some description } else p) =
      fun p => decide (p.slug = slug ∧ p.workspaceId = CONDUCTOR_WORKSPACE_ID) := by
    funext p
    by_cases hid : p.id = id <;> simp [hid]
  have hids : (Project.id ∘ fun p : Project =>
      if p.id = id then { p with name := name, description := some description } else p) =
      Project.id := by
    funext p
    by_cases hid : p.id = id <;> simp [hid]
  rw [hkeys, hids]

theorem projectId_insertProject (name description ticketPrefix : String)
    (h : projectId db key = none) :
    projectId (insertProject db name key description ticketPrefix) slug =
      if slug = key then some db.nextProjectId else projectId db slug := by
  unfold projectId findProject insertProject
  rw [List.find?_append]
  by_cases hslug : slug = key
  · subst hslug
    rw [show db.projects.find? (fun p =>
        decide (p.slug = slug ∧ p.workspaceId = CONDUCTOR_WORKSPACE_ID)) = none from
      Option.map_eq_none_iff.mp h]
    simp
  · simp [hslug, Ne.symm hslug]

/-- What a company with a project, or one that is passed over, does to the projects. -/
inductive CompanyStep (db : Db) (key : String) : Entry ConductorCompany → Db → CompanyResult → Prop
  | updated {company : ConductorCompany} {existing : Project} {name description : String}
      (found : findProject db key = some existing) :
      CompanyStep db key (.wellFormed company) (updateProject db existing.id name description)
        (.mapped existing.id)
  | inserted {company : ConductorCompany} {name description ticketPrefix : String}
      (missing : findProject db key = none) (named : company.name = some name) :
      CompanyStep db key (.wellFormed company)
        (insertProject db name key description ticketPrefix) (.mapped db.nextProjectId)
  | skipped {company : ConductorCompany} (missing : findProject db key = none)
      (nameless : company.name = none) : CompanyStep db key (.wellFormed company) db .skipped
  | threw {company : Entry ConductorCompany} : CompanyStep db key company db .threw

theorem syncCompany_step (draws : Draws) (db : Db) (key : String)
    (company : Entry ConductorCompany) :
    CompanyStep db key company (syncCompany draws db key company).1
      (syncCompany draws db key company).2 := by
  cases company with
  | malformed => exact .threw
  | wellFormed company =>
    unfold syncCompany
    dsimp only
    split
    · rename_i existing name hfound _
      exact .updated hfound
    · exact .threw
    · rename_i hmissing hnameless
      exact .skipped hmissing hnameless
    · rename_i name hmissing hnamed
      split
      · exact .inserted hmissing hnamed
      · split
        · exact .inserted hmissing hnamed
        · exact .threw

end

/-! ### All of them -/

/-- What the companies come to, with the projects from before. -/
structure Mapped (companies : List (String × Entry ConductorCompany)) (db db' : Db)
    (companyToProjectId : List (String × Nat)) : Prop where
  kept : ∀ slug id, projectId db slug = some id → projectId db' slug = some id
  other : ∀ slug, slug ∉ companies.map Prod.fst → projectId db' slug = projectId db slug
  fresh : ∀ slug id, projectId db slug = none → projectId db' slug = some id →
    db.nextProjectId ≤ id
  named : ∀ slug found, (slug, Entry.wellFormed found) ∈ companies → found.name.isSome = true →
    (projectId db' slug).isSome = true
  nameless : ∀ slug, projectId db slug = none →
    (∀ found, (slug, Entry.wellFormed found) ∈ companies → found.name = none) →
    projectId db' slug = none
  map : ∀ slug, (companyToProjectId.find? fun entry => entry.1 = slug).map Prod.snd =
    companyProject db' companies slug
  next : db.nextProjectId ≤ db'.nextProjectId

/-- What one step of the loop does to the ids of the projects. -/
theorem projectId_step {db db' : Db} {key : String} {company : Entry ConductorCompany}
    {result : CompanyResult} (h : CompanyStep db key company db' result) :
    db.nextProjectId ≤ db'.nextProjectId ∧ ∀ slug, projectId db' slug = projectId db slug ∨
      slug = key ∧ projectId db slug = none ∧ projectId db' slug = some db.nextProjectId ∧
        ∃ found, company = .wellFormed found ∧ found.name.isSome = true := by
  cases h with
  | updated found => exact ⟨Nat.le_refl _, fun slug => .inl (projectId_updateProject ..)⟩
  | inserted missing named =>
    have hnone : projectId db key = none := by simp [projectId, missing]
    refine ⟨Nat.le_succ _, ?_⟩
    intro slug
    by_cases hslug : slug = key
    · subst hslug
      refine .inr ⟨rfl, hnone, ?_, _, rfl, by simp [named]⟩
      rw [projectId_insertProject _ _ _ hnone, if_pos rfl]
    · left
      rw [projectId_insertProject _ _ _ hnone, if_neg hslug]
  | skipped missing nameless => exact ⟨Nat.le_refl _, fun slug => .inl rfl⟩
  | threw => exact ⟨Nat.le_refl _, fun slug => .inl rfl⟩

/-- The project that a step finds or makes, if it does not throw. -/
theorem projectId_of_step {db db' : Db} {key : String} {company : Entry ConductorCompany}
    {result : CompanyResult} (h : CompanyStep db key company db' result) :
    (∀ id, result = .mapped id → projectId db' key = some id) ∧
      (result = .skipped → projectId db' key = none ∧
        ∀ found, company = .wellFormed found → found.name = none) := by
  cases h with
  | updated found =>
    refine ⟨?_, nofun⟩
    rintro id ⟨⟩
    rw [projectId_updateProject, projectId, found]
    rfl
  | inserted missing named =>
    have hnone : projectId db key = none := by simp [projectId, missing]
    refine ⟨?_, nofun⟩
    rintro id ⟨⟩
    rw [projectId_insertProject _ _ _ hnone, if_pos rfl]
  | skipped missing nameless =>
    refine ⟨nofun, fun _ => ⟨by simp [projectId, missing], ?_⟩⟩
    rintro found ⟨⟩
    exact nameless
  | threw => exact ⟨nofun, nofun⟩

section

variable {companies : List (String × Entry ConductorCompany)} {db db₁ db' : Db} {key : String}
  {company : Entry ConductorCompany} {result : CompanyResult} {mapped : List (String × Nat)}

theorem Mapped.cons (hstep : CompanyStep db key company db₁ result) (hrest : Mapped companies db₁ db' mapped)
    (hnamed : ∀ found, company = .wellFormed found → found.name.isSome = true →
      (projectId db₁ key).isSome = true)
    {mapped' : List (String × Nat)}
    (hmap : ∀ slug, (mapped'.find? fun entry => entry.1 = slug).map Prod.snd =
      companyProject db' ((key, company) :: companies) slug) :
    Mapped ((key, company) :: companies) db db' mapped' := by
  obtain ⟨hnext, hids⟩ := projectId_step hstep
  refine ⟨?_, ?_, ?_, ?_, ?_, hmap, hnext.trans hrest.next⟩
  · intro slug id hid
    rcases hids slug with hsame | ⟨-, hnone, -⟩
    · exact hrest.kept slug id (hsame.trans hid)
    · rw [hnone] at hid
      cases hid
  · intro slug hslug
    rw [List.map_cons, List.mem_cons, not_or] at hslug
    rcases hids slug with hsame | ⟨hkey, -⟩
    · exact (hrest.other slug hslug.2).trans hsame
    · exact absurd hkey hslug.1
  · intro slug id hnone hid
    rcases hids slug with hsame | ⟨-, -, hnew, -⟩
    · exact hnext.trans (hrest.fresh slug id (hsame.trans hnone) hid)
    · have hkept := hrest.kept slug _ hnew
      rw [hid] at hkept
      exact (Option.some.inj hkept).ge
  · intro slug found hmem hname
    rcases List.mem_cons.mp hmem with hmem | hmem
    · obtain ⟨rfl, hcompany⟩ := Prod.mk.inj hmem
      obtain ⟨id, hid⟩ := Option.isSome_iff_exists.mp (hnamed found hcompany.symm hname)
      rw [hrest.kept _ id hid]
      rfl
    · exact hrest.named slug found hmem hname
  · intro slug hnone hnameless
    refine hrest.nameless slug ?_ fun found hmem => hnameless found (List.mem_cons_of_mem _ hmem)
    rcases hids slug with hsame | ⟨hkey, -, -, found, hcompany, hname⟩
    · exact hsame.trans hnone
    · have hmem : (slug, Entry.wellFormed found) ∈ (key, company) :: companies := by
        rw [hkey, hcompany]
        exact List.mem_cons_self
      rw [hnameless found hmem] at hname
      cases hname

end

private theorem mem_keys_cons {companies : List (String × Entry ConductorCompany)} {key slug : String}
    {company : Entry ConductorCompany} (h : slug ≠ key) :
    slug ∈ ((key, company) :: companies).map Prod.fst ↔ slug ∈ companies.map Prod.fst := by
  rw [List.map_cons, List.mem_cons]
  exact or_iff_right h

theorem syncCompanies_mapped {draws : Draws} {companies : List (String × Entry ConductorCompany)}
    {db db' : Db} {companyToProjectId : List (String × Nat)}
    (h : syncCompanies draws db companies = (db', some companyToProjectId)) :
    Mapped companies db db' companyToProjectId := by
  induction companies generalizing db db' companyToProjectId with
  | nil =>
    obtain ⟨rfl, hmap⟩ := Prod.mk.inj h
    obtain rfl := Option.some.inj hmap
    refine ⟨fun _ _ hid => hid, fun _ _ => rfl, ?_, fun _ _ hmem => (by cases hmem),
      fun _ hnone _ => hnone, fun _ => rfl, Nat.le_refl _⟩
    intro slug id hnone hid
    rw [hnone] at hid
    cases hid
  | cons entry companies ih =>
    obtain ⟨key, company⟩ := entry
    have hstep := syncCompany_step draws db key company
    unfold syncCompanies at h
    generalize syncCompany draws db key company = step at h hstep
    obtain ⟨db₁, result⟩ := step
    dsimp only at hstep
    have hproject := projectId_of_step hstep
    cases result with
    | threw =>
      obtain ⟨-, hmap⟩ := Prod.mk.inj h
      cases hmap
    | skipped =>
      have hrest := ih h
      obtain ⟨hnone, hnameless⟩ := hproject.2 rfl
      refine hrest.cons hstep ?_ ?_
      · intro found hfound hname
        rw [hnameless found hfound] at hname
        cases hname
      · intro slug
        rw [hrest.map slug]
        unfold companyProject
        by_cases hslug : slug = key
        · subst hslug
          by_cases hmem : slug ∈ companies.map Prod.fst
          · simp [hmem]
          · simp [hmem, hrest.other slug hmem, hnone]
        · exact (if_congr (mem_keys_cons hslug) rfl rfl).symm
    | mapped id =>
      rcases hrest : syncCompanies draws db₁ companies with ⟨db₂, mapped⟩
      simp only [hrest] at h
      obtain ⟨rfl, hmap⟩ := Prod.mk.inj h
      obtain ⟨mapped, rfl, rfl⟩ := Option.map_eq_some_iff.mp hmap
      have hrest := ih hrest
      have hid := hproject.1 id rfl
      refine hrest.cons hstep (fun _ _ _ => by rw [hid]; rfl) ?_
      intro slug
      by_cases hslug : slug = key
      · subst hslug
        have hkept := hrest.kept slug id hid
        simp [companyProject, hkept]
      · have hother := hrest.map slug
        rw [List.find?_cons_of_neg (by simpa using Ne.symm hslug), hother]
        exact (if_congr (mem_keys_cons hslug) rfl rfl).symm

/-! ### The project of a row -/

/-- A row has the project of its company after the run if it had it before and the company is not
one that the run makes a project for. -/
theorem eq_companyProject_iff {companies : List (String × Entry ConductorCompany)} {db db' : Db}
    {companyToProjectId : List (String × Nat)} (h : Mapped companies db db' companyToProjectId)
    {project : Option Nat} (hproject : ∀ id ∈ project, id < db.nextProjectId) (company : String) :
    project = companyProject db' companies company ↔
      project = companyProject db companies company ∧ Known db companies company := by
  by_cases hmem : company ∈ companies.map Prod.fst
  · simp only [companyProject, if_pos hmem]
    cases hbefore : projectId db company with
    | some id =>
      rw [h.kept company id hbefore]
      simp [Known, hbefore]
    | none =>
      constructor
      · intro hafter
        have hnone : project = none := by
          cases hrow : project with
          | none => rfl
          | some id =>
            have hnew := h.fresh company id hbefore (hafter.symm.trans hrow)
            have hold := hproject id hrow
            omega
        refine ⟨hnone, ?_⟩
        intro found hfound hname
        have hsome := h.named company found hfound hname
        rw [← hafter, hnone] at hsome
        cases hsome
      · rintro ⟨rfl, hknown⟩
        refine (h.nameless company hbefore ?_).symm
        intro found hfound
        by_contra hname
        have hsome := hknown found hfound (Option.isSome_iff_ne_none.mpr hname)
        rw [hbefore] at hsome
        cases hsome
  · have hknown : Known db companies company := by
      intro found hfound
      exact absurd (List.mem_map_of_mem hfound) hmem
    simp [companyProject, hmem, hknown]

end MissionControl.Conductor.Companies
