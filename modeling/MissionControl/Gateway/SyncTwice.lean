import MissionControl.Gateway.AgentSync

/-!
Two synchronisations with nothing changed in between. The second one has nothing to do as long as
every entry has a name of its own, a role that is a text, and no empty soul: an entry is compared
to the row that has its name, and an empty soul in that row counts as none.
-/

set_option autoImplicit false
set_option relaxedAutoImplicit false

namespace MissionControl.Gateway.SyncTwice

open MissionControl.Foundations.JsonValues
open MissionControl.Foundations.Schema (Json lookup)
open MissionControl.Gateway.AgentSave
open MissionControl.Gateway.AgentSync

variable {Text : Type}

/-- The entries that a synchronisation goes through; a file that cannot be read has none. -/
def listedAgents (disk : Format Text) (file : Option Text) : Option (List Json) :=
  match file.bind disk.parse with
  | none => some []
  | some parsed => agentsOf parsed

/-- What the audit log and the listeners are told of a synchronisation. -/
structure Announcement where
  synced : Nat
  created : Nat
  updated : Nat
  agents : List String
  deriving DecidableEq

def countOf (action : Action) (reports : List Report) : Nat :=
  reports.countP fun report => report.action = action

/-- The end of `syncAgentsFromConfig`: nothing is told where nothing was created or updated. -/
def announcement (reports : List Report) : Option Announcement :=
  let created := countOf .created reports
  let updated := countOf .updated reports
  if created > 0 ∨ updated > 0 then
    some ⟨reports.length, created, updated,
      (reports.filter fun report => report.action ≠ .unchanged).map Report.name⟩
  else none

variable [DecidableEq Text]

/-- The second synchronisation reports every entry as unchanged, leaves the table as it is and
tells nobody. -/
def Idempotent (json disk : Format Text) (ws : Workspaces) (now later : Nat) (file : Option Text)
    (agents : List (AgentRow Text)) : Prop :=
  ∃ reports agents' reports',
    syncAgentsFromConfig json disk ws now file agents = some (reports, agents') ∧
      syncAgentsFromConfig json disk ws later file agents' = some (reports', agents') ∧
      (∀ report ∈ reports', report.action = .unchanged) ∧ announcement reports' = none

variable {json disk : Format Text} {ws : Workspaces} {now later : Nat} {file : Option Text}
  {agents agents' : List (AgentRow Text)} {agent : Json} {list : List Json}
  {reports : List Report}

theorem syncAgentsFromConfig_eq : syncAgentsFromConfig json disk ws now file agents =
    (listedAgents disk file).bind (syncAgents json ws now agents) := by
  unfold syncAgentsFromConfig listedAgents
  cases file.bind disk.parse with
  | none => rfl
  | some parsed => rfl

theorem announcement_of_unchanged (h : ∀ report ∈ reports, report.action = .unchanged) :
    announcement reports = none := by
  have hcount : ∀ action, action ≠ Action.unchanged → countOf action reports = 0 := by
    intro action haction
    apply List.countP_eq_zero.mpr
    intro report hreport
    simpa [h report hreport] using haction.symm
  simp [announcement, hcount .created (by decide), hcount .updated (by decide)]

/-! ### Entries that are up to date -/

/-- The table has a row for the entry that does not differ from it. -/
def Current (json : Format Text) (ws : Workspaces) (agents : List (AgentRow Text)) (agent : Json) :
    Prop :=
  ∃ name row config, boundName ws agent = some name ∧ rowNamed name agents = some row ∧
    json.print (.object (agentConfig ws agent)) = some config ∧
    differs json row config (agentRole agent) (agentSoul ws agent) = false

/-- The entry can be bound, its role is a text, and its soul is not empty. -/
structure Settles (json : Format Text) (ws : Workspaces) (agent : Json) : Prop where
  bindable : Bindable json ws agent
  role : ∃ role, agentRole agent = .string role
  soul : agentSoul ws agent ≠ some ""

theorem differs_eq_false_iff {row : AgentRow Text} {config : Text} {role : Json}
    {soul : Option String} : differs json row config role soul = false ↔
      row.config.or (json.print (.object [])) = some config ∧ .string row.role = role ∧
        (soul.isSome → soul = row.soulContent.filter (· ≠ "")) := by
  simp only [differs, decide_eq_false_iff_not, not_or, not_not, ne_eq, not_and]

/-- An entry is reported as unchanged exactly when it is up to date; the table stays as it is. -/
theorem syncAgent_unchanged_iff :
    (∃ report, syncAgent json ws now agents agent = some (report, agents') ∧
      report.action = .unchanged) ↔ Current json ws agents agent ∧ agents' = agents := by
  constructor
  · rintro ⟨report, h, hreport⟩
    obtain ⟨name, config, role, hname, hconfig, -, -, -, ⟨row, hrow, hsame, -, rfl⟩ |
      ⟨-, -, hcontra, -⟩ | ⟨-, hcontra, -⟩⟩ := syncAgent_cases h
    · exact ⟨⟨name, row, config, hname, hrow, hconfig, hsame⟩, rfl⟩
    · rw [hreport] at hcontra
      cases hcontra
    · rw [hreport] at hcontra
      cases hcontra
  · rintro ⟨⟨name, row, config, hname, hrow, hconfig, hsame⟩, rfl⟩
    have hbound : boundText ws.numberText (agentRole agent) = some row.role := by
      rw [← (differs_eq_false_iff.mp hsame).2.1]
      rfl
    refine ⟨⟨getField agent "id", name, .unchanged⟩, ?_, rfl⟩
    simp [syncAgent, hname, hconfig, hbound, hrow, hsame]

/-- A synchronisation that reports nothing but unchanged entries leaves the table as it is. -/
theorem syncAgents_unchanged_iff :
    (∃ reports, syncAgents json ws now agents list = some (reports, agents') ∧
      ∀ report ∈ reports, report.action = .unchanged) ↔
      (∀ agent ∈ list, Current json ws agents agent) ∧ agents' = agents := by
  induction list with
  | nil =>
    constructor
    · rintro ⟨reports, h, -⟩
      obtain ⟨rfl, rfl⟩ := Prod.mk.inj (Option.some.inj h)
      exact ⟨by simp, rfl⟩
    · rintro ⟨-, rfl⟩
      exact ⟨[], rfl, by simp⟩
  | cons agent list ih =>
    rw [List.forall_mem_cons]
    constructor
    · rintro ⟨reports, h, hall⟩
      obtain ⟨report, mid, reports', hagent, hrest, rfl⟩ := syncAgents_cons_eq_some.mp h
      rw [List.forall_mem_cons] at hall
      obtain ⟨hcurrent, rfl⟩ := syncAgent_unchanged_iff.mp ⟨report, hagent, hall.1⟩
      obtain ⟨hlist, rfl⟩ := ih.mp ⟨reports', hrest, hall.2⟩
      exact ⟨⟨hcurrent, hlist⟩, rfl⟩
    · rintro ⟨⟨hcurrent, hlist⟩, rfl⟩
      obtain ⟨report, hagent, hreport⟩ := syncAgent_unchanged_iff.mpr ⟨hcurrent, rfl⟩
      obtain ⟨reports, hrest, hall⟩ := ih.mpr ⟨hlist, rfl⟩
      exact ⟨report :: reports, syncAgents_cons_eq_some.mpr ⟨report, _, reports, hagent, hrest, rfl⟩,
        List.forall_mem_cons.mpr ⟨hreport, hall⟩⟩

/-- What is left is whether the first synchronisation leaves every entry up to date. -/
theorem idempotent_iff : Idempotent json disk ws now later file agents ↔
    ∃ list reports agents', listedAgents disk file = some list ∧
      syncAgents json ws now agents list = some (reports, agents') ∧
      ∀ agent ∈ list, Current json ws agents' agent := by
  unfold Idempotent
  simp only [syncAgentsFromConfig_eq, Option.bind_eq_some_iff]
  constructor
  · rintro ⟨reports, agents', reports', ⟨list, hlist, hfirst⟩, ⟨list', hlist', hsecond⟩, hall, -⟩
    obtain rfl : list = list' := Option.some.inj (hlist.symm.trans hlist')
    exact ⟨list, reports, agents', hlist, hfirst,
      (syncAgents_unchanged_iff.mp ⟨reports', hsecond, hall⟩).1⟩
  · rintro ⟨list, reports, agents', hlist, hfirst, hcurrent⟩
    obtain ⟨reports', hsecond, hall⟩ := syncAgents_unchanged_iff.mpr ⟨hcurrent, rfl⟩
    exact ⟨reports, agents', reports', ⟨list, hlist, hfirst⟩, ⟨list, hlist, hsecond⟩, hall,
      announcement_of_unchanged hall⟩

/-! ### What the first synchronisation leaves -/

theorem Current.settles (h : Current json ws agents agent) : Settles json ws agent := by
  obtain ⟨name, row, config, hname, -, hconfig, hsame⟩ := h
  obtain ⟨-, hrole, hsoul⟩ := differs_eq_false_iff.mp hsame
  refine ⟨⟨by simp [hname], by simp [hconfig], ?_⟩, ⟨row.role, hrole.symm⟩, ?_⟩
  · rw [← hrole]
    rfl
  · intro hempty
    have hkept := hsoul (by simp [hempty])
    rw [hempty] at hkept
    simpa using (Option.filter_eq_some_iff.mp hkept.symm).2

/-- Two entries with one name can only be up to date together if they have the same id. -/
theorem Current.id_eq {agent' : Json} (h : Current json ws agents agent)
    (h' : Current json ws agents agent') (hnames : boundName ws agent = boundName ws agent') :
    getField agent "id" = getField agent' "id" := by
  obtain ⟨name, row, config, hname, hrow, hconfig, hsame⟩ := h
  obtain ⟨name', row', config', hname', hrow', hconfig', hsame'⟩ := h'
  obtain rfl : name = name' := Option.some.inj (hname.symm.trans (hnames.trans hname'))
  obtain rfl : row = row' := Option.some.inj (hrow.symm.trans hrow')
  have hsameConfig : config = config' := Option.some.inj
    ((differs_eq_false_iff.mp hsame).1.symm.trans (differs_eq_false_iff.mp hsame').1)
  have hfields : agentConfig ws agent = agentConfig ws agent' :=
    Json.object.inj (json.print_injective hconfig (hsameConfig ▸ hconfig'))
  have hlookup : ∀ agent, lookup (agentConfig ws agent) "openclawId" = getField agent "id" := by
    intro agent
    rw [agentConfig, lookup_select, if_pos (by decide)]
    rfl
  rw [← hlookup agent, ← hlookup agent', hfields]

theorem Synced.current {name : String} {row : AgentRow Text} (h : Synced json ws agent row)
    (hsettles : Settles json ws agent) (hname : boundName ws agent = some name)
    (hrow : rowNamed name agents = some row) : Current json ws agents agent := by
  obtain ⟨config, hkept, hconfig⟩ := h.config
  obtain ⟨role, hrole⟩ := hsettles.role
  refine ⟨name, row, config, hname, hrow, hconfig, differs_eq_false_iff.mpr ⟨?_, ?_, ?_⟩⟩
  · rw [hkept, Option.some_or]
  · have hbound := h.role
    rw [hrole] at hbound
    rw [hrole, Option.some.inj hbound]
  · intro hsome
    obtain ⟨soul, hsoul⟩ := Option.isSome_iff_exists.mp hsome
    have hne : soul ≠ "" := fun hcontra => hsettles.soul (hcontra ▸ hsoul)
    simp [hsoul, h.soul soul hsoul, Option.filter, hne]

/-- Entries with names of their own are all up to date after a synchronisation. -/
theorem current_syncAgents (h : syncAgents json ws now agents list = some (reports, agents'))
    (hsettles : ∀ agent ∈ list, Settles json ws agent) (hnames : (list.map (boundName ws)).Nodup) :
    ∀ agent ∈ list, Current json ws agents' agent := by
  induction list generalizing agents reports with
  | nil => simp
  | cons agent list ih =>
    obtain ⟨report, mid, reports', hagent, hrest, rfl⟩ := syncAgents_cons_eq_some.mp h
    rw [List.forall_mem_cons] at hsettles ⊢
    rw [List.map_cons, List.nodup_cons] at hnames
    refine ⟨?_, ih hrest hsettles.2 hnames.2⟩
    obtain ⟨name, hname⟩ := Option.isSome_iff_exists.mp hsettles.1.bindable.1
    obtain ⟨row, hrow, hsynced⟩ := synced_syncAgent hagent hname
    have hothers : ∀ other ∈ list, boundName ws other ≠ some name := by
      intro other hmem hcontra
      exact hnames.1 (List.mem_map.mpr ⟨other, hmem, hcontra.trans hname.symm⟩)
    have hkept : rowNamed name agents' = some row :=
      (rowNamed_syncAgents_ne hrest hothers).trans hrow
    exact Synced.current hsynced hsettles.1 hname hkept

/-! ### The second synchronisation -/

/-- Where the entries have ids of their own, the second synchronisation has nothing to do exactly
when every entry settles and they have names of their own as well. -/
theorem second_sync_idle_iff (hids : ∀ list, listedAgents disk file = some list →
      (list.map fun agent => getField agent "id").Nodup) :
    Idempotent json disk ws now later file agents ↔
      ∃ list, listedAgents disk file = some list ∧ (∀ agent ∈ list, Settles json ws agent) ∧
        (list.map (boundName ws)).Nodup := by
  rw [idempotent_iff]
  constructor
  · rintro ⟨list, reports, agents', hlist, -, hcurrent⟩
    refine ⟨list, hlist, fun agent hmem => (hcurrent agent hmem).settles, ?_⟩
    have hdistinct := List.pairwise_map.mp (hids list hlist)
    refine List.pairwise_map.mpr (hdistinct.imp_of_mem ?_)
    intro agent agent' hmem hmem' hne hsame
    exact hne ((hcurrent agent hmem).id_eq (hcurrent agent' hmem') hsame)
  · rintro ⟨list, hlist, hsettles, hnames⟩
    obtain ⟨⟨reports, agents'⟩, hfirst⟩ : ∃ result, syncAgents json ws now agents list =
        some result :=
      Option.isSome_iff_exists.mp
        (syncAgents_isSome.mpr fun agent hmem => (hsettles agent hmem).bindable)
    exact ⟨list, reports, agents', hlist, hfirst, current_syncAgents hfirst hsettles hnames⟩

/-- A workspace that has a soul and nothing else. -/
def soulOnly (soul : String) : Workspaces :=
  ⟨fun _ filename => if filename = "soul.md" then some soul else none, toString⟩

def fileListing (list : List Json) : Json :=
  .object [("agents", .object [("list", .array list)])]

def scout : Json :=
  .object [("id", .string "scout"), ("name", .string "Scout"), ("workspace", .string "scout")]

def writer : Json := .object [("id", .string "writer")]

def secondScout : Json := .object [("id", .string "scout-2"), ("name", .string "Scout")]

theorem listedAgents_fileListing (list : List Json) (h : distinct (fileListing list) = true) :
    listedAgents Format.plain (some (fileListing list)) = some list := by
  have hparse : (some (fileListing list)).bind Format.plain.parse = some (fileListing list) := if_pos h
  unfold listedAgents
  rw [hparse]
  rfl

theorem second_sync_idle_sample : Idempotent Format.plain Format.plain (soulOnly "Be careful.") 10 20
    (some (fileListing [scout, writer])) [] := by
  have hlisted := listedAgents_fileListing [scout, writer] (by decide +kernel)
  refine (second_sync_idle_iff ?_).mpr ⟨[scout, writer], hlisted, ?_, by decide +kernel⟩
  · intro list hlist
    obtain rfl := Option.some.inj (hlisted.symm.trans hlist)
    decide +kernel
  · intro agent hagent
    rcases List.mem_pair.mp hagent with rfl | rfl
    · exact ⟨⟨by decide +kernel, by decide +kernel, by decide +kernel⟩, ⟨"agent", by decide +kernel⟩,
        by decide +kernel⟩
    · exact ⟨⟨by decide +kernel, by decide +kernel, by decide +kernel⟩, ⟨"agent", by decide +kernel⟩,
        by decide +kernel⟩

/-- The second synchronisation writes again where a soul is an empty file, and where two entries
with different ids have one name. -/
theorem second_sync_writes :
    ([scout, secondScout].map fun agent => getField agent "id").Nodup ∧
      ¬ Idempotent Format.plain Format.plain (soulOnly "") 10 20 (some (fileListing [scout])) [] ∧
      ¬ Idempotent Format.plain Format.plain (soulOnly "Be careful.") 10 20
        (some (fileListing [scout, secondScout])) [] := by
  refine ⟨by decide +kernel, ?_, ?_⟩
  · intro h
    obtain ⟨list, reports, agents', hlist, -, hcurrent⟩ := idempotent_iff.mp h
    obtain rfl := Option.some.inj
      ((listedAgents_fileListing [scout] (by decide +kernel)).symm.trans hlist)
    exact (hcurrent scout (by simp)).settles.soul (by decide +kernel)
  · intro h
    obtain ⟨list, reports, agents', hlist, -, hcurrent⟩ := idempotent_iff.mp h
    obtain rfl := Option.some.inj
      ((listedAgents_fileListing [scout, secondScout] (by decide +kernel)).symm.trans hlist)
    have hids := (hcurrent scout (by simp)).id_eq (hcurrent secondScout (by simp)) (by decide +kernel)
    revert hids
    decide +kernel

end MissionControl.Gateway.SyncTwice
