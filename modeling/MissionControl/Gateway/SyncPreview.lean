import MissionControl.Foundations.Lists
import MissionControl.Gateway.SyncTwice

/-!
The preview of a synchronisation, which compares every entry to the table as it is, and the
synchronisation, which compares it to the table as the entries before leave it and also looks at
its soul.
-/

set_option autoImplicit false
set_option relaxedAutoImplicit false

namespace MissionControl.Gateway.SyncPreview

open MissionControl.Foundations.JsonValues
open MissionControl.Foundations.Lists
open MissionControl.Foundations.Schema (Json)
open MissionControl.Gateway.AgentSave
open MissionControl.Gateway.AgentSync
open MissionControl.Gateway.SyncTwice

variable {Text : Type}

/-! ### The preview -/

/-- What the preview returns. A name is listed as the file has it, which need not be a text, and
is `none` for an entry without one. -/
structure SyncDiff where
  inConfig : Nat
  inMC : Nat
  newAgents : List (Option Json)
  updatedAgents : List (Option Json)
  onlyInMC : List String
  deriving DecidableEq

/-- The row that the preview finds for a name; a number is not equal to its text. -/
def existingRow (agents : List (AgentRow Text)) (name : Option Json) : Option (AgentRow Text) :=
  agents.find? fun row => name = some (.string row.name)

variable [DecidableEq Text]

/-- What the preview takes an entry for: a new one, an updated one or neither; `none` is an
error. -/
def previewAgent (json : Format Text) (ws : Workspaces) (agents : List (AgentRow Text))
    (agent : Json) : Option Action :=
  if agent = .null then none
  else
    match existingRow agents (agentName agent) with
    | none => some .created
    | some row =>
      match json.print (.object (agentConfig ws agent)) with
      | none => none
      | some config =>
        if row.config ≠ some config ∨ .string row.role ≠ agentRole agent then some .updated
        else some .unchanged

def previewAgents (json : Format Text) (ws : Workspaces) (agents : List (AgentRow Text)) :
    List Json → Option (List Action)
  | [] => some []
  | agent :: list =>
    match previewAgent json ws agents agent with
    | none => none
    | some action => (previewAgents json ws agents list).map (action :: ·)

/-- The names of the entries that are taken for the same. -/
def listed (action : Action) (list : List Json) (actions : List Action) : List (Option Json) :=
  ((list.zip actions).filter fun entry => entry.2 = action).map fun entry => agentName entry.1

/-- `previewSyncDiff` on the text of the file. -/
def previewSyncDiff (json disk : Format Text) (ws : Workspaces) (file : Option Text)
    (agents : List (AgentRow Text)) : Option SyncDiff :=
  match file.bind disk.parse with
  | none => some ⟨0, 0, [], [], []⟩
  | some parsed =>
    (agentsOf parsed).bind fun list =>
      (previewAgents json ws agents list).map fun actions =>
        { inConfig := list.length
          inMC := agents.length
          newAgents := listed .created list actions
          updatedAgents := listed .updated list actions
          onlyInMC := (agents.map AgentRow.name).filter fun name =>
            some (.string name) ∉ list.map agentName }

/-- The preview takes every entry for what the synchronisation that comes next reports of it: for
new exactly if it is created, and for updated exactly if it is updated. -/
def Agrees (json disk : Format Text) (ws : Workspaces) (now : Nat) (file : Option Text)
    (agents : List (AgentRow Text)) : Prop :=
  ∃ list reports agents', listedAgents disk file = some list ∧
    syncAgentsFromConfig json disk ws now file agents = some (reports, agents') ∧
    previewAgents json ws agents list = some (reports.map Report.action)

/-! ### What the two compare -/

/-- The entry has another configuration or another role than the row. -/
def DiffersInConfig (json : Format Text) (ws : Workspaces) (row : AgentRow Text) (agent : Json) :
    Prop :=
  row.config ≠ json.print (.object (agentConfig ws agent)) ∨ .string row.role ≠ agentRole agent

/-- The entry has a soul, which is not that of the row. -/
def DiffersInSoul (ws : Workspaces) (row : AgentRow Text) (agent : Json) : Prop :=
  (agentSoul ws agent).isSome ∧ agentSoul ws agent ≠ row.soulContent.filter (· ≠ "")

/-- The row as entries with its name leave it: with the configuration and the role of the last of
them, and with the soul of the last that has one. -/
def standing (json : Format Text) (ws : Workspaces) (row : AgentRow Text) (earlier : List Json) :
    AgentRow Text :=
  { row with
    role := (earlier.getLast?.bind fun agent => boundText ws.numberText (agentRole agent)).getD
      row.role
    config := (earlier.getLast?.bind fun agent => json.print (.object (agentConfig ws agent))).or
      row.config
    soulContent := (earlier.filterMap (agentSoul ws)).getLast?.or row.soulContent }

/-- The entries of a list that have a name. -/
def namesakes (ws : Workspaces) (name : String) (list : List Json) : List Json :=
  list.filter fun agent => boundName ws agent = some name

/-- The entry is to the table as it is what it is to the table as the entries before leave it: if
the preview finds no row for it, neither is there one for the text of its name nor is one created
before, and if it finds a row, the entry has another configuration or another role than that row
exactly if it differs from the row as the entries before leave it. -/
def Foreseen (json : Format Text) (ws : Workspaces) (agents : List (AgentRow Text))
    (front : List Json) (agent : Json) : Prop :=
  ∀ name, boundName ws agent = some name →
    match existingRow agents (agentName agent) with
    | none => rowNamed name agents = none ∧ namesakes ws name front = []
    | some row =>
      (DiffersInConfig json ws row agent ↔
        DiffersInConfig json ws (standing json ws row (namesakes ws name front)) agent ∨
          DiffersInSoul ws (standing json ws row (namesakes ws name front)) agent)

variable {json disk : Format Text} {ws : Workspaces} {now : Nat} {file : Option Text}
  {agents agents' mid : List (AgentRow Text)} {row row' : AgentRow Text} {agent : Json}
  {front list : List Json} {name : String} {report : Report} {reports : List Report}

omit [DecidableEq Text] in
theorem existingRow_eq_some (h : existingRow agents (agentName agent) = some row) :
    agentName agent = some (.string row.name) ∧ rowNamed row.name agents = some row := by
  have hname : agentName agent = some (.string row.name) := by
    simpa using List.find?_some h
  refine ⟨hname, ?_⟩
  rw [existingRow, hname] at h
  rw [rowNamed, ← h]
  congr 1
  funext other
  simp [eq_comm]

theorem boundName_of_agentName (hagent : agent ≠ .null) (h : agentName agent = some (.string name)) :
    boundName ws agent = some name := by
  simp [boundName, hagent, h, boundText]

theorem ne_null_of_boundName (h : boundName ws agent = some name) : agent ≠ .null := by
  rintro rfl
  cases h

/-- What the synchronisation compares is the configuration, the role and the soul: a row without a
configuration differs from every entry. -/
theorem differs_iff {config : Text} (hconfig : json.print (.object (agentConfig ws agent)) =
      some config) :
    differs json row config (agentRole agent) (agentSoul ws agent) = true ↔
      DiffersInConfig json ws row agent ∨ DiffersInSoul ws row agent := by
  have hor : row.config.or (json.print (.object [])) ≠ some config ↔ row.config ≠ some config := by
    cases row.config with
    | some text => rfl
    | none =>
      refine iff_of_true (fun hcontra => ?_) (by simp)
      have hnil := json.print_injective hcontra hconfig
      exact agentConfig_ne_nil ws agent (Json.object.inj hnil).symm
  unfold differs DiffersInConfig DiffersInSoul
  rw [hconfig, decide_eq_true_eq, hor, or_assoc]

/-! ### The row as the entries before leave it -/

/-- Nothing tells the rows apart that the synchronisation compares. -/
structure Alike (row row' : AgentRow Text) : Prop where
  config : row.config = row'.config
  role : row.role = row'.role
  soul : row.soulContent.filter (· ≠ "") = row'.soulContent.filter (· ≠ "")

omit [DecidableEq Text] in
theorem Alike.differsInConfig (h : Alike row row') :
    DiffersInConfig json ws row agent ↔ DiffersInConfig json ws row' agent := by
  rw [DiffersInConfig, DiffersInConfig, h.config, h.role]

omit [DecidableEq Text] in
theorem Alike.differsInSoul (h : Alike row row') :
    DiffersInSoul ws row agent ↔ DiffersInSoul ws row' agent := by
  rw [DiffersInSoul, DiffersInSoul, h.soul]

omit [DecidableEq Text] in
theorem standing_concat {config : Text} {role : String} {earlier : List Json}
    (hconfig : json.print (.object (agentConfig ws agent)) = some config)
    (hrole : boundText ws.numberText (agentRole agent) = some role) :
    standing json ws row (earlier ++ [agent]) =
      { row with
        role := role
        config := some config
        soulContent := (agentSoul ws agent).or (standing json ws row earlier).soulContent } := by
  cases hsoul : agentSoul ws agent <;> simp [standing, hsoul, hconfig, hrole]

theorem namesakes_concat (front : List Json) (agent : Json) : namesakes ws name (front ++ [agent]) =
    namesakes ws name front ++ if boundName ws agent = some name then [agent] else [] := by
  rw [namesakes, List.filter_append]
  by_cases h : boundName ws agent = some name <;> simp [namesakes, h]

theorem filter_filter_or (soul kept : Option String) :
    (soul.or (kept.filter (· ≠ ""))).filter (· ≠ "") = (soul.or kept).filter (· ≠ "") := by
  cases soul with
  | some soul => simp
  | none =>
    cases kept with
    | none => rfl
    | some kept => by_cases hempty : kept = "" <;> simp [Option.filter, hempty]

/-- What one entry makes of a row that is as the entries before leave it. -/
theorem alike_syncAgent {earlier : List Json} (h : syncAgent json ws now mid agent =
      some (report, agents')) (hname : boundName ws agent = some name)
    (hrow' : rowNamed name mid = some row') (halike : Alike row' (standing json ws row earlier)) :
    ∃ last, rowNamed name agents' = some last ∧
      Alike last (standing json ws row (earlier ++ [agent])) := by
  obtain ⟨name', config, role, hname', hconfig, hrole, -, -, ⟨row₁, hrow₁, hsame, -, rfl⟩ |
    ⟨row₁, hrow₁, -, rfl⟩ | ⟨hnone, -, -⟩⟩ := syncAgent_cases h
  · obtain rfl : name' = name := Option.some.inj (hname'.symm.trans hname)
    obtain rfl : row' = row₁ := Option.some.inj (hrow'.symm.trans hrow₁)
    have hsynced := synced_of_not_differs hconfig hsame
    refine ⟨row', hrow', ?_⟩
    rw [standing_concat hconfig hrole]
    refine ⟨?_, ?_, ?_⟩
    · obtain ⟨text, htext, hprint⟩ := hsynced.config
      rw [htext, ← hprint, hconfig]
    · exact Option.some.inj (hsynced.role.symm.trans hrole)
    · cases hsoul : agentSoul ws agent with
      | none => simpa using halike.soul
      | some soul => simp [hsynced.soul soul hsoul]
  · obtain rfl : name' = name := Option.some.inj (hname'.symm.trans hname)
    obtain rfl : row' = row₁ := Option.some.inj (hrow'.symm.trans hrow₁)
    refine ⟨_, by rw [rowNamed_updateNamed, if_pos rfl, hrow']; rfl, ?_⟩
    rw [standing_concat hconfig hrole]
    refine ⟨rfl, rfl, ?_⟩
    change ((agentSoul ws agent).or (row'.soulContent.filter (· ≠ ""))).filter (· ≠ "") = _
    rw [halike.soul, filter_filter_or]
  · obtain rfl : name' = name := Option.some.inj (hname'.symm.trans hname)
    rw [hrow'] at hnone
    cases hnone

/-- A row of the table, after the entries before, is what those with its name leave of it. -/
theorem alike_syncAgents (h : syncAgents json ws now agents front = some (reports, mid))
    (hrow : rowNamed name agents = some row) : ∃ row', rowNamed name mid = some row' ∧
      Alike row' (standing json ws row (namesakes ws name front)) := by
  induction front using List.reverseRecOn generalizing mid reports with
  | nil =>
    obtain ⟨rfl, rfl⟩ := Prod.mk.inj (Option.some.inj h)
    exact ⟨row, hrow, rfl, rfl, rfl⟩
  | append_singleton front agent ih =>
    obtain ⟨reports₁, mid₁, reports₂, hfront, hlast, -⟩ := syncAgents_append.mp h
    obtain ⟨report, last, reports₃, hagent, hnil, -⟩ := syncAgents_cons_eq_some.mp hlast
    obtain ⟨-, rfl⟩ := Prod.mk.inj (Option.some.inj hnil)
    obtain ⟨row', hrow', halike⟩ := ih hfront
    rw [namesakes_concat]
    by_cases hname : boundName ws agent = some name
    · rw [if_pos hname]
      exact alike_syncAgent hagent hname hrow' halike
    · rw [if_neg hname, List.append_nil]
      exact ⟨row', (rowNamed_syncAgent_ne hagent hname).trans hrow', halike⟩

/-- A row stays, and an entry leaves one. -/
theorem rowNamed_syncAgents_eq_none (h : syncAgents json ws now agents front = some (reports, mid)) :
    rowNamed name mid = none ↔ rowNamed name agents = none ∧ namesakes ws name front = [] := by
  induction front generalizing agents reports with
  | nil =>
    obtain ⟨rfl, rfl⟩ := Prod.mk.inj (Option.some.inj h)
    simp [namesakes]
  | cons agent front ih =>
    obtain ⟨report, next, reports', hagent, hrest, -⟩ := syncAgents_cons_eq_some.mp h
    rw [ih hrest]
    by_cases hname : boundName ws agent = some name
    · obtain ⟨row, hrow, -⟩ := synced_syncAgent hagent hname
      simp [hrow, namesakes, hname]
    · rw [rowNamed_syncAgent_ne hagent hname]
      simp [namesakes, hname]

/-! ### The two on one entry and on all -/

/-- An entry that has a row is reported as unchanged exactly when it does not differ from it. -/
theorem action_eq_unchanged_iff (h : syncAgent json ws now mid agent = some (report, agents'))
    (hname : boundName ws agent = some name) (hrow : rowNamed name mid = some row) :
    report.action = .unchanged ↔
      ¬ (DiffersInConfig json ws row agent ∨ DiffersInSoul ws row agent) := by
  constructor
  · intro haction
    obtain ⟨⟨name', row', config, hname', hrow', hconfig, hsame⟩, -⟩ :=
      syncAgent_unchanged_iff.mp ⟨report, h, haction⟩
    obtain rfl : name = name' := Option.some.inj (hname.symm.trans hname')
    obtain rfl : row = row' := Option.some.inj (hrow.symm.trans hrow')
    rw [← differs_iff hconfig, hsame]
    exact Bool.false_ne_true
  · intro hsame
    obtain ⟨name', config, -, -, hconfig, -⟩ := syncAgent_cases h
    rw [← differs_iff hconfig, Bool.not_eq_true] at hsame
    obtain ⟨report', h', haction⟩ :=
      syncAgent_unchanged_iff.mpr ⟨⟨name, row, config, hname, hrow, hconfig, hsame⟩, rfl⟩
    obtain ⟨rfl, -⟩ := Prod.mk.inj (Option.some.inj (h.symm.trans h'))
    exact haction

/-- What the preview takes an entry for that has a row. -/
theorem previewAgent_of_existingRow {config : Text} (hagent : agent ≠ .null)
    (hconfig : json.print (.object (agentConfig ws agent)) = some config)
    (hexisting : existingRow agents (agentName agent) = some row) :
    (DiffersInConfig json ws row agent →
      previewAgent json ws agents agent = some .updated) ∧
      (¬ DiffersInConfig json ws row agent →
        previewAgent json ws agents agent = some .unchanged) := by
  rw [DiffersInConfig, hconfig]
  constructor
  · intro hdiffers
    simp only [previewAgent, if_neg hagent, hexisting, hconfig, if_pos hdiffers]
  · intro hsame
    simp only [previewAgent, if_neg hagent, hexisting, hconfig, if_neg hsame]

omit [DecidableEq Text] in
theorem foreseen_new_iff (hname : boundName ws agent = some name)
    (hexisting : existingRow agents (agentName agent) = none) :
    Foreseen json ws agents front agent ↔
      rowNamed name agents = none ∧ namesakes ws name front = [] := by
  unfold Foreseen
  rw [hexisting]
  constructor
  · intro hall
    exact hall name hname
  · intro hone name' hname'
    obtain rfl : name = name' := Option.some.inj (hname.symm.trans hname')
    exact hone

omit [DecidableEq Text] in
theorem foreseen_existing_iff (hname : boundName ws agent = some name)
    (hexisting : existingRow agents (agentName agent) = some row) :
    Foreseen json ws agents front agent ↔
      (DiffersInConfig json ws row agent ↔
        DiffersInConfig json ws (standing json ws row (namesakes ws name front)) agent ∨
          DiffersInSoul ws (standing json ws row (namesakes ws name front)) agent) := by
  unfold Foreseen
  rw [hexisting]
  constructor
  · intro hall
    exact hall name hname
  · intro hone name' hname'
    obtain rfl : name = name' := Option.some.inj (hname.symm.trans hname')
    exact hone

/-- The preview takes an entry for what the synchronisation will report of it exactly when it is
foreseen. -/
theorem previewAgent_eq_iff (hfront : syncAgents json ws now agents front = some (reports, mid))
    (h : syncAgent json ws now mid agent = some (report, agents')) :
    previewAgent json ws agents agent = some report.action ↔
      Foreseen json ws agents front agent := by
  obtain ⟨name, config, role, hname, hconfig, -, -, -, hcases⟩ := syncAgent_cases h
  have hagent : agent ≠ .null := ne_null_of_boundName hname
  cases hexisting : existingRow agents (agentName agent) with
  | none =>
    have hnew : previewAgent json ws agents agent = some .created := by
      rw [previewAgent, if_neg hagent, hexisting]
    have hcreated : report.action = .created ↔ rowNamed name mid = none := by
      rcases hcases with ⟨row, hrow, -, haction, -⟩ | ⟨row, hrow, haction, -⟩ | ⟨hnone, haction, -⟩
      · simp [haction, hrow]
      · simp [haction, hrow]
      · simp [haction, hnone]
    rw [foreseen_new_iff hname hexisting, hnew, Option.some.injEq, eq_comm, hcreated,
      rowNamed_syncAgents_eq_none hfront]
  | some row =>
    obtain ⟨hraw, hrow⟩ := existingRow_eq_some hexisting
    obtain rfl : name = row.name :=
      Option.some.inj (hname.symm.trans (boundName_of_agentName hagent hraw))
    obtain ⟨row', hrow', halike⟩ := alike_syncAgents hfront hrow
    have hunchanged := action_eq_unchanged_iff h hname hrow'
    rw [halike.differsInConfig, halike.differsInSoul] at hunchanged
    have hpreview := previewAgent_of_existingRow hagent hconfig hexisting
    rw [foreseen_existing_iff hname hexisting]
    by_cases hdiffers : DiffersInConfig json ws row agent
    · rw [hpreview.1 hdiffers, Option.some.injEq, iff_true_left hdiffers]
      constructor
      · intro haction
        by_contra hcontra
        rw [hunchanged.mpr hcontra] at haction
        cases haction
      · intro hstanding
        rcases hcases with ⟨-, -, -, haction, -⟩ | ⟨-, -, haction, -⟩ | ⟨hnone, -, -⟩
        · exact absurd hstanding (hunchanged.mp haction)
        · exact haction.symm
        · rw [hrow'] at hnone
          cases hnone
    · rw [hpreview.2 hdiffers, Option.some.injEq, eq_comm, hunchanged, iff_false_left hdiffers]

theorem previewAgents_cons_eq_some {action : Action} {actions : List Action} :
    previewAgents json ws agents (agent :: list) = some (action :: actions) ↔
      previewAgent json ws agents agent = some action ∧
        previewAgents json ws agents list = some actions := by
  rw [previewAgents]
  cases previewAgent json ws agents agent with
  | none => simp
  | some first => simp [and_comm]

/-- The preview takes all the entries for what the synchronisation will report exactly when each
one is foreseen after those before it. -/
theorem previewAgents_eq_iff {reports₀ : List Report}
    (hfront : syncAgents json ws now agents front = some (reports₀, mid))
    (h : syncAgents json ws now mid list = some (reports, agents')) :
    previewAgents json ws agents list = some (reports.map Report.action) ↔
      Throughout (fun before => Foreseen json ws agents (front ++ before)) list := by
  induction list generalizing front mid reports reports₀ with
  | nil =>
    obtain ⟨rfl, -⟩ := Prod.mk.inj (Option.some.inj h)
    exact iff_of_true rfl throughout_nil
  | cons agent list ih =>
    obtain ⟨report, next, reports', hagent, hrest, rfl⟩ := syncAgents_cons_eq_some.mp h
    have hlonger : syncAgents json ws now agents (front ++ [agent]) =
        some (reports₀ ++ [report], next) := by
      refine syncAgents_append.mpr ⟨reports₀, mid, [report], hfront, ?_, rfl⟩
      exact syncAgents_cons_eq_some.mpr ⟨report, next, [], hagent, rfl, rfl⟩
    rw [List.map_cons, previewAgents_cons_eq_some, previewAgent_eq_iff hfront hagent,
      ih hlonger hrest, throughout_cons, List.append_nil]
    simp only [List.append_assoc, List.singleton_append]

/-! ### The preview and the synchronisation -/

/-- The lists of the preview have the names of the entries that are created and of those that are
updated. -/
theorem Agrees.lists (h : Agrees json disk ws now file agents) :
    ∃ list reports agents' diff, listedAgents disk file = some list ∧
      syncAgentsFromConfig json disk ws now file agents = some (reports, agents') ∧
      previewSyncDiff json disk ws file agents = some diff ∧
      diff.newAgents = listed .created list (reports.map Report.action) ∧
      diff.updatedAgents = listed .updated list (reports.map Report.action) := by
  obtain ⟨list, reports, agents', hlist, hsync, hpreview⟩ := h
  unfold listedAgents at hlist
  cases hparsed : file.bind disk.parse with
  | none =>
    rw [hparsed] at hlist
    obtain rfl := Option.some.inj hlist
    refine ⟨[], reports, agents', ⟨0, 0, [], [], []⟩, ?_, hsync, ?_, rfl, rfl⟩
    · rw [listedAgents, hparsed]
    · rw [previewSyncDiff, hparsed]
  | some parsed =>
    rw [hparsed] at hlist
    refine ⟨list, reports, agents',
      { inConfig := list.length
        inMC := agents.length
        newAgents := listed .created list (reports.map Report.action)
        updatedAgents := listed .updated list (reports.map Report.action)
        onlyInMC := (agents.map AgentRow.name).filter fun name =>
          some (.string name) ∉ list.map agentName }, ?_, hsync, ?_, rfl, rfl⟩
    · rw [listedAgents, hparsed]
      exact hlist
    · simp only [previewSyncDiff, hparsed, hlist, Option.bind_some, hpreview, Option.map_some]

/-- The preview agrees with the synchronisation that comes next exactly when every entry can be
bound and is foreseen after those before it. -/
theorem preview_agrees_iff : Agrees json disk ws now file agents ↔
    ∃ list, listedAgents disk file = some list ∧ (∀ agent ∈ list, Bindable json ws agent) ∧
      Throughout (Foreseen json ws agents) list := by
  have hnil : syncAgents json ws now agents [] = some ([], agents) := rfl
  unfold Agrees
  simp only [syncAgentsFromConfig_eq]
  constructor
  · rintro ⟨list, reports, agents', hlist, hsync, hpreview⟩
    rw [hlist, Option.bind_some] at hsync
    exact ⟨list, hlist, syncAgents_isSome.mp (by rw [hsync]; rfl),
      (previewAgents_eq_iff hnil hsync).mp hpreview⟩
  · rintro ⟨list, hlist, hbindable, hforeseen⟩
    obtain ⟨⟨reports, agents'⟩, hsync⟩ : ∃ result, syncAgents json ws now agents list =
        some result := Option.isSome_iff_exists.mp (syncAgents_isSome.mpr hbindable)
    exact ⟨list, reports, agents', hlist, by rw [hlist]; exact hsync,
      (previewAgents_eq_iff hnil hsync).mpr hforeseen⟩

/-- A table with a row that a synchronisation has made for an entry without a soul. -/
def scoutRow : AgentRow Json :=
  ⟨1, "Scout", "agent", none, some (.object (agentConfig (soulOnly "Be careful.") scout)), 1, 5⟩

theorem not_agrees_of_ne (hlist : listedAgents disk file = some list)
    (hsync : syncAgentsFromConfig json disk ws now file agents = some (reports, agents'))
    (hne : previewAgents json ws agents list ≠ some (reports.map Report.action)) :
    ¬ Agrees json disk ws now file agents := by
  rintro ⟨list', reports', last, hlist', hsync', hpreview⟩
  obtain rfl : list = list' := Option.some.inj (hlist.symm.trans hlist')
  obtain ⟨rfl, -⟩ := Prod.mk.inj (Option.some.inj (hsync.symm.trans hsync'))
  exact hne hpreview

/-- The preview does not see a soul that is new, and it lists a name that two entries have as new
twice. -/
theorem snapshot_preview_disagrees :
    (¬ Agrees Format.plain Format.plain (soulOnly "Be careful.") 10 (some (fileListing [scout]))
        [scoutRow] ∧
      ¬ Agrees Format.plain Format.plain (soulOnly "Be careful.") 10
        (some (fileListing [scout, secondScout])) []) ∧
    (previewSyncDiff Format.plain Format.plain (soulOnly "Be careful.")
        (some (fileListing [scout])) [scoutRow]).map SyncDiff.updatedAgents = some [] ∧
    (previewSyncDiff Format.plain Format.plain (soulOnly "Be careful.")
        (some (fileListing [scout, secondScout])) []).map SyncDiff.newAgents =
      some [some (.string "Scout"), some (.string "Scout")] := by
  refine ⟨⟨?_, ?_⟩, by decide +kernel, by decide +kernel⟩
  · exact not_agrees_of_ne (listedAgents_fileListing [scout] (by decide +kernel)) rfl
      (by decide +kernel)
  · exact not_agrees_of_ne (listedAgents_fileListing [scout, secondScout] (by decide +kernel)) rfl
      (by decide +kernel)

end MissionControl.Gateway.SyncPreview
