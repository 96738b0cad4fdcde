import MissionControl.Gateway.AgentSync

/-!
Whether the two places that a save writes to agree after it. The row gets the new values in the
place of the old ones, the file has them merged into the old ones, and a synchronisation reads the
file back with what the workspace files add.
-/

set_option autoImplicit false
set_option relaxedAutoImplicit false

namespace MissionControl.Gateway.StoresAgree

open MissionControl.Foundations.JsonValues
open MissionControl.Foundations.Schema (Json lookup)
open MissionControl.Gateway.AgentFile
open MissionControl.Gateway.AgentSave
open MissionControl.Gateway.AgentSync
open MissionControl.Gateway.DeepMerge

/-- The entry of an agent after a save of the given properties. -/
def savedEntry (id : String) (entry gatewayConfig : List (String × Json)) : Json :=
  .object (deepMerge entry (writeBackPayload (.string id) (.object gatewayConfig)).object)

/-! ### Two configurations -/

section Configurations

variable {value value' : String → Option Json} {source : List (String × Json)}

theorem configKeys_nodup : configKeys.Nodup := by decide

theorem nodup_select {keys : List String} (h : keys.Nodup) (value : String → Option Json) :
    (names (select keys value)).Nodup := by
  rw [names_select]
  exact h.filter _

theorem arrayIndex_configKeys : ∀ key ∈ configKeys, arrayIndex key = none := by
  decide +kernel

theorem arrayIndex_writeBackKeys : ∀ key ∈ writeBackKeys, arrayIndex key = none := by
  decide +kernel

/-- A copy of a configuration has the properties in the same order. -/
theorem spread_nil_select (value : String → Option Json) :
    spread [] (select configKeys value) = select configKeys value := by
  have hnodup := nodup_select configKeys_nodup value
  have hindex : ∀ key ∈ names (select configKeys value), arrayIndex key = none := by
    intro key hkey
    rw [names_select] at hkey
    exact arrayIndex_configKeys key (List.mem_of_mem_filter hkey)
  have hnames : names (spread [] (select configKeys value)) = names (select configKeys value) := by
    simp [names_spread hnodup hindex]
  apply fields_ext hnames (hnames ▸ hnodup)
  intro key
  simp [lookup_spread hnodup]

/-- A shallow update of a configuration is another configuration, with the same values elsewhere,
exactly when it adds no property and the other one has the updated values. -/
theorem spread_select_iff (hnodup : (names source).Nodup) (hkeys : names source ⊆ writeBackKeys)
    (hsame : ∀ key, key ∉ names source → value key = value' key)
    (hlast : (value "isDefault").isSome) :
    spread (select configKeys value) source = select configKeys value' ↔
      ∀ key v, lookup source key = some v → (value key).isSome ∧ value' key = some v := by
  have hindex : ∀ key ∈ names source, arrayIndex key = none :=
    fun key hkey => arrayIndex_writeBackKeys key (hkeys hkey)
  have hwritten : ∀ key ∈ writeBackKeys, key ∈ configKeys := by decide
  constructor
  · intro hequal key v hv
    have hkey := mem_names_of_lookup hv
    have hvalue' : value' key = some v := by
      have hlookup : lookup (spread (select configKeys value) source) key =
          (lookup source key).or (lookup (select configKeys value) key) := lookup_spread hnodup key
      rw [hequal, hv, lookup_select, if_pos (hwritten key (hkeys hkey))] at hlookup
      exact hlookup
    refine ⟨?_, hvalue'⟩
    by_contra hnone
    -- A property that is added comes after `isDefault`, which is the last of a configuration.
    have hnames := congrArg names hequal
    rw [names_spread hnodup hindex] at hnames
    have hadded : key ∈ (names source).filter fun key => key ∉ names (select configKeys value) := by
      simp only [List.mem_filter, names_select, decide_eq_true_eq]
      exact ⟨hkey, fun hmem => hnone hmem.2⟩
    have hdefault : "isDefault" ∉ names source := fun hmem => absurd (hkeys hmem) (by decide)
    have hend : (names (select configKeys value')).getLast? = some "isDefault" := by
      have hsplit : configKeys = configKeys.dropLast ++ ["isDefault"] := by decide
      rw [names_select, hsplit, List.filter_append, List.filter_cons_of_pos]
      · simp
      · rw [← hsame "isDefault" hdefault]
        exact hlast
    rw [← hnames, List.getLast?_append_of_ne_nil _ (List.ne_nil_of_mem hadded)] at hend
    exact hdefault (List.mem_of_mem_filter (List.mem_of_getLast? hend))
  · intro hvalues
    have hsome : ∀ key, (value key).isSome = (value' key).isSome := by
      intro key
      by_cases hkey : key ∈ names source
      · obtain ⟨v, hv⟩ := exists_lookup hkey
        obtain ⟨hold, hnew⟩ := hvalues key v hv
        simp [hold, hnew]
      · rw [hsame key hkey]
    have hnames : names (spread (select configKeys value) source) =
        names (select configKeys value') := by
      have hnone : (names source).filter (fun key => key ∉ names (select configKeys value)) = [] := by
        rw [List.filter_eq_nil_iff]
        intro key hkey
        obtain ⟨v, hv⟩ := exists_lookup hkey
        simp [names_select, hwritten key (hkeys hkey), (hvalues key v hv).1]
      rw [names_spread hnodup hindex, hnone, List.append_nil, names_select, names_select]
      simp only [hsome]
    apply fields_ext hnames (hnames ▸ nodup_select configKeys_nodup value')
    intro key
    rw [lookup_spread hnodup, lookup_select, lookup_select]
    cases hlookup : lookup source key with
    | none =>
      rw [Option.none_or, hsame key (lookup_eq_none_iff.mp hlookup)]
    | some v =>
      have hkey := hwritten key (hkeys (mem_names_of_lookup hlookup))
      rw [Option.some_or, if_pos hkey, (hvalues key v hlookup).2]

end Configurations

/-! ### The entry -/

section Entry

variable {ws : Workspaces} {id : String} {entry gatewayConfig : List (String × Json)}

theorem strictEquals_string (id : String) : strictEquals (.string id) (.string id) = true := by
  simp [strictEquals]

theorem lookup_payload {key : String} (hid : key ≠ "id") :
    lookup (writeBackPayload (.string id) (.object gatewayConfig)).object key =
      if key ∈ writeBackKeys then (lookup gatewayConfig key).filter truthy else none := by
  have hne : ¬ "id" = key := fun hcontra => hid hcontra.symm
  rw [AgentConfig.object, lookup_cons, if_neg hne, writeBackPayload]
  exact lookup_select _ _ key

theorem nodup_payload (hgateway : distinct (.object gatewayConfig) = true) :
    (names (writeBackPayload (.string id) (.object gatewayConfig)).object).Nodup :=
  nodup_of_distinct (distinct_writeBackPayload rfl hgateway)

/-- A save leaves the properties of the entry alone that it does not name. -/
theorem lookup_savedEntry (hgateway : distinct (.object gatewayConfig) = true)
    (hid : lookup entry "id" = some (.string id)) {key : String}
    (hkey : key ∉ names gatewayConfig) :
    getField (savedEntry id entry gatewayConfig) key = lookup entry key := by
  have hnodup : (names (writeBackPayload (.string id) (.object gatewayConfig)).object).Nodup :=
    nodup_payload hgateway
  rw [savedEntry, getField]
  by_cases hisId : key = "id"
  · subst hisId
    have hpayload : lookup (writeBackPayload (.string id) (.object gatewayConfig)).object "id" =
        some (.string id) := by
      simp [AgentConfig.object, writeBackPayload, lookup_cons]
    rw [lookup_deepMerge hnodup hid, hpayload, hid]
    rfl
  · apply lookup_deepMerge_of_none hnodup
    rw [lookup_payload hisId, lookup_eq_none_iff.mpr hkey]
    simp

theorem configValue_congr {agent agent' : Json} {key : String}
    (hid : getField agent "id" = getField agent' "id")
    (hdefault : getField agent "default" = getField agent' "default")
    (hworkspace : getField agent "workspace" = getField agent' "workspace")
    (hkey : getField agent key = getField agent' key) :
    configValue ws agent key = configValue ws agent' key := by
  unfold configValue
  split
  · exact hid
  · split
    · rw [isDefault, isDefault, hdefault]
    · split
      · rename_i hidentity
        rw [hworkspace, ← hidentity, hkey]
      · split
        · rename_i htools
          rw [hworkspace, ← htools, hkey]
        · exact hkey

/-- A save leaves the configuration of the entry alone in what it does not name. -/
theorem configValue_savedEntry (hgateway : distinct (.object gatewayConfig) = true)
    (hkeys : names gatewayConfig ⊆ writeBackKeys) (hid : lookup entry "id" = some (.string id))
    {key : String} (hkey : key ∉ names gatewayConfig) :
    configValue ws (savedEntry id entry gatewayConfig) key =
      configValue ws (.object entry) key := by
  have hother : ∀ other ∉ writeBackKeys,
      getField (savedEntry id entry gatewayConfig) other = getField (.object entry) other :=
    fun other hmem => lookup_savedEntry hgateway hid fun hcontra => hmem (hkeys hcontra)
  exact configValue_congr (hother "id" (by decide)) (hother "default" (by decide))
    (hother "workspace" (by decide)) (lookup_savedEntry hgateway hid hkey)

end Entry

/-! ### The file -/

section File

variable {agentConfig : AgentConfig} {doc doc' : Json} {list list' : List Json}

/-- The list of agents after a write to a file that has one. -/
theorem agentsOf_writeAgent (hlist : agentsOf doc = some list) (hne : list ≠ [])
    (hwrite : writeAgent agentConfig doc = some doc') :
    ∃ list', upsertAgent agentConfig list = some list' ∧ agentsOf doc' = some list' := by
  have hfound : ∃ fields agents, doc = .object fields ∧
      lookup fields "agents" = some (.object agents) ∧
      lookup agents "list" = some (.array list) := by
    unfold agentsOf at hlist
    split at hlist
    · exact absurd (Option.some.inj hlist).symm hne
    · rename_i items hitems
      obtain rfl := Option.some.inj hlist
      obtain ⟨agents, hagents, hitems⟩ :=
        Option.bind_eq_some_iff.mp (Option.filter_eq_some_iff.mp hitems).1
      cases doc with
      | object fields =>
        cases agents with
        | object agents => exact ⟨fields, agents, rfl, hagents, hitems⟩
        | _ => cases hitems
      | _ => cases hagents
    · cases hlist
  obtain ⟨fields, agents, rfl, hagents, hitems⟩ := hfound
  have horAgents : orDefault (lookup fields "agents") (.object []) = .object agents := by
    rw [hagents]
    rfl
  have horItems : orDefault (lookup agents "list") (.array []) = .array list := by
    rw [hitems]
    rfl
  simp only [writeAgent, horAgents, horItems] at hwrite
  obtain ⟨list', hupsert, rfl⟩ := Option.map_eq_some_iff.mp hwrite
  refine ⟨list', hupsert, ?_⟩
  simp [agentsOf, getField, Option.filter, truthy]

end File

/-! ### The row -/

section Rows

variable {Text : Type} {json disk : Format Text} {env : Environment} {file file' : Option Text}
  {agents agents' : List (AgentRow Text)} {request : Request Text} {row : AgentRow Text}

theorem saveRow_saved {written : Bool} {writeBack : AgentConfig} {updated : Option (AgentRow Text)}
    (h : saveRow disk env file agents updated written writeBack = (.saved, file', agents')) :
    ∃ row, updated = some row ∧ file' = file ∧ agents' = setRow row agents := by
  unfold saveRow at h
  split at h
  · rename_i row
    obtain ⟨-, hrest⟩ := Prod.mk.inj h
    obtain ⟨hfile, hagents⟩ := Prod.mk.inj hrest
    exact ⟨row, rfl, hfile.symm, hagents.symm⟩
  · split at h
    · split at h <;> cases h
    · cases h

/-- What a save that succeeds has done. -/
theorem put_saved {body existingConfig gatewayConfig : Json} {agent : AgentRow Text}
    (h : put json disk env file agents request = (.saved, file', agents'))
    (hbody : json.parse request.body = some body)
    (hagent : agents.find? (request.target.selects request.workspaceId) = some agent)
    (hconfig : agent.config.elim (some (.object [])) json.parse = some existingConfig)
    (hgateway : getField body "gateway_config" = some gatewayConfig)
    (hwrite : shouldWriteToGateway (some gatewayConfig) (getField body "write_to_gateway") = true) :
    ∃ row text, updateRow json env (getField body "role") (some gatewayConfig)
        (mergedConfig existingConfig (some gatewayConfig)) request.now agent = some row ∧
      writeFile disk env.configPath env.writes file
        (writeBackPayload (openclawId env existingConfig agent.name) gatewayConfig) = some text ∧
      file' = some text ∧ agents' = setRow row agents := by
  unfold put at h
  rw [hbody] at h
  split at h
  · cases h
  · cases h
  · rename_i body' _ hbody'
    obtain rfl := Option.some.inj hbody'
    rw [hagent] at h
    dsimp only at h
    rw [hconfig] at h
    split at h
    · cases h
    · cases h
    · rename_i existingConfig' _ hconfig'
      obtain rfl := Option.some.inj hconfig'
      simp only [hgateway, hwrite, if_true, Option.getD_some] at h
      split at h
      · cases h
      · rename_i text htext
        obtain ⟨row, hrow, rfl, rfl⟩ := saveRow_saved h
        exact ⟨row, text, hrow, htext, rfl, rfl⟩

theorem rowNamed_of_mem (hnodup : (agents.map AgentRow.name).Nodup) (hmem : row ∈ agents) :
    rowNamed row.name agents = some row := by
  induction agents with
  | nil => cases hmem
  | cons first agents ih =>
    obtain ⟨hnot, hnodup⟩ := List.nodup_cons.mp hnodup
    rw [rowNamed_cons]
    rcases List.mem_cons.mp hmem with rfl | hmem
    · rw [if_pos rfl]
    · have hne : first.name ≠ row.name := fun hcontra => hnot (hcontra ▸ List.mem_map_of_mem hmem)
      rw [if_neg hne]
      exact ih hnodup hmem

/-- The row that was saved is found under its name. -/
theorem rowNamed_setRow {saved : AgentRow Text} (hnodup : (agents.map AgentRow.name).Nodup)
    (hmem : row ∈ agents) (hid : saved.id = row.id) (hworkspace : saved.workspaceId = row.workspaceId)
    (hname : saved.name = row.name) : rowNamed row.name (setRow saved agents) = some saved := by
  induction agents with
  | nil => cases hmem
  | cons first agents ih =>
    obtain ⟨hnot, hnodup⟩ := List.nodup_cons.mp hnodup
    have hcons : setRow saved (first :: agents) =
        (if first.id = saved.id ∧ first.workspaceId = saved.workspaceId then saved else first) ::
          setRow saved agents := rfl
    rw [hcons, rowNamed_cons]
    by_cases hsame : first.id = saved.id ∧ first.workspaceId = saved.workspaceId
    · rw [if_pos hsame, if_pos hname]
    · rw [if_neg hsame]
      rcases List.mem_cons.mp hmem with rfl | hmem
      · exact absurd ⟨hid.symm, hworkspace.symm⟩ hsame
      · have hne : first.name ≠ row.name := fun hcontra => hnot (hcontra ▸ List.mem_map_of_mem hmem)
        rw [if_neg hne]
        exact ih hnodup hmem

theorem updateRow_of_no_role {gatewayConfig newConfig : Json} {saved : AgentRow Text} {now : Nat}
    (hgateway : truthy gatewayConfig = true)
    (h : updateRow json env none (some gatewayConfig) newConfig now row = some saved) :
    ∃ text, json.print newConfig = some text ∧
      saved = { row with config := some text, updatedAt := now } := by
  simp only [updateRow, Option.map_none, Option.any_some, hgateway, if_true] at h
  cases hprint : json.print newConfig with
  | none => simp [hprint] at h
  | some text =>
    simp only [hprint, Option.map_some] at h
    split at h
    · exact ⟨text, rfl, (Option.some.inj h).symm⟩
    · cases h

end Rows

/-! ### A save between two synchronisations -/

section Saves

variable {Text : Type} [DecidableEq Text]

/-- An entry with an id and a name of its own, whose row is as a synchronisation has left it, and a
save of properties that are written back, which succeeds. -/
structure Save (json disk : Format Text) (ws : Workspaces) (env : Environment)
    (file file' : Option Text) (agents agents' : List (AgentRow Text)) (request : Request Text)
    (id name : String) (entry gatewayConfig : List (String × Json)) (row : AgentRow Text) :
    Prop where
  listed : ∃ raw doc front back, file = some raw ∧ disk.parse raw = some doc ∧
    agentsOf doc = some (front ++ .object entry :: back) ∧
    (∀ fields, .object fields ∈ front ++ back → ¬ HasId (.string id) fields) ∧
    ∀ agent ∈ front ++ back, boundName ws agent ≠ some name
  synced : ∃ now before reports, syncAgentsFromConfig json disk ws now file before =
    some (reports, agents)
  unique : (agents.map AgentRow.name).Nodup
  hasId : lookup entry "id" = some (.string id) ∧ id ≠ ""
  hasName : boundName ws (.object entry) = some name
  found : agents.find? (request.target.selects request.workspaceId) = some row ∧ row.name = name
  body : ∃ body, json.parse request.body = some body ∧ getField body "role" = none ∧
    getField body "gateway_config" = some (.object gatewayConfig) ∧
    shouldWriteToGateway (some (.object gatewayConfig)) (getField body "write_to_gateway") = true
  keys : names gatewayConfig ⊆ writeBackKeys
  saved : put json disk env file agents request = (.saved, file', agents')

/-- The two places hold the same configuration: the entry keeps its name and its role, its workspace
has no empty `soul.md`, and every property that is saved was there before and is read back as it
was saved. -/
structure Agrees (ws : Workspaces) (id name : String) (entry gatewayConfig : List (String × Json))
    (row : AgentRow Text) : Prop where
  name : boundName ws (savedEntry id entry gatewayConfig) = some name
  role : agentRole (savedEntry id entry gatewayConfig) = .string row.role
  soul : agentSoul ws (.object entry) ≠ some ""
  values : ∀ key value, lookup gatewayConfig key = some value →
    (configValue ws (.object entry) key).isSome ∧
      configValue ws (savedEntry id entry gatewayConfig) key = some value

variable {json disk : Format Text} {ws : Workspaces} {env : Environment} {file file' : Option Text}
  {agents agents' : List (AgentRow Text)} {request : Request Text} {id name : String}
  {entry gatewayConfig : List (String × Json)} {row : AgentRow Text}

/-- The text of a configuration is that of the updated one exactly when nothing is added and the
updated values are read back. -/
theorem mergedConfig_eq_iff (hgateway : distinct (.object gatewayConfig) = true)
    (hkeys : names gatewayConfig ⊆ writeBackKeys)
    (hid : lookup entry "id" = some (.string id)) :
    mergedConfig (.object (agentConfig ws (.object entry))) (some (.object gatewayConfig)) =
        .object (agentConfig ws (savedEntry id entry gatewayConfig)) ↔
      ∀ key value, lookup gatewayConfig key = some value →
        (configValue ws (.object entry) key).isSome ∧
          configValue ws (savedEntry id entry gatewayConfig) key = some value := by
  have hmerged : mergedConfig (.object (agentConfig ws (.object entry)))
      (some (.object gatewayConfig)) =
      .object (spread (select configKeys (configValue ws (.object entry))) gatewayConfig) := by
    simp only [mergedConfig, isObject, if_true, spreadFields, agentConfig, spread_nil_select]
  have hsame : ∀ key, key ∉ names gatewayConfig → configValue ws (.object entry) key =
      configValue ws (savedEntry id entry gatewayConfig) key :=
    fun key hkey => (configValue_savedEntry hgateway hkeys hid hkey).symm
  rw [hmerged, Json.object.injEq]
  exact spread_select_iff (nodup_of_distinct hgateway) hkeys hsame rfl

/-- The row after the save does not differ from the entry exactly when both places agree. -/
theorem unchanged_iff_agrees {saved : AgentRow Text} {text : Text}
    (hsynced : Synced json ws (.object entry) row)
    (hgateway : distinct (.object gatewayConfig) = true)
    (hkeys : names gatewayConfig ⊆ writeBackKeys)
    (hid : lookup entry "id" = some (.string id))
    (htext : json.print (mergedConfig (.object (agentConfig ws (.object entry)))
      (some (.object gatewayConfig))) = some text)
    (hconfig : saved.config = some text) (hrole : saved.role = row.role)
    (hsoul : saved.soulContent = row.soulContent) :
    Unchanged json ws (some (.string id)) name saved (savedEntry id entry gatewayConfig) ↔
      Agrees ws id name entry gatewayConfig row := by
  have hother : ∀ other ∉ writeBackKeys,
      getField (savedEntry id entry gatewayConfig) other = getField (.object entry) other :=
    fun other hmem => lookup_savedEntry hgateway hid fun hcontra => hmem (hkeys hcontra)
  have hsameSoul : agentSoul ws (savedEntry id entry gatewayConfig) = agentSoul ws (.object entry) := by
    rw [agentSoul, agentSoul, hother "workspace" (by decide)]
  have hsameId : getField (savedEntry id entry gatewayConfig) "id" = some (.string id) :=
    (hother "id" (by decide)).trans hid
  constructor
  · rintro ⟨-, hname, config, hprint, hdiffers⟩
    simp only [differs, decide_eq_false_iff_not, not_or, not_not, ne_eq, not_and] at hdiffers
    obtain ⟨hsame, hsameRole, hkept⟩ := hdiffers
    refine ⟨hname, ?_, ?_, ?_⟩
    · rw [← hsameRole, hrole]
    · intro hempty
      rw [hsameSoul, hempty] at hkept
      have hfilter := hkept rfl
      exact absurd (Option.filter_eq_some_iff.mp hfilter.symm).2 (by decide)
    · rw [← mergedConfig_eq_iff hgateway hkeys hid]
      rw [hconfig, Option.some_or] at hsame
      exact json.print_injective htext (Option.some.inj hsame ▸ hprint)
  · rintro ⟨hname, hrole', hempty, hvalues⟩
    rw [← mergedConfig_eq_iff hgateway hkeys hid] at hvalues
    refine ⟨hsameId, hname, text, hvalues ▸ htext, ?_⟩
    simp only [differs, decide_eq_false_iff_not, not_or, not_not, ne_eq, not_and]
    refine ⟨by rw [hconfig, Option.some_or], by rw [hrole', hrole], ?_⟩
    rw [hsameSoul, hsoul]
    intro hsome
    obtain ⟨soul, hsoulText⟩ := Option.isSome_iff_exists.mp hsome
    rw [hsoulText, hsynced.soul soul hsoulText, eq_comm]
    apply Option.filter_eq_some_iff.mpr
    refine ⟨rfl, decide_eq_true ?_⟩
    rintro rfl
    exact hempty hsoulText

omit [DecidableEq Text] in
theorem ne_null_of_bindable {agent : Json} (h : Bindable json ws agent) : agent ≠ .null := by
  rintro rfl
  have hname := h.1
  simp [boundName] at hname

/-- The id that the save writes back is that of the entry. -/
theorem openclawId_agentConfig (hid : lookup entry "id" = some (.string id)) (hne : id ≠ "") :
    openclawId env (.object (agentConfig ws (.object entry))) name = .string id := by
  have hlookup : getField (.object (agentConfig ws (.object entry))) "openclawId" =
      some (.string id) := by
    rw [getField, agentConfig, lookup_select, if_pos (by decide)]
    exact hid
  simp [openclawId, hlookup, Option.filter, truthy, hne]

/-- What a synchronisation and a save have left. -/
theorem Save.left (h : Save json disk ws env file file' agents agents' request id name entry
    gatewayConfig row) :
    ∃ front back saved text,
      (∀ agent ∈ front ++ back, Bindable json ws agent ∧ boundName ws agent ≠ some name) ∧
      (file'.bind disk.parse).bind agentsOf =
        some (front ++ savedEntry id entry gatewayConfig :: back) ∧
      rowNamed name agents' = some saved ∧ Synced json ws (.object entry) row ∧
      distinct (.object gatewayConfig) = true ∧
      json.print (mergedConfig (.object (agentConfig ws (.object entry)))
        (some (.object gatewayConfig))) = some text ∧
      saved = { row with config := some text, updatedAt := request.now } := by
  obtain ⟨raw, doc, front, back, hfile, hdoc, hlist, honly, hnames⟩ := h.listed
  obtain ⟨now, before, reports, hsync⟩ := h.synced
  obtain ⟨body, hbody, hrole, hgateway, hwrite⟩ := h.body
  obtain ⟨hid, hne⟩ := h.hasId
  obtain ⟨hfound, hrowName⟩ := h.found
  -- What the synchronisation has left.
  have hsync : syncAgents json ws now before (front ++ .object entry :: back) =
      some (reports, agents) := by
    simpa only [syncAgentsFromConfig, hfile, Option.bind_some, hdoc, hlist] using hsync
  have hbindable : ∀ agent ∈ front ++ .object entry :: back, Bindable json ws agent :=
    syncAgents_isSome.mp (Option.isSome_iff_exists.mpr ⟨_, hsync⟩)
  obtain ⟨reports₁, mid, reports₂, hsync₁, hsync₂, -⟩ := syncAgents_append.mp hsync
  obtain ⟨report, last, reports₃, hentry, hsync₃, -⟩ := syncAgents_cons_eq_some.mp hsync₂
  obtain ⟨row', hrow', hsynced⟩ := synced_syncAgent hentry h.hasName
  have hmem : row ∈ agents := List.mem_of_find?_eq_some hfound
  have hrow : rowNamed name agents = some row := hrowName ▸ rowNamed_of_mem h.unique hmem
  have hkept := rowNamed_syncAgents_ne hsync₃ fun agent hagent =>
    hnames agent (List.mem_append_right front hagent)
  obtain rfl : row = row' := Option.some.inj (hrow.symm.trans (hkept.trans hrow'))
  -- What the save has written.
  obtain ⟨stored, hstored, hprinted⟩ := hsynced.config
  have hconfig : row.config.elim (some (.object [])) json.parse =
      some (.object (agentConfig ws (.object entry))) := by
    rw [hstored]
    exact json.parse_print _ _ hprinted
  obtain ⟨saved, written, hupdate, hwritten, rfl, rfl⟩ :=
    put_saved h.saved hbody hfound hconfig hgateway hwrite
  have hdistinct : distinct (.object gatewayConfig) = true :=
    distinct_getField (json.parse_distinct _ _ hbody) hgateway
  rw [hrole] at hupdate
  obtain ⟨text, htext, rfl⟩ := updateRow_of_no_role rfl hupdate
  rw [openclawId_agentConfig hid hne] at hwritten
  obtain ⟨raw', doc₁, doc', hraw', hdoc₁, hwriteAgent, hdoc'⟩ := writeFile_eq_some hwritten
  obtain rfl : raw = raw' := Option.some.inj (hfile.symm.trans hraw')
  obtain rfl : doc = doc₁ := Option.some.inj (hdoc.symm.trans hdoc₁)
  obtain ⟨list', hupsert, hlist'⟩ := agentsOf_writeAgent hlist (by simp) hwriteAgent
  have hat : findAgent (.string id) (front ++ .object entry :: back) = .at front entry back := by
    apply findAgent_first
    · intro agent hagent
      exact ne_null_of_bindable (hbindable agent (List.mem_append_left _ hagent))
    · intro fields hfields
      exact honly fields (List.mem_append_left back hfields)
    · exact ⟨.string id, hid, strictEquals_string id⟩
  have hlistSaved : list' = front ++ savedEntry id entry gatewayConfig :: back := by
    have hpayload : (writeBackPayload (.string id) (.object gatewayConfig)).id = .string id := rfl
    simp only [upsertAgent, hpayload, hat, Option.some.injEq] at hupsert
    exact hupsert.symm
  refine ⟨front, back, _, text, ?_, ?_, ?_, hsynced, hdistinct, htext, rfl⟩
  · intro agent hagent
    refine ⟨hbindable agent ?_, hnames agent hagent⟩
    rcases List.mem_append.mp hagent with hagent | hagent
    · exact List.mem_append_left _ hagent
    · exact List.mem_append_right _ (List.mem_cons_of_mem _ hagent)
  · rw [Option.bind_some, hdoc', Option.bind_some, hlist', hlistSaved]
  · rw [← hrowName]
    exact rowNamed_setRow h.unique hmem rfl rfl rfl

end Saves

/-! ### Two saves -/

/-- No workspace has files. -/
def noFiles : Workspaces := ⟨fun _ _ => none, toString⟩

def scoutEntry (model : List (String × Json)) : List (String × Json) :=
  [("id", .string "scout"), ("model", .object model)]

def scoutFile (model : List (String × Json)) : Json :=
  .object [("agents", .object [("list", .array [.object (scoutEntry model)])])]

def scoutRow (updatedAt : Nat) (model : List (String × Json)) : AgentRow Json :=
  ⟨1, "scout", "agent", none, some (.object [("openclawId", .string "scout"),
    ("model", .object model), ("isDefault", .bool false)]), 1, updatedAt⟩

def modelRequest (model : List (String × Json)) : Request Json where
  target := .numbered 1
  workspaceId := 1
  body := .object [("gateway_config", .object [("model", .object model)])]
  now := 200

def haiku : List (String × Json) := [("primary", .string "haiku")]

def opus : List (String × Json) := [("primary", .string "opus")]

def withFallbacks (model : List (String × Json)) : List (String × Json) :=
  model ++ [("fallbacks", .array [.string "sonnet"])]

/-- A new value for the only property of the model. -/
theorem scout_save : Save .plain .plain noFiles .plain (some (scoutFile haiku))
    (some (scoutFile opus)) [scoutRow 100 haiku] [scoutRow 200 opus] (modelRequest opus) "scout"
    "scout" (scoutEntry haiku) [("model", .object opus)] (scoutRow 100 haiku) where
  listed := ⟨scoutFile haiku, scoutFile haiku, [], [], rfl, by decide +kernel, by decide +kernel,
    by simp, by simp⟩
  synced := ⟨100, [], [⟨some (.string "scout"), "scout", .created⟩], by decide +kernel⟩
  unique := by decide
  hasId := by decide +kernel
  hasName := by decide +kernel
  found := by decide +kernel
  body := ⟨(modelRequest opus).body, by decide +kernel⟩
  keys := by decide
  saved := by decide +kernel

end MissionControl.Gateway.StoresAgree
