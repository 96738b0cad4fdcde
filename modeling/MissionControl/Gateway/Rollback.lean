import MissionControl.Gateway.AgentSave

/-!
What is in `openclaw.json` after a save whose update of the row has failed. The way back is a merge
like the way there: it removes nothing that the update has added, and restores only what the row
has a value for.
-/

set_option autoImplicit false
set_option relaxedAutoImplicit false

namespace MissionControl.Gateway.Rollback

open MissionControl.Foundations.JsonValues
open MissionControl.Foundations.Schema (Json lookup)
open MissionControl.Gateway.AgentFile
open MissionControl.Gateway.AgentSave
open MissionControl.Gateway.DeepMerge

/-- The way back undoes the update: agents that are not in an object are not written, and
otherwise the agent has an entry, in which the second merge undoes the first. -/
def restored (update writeBack : AgentConfig) (doc : Json) : Bool :=
  match doc with
  | .array _ => true
  | .object fields =>
    match lookup fields "agents" with
    | some (.array _) => true
    | some (.object agents) =>
      match lookup agents "list" with
      | some (.array list) =>
        match findAgent update.id list with
        | .at _ entry _ =>
          undone (.object entry) (some (.object update.object)) (some (.object writeBack.object))
        | _ => false
      | _ => false
    | _ => false
  | _ => false

variable {update writeBack : AgentConfig} {list list' list'' : List Json} {doc mid doc' : Json}

/-! ### Two writes -/

theorem orDefault_eq {value : Option Json} {fallback v : Json}
    (h : orDefault value fallback = v) :
    value = some v ∨ (v = fallback ∧ ∀ w, value = some w → truthy w = false) := by
  unfold orDefault at h
  cases hfilter : value.filter truthy with
  | none =>
    rw [hfilter, Option.getD_none] at h
    refine .inr ⟨h.symm, ?_⟩
    rintro w rfl
    simpa [Option.filter] using hfilter
  | some w =>
    rw [hfilter, Option.getD_some] at h
    exact .inl (h ▸ (Option.filter_eq_some_iff.mp hfilter).1)

theorem length_upsertAgent (h : upsertAgent update list = some list') :
    list'.length = list.length ∨ list'.length = list.length + 1 := by
  unfold upsertAgent at h
  split at h
  · cases h
  · obtain rfl := Option.some.inj h
    simp
  · rename_i front fields back hfound
    obtain rfl := Option.some.inj h
    obtain ⟨rfl, -⟩ := findAgent_at hfound
    simp

/-- Two writes of an agent leave the list as it is exactly when it has an entry for the agent in
which the second undoes the first. -/
theorem upsertAgent_twice (hid : update.id = writeBack.id) (hlist : distinctItems list = true)
    (hupdate : distinct (.object update.object) = true)
    (hwriteBack : distinct (.object writeBack.object) = true)
    (hfirst : upsertAgent update list = some list')
    (hsecond : upsertAgent writeBack list' = some list'') :
    alikeItems list'' list =
      match findAgent update.id list with
      | .at _ entry _ =>
        undone (.object entry) (some (.object update.object)) (some (.object writeBack.object))
      | _ => false := by
  cases hfound : findAgent update.id list with
  | failed => simp [upsertAgent, hfound] at hfirst
  | missing =>
    simp only [upsertAgent, hfound, Option.some.injEq] at hfirst
    rw [Bool.eq_false_iff]
    intro halike
    have hlength := alikeItems_length halike
    have hgrown := length_upsertAgent hsecond
    rw [← hfirst, List.length_append, List.length_singleton] at hgrown
    omega
  | «at» front entry back =>
    obtain ⟨rfl, hentry⟩ := findAgent_at hfound
    simp only [upsertAgent, hfound, Option.some.injEq] at hfirst
    have hmerged := hasId_deepMerge (nodup_of_distinct hupdate) hentry
    have hagain := findAgent_replace hfound hmerged
    rw [hfirst, hid] at hagain
    simp only [upsertAgent, hagain, Option.some.injEq] at hsecond
    rw [distinctItems_append, Bool.and_eq_true, distinctItems, Bool.and_eq_true] at hlist
    rw [← hsecond, alikeItems_middle hlist.1 hlist.2.2, Bool.eq_iff_iff,
      undone_iff _ _ _ hlist.2.1 (by rintro v ⟨⟩; exact hupdate) (by rintro v ⟨⟩; exact hwriteBack)]
    rfl

theorem alike_of_falsy {v w : Json} (hv : truthy v = true) (hw : truthy w = false) :
    alike v w = false := by
  rw [Bool.eq_false_iff]
  intro halike
  cases v with
  | array items => cases w <;> simp_all [alike, truthy]
  | object fields => cases w <;> simp_all [alike, truthy]
  | null => cases hv
  | bool b => cases w <;> simp_all [alike, truthy]
  | number n => cases w <;> simp_all [alike, truthy]
  | string s => cases w <;> simp_all [alike, truthy]

/-- A property that is written twice is alike to the one before if the last value is. -/
theorem alike_setField_twice {fields : List (String × Json)} {key : String} {v w : Json}
    (hdistinct : distinct (.object fields) = true) :
    alike (.object (setField (setField fields key v) key w)) (.object fields) = true ↔
      ∃ before, lookup fields key = some before ∧ alike w before = true := by
  apply alike_object_of_ne hdistinct
  · exact nodup_setField (nodup_setField (nodup_of_distinct hdistinct) key v) key w
  · intro other hne
    rw [lookup_setField_ne _ _ hne, lookup_setField_ne _ _ hne]
  · exact lookup_setField_self _ key w

/-- A second write goes on from the list that the first one has made. -/
theorem writeAgent_again {fields agents : List (String × Json)}
    (h : writeAgent writeBack (.object (setField fields "agents"
      (.object (setField agents "list" (.array list'))))) = some doc') :
    ∃ list'', upsertAgent writeBack list' = some list'' ∧
      doc' = .object (setField (setField fields "agents"
        (.object (setField agents "list" (.array list')))) "agents"
        (.object (setField (setField agents "list" (.array list')) "list" (.array list'')))) := by
  have hagents : ∀ value, orDefault (some (.object value)) (.object []) = .object value :=
    fun _ => rfl
  have hlist : ∀ items, orDefault (some (.array items)) (.array []) = .array items := fun _ => rfl
  simp only [writeAgent, lookup_setField_self, hagents, hlist] at h
  obtain ⟨list'', hupsert, rfl⟩ := Option.map_eq_some_iff.mp h
  exact ⟨list'', hupsert, rfl⟩

/-- Two writes leave the file as it is exactly when the second undoes the first. -/
theorem writeAgent_twice (hid : update.id = writeBack.id) (hdoc : distinct doc = true)
    (hupdate : distinct (.object update.object) = true)
    (hwriteBack : distinct (.object writeBack.object) = true)
    (hfirst : writeAgent update doc = some mid) (hsecond : writeAgent writeBack mid = some doc') :
    alike doc' doc = restored update writeBack doc := by
  obtain ⟨rfl, ⟨items, rfl⟩ | ⟨fields, items, rfl, hagents⟩⟩ |
    ⟨fields, agents, list, list', rfl, hagents, hlist, hupsert, rfl⟩ := writeAgent_eq_some hfirst
  · obtain rfl := Option.some.inj hsecond
    exact alike_refl _ hdoc
  · have hunchanged : orDefault (lookup fields "agents") (.object []) = .array items := by
      rw [hagents]
      rfl
    simp only [writeAgent, hunchanged, Option.some.injEq] at hsecond
    rw [← hsecond, alike_refl _ hdoc]
    simp only [restored, hagents]
  · obtain ⟨list'', hupsert', rfl⟩ := writeAgent_again hsecond
    rw [Bool.eq_iff_iff, alike_setField_twice hdoc]
    obtain hagents | ⟨-, hfalsy⟩ := orDefault_eq hagents
    · have hagentsDistinct : distinct (.object agents) = true :=
        distinct_of_lookup (distinctFields_of_distinct hdoc) hagents
      simp only [hagents, Option.some.injEq, exists_eq_left']
      rw [alike_setField_twice hagentsDistinct]
      obtain hlist | ⟨-, hfalsy⟩ := orDefault_eq hlist
      · have hlistDistinct : distinct (.array list) = true :=
          distinct_of_lookup (distinctFields_of_distinct hagentsDistinct) hlist
        have htwice := upsertAgent_twice hid hlistDistinct hupdate hwriteBack hupsert hupsert'
        have hitems : alike (.array list'') (.array list) = alikeItems list'' list := by rw [alike]
        simp only [hlist, Option.some.injEq, exists_eq_left', hitems, htwice, restored, hagents]
      · constructor
        · rintro ⟨before, hbefore, halike⟩
          rw [alike_of_falsy rfl (hfalsy before hbefore)] at halike
          cases halike
        · intro hrestored
          simp only [restored, hagents] at hrestored
          cases hbefore : lookup agents "list" with
          | none => simp [hbefore] at hrestored
          | some before =>
            have hbeforeFalsy := hfalsy before hbefore
            cases before <;> simp_all [truthy]
    · constructor
      · rintro ⟨before, hbefore, halike⟩
        rw [alike_of_falsy rfl (hfalsy before hbefore)] at halike
        cases halike
      · intro hrestored
        simp only [restored] at hrestored
        cases hbefore : lookup fields "agents" with
        | none => simp [hbefore] at hrestored
        | some before =>
          have hbeforeFalsy := hfalsy before hbefore
          cases before <;> simp_all [truthy]

/-! ### The route -/

variable {Text : Type} {json disk : Format Text} {env : Environment} {file : Option Text}
  {agents : List (AgentRow Text)} {request : Request Text}

/-- The request asks for these merges into the file, there and back, and cannot update the row. -/
def Asks (json : Format Text) (env : Environment) (agents : List (AgentRow Text))
    (request : Request Text) (update writeBack : AgentConfig) : Prop :=
  ∃ body agent existingConfig, json.parse request.body = some body ∧ body ≠ .null ∧
    agents.find? (request.target.selects request.workspaceId) = some agent ∧
    agent.config.elim (some (.object [])) json.parse = some existingConfig ∧
    existingConfig ≠ .null ∧
    shouldWriteToGateway (getField body "gateway_config") (getField body "write_to_gateway") = true ∧
    update = writeBackPayload (openclawId env existingConfig agent.name)
      ((getField body "gateway_config").getD .null) ∧
    writeBack = writeBackPayload (openclawId env existingConfig agent.name) existingConfig ∧
    updateRow json env (getField body "role") (getField body "gateway_config")
      (mergedConfig existingConfig (getField body "gateway_config")) request.now agent = none

/-- The file is written for the update, and once more after the update of the row has failed. -/
structure RollsBack (json disk : Format Text) (env : Environment) (file : Option Text)
    (agents : List (AgentRow Text)) (request : Request Text) (update writeBack : AgentConfig)
    (mid final : Text) : Prop where
  asks : Asks json env agents request update writeBack
  writes : writeFile disk env.configPath env.writes file update = some mid
  writesBack : writeFile disk env.configPath env.writesBack (some mid) writeBack = some final

variable {mid final : Text}

theorem put_of_rollsBack (h : RollsBack json disk env file agents request update writeBack mid final) :
    put json disk env file agents request = (.saveFailed, some final, agents) := by
  obtain ⟨⟨body, agent, existingConfig, hbody, hnull, hagent, hconfig, hconfigNull, hwrite, rfl, rfl,
    hrow⟩, hwrites, hwritesBack⟩ := h
  unfold put
  rw [hbody]
  split
  · rename_i hcontra
    cases hcontra
  · rename_i hcontra
    exact absurd (Option.some.inj hcontra) hnull
  · rename_i body' _ hbody'
    obtain rfl := Option.some.inj hbody'
    rw [hagent]
    dsimp only
    rw [hconfig]
    split
    · rename_i hcontra
      cases hcontra
    · rename_i hcontra
      exact absurd (Option.some.inj hcontra) hconfigNull
    · rename_i existingConfig' _ hconfig'
      obtain rfl := Option.some.inj hconfig'
      simp only [hwrite, if_true, hwrites, saveRow, hrow, hwritesBack]

theorem saveRow_saveFailed {row : Option (AgentRow Text)} {written : Bool}
    {writeBack : AgentConfig} {file' : Option Text} {agents' : List (AgentRow Text)}
    (h : saveRow disk env file agents row written writeBack = (.saveFailed, file', agents')) :
    row = none ∧ ((written = false ∧ file' = file) ∨ written = true ∧
      ∃ text, writeFile disk env.configPath env.writesBack file writeBack = some text) := by
  unfold saveRow at h
  split at h
  · cases hlogs : env.logs with
    | true => simp [hlogs] at h
    | false => simp [hlogs] at h
  · refine ⟨rfl, ?_⟩
    cases written with
    | false =>
      rw [if_neg Bool.false_ne_true] at h
      cases h
      exact .inl ⟨rfl, rfl⟩
    | true =>
      rw [if_pos rfl] at h
      split at h
      · cases h
      · rename_i text htext
        exact .inr ⟨rfl, text, htext⟩

/-- A save that fails has left the file alone, or written it there and back. -/
theorem put_saveFailed {file' : Option Text} {agents' : List (AgentRow Text)}
    (h : put json disk env file agents request = (.saveFailed, file', agents')) :
    file' = file ∨ ∃ update writeBack mid final,
      RollsBack json disk env file agents request update writeBack mid final := by
  unfold put at h
  split at h
  · cases h
  · cases h
  · rename_i body hnull hbody
    split at h
    · cases h
    · rename_i agent hagent
      split at h
      · cases h
      · cases h
      · rename_i existingConfig hconfigNull hconfig
        dsimp only at h
        split at h
        · rename_i hwrite
          split at h
          · cases h
          · rename_i mid hmid
            obtain ⟨hrow, ⟨hcontra, -⟩ | ⟨-, final, hfinal⟩⟩ := saveRow_saveFailed h
            · cases hcontra
            · right
              exact ⟨_, _, mid, final, ⟨body, agent, existingConfig, hbody, hnull, hagent, hconfig,
                hconfigNull, hwrite, rfl, rfl, hrow⟩, hmid, hfinal⟩
        · obtain ⟨-, ⟨-, hsame⟩ | ⟨hcontra, -⟩⟩ := saveRow_saveFailed h
          · exact .inl hsame
          · cases hcontra

/-- What the request asks for has one id, and every name once. -/
theorem Asks.payloads {update writeBack : AgentConfig}
    (h : Asks json env agents request update writeBack) :
    update.id = writeBack.id ∧ distinct (.object update.object) = true ∧
      distinct (.object writeBack.object) = true := by
  obtain ⟨body, agent, existingConfig, hbody, -, -, hconfig, -, -, rfl, rfl, -⟩ := h
  have hexisting : distinct existingConfig = true := by
    cases hagent : agent.config with
    | none =>
      rw [hagent] at hconfig
      obtain rfl := Option.some.inj hconfig
      rfl
    | some text =>
      rw [hagent] at hconfig
      exact json.parse_distinct _ _ hconfig
  have hid : distinct (openclawId env existingConfig agent.name) = true := by
    unfold openclawId
    cases hid : (getField existingConfig "openclawId").filter truthy with
    | none => rfl
    | some id => exact distinct_getField hexisting (Option.filter_eq_some_iff.mp hid).1
  have hgateway : distinct ((getField body "gateway_config").getD .null) = true := by
    cases hgateway : getField body "gateway_config" with
    | none => rfl
    | some value => exact distinct_getField (json.parse_distinct _ _ hbody) hgateway
  exact ⟨rfl, distinct_writeBackPayload hid hgateway, distinct_writeBackPayload hid hexisting⟩

/-- After a save that failed without an error on the way back, the file has the values that it had
before. -/
def Restores (disk : Format Text) (before : Option Text)
    (result : Reply × Option Text × List (AgentRow Text)) : Prop :=
  result.1 = .saveFailed → ∀ raw raw' doc doc', before = some raw → disk.parse raw = some doc →
    result.2.1 = some raw' → disk.parse raw' = some doc' → alike doc' doc = true

/-- If the file is written there and back, then the way back undoes the update. -/
def WaysBack (json disk : Format Text) (env : Environment) (file : Option Text)
    (agents : List (AgentRow Text)) (request : Request Text) : Prop :=
  ∀ update writeBack mid final raw doc,
    RollsBack json disk env file agents request update writeBack mid final → file = some raw →
    disk.parse raw = some doc → restored update writeBack doc = true

/-- A file that was written there and back is as before exactly when the way back undoes the
update. -/
theorem RollsBack.alike_iff {update writeBack : AgentConfig} {raw : Text} {doc doc' : Json}
    (h : RollsBack json disk env file agents request update writeBack mid final)
    (hraw : file = some raw) (hdoc : disk.parse raw = some doc)
    (hdoc' : disk.parse final = some doc') : alike doc' doc = restored update writeBack doc := by
  obtain ⟨hid, hupdate, hwriteBack⟩ := h.asks.payloads
  obtain ⟨raw₁, doc₁, middle, hraw₁, hdoc₁, hfirst, hmiddle⟩ := writeFile_eq_some h.writes
  obtain ⟨raw₂, doc₂, last, hraw₂, hdoc₂, hsecond, hlast⟩ := writeFile_eq_some h.writesBack
  obtain rfl : raw = raw₁ := Option.some.inj (hraw.symm.trans hraw₁)
  obtain rfl : doc = doc₁ := Option.some.inj (hdoc.symm.trans hdoc₁)
  obtain rfl : mid = raw₂ := Option.some.inj hraw₂
  obtain rfl : middle = doc₂ := Option.some.inj (hmiddle.symm.trans hdoc₂)
  obtain rfl : last = doc' := Option.some.inj (hlast.symm.trans hdoc')
  exact writeAgent_twice hid (disk.parse_distinct _ _ hdoc) hupdate hwriteBack hfirst hsecond

/-- A failed save restores the file exactly when the way back undoes the update. -/
theorem failed_save_restores_iff (json disk : Format Text) (env : Environment)
    (file : Option Text) (agents : List (AgentRow Text)) (request : Request Text) :
    Restores disk file (put json disk env file agents request) ↔
      WaysBack json disk env file agents request := by
  constructor
  · intro hrestores update writeBack mid final raw doc hback hraw hdoc
    obtain ⟨-, -, last, -, -, -, hlast⟩ := writeFile_eq_some hback.writesBack
    rw [put_of_rollsBack hback] at hrestores
    rw [← hback.alike_iff hraw hdoc hlast]
    exact hrestores rfl raw final doc last hraw hdoc rfl hlast
  · intro hway
    rcases hput : put json disk env file agents request with ⟨reply, file', agents'⟩
    rintro hreply raw raw' doc doc' hraw hdoc hraw' hdoc'
    dsimp only at hreply hraw'
    subst hreply
    obtain hsame | ⟨update, writeBack, mid, final, hback⟩ := put_saveFailed hput
    · obtain rfl : raw = raw' := Option.some.inj (hraw.symm.trans (hsame.symm.trans hraw'))
      obtain rfl : doc = doc' := Option.some.inj (hdoc.symm.trans hdoc')
      exact alike_refl doc (disk.parse_distinct _ _ hdoc)
    · rw [put_of_rollsBack hback] at hput
      simp only [Prod.mk.injEq, true_and] at hput
      obtain rfl : final = raw' := Option.some.inj (hput.1.trans hraw')
      rw [hback.alike_iff hraw hdoc hdoc']
      exact hway update writeBack mid final raw doc hback hraw hdoc

/-! ### A failing input -/

/-- A file with one agent, which has the given model. -/
def scoutFile (model : String) : Json :=
  .object [("agents", .object [("list", .array [.object
    [("id", .string "scout"), ("model", .object [("primary", .string model)])]])])]

/-- The row of the agent has no model in its configuration. -/
def scoutRow : AgentRow Json :=
  ⟨1, "scout", "agent", none, some (.object [("openclawId", .string "scout")]), 1, 0⟩

/-- A new model, and no role. The column of the role must have one. -/
def modelRequest : Request Json where
  target := .numbered 1
  workspaceId := 1
  body := .object [("role", .null), ("gateway_config", .object
    [("model", .object [("primary", .string "opus")])])]
  now := 100

/-- The save fails, and the file keeps the model that was to be saved. -/
theorem failed_save_keeps_model :
    put .plain .plain .plain (some (scoutFile "haiku")) [scoutRow] modelRequest =
      (.saveFailed, some (scoutFile "opus"), [scoutRow]) ∧
    ¬ Restores .plain (some (scoutFile "haiku"))
      (put .plain .plain .plain (some (scoutFile "haiku")) [scoutRow] modelRequest) := by
  have hput : put .plain .plain .plain (some (scoutFile "haiku")) [scoutRow] modelRequest =
      (.saveFailed, some (scoutFile "opus"), [scoutRow]) := by
    decide +kernel
  refine ⟨hput, ?_⟩
  rw [hput]
  intro hrestores
  have hdoc : ∀ model ∈ ["haiku", "opus"],
      Format.plain.parse (scoutFile model) = some (scoutFile model) := by
    decide +kernel
  have halike := hrestores rfl _ _ _ _ rfl (hdoc "haiku" (by decide)) rfl (hdoc "opus" (by decide))
  exact absurd halike (by decide +kernel)

end MissionControl.Gateway.Rollback
