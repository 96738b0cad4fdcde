import Mathlib.Data.List.Sublists
import MissionControl.Tokens.UsageFile

/-!
What the token usage file loses. Every write replaces the whole file by what its writer has read
and kept: a record is lost if it came into the file after that read, and the records of other
workspaces are lost with every write of a request.
-/

set_option autoImplicit false
set_option relaxedAutoImplicit false

namespace MissionControl.Tokens.UsageLoss

open MissionControl.Foundations.JsText
open MissionControl.Foundations.Transition (Machine)
open UsageFile

variable {env : Environment} {w : World}

/-! ### Reading back what was stored -/

/-- A record that the route can build. -/
def Complete (record : TokenUsageRecord) : Prop :=
  record.model ≠ "" ∧ record.sessionId ≠ "" ∧ 0 < record.workspaceId

/-- A complete record is read back as it was stored. -/
theorem normalize_store {record : TokenUsageRecord} (h : Complete record) (now : Int)
    (drawn : String) : normalizeTokenRecord env now drawn (store record) = some record := by
  have hmodel : truthy (store record).model = some record.model := truthy_of_ne h.1
  have hsession : truthy (store record).sessionId = some record.sessionId := truthy_of_ne h.2.1
  rw [normalizeTokenRecord, hmodel, Option.bind_some, hsession, Option.map_some]
  rfl

theorem store_injective : Function.Injective store := by
  intro r r' h
  cases r
  cases r'
  simpa only [store, StoredRecord.mk.injEq, Option.some.injEq, TokenUsageRecord.mk.injEq] using h

/-- What a request loads from a file that holds complete records. -/
theorem load_store {records : List TokenUsageRecord} (h : ∀ r ∈ records, Complete r) (now : Int)
    (drawn : String) (workspaceId : Nat) :
    loadTokenDataFromFile env now drawn workspaceId (records.map store) =
      records.filter fun r => r.workspaceId = workspaceId := by
  have hread : (records.map store).filterMap (normalizeTokenRecord env now drawn) = records := by
    rw [List.filterMap_map]
    refine (List.filterMap_congr ?_).trans List.filterMap_some
    exact fun r hr => normalize_store (h r hr) now drawn
  rw [loadTokenDataFromFile, hread]
  apply List.filter_congr
  intro r hr
  have hpos := (h r hr).2.2
  apply decide_eq_decide.mpr
  omega

theorem dataToSave_eq (record : TokenUsageRecord) (existingData : List TokenUsageRecord) :
    dataToSave record existingData = (record :: existingData).take 10000 := by
  rw [dataToSave]
  split
  · rfl
  · rename_i hshort
    rw [List.take_of_length_le (Nat.le_of_not_lt hshort)]

/-! ### What must not be lost -/

/-- The record is older than the retention cutoff. -/
def Expired (env : Environment) (now : Int) (record : StoredRecord) : Prop :=
  0 < env.tokenUsageRetention ∧ Recent (now - env.tokenUsageRetention) record = false

instance decidableExpired (now : Int) (record : StoredRecord) :
    Decidable (Expired env now record) :=
  inferInstanceAs (Decidable (_ ∧ _))

/-- Ten thousand newer records of its workspace have been saved. -/
def Superseded (saved : List TokenUsageRecord) (record : TokenUsageRecord) : Prop :=
  ∃ front back, saved = front ++ record :: back ∧
    10000 ≤ back.countP fun r => r.workspaceId = record.workspaceId

/-- Every record that was saved is in the file, unless it is too old or superseded. -/
def UsageKept (env : Environment) (w : World) : Prop :=
  ∀ record ∈ w.saved, store record ∈ w.records ∨ Expired env w.now (store record) ∨
    Superseded w.saved record

/-- The records of a workspace in the file; one without a workspace counts for the first. -/
def recordsOf (workspaceId : Nat) (w : World) : List StoredRecord :=
  w.records.filter fun record => record.workspaceId.getD 1 = workspaceId

/-- The event is a step of a request of the workspace. -/
def ActsFor (w : World) (workspaceId : Nat) : Event → Prop
  | .post id _ _ _ => id = workspaceId
  | .readPost i _ _ => ∃ p, w.posts[i]? = some p ∧ p.record.workspaceId = workspaceId
  | .writePost i _ => ∃ p, w.posts[i]? = some p ∧ p.record.workspaceId = workspaceId
  | _ => False

/-- A write finds in the file nothing recent that its writer has not read; and a request finds
no record of another workspace in it. -/
def Unraced (env : Environment) (w : World) : Event → Prop
  | .writePost i false => ∀ record found data, w.posts[i]? = some (.loaded record found data) →
    ∀ s ∈ w.records, s.workspaceId.getD 1 = record.workspaceId ∧
      (¬ Expired env w.now s → s ∈ found)
  | .writeCleanup i false => ∀ found kept, w.cleanups[i]? = some (.loaded found kept) →
    ∀ s ∈ w.records, ¬ Expired env w.now s → s ∈ found
  | _ => True

instance decidableUnraced (w : World) : ∀ e : Event, Decidable (Unraced env w e)
  | .writePost i false =>
    match hpost : w.posts[i]? with
    | some (.loaded record found data) =>
      decidable_of_iff (∀ s ∈ w.records, s.workspaceId.getD 1 = record.workspaceId ∧
        (¬ Expired env w.now s → s ∈ found)) <| by
          simp only [Unraced, hpost, Option.some.injEq, Post.loaded.injEq]
          exact ⟨by rintro h _ _ _ ⟨rfl, rfl, rfl⟩; exact h, fun h => h _ _ _ ⟨rfl, rfl, rfl⟩⟩
    | some (.started _) => .isTrue fun _ _ _ h => Post.noConfusion (Option.some.inj (hpost.symm.trans h))
    | none => .isTrue fun _ _ _ h => absurd (hpost.symm.trans h) (Option.some_ne_none _).symm
  | .writeCleanup i false =>
    match hcleanup : w.cleanups[i]? with
    | some (.loaded found kept) =>
      decidable_of_iff (∀ s ∈ w.records, ¬ Expired env w.now s → s ∈ found) <| by
        simp only [Unraced, hcleanup, Option.some.injEq, Cleanup.loaded.injEq]
        exact ⟨by rintro h _ _ ⟨rfl, rfl⟩; exact h, fun h => h _ _ ⟨rfl, rfl⟩⟩
    | some (.started _) =>
      .isTrue fun _ _ h => Cleanup.noConfusion (Option.some.inj (hcleanup.symm.trans h))
    | none => .isTrue fun _ _ h => absurd (hcleanup.symm.trans h) (Option.some_ne_none _).symm
  | .writePost _ true | .writeCleanup _ true | .wait _ | .post .. | .readPost .. | .cleanup _
  | .readCleanup .. => .isTrue trivial

/-! ### What the file and the snapshots hold -/

/-- Saved records, the last one first, some of them left out. -/
def Holds (saved : List TokenUsageRecord) (found : List StoredRecord) : Prop :=
  ∃ rs : List TokenUsageRecord, rs.Sublist saved.reverse ∧ found = rs.map store

/-- What a request has loaded. -/
def Loads (saved : List TokenUsageRecord) (record : TokenUsageRecord)
    (found : List StoredRecord) (data : List TokenUsageRecord) : Prop :=
  ∃ rs : List TokenUsageRecord, rs.Sublist saved.reverse ∧ found = rs.map store ∧
    data = (record :: rs.filter fun r => r.workspaceId = record.workspaceId).take 10000

/-- What a cleanup has loaded. -/
def Cleans (env : Environment) (w : World) (found kept : List StoredRecord) : Prop :=
  Holds w.saved found ∧ ∃ t ≤ w.now, kept = found.filter (Recent (t - env.tokenUsageRetention))

structure Faithful (env : Environment) (w : World) : Prop where
  saved : ∀ r ∈ w.saved, Complete r
  posts : ∀ p ∈ w.posts, Complete p.record
  file : Holds w.saved w.records
  loads : ∀ record found data, .loaded record found data ∈ w.posts →
    Loads w.saved record found data
  enabled : ∀ c ∈ w.cleanups, 0 < env.tokenUsageRetention
  cleans : ∀ found kept, .loaded found kept ∈ w.cleanups → Cleans env w found kept
  kept : UsageKept env w

theorem Faithful.empty (now : Int) : Faithful env (World.empty now) where
  saved := fun _ h => absurd h List.not_mem_nil
  posts := fun _ h => absurd h List.not_mem_nil
  file := ⟨[], List.Sublist.refl [], rfl⟩
  loads := fun _ _ _ h => absurd h List.not_mem_nil
  enabled := fun _ h => absurd h List.not_mem_nil
  cleans := fun _ _ h => absurd h List.not_mem_nil
  kept := fun _ h => absurd h List.not_mem_nil

theorem sublist_snoc {saved rs : List TokenUsageRecord} (h : rs.Sublist saved.reverse)
    (record : TokenUsageRecord) : rs.Sublist (saved ++ [record]).reverse := by
  rw [List.reverse_append, List.reverse_singleton, List.singleton_append]
  exact h.cons record

theorem Holds.snoc {saved : List TokenUsageRecord} {found : List StoredRecord}
    (h : Holds saved found) (record : TokenUsageRecord) : Holds (saved ++ [record]) found := by
  obtain ⟨rs, hrs, heq⟩ := h
  exact ⟨rs, sublist_snoc hrs record, heq⟩

theorem Holds.filter {saved : List TokenUsageRecord} {found : List StoredRecord}
    (h : Holds saved found) (p : StoredRecord → Bool) : Holds saved (found.filter p) := by
  obtain ⟨rs, hrs, rfl⟩ := h
  exact ⟨rs.filter (p ∘ store), List.filter_sublist.trans hrs, List.filter_map⟩

theorem Loads.snoc {saved : List TokenUsageRecord} {record : TokenUsageRecord}
    {found : List StoredRecord} {data : List TokenUsageRecord} (h : Loads saved record found data)
    (record' : TokenUsageRecord) : Loads (saved ++ [record']) record found data := by
  obtain ⟨rs, hrs, hfound⟩ := h
  exact ⟨rs, sublist_snoc hrs record', hfound⟩

theorem Expired.mono {now now' : Int} {record : StoredRecord} (hle : now ≤ now')
    (h : Expired env now record) : Expired env now' record := by
  refine ⟨h.1, ?_⟩
  have hold := h.2
  rw [Recent] at hold ⊢
  cases htimestamp : record.timestamp with
  | none => rfl
  | some timestamp =>
    rw [htimestamp, Option.any_some, decide_eq_false_iff_not] at hold
    rw [Option.any_some, decide_eq_false_iff_not]
    omega

theorem Superseded.snoc {saved : List TokenUsageRecord} {record : TokenUsageRecord}
    (h : Superseded saved record) (record' : TokenUsageRecord) :
    Superseded (saved ++ [record']) record := by
  obtain ⟨front, back, rfl, hcount⟩ := h
  refine ⟨front, back ++ [record'], ?_, ?_⟩
  · rw [List.append_assoc, List.cons_append]
  · rw [List.countP_append]
    omega

/-- A saved record that a list of its workspace has cut off is superseded. -/
theorem superseded_of_cut {saved records : List TokenUsageRecord} {record : TokenUsageRecord}
    (hsub : records.Sublist saved.reverse)
    (hworkspace : ∀ r ∈ records, r.workspaceId = record.workspaceId) (hmem : record ∈ records)
    (hcut : record ∉ records.take 10000) : Superseded saved record := by
  have hdrop : record ∈ records.drop 10000 := by
    rw [← List.take_append_drop 10000 records] at hmem
    exact (List.mem_append.mp hmem).resolve_left hcut
  have hlong : 10000 ≤ (records.take 10000).length := by
    have hpos := List.length_pos_of_mem hdrop
    rw [List.length_drop] at hpos
    rw [List.length_take]
    omega
  rw [← List.take_append_drop 10000 records] at hsub
  obtain ⟨newer, older, hsplit, hnewer, holder⟩ := List.append_sublist_iff.mp hsub
  obtain ⟨before, after, rfl⟩ := List.append_of_mem (holder.subset hdrop)
  refine ⟨after.reverse, before.reverse ++ newer.reverse, ?_, ?_⟩
  · rw [← List.reverse_reverse saved, hsplit]
    simp only [List.reverse_append, List.reverse_cons, List.append_assoc, List.cons_append,
      List.nil_append]
  · have hcount : (records.take 10000).countP (fun r => r.workspaceId = record.workspaceId) =
        (records.take 10000).length := by
      rw [List.countP_eq_length]
      exact fun r hr => decide_eq_true (hworkspace r (List.mem_of_mem_take hr))
    have hle := hnewer.countP_le (p := fun r : TokenUsageRecord =>
      decide (r.workspaceId = record.workspaceId))
    rw [List.countP_append, List.countP_reverse, List.countP_reverse]
    omega

/-! ### Steps -/

theorem complete_newRecord {now : Int} {workspaceId : Nat} (hworkspace : workspaceId ≠ 0)
    {body : UsageBody} {id : String} {taskFound : Bool} {record : TokenUsageRecord}
    (h : newRecord env now workspaceId body id taskFound = some record) : Complete record := by
  rw [newRecord] at h
  split at h
  · cases h
  · rename_i hbody
    obtain ⟨hmodel, hsession⟩ := not_or.mp hbody
    obtain ⟨inputTokens, -, h⟩ := Option.bind_eq_some_iff.mp h
    obtain ⟨outputTokens, -, rfl⟩ := Option.map_eq_some_iff.mp h
    exact ⟨hmodel, hsession, Nat.pos_of_ne_zero hworkspace⟩

theorem Faithful.post (h : Faithful env w) {workspaceId : Nat} {body : UsageBody} {id : String}
    {taskFound : Bool} {w' : World}
    (hstep : postTokens env w workspaceId body id taskFound = some w') : Faithful env w' := by
  rw [postTokens] at hstep
  split at hstep
  · cases hstep
  · rename_i hworkspace
    split at hstep
    · obtain rfl := Option.some.inj hstep
      exact h
    · rename_i record hrecord
      obtain rfl := Option.some.inj hstep
      refine ⟨h.saved, ?_, h.file, ?_, h.enabled, h.cleans, h.kept⟩
      · intro p hp
        rcases List.mem_append.mp hp with hp | hp
        · exact h.posts p hp
        · rw [List.mem_singleton.mp hp]
          exact complete_newRecord hworkspace hrecord
      · intro record' found data hp
        rcases List.mem_append.mp hp with hp | hp
        · exact h.loads record' found data hp
        · cases List.mem_singleton.mp hp

theorem Faithful.readPost (h : Faithful env w) {i : Nat} {fails : Bool} {drawn : String}
    {w' : World} (hstep : readPost env w i fails drawn = some w') : Faithful env w' := by
  rw [UsageFile.readPost] at hstep
  split at hstep
  · rename_i record hpost
    obtain rfl := Option.some.inj hstep
    have hrecord := h.posts _ (List.mem_of_getElem? hpost)
    have hloads : Loads w.saved record (if fails then [] else w.records) (dataToSave record
        (loadTokenDataFromFile env w.now drawn record.workspaceId
          (if fails then [] else w.records))) := by
      obtain ⟨rs, hsub, hfound⟩ : Holds w.saved (if fails then [] else w.records) := by
        split
        · exact ⟨[], List.nil_sublist _, rfl⟩
        · exact h.file
      have hcomplete : ∀ r ∈ rs, Complete r :=
        fun r hr => h.saved r (List.mem_reverse.mp (hsub.subset hr))
      refine ⟨rs, hsub, hfound, ?_⟩
      rw [hfound, load_store hcomplete, dataToSave_eq]
    refine ⟨h.saved, ?_, h.file, ?_, h.enabled, h.cleans, h.kept⟩
    · intro p hp
      rcases List.mem_or_eq_of_mem_set hp with hp | rfl
      · exact h.posts p hp
      · exact hrecord
    · intro record' found data hp
      rcases List.mem_or_eq_of_mem_set hp with hp | heq
      · exact h.loads record' found data hp
      · obtain ⟨rfl, rfl, rfl⟩ := Post.loaded.inj heq
        exact hloads
  · cases hstep

/-- The records that a request writes are of its workspace, and it has saved them. -/
theorem Loads.data {saved : List TokenUsageRecord} {record : TokenUsageRecord}
    {found : List StoredRecord} {data : List TokenUsageRecord} (h : Loads saved record found data) :
    data.Sublist (saved ++ [record]).reverse ∧ record ∈ data ∧
      ∀ r ∈ data, r.workspaceId = record.workspaceId := by
  obtain ⟨rs, hrs, -, rfl⟩ := h
  refine ⟨?_, ?_, ?_⟩
  · refine (List.take_sublist _ _).trans ?_
    rw [List.reverse_append, List.reverse_singleton, List.singleton_append]
    exact (List.filter_sublist.trans hrs).cons_cons record
  · rw [List.take_succ_cons]
    exact List.mem_cons_self
  · intro r hr
    rcases List.mem_cons.mp (List.mem_of_mem_take hr) with rfl | hr
    · rfl
    · exact of_decide_eq_true (List.mem_filter.mp hr).2

/-- A record of the workspace that a request has found is written back, or it is superseded. -/
theorem Loads.written {saved : List TokenUsageRecord} {record : TokenUsageRecord}
    {found : List StoredRecord} {data : List TokenUsageRecord} (h : Loads saved record found data)
    {r : TokenUsageRecord} (hfound : store r ∈ found) (hworkspace : r.workspaceId = record.workspaceId) :
    r ∈ data ∨ Superseded (saved ++ [record]) r := by
  obtain ⟨rs, hrs, rfl, rfl⟩ := h
  obtain ⟨r', hr', heq⟩ := List.mem_map.mp hfound
  obtain rfl := store_injective heq
  by_cases hcut : r' ∈ (record :: rs.filter fun r => r.workspaceId = record.workspaceId).take 10000
  · exact .inl hcut
  · refine .inr (superseded_of_cut ?_ ?_ ?_ hcut)
    · rw [List.reverse_append, List.reverse_singleton, List.singleton_append]
      exact (List.filter_sublist.trans hrs).cons_cons record
    · intro r hr
      rw [hworkspace]
      rcases List.mem_cons.mp hr with rfl | hr
      · rfl
      · exact of_decide_eq_true (List.mem_filter.mp hr).2
    · exact List.mem_cons_of_mem _ (List.mem_filter.mpr ⟨hr', decide_eq_true hworkspace⟩)

/-- A write of a request keeps what it must keep. -/
theorem Faithful.writePost (h : Faithful env w) {i : Nat} {fails : Bool}
    (hunraced : Unraced env w (.writePost i fails)) {w' : World}
    (hstep : writePost w i fails = some w') : Faithful env w' := by
  rw [UsageFile.writePost] at hstep
  split at hstep
  · rename_i record found data hpost
    dsimp only at hstep
    have hloads := h.loads record found data (List.mem_of_getElem? hpost)
    have hrecord := h.posts _ (List.mem_of_getElem? hpost)
    have hposts : ∀ p ∈ w.posts.eraseIdx i, p ∈ w.posts := fun p hp => List.mem_of_mem_eraseIdx hp
    cases fails with
    | true =>
      obtain rfl := Option.some.inj hstep
      exact ⟨h.saved, fun p hp => h.posts p (hposts p hp), h.file,
        fun record found data hp => h.loads record found data (hposts _ hp), h.enabled, h.cleans,
        h.kept⟩
    | false =>
      obtain rfl := Option.some.inj hstep
      obtain ⟨hsub, hmem, -⟩ := hloads.data
      refine ⟨?_, fun p hp => h.posts p (hposts p hp), ⟨data, hsub, rfl⟩, ?_, h.enabled, ?_, ?_⟩
      · intro r hr
        rcases List.mem_append.mp hr with hr | hr
        · exact h.saved r hr
        · rw [List.mem_singleton.mp hr]
          exact hrecord
      · exact fun record' found' data' hp => (h.loads record' found' data' (hposts _ hp)).snoc record
      · intro found' kept hc
        obtain ⟨hfound', hkept⟩ := h.cleans found' kept hc
        exact ⟨hfound'.snoc record, hkept⟩
      · intro r hr
        rcases List.mem_append.mp hr with hr | hr
        · rcases h.kept r hr with hfile | hexpired | hsuperseded
          · obtain ⟨hworkspace, hread⟩ := hunraced record found data hpost (store r) hfile
            by_cases hexpired : Expired env w.now (store r)
            · exact .inr (.inl hexpired)
            · rcases hloads.written (hread hexpired) hworkspace with hdata | hsuperseded
              · exact .inl (List.mem_map_of_mem hdata)
              · exact .inr (.inr hsuperseded)
          · exact .inr (.inl hexpired)
          · exact .inr (.inr (hsuperseded.snoc record))
        · rw [List.mem_singleton.mp hr]
          exact .inl (List.mem_map_of_mem hmem)
  · cases hstep

theorem Faithful.readCleanup (h : Faithful env w) {i : Nat} {fails : Bool} {w' : World}
    (hstep : readCleanup env w i fails = some w') : Faithful env w' := by
  rw [UsageFile.readCleanup] at hstep
  have hfewer : ∀ c ∈ w.cleanups.eraseIdx i, c ∈ w.cleanups := fun c hc => List.mem_of_mem_eraseIdx hc
  have hended : Faithful env { w with cleanups := w.cleanups.eraseIdx i } :=
    ⟨h.saved, h.posts, h.file, h.loads, fun c hc => h.enabled c (hfewer c hc),
      fun found kept hc => h.cleans found kept (hfewer _ hc), h.kept⟩
  split at hstep
  · rename_i dryRun hcleanup
    have henabled := h.enabled _ (List.mem_of_getElem? hcleanup)
    split at hstep
    · obtain rfl := Option.some.inj hstep
      exact hended
    · rename_i data hdata
      dsimp only at hstep
      split at hstep
      · obtain rfl := Option.some.inj hstep
        have hfile : w.file = some data := by
          split at hdata
          · cases hdata
          · exact hdata
        have hholds : Holds w.saved data := by
          have hrecords := h.file
          rw [World.records, hfile, Option.getD_some] at hrecords
          exact hrecords
        refine ⟨h.saved, h.posts, h.file, h.loads, fun _ _ => henabled, ?_, h.kept⟩
        intro found kept hc
        rcases List.mem_or_eq_of_mem_set hc with hc | heq
        · exact h.cleans found kept hc
        · obtain ⟨rfl, rfl⟩ := Cleanup.loaded.inj heq
          exact ⟨hholds, w.now, Int.le_refl _, rfl⟩
      · obtain rfl := Option.some.inj hstep
        exact hended
  · cases hstep

/-- A write of a cleanup keeps what it must keep. -/
theorem Faithful.writeCleanup (h : Faithful env w) {i : Nat} {fails : Bool}
    (hunraced : Unraced env w (.writeCleanup i fails)) {w' : World}
    (hstep : writeCleanup w i fails = some w') : Faithful env w' := by
  rw [UsageFile.writeCleanup] at hstep
  split at hstep
  · rename_i found kept hcleanup
    dsimp only at hstep
    have hretention := h.enabled _ (List.mem_of_getElem? hcleanup)
    have hcleans : ∀ found kept, .loaded found kept ∈ w.cleanups.eraseIdx i →
        Cleans env w found kept :=
      fun found kept hc => h.cleans found kept (List.mem_of_mem_eraseIdx hc)
    cases fails with
    | true =>
      obtain rfl := Option.some.inj hstep
      exact ⟨h.saved, h.posts, h.file, h.loads, fun _ _ => hretention, hcleans, h.kept⟩
    | false =>
      obtain rfl := Option.some.inj hstep
      obtain ⟨hfound, t, ht, rfl⟩ := h.cleans found kept (List.mem_of_getElem? hcleanup)
      refine ⟨h.saved, h.posts, hfound.filter _, h.loads, fun _ _ => hretention, hcleans, ?_⟩
      intro r hr
      rcases h.kept r hr with hfile | hexcused
      · by_cases hexpired : Expired env w.now (store r)
        · exact .inr (.inl hexpired)
        · refine .inl (List.mem_filter.mpr ⟨hunraced found _ hcleanup (store r) hfile hexpired, ?_⟩)
          by_contra hold
          exact hexpired (Expired.mono ht ⟨hretention, Bool.eq_false_iff.mpr hold⟩)
      · exact .inr hexcused
  · cases hstep

/-- The step lemma. -/
theorem Faithful.step (h : Faithful env w) {e : Event} (hunraced : Unraced env w e) {w' : World}
    (hstep : (machine env).step w e = some w') : Faithful env w' := by
  cases e with
  | wait milliseconds =>
    obtain rfl := Option.some.inj hstep
    have hlater : w.now ≤ w.now + milliseconds := Int.le_add_of_nonneg_right (Int.natCast_nonneg _)
    refine ⟨h.saved, h.posts, h.file, h.loads, h.enabled, ?_, ?_⟩
    · intro found kept hc
      obtain ⟨hholds, t, ht, hkept⟩ := h.cleans found kept hc
      exact ⟨hholds, t, Int.le_trans ht hlater, hkept⟩
    · exact fun r hr => (h.kept r hr).imp_right fun hexcused =>
        hexcused.imp_left fun hexpired => hexpired.mono hlater
  | post => exact h.post hstep
  | readPost => exact h.readPost hstep
  | writePost => exact h.writePost hunraced hstep
  | cleanup dryRun =>
    change (if _ then _ else _) = _ at hstep
    split at hstep
    · rename_i hretention
      obtain rfl := Option.some.inj hstep
      refine ⟨h.saved, h.posts, h.file, h.loads, fun _ _ => hretention, ?_, h.kept⟩
      intro found kept hc
      rcases List.mem_append.mp hc with hc | hc
      · exact h.cleans found kept hc
      · cases List.mem_singleton.mp hc
    · obtain rfl := Option.some.inj hstep
      exact h
  | readCleanup => exact h.readCleanup hstep
  | writeCleanup => exact h.writeCleanup hunraced hstep

/-- A step of a request leaves the records of other workspaces alone. -/
theorem recordsOf_other (h : Faithful env w) {e : Event} (hunraced : Unraced env w e) {w' : World}
    (hstep : (machine env).step w e = some w') {workspaceId other : Nat}
    (hacts : ActsFor w workspaceId e) (hother : other ≠ workspaceId) :
    recordsOf other w' = recordsOf other w := by
  cases e with
  | post id body drawn taskFound =>
    change postTokens env w id body drawn taskFound = some w' at hstep
    rw [postTokens] at hstep
    split at hstep
    · cases hstep
    · split at hstep
      all_goals
        obtain rfl := Option.some.inj hstep
        rfl
  | readPost i fails drawn =>
    change UsageFile.readPost env w i fails drawn = some w' at hstep
    rw [UsageFile.readPost] at hstep
    split at hstep
    · obtain rfl := Option.some.inj hstep
      rfl
    · cases hstep
  | writePost i fails =>
    change UsageFile.writePost w i fails = some w' at hstep
    rw [UsageFile.writePost] at hstep
    split at hstep
    · rename_i record found data hpost
      dsimp only at hstep
      cases fails with
      | true =>
        obtain rfl := Option.some.inj hstep
        rfl
      | false =>
        obtain rfl := Option.some.inj hstep
        obtain ⟨p, hp, rfl⟩ := hacts
        rw [hpost] at hp
        obtain rfl := Option.some.inj hp
        obtain ⟨-, -, hworkspace⟩ := (h.loads record found data (List.mem_of_getElem? hpost)).data
        have hbefore : recordsOf other w = [] := by
          rw [recordsOf, List.filter_eq_nil_iff]
          intro s hs heq
          have hs' := (hunraced record found data hpost s hs).1
          exact hother ((of_decide_eq_true heq).symm.trans hs')
        rw [hbefore, recordsOf, List.filter_eq_nil_iff]
        intro s hs heq
        obtain ⟨r, hr, rfl⟩ := List.mem_map.mp hs
        have hr' : r.workspaceId = other := of_decide_eq_true heq
        exact hother (hr'.symm.trans (hworkspace r hr))
    · cases hstep
  | wait | cleanup | readCleanup | writeCleanup => exact absurd hacts id

/-- An installation that keeps records for a day. -/
def oneDay : Environment := ⟨fun _ _ _ => 0, 86400000⟩

def usage : UsageBody := ⟨"claude", "main:chat", some 10, some 20, none, none, none⟩

/-- A request that is not interrupted. -/
def request (workspaceId : Nat) (id : String) : List Event :=
  [.post workspaceId usage id false, .readPost 0 false "", .writePost 0 false]

/-- Two requests of one workspace, and a cleanup the next day. -/
def oneWorkspace : List Event :=
  request 1 "a" ++ [.wait 80000000] ++ request 1 "b" ++
    [.wait 10000000, .cleanup false, .readCleanup 0 false, .writeCleanup 0 false]

end MissionControl.Tokens.UsageLoss
