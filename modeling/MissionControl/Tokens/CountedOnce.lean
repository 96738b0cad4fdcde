import Mathlib.Data.List.Dedup
import MissionControl.Tokens.LoadedUsage

/-!
When every usage counts once: each row of the table and each posted record comes out of the loading
exactly once if and only if no two of them have one key.
-/

set_option autoImplicit false
set_option relaxedAutoImplicit false

namespace MissionControl.Tokens.CountedOnce

open MissionControl.Foundations.JsonValues
open MissionControl.Foundations.Lists
open MissionControl.Foundations.Numbers
open MissionControl.Foundations.Schema (Json)
open LoadedUsage

/-! ### What there is to count -/

section

variable (env : Environment) (workspaceId : Nat)

def workspaceRows (table : List UsageRow) : List UsageRow :=
  table.filter fun row => row.workspaceId = workspaceId

/-- One record for each row of the workspace. -/
def tableRecords (table : List UsageRow) : List TokenUsageRecord :=
  (workspaceRows workspaceId table).map (rowRecord env)

/-- The records of the workspace that the file has, whatever else it has. -/
def postedRecords (readings : Nat → Reading) (file : Option Json) : List TokenUsageRecord :=
  ((elements readings file).filterMap fun e => (normalizeTokenRecord env e.1 e.2).join).filter
    (ofWorkspace workspaceId)

/-- The rows, and each different record of the file. -/
def usages (table : List UsageRow) (readings : Nat → Reading) (file : Option Json) :
    List TokenUsageRecord :=
  tableRecords env workspaceId table ++ (postedRecords env workspaceId readings file).dedup

/-- No element of the file makes the reading of the whole file fail. -/
def Legible (readings : Nat → Reading) (file : Option Json) : Prop :=
  ∀ e ∈ elements readings file, (normalizeTokenRecord env e.1 e.2).isSome = true

/-- Every record has a key, and no two have the same. -/
def KeysDiffer (records : List TokenUsageRecord) : Prop :=
  ∃ keys, records.mapM (dedupeKey env.conv) = some keys ∧ keys.Nodup

end

/-! ### What is loaded -/

section

variable {env : Environment} {workspaceId : Nat}

theorem loadTokenDataFromDb_perm {table : List UsageRow}
    (h : (workspaceRows workspaceId table).length ≤ 10000) :
    (loadTokenDataFromDb env workspaceId (some table)).Perm (tableRecords env workspaceId table) := by
  have hsorted := List.perm_insertionSort comesFirst (workspaceRows workspaceId table)
  have htake : ((workspaceRows workspaceId table).insertionSort comesFirst).take 10000 =
      (workspaceRows workspaceId table).insertionSort comesFirst :=
    List.take_of_length_le (hsorted.length_eq ▸ h)
  unfold loadTokenDataFromDb tableRecords
  refine List.Perm.map _ ?_
  refine (List.Perm.of_eq ?_).trans hsorted
  exact htake

theorem loadTokenDataFromFile_of_legible {readings : Nat → Reading} {file : Option Json}
    (h : Legible env readings file) :
    loadTokenDataFromFile env readings workspaceId file =
      postedRecords env workspaceId readings file := by
  obtain ⟨records, hrecords⟩ := exists_mapM.mpr h
  unfold loadTokenDataFromFile postedRecords
  rw [hrecords]
  refine congrArg (List.filter (ofWorkspace workspaceId)) ?_
  have hall := mapM_eq_some_iff.mp hrecords
  generalize elements readings file = es at hall
  clear hrecords
  induction hall with
  | nil => rfl
  | @cons e record es records hrecord _ ih =>
    rw [List.filterMap_cons, List.filterMap_cons, hrecord, ih]
    rfl

theorem loadTokenDataFromFile_of_not_legible {readings : Nat → Reading} {file : Option Json}
    (h : ¬Legible env readings file) :
    loadTokenDataFromFile env readings workspaceId file = [] := by
  have hnone : (elements readings file).mapM (fun e => normalizeTokenRecord env e.1 e.2) = none := by
    rw [Option.eq_none_iff_forall_ne_some]
    intro records hrecords
    exact h (exists_mapM.mp ⟨records, hrecords⟩)
  unfold loadTokenDataFromFile
  rw [hnone]

/-! ### What is taken for one -/

/-- The key of a record that has one. -/
def keyOf (conv : Conversions) (record : TokenUsageRecord) : String :=
  (dedupeKey conv record).getD ""

theorem dedupe_eq_some_iff {conv : Conversions} {records deduped : List TokenUsageRecord} :
    dedupeTokenRecords conv records = some deduped ↔
      (∀ record ∈ records, (dedupeKey conv record).isSome = true) ∧
        deduped = keepFirst (keyOf conv) [] records := by
  have hkeyed : ∀ keyed : List (String × TokenUsageRecord),
      List.Forall₂ (fun record k => (dedupeKey conv record).map (fun key => (key, record)) = some k)
        records keyed → keyed = records.map fun record => (keyOf conv record, record) := by
    intro keyed h
    induction h with
    | nil => rfl
    | @cons record k records keyed hk _ ih =>
      obtain ⟨key, hkey, rfl⟩ := Option.map_eq_some_iff.mp hk
      rw [ih, List.map_cons, keyOf, hkey]
      rfl
  have hkept : ∀ l : List TokenUsageRecord,
      (keepFirst Prod.fst [] (l.map fun record => (keyOf conv record, record))).map Prod.snd =
        keepFirst (keyOf conv) [] l := by
    intro l
    rw [keepFirst_map, List.map_map]
    exact List.map_id _
  have hexists := exists_mapM (f := fun record => (dedupeKey conv record).map fun key => (key, record))
    (l := records)
  simp only [Option.isSome_map] at hexists
  rw [dedupeTokenRecords, Option.map_eq_some_iff, ← hexists]
  constructor
  · rintro ⟨keyed, hmap, rfl⟩
    refine ⟨⟨keyed, hmap⟩, ?_⟩
    rw [hkeyed keyed (mapM_eq_some_iff.mp hmap), hkept]
  · rintro ⟨⟨keyed, hmap⟩, rfl⟩
    refine ⟨keyed, hmap, ?_⟩
    rw [hkeyed keyed (mapM_eq_some_iff.mp hmap), hkept]

theorem keysDiffer_iff {records : List TokenUsageRecord} :
    KeysDiffer env records ↔
      (∀ record ∈ records, (dedupeKey env.conv record).isSome = true) ∧
        (records.map (keyOf env.conv)).Nodup := by
  have hkeys : ∀ keys, List.Forall₂ (fun record key => dedupeKey env.conv record = some key)
      records keys → keys = records.map (keyOf env.conv) := by
    intro keys h
    induction h with
    | nil => rfl
    | @cons record key records keys hkey _ ih =>
      rw [ih, List.map_cons, keyOf, hkey]
      rfl
  rw [← exists_mapM]
  constructor
  · rintro ⟨keys, hmap, hnodup⟩
    exact ⟨⟨keys, hmap⟩, hkeys keys (mapM_eq_some_iff.mp hmap) ▸ hnodup⟩
  · rintro ⟨⟨keys, hmap⟩, hnodup⟩
    exact ⟨keys, hmap, (hkeys keys (mapM_eq_some_iff.mp hmap)).symm ▸ hnodup⟩

/-! ### When everything counts once -/

/-- A record for each row and each different posted record, read from the table or the file. -/
structure Once (env : Environment) (workspaceId : Nat) (table : List UsageRow) (sources : Sources)
    (result : List TokenUsageRecord) : Prop where
  once : result.Perm (usages env workspaceId table sources.readings sources.file)
  read : ∀ record ∈ result, record ∈ loadTokenDataFromDb env workspaceId sources.table ++
    loadTokenDataFromFile env sources.readings workspaceId sources.file

theorem loadTokenData_eq_some_iff {sources : Sources} {result : List TokenUsageRecord} :
    loadTokenData env workspaceId sources = some result ↔
      (∀ record ∈ loadTokenDataFromDb env workspaceId sources.table ++
          loadTokenDataFromFile env sources.readings workspaceId sources.file,
        (dedupeKey env.conv record).isSome = true) ∧
      result =
        if loadTokenDataFromDb env workspaceId sources.table ++
            loadTokenDataFromFile env sources.readings workspaceId sources.file = [] then
          deriveFromSessions env workspaceId sources.sessions
        else env.sortByTime (keepFirst (keyOf env.conv) []
          (loadTokenDataFromDb env workspaceId sources.table ++
            loadTokenDataFromFile env sources.readings workspaceId sources.file)) := by
  unfold loadTokenData
  simp only
  generalize loadTokenDataFromDb env workspaceId sources.table ++
    loadTokenDataFromFile env sources.readings workspaceId sources.file = records
  have hempty : 0 < (env.sortByTime (keepFirst (keyOf env.conv) [] records)).length ↔
      records ≠ [] := by
    rw [(env.sortByTime_perm _).length_eq, List.length_pos_iff]
    cases records with
    | nil => simp [keepFirst]
    | cons record records => simp [keepFirst]
  rw [Option.map_eq_some_iff]
  simp only [dedupe_eq_some_iff]
  constructor
  · rintro ⟨deduped, ⟨hkeys, rfl⟩, rfl⟩
    refine ⟨hkeys, ?_⟩
    by_cases hrecords : records = []
    · rw [if_pos hrecords, if_neg (fun hcontra => hempty.mp hcontra hrecords)]
    · rw [if_neg hrecords, if_pos (hempty.mpr hrecords)]
  · rintro ⟨hkeys, rfl⟩
    refine ⟨_, ⟨hkeys, rfl⟩, ?_⟩
    by_cases hrecords : records = []
    · rw [if_pos hrecords, if_neg (fun hcontra => hempty.mp hcontra hrecords)]
    · rw [if_neg hrecords, if_pos (hempty.mpr hrecords)]

theorem deriveFromSessions_eq_nil_iff {sessions : List GatewaySession} :
    deriveFromSessions env workspaceId sessions = [] ↔
      ∀ session ∈ sessions, emptySession session = true := by
  have hlength : deriveFromSessions env workspaceId sessions = [] ↔
      (sessions.filter fun session => !emptySession session).map (sessionRecord env workspaceId) =
        [] := by
    rw [← List.length_eq_zero_iff, deriveFromSessions, (env.sortByTime_perm _).length_eq,
      List.length_eq_zero_iff]
  rw [hlength, List.map_eq_nil_iff, List.filter_eq_nil_iff]
  simp

/-- Where the records that are read are those that there are, they count once if their keys
differ. -/
theorem once_iff_of_mem {table : List UsageRow} {sources : Sources}
    (hmem : ∀ record, record ∈ usages env workspaceId table sources.readings sources.file ↔
      record ∈ loadTokenDataFromDb env workspaceId sources.table ++
        loadTokenDataFromFile env sources.readings workspaceId sources.file) :
    (∃ result, loadTokenData env workspaceId sources = some result ∧
        Once env workspaceId table sources result) ↔
      KeysDiffer env (usages env workspaceId table sources.readings sources.file) ∧
        (usages env workspaceId table sources.readings sources.file = [] →
          ∀ session ∈ sources.sessions, emptySession session = true) := by
  have hnil : usages env workspaceId table sources.readings sources.file = [] ↔
      loadTokenDataFromDb env workspaceId sources.table ++
        loadTokenDataFromFile env sources.readings workspaceId sources.file = [] := by
    simp only [List.eq_nil_iff_forall_not_mem, hmem]
  have hsessionless : deriveFromSessions env workspaceId sources.sessions = [] ↔
      ∀ session ∈ sources.sessions, emptySession session = true := deriveFromSessions_eq_nil_iff
  simp only [loadTokenData_eq_some_iff]
  rw [keysDiffer_iff, ← hsessionless]
  constructor
  · rintro ⟨result, ⟨hkeys, rfl⟩, once, -⟩
    refine ⟨⟨fun record hrecord => hkeys record ((hmem record).mp hrecord), ?_⟩, fun hall => ?_⟩
    · by_cases hrecords : usages env workspaceId table sources.readings sources.file = []
      · rw [hrecords]
        exact List.nodup_nil
      · rw [if_neg fun hcontra => hrecords (hnil.mpr hcontra)] at once
        have hkept := (env.sortByTime_perm _).symm.trans once
        exact (hkept.map (keyOf env.conv)).nodup (nodup_map_keepFirst [] _)
    · rw [if_pos (hnil.mp hall), hall] at once
      exact once.eq_nil
  · rintro ⟨⟨hkeys, hnodup⟩, hsessions⟩
    refine ⟨_, ⟨fun record hrecord => hkeys record ((hmem record).mpr hrecord), rfl⟩, ?_, ?_⟩
    · by_cases hrecords : usages env workspaceId table sources.readings sources.file = []
      · rw [if_pos (hnil.mp hrecords), hsessions hrecords, hrecords]
      · rw [if_neg fun hcontra => hrecords (hnil.mpr hcontra)]
        exact (env.sortByTime_perm _).trans (keepFirst_perm hnodup hmem)
    · intro record hrecord
      by_cases hrecords : usages env workspaceId table sources.readings sources.file = []
      · rw [if_pos (hnil.mp hrecords), hsessions hrecords] at hrecord
        cases hrecord
      · rw [if_neg fun hcontra => hrecords (hnil.mpr hcontra)] at hrecord
        exact (mem_of_mem_keepFirst ((env.sortByTime_perm _).mem_iff.mp hrecord)).1

/-- What is needed for every usage to count once. -/
structure Separate (env : Environment) (workspaceId : Nat) (table : List UsageRow)
    (sources : Sources) : Prop where
  read : postedRecords env workspaceId sources.readings sources.file = [] ∨
    Legible env sources.readings sources.file
  keys : KeysDiffer env (usages env workspaceId table sources.readings sources.file)
  used : usages env workspaceId table sources.readings sources.file = [] →
    ∀ session ∈ sources.sessions, emptySession session = true

theorem mem_usages {table : List UsageRow} {sources : Sources}
    (hrows : (workspaceRows workspaceId table).length ≤ 10000) (htable : sources.table = some table)
    (hread : postedRecords env workspaceId sources.readings sources.file = [] ∨
      Legible env sources.readings sources.file) (record : TokenUsageRecord) :
    record ∈ usages env workspaceId table sources.readings sources.file ↔
      record ∈ loadTokenDataFromDb env workspaceId sources.table ++
        loadTokenDataFromFile env sources.readings workspaceId sources.file := by
  have hfile : loadTokenDataFromFile env sources.readings workspaceId sources.file =
      postedRecords env workspaceId sources.readings sources.file := by
    by_cases hlegible : Legible env sources.readings sources.file
    · exact loadTokenDataFromFile_of_legible hlegible
    · rw [loadTokenDataFromFile_of_not_legible hlegible, hread.resolve_right hlegible]
  rw [usages, List.mem_append, List.mem_append, List.mem_dedup, hfile, htable,
    (loadTokenDataFromDb_perm hrows).mem_iff]

/-- Records that are there and not read are missed. -/
theorem not_once_of_unread {table : List UsageRow} {sources : Sources}
    (hrows : (workspaceRows workspaceId table).length ≤ 10000) (htable : sources.table = some table)
    (hposted : postedRecords env workspaceId sources.readings sources.file ≠ [])
    (hlegible : ¬Legible env sources.readings sources.file) {result : List TokenUsageRecord}
    (hload : loadTokenData env workspaceId sources = some result)
    (once : Once env workspaceId table sources result) : False := by
  obtain ⟨-, hresult⟩ := loadTokenData_eq_some_iff.mp hload
  have hperm : (loadTokenDataFromDb env workspaceId (some table)).Perm
      (tableRecords env workspaceId table) := loadTokenDataFromDb_perm hrows
  have hdedup : 0 < (postedRecords env workspaceId sources.readings sources.file).dedup.length := by
    rw [List.length_pos_iff, Ne, List.dedup_eq_nil]
    exact hposted
  have hlength : result.length ≤ (tableRecords env workspaceId table).length := by
    have hread := once.read
    rw [loadTokenDataFromFile_of_not_legible hlegible, List.append_nil, htable] at hread hresult
    by_cases hnone : loadTokenDataFromDb env workspaceId (some table) = []
    · have hempty : result = [] := List.eq_nil_iff_forall_not_mem.mpr fun record hrecord => by
        have hmem := hread record hrecord
        rw [hnone] at hmem
        cases hmem
      rw [hempty]
      exact Nat.zero_le _
    · rw [if_neg hnone] at hresult
      rw [hresult, (env.sortByTime_perm _).length_eq, ← hperm.length_eq]
      exact (keepFirst_sublist _ _ _).length_le
  have htotal := once.once.length_eq
  rw [usages, List.length_append] at htotal
  omega

end

/-- Every row and every different posted record is loaded exactly once if and only if the file can
be read as a whole, no two of them have one key, and no session stands in for them. -/
theorem counted_once_iff (env : Environment) (workspaceId : Nat) (table : List UsageRow)
    (sources : Sources) (hrows : (workspaceRows workspaceId table).length ≤ 10000)
    (htable : sources.table = some table) :
    (∃ result, loadTokenData env workspaceId sources = some result ∧
        Once env workspaceId table sources result) ↔
      Separate env workspaceId table sources := by
  by_cases hread : postedRecords env workspaceId sources.readings sources.file = [] ∨
      Legible env sources.readings sources.file
  · rw [once_iff_of_mem (mem_usages hrows htable hread)]
    constructor
    · rintro ⟨hkeys, hused⟩
      exact ⟨hread, hkeys, hused⟩
    · rintro ⟨-, hkeys, hused⟩
      exact ⟨hkeys, hused⟩
  · constructor
    · rintro ⟨result, hload, once⟩
      rw [not_or] at hread
      exact (not_once_of_unread hrows htable hread.1 hread.2 hload once).elim
    · intro hseparate
      exact absurd hseparate.read hread

/-! ### Two reports in one second -/

def sampleEnvironment : Environment where
  conv := ⟨fun n => toString n.num, fun _ => .nan⟩
  calculateTokenCost _ _ _ := .finite 0
  sortByTime records := records
  sortByTime_perm _ := .refl _

/-- A heartbeat that reports the same usage as the one before, in the same second. -/
def sampleRow (id : Nat) : UsageRow :=
  ⟨id, "claude-sonnet-4", "alpha:cli", 1200, 300, some 7, 1, 1772672400⟩

def sampleSources (table : List UsageRow) : Sources where
  table := some table
  file := none
  readings _ := ⟨1772672400000, "k3x9"⟩
  sessions := []

theorem counted_once_sample :
    (∃ result, loadTokenData sampleEnvironment 1 (sampleSources [sampleRow 1]) = some result ∧
        Once sampleEnvironment 1 [sampleRow 1] (sampleSources [sampleRow 1]) result) ↔
      Separate sampleEnvironment 1 [sampleRow 1] (sampleSources [sampleRow 1]) :=
  counted_once_iff sampleEnvironment 1 [sampleRow 1] (sampleSources [sampleRow 1])
    (by decide) rfl

/-- Two equal reports in one second count as one. -/
theorem second_report_lost :
    ¬∃ result, loadTokenData sampleEnvironment 1 (sampleSources [sampleRow 1, sampleRow 2]) =
        some result ∧
      Once sampleEnvironment 1 [sampleRow 1, sampleRow 2]
        (sampleSources [sampleRow 1, sampleRow 2]) result := by
  rintro ⟨result, hload, once⟩
  have hlength : (loadTokenData sampleEnvironment 1 (sampleSources [sampleRow 1, sampleRow 2])).map
      List.length = some 1 := by decide +kernel
  have htwo : (usages sampleEnvironment 1 [sampleRow 1, sampleRow 2]
      (sampleSources []).readings none).length = 2 := by decide +kernel
  rw [hload] at hlength
  have hsame := once.once.length_eq
  have hone : result.length = 1 := Option.some.inj hlength
  have hboth : result.length = 2 := hsame.trans htwo
  omega

end MissionControl.Tokens.CountedOnce
