import Mathlib.Data.List.Induction
import MissionControl.Sessions.ClaudeSessions

/-!
Which sessions are marked as active. A scan marks those whose last file ends with a young message,
and it leaves all marks when it finds no session.
-/

set_option autoImplicit false
set_option relaxedAutoImplicit false

namespace MissionControl.Sessions.ActiveFlags

open MissionControl.Foundations.JsText
open MissionControl.Foundations.Transition (Machine)
open ClaudeSessions

/-! ### What lies on the disk -/

def entryOf : Line → Option JSONLEntry
  | .entry entry => some entry
  | _ => none

def linesOf (file : File) : List Line := file.lines.getD []

def sessionIds (lines : List Line) : List String :=
  (lines.filterMap entryOf).filterMap fun entry => truthy entry.sessionId

def timestamps (lines : List Line) : List String :=
  (lines.filterMap entryOf).filterMap fun entry => truthy entry.timestamp

/-- The session of a file that can be read to its end. -/
def sessionIdOf (file : File) : Option String :=
  if Line.null ∈ linesOf file then none else (sessionIds (linesOf file)).head?

/-- The files that are scanned. -/
def scannedFiles (home : Home) : List File :=
  if home.claudeHome = "" then []
  else (home.projects.getD []).flatMap fun project => jsonlFiles project.entry

/-- The scanned files of a session, in the order in which they are read. -/
def filesOf (home : Home) (id : String) : List File :=
  (scannedFiles home).filter fun file => sessionIdOf file = some id

def latestMessage (env : Environment) (file : File) : Option Int :=
  ((timestamps (linesOf file)).filterMap env.getTime).max?

/-- The latest message of the file is younger than the threshold. -/
def Young (env : Environment) (file : File) : Prop :=
  ∃ time, latestMessage env file = some time ∧ file.readAt - time < activeThresholdMs

/-- The last message of the file is younger than the threshold. -/
def EndsYoung (env : Environment) (file : File) : Prop :=
  ∃ text time, (timestamps (linesOf file)).getLast? = some text ∧ env.getTime text = some time ∧
    file.readAt - time < activeThresholdMs

def Marked (rows : List ClaudeSession) (id : String) : Prop :=
  ∃ row ∈ rows, row.sessionId = id ∧ row.isActive = 1

/-- The sessions with a young file are marked, and no others. -/
def Exact (env : Environment) (home : Home) (rows : List ClaudeSession) : Prop :=
  ∀ id, Marked rows id ↔ ∃ file ∈ filesOf home id, Young env file

/-- After a synchronization that succeeds the marks are exact. -/
def MarksExactly (env : Environment) (rows : List ClaudeSession) (sync : Sync) : Prop :=
  (syncClaudeSessions env rows sync).2.ok = true →
    Exact env sync.home (syncClaudeSessions env rows sync).1

/-- When no session is found none is marked, and of each session that has a young file the last
file that is read ends with a young message. -/
def Foreseeable (env : Environment) (rows : List ClaudeSession) (sync : Sync) : Prop :=
  (syncClaudeSessions env rows sync).2.ok = true →
    ((∀ id, filesOf sync.home id = []) → ∀ id, ¬ Marked rows id) ∧
    ∀ id, (∃ file ∈ filesOf sync.home id, Young env file) →
      ∃ file, (filesOf sync.home id).getLast? = some file ∧ EndsYoung env file

variable {env : Environment} {file : File}

/-! ### One file -/

theorem addEntry_session (t : Totals) (entry : JSONLEntry) :
    (addEntry t entry).sessionId = (t.sessionId <|> truthy entry.sessionId) ∧
      (addEntry t entry).lastMessageAt = (truthy entry.timestamp <|> t.lastMessageAt) := by
  simp only [addEntry]
  split
  · exact ⟨rfl, rfl⟩
  · split
    · exact ⟨rfl, rfl⟩
    · split
      · exact ⟨rfl, rfl⟩
      · split
        · rename_i message _ _ _
          cases message with
          | mk content model usage => cases usage <;> exact ⟨rfl, rfl⟩
        · exact ⟨rfl, rfl⟩

theorem sessionIds_snoc (lines : List Line) (line : Line) : sessionIds (lines ++ [line]) =
    sessionIds lines ++ ((entryOf line).bind fun entry => truthy entry.sessionId).toList := by
  cases hentry : entryOf line with
  | none => simp [sessionIds, hentry]
  | some entry => cases hid : truthy entry.sessionId <;> simp [sessionIds, hentry, hid]

theorem timestamps_snoc (lines : List Line) (line : Line) : timestamps (lines ++ [line]) =
    timestamps lines ++ ((entryOf line).bind fun entry => truthy entry.timestamp).toList := by
  cases hentry : entryOf line with
  | none => simp [timestamps, hentry]
  | some entry => cases htext : truthy entry.timestamp <;> simp [timestamps, hentry, htext]

/-- The loop ends unless a line is `null`, with the first session and the last message. -/
theorem foldlM_addLine (lines : List Line) :
    (Line.null ∈ lines ∧ lines.foldlM addLine noTotals = none) ∨
      (Line.null ∉ lines ∧ ∃ t, lines.foldlM addLine noTotals = some t ∧
        t.sessionId = (sessionIds lines).head? ∧ t.lastMessageAt = (timestamps lines).getLast?) := by
  induction lines using List.reverseRecOn with
  | nil => exact .inr ⟨List.not_mem_nil, noTotals, rfl, rfl, rfl⟩
  | append_singleton lines line ih =>
    rw [List.foldlM_append, sessionIds_snoc, timestamps_snoc]
    rcases ih with ⟨hnull, hnone⟩ | ⟨hnull, t, ht, hid, hlast⟩
    · exact .inl ⟨List.mem_append_left _ hnull, by rw [hnone]; rfl⟩
    · rw [ht]
      cases line with
      | null => exact .inl ⟨by simp, rfl⟩
      | malformed =>
        exact .inr ⟨by simp [hnull], t, rfl, by simp [entryOf, hid], by simp [entryOf, hlast]⟩
      | entry entry =>
        obtain ⟨hid', hlast'⟩ := addEntry_session t entry
        refine .inr ⟨by simp [hnull], addEntry t entry, rfl, ?_, ?_⟩
        · rw [hid', hid, List.head?_append]
          cases hentry : truthy entry.sessionId <;> simp [entryOf, hentry]
        · rw [hlast', hlast, List.getLast?_append]
          cases hentry : truthy entry.timestamp <;> simp [entryOf, hentry]

/-- A file is read as one of its session, active if it ends with a young message. -/
theorem parseSessionFile_eq (env : Environment) (slug : String) (file : File) :
    (sessionIdOf file = none ∧ parseSessionFile env slug file = none) ∨
      ∃ id stats, sessionIdOf file = some id ∧ parseSessionFile env slug file = some stats ∧
        stats.sessionId = id ∧ (stats.isActive = true ↔ EndsYoung env file) := by
  unfold sessionIdOf parseSessionFile EndsYoung linesOf
  cases hlines : file.lines with
  | none => exact .inl ⟨rfl, rfl⟩
  | some lines =>
    rw [Option.getD_some]
    dsimp only
    by_cases hempty : lines = []
    · exact .inl ⟨by rw [hempty]; rfl, if_pos hempty⟩
    · rw [if_neg hempty]
      rcases foldlM_addLine lines with ⟨hnull, hnone⟩ | ⟨hnull, t, ht, hid, hlast⟩
      · exact .inl ⟨if_pos hnull, by rw [hnone]; rfl⟩
      · rw [if_neg hnull, ht, Option.bind_some, hid]
        cases (sessionIds lines).head? with
        | none => exact .inl ⟨rfl, rfl⟩
        | some id =>
          refine .inr ⟨id, _, rfl, rfl, rfl, ?_⟩
          simp [statsOf, isActive, hlast, Option.any_eq_true]

/-! ### A scan -/

theorem scan_eq (env : Environment) (home : Home) : ∃ slugs : List (String × File),
    slugs.map Prod.snd = scannedFiles home ∧
      scanClaudeSessions env home = slugs.filterMap fun e => parseSessionFile env e.1 e.2 := by
  unfold scannedFiles scanClaudeSessions
  split
  · exact ⟨[], rfl, rfl⟩
  · refine ⟨(home.projects.getD []).flatMap fun project =>
      (jsonlFiles project.entry).map fun file => (project.slug, file), ?_, ?_⟩
    · rw [List.map_flatMap]
      simp [Function.comp_def]
    · rw [List.filterMap_flatMap]
      simp [List.filterMap_map]

/-- A file that ends with a young message has a young one as its latest. -/
theorem EndsYoung.young (h : EndsYoung env file) : Young env file := by
  obtain ⟨text, time, htext, htime, hyoung⟩ := h
  have hmem : time ∈ (timestamps (linesOf file)).filterMap env.getTime :=
    List.mem_filterMap.mpr ⟨text, List.mem_of_getLast? htext, htime⟩
  obtain ⟨latest, hlatest⟩ : ∃ latest, latestMessage env file = some latest := by
    rw [← Option.isSome_iff_exists, latestMessage, List.isSome_max?_iff]
    exact List.ne_nil_of_mem hmem
  have hle : time ≤ latest := (List.max?_eq_some_iff.mp hlatest).2 time hmem
  exact ⟨latest, hlatest, by omega⟩

/-- The last session with an id is the one of the last file with it. -/
theorem last_active_iff (files : List (String × File)) (id : String) :
    (∃ s, ((files.filterMap fun e => parseSessionFile env e.1 e.2).filter
        fun s => s.sessionId = id).getLast? = some s ∧ s.isActive = true) ↔
      ∃ file, ((files.map Prod.snd).filter fun file => sessionIdOf file = some id).getLast? =
        some file ∧ EndsYoung env file := by
  induction files using List.reverseRecOn with
  | nil => simp
  | append_singleton files e ih =>
    rw [List.filterMap_append, List.map_append, List.filter_append, List.filter_append]
    rcases parseSessionFile_eq env e.1 e.2 with
      ⟨hnone, hparse⟩ | ⟨id', stats, hid, hparse, rfl, hactive⟩
    · simpa [hnone, hparse] using ih
    · by_cases hsame : stats.sessionId = id
      · simp [hid, hparse, hsame, hactive]
      · simpa [hid, hparse, hsame] using ih

theorem scan_eq_nil_iff (env : Environment) (home : Home) :
    scanClaudeSessions env home = [] ↔ ∀ id, filesOf home id = [] := by
  obtain ⟨files, hfiles, hscan⟩ := scan_eq env home
  rw [hscan, List.filterMap_eq_nil_iff]
  simp only [filesOf, ← hfiles, List.filter_eq_nil_iff, List.mem_map, decide_eq_true_eq]
  constructor
  · rintro h id file ⟨e, he, rfl⟩ hid
    rcases parseSessionFile_eq env e.1 e.2 with ⟨hnone, -⟩ | ⟨id', stats, -, hparse, -⟩
    · exact absurd (hnone.symm.trans hid) (by simp)
    · exact absurd ((h e he).symm.trans hparse) (by simp)
  · intro h e he
    rcases parseSessionFile_eq env e.1 e.2 with ⟨-, hnone⟩ | ⟨id', stats, hid, -⟩
    · exact hnone
    · exact absurd hid (h id' e.2 ⟨e, he, rfl⟩)

/-! ### The rows -/

theorem insertedRow_isActive (s : SessionStats) (cost : Rat) (now : Int) :
    (insertedRow s cost now).isActive = 1 ↔ s.isActive = true := by
  cases hactive : s.isActive <;> simp [insertedRow, hactive]

theorem marked_upsert {now : Int} {rows rows' : List ClaudeSession} {s : SessionStats}
    (h : upsert now rows s = some rows') (id : String) :
    Marked rows' id ↔ if s.sessionId = id then s.isActive = true else Marked rows id := by
  obtain ⟨cost, -, rfl⟩ := Option.map_eq_some_iff.mp h
  let written := fun row : ClaudeSession =>
    if row.sessionId = s.sessionId then updatedRow row (insertedRow s cost now) else row
  have hown : ∀ row, row.sessionId = s.sessionId →
      (written row).sessionId = s.sessionId ∧ ((written row).isActive = 1 ↔ s.isActive = true) := by
    intro row hrow
    simp only [written, if_pos hrow]
    exact ⟨rfl, insertedRow_isActive s cost now⟩
  have hother : ∀ row, row.sessionId ≠ s.sessionId → written row = row :=
    fun row hrow => if_neg hrow
  by_cases hknown : s.sessionId ∈ rows.map ClaudeSession.sessionId
  · obtain ⟨known, hmem, hid⟩ := List.mem_map.mp hknown
    rw [if_pos hknown]
    split
    · rename_i hsame
      constructor
      · rintro ⟨row', hrow', hrowid, hmarked⟩
        obtain ⟨row, -, rfl⟩ := List.mem_map.mp hrow'
        by_cases hrow : row.sessionId = s.sessionId
        · exact (hown row hrow).2.mp hmarked
        · change (written row).sessionId = id at hrowid
          rw [hother row hrow] at hrowid
          exact absurd (hrowid.trans hsame.symm) hrow
      · intro hactive
        obtain ⟨hwritten, hmarked⟩ := hown known hid
        exact ⟨written known, List.mem_map_of_mem hmem, hwritten.trans hsame,
          hmarked.mpr hactive⟩
    · rename_i hdifferent
      constructor
      · rintro ⟨row', hrow', hrowid, hmarked⟩
        obtain ⟨row, hrow, rfl⟩ := List.mem_map.mp hrow'
        change (written row).sessionId = id at hrowid
        change (written row).isActive = 1 at hmarked
        have hne : row.sessionId ≠ s.sessionId := by
          intro heq
          rw [(hown row heq).1] at hrowid
          exact hdifferent hrowid
        rw [hother row hne] at hrowid hmarked
        exact ⟨row, hrow, hrowid, hmarked⟩
      · rintro ⟨row, hrow, hrowid, hmarked⟩
        have hne : row.sessionId ≠ s.sessionId := fun heq => hdifferent (heq.symm.trans hrowid)
        have hin : written row ∈ rows.map written := List.mem_map_of_mem hrow
        rw [hother row hne] at hin
        exact ⟨row, hin, hrowid, hmarked⟩
  · rw [if_neg hknown]
    have hsplit : Marked (rows ++ [insertedRow s cost now]) id ↔
        Marked rows id ∨ s.sessionId = id ∧ s.isActive = true := by
      simp only [Marked, List.mem_append, List.mem_singleton, or_and_right, exists_or,
        exists_eq_left, insertedRow_isActive]
      rfl
    rw [hsplit]
    split
    · rename_i hsame
      have hnot : ¬ Marked rows id := by
        rintro ⟨row, hrow, hrowid, -⟩
        exact hknown (List.mem_map.mpr ⟨row, hrow, hrowid.trans hsame.symm⟩)
      simp [hnot, hsame]
    · rename_i hdifferent
      simp [hdifferent]

theorem not_marked_markInactive (rows : List ClaudeSession) (id : String) :
    ¬ Marked (markInactive rows) id := by
  rintro ⟨row, hrow, -, hactive⟩
  obtain ⟨row', -, rfl⟩ := List.mem_map.mp hrow
  cases hactive

/-- After the writes of a scan a session is marked as the last one with its id is. -/
theorem marked_foldlM {now : Int} {rows rows' : List ClaudeSession} {sessions : List SessionStats}
    (hrows : ∀ id, ¬ Marked rows id) (h : sessions.foldlM (upsert now) rows = some rows')
    (id : String) : Marked rows' id ↔
      ∃ s, (sessions.filter fun s => s.sessionId = id).getLast? = some s ∧ s.isActive = true := by
  induction sessions using List.reverseRecOn generalizing rows' with
  | nil =>
    obtain rfl := Option.some.inj h
    simpa using hrows id
  | append_singleton sessions s ih =>
    rw [List.foldlM_append] at h
    obtain ⟨rows'', hfront, hlast⟩ := Option.bind_eq_some_iff.mp h
    simp only [List.foldlM_cons, List.foldlM_nil, bind_pure] at hlast
    rw [marked_upsert hlast, List.filter_append]
    by_cases hsame : s.sessionId = id
    · simp [hsame]
    · simpa [hsame] using ih hfront

/-! ### Histories -/

/-- After its writes a scan has marked the sessions whose last file ends with a young message. -/
theorem marked_writeSessions {sync : Sync} {rows rows' : List ClaudeSession}
    (h : writeSessions sync (scanClaudeSessions env sync.home) rows = .ok rows') (id : String) :
    Marked rows' id ↔
      ∃ file, (filesOf sync.home id).getLast? = some file ∧ EndsYoung env file := by
  rw [writeSessions] at h
  split at h
  · cases h
  · split at h
    · cases h
    · rename_i written hwritten
      obtain rfl := Except.ok.inj h
      rw [marked_foldlM (not_marked_markInactive rows) hwritten id]
      obtain ⟨files, hfiles, hscan⟩ := scan_eq env sync.home
      rw [hscan, last_active_iff, filesOf, hfiles]

theorem marksExactly_iff (rows : List ClaudeSession) (sync : Sync) :
    MarksExactly env rows sync ↔ Foreseeable env rows sync := by
  simp only [MarksExactly, Foreseeable, syncClaudeSessions]
  by_cases hnone : scanClaudeSessions env sync.home = []
  · rw [if_pos hnone]
    rw [scan_eq_nil_iff] at hnone
    simp [Exact, hnone]
  · rw [if_neg hnone]
    cases hwritten : writeSessions sync (scanClaudeSessions env sync.home) rows with
    | error message => exact ⟨nofun, nofun⟩
    | ok rows' =>
      have hmarked := marked_writeSessions hwritten
      rw [scan_eq_nil_iff] at hnone
      simp only [Exact, hmarked, true_implies]
      constructor
      · intro hexact
        exact ⟨fun hempty => absurd hempty hnone, fun id => (hexact id).mpr⟩
      · rintro ⟨-, hlast⟩ id
        constructor
        · rintro ⟨file, hfile, hyoung⟩
          exact ⟨file, List.mem_of_getLast? hfile, hyoung.young⟩
        · exact hlast id

/-- Throughout a history the marks are exact after the synchronizations of which that can be
foreseen, and after no others. -/
theorem marks_exact_iff (env : Environment) (rows : List ClaudeSession) (history : List Sync) :
    (machine env).Meets (MarksExactly env) rows history ↔
      (machine env).Meets (Foreseeable env) rows history := by
  have hagree : ∀ rows, True → ∀ sync, MarksExactly env rows sync ↔ Foreseeable env rows sync :=
    fun rows _ sync => marksExactly_iff rows sync
  exact Machine.meets_congr hagree (fun _ _ _ _ _ => trivial) trivial history

/-! ### A transcript that is removed -/

/-- Two times, of which one is recent when the files are read. -/
def plainTimes : Environment :=
  ⟨fun text => [("2026-01-05T09:00:00Z", 900000), ("2026-01-05T08:00:00Z", 100000)].lookup text⟩

def transcript (name id : String) (times : List String) : File where
  name := name
  lines := some (times.map fun time =>
    .entry ⟨some "user", some id, some time, none, none, none, none⟩)
  readAt := 1000000

def homeWith (files : List File) : Home := ⟨"/root/.claude", some [⟨"board", .directory files⟩]⟩

/-- A session is active. -/
def recent : Sync :=
  ⟨homeWith [transcript "a.jsonl" "a" ["2026-01-05T09:00:00Z"]], 1000000, none⟩

/-- No transcript is left. -/
def emptied : Sync := ⟨homeWith [], 90000000, none⟩

/-- The session stays marked. -/
theorem removed_stays_marked :
    ¬ (machine plainTimes).Meets (MarksExactly plainTimes) [] [recent, emptied] := by
  rintro ⟨-, hrest⟩
  obtain ⟨hexact, -⟩ := hrest _ rfl
  have hrow : ((syncClaudeSessions plainTimes (syncClaudeSessions plainTimes [] recent).1
      emptied).1.map fun row => (row.sessionId, row.isActive)) = [("a", 1)] := by decide +kernel
  obtain ⟨row, hmem, hfacts⟩ := List.mem_map.mp (hrow ▸ List.mem_singleton_self ("a", 1))
  obtain ⟨hid, hactive⟩ := Prod.mk.inj hfacts
  obtain ⟨file, hfile, -⟩ := (hexact rfl "a").mp ⟨row, hmem, hid, hactive⟩
  cases hfile

/-- The last of two files of a session has no young message, and neither the session is marked; nor
is one whose messages are not in order. -/
example : (syncClaudeSessions plainTimes [] ⟨homeWith [transcript "a.jsonl" "a" ["2026-01-05T09:00:00Z"],
    transcript "b.jsonl" "a" ["2026-01-05T08:00:00Z"],
    transcript "c.jsonl" "c" ["2026-01-05T09:00:00Z", "2026-01-05T08:00:00Z"]], 1000000, none⟩).1.map ClaudeSession.isActive = [0, 0] := by decide +kernel

end MissionControl.Sessions.ActiveFlags
