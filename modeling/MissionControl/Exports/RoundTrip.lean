import MissionControl.Foundations.Calendar
import MissionControl.Foundations.Csv
import MissionControl.Foundations.SqlValues
import MissionControl.Tokens.LoadedUsage

/-!
The exports of tables as comma-separated values: `exportAnalyticsCSV` of a data room,
`GET /api/export` and the export of `GET /api/tokens`. The first two enclose a cell with a comma, a
quote or a line feed in quotes, the third joins its cells as they are.
-/

set_option autoImplicit false
set_option relaxedAutoImplicit false

namespace MissionControl.Exports.CsvRoutes

open MissionControl.Foundations
open Calendar (isoDate timeClip)
open Csv (Table enclose write)
open JsText (padStart)
open Numbers (Conversions Number toText)
open Schema (Json)
open SqlValues (Value)
open Tokens.LoadedUsage (TokenUsageRecord numberText)

/-! ### Cells -/

/-- `String(cell ?? '')`. -/
def cellText (conv : Conversions) : Value → String
  | .null => ""
  | .number n => conv.numberText n
  | .text s => s

/-- `value || ''`. -/
def orBlank (value : Value) : Value := if value.truthy then value else .text ""

/-- A cell with a comma, a quote or a line feed is enclosed. -/
def encodeCell (str : List Char) : List Char :=
  if ',' ∈ str ∨ '"' ∈ str ∨ '\n' ∈ str then enclose str else str

def texts (cells : List String) : List (List Char) := cells.map String.toList

/-- `lines.join('\n')`. -/
def joinLines (lines : List (List Char)) : List Char := ['\n'].intercalate lines

/-- `cells.join(',')`. -/
def joinCells (cells : List (List Char)) : List Char := [','].intercalate cells

/-! ### Data rooms -/

/-- A row of the query of `exportAnalyticsCSV`. -/
structure AnalyticsEvent where
  email : Value
  name : Value
  company : Value
  documentName : Value
  folder : Value
  eventType : Value
  pageNumber : Value
  durationSeconds : Value
  eventTime : Value

def analyticsHeaders : List String :=
  ["Email", "Name", "Company", "Document", "Folder", "Event Type", "Page", "Duration (s)", "Time"]

def analyticsCells (conv : Conversions) (e : AnalyticsEvent) : List String :=
  [e.email, e.name, e.company, orBlank e.documentName, orBlank e.folder, e.eventType,
    e.pageNumber, e.durationSeconds, e.eventTime].map (cellText conv)

def exportAnalyticsCSV (conv : Conversions) (events : List AnalyticsEvent) : List Char :=
  joinLines ((analyticsHeaders :: events.map (analyticsCells conv)).map fun row =>
    joinCells ((texts row).map encodeCell))

/-! ### `GET /api/export` -/

inductive ExportType where
  | audit
  | tasks
  | activities
  | pipelines
  deriving DecidableEq

def ExportType.headers : ExportType → List String
  | .audit => ["id", "action", "actor", "actor_id", "target_type", "target_id", "detail",
      "ip_address", "user_agent", "created_at"]
  | .tasks => ["id", "title", "description", "status", "priority", "assigned_to", "created_by",
      "created_at", "updated_at", "due_date", "estimated_hours", "actual_hours", "tags"]
  | .activities => ["id", "type", "entity_type", "entity_id", "actor", "description", "data",
      "created_at"]
  | .pipelines => ["id", "pipeline_id", "pipeline_name", "status", "current_step",
      "steps_snapshot", "started_at", "completed_at", "triggered_by", "created_at"]

/-- A row of a query, by the names of its columns. -/
abbrev Row := List (String × Value)

/-- The texts of a row; a column that it does not have is empty. -/
def rowCells (conv : Conversions) (type : ExportType) (row : Row) : List String :=
  type.headers.map fun h => cellText conv ((row.lookup h).getD .null)

def exportRows (conv : Conversions) (type : ExportType) (rows : List Row) : List Char :=
  joinLines (joinCells (texts type.headers) ::
    rows.map fun row => joinCells ((texts (rowCells conv type row)).map encodeCell))

/-! ### `GET /api/tokens?action=export` -/

/-- `date.toISOString()`. -/
def toISOString (time : Int) : String :=
  isoDate time ++ "T" ++ padStart 2 (toString (time / 3600000 % 24).toNat) ++ ":" ++
    padStart 2 (toString (time / 60000 % 60).toNat) ++ ":" ++
    padStart 2 (toString (time / 1000 % 60).toNat) ++ "." ++
    padStart 3 (toString (time % 1000).toNat) ++ "Z"

/-- The digits of `x.toFixed(4)` for a number that is not negative, the greater of two nearest. -/
def fixedDigits (x : ℚ) : String :=
  let digits := (padStart 5 (toString (x * 10000 + 1 / 2).floor.toNat)).toList
  String.ofList (digits.take (digits.length - 4) ++ '.' :: digits.drop (digits.length - 4))

/-- `cost.toFixed(4)`. -/
def toFixed (conv : Conversions) : Number → String
  | .finite x =>
    if 1000000000000000000000 ≤ |x| then conv.numberText x
    else if x < 0 then "-" ++ fixedDigits (-x)
    else fixedDigits x
  | n => numberText conv n

/-- The text of `duration || 0`; `none` is an exception. -/
def durationText (conv : Conversions) : Option Json → Option String
  | none => some "0"
  | some value => if JsonValues.truthy value then toText conv value else some "0"

def tokenHeaders : List String :=
  ["timestamp", "agentName", "model", "sessionId", "operation", "inputTokens", "outputTokens",
    "totalTokens", "cost", "duration"]

/-- The texts of a record; `none` is the exception of a time that is no date. -/
def tokenCells (conv : Conversions) (record : TokenUsageRecord) : Option (List String) := do
  let time ← timeClip record.timestamp
  let duration ← durationText conv record.duration
  return [toISOString time, record.agentName, record.model, record.sessionId, record.operation,
    numberText conv record.inputTokens, numberText conv record.outputTokens,
    numberText conv record.totalTokens, toFixed conv record.cost, duration]

def exportTokens (conv : Conversions) (records : List TokenUsageRecord) : Option (List Char) :=
  (records.mapM (tokenCells conv)).map fun rows =>
    joinLines (joinCells (texts tokenHeaders) :: rows.map fun row => joinCells (texts row))

end MissionControl.Exports.CsvRoutes

/-!
Which exports are read back as the tables they were made of. A carriage return alone does not make
the first two enclose a cell, and the third encloses none.
-/

namespace MissionControl.Exports.RoundTrip

open MissionControl.Foundations
open Csv (Encoding Field Legible Table action enclose isTextData parse parse_write_iff write)
open CsvRoutes
open Numbers (Conversions Number)
open Tokens.LoadedUsage (TokenUsageRecord)

/-! ### The tables that are exported -/

def analyticsTable (conv : Conversions) (events : List AnalyticsEvent) : Table :=
  texts analyticsHeaders :: events.map fun e => texts (analyticsCells conv e)

def exportTable (conv : Conversions) (type : ExportType) (rows : List Row) : Table :=
  texts type.headers :: rows.map fun row => texts (rowCells conv type row)

/-- The header, and a record for each row. -/
def TokensRoundTrip (conv : Conversions) (records : List TokenUsageRecord) : Prop :=
  ∃ rows csv, records.mapM (tokenCells conv) = some rows ∧ exportTokens conv records = some csv ∧
    parse csv = some (texts tokenHeaders :: rows.map texts)

/-! ### The conditions -/

/-- A carriage return does not stand alone. -/
def Accompanied (text : String) : Prop :=
  '\r' ∈ text.toList → ',' ∈ text.toList ∨ '"' ∈ text.toList ∨ '\n' ∈ text.toList

/-- There are no commas, quotes or line breaks. -/
def Bare (text : String) : Prop :=
  ',' ∉ text.toList ∧ '"' ∉ text.toList ∧ '\n' ∉ text.toList ∧ '\r' ∉ text.toList

instance (text : String) : Decidable (Accompanied text) :=
  inferInstanceAs (Decidable ('\r' ∈ text.toList → _))

instance (text : String) : Decidable (Bare text) :=
  inferInstanceAs (Decidable (_ ∧ _))

/-! ### The encodings -/

theorem all_isTextData_iff (field : Field) : field.all isTextData = true ↔
    ',' ∉ field ∧ '"' ∉ field ∧ '\n' ∉ field ∧ '\r' ∉ field := by
  rw [List.all_eq_true]
  constructor
  · intro h
    have hnot : ∀ c, isTextData c = false → c ∉ field := by
      intro c hc hmem
      rw [h c hmem] at hc
      cases hc
    exact ⟨hnot _ (by decide), hnot _ (by decide), hnot _ (by decide), hnot _ (by decide)⟩
  · rintro ⟨hcomma, hquote, hfeed, hreturn⟩ c hc
    have hne : ∀ d, d ∉ field → c ≠ d := by
      rintro d hd rfl
      exact hd hc
    exact Csv.isTextData_of_ne (hne _ hcomma) (hne _ hfeed) (hne _ hreturn) (hne _ hquote)

theorem enclose_ne (field : Field) : enclose field ≠ field := by
  intro h
  have hlength := congrArg List.length h
  rw [Csv.length_enclose] at hlength
  omega

theorem encoding_encodeCell : Encoding encodeCell := by
  intro field
  unfold encodeCell
  split
  · rename_i hspecial
    refine .inr ⟨rfl, ?_⟩
    rw [← Bool.not_eq_true, all_isTextData_iff]
    rintro ⟨hcomma, hquote, hfeed, -⟩
    rcases hspecial with h | h | h
    · exact hcomma h
    · exact hquote h
    · exact hfeed h
  · exact .inl rfl

theorem encoding_id : Encoding id := fun _ => .inl rfl

theorem legible_encodeCell_iff (text : String) :
    Legible encodeCell text.toList ↔ Accompanied text := by
  unfold Legible Accompanied encodeCell
  rw [all_isTextData_iff]
  split
  · rename_i hspecial
    exact ⟨fun _ _ => hspecial, fun _ h => absurd h (enclose_ne _)⟩
  · rename_i hplain
    rw [not_or, not_or] at hplain
    obtain ⟨hcomma, hquote, hfeed⟩ := hplain
    simp [hcomma, hquote, hfeed]

theorem legible_id_iff (text : String) : Legible id text.toList ↔ Bare text := by
  unfold Legible Bare
  rw [all_isTextData_iff]
  simp

/-- Headers have no special characters. -/
theorem joinCells_headers {headers : List String} (h : ∀ text ∈ headers, Bare text) :
    (texts headers).map encodeCell = texts headers := by
  rw [texts, List.map_map]
  refine List.map_congr_left fun text htext => ?_
  obtain ⟨hcomma, hquote, hfeed, -⟩ := h text htext
  simp [encodeCell, hcomma, hquote, hfeed]

theorem bare_headers (type : ExportType) : ∀ text ∈ type.headers, Bare text := by
  cases type <;> decide

theorem accompanied_of_bare {text : String} (h : Bare text) : Accompanied text :=
  fun hreturn => absurd hreturn h.2.2.2

theorem forall_mem_texts {P : Field → Prop} {Q : String → Prop}
    (h : ∀ text : String, P text.toList ↔ Q text) (cells : List String) :
    (∀ field ∈ texts cells, P field) ↔ ∀ text ∈ cells, Q text := by
  rw [texts, List.forall_mem_map]
  exact forall₂_congr fun text _ => h text

/-! ### The exports -/

theorem exportAnalyticsCSV_eq (conv : Conversions) (events : List AnalyticsEvent) :
    exportAnalyticsCSV conv events = write encodeCell (analyticsTable conv events) := by
  rw [exportAnalyticsCSV, write, analyticsTable, joinLines]
  simp [Function.comp_def, joinCells]

theorem exportRows_eq (conv : Conversions) (type : ExportType) (rows : List Row) :
    exportRows conv type rows = write encodeCell (exportTable conv type rows) := by
  rw [exportRows, write, exportTable, joinLines, List.map_cons,
    joinCells_headers (bare_headers type)]
  simp [Function.comp_def, joinCells]

theorem analytics_iff (conv : Conversions) (events : List AnalyticsEvent) :
    parse (exportAnalyticsCSV conv events) = some (analyticsTable conv events) ↔
      ∀ e ∈ events, ∀ text ∈ analyticsCells conv e, Accompanied text := by
  rw [exportAnalyticsCSV_eq, parse_write_iff encoding_encodeCell (by simp [analyticsTable])]
  · rw [analyticsTable, List.forall_mem_cons, List.forall_mem_map,
      forall_mem_texts legible_encodeCell_iff]
    have hheaders : ∀ text ∈ analyticsHeaders, Accompanied text := by decide
    simp only [forall_mem_texts legible_encodeCell_iff]
    exact and_iff_right hheaders
  · simp [analyticsTable, analyticsHeaders, analyticsCells, texts]

theorem export_iff (conv : Conversions) (type : ExportType) (rows : List Row) :
    parse (exportRows conv type rows) = some (exportTable conv type rows) ↔
      ∀ row ∈ rows, ∀ text ∈ rowCells conv type row, Accompanied text := by
  have hlength : 2 ≤ type.headers.length := by cases type <;> decide
  rw [exportRows_eq, parse_write_iff encoding_encodeCell (by simp [exportTable])]
  · rw [exportTable, List.forall_mem_cons, List.forall_mem_map,
      forall_mem_texts legible_encodeCell_iff]
    simp only [forall_mem_texts legible_encodeCell_iff]
    exact and_iff_right fun text htext => accompanied_of_bare (bare_headers type text htext)
  · simp [exportTable, rowCells, texts, hlength]

theorem length_tokenCells {conv : Conversions} {record : TokenUsageRecord} {cells : List String}
    (h : tokenCells conv record = some cells) : cells.length = 10 := by
  simp only [tokenCells, Option.bind_eq_bind, Option.bind_eq_some_iff, Option.pure_def,
    Option.some.injEq] at h
  obtain ⟨time, -, duration, -, rfl⟩ := h
  rfl

theorem tokens_iff (conv : Conversions) (records : List TokenUsageRecord) :
    TokensRoundTrip conv records ↔
      ∀ record ∈ records, ∃ cells, tokenCells conv record = some cells ∧
        ∀ text ∈ cells, Bare text := by
  have hread : ∀ rows, records.mapM (tokenCells conv) = some rows →
      (parse (joinLines (joinCells (texts tokenHeaders) ::
          rows.map fun row => joinCells (texts row))) =
        some (texts tokenHeaders :: rows.map texts) ↔
        ∀ row ∈ rows, ∀ text ∈ row, Bare text) := by
    intro rows hrows
    have hcells := Lists.mapM_eq_some_iff.mp hrows
    have hwrite : joinLines (joinCells (texts tokenHeaders) ::
        rows.map fun row => joinCells (texts row)) =
        write id (texts tokenHeaders :: rows.map texts) := by
      simp [write, joinLines, joinCells, Function.comp_def]
    rw [hwrite, parse_write_iff encoding_id (by simp)]
    · rw [List.forall_mem_cons, List.forall_mem_map, forall_mem_texts legible_id_iff]
      have hheaders : ∀ text ∈ tokenHeaders, Bare text := by decide
      simp only [forall_mem_texts legible_id_iff]
      exact and_iff_right hheaders
    · rw [List.forall_mem_cons, List.forall_mem_map]
      refine ⟨by decide, fun row hrow => ?_⟩
      obtain ⟨record, -, hrecord⟩ := Lists.mem_of_forall₂ hcells hrow
      rw [texts, List.length_map, length_tokenCells hrecord]
      decide
  constructor
  · rintro ⟨rows, csv, hrows, hcsv, hparse⟩ record hrecord
    rw [exportTokens, hrows] at hcsv
    obtain rfl := Option.some.inj hcsv
    have hbare := (hread rows hrows).mp hparse
    obtain ⟨cells, hcells, hsame⟩ :=
      Lists.mem_of_forall₂ (Lists.mapM_eq_some_iff.mp hrows).flip hrecord
    exact ⟨cells, hsame, hbare cells hcells⟩
  · intro h
    obtain ⟨rows, hrows⟩ := Lists.exists_mapM.mpr fun record hrecord => by
      obtain ⟨cells, hcells, -⟩ := h record hrecord
      exact Option.isSome_iff_exists.mpr ⟨cells, hcells⟩
    refine ⟨rows, _, hrows, by rw [exportTokens, hrows]; rfl, (hread rows hrows).mpr ?_⟩
    intro row hrow text htext
    obtain ⟨record, hrecord, hcells⟩ :=
      Lists.mem_of_forall₂ (Lists.mapM_eq_some_iff.mp hrows) hrow
    obtain ⟨cells, hsame, hbare⟩ := h record hrecord
    obtain rfl := Option.some.inj (hcells.symm.trans hsame)
    exact hbare text htext

def wholeNumbers : Conversions := ⟨fun n => toString n.num, fun _ => .nan⟩

def visit (name : String) : AnalyticsEvent :=
  ⟨.text "v@example.com", .text name, .text "", .text "deck.pdf", .null, .text "page_viewed",
    .number 1, .null, .text "2026-03-01 09:00:00"⟩

def usage (agentName : String) : TokenUsageRecord where
  id := "db-1"
  model := "claude-sonnet-4"
  sessionId := "writer:main"
  agentName := agentName
  timestamp := .finite 1772355600000
  inputTokens := .finite 1200
  outputTokens := .finite 300
  totalTokens := .finite 1500
  cost := .finite (81 / 10000)
  operation := "chat_completion"
  taskId := none
  workspaceId := 1
  duration := none

end MissionControl.Exports.RoundTrip
