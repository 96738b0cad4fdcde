import MissionControl.DataRooms.Rooms
import MissionControl.Foundations.Stays
import Mathlib.Algebra.Order.Ring.Rat

/-!
`recordEvent` for whatever its callers may give it: events of any type, with or without a
document, a page, a duration and further data. The routes of the visitors use it for the three
types of their schema and for a document that there is.
-/

set_option autoImplicit false
set_option relaxedAutoImplicit false

namespace MissionControl.DataRooms.RecordedEvents

open MissionControl.Foundations.JsText (seconds)
open MissionControl.Foundations.Query
open MissionControl.Foundations.Schema (Json)
open MissionControl.Foundations.Stays
open MissionControl.Events.Bus (Broadcast)

/-! ### The table -/

/-- A row of `data_room_events`. -/
structure EventRow where
  id : Nat
  visitorId : Int
  roomId : Int
  documentId : Option Int
  eventType : String
  pageNumber : Option Int
  durationSeconds : Option Rat
  metadata : Option String
  createdAt : Int
  deriving DecidableEq

/-- The rows, in the order in which they were inserted, and the counter of their ids. -/
structure EventTable where
  rows : List EventRow
  nextId : Nat
  deriving DecidableEq

def EventTable.empty : EventTable := ⟨[], 1⟩

/-- `ORDER BY created_at DESC`. -/
def LatestRow (e e' : EventRow) : Prop := e'.createdAt ≤ e.createdAt

instance decidableLatestRow : DecidableRel LatestRow :=
  fun e e' => inferInstanceAs (Decidable (e'.createdAt ≤ e.createdAt))

theorem sorts_latestRow : Sorts LatestRow :=
  ⟨fun e e' => Int.le_total e'.createdAt e.createdAt,
    fun _ _ _ h h' => Int.le_trans h' h⟩

/-! ### The call -/

/-- What `recordEvent` is given. -/
structure EventData where
  visitorId : Int
  roomId : Int
  documentId : Option Int
  eventType : String
  pageNumber : Option Int
  durationSeconds : Option Rat
  metadata : Option (List (String × Json))

/-- The visitors, rooms and documents that there are. -/
structure Referents where
  visitors : List Int
  rooms : List Int
  documents : List Int
  deriving DecidableEq

/-- A call, with what there is to refer to and with what `unixepoch()` is when it updates the
earlier row and when it inserts its own. -/
structure Call where
  data : EventData
  referents : Referents
  updated : Int
  inserted : Int

/-- `value || null`. -/
def nonzero {α : Type} [Zero α] [DecidableEq α] (value : Option α) : Option α :=
  value.filter fun a => decide (a ≠ 0)

theorem nonzero_some {α : Type} [Zero α] [DecidableEq α] (a : α) :
    nonzero (some a) = if a = 0 then none else some a := by
  by_cases ha : a = 0 <;> simp [nonzero, Option.filter, ha]

/-- The rows of a visitor who looked at a page of a document. -/
def isView (visitorId documentId : Int) (e : EventRow) : Bool :=
  decide (e.visitorId = visitorId ∧ e.documentId = some documentId ∧ e.eventType = "page_viewed")

def EventRow.isOpen (e : EventRow) : Bool := e.durationSeconds.isNone

/-- `SET duration_seconds = (unixepoch()) - created_at`. -/
def EventRow.fill (now : Int) (e : EventRow) : EventRow :=
  { e with durationSeconds := some (now - e.createdAt : Int) }

/-- The rows with the duration of the previous view filled in, for a view of a page. -/
def backfill (order : FirstBy LatestRow) (rows : List EventRow) (c : Call) : List EventRow :=
  match nonzero c.data.documentId with
  | none => rows
  | some documentId =>
    if c.data.eventType = "page_viewed" then
      match order.pick (rows.filter fun e => isView c.data.visitorId documentId e && e.isOpen) with
      | none => rows
      | some prev => rows.map fun e => if e.id = prev.id then e.fill c.updated else e
    else rows

/-- The row that is inserted. `stringify` is `JSON.stringify`. -/
def newRow (stringify : List (String × Json) → String) (id : Nat) (c : Call) : EventRow :=
  { id := id
    visitorId := c.data.visitorId
    roomId := c.data.roomId
    documentId := nonzero c.data.documentId
    eventType := c.data.eventType
    pageNumber := nonzero c.data.pageNumber
    durationSeconds := nonzero c.data.durationSeconds
    metadata := c.data.metadata.map stringify
    createdAt := c.inserted }

/-- The foreign keys of the row that is inserted. -/
def Refers (c : Call) : Prop :=
  c.data.visitorId ∈ c.referents.visitors ∧ c.data.roomId ∈ c.referents.rooms ∧
    ∀ documentId ∈ nonzero c.data.documentId, documentId ∈ c.referents.documents

instance decidableRefers (c : Call) : Decidable (Refers c) :=
  inferInstanceAs (Decidable (_ ∧ _ ∧ _))

/-- `recordEvent`: the table, and the row that it returns unless the insertion throws, which
leaves the earlier row as it was updated. -/
def recordEvent (order : FirstBy LatestRow) (stringify : List (String × Json) → String)
    (t : EventTable) (c : Call) : EventTable × Option EventRow :=
  let rows := backfill order t.rows c
  if Refers c then
    let row := newRow stringify t.nextId c
    (⟨rows ++ [row], t.nextId + 1⟩, some row)
  else (⟨rows, t.nextId⟩, none)

/-- What `recordEvent` announces once the row is there. -/
def eventBroadcasts (data : EventData) : List Broadcast :=
  let about : Json := .object
    ([("room_id", .number data.roomId)] ++
      (data.documentId.map fun documentId => ("document_id", .number documentId)).toList ++
      [("visitor_id", .number data.visitorId)])
  if data.eventType = "doc_viewed" then [⟨.dataroomDocumentViewed, about⟩]
  else if data.eventType = "doc_downloaded" then [⟨.dataroomDocumentDownloaded, about⟩]
  else []

/-- The table after calls one after the other. -/
def record (order : FirstBy LatestRow) (stringify : List (String × Json) → String)
    (calls : List Call) : EventTable :=
  calls.foldl (fun t c => (recordEvent order stringify t c).1) .empty

/-! ### The calls of the routes -/

def eventTypeText : Rooms.EventKind → String
  | .docViewed => "doc_viewed"
  | .docDownloaded => "doc_downloaded"
  | .pageViewed => "page_viewed"

theorem eventTypeText_inj (kind kind' : Rooms.EventKind) :
    eventTypeText kind = eventTypeText kind' ↔ kind = kind' := by
  cases kind <;> cases kind' <;> decide

/-- A row as the routes have it. -/
def rowOf (e : Rooms.DataRoomEvent) : EventRow :=
  { id := e.id
    visitorId := e.visitorId
    roomId := e.roomId
    documentId := e.documentId.map Nat.cast
    eventType := eventTypeText e.eventType
    pageNumber := e.pageNumber.map Nat.cast
    durationSeconds := e.durationSeconds
    metadata := none
    createdAt := e.createdAt }

def tableOf (t : Rooms.Tables) : EventTable := ⟨t.events.map rowOf, t.nextEventId⟩

/-- The call of a route, which reads the clock once. -/
def callOf (t : Rooms.Tables) (data : Rooms.NewEvent) : Call :=
  { data :=
      { visitorId := data.visitorId
        roomId := data.roomId
        documentId := some data.documentId
        eventType := eventTypeText data.eventType
        pageNumber := data.pageNumber.map Nat.cast
        durationSeconds := data.durationSeconds
        metadata := none }
    referents :=
      { visitors := t.visitors.map fun v => v.id
        rooms := t.rooms.map fun r => r.id
        documents := t.documents.map fun d => d.id }
    updated := seconds t.now
    inserted := seconds t.now }

/-- The answers of the routes' query, taken from those to the query over their rows. -/
def orderOf (order : FirstBy LatestRow) : FirstBy Rooms.LatestEvent where
  pick rows := (order.pick (rows.map rowOf)).bind fun row => rows.find? fun e => rowOf e = row
  mem rows e h := by
    obtain ⟨row, -, hfind⟩ := Option.bind_eq_some_iff.mp h
    exact List.mem_of_find?_eq_some hfind
  least rows e h e' he' := by
    obtain ⟨row, hrow, hfind⟩ := Option.bind_eq_some_iff.mp h
    have hsame : rowOf e = row := of_decide_eq_true (List.find?_some hfind :)
    have hleast := order.least _ row hrow (rowOf e') (List.mem_map_of_mem he')
    rw [← hsame] at hleast
    exact Int.ofNat_le.mp hleast
  found rows hrows := by
    obtain ⟨row, hrow⟩ := order.found (rows.map rowOf) (mt List.map_eq_nil_iff.mp hrows)
    obtain ⟨e, he, hsame⟩ := List.mem_map.mp (order.mem _ row hrow)
    have hfound : (rows.find? fun e => decide (rowOf e = row)).isSome = true :=
      List.find?_isSome.mpr ⟨e, he, decide_eq_true hsame⟩
    obtain ⟨e', he'⟩ := Option.isSome_iff_exists.mp hfound
    exact ⟨e', by rw [hrow, Option.bind_some, he']⟩

theorem orderOf_pick_eq_some {order : FirstBy LatestRow} {rows : List Rooms.DataRoomEvent}
    {row : EventRow} (h : order.pick (rows.map rowOf) = some row) :
    ∃ e, (orderOf order).pick rows = some e ∧ rowOf e = row := by
  obtain ⟨e, he, hsame⟩ := List.mem_map.mp (order.mem _ row h)
  obtain ⟨e', he'⟩ := (orderOf order).found rows (List.ne_nil_of_mem he)
  obtain ⟨row', hrow', hfind⟩ := Option.bind_eq_some_iff.mp he'
  obtain rfl : row = row' := Option.some.inj (h.symm.trans hrow')
  exact ⟨e', he', of_decide_eq_true (List.find?_some hfind :)⟩

theorem orderOf_pick_eq_none {order : FirstBy LatestRow} {rows : List Rooms.DataRoomEvent}
    (h : order.pick (rows.map rowOf) = none) : (orderOf order).pick rows = none := by
  show (order.pick (rows.map rowOf)).bind _ = none
  rw [h, Option.bind_none]

theorem nonzero_map_cast (value : Option Nat) :
    nonzero (value.map (Nat.cast : Nat → Int)) = (value.filter (· ≠ 0)).map Nat.cast := by
  cases value with
  | none => rfl
  | some n => by_cases hn : n = 0 <;> simp [nonzero_some, Option.filter, hn]

theorem isView_rowOf (visitorId documentId : Nat) (e : Rooms.DataRoomEvent) :
    (isView visitorId documentId (rowOf e) && (rowOf e).isOpen) =
      decide (e.visitorId = visitorId ∧ e.documentId = some documentId ∧
        e.eventType = .pageViewed ∧ e.durationSeconds = none) := by
  have hdocument : e.documentId.map (Nat.cast : Nat → Int) = some (documentId : Int) ↔
      e.documentId = some documentId := by
    cases e.documentId <;> simp
  have htype : eventTypeText e.eventType = "page_viewed" ↔ e.eventType = .pageViewed :=
    eventTypeText_inj e.eventType .pageViewed
  have hopen : (rowOf e).isOpen = decide (e.durationSeconds = none) := by
    simp only [EventRow.isOpen, rowOf]
    cases e.durationSeconds <;> rfl
  rw [hopen, isView, ← Bool.decide_and]
  apply decide_eq_decide.mpr
  simp only [rowOf, hdocument, htype, Int.natCast_inj, and_assoc]

theorem backfill_callOf (order : FirstBy LatestRow) (t : Rooms.Tables) (data : Rooms.NewEvent) :
    backfill order (t.events.map rowOf) (callOf t data) =
      (Rooms.backfill (orderOf order) t data).map rowOf := by
  by_cases hview : data.eventType = .pageViewed ∧ data.documentId ≠ 0
  · obtain ⟨htype, hdocument⟩ := hview
    have hnonzero : nonzero (callOf t data).data.documentId = some (data.documentId : Int) := by
      simp [nonzero_some, callOf, hdocument]
    have htext : (callOf t data).data.eventType = "page_viewed" := by
      simp only [callOf, htype, eventTypeText]
    have hfilter : (t.events.map rowOf).filter
        (fun e => isView (callOf t data).data.visitorId data.documentId e && e.isOpen) =
        (t.events.filter fun e => e.visitorId = data.visitorId ∧
          e.documentId = some data.documentId ∧ e.eventType = .pageViewed ∧
          e.durationSeconds = none).map rowOf := by
      rw [List.filter_map]
      congr 2
      funext e
      exact isView_rowOf data.visitorId data.documentId e
    rw [backfill, Rooms.backfill, if_pos ⟨htype, hdocument⟩]
    simp only [hnonzero, htext, if_true, hfilter]
    cases hpick : order.pick ((t.events.filter fun e => e.visitorId = data.visitorId ∧
        e.documentId = some data.documentId ∧ e.eventType = .pageViewed ∧
        e.durationSeconds = none).map rowOf) with
    | none => simp only [orderOf_pick_eq_none hpick]
    | some row =>
      obtain ⟨e, he, hsame⟩ := orderOf_pick_eq_some hpick
      simp only [he, List.map_map]
      apply List.map_congr_left
      intro e' _
      have hid : (rowOf e').id = row.id ↔ e'.id = e.id := by rw [← hsame]; rfl
      by_cases heq : e'.id = e.id
      · rw [Function.comp, if_pos (hid.mpr heq), Function.comp, if_pos heq]
        simp [rowOf, EventRow.fill, callOf]
      · rw [Function.comp, if_neg (mt hid.mp heq), Function.comp, if_neg heq]
  · have hrows : backfill order (t.events.map rowOf) (callOf t data) = t.events.map rowOf := by
      unfold backfill
      split
      · rfl
      · rename_i document hdocument
        refine if_neg fun htext => hview ⟨(eventTypeText_inj _ _).mp htext, fun hzero => ?_⟩
        simp [nonzero_some, callOf, hzero] at hdocument
    rw [hrows, Rooms.backfill, if_neg hview]

/-- The routes record events as `recordEvent` does for their calls. -/
theorem recordEvent_callOf (order : FirstBy LatestRow)
    (stringify : List (String × Json) → String) (t : Rooms.Tables) (data : Rooms.NewEvent)
    (hdocument : data.documentId ≠ 0) :
    let result := recordEvent order stringify (tableOf t) (callOf t data)
    let result' := Rooms.recordEvent (orderOf order) t data
    result.1 = tableOf result'.1 ∧ result.2.map EventRow.id = result'.2 := by
  intro result result'
  have hrefers : Refers (callOf t data) ↔ (t.visitors.any (fun v => v.id = data.visitorId) ∧
      t.rooms.any (fun r => r.id = data.roomId) ∧
      t.documents.any fun d => d.id = data.documentId) := by
    simp [Refers, callOf, nonzero_some, hdocument]
  have hrow : newRow stringify t.nextEventId (callOf t data) =
      rowOf ⟨t.nextEventId, data.visitorId, data.roomId, some data.documentId, data.eventType,
        data.pageNumber.filter (· ≠ 0), data.durationSeconds.filter (· ≠ 0), seconds t.now⟩ := by
    simp only [newRow, rowOf, callOf, nonzero_map_cast, nonzero_some, Int.natCast_eq_zero,
      hdocument, if_false, Option.map_some, Option.map_none]
    rfl
  simp only [result, result', recordEvent, Rooms.recordEvent, hrefers, tableOf, backfill_callOf]
  split
  · simp [hrow, rowOf]
  · simp

end MissionControl.DataRooms.RecordedEvents
