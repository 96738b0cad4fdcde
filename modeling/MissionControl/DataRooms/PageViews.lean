import MissionControl.DataRooms.RecordedEvents
import MissionControl.Foundations.Lists

/-!
How long visitors look at a page. A view of a page ends the previous view that the visitor has of
the document, so that the views of a document are the stays of the visitor there: each of them
lasts until the next one, and only the last is not over.
-/

set_option autoImplicit false
set_option relaxedAutoImplicit false

namespace MissionControl.DataRooms.PageViews

open MissionControl.Foundations.Lists (Keyed filter_map_of_keeps)
open MissionControl.Foundations.Query
open MissionControl.Foundations.Schema (Json)
open MissionControl.Foundations.Stays
open RecordedEvents

variable {order : FirstBy LatestRow} {stringify : List (String × Json) → String}
  {t : EventTable} {c : Call} {calls : List Call} {visitorId documentId : Int}

/-! ### Views as stays -/

/-- The views that a visitor has of a document, in the order in which they were inserted. -/
def views (rows : List EventRow) (visitorId documentId : Int) : List EventRow :=
  rows.filter (isView visitorId documentId)

/-- When the view began, and its duration. -/
def stayOf (e : EventRow) : Stay Rat := ⟨e.createdAt, e.durationSeconds⟩

/-- The row with its duration filled in unless it has one. -/
def close (now : Int) (e : EventRow) : EventRow := if e.isOpen then e.fill now else e

/-- What the calls keep true of the table. -/
structure Staying (t : EventTable) : Prop where
  keyed : Keyed EventRow.id t.rows t.nextId
  ordered : t.rows.Pairwise fun e e' => e.id < e'.id ∧ e.createdAt ≤ e'.createdAt
  stayed : ∀ visitorId documentId, (views t.rows visitorId documentId).map stayOf =
    stays ((views t.rows visitorId documentId).map fun e => (e.createdAt : Rat))

theorem isView_eq_true {e : EventRow} : isView visitorId documentId e = true ↔
    e.visitorId = visitorId ∧ e.documentId = some documentId ∧ e.eventType = "page_viewed" := by
  rw [isView, decide_eq_true_eq]

@[simp]
theorem isView_fill (now : Int) (e : EventRow) :
    isView visitorId documentId (e.fill now) = isView visitorId documentId e := rfl

@[simp]
theorem isOpen_stayOf (e : EventRow) : (stayOf e).isOpen = e.isOpen := rfl

theorem stayOf_close (now : Int) (e : EventRow) :
    stayOf (close now e) = (stayOf e).leave (now : Rat) := by
  obtain ⟨id, visitor, room, document, eventType, page, duration, metadata, created⟩ := e
  cases duration with
  | none => simp [close, EventRow.isOpen, stayOf, EventRow.fill, Stay.leave]
  | some d => rfl

@[simp]
theorem createdAt_close (now : Int) (e : EventRow) : (close now e).createdAt = e.createdAt := by
  rw [close]
  split <;> rfl

/-- No more than one view of a document by a visitor is not over. -/
theorem Staying.countP_isOpen (h : Staying t) (visitorId documentId : Int) :
    (views t.rows visitorId documentId).countP EventRow.isOpen ≤ 1 := by
  have hcount := countP_isOpen_stays
    ((views t.rows visitorId documentId).map fun e => (e.createdAt : Rat))
  rw [← h.stayed visitorId documentId, List.countP_map] at hcount
  exact hcount

/-! ### What one call does to the views -/

/-- The view that is not over, if the query finds one, is the only such view. -/
theorem Staying.pick_eq_some (h : Staying t) {prev : EventRow}
    (hpick : order.pick (t.rows.filter fun e => isView visitorId documentId e && e.isOpen) =
      some prev) {e : EventRow} (he : e ∈ views t.rows visitorId documentId) :
    e.id = prev.id ↔ e.isOpen = true := by
  have hfilter : (t.rows.filter fun e => isView visitorId documentId e && e.isOpen) =
      (views t.rows visitorId documentId).filter EventRow.isOpen := by
    rw [views, List.filter_filter]
    exact List.filter_congr fun e _ => Bool.and_comm _ _
  rw [hfilter] at hpick
  have hprev := order.mem _ _ hpick
  have hlength := h.countP_isOpen visitorId documentId
  rw [List.countP_eq_length_filter] at hlength
  constructor
  · intro hid
    have hsame : e = prev := h.keyed.eq_of_key (List.mem_of_mem_filter he)
      (List.mem_of_mem_filter (List.mem_of_mem_filter hprev)) hid
    exact hsame ▸ List.of_mem_filter hprev
  · intro hopen
    have hmem : e ∈ (views t.rows visitorId documentId).filter EventRow.isOpen :=
      List.mem_filter.mpr ⟨he, hopen⟩
    obtain ⟨only, honly⟩ : ∃ only, (views t.rows visitorId documentId).filter EventRow.isOpen = [only] := by
      apply List.length_eq_one_iff.mp
      have hpos := List.length_pos_of_mem hmem
      omega
    rw [honly, List.mem_singleton] at hmem hprev
    rw [hmem, hprev]

/-- Where the query finds no view, all of them are over. -/
theorem not_isOpen_of_pick_eq_none
    (hpick : order.pick (t.rows.filter fun e => isView visitorId documentId e && e.isOpen) = none)
    {e : EventRow} (he : e ∈ views t.rows visitorId documentId) : e.isOpen = false := by
  by_contra hopen
  have hmem : e ∈ t.rows.filter fun e => isView visitorId documentId e && e.isOpen := by
    rw [List.mem_filter, Bool.and_eq_true]
    exact ⟨List.mem_of_mem_filter he, List.of_mem_filter he, Bool.eq_true_of_not_eq_false hopen⟩
  obtain ⟨prev, hprev⟩ := order.found _ (List.ne_nil_of_mem hmem)
  rw [hpick] at hprev
  cases hprev

/-- Whether the call is a view of the document by the visitor. -/
def Views (c : Call) (visitorId documentId : Int) : Prop :=
  c.data.visitorId = visitorId ∧ nonzero c.data.documentId = some documentId ∧
    c.data.eventType = "page_viewed"

instance decidableViews (c : Call) (visitorId documentId : Int) :
    Decidable (Views c visitorId documentId) := inferInstanceAs (Decidable (_ ∧ _ ∧ _))

/-- The previous view of the visitor, if the call has one to fill in. -/
def previous (order : FirstBy LatestRow) (rows : List EventRow) (c : Call) : Option EventRow :=
  (nonzero c.data.documentId).bind fun documentId =>
    if c.data.eventType = "page_viewed" then
      order.pick (rows.filter fun e => isView c.data.visitorId documentId e && e.isOpen)
    else none

theorem backfill_eq (order : FirstBy LatestRow) (rows : List EventRow) (c : Call) :
    backfill order rows c =
      rows.map fun e => if (previous order rows c).any (fun prev => decide (e.id = prev.id)) then
        e.fill c.updated else e := by
  unfold backfill previous
  cases nonzero c.data.documentId with
  | none => simp
  | some documentId =>
    by_cases htype : c.data.eventType = "page_viewed"
    · simp only [htype, if_true, Option.bind_some]
      cases order.pick (rows.filter fun e => isView c.data.visitorId documentId e && e.isOpen) with
      | none => simp
      | some prev => simp
    · simp [htype]

theorem previous_eq_some {rows : List EventRow} {prev : EventRow}
    (h : previous order rows c = some prev) :
    prev ∈ rows ∧ ∀ visitorId documentId, isView visitorId documentId prev = true ↔
      Views c visitorId documentId := by
  obtain ⟨document, hdocument, h⟩ := Option.bind_eq_some_iff.mp h
  split at h
  · rename_i htype
    have hmem := order.mem _ _ h
    rw [List.mem_filter, Bool.and_eq_true, isView_eq_true] at hmem
    obtain ⟨hrow, ⟨hvisitor, hprev, htype'⟩, -⟩ := hmem
    refine ⟨hrow, fun visitorId documentId => ?_⟩
    rw [isView_eq_true, Views, hvisitor, hprev, hdocument]
    tauto
  · cases h

theorem previous_of_views {rows : List EventRow} (h : Views c visitorId documentId) :
    previous order rows c =
      order.pick (rows.filter fun e => isView visitorId documentId e && e.isOpen) := by
  obtain ⟨rfl, hdocument, htype⟩ := h
  rw [previous, hdocument, Option.bind_some, if_pos htype]

theorem views_backfill (order : FirstBy LatestRow) (rows : List EventRow) (c : Call)
    (visitorId documentId : Int) :
    views (backfill order rows c) visitorId documentId =
      (views rows visitorId documentId).map fun e =>
        if (previous order rows c).any (fun prev => decide (e.id = prev.id)) then
          e.fill c.updated else e := by
  rw [backfill_eq, views, views]
  apply filter_map_of_keeps
  intro e
  split
  · exact isView_fill c.updated e
  · rfl

/-- Views of which the call is none stay as they are. -/
theorem Staying.views_backfill_of_not (h : Staying t) (hnot : ¬ Views c visitorId documentId) :
    views (backfill order t.rows c) visitorId documentId = views t.rows visitorId documentId := by
  rw [views_backfill]
  refine (List.map_congr_left fun e he => ?_).trans (List.map_id _)
  rw [if_neg, id]
  intro hany
  obtain ⟨prev, hprev, hid⟩ := (Option.any_eq_true _ _).mp hany
  obtain ⟨hmem, hviews⟩ := previous_eq_some hprev
  have hsame : e = prev :=
    h.keyed.eq_of_key (List.mem_of_mem_filter he) hmem (of_decide_eq_true hid)
  exact hnot ((hviews visitorId documentId).mp (hsame ▸ List.of_mem_filter he))

/-- A view ends the one before it. -/
theorem Staying.views_backfill_of_views (h : Staying t) (hviews : Views c visitorId documentId) :
    views (backfill order t.rows c) visitorId documentId =
      (views t.rows visitorId documentId).map (close c.updated) := by
  rw [views_backfill, previous_of_views hviews]
  apply List.map_congr_left
  intro e he
  cases hpick : order.pick (t.rows.filter fun e => isView visitorId documentId e && e.isOpen) with
  | none => simp [close, not_isOpen_of_pick_eq_none hpick he]
  | some prev => simp [close, h.pick_eq_some hpick he]

/-! ### What one call keeps -/

/-- The times of the rows have come when the call is made, and who and what they are about is
still there. -/
def Behind (t : EventTable) (c : Call) : Prop :=
  ∀ e ∈ t.rows, e.createdAt ≤ c.inserted ∧ e.visitorId ∈ c.referents.visitors ∧
    ∀ documentId ∈ e.documentId, documentId ∈ c.referents.documents

theorem isView_newRow (id : Nat) :
    isView visitorId documentId (newRow stringify id c) = true ↔ Views c visitorId documentId := by
  rw [isView_eq_true]
  exact Iff.rfl

/-- A call whose insertion throws has no earlier row to fill in. -/
theorem Behind.backfill_of_not_refers (h : Behind t c) (hroom : c.data.roomId ∈ c.referents.rooms)
    (hrefers : ¬ Refers c) : backfill order t.rows c = t.rows := by
  have hprevious : previous order t.rows c = none := by
    by_contra hsome
    obtain ⟨prev, hprev⟩ := Option.ne_none_iff_exists'.mp hsome
    obtain ⟨hmem, hviews⟩ := previous_eq_some hprev
    obtain ⟨documentId, hdocument, -⟩ := Option.bind_eq_some_iff.mp hprev
    obtain ⟨-, hvisitors, hdocuments⟩ := h prev hmem
    have htype : c.data.eventType = "page_viewed" := by
      by_contra htype
      simp [previous, htype] at hprev
    obtain ⟨hvisitor, hprevDocument, -⟩ :=
      isView_eq_true.mp ((hviews c.data.visitorId documentId).mpr ⟨rfl, hdocument, htype⟩)
    apply hrefers
    refine ⟨hvisitor ▸ hvisitors, hroom, fun other hother => ?_⟩
    obtain rfl : documentId = other := Option.some.inj (hdocument.symm.trans hother)
    exact hdocuments documentId hprevDocument
  rw [backfill_eq, hprevious]
  simp

theorem mem_backfill {e : EventRow} (h : e ∈ backfill order t.rows c) :
    ∃ e' ∈ t.rows, e.id = e'.id ∧ e.createdAt = e'.createdAt ∧ e.visitorId = e'.visitorId ∧
      e.documentId = e'.documentId := by
  rw [backfill_eq] at h
  obtain ⟨e', he', rfl⟩ := List.mem_map.mp h
  refine ⟨e', he', ?_⟩
  split <;> exact ⟨rfl, rfl, rfl, rfl⟩

theorem Staying.keyed_backfill (h : Staying t) (c : Call) :
    Keyed EventRow.id (backfill order t.rows c) t.nextId := by
  rw [backfill_eq]
  apply h.keyed.map
  intro e
  split <;> rfl

theorem Staying.ordered_backfill (h : Staying t) (c : Call) :
    (backfill order t.rows c).Pairwise fun e e' => e.id < e'.id ∧ e.createdAt ≤ e'.createdAt := by
  rw [backfill_eq, List.pairwise_map]
  apply h.ordered.imp
  intro e e' hordered
  split <;> split <;> exact hordered

/-- The views of a document once a row is inserted, in terms of those before the call. -/
theorem Staying.stayed_insert (h : Staying t) (hsteady : c.updated = c.inserted)
    (hundurated : c.data.eventType = "page_viewed" → nonzero c.data.durationSeconds = none)
    (visitorId documentId : Int) :
    let rows := backfill order t.rows c ++ [newRow stringify t.nextId c]
    (views rows visitorId documentId).map stayOf =
      stays ((views rows visitorId documentId).map fun e => (e.createdAt : Rat)) := by
  intro rows
  have hsplit : views rows visitorId documentId =
      views (backfill order t.rows c) visitorId documentId ++
        [newRow stringify t.nextId c].filter (isView visitorId documentId) :=
    List.filter_append _ _
  by_cases hviews : Views c visitorId documentId
  · have hnew : [newRow stringify t.nextId c].filter (isView visitorId documentId) =
        [newRow stringify t.nextId c] := by
      rw [List.filter_cons_of_pos ((isView_newRow _).mpr hviews), List.filter_nil]
    have hstay : stayOf (newRow stringify t.nextId c) = ⟨(c.inserted : Rat), none⟩ := by
      rw [stayOf, newRow, hundurated hviews.2.2]
    have hclose : stayOf ∘ close c.updated = Stay.leave (c.inserted : Rat) ∘ stayOf := by
      funext e
      rw [Function.comp, stayOf_close, hsteady, Function.comp]
    have htimes : (fun e : EventRow => (e.createdAt : Rat)) ∘ close c.updated =
        fun e => (e.createdAt : Rat) := by
      funext e
      rw [Function.comp, createdAt_close]
    rw [hsplit, hnew, h.views_backfill_of_views hviews]
    simp only [List.map_append, List.map_map, List.map_cons, List.map_nil, hclose, htimes, hstay]
    rw [← List.map_map, h.stayed visitorId documentId]
    exact (stays_append_singleton _ _).symm
  · have hnew : [newRow stringify t.nextId c].filter (isView visitorId documentId) = [] := by
      rw [List.filter_cons_of_neg (fun hview => hviews ((isView_newRow _).mp hview)),
        List.filter_nil]
    rw [hsplit, hnew, List.append_nil, h.views_backfill_of_not hviews]
    exact h.stayed visitorId documentId

theorem Staying.recordEvent (h : Staying t) (hbehind : Behind t c)
    (hsteady : c.updated = c.inserted) (hroom : c.data.roomId ∈ c.referents.rooms)
    (hundurated : c.data.eventType = "page_viewed" → nonzero c.data.durationSeconds = none) :
    Staying (recordEvent order stringify t c).1 := by
  rw [RecordedEvents.recordEvent]
  by_cases hrefers : Refers c
  · rw [if_pos hrefers]
    refine ⟨(h.keyed_backfill c).snoc rfl, ?_, h.stayed_insert hsteady hundurated⟩
    refine List.pairwise_append.mpr ⟨h.ordered_backfill c, List.pairwise_singleton _ _, ?_⟩
    intro e he e' he'
    obtain rfl := List.mem_singleton.mp he'
    obtain ⟨old, hold, hid, hcreated, -⟩ := mem_backfill he
    exact ⟨hid ▸ h.keyed.fresh old hold, hcreated ▸ (hbehind old hold).1⟩
  · rw [if_neg hrefers, hbehind.backfill_of_not_refers hroom hrefers]
    exact h

/-! ### What a run of calls keeps -/

/-- The later call finds whatever the earlier one found, and no earlier time. -/
structure Precedes (c c' : Call) : Prop where
  clock : c.inserted ≤ c'.updated
  visitors : c.referents.visitors ⊆ c'.referents.visitors
  documents : c.referents.documents ⊆ c'.referents.documents

instance decidablePrecedes : DecidableRel Precedes := fun c c' =>
  decidable_of_iff (c.inserted ≤ c'.updated ∧ c.referents.visitors ⊆ c'.referents.visitors ∧
      c.referents.documents ⊆ c'.referents.documents)
    ⟨fun h => ⟨h.1, h.2.1, h.2.2⟩, fun h => ⟨h.clock, h.visitors, h.documents⟩⟩

/-- Calls whose views come without a duration, at times that do not go back and at one time each.
Their rooms are there, since the routes read the room before they record anything about it. -/
structure Orderly (calls : List Call) : Prop where
  steady : ∀ c ∈ calls, c.updated = c.inserted
  forward : calls.Pairwise Precedes
  room : ∀ c ∈ calls, c.data.roomId ∈ c.referents.rooms
  undurated : ∀ c ∈ calls, c.data.eventType = "page_viewed" → nonzero c.data.durationSeconds = none

theorem record_append_singleton (calls : List Call) (c : Call) :
    record order stringify (calls ++ [c]) =
      (RecordedEvents.recordEvent order stringify (record order stringify calls) c).1 := by
  rw [record, List.foldl_append]
  rfl

theorem Behind.recordEvent {c' : Call} (h : Behind t c') (hprecedes : Precedes c c')
    (hsteady : c'.updated = c'.inserted) :
    Behind (RecordedEvents.recordEvent order stringify t c).1 c' := by
  have hold : ∀ e ∈ backfill order t.rows c, e.createdAt ≤ c'.inserted ∧
      e.visitorId ∈ c'.referents.visitors ∧
      ∀ documentId ∈ e.documentId, documentId ∈ c'.referents.documents := by
    intro e he
    obtain ⟨old, hold, -, hcreated, hvisitor, hdocument⟩ := mem_backfill he
    rw [hcreated, hvisitor, hdocument]
    exact h old hold
  rw [RecordedEvents.recordEvent]
  by_cases hrefers : Refers c
  · rw [if_pos hrefers]
    intro e he
    rcases List.mem_append.mp he with he | he
    · exact hold e he
    · obtain rfl := List.mem_singleton.mp he
      refine ⟨hsteady ▸ hprecedes.clock, hprecedes.visitors hrefers.1, ?_⟩
      intro documentId hdocument
      exact hprecedes.documents (hrefers.2.2 documentId hdocument)
  · rw [if_neg hrefers]
    exact hold

theorem staying_empty : Staying .empty := by
  refine ⟨⟨List.nodup_nil, ?_⟩, List.Pairwise.nil, fun _ _ => rfl⟩
  simp [EventTable.empty]

theorem behind_record {c : Call} (hsteady : c.updated = c.inserted)
    (h : ∀ c' ∈ calls, Precedes c' c) : Behind (record order stringify calls) c := by
  induction calls using List.reverseRecOn with
  | nil => simp [Behind, record, EventTable.empty]
  | append_singleton calls c' ih =>
    rw [record_append_singleton]
    have hbehind : Behind (record order stringify calls) c :=
      ih fun earlier hearlier => h earlier (List.mem_append_left _ hearlier)
    exact hbehind.recordEvent (h c' (List.mem_append_right _ List.mem_cons_self)) hsteady

theorem Orderly.staying_record (h : Orderly calls) : Staying (record order stringify calls) := by
  induction calls using List.reverseRecOn with
  | nil => exact staying_empty
  | append_singleton calls c ih =>
    have hlast : c ∈ calls ++ [c] := List.mem_append_right _ List.mem_cons_self
    obtain ⟨hforward, -, hbefore⟩ := List.pairwise_append.mp h.forward
    have hearlier : Orderly calls := by
      refine ⟨?_, hforward, ?_, ?_⟩
      · exact fun c' hc' => h.steady c' (List.mem_append_left _ hc')
      · exact fun c' hc' => h.room c' (List.mem_append_left _ hc')
      · exact fun c' hc' => h.undurated c' (List.mem_append_left _ hc')
    have hbehind : Behind (record order stringify calls) c :=
      behind_record (h.steady c hlast) fun c' hc' => hbefore c' hc' c List.mem_cons_self
    rw [record_append_singleton]
    exact (ih hearlier).recordEvent hbehind (h.steady c hlast) (h.room c hlast)
      (h.undurated c hlast)

/-! ### The durations -/

/-- The duration of a view is the time until the next view, if there is one. -/
theorem Staying.duration (h : Staying t) {i : Nat} {row : EventRow}
    (hrow : (views t.rows visitorId documentId)[i]? = some row) :
    row.durationSeconds = (views t.rows visitorId documentId)[i + 1]?.map
      fun next => ((next.createdAt - row.createdAt : Int) : Rat) := by
  have hstay : (stays ((views t.rows visitorId documentId).map fun e =>
      (e.createdAt : Rat)))[i]? = some (stayOf row) := by
    rw [← h.stayed visitorId documentId, List.getElem?_map, hrow, Option.map_some]
  have hlasted := getElem?_stays hstay
  rw [List.getElem?_map, Option.map_map] at hlasted
  rw [← show (stayOf row).lasted = row.durationSeconds from rfl, hlasted]
  apply congrArg fun f => Option.map f _
  funext next
  simp [stayOf]

/-- The views of a document by a visitor: they are in the order of their insertion, only the last
of them has no duration, and every other lasts until the next. -/
theorem page_views_stay (order : FirstBy LatestRow)
    (stringify : List (String × Json) → String) (calls : List Call) (h : Orderly calls)
    (visitorId documentId : Int) :
    let rows := views (record order stringify calls).rows visitorId documentId
    rows.Pairwise (fun e e' => e.id < e'.id) ∧
      rows.countP EventRow.isOpen ≤ 1 ∧
      (∀ i row, rows[i]? = some row → row.durationSeconds = none → i + 1 = rows.length) ∧
      (∀ i row next, rows[i]? = some row → rows[i + 1]? = some next →
        row.durationSeconds = some ((next.createdAt - row.createdAt : Int) : Rat)) ∧
      ∀ row ∈ rows, ∀ duration ∈ row.durationSeconds, 0 ≤ duration := by
  intro rows
  have hstaying : Staying (record order stringify calls) := h.staying_record
  have hordered : rows.Pairwise fun e e' => e.id < e'.id ∧ e.createdAt ≤ e'.createdAt :=
    hstaying.ordered.sublist List.filter_sublist
  refine ⟨hordered.imp And.left, hstaying.countP_isOpen visitorId documentId, ?_, ?_, ?_⟩
  · intro i row hrow hnone
    rw [hstaying.duration hrow, Option.map_eq_none_iff, List.getElem?_eq_none_iff] at hnone
    have hi := (List.getElem?_eq_some_iff.mp hrow).1
    exact Nat.le_antisymm hi hnone
  · intro i row next hrow hnext
    rw [hstaying.duration hrow, hnext, Option.map_some]
  · intro row hrow duration hduration
    obtain ⟨i, hi⟩ := List.mem_iff_getElem?.mp hrow
    rw [hstaying.duration hi] at hduration
    obtain ⟨next, hnext, rfl⟩ := Option.map_eq_some_iff.mp hduration
    obtain ⟨hlt, rfl⟩ := List.getElem?_eq_some_iff.mp hi
    obtain ⟨hlt', rfl⟩ := List.getElem?_eq_some_iff.mp hnext
    have hle := (List.pairwise_iff_getElem.mp hordered i (i + 1) hlt hlt' (Nat.lt_succ_self i)).2
    exact Rat.intCast_nonneg.mpr (Int.sub_nonneg_of_le hle)

def byTime : FirstBy LatestRow := FirstBy.first sorts_latestRow

/-- An event without further data at a time, in a room with two visitors and two documents. -/
def eventAt (now visitorId documentId : Int) (eventType : String) : Call :=
  { data := ⟨visitorId, 1, some documentId, eventType, some 1, none, none⟩
    referents := ⟨[4, 5], [1], [2, 3]⟩
    updated := now
    inserted := now }

/-- Two visitors take turns with two documents; one of them views two pages in one second. -/
def visits : List Call :=
  [eventAt 100 4 2 "doc_viewed", eventAt 100 4 2 "page_viewed", eventAt 100 4 2 "page_viewed",
    eventAt 103 5 2 "page_viewed", eventAt 104 4 3 "page_viewed", eventAt 109 4 2 "page_viewed"]

example : (views (record byTime (fun _ => "{}") visits).rows 4 2).map EventRow.durationSeconds =
    [some 0, some 9, none] := by decide +kernel

theorem visits_stay : Orderly visits ∧
    (views (record byTime (fun _ => "{}") visits).rows 4 2).countP EventRow.isOpen ≤ 1 := by
  have horderly : Orderly visits := ⟨by decide, by decide, by decide, by decide⟩
  exact ⟨horderly, (page_views_stay byTime (fun _ => "{}") visits horderly 4 2).2.1⟩

end MissionControl.DataRooms.PageViews
