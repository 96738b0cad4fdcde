import MissionControl.Events.RoomView

/-!
The steps of the data rooms. A request changes only rows of the workspace that it is about, and what
it does to them and announces depends on no others.
-/

set_option autoImplicit false
set_option relaxedAutoImplicit false

namespace MissionControl.Events.RoomSteps

open MissionControl.Foundations.JsText
open MissionControl.Foundations.Lists
open MissionControl.Foundations.Query
open MissionControl.DataRooms.LinkSessions
open MissionControl.DataRooms.Rooms
open MissionControl.DataRooms.Routes hiding World Event perform machine
open MissionControl.Events.Bus
open MissionControl.Events.Stream
open RoomView

variable {labels : Labels} {workspaceId : Nat} {order : FirstBy LatestEvent} {t t' : Tables}

/-! ### The other workspaces -/

/-- The tables with the id that the next row gets. -/
def numbered (id : Nat) (t : Tables) : Tables :=
  { t with nextRoomId := id, nextDocumentId := id, nextLinkId := id, nextVisitorId := id }

/-- What a workspace sees of the tables. -/
def seen (labels : Labels) (workspaceId : Nat) (t : Tables) : Tables :=
  view labels workspaceId (numbered 0 t)

theorem seen_eq_of_view (h : view labels workspaceId t = view labels workspaceId t') :
    seen labels workspaceId t = seen labels workspaceId t' :=
  congrArg (numbered 0) h

/-- Only the rows of one workspace change. -/
structure Confined (labels : Labels) (owner : Nat) (t t' : Tables) : Prop where
  labelled : Labelled labels t'
  others : ∀ other, other ≠ owner → seen labels other t' = seen labels other t

variable {owner : Nat}

theorem confined_refl (hl : Labelled labels t) : Confined labels owner t t := ⟨hl, fun _ _ => rfl⟩

theorem confined_of_unrecorded (hl : Labelled labels t) (h : unrecorded t' = unrecorded t) :
    Confined labels owner t t' := by
  have hl' : Labelled labels (unrecorded t') := by
    rw [h]
    exact ⟨hl.rooms, hl.documents, hl.links, hl.visitors, hl.visitorLinks⟩
  refine ⟨⟨hl'.rooms, hl'.documents, hl'.links, hl'.visitors, hl'.visitorLinks⟩, fun other _ => ?_⟩
  show seen labels other (unrecorded t') = seen labels other (unrecorded t)
  rw [h]

theorem confined_createRoom (hl : Labelled labels t) (hnew : labels.room t.nextRoomId = owner)
    {name slug : String} (h : createRoom t owner name slug = .ok t') :
    Confined labels owner t t' := by
  rw [createRoom] at h
  split at h
  · cases h
  · obtain rfl := Except.ok.inj h
    refine ⟨⟨?_, hl.documents, hl.links, hl.visitors, hl.visitorLinks⟩, fun other hother => ?_⟩
    · intro r hr
      rcases List.mem_append.mp hr with hr | hr
      · exact hl.rooms r hr
      · rw [List.mem_singleton.mp hr]
        exact hnew
    · simp [seen, view, numbered, hnew, hother.symm]

theorem confined_updateRoom (hl : Labelled labels t) {id : Nat} (howner : labels.room id = owner)
    {updates : RoomUpdates} (h : updateRoom t id updates = .ok t') :
    Confined labels owner t t' := by
  rw [updateRoom] at h
  split at h
  · cases h
  · obtain rfl := Except.ok.inj h
    refine ⟨⟨?_, hl.documents, hl.links, hl.visitors, hl.visitorLinks⟩, fun other hother => ?_⟩
    · intro r hr
      obtain ⟨r₀, hr₀, rfl⟩ := List.mem_map.mp hr
      split
      · exact hl.rooms r₀ hr₀
      · exact hl.rooms r₀ hr₀
    · simp only [seen, view, numbered, Tables.mk.injEq, and_true]
      apply filter_map_of_id
      · intro r
        split
        · rfl
        · rfl
      · intro r hr
        rw [if_neg]
        rintro rfl
        exact hother ((of_decide_eq_true hr).symm.trans howner)

theorem confined_deleteRoom (hl : Labelled labels t) {id : Nat} (howner : labels.room id = owner) :
    Confined labels owner t (deleteRoom t id) := by
  refine ⟨⟨fun r hr => hl.rooms r (List.mem_of_mem_filter hr),
    fun d hd => hl.documents d (List.mem_of_mem_filter hd),
    fun l h => hl.links l (List.mem_of_mem_filter h),
    fun v hv => hl.visitors v (List.mem_of_mem_filter hv),
    fun v hv => hl.visitorLinks v (List.mem_of_mem_filter hv)⟩, fun other hother => ?_⟩
  have hne : ∀ i, labels.room i = other → i ≠ id := by
    rintro i hi rfl
    exact hother (hi.symm.trans howner)
  simp only [seen, view, numbered, deleteRoom, Tables.mk.injEq, and_true]
  refine ⟨filter_filter_of_imp fun r _ hr => ?_, filter_filter_of_imp fun d _ hd => ?_,
    filter_filter_of_imp fun l _ hl => ?_, filter_filter_of_imp fun v _ hv => ?_⟩
  · exact decide_eq_true (hne _ (of_decide_eq_true hr))
  · exact decide_eq_true (hne _ (of_decide_eq_true hd))
  · exact decide_eq_true (hne _ (of_decide_eq_true hl))
  · exact decide_eq_true (hne _ (of_decide_eq_true hv))

theorem confined_addDocument (hl : Labelled labels t) {roomId : Nat}
    (howner : labels.room roomId = owner) (hnew : labels.document t.nextDocumentId = owner)
    (filename originalName mimeType : String) (allowDownload : Bool) :
    Confined labels owner t
      (addDocument t roomId filename originalName mimeType allowDownload) := by
  refine ⟨⟨hl.rooms, ?_, hl.links, hl.visitors, hl.visitorLinks⟩, fun other hother => ?_⟩
  · intro d hd
    rcases List.mem_append.mp hd with hd | hd
    · exact hl.documents d hd
    · rw [List.mem_singleton.mp hd]
      exact hnew.trans howner.symm
  · simp [seen, view, numbered, addDocument, howner, hother.symm]

theorem confined_updateDocument (hl : Labelled labels t) {id : Nat}
    (howner : labels.document id = owner) (allowDownload : Option Bool) :
    Confined labels owner t (updateDocument t id allowDownload) := by
  refine ⟨⟨hl.rooms, ?_, hl.links, hl.visitors, hl.visitorLinks⟩, fun other hother => ?_⟩
  · intro d hd
    obtain ⟨d₀, hd₀, rfl⟩ := List.mem_map.mp hd
    split
    · exact hl.documents d₀ hd₀
    · exact hl.documents d₀ hd₀
  · simp only [seen, view, numbered, updateDocument, Tables.mk.injEq, and_true, true_and]
    apply filter_map_unchanged
    · intro d _
      split
      · rfl
      · rfl
    · intro d hd hother'
      rw [if_neg]
      rintro rfl
      exact hother ((of_decide_eq_true hother').symm.trans ((hl.documents d hd).symm.trans howner))

theorem confined_deleteDocument (hl : Labelled labels t) {id : Nat}
    (howner : labels.document id = owner) : Confined labels owner t (deleteDocument t id) := by
  refine ⟨⟨hl.rooms, fun d hd => hl.documents d (List.mem_of_mem_filter hd), hl.links, hl.visitors,
    hl.visitorLinks⟩, fun other hother => ?_⟩
  simp only [seen, view, numbered, deleteDocument, Tables.mk.injEq, and_true, true_and]
  apply filter_filter_of_imp
  intro d hd hother'
  apply decide_eq_true
  rintro rfl
  exact hother ((of_decide_eq_true hother').symm.trans ((hl.documents d hd).symm.trans howner))

theorem confined_createLink (hl : Labelled labels t) {roomId : Nat}
    (howner : labels.room roomId = owner) (hnew : labels.link t.nextLinkId = owner)
    {passcode : Option String} {allowDownload : Bool} {expiresAt : Option Nat} {token : String}
    (h : createLink t roomId passcode allowDownload expiresAt token = .ok t') :
    Confined labels owner t t' := by
  rw [createLink] at h
  split at h
  · cases h
  · obtain rfl := Except.ok.inj h
    refine ⟨⟨hl.rooms, hl.documents, ?_, hl.visitors, hl.visitorLinks⟩, fun other hother => ?_⟩
    · intro l hl'
      rcases List.mem_append.mp hl' with hl' | hl'
      · exact hl.links l hl'
      · rw [List.mem_singleton.mp hl']
        exact hnew.trans howner.symm
    · simp [seen, view, numbered, howner, hother.symm]

theorem confined_updateLink (hl : Labelled labels t) {id : Nat} (howner : labels.link id = owner)
    (updates : LinkUpdates) : Confined labels owner t (updateLink t id updates) := by
  refine ⟨⟨hl.rooms, hl.documents, ?_, hl.visitors, hl.visitorLinks⟩, fun other hother => ?_⟩
  · intro l hl'
    obtain ⟨l₀, hl₀, rfl⟩ := List.mem_map.mp hl'
    split
    · exact hl.links l₀ hl₀
    · exact hl.links l₀ hl₀
  · simp only [seen, view, numbered, updateLink, Tables.mk.injEq, and_true, true_and]
    apply filter_map_unchanged
    · intro l _
      split
      · rfl
      · rfl
    · intro l hmem hother'
      rw [if_neg]
      rintro rfl
      exact hother ((of_decide_eq_true hother').symm.trans ((hl.links l hmem).symm.trans howner))

theorem confined_deleteLink (hl : Labelled labels t) {id : Nat} (howner : labels.link id = owner) :
    Confined labels owner t (deleteLink t id) := by
  refine ⟨⟨hl.rooms, hl.documents, fun l h => hl.links l (List.mem_of_mem_filter h),
    fun v hv => hl.visitors v (List.mem_of_mem_filter hv),
    fun v hv => hl.visitorLinks v (List.mem_of_mem_filter hv)⟩, fun other hother => ?_⟩
  simp only [seen, view, numbered, deleteLink, Tables.mk.injEq, and_true, true_and]
  constructor
  · apply filter_filter_of_imp
    intro l hmem hother'
    apply decide_eq_true
    rintro rfl
    exact hother ((of_decide_eq_true hother').symm.trans ((hl.links l hmem).symm.trans howner))
  · apply filter_filter_of_imp
    intro v hmem hother'
    apply decide_eq_true
    rintro rfl
    exact hother
      ((of_decide_eq_true hother').symm.trans ((hl.visitorLinks v hmem).symm.trans howner))

theorem confined_createVisitor (hl : Labelled labels t) {data : NewVisitor} {sessionToken : String}
    {visitor : DataRoomVisitor} (hroom : labels.room data.roomId = owner)
    (hlink : labels.link data.linkId = owner) (hnew : labels.visitor t.nextVisitorId = owner)
    (h : createVisitor t data sessionToken = .ok (t', visitor)) :
    Confined labels owner t t' := by
  rw [createVisitor] at h
  split at h
  · rename_i existing hexisting
    split at h
    · cases h
    · obtain ⟨rfl, rfl⟩ := Prod.mk.inj (Except.ok.inj h)
      have hmem := List.mem_of_find?_eq_some hexisting
      have hsame : existing.linkId = data.linkId ∧ existing.email = data.email :=
        of_decide_eq_true (List.find?_some hexisting :)
      have hexistingRoom : labels.room existing.roomId = owner := by
        rw [← hl.visitorLinks existing hmem, hsame.1, hlink]
      refine ⟨⟨hl.rooms, hl.documents, hl.links, ?_, ?_⟩, fun other hother => ?_⟩
      · intro v hv
        obtain ⟨v₀, hv₀, rfl⟩ := List.mem_map.mp hv
        split
        · exact hl.visitors existing hmem
        · exact hl.visitors v₀ hv₀
      · intro v hv
        obtain ⟨v₀, hv₀, rfl⟩ := List.mem_map.mp hv
        split
        · exact hl.visitorLinks existing hmem
        · exact hl.visitorLinks v₀ hv₀
      · simp only [seen, view, numbered, Tables.mk.injEq, and_true, true_and]
        have hroomOf : ∀ v ∈ t.visitors, v.id = existing.id → labels.room v.roomId = owner := by
          intro v hv hid
          rw [← hl.visitors v hv, hid, hl.visitors existing hmem, hexistingRoom]
        apply filter_map_unchanged
        · intro v hv
          split
          · rename_i hid
            rw [hexistingRoom, hroomOf v hv hid]
          · rfl
        · intro v hv hother'
          rw [if_neg]
          intro hid
          exact hother ((of_decide_eq_true hother').symm.trans (hroomOf v hv hid))
  · split at h
    · cases h
    · split at h
      · cases h
      · obtain ⟨rfl, rfl⟩ := Prod.mk.inj (Except.ok.inj h)
        refine ⟨⟨hl.rooms, hl.documents, hl.links, ?_, ?_⟩, fun other hother => ?_⟩
        · intro v hv
          rcases List.mem_append.mp hv with hv | hv
          · exact hl.visitors v hv
          · rw [List.mem_singleton.mp hv]
            exact hnew.trans hroom.symm
        · intro v hv
          rcases List.mem_append.mp hv with hv | hv
          · exact hl.visitorLinks v hv
          · rw [List.mem_singleton.mp hv]
            exact hlink.trans hroom.symm
        · simp [seen, view, numbered, hroom, hother.symm]

theorem confined_caught (hl : Labelled labels t) {failed : String → Reply}
    {x : Except String Tables} (h : ∀ t', x = .ok t' → Confined labels owner t t') :
    Confined labels owner t (caught t failed x).1 := by
  cases x with
  | error e => exact confined_refl hl
  | ok t' => exact h t' rfl

theorem confined_withLink (hl : Labelled labels t) {roomId linkId : Nat} {change : Tables}
    (howner : labels.room roomId = owner)
    (h : labels.link linkId = owner → Confined labels owner t change) :
    Confined labels owner t (withLink t roomId linkId change).1 := by
  rw [withLink]
  split
  · exact confined_refl hl
  · split
    · rename_i hfound
      obtain ⟨l, hmem, hsame⟩ := List.any_eq_true.mp hfound
      obtain ⟨rfl, rfl⟩ := of_decide_eq_true hsame
      exact h ((hl.links l hmem).trans howner)
    · exact confined_refl hl

theorem confined_withDocument (hl : Labelled labels t) {roomId docId : Nat} {change : Tables}
    (howner : labels.room roomId = owner)
    (h : labels.document docId = owner → Confined labels owner t change) :
    Confined labels owner t (withDocument t roomId docId change).1 := by
  rw [withDocument_eq]
  split
  · exact confined_refl hl
  · split
    · exact confined_refl hl
    · rename_i hfound
      obtain ⟨doc, hdoc⟩ := Option.ne_none_iff_exists'.mp hfound
      obtain ⟨hget, rfl⟩ := documentIn_eq_some_iff.mp hdoc
      obtain ⟨hmem, rfl⟩ := getDocument_eq_some hget
      exact h ((hl.documents doc hmem).trans howner)

theorem confined_putRoom (hl : Labelled labels t) {roomId : Nat}
    (howner : labels.room roomId = owner) (updates : RoomUpdates) :
    Confined labels owner t (putRoom t roomId updates).1 := by
  rw [putRoom]
  split
  · exact confined_refl hl
  · exact confined_caught hl fun t' h => confined_updateRoom hl howner h

theorem confined_removeRoom (hl : Labelled labels t) {roomId : Nat}
    (howner : labels.room roomId = owner) : Confined labels owner t (removeRoom t roomId).1 := by
  rw [removeRoom]
  split
  · exact confined_refl hl
  · exact confined_deleteRoom hl howner

theorem confined_postLink (hl : Labelled labels t) {roomId : Nat}
    (howner : labels.room roomId = owner) (hnew : labels.link t.nextLinkId = owner)
    {passcode : Option String} {allowDownload : Bool} {expiresAt : Option Nat} {token : String} :
    Confined labels owner t (postLink t roomId passcode allowDownload expiresAt token).1 := by
  rw [postLink]
  split
  · exact confined_refl hl
  · exact confined_caught hl fun t' h => confined_createLink hl howner hnew h

theorem confined_finishEnter (hl : Labelled labels t) {e : Entering}
    (hroom : labels.room e.room.id = owner) (hlink : labels.link e.link.id = owner)
    (hnew : labels.visitor t.nextVisitorId = owner) (body : Body EnterRoom) (sessionToken : String)
    (notified : Bool) :
    Confined labels owner t (finishEnter t e body sessionToken notified).1 := by
  cases body with
  | notJson => exact confined_refl hl
  | rejected => exact confined_refl hl
  | parsed data =>
    rw [finishEnter]
    split
    · exact confined_refl hl
    · split
      · exact confined_refl hl
      · rename_i hcreated
        exact confined_createVisitor hl hroom hlink hnew hcreated

/-! ### Requests -/

/-- What a workspace sees of the rooms: its rows, and its requests that wait. -/
def viewed (labels : Labels) (workspaceId : Nat) (rooms : DataRooms.Routes.World) :
    DataRooms.Routes.World where
  tables := seen labels workspaceId rooms.tables
  rateLimitMap := []
  entering := rooms.entering.filter fun e => labels.room e.room.id = workspaceId
  reporting := rooms.reporting.filter fun r => labels.room r.room.id = workspaceId

/-- The rows and the suspended requests are labelled. -/
structure Suited (labels : Labels) (rooms : DataRooms.Routes.World) : Prop where
  tables : Labelled labels rooms.tables
  entering : ∀ e ∈ rooms.entering, labels.link e.link.id = labels.room e.room.id
  reporting : ∀ r ∈ rooms.reporting, labels.visitor r.visitor.id = labels.room r.room.id

/-- The rooms are as they have to be, and those of the other workspaces as they were. -/
structure Steps (labels : Labels) (owner : Nat) (rooms rooms' : DataRooms.Routes.World) : Prop where
  suited : Suited labels rooms'
  others : ∀ other, other ≠ owner → viewed labels other rooms' = viewed labels other rooms

/-- What waits is as it was, but for one request of the workspace that has come or gone. -/
inductive Queued {α : Type} [BEq α] (room : α → Nat) (labels : Labels) (owner : Nat)
    (fits : α → Prop) : List α → List α → Prop
  | kept {l : List α} : Queued room labels owner fits l l
  | come {l : List α} {a : α} : labels.room (room a) = owner → fits a →
      Queued room labels owner fits l (l ++ [a])
  | gone {l : List α} {a : α} : labels.room (room a) = owner →
      Queued room labels owner fits l (l.erase a)

namespace Queued

variable {α : Type} [BEq α] {room : α → Nat} {fits : α → Prop} {l l' : List α}

theorem fits_of_mem (h : Queued room labels owner fits l l') (hl : ∀ a ∈ l, fits a) :
    ∀ a ∈ l', fits a := by
  cases h with
  | kept => exact hl
  | come _ hfits =>
    intro a ha
    rcases List.mem_append.mp ha with ha | ha
    · exact hl a ha
    · rw [List.mem_singleton.mp ha]
      exact hfits
  | gone _ => exact fun a ha => hl a (List.mem_of_mem_erase ha)

theorem filter_eq [LawfulBEq α] (h : Queued room labels owner fits l l') {other : Nat} (hother : other ≠ owner) :
    (l'.filter fun a => labels.room (room a) = other) =
      l.filter fun a => labels.room (room a) = other := by
  cases h with
  | kept => rfl
  | come howner _ => simp [howner, hother.symm]
  | gone howner =>
    rw [← List.erase_filter, List.erase_of_not_mem]
    intro hmem
    exact hother ((of_decide_eq_true (List.mem_filter.mp hmem).2).symm.trans howner)

end Queued

variable {rooms rooms' : DataRooms.Routes.World}

theorem labelled_numbered (hl : Labelled labels t) (id : Nat) : Labelled labels (numbered id t) :=
  ⟨hl.rooms, hl.documents, hl.links, hl.visitors, hl.visitorLinks⟩

theorem Confined.of_numbered (h : Confined labels owner t t') (id : Nat) :
    Confined labels owner (numbered id t) t' := ⟨h.labelled, h.others⟩

/-- A request that is suspended, that comes back, or that is done at once. -/
theorem Confined.steps {n : Nat} (rooms' : DataRooms.Routes.World)
    (h : Confined labels owner (numbered n rooms.tables) rooms'.tables) (hs : Suited labels rooms)
    (hentering : Queued (fun e : Entering => e.room.id) labels owner
      (fun e => labels.link e.link.id = labels.room e.room.id) rooms.entering rooms'.entering)
    (hreporting : Queued (fun r : Reporting => r.room.id) labels owner
      (fun r => labels.visitor r.visitor.id = labels.room r.room.id) rooms.reporting
      rooms'.reporting) : Steps labels owner rooms rooms' where
  suited := ⟨h.labelled, hentering.fits_of_mem hs.entering, hreporting.fits_of_mem hs.reporting⟩
  others other hother := by
    have htables : seen labels other rooms'.tables = seen labels other rooms.tables :=
      h.others other hother
    rw [viewed, viewed, htables, hentering.filter_eq hother, hreporting.filter_eq hother]

/-- A route that changes tables only. -/
theorem Confined.steps_tables {n : Nat} (h : Confined labels owner (numbered n rooms.tables) t')
    (hs : Suited labels rooms) :
    Steps labels owner rooms { rooms with tables := t', rateLimitMap := [] } :=
  Confined.steps { rooms with tables := t', rateLimitMap := [] } h hs .kept .kept

theorem leadsInto_of_some {token : String} {link : DataRoomLink}
    (h : leadsInto labels owner t token = true) (hlink : getLinkByToken t token = some link) :
    labels.room link.roomId = owner := by
  rw [leadsInto, hlink] at h
  exact of_decide_eq_true h

theorem openRoom_ok {token : String} {link : DataRoomLink} {room : DataRoom}
    (h : openRoom t token = .ok (link, room)) :
    getLinkByToken t token = some link ∧ getRoom t link.roomId = some room := by
  rw [openRoom] at h
  split at h
  · cases h
  · rename_i link' hlink
    split at h
    · cases h
    · split at h
      · cases h
      · split at h
        · cases h
        · rename_i room' hroom
          split at h
          · cases h
          · obtain ⟨rfl, rfl⟩ := Prod.mk.inj (Except.ok.inj h)
            exact ⟨hlink, hroom⟩

/-- A request to enter changes no tables, and waits, if it does, with a link of its room. -/
theorem beginEnter_cases (rooms : DataRooms.Routes.World) (token : String)
    (forwardedFor userAgent : Option String) :
    (beginEnter rooms token forwardedFor userAgent).1.tables = rooms.tables ∧
      (beginEnter rooms token forwardedFor userAgent).1.reporting = rooms.reporting ∧
      ((beginEnter rooms token forwardedFor userAgent).1.entering = rooms.entering ∨
        ∃ e, openRoom rooms.tables token = .ok (e.link, e.room) ∧
          (beginEnter rooms token forwardedFor userAgent).1.entering = rooms.entering ++ [e]) := by
  obtain ⟨htables, hreporting⟩ := beginEnter_keeps rooms token forwardedFor userAgent
  refine ⟨htables, hreporting, ?_⟩
  rw [beginEnter]
  dsimp only
  split
  · exact .inl rfl
  · split
    · exact .inl rfl
    · rename_i link room hopen
      exact .inr ⟨⟨link, room, _, userAgent⟩, hopen, rfl⟩

theorem queued_beginEnter (rooms : DataRooms.Routes.World) (hl : Labelled labels rooms.tables)
    {token : String}
    {forwardedFor userAgent : Option String}
    (hleads : leadsInto labels owner rooms.tables token = true) :
    Queued (fun e : Entering => e.room.id) labels owner
      (fun e => labels.link e.link.id = labels.room e.room.id) rooms.entering
      (beginEnter rooms token forwardedFor userAgent).1.entering := by
  obtain ⟨-, -, hsame | ⟨e, hopen, hadded⟩⟩ :=
    beginEnter_cases rooms token forwardedFor userAgent
  · rw [hsame]
    exact .kept
  · rw [hadded]
    obtain ⟨hlink, hroom⟩ := openRoom_ok hopen
    obtain ⟨-, hid⟩ := getRoom_eq_some hroom
    apply Queued.come
    · rw [hid]
      exact leadsInto_of_some hleads hlink
    · rw [hid]
      exact hl.links e.link (List.mem_of_find?_eq_some hlink)

/-- A report changes no tables, and waits, if it does, with a visitor of its room. -/
theorem queued_beginReport (rooms : DataRooms.Routes.World) (hl : Labelled labels rooms.tables)
    {token : String}
    {cookie : Option String} (hleads : leadsInto labels owner rooms.tables token = true) :
    Queued (fun r : Reporting => r.room.id) labels owner
      (fun r => labels.visitor r.visitor.id = labels.room r.room.id) rooms.reporting
      (beginReport rooms token cookie).1.reporting := by
  rw [beginReport]
  split
  · exact .kept
  · rename_i link hlink
    split
    · exact .kept
    · split
      · exact .kept
      · rename_i room hroom
        split
        · exact .kept
        · split
          · exact .kept
          · rename_i visitor hvisitor
            obtain ⟨hmem, -, hvisitorRoom⟩ := validateVisitorSession_eq_some hvisitor
            obtain ⟨-, hid⟩ := getRoom_eq_some hroom
            apply Queued.come
            · show labels.room room.id = owner
              rw [hid]
              exact leadsInto_of_some hleads hlink
            · show labels.visitor visitor.id = labels.room room.id
              rw [← hvisitorRoom]
              exact hl.visitors visitor hmem

theorem entering_beginReport {token : String} {cookie : Option String} :
    (beginReport rooms token cookie).1.entering = rooms.entering := by
  rw [beginReport]
  split
  · rfl
  · split
    · rfl
    · split
      · rfl
      · split
        · rfl
        · split
          · rfl
          · rfl

/-- What a route does once its row is numbered, with a fresh limiter. -/
def started (rooms : DataRooms.Routes.World) (id : Nat) : DataRooms.Routes.World :=
  { giving rooms id with rateLimitMap := [] }

theorem steps_beginEnter (hs : Suited labels rooms) {id : Nat} {token : String}
    {forwardedFor userAgent : Option String}
    (hleads : leadsInto labels owner rooms.tables token = true) :
    Steps labels owner rooms
      { (beginEnter (started rooms id) token forwardedFor userAgent).1 with rateLimitMap := [] } := by
  have hl := labelled_numbered hs.tables id
  obtain ⟨htables, hreporting, -⟩ :=
    beginEnter_cases (started rooms id) token forwardedFor userAgent
  apply Confined.steps (n := id)
  · show Confined labels owner (numbered id rooms.tables) (beginEnter _ _ _ _).1.tables
    rw [htables]
    exact confined_refl hl
  · exact hs
  · exact queued_beginEnter (started rooms id) hl hleads
  · show Queued _ _ _ _ rooms.reporting (beginEnter _ _ _ _).1.reporting
    rw [hreporting]
    exact .kept

theorem steps_beginReport (hs : Suited labels rooms) {id : Nat} {token : String}
    {cookie : Option String} (hleads : leadsInto labels owner rooms.tables token = true) :
    Steps labels owner rooms
      { (beginReport (started rooms id) token cookie).1 with rateLimitMap := [] } := by
  have hl := labelled_numbered hs.tables id
  apply Confined.steps (n := id)
  · show Confined labels owner (numbered id rooms.tables) (beginReport _ _ _).1.tables
    rw [tables_beginReport]
    exact confined_refl hl
  · exact hs
  · show Queued _ _ _ _ rooms.entering (beginReport _ _ _).1.entering
    rw [entering_beginReport]
    exact .kept
  · exact queued_beginReport (started rooms id) hl hleads

theorem performRoom_steps (hs : Suited labels rooms) {request : RoomRequest}
    (hconcerns : concerns labels owner rooms request = true) {reply : Reply}
    {broadcasts : List Broadcast}
    (hstep : performRoom order rooms request = some (rooms', reply, broadcasts)) :
    Steps labels owner rooms rooms' := by
  cases request with
  | route id event =>
    have hl := labelled_numbered hs.tables id
    cases event with
    | wait milliseconds => cases hconcerns
    | createRoom workspaceId name slug =>
      obtain ⟨rfl, hlabel, -⟩ := of_decide_eq_true hconcerns
      obtain ⟨rfl, -⟩ := Prod.mk.inj (Option.some.inj hstep)
      refine Confined.steps_tables (confined_caught hl fun t' h => ?_) hs
      exact confined_createRoom hl hlabel h
    | putRoom roomId updates =>
      obtain ⟨rfl, -⟩ := Prod.mk.inj (Option.some.inj hstep)
      exact (confined_putRoom hl (of_decide_eq_true hconcerns) updates).steps_tables hs
    | removeRoom roomId =>
      obtain ⟨rfl, -⟩ := Prod.mk.inj (Option.some.inj hstep)
      exact (confined_removeRoom hl (of_decide_eq_true hconcerns)).steps_tables hs
    | addDocument roomId filename originalName mimeType allowDownload =>
      obtain ⟨howner, hnew, -⟩ := of_decide_eq_true hconcerns
      obtain ⟨rfl, -⟩ := Prod.mk.inj (Option.some.inj hstep)
      refine Confined.steps_tables (n := id) ?_ hs
      split
      · exact confined_refl hl
      · exact confined_addDocument hl howner hnew filename originalName mimeType allowDownload
    | putDocument roomId docId allowDownload =>
      obtain ⟨rfl, -⟩ := Prod.mk.inj (Option.some.inj hstep)
      have howner := of_decide_eq_true hconcerns
      exact (confined_withDocument hl howner fun h =>
        confined_updateDocument hl h allowDownload).steps_tables hs
    | removeDocument roomId docId =>
      obtain ⟨rfl, -⟩ := Prod.mk.inj (Option.some.inj hstep)
      have howner := of_decide_eq_true hconcerns
      exact (confined_withDocument hl howner fun h => confined_deleteDocument hl h).steps_tables hs
    | postLink roomId passcode allowDownload expiresAt token =>
      obtain ⟨howner, hnew, -⟩ := of_decide_eq_true hconcerns
      obtain ⟨rfl, -⟩ := Prod.mk.inj (Option.some.inj hstep)
      exact (confined_postLink hl howner hnew).steps_tables hs
    | putLink roomId linkId updates =>
      obtain ⟨rfl, -⟩ := Prod.mk.inj (Option.some.inj hstep)
      have howner := of_decide_eq_true hconcerns
      exact (confined_withLink hl howner fun h => confined_updateLink hl h updates).steps_tables hs
    | removeLink roomId linkId =>
      obtain ⟨rfl, -⟩ := Prod.mk.inj (Option.some.inj hstep)
      have howner := of_decide_eq_true hconcerns
      exact (confined_withLink hl howner fun h => confined_deleteLink hl h).steps_tables hs
    | beginEnter token forwardedFor userAgent =>
      obtain ⟨rfl, -⟩ := Prod.mk.inj (Option.some.inj hstep)
      exact steps_beginEnter hs hconcerns
    | finishEnter i body sessionToken notified => cases hconcerns
    | getFile token docId cookie download file =>
      obtain ⟨rfl, -⟩ := Prod.mk.inj (Option.some.inj hstep)
      exact (confined_of_unrecorded hl unrecorded_getFile).steps_tables hs
    | beginReport token cookie =>
      obtain ⟨rfl, -⟩ := Prod.mk.inj (Option.some.inj hstep)
      exact steps_beginReport hs hconcerns
    | finishReport i body => cases hconcerns
  | finishEnter id entering body sessionToken notified =>
    obtain ⟨hmem, hroom, hnew, -⟩ := of_decide_eq_true hconcerns
    obtain ⟨rfl, -⟩ := Prod.mk.inj (Option.some.inj hstep)
    have hlink := (hs.entering entering hmem).trans hroom
    have hconfined := confined_finishEnter (labelled_numbered hs.tables id) hroom hlink hnew body
      sessionToken notified
    exact Confined.steps _ hconfined hs (.gone hroom) .kept
  | finishReport reporting body =>
    obtain ⟨-, hroom⟩ := of_decide_eq_true hconcerns
    obtain ⟨rfl, -⟩ := Prod.mk.inj (Option.some.inj hstep)
    have hconfined : Confined labels owner rooms.tables
        (finishReport order rooms.tables reporting body).1 :=
      confined_of_unrecorded hs.tables unrecorded_finishReport
    exact Confined.steps _ (hconfined.of_numbered 0) hs .kept (.gone hroom)

end MissionControl.Events.RoomSteps
