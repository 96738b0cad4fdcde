import MissionControl.DataRooms.LinkSessions
import MissionControl.Events.Stream

/-!
The data rooms of one workspace. A request about a room of the workspace does the same to its rows,
and announces the same, whatever rows the others have; it leaves theirs as they are.
-/

set_option autoImplicit false
set_option relaxedAutoImplicit false

namespace MissionControl.Events.RoomView

open MissionControl.Foundations.JsText
open MissionControl.Foundations.Lists
open MissionControl.Foundations.Query
open MissionControl.DataRooms.LinkSessions
open MissionControl.DataRooms.Rooms
open MissionControl.DataRooms.Routes hiding World Event perform machine
open MissionControl.Events.Bus
open MissionControl.Events.Stream

/-- The rows of the rooms of a workspace. The events that are recorded are left out: nothing that
is announced depends on them. -/
def view (labels : Labels) (workspaceId : Nat) (t : Tables) : Tables :=
  { t with
    rooms := t.rooms.filter fun r => labels.room r.id = workspaceId
    documents := t.documents.filter fun d => labels.room d.roomId = workspaceId
    links := t.links.filter fun l => labels.room l.roomId = workspaceId
    visitors := t.visitors.filter fun v => labels.room v.roomId = workspaceId
    events := []
    nextEventId := 0
    entered := [] }

/-- Every row is labelled with the workspace of its room. -/
structure Labelled (labels : Labels) (t : Tables) : Prop where
  rooms : ∀ r ∈ t.rooms, labels.room r.id = r.workspaceId
  documents : ∀ d ∈ t.documents, labels.document d.id = labels.room d.roomId
  links : ∀ l ∈ t.links, labels.link l.id = labels.room l.roomId
  visitors : ∀ v ∈ t.visitors, labels.visitor v.id = labels.room v.roomId
  visitorLinks : ∀ v ∈ t.visitors, labels.link v.linkId = labels.room v.roomId

variable {labels : Labels} {workspaceId : Nat} {order : FirstBy LatestEvent} {t t' : Tables}

theorem view_view : view labels workspaceId (view labels workspaceId t) =
    view labels workspaceId t := by
  simp [view, List.filter_filter]

theorem Labelled.view (hl : Labelled labels t) : Labelled labels (view labels workspaceId t) where
  rooms r hr := hl.rooms r (List.mem_of_mem_filter hr)
  documents d hd := hl.documents d (List.mem_of_mem_filter hd)
  links l h := hl.links l (List.mem_of_mem_filter h)
  visitors v hv := hl.visitors v (List.mem_of_mem_filter hv)
  visitorLinks v hv := hl.visitorLinks v (List.mem_of_mem_filter hv)

/-! ### Queries -/

theorem getRoom_view {id : Nat} (h : labels.room id = workspaceId) :
    getRoom (view labels workspaceId t) id = getRoom t id := by
  apply find?_filter_of_imp
  intro r _ hr
  obtain rfl := of_decide_eq_true hr
  exact decide_eq_true h

theorem anyRoom_view {id : Nat} (h : labels.room id = workspaceId) :
    ((view labels workspaceId t).rooms.any fun r => r.id = id) = t.rooms.any fun r => r.id = id := by
  apply any_filter_of_imp
  intro r _ hr
  obtain rfl := of_decide_eq_true hr
  exact decide_eq_true h

theorem getLinkByToken_view {token : String}
    (h : ∀ link, getLinkByToken t token = some link → labels.room link.roomId = workspaceId) :
    getLinkByToken (view labels workspaceId t) token = getLinkByToken t token :=
  find?_filter_of_found fun link hlink => decide_eq_true (h link hlink)

theorem validateVisitorSession_view {sessionToken : String} {roomId : Nat}
    (h : labels.room roomId = workspaceId) :
    validateVisitorSession (view labels workspaceId t) sessionToken roomId =
      validateVisitorSession t sessionToken roomId := by
  apply find?_filter_of_imp
  intro v _ hv
  obtain ⟨-, rfl⟩ := of_decide_eq_true hv
  exact decide_eq_true h

/-- The document of that id, if it is in the room. -/
def documentIn (t : Tables) (roomId docId : Nat) : Option DataRoomDocument :=
  (getDocument t docId).filter fun doc => doc.roomId = roomId

theorem documentIn_eq_none (hl : Labelled labels t) {docId roomId : Nat}
    (h : labels.document docId ≠ labels.room roomId) : documentIn t roomId docId = none := by
  rw [documentIn, Option.filter_eq_none_iff]
  intro doc hdoc hroom
  obtain ⟨hmem, rfl⟩ := getDocument_eq_some hdoc
  obtain rfl := of_decide_eq_true hroom
  exact h (hl.documents doc hmem)

theorem documentIn_view (hl : Labelled labels t) {roomId : Nat}
    (h : labels.room roomId = workspaceId) (docId : Nat) :
    documentIn (view labels workspaceId t) roomId docId = documentIn t roomId docId := by
  by_cases hlabel : labels.document docId = labels.room roomId
  · rw [documentIn, documentIn]
    congr 1
    apply find?_filter_of_imp
    intro d hd hid
    obtain rfl := of_decide_eq_true hid
    exact decide_eq_true ((hl.documents d hd).symm.trans (hlabel.trans h))
  · rw [documentIn_eq_none hl hlabel, documentIn_eq_none hl.view hlabel]

theorem withDocument_eq (t : Tables) (roomId docId : Nat) (change : Tables) :
    withDocument t roomId docId change =
      if getRoom t roomId = none then (t, .refused 404 "Room not found")
      else if documentIn t roomId docId = none then (t, .refused 404 "Document not found")
      else (change, .done) := by
  unfold withDocument documentIn
  cases getRoom t roomId with
  | none => rfl
  | some room =>
    cases getDocument t docId with
    | none => rfl
    | some doc =>
      by_cases hroom : doc.roomId = roomId
      · simp [hroom]
      · simp [hroom]

theorem anyVisitor_view (hl : Labelled labels t) {id : Nat} (h : labels.visitor id = workspaceId) :
    ((view labels workspaceId t).visitors.any fun v => v.id = id) =
      t.visitors.any fun v => v.id = id := by
  apply any_filter_of_imp
  intro v hv hid
  obtain rfl := of_decide_eq_true hid
  exact decide_eq_true ((hl.visitors v hv).symm.trans h)

theorem anyDocument_view (hl : Labelled labels t) {id : Nat}
    (h : labels.document id = workspaceId) :
    ((view labels workspaceId t).documents.any fun d => d.id = id) =
      t.documents.any fun d => d.id = id := by
  apply any_filter_of_imp
  intro d hd hid
  obtain rfl := of_decide_eq_true hid
  exact decide_eq_true ((hl.documents d hd).symm.trans h)

theorem anyLink_view (hl : Labelled labels t) {id : Nat} (h : labels.link id = workspaceId) :
    ((view labels workspaceId t).links.any fun l => l.id = id) =
      t.links.any fun l => l.id = id := by
  apply any_filter_of_imp
  intro l hmem hid
  obtain rfl := of_decide_eq_true hid
  exact decide_eq_true ((hl.links l hmem).symm.trans h)

/-! ### Rooms, documents and links -/

theorem createRoom_view (h : labels.room t.nextRoomId = workspaceId) {owner : Nat}
    {name slug : String}
    (hfree : ∀ r ∈ t.rooms, r.slug = slug → labels.room r.id = workspaceId) :
    createRoom (view labels workspaceId t) owner name slug =
      (createRoom t owner name slug).map (view labels workspaceId) := by
  have htaken : ((view labels workspaceId t).rooms.any fun r => r.slug = slug) =
      t.rooms.any fun r => r.slug = slug :=
    any_filter_of_imp fun r hr hslug => decide_eq_true (hfree r hr (of_decide_eq_true hslug))
  rw [createRoom, createRoom, htaken]
  split
  · rfl
  · simp [Except.map, view, h]

theorem updateRoom_view {id : Nat} {updates : RoomUpdates}
    (hfree : ∀ r ∈ t.rooms, updates.slug = some r.slug → labels.room r.id = workspaceId) :
    updateRoom (view labels workspaceId t) id updates =
      (updateRoom t id updates).map (view labels workspaceId) := by
  have htaken : ((view labels workspaceId t).rooms.any fun r =>
      r.id ≠ id ∧ updates.slug = some r.slug) =
      t.rooms.any fun r => r.id ≠ id ∧ updates.slug = some r.slug :=
    any_filter_of_imp fun r hr hslug => decide_eq_true (hfree r hr (of_decide_eq_true hslug).2)
  rw [updateRoom, updateRoom, htaken]
  split
  · rfl
  · simp only [Except.map, view, Except.ok.injEq, Tables.mk.injEq, and_true]
    refine (filter_map_of_keeps (fun r => ?_) t.rooms).symm
    split
    · rfl
    · rfl

theorem deleteRoom_view (id : Nat) :
    deleteRoom (view labels workspaceId t) id = view labels workspaceId (deleteRoom t id) := by
  simp [deleteRoom, view, List.filter_filter, Bool.and_comm]

theorem addDocument_view {roomId : Nat} (h : labels.room roomId = workspaceId)
    (filename originalName mimeType : String) (allowDownload : Bool) :
    addDocument (view labels workspaceId t) roomId filename originalName mimeType allowDownload =
      view labels workspaceId
        (addDocument t roomId filename originalName mimeType allowDownload) := by
  simp [addDocument, view, h]

theorem updateDocument_view (id : Nat) (allowDownload : Option Bool) :
    updateDocument (view labels workspaceId t) id allowDownload =
      view labels workspaceId (updateDocument t id allowDownload) := by
  simp only [updateDocument, view, Tables.mk.injEq, and_true, true_and]
  refine (filter_map_of_keeps (fun d => ?_) t.documents).symm
  split
  · rfl
  · rfl

theorem deleteDocument_view (id : Nat) :
    deleteDocument (view labels workspaceId t) id =
      view labels workspaceId (deleteDocument t id) := by
  simp [deleteDocument, view, List.filter_filter, Bool.and_comm]

theorem createLink_view {roomId : Nat} (h : labels.room roomId = workspaceId)
    {passcode : Option String} {allowDownload : Bool} {expiresAt : Option Nat} {token : String}
    (hfree : ∀ l ∈ t.links, l.token = token → labels.room l.roomId = workspaceId) :
    createLink (view labels workspaceId t) roomId passcode allowDownload expiresAt token =
      (createLink t roomId passcode allowDownload expiresAt token).map
        (view labels workspaceId) := by
  have htaken : ((view labels workspaceId t).links.any fun l => l.token = token) =
      t.links.any fun l => l.token = token :=
    any_filter_of_imp fun l hl htoken => decide_eq_true (hfree l hl (of_decide_eq_true htoken))
  rw [createLink, createLink, htaken]
  split
  · rfl
  · simp [Except.map, view, h]

theorem updateLink_view (id : Nat) (updates : LinkUpdates) :
    updateLink (view labels workspaceId t) id updates =
      view labels workspaceId (updateLink t id updates) := by
  simp only [updateLink, view, Tables.mk.injEq, and_true, true_and]
  refine (filter_map_of_keeps (fun l => ?_) t.links).symm
  split
  · rfl
  · rfl

theorem deleteLink_view (id : Nat) :
    deleteLink (view labels workspaceId t) id = view labels workspaceId (deleteLink t id) := by
  simp [deleteLink, view, List.filter_filter, Bool.and_comm]

/-! ### The routes of the administrators -/

theorem caught_view (failed : String → Reply) (x : Except String Tables) :
    caught (view labels workspaceId t) failed (x.map (view labels workspaceId)) =
      Prod.map (view labels workspaceId) id (caught t failed x) := by
  cases x with
  | error e => rfl
  | ok t' => rfl

theorem putRoom_view {roomId : Nat} (h : labels.room roomId = workspaceId) {updates : RoomUpdates}
    (hfree : ∀ r ∈ t.rooms, updates.slug = some r.slug → labels.room r.id = workspaceId) :
    putRoom (view labels workspaceId t) roomId updates =
      Prod.map (view labels workspaceId) id (putRoom t roomId updates) := by
  rw [putRoom, putRoom, getRoom_view h, updateRoom_view hfree]
  cases getRoom t roomId with
  | none => rfl
  | some room => exact caught_view _ _

theorem removeRoom_view {roomId : Nat} (h : labels.room roomId = workspaceId) :
    removeRoom (view labels workspaceId t) roomId =
      Prod.map (view labels workspaceId) id (removeRoom t roomId) := by
  rw [removeRoom, removeRoom, getRoom_view h, deleteRoom_view]
  cases getRoom t roomId with
  | none => rfl
  | some room => rfl

theorem postLink_view {roomId : Nat} (h : labels.room roomId = workspaceId)
    {passcode : Option String} {allowDownload : Bool} {expiresAt : Option Nat} {token : String}
    (hfree : ∀ l ∈ t.links, l.token = token → labels.room l.roomId = workspaceId) :
    postLink (view labels workspaceId t) roomId passcode allowDownload expiresAt token =
      Prod.map (view labels workspaceId) id
        (postLink t roomId passcode allowDownload expiresAt token) := by
  rw [postLink, postLink, getRoom_view h, createLink_view h hfree]
  cases getRoom t roomId with
  | none => rfl
  | some room => exact caught_view _ _

theorem withLink_view {roomId : Nat} (h : labels.room roomId = workspaceId) (linkId : Nat)
    (change : Tables) :
    withLink (view labels workspaceId t) roomId linkId (view labels workspaceId change) =
      Prod.map (view labels workspaceId) id (withLink t roomId linkId change) := by
  have hfound : ((view labels workspaceId t).links.any fun l =>
      l.id = linkId ∧ l.roomId = roomId) =
      t.links.any fun l => l.id = linkId ∧ l.roomId = roomId := by
    apply any_filter_of_imp
    intro l _ hl
    obtain ⟨-, rfl⟩ := of_decide_eq_true hl
    exact decide_eq_true h
  rw [withLink, withLink, getRoom_view h]
  cases getRoom t roomId with
  | none => rfl
  | some room =>
    dsimp only
    rw [hfound]
    split
    · rfl
    · rfl

theorem withDocument_view (hl : Labelled labels t) {roomId : Nat}
    (h : labels.room roomId = workspaceId) (docId : Nat) (change : Tables) :
    withDocument (view labels workspaceId t) roomId docId (view labels workspaceId change) =
      Prod.map (view labels workspaceId) id (withDocument t roomId docId change) := by
  rw [withDocument_eq, withDocument_eq, getRoom_view h, documentIn_view hl h docId]
  split
  · rfl
  · split
    · rfl
    · rfl

/-! ### The routes of the visitors -/

theorem filter_map_of_mem {α : Type} {q : α → Bool} {f : α → α} {l : List α}
    (h : ∀ a ∈ l, q (f a) = q a) : (l.map f).filter q = (l.filter q).map f := by
  rw [List.filter_map]
  congr 1
  exact List.filter_congr h

theorem filter_map_unchanged {α : Type} {q : α → Bool} {f : α → α} {l : List α}
    (h : ∀ a ∈ l, q (f a) = q a) (hid : ∀ a ∈ l, q a = true → f a = a) :
    (l.map f).filter q = l.filter q := by
  rw [filter_map_of_mem h]
  conv_rhs => rw [← List.map_id' (l.filter q)]
  apply List.map_congr_left
  intro a ha
  obtain ⟨hmem, hq⟩ := List.mem_filter.mp ha
  exact hid a hmem hq

/-- A visitor of a room of the workspace, with a session token that no visitor of another one has. -/
theorem createVisitor_view (hl : Labelled labels t) (data : NewVisitor) {sessionToken : String}
    (hroom : labels.room data.roomId = workspaceId) (hlink : labels.link data.linkId = workspaceId)
    (hfree : ∀ v ∈ t.visitors, v.sessionToken = sessionToken →
      labels.room v.roomId = workspaceId) :
    (createVisitor (view labels workspaceId t) data sessionToken).map
        (Prod.map (view labels workspaceId) id) =
      (createVisitor t data sessionToken).map (Prod.map (view labels workspaceId) id) := by
  have hfound : ((view labels workspaceId t).visitors.find? fun v =>
      v.linkId = data.linkId ∧ v.email = data.email) =
      t.visitors.find? fun v => v.linkId = data.linkId ∧ v.email = data.email := by
    apply find?_filter_of_imp
    intro v hv hsame
    have hvlink := hl.visitorLinks v hv
    rw [(of_decide_eq_true hsame).1, hlink] at hvlink
    exact decide_eq_true hvlink.symm
  have htaken : ∀ i, ((view labels workspaceId t).visitors.any fun v =>
      v.id ≠ i ∧ v.sessionToken = sessionToken) =
      t.visitors.any fun v => v.id ≠ i ∧ v.sessionToken = sessionToken := fun i =>
    any_filter_of_imp fun v hv hsame => decide_eq_true (hfree v hv (of_decide_eq_true hsame).2)
  have htaken' : ((view labels workspaceId t).visitors.any fun v => v.sessionToken = sessionToken) =
      t.visitors.any fun v => v.sessionToken = sessionToken :=
    any_filter_of_imp fun v hv hsame => decide_eq_true (hfree v hv (of_decide_eq_true hsame))
  rw [createVisitor, createVisitor, hfound]
  cases hexisting : t.visitors.find? fun v => v.linkId = data.linkId ∧ v.email = data.email with
  | some existing =>
    dsimp only
    rw [htaken]
    split
    · rfl
    · have hmem := List.mem_of_find?_eq_some hexisting
      have hwritten : ∀ v ∈ t.visitors, labels.room (if v.id = existing.id then
          { existing with
            sessionToken := sessionToken
            ipAddress := truthy data.ipAddress
            userAgent := truthy data.userAgent }
          else v).roomId = labels.room v.roomId := by
        intro v hv
        split
        · rename_i hsame
          rw [← hl.visitors v hv, hsame, hl.visitors existing hmem]
        · rfl
      have hkept : ∀ v ∈ t.visitors, decide (labels.room (if v.id = existing.id then
          { existing with
            sessionToken := sessionToken
            ipAddress := truthy data.ipAddress
            userAgent := truthy data.userAgent }
          else v).roomId = workspaceId) = decide (labels.room v.roomId = workspaceId) :=
        fun v hv => by rw [hwritten v hv]
      simp only [Except.map, Prod.map, view, Except.ok.injEq, Prod.mk.injEq, Tables.mk.injEq,
        List.filter_filter, Bool.and_self, and_true, true_and]
      rw [filter_map_of_mem fun v hv => hkept v (List.mem_of_mem_filter hv),
        filter_map_of_mem hkept, List.filter_filter]
      simp only [Bool.and_self]
  | none =>
    dsimp only
    rw [htaken', anyLink_view hl hlink, anyRoom_view hroom]
    split
    · rfl
    · split
      · rfl
      · simp [Except.map, view, List.filter_filter]

theorem finishEnter_view (hl : Labelled labels t) {e : Entering} {sessionToken : String}
    (hroom : labels.room e.room.id = workspaceId) (hlink : labels.link e.link.id = workspaceId)
    (hfree : ∀ v ∈ t.visitors, v.sessionToken = sessionToken →
      labels.room v.roomId = workspaceId) (body : Body EnterRoom) (notified : Bool) :
    Prod.map (view labels workspaceId) id
        (finishEnter (view labels workspaceId t) e body sessionToken notified) =
      Prod.map (view labels workspaceId) id (finishEnter t e body sessionToken notified) := by
  cases body with
  | notJson => simp only [finishEnter, Prod.map, view_view]
  | rejected => simp only [finishEnter, Prod.map, view_view]
  | parsed data =>
    unfold finishEnter
    dsimp only
    split
    · simp only [Prod.map, view_view]
    · have hcreated := createVisitor_view hl ⟨e.link.id, e.room.id, data.email, data.name,
        data.company, some e.ip, e.userAgent⟩ hroom hlink hfree
      generalize createVisitor (view labels workspaceId t) _ sessionToken = x at hcreated ⊢
      generalize createVisitor t _ sessionToken = y at hcreated ⊢
      cases x with
      | error message =>
        cases y with
        | error message' =>
          obtain rfl := Except.error.inj hcreated
          simp only [Prod.map, view_view]
        | ok created => cases hcreated
      | ok created =>
        cases y with
        | error message => cases hcreated
        | ok created' =>
          obtain ⟨t₁, visitor₁⟩ := created
          obtain ⟨t₂, visitor₂⟩ := created'
          obtain ⟨hview, rfl⟩ := Prod.mk.inj (Except.ok.inj hcreated)
          exact Prod.ext hview rfl

/-- The tables without the events that are recorded. -/
def unrecorded (t : Tables) : Tables := { t with events := [], nextEventId := 0 }

theorem unrecorded_recordEvent (data : NewEvent) :
    unrecorded (recordEvent order t data).1 = unrecorded t := by
  unfold recordEvent
  dsimp only
  split
  · rfl
  · rfl

theorem isSome_recordEvent_view (hl : Labelled labels t) (data : NewEvent)
    (hvisitor : labels.visitor data.visitorId = workspaceId)
    (hroom : labels.room data.roomId = workspaceId)
    (hdocument : labels.document data.documentId = workspaceId) :
    (recordEvent order (view labels workspaceId t) data).2.isSome =
      (recordEvent order t data).2.isSome := by
  unfold recordEvent
  dsimp only
  rw [anyVisitor_view hl hvisitor, anyRoom_view hroom, anyDocument_view hl hdocument]
  split
  · rfl
  · rfl

theorem documentIn_eq_some_iff {roomId docId : Nat} {doc : DataRoomDocument} :
    documentIn t roomId docId = some doc ↔ getDocument t docId = some doc ∧ doc.roomId = roomId := by
  rw [documentIn, Option.filter_eq_some_iff, decide_eq_true_eq]

theorem ne_of_documentIn {roomId docId : Nat} {doc : DataRoomDocument}
    (h : documentIn t roomId docId = none) (hdoc : getDocument t docId = some doc) :
    doc.roomId ≠ roomId := by
  intro hroom
  rw [documentIn_eq_some_iff.mpr ⟨hdoc, hroom⟩] at h
  cases h

theorem serveDocument_of_none {link : DataRoomLink} {room : DataRoom} {visitor : DataRoomVisitor}
    {docId : Nat} {download : Bool} {file : Option String}
    (h : documentIn t room.id docId = none) :
    serveDocument order t link room visitor docId download file =
      (t, .refused 404 "Document not found", []) := by
  unfold serveDocument
  cases hdoc : getDocument t docId with
  | none => rfl
  | some doc => exact if_pos (ne_of_documentIn h hdoc)

theorem serveDocument_view (hl : Labelled labels t) {link : DataRoomLink} {room : DataRoom}
    {visitor : DataRoomVisitor} (hroom : labels.room room.id = workspaceId)
    (hvisitor : labels.visitor visitor.id = workspaceId) (docId : Nat) (download : Bool)
    (file : Option String) :
    (serveDocument order (view labels workspaceId t) link room visitor docId download file).2 =
      (serveDocument order t link room visitor docId download file).2 := by
  have hsame := documentIn_view hl hroom docId
  cases hin : documentIn t room.id docId with
  | none => rw [serveDocument_of_none hin, serveDocument_of_none (hsame.trans hin)]
  | some doc =>
    obtain ⟨hdoc, hdocRoom⟩ := documentIn_eq_some_iff.mp hin
    obtain ⟨hdoc', -⟩ := documentIn_eq_some_iff.mp (hsame.trans hin)
    obtain ⟨hmem, hid⟩ := getDocument_eq_some hdoc
    have hdocument : labels.document doc.id = workspaceId := by
      rw [hl.documents doc hmem, hdocRoom, hroom]
    unfold serveDocument
    rw [hdoc, hdoc']
    dsimp only
    rw [if_neg (not_not.mpr hdocRoom), if_neg (not_not.mpr hdocRoom)]
    split
    · rfl
    · cases file with
      | none => rfl
      | some content =>
        dsimp only
        have hrecorded := @isSome_recordEvent_view _ _ order _ hl ⟨visitor.id, room.id, doc.id,
          if download then .docDownloaded else .docViewed, none, none⟩ hvisitor hroom hdocument
        generalize recordEvent order (view labels workspaceId t) _ = x at hrecorded ⊢
        generalize recordEvent order t _ = y at hrecorded ⊢
        obtain ⟨t₁, i⟩ := x
        obtain ⟨t₂, j⟩ := y
        cases i with
        | none =>
          cases j with
          | none => rfl
          | some j => cases hrecorded
        | some i =>
          cases j with
          | none => cases hrecorded
          | some j => rfl

theorem unrecorded_serveDocument {link : DataRoomLink} {room : DataRoom} {visitor : DataRoomVisitor}
    {docId : Nat} {download : Bool} {file : Option String} :
    unrecorded (serveDocument order t link room visitor docId download file).1 = unrecorded t := by
  unfold serveDocument
  split
  · rfl
  · split
    · rfl
    · split
      · rfl
      · split
        · rfl
        · dsimp only
          split
          · rename_i hrecorded
            exact (congrArg (fun r => unrecorded r.1) hrecorded).symm.trans (unrecorded_recordEvent _)
          · rename_i hrecorded
            exact (congrArg (fun r => unrecorded r.1) hrecorded).symm.trans (unrecorded_recordEvent _)

theorem unrecorded_getFile {token : String} {docId : Nat} {cookie : Option String} {download : Bool}
    {file : Option String} :
    unrecorded (getFile order t token docId cookie download file).1 =
      unrecorded t := by
  unfold getFile
  split
  · rfl
  · split
    · rfl
    · split
      · rfl
      · split
        · rfl
        · split
          · rfl
          · split
            · rfl
            · split
              · rfl
              · exact unrecorded_serveDocument

theorem unrecorded_finishReport {r : Reporting} {body : Body RecordEvent} :
    unrecorded (finishReport order t r body).1 = unrecorded t := by
  unfold finishReport
  split
  · rfl
  · rfl
  · split
    · rfl
    · split
      · rfl
      · dsimp only
        split
        · rename_i hrecorded
          exact (congrArg (fun r => unrecorded r.1) hrecorded).symm.trans (unrecorded_recordEvent _)
        · rename_i hrecorded
          exact (congrArg (fun r => unrecorded r.1) hrecorded).symm.trans (unrecorded_recordEvent _)

theorem getFile_view (hl : Labelled labels t) {token : String}
    (hlink : ∀ link, getLinkByToken t token = some link → labels.room link.roomId = workspaceId)
    (docId : Nat) (cookie : Option String) (download : Bool) (file : Option String) :
    (getFile order (view labels workspaceId t) token docId cookie download file).2 =
      (getFile order t token docId cookie download file).2 := by
  unfold getFile
  rw [getLinkByToken_view hlink]
  cases hfound : getLinkByToken t token with
  | none => rfl
  | some link =>
    have howner := hlink link hfound
    dsimp only
    rw [getRoom_view howner]
    split
    · rfl
    · have hexpired : isExpired (view labels workspaceId t) link = isExpired t link := rfl
      rw [hexpired]
      split
      · rfl
      · cases hroom : getRoom t link.roomId with
        | none => rfl
        | some room =>
          obtain ⟨-, hid⟩ := getRoom_eq_some hroom
          have hroomOwner : labels.room room.id = workspaceId := hid ▸ howner
          dsimp only
          split
          · rfl
          · cases truthy cookie with
            | none => rfl
            | some sessionToken =>
              dsimp only
              rw [validateVisitorSession_view hroomOwner]
              cases hvisitor : validateVisitorSession t sessionToken room.id with
              | none => rfl
              | some visitor =>
                obtain ⟨hmem, -, hvisitorRoom⟩ := validateVisitorSession_eq_some hvisitor
                apply serveDocument_view hl hroomOwner
                rw [hl.visitors visitor hmem, hvisitorRoom, hroomOwner]

/-- A reply up to the id of the event that it has recorded. -/
def unnumbered : Reply → Reply
  | .recorded _ => .recorded 0
  | reply => reply

theorem finishReport_of_none {r : Reporting} {data : RecordEvent}
    (h : documentIn t r.room.id data.documentId = none) :
    finishReport order t r (.parsed data) = (t, .refused 404 "Document not found", []) := by
  unfold finishReport
  dsimp only
  cases hdoc : getDocument t data.documentId with
  | none => rfl
  | some doc => exact if_pos (ne_of_documentIn h hdoc)

theorem finishReport_view (hl : Labelled labels t) {r : Reporting}
    (hroom : labels.room r.room.id = workspaceId)
    (hvisitor : labels.visitor r.visitor.id = workspaceId) (body : Body RecordEvent) :
    Prod.map unnumbered id (finishReport order (view labels workspaceId t) r body).2 =
      Prod.map unnumbered id (finishReport order t r body).2 := by
  cases body with
  | notJson => rfl
  | rejected => rfl
  | parsed data =>
    have hsame := documentIn_view hl hroom data.documentId
    cases hin : documentIn t r.room.id data.documentId with
    | none => rw [finishReport_of_none hin, finishReport_of_none (hsame.trans hin)]
    | some doc =>
      obtain ⟨hdoc, hdocRoom⟩ := documentIn_eq_some_iff.mp hin
      obtain ⟨hdoc', -⟩ := documentIn_eq_some_iff.mp (hsame.trans hin)
      obtain ⟨hmem, hid⟩ := getDocument_eq_some hdoc
      have hdocument : labels.document data.documentId = workspaceId := by
        rw [← hid, hl.documents doc hmem, hdocRoom, hroom]
      unfold finishReport
      dsimp only
      rw [hdoc, hdoc']
      dsimp only
      rw [if_neg (not_not.mpr hdocRoom), if_neg (not_not.mpr hdocRoom)]
      have hrecorded := @isSome_recordEvent_view _ _ order _ hl ⟨r.visitor.id, r.room.id,
        data.documentId, data.eventType, data.pageNumber, data.durationSeconds⟩ hvisitor hroom
        hdocument
      generalize recordEvent order (view labels workspaceId t) _ = x at hrecorded ⊢
      generalize recordEvent order t _ = y at hrecorded ⊢
      obtain ⟨t₁, i⟩ := x
      obtain ⟨t₂, j⟩ := y
      cases i with
      | none =>
        cases j with
        | none => rfl
        | some j => cases hrecorded
      | some i =>
        cases j with
        | none => cases hrecorded
        | some j => rfl

end MissionControl.Events.RoomView
