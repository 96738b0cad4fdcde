import MissionControl.DataRooms.Routes
import MissionControl.Foundations.Lists

/-!
What a visitor's session is good for. The routes find the visitor by the session and the room,
so that a session opens every link of the room, not only the one it was gained through.
-/

set_option autoImplicit false
set_option relaxedAutoImplicit false

namespace MissionControl.DataRooms.LinkSessions

open MissionControl.Foundations.JsText
open MissionControl.Foundations.Lists
open MissionControl.Foundations.Query
open MissionControl.Foundations.Transition (Machine)
open MissionControl.Events.Bus (Broadcast)
open Rooms Routes

variable {order : FirstBy LatestEvent} {t t' : Tables} {w w' : World}

/-! ### Rightful use -/

/-- The link is active and unexpired, and its room is not archived. -/
def Open (t : Tables) (link : DataRoomLink) : Prop :=
  link.isActive = true ∧ isExpired t link = false ∧
    ∃ room, getRoom t link.roomId = some room ∧ room.status ≠ .archived

/-- The visitor has entered through the link that the token names, and that link is open. -/
def Rightful (t : Tables) (token : String) (visitorId : Nat) : Prop :=
  ∃ link, getLinkByToken t token = some link ∧ Open t link ∧ ⟨visitorId, link.id⟩ ∈ t.entered

/-- A document is served, and a report recorded, for rightful visitors only. -/
def Proper (order : FirstBy LatestEvent) (w : World) : Event → Prop
  | .getFile token docId cookie download file =>
    ∀ w' doc attachment content broadcasts,
      perform order w (.getFile token docId cookie download file) =
        some (w', .served doc attachment content, broadcasts) →
      ∃ visitor ∈ w.tables.visitors, cookie = some visitor.sessionToken ∧
        Rightful w.tables token visitor.id
  | .finishReport i body =>
    ∀ w' eventId broadcasts,
      perform order w (.finishReport i body) = some (w', .recorded eventId, broadcasts) →
      ∃ r, w.reporting[i]? = some r ∧ Rightful w.tables r.token r.visitor.id
  | _ => True

/-! ### The condition -/

/-- The rest of the checks of the file route, for the link and the visitor that it has found. -/
def Readable (t : Tables) (link : DataRoomLink) (docId : Nat) (download : Bool)
    (file : Option String) : Prop :=
  ∃ doc, getDocument t docId = some doc ∧ doc.roomId = link.roomId ∧
    (download = true → link.allowDownload = true ∨ doc.allowDownload = true) ∧ file ≠ none

/-- A request for a document passes every check with the session of another link. -/
def Crosses (t : Tables) (token : String) (docId : Nat) (cookie : Option String) (download : Bool)
    (file : Option String) : Prop :=
  ∃ link sessionToken visitor, getLinkByToken t token = some link ∧ Open t link ∧
    truthy cookie = some sessionToken ∧
    validateVisitorSession t sessionToken link.roomId = some visitor ∧
    Readable t link docId download file ∧ visitor.linkId ≠ link.id

/-- A report with a document of the room arrives for a visitor who is still there, but the link
that its token names is not open by then, or not the visitor's. -/
def Strays (t : Tables) (r : Reporting) (body : Body RecordEvent) : Prop :=
  (∃ data doc, body = .parsed data ∧ getDocument t data.documentId = some doc ∧
    doc.roomId = r.room.id) ∧
  (∃ v ∈ t.visitors, v.id = r.visitor.id) ∧ (∃ room ∈ t.rooms, room.id = r.room.id) ∧
  ¬ ∃ link, getLinkByToken t r.token = some link ∧ Open t link ∧ r.visitor.linkId = link.id

/-- No session is used for another link than the visitor's, and no report for a closed one. -/
def OwnLink (w : World) : Event → Prop
  | .getFile token docId cookie download file =>
    ¬ Crosses w.tables token docId cookie download file
  | .finishReport i body => ∀ r, w.reporting[i]? = some r → ¬ Strays w.tables r body
  | _ => True

/-! ### What the routes do -/

theorem recordEvent_of_mem {data : NewEvent} (hvisitor : ∃ v ∈ t.visitors, v.id = data.visitorId)
    (hroom : ∃ r ∈ t.rooms, r.id = data.roomId) (hdoc : ∃ d ∈ t.documents, d.id = data.documentId) :
    (recordEvent order t data).2 = some t.nextEventId := by
  have hvisitor' : (t.visitors.any fun v => v.id = data.visitorId) = true :=
    List.any_eq_true.mpr (hvisitor.imp fun v h => ⟨h.1, decide_eq_true h.2⟩)
  have hroom' : (t.rooms.any fun r => r.id = data.roomId) = true :=
    List.any_eq_true.mpr (hroom.imp fun r h => ⟨h.1, decide_eq_true h.2⟩)
  have hdoc' : (t.documents.any fun d => d.id = data.documentId) = true :=
    List.any_eq_true.mpr (hdoc.imp fun d h => ⟨h.1, decide_eq_true h.2⟩)
  rw [recordEvent, if_pos ⟨hvisitor', hroom', hdoc'⟩]

theorem mem_of_recordEvent {data : NewEvent} {eventId : Nat}
    (h : (recordEvent order t data).2 = some eventId) :
    (∃ v ∈ t.visitors, v.id = data.visitorId) ∧ ∃ r ∈ t.rooms, r.id = data.roomId := by
  rw [recordEvent] at h
  dsimp only at h
  split at h
  · rename_i hkeys
    obtain ⟨v, hv, hvid⟩ := List.any_eq_true.mp hkeys.1
    obtain ⟨r, hr, hrid⟩ := List.any_eq_true.mp hkeys.2.1
    exact ⟨⟨v, hv, of_decide_eq_true hvid⟩, r, hr, of_decide_eq_true hrid⟩
  · cases h

theorem getRoom_eq_some {id : Nat} {room : DataRoom} (h : getRoom t id = some room) :
    room ∈ t.rooms ∧ room.id = id :=
  ⟨List.mem_of_find?_eq_some h, of_decide_eq_true (List.find?_some h :)⟩

theorem getDocument_eq_some {id : Nat} {doc : DataRoomDocument} (h : getDocument t id = some doc) :
    doc ∈ t.documents ∧ doc.id = id :=
  ⟨List.mem_of_find?_eq_some h, of_decide_eq_true (List.find?_some h :)⟩

theorem validateVisitorSession_eq_some {sessionToken : String} {roomId : Nat}
    {visitor : DataRoomVisitor} (h : validateVisitorSession t sessionToken roomId = some visitor) :
    visitor ∈ t.visitors ∧ visitor.sessionToken = sessionToken ∧ visitor.roomId = roomId :=
  ⟨List.mem_of_find?_eq_some h, of_decide_eq_true (List.find?_some h :)⟩

/-- The file route, for an open link and a visitor that it finds. -/
theorem getFile_eq {token : String} {docId : Nat} {cookie : Option String} {download : Bool}
    {file : Option String} {link : DataRoomLink} {room : DataRoom} {sessionToken : String}
    {visitor : DataRoomVisitor} (hlink : getLinkByToken t token = some link)
    (hactive : link.isActive = true) (hexpired : isExpired t link = false)
    (hroom : getRoom t link.roomId = some room) (harchived : room.status ≠ .archived)
    (hcookie : truthy cookie = some sessionToken)
    (hvisitor : validateVisitorSession t sessionToken room.id = some visitor) :
    getFile order t token docId cookie download file =
      serveDocument order t link room visitor docId download file := by
  simp only [getFile, hlink, hactive, hexpired, hroom, harchived, hcookie, hvisitor,
    Bool.true_eq_false, Bool.false_eq_true, if_false]

/-- A document is served for an open link and a visitor of its room. -/
theorem found_of_getFile {token : String} {docId : Nat} {cookie : Option String}
    {download : Bool} {file : Option String} {doc : DataRoomDocument} {attachment : Bool}
    {content : String}
    (h : (getFile order t token docId cookie download file).2.1 = .served doc attachment content) :
    ∃ link room sessionToken visitor, getLinkByToken t token = some link ∧
      link.isActive = true ∧ isExpired t link = false ∧ getRoom t link.roomId = some room ∧
      room.status ≠ .archived ∧ truthy cookie = some sessionToken ∧
      validateVisitorSession t sessionToken room.id = some visitor := by
  obtain ⟨link, hlink⟩ : ∃ link, getLinkByToken t token = some link := by
    cases hlink : getLinkByToken t token with
    | none =>
      rw [getFile, hlink] at h
      cases h
    | some link => exact ⟨link, rfl⟩
  rw [getFile, hlink] at h
  dsimp only at h
  have hactive : ¬ link.isActive = false := by
    intro hinactive
    rw [if_pos hinactive] at h
    cases h
  rw [if_neg hactive] at h
  have hexpired : ¬ isExpired t link = true := by
    intro hexpired
    rw [if_pos hexpired] at h
    cases h
  rw [if_neg hexpired] at h
  obtain ⟨room, hroom⟩ : ∃ room, getRoom t link.roomId = some room := by
    cases hroom : getRoom t link.roomId with
    | none =>
      rw [hroom] at h
      cases h
    | some room => exact ⟨room, rfl⟩
  rw [hroom] at h
  dsimp only at h
  have harchived : ¬ room.status = .archived := by
    intro harchived
    rw [if_pos harchived] at h
    cases h
  rw [if_neg harchived] at h
  obtain ⟨sessionToken, hcookie⟩ : ∃ sessionToken, truthy cookie = some sessionToken := by
    cases hcookie : truthy cookie with
    | none =>
      rw [hcookie] at h
      cases h
    | some sessionToken => exact ⟨sessionToken, rfl⟩
  rw [hcookie] at h
  dsimp only at h
  obtain ⟨visitor, hvisitor⟩ : ∃ visitor, validateVisitorSession t sessionToken room.id = some visitor := by
    cases hvisitor : validateVisitorSession t sessionToken room.id with
    | none =>
      rw [hvisitor] at h
      cases h
    | some visitor => exact ⟨visitor, rfl⟩
  exact ⟨link, room, sessionToken, visitor, hlink, (Bool.not_eq_false _).mp hactive,
    Bool.eq_false_iff.mpr hexpired, hroom, harchived, hcookie, hvisitor⟩

theorem serveDocument_served_iff {link : DataRoomLink} {room : DataRoom}
    {visitor : DataRoomVisitor} {docId : Nat} {download : Bool} {file : Option String}
    (hroom : getRoom t link.roomId = some room) (hvisitor : visitor ∈ t.visitors) :
    (∃ doc attachment content, (serveDocument order t link room visitor docId download file).2.1 =
      .served doc attachment content) ↔ Readable t link docId download file := by
  obtain ⟨hroomMem, hroomId⟩ := getRoom_eq_some hroom
  rw [serveDocument]
  cases hdoc : getDocument t docId with
  | none =>
    constructor
    · rintro ⟨doc, attachment, content, h⟩
      cases h
    · rintro ⟨doc, h, -⟩
      rw [hdoc] at h
      cases h
  | some doc =>
    dsimp only
    have hsame : ∀ doc', getDocument t docId = some doc' → doc' = doc :=
      fun doc' h => Option.some.inj (h.symm.trans hdoc)
    by_cases hinside : doc.roomId = room.id
    · rw [if_neg (not_not.mpr hinside)]
      by_cases hforbidden : download = true ∧ ¬ (link.allowDownload = true ∨ doc.allowDownload = true)
      · rw [if_pos hforbidden]
        constructor
        · rintro ⟨doc, attachment, content, h⟩
          cases h
        · rintro ⟨doc', hdoc', -, hallowed, -⟩
          obtain rfl := hsame doc' hdoc'
          exact absurd (hallowed hforbidden.1) hforbidden.2
      · rw [if_neg hforbidden]
        cases file with
        | none =>
          constructor
          · rintro ⟨doc, attachment, content, h⟩
            cases h
          · rintro ⟨-, -, -, -, h⟩
            exact absurd rfl h
        | some content =>
          dsimp only
          have hrecorded : (recordEvent order t ⟨visitor.id, room.id, doc.id,
              if download then .docDownloaded else .docViewed, none, none⟩).2 = some t.nextEventId :=
            recordEvent_of_mem ⟨visitor, hvisitor, rfl⟩ ⟨room, hroomMem, rfl⟩
              ⟨doc, (getDocument_eq_some hdoc).1, rfl⟩
          generalize recordEvent order t _ = stored at hrecorded
          obtain ⟨t', eventId⟩ := stored
          obtain rfl : eventId = some t.nextEventId := hrecorded
          refine ⟨fun _ => ?_, fun _ => ⟨doc, download, content, rfl⟩⟩
          refine ⟨doc, hdoc, hinside.trans hroomId, ?_, Option.some_ne_none content⟩
          intro hdownload
          by_contra hnot
          exact hforbidden ⟨hdownload, hnot⟩
    · rw [if_pos hinside]
      constructor
      · rintro ⟨doc, attachment, content, h⟩
        cases h
      · rintro ⟨doc', hdoc', hinside', -⟩
        obtain rfl := hsame doc' hdoc'
        exact absurd (hinside'.trans hroomId.symm) hinside

/-- When the file route serves a document. -/
theorem getFile_served_iff {token : String} {docId : Nat} {cookie : Option String}
    {download : Bool} {file : Option String} :
    (∃ doc attachment content, (getFile order t token docId cookie download file).2.1 =
      .served doc attachment content) ↔
    ∃ link sessionToken visitor, getLinkByToken t token = some link ∧ Open t link ∧
      truthy cookie = some sessionToken ∧
      validateVisitorSession t sessionToken link.roomId = some visitor ∧
      Readable t link docId download file := by
  constructor
  · rintro ⟨doc, attachment, content, h⟩
    obtain ⟨link, room, sessionToken, visitor, hlink, hactive, hexpired, hroom, harchived, hcookie,
      hvisitor⟩ := found_of_getFile h
    rw [getFile_eq hlink hactive hexpired hroom harchived hcookie hvisitor] at h
    have hreadable := (serveDocument_served_iff hroom
      (validateVisitorSession_eq_some hvisitor).1).mp ⟨doc, attachment, content, h⟩
    rw [(getRoom_eq_some hroom).2] at hvisitor
    exact ⟨link, sessionToken, visitor, hlink, ⟨hactive, hexpired, room, hroom, harchived⟩, hcookie,
      hvisitor, hreadable⟩
  · rintro ⟨link, sessionToken, visitor, hlink, ⟨hactive, hexpired, room, hroom, harchived⟩, hcookie,
      hvisitor, hreadable⟩
    rw [← (getRoom_eq_some hroom).2] at hvisitor
    rw [getFile_eq hlink hactive hexpired hroom harchived hcookie hvisitor]
    exact (serveDocument_served_iff hroom (validateVisitorSession_eq_some hvisitor).1).mpr hreadable

/-- When a report is recorded. -/
theorem finishReport_recorded_iff {r : Reporting} {body : Body RecordEvent} :
    (∃ eventId, (finishReport order t r body).2.1 = .recorded eventId) ↔
      (∃ data doc, body = .parsed data ∧ getDocument t data.documentId = some doc ∧
        doc.roomId = r.room.id) ∧
      (∃ v ∈ t.visitors, v.id = r.visitor.id) ∧ ∃ room ∈ t.rooms, room.id = r.room.id := by
  cases body with
  | notJson =>
    constructor
    · rintro ⟨eventId, h⟩
      cases h
    · rintro ⟨⟨data, doc, h, -⟩, -⟩
      cases h
  | rejected =>
    constructor
    · rintro ⟨eventId, h⟩
      cases h
    · rintro ⟨⟨data, doc, h, -⟩, -⟩
      cases h
  | parsed data =>
    rw [finishReport]
    dsimp only
    cases hdoc : getDocument t data.documentId with
    | none =>
      constructor
      · rintro ⟨eventId, h⟩
        cases h
      · rintro ⟨⟨data', doc, hbody, h, -⟩, -⟩
        obtain rfl := Body.parsed.inj hbody
        rw [hdoc] at h
        cases h
    | some doc =>
      dsimp only
      by_cases hinside : doc.roomId = r.room.id
      · rw [if_neg (not_not.mpr hinside)]
        have hstored : ∀ (event : NewEvent), event.visitorId = r.visitor.id →
            event.roomId = r.room.id → event.documentId = data.documentId →
            ((∃ eventId, (recordEvent order t event).2 = some eventId) ↔
              (∃ v ∈ t.visitors, v.id = r.visitor.id) ∧ ∃ room ∈ t.rooms, room.id = r.room.id) := by
          intro event hvisitor hroom hdocument
          constructor
          · rintro ⟨eventId, h⟩
            rw [← hvisitor, ← hroom]
            exact mem_of_recordEvent h
          · rintro ⟨hv, hr⟩
            rw [← hvisitor] at hv
            rw [← hroom] at hr
            refine ⟨_, recordEvent_of_mem hv hr ⟨doc, (getDocument_eq_some hdoc).1, ?_⟩⟩
            rw [(getDocument_eq_some hdoc).2, hdocument]
        have hiff := hstored ⟨r.visitor.id, r.room.id, data.documentId, data.eventType,
          data.pageNumber, data.durationSeconds⟩ rfl rfl rfl
        generalize recordEvent order t _ = stored at hiff
        obtain ⟨t', eventId⟩ := stored
        cases eventId with
        | none =>
          constructor
          · rintro ⟨eventId, h⟩
            cases h
          · rintro ⟨-, h⟩
            obtain ⟨eventId, hcontra⟩ := hiff.mpr h
            cases hcontra
        | some eventId =>
          exact ⟨fun _ => ⟨⟨data, doc, rfl, hdoc, hinside⟩, hiff.mp ⟨eventId, rfl⟩⟩,
            fun _ => ⟨eventId, rfl⟩⟩
      · rw [if_pos hinside]
        constructor
        · rintro ⟨eventId, h⟩
          cases h
        · rintro ⟨⟨data', doc', hbody, hdoc', hinside'⟩, -⟩
          obtain rfl := Body.parsed.inj hbody
          obtain rfl := Option.some.inj (hdoc'.symm.trans hdoc)
          exact absurd hinside' hinside

/-! ### Visitors and their links -/

/-- The visitor has entered through the link of its row, and through no other. -/
def Credited (t : Tables) (visitor : DataRoomVisitor) : Prop :=
  ∀ linkId, ⟨visitor.id, linkId⟩ ∈ t.entered ↔ linkId = visitor.linkId

structure Sound (w : World) : Prop where
  visitors : Keyed (·.id) w.tables.visitors w.tables.nextVisitorId
  sessions : (w.tables.visitors.map (·.sessionToken)).Nodup
  issued : ∀ x ∈ w.tables.entered, x.visitorId < w.tables.nextVisitorId
  credited : ∀ v ∈ w.tables.visitors, Credited w.tables v
  reporting : ∀ r ∈ w.reporting, r.visitor.id < w.tables.nextVisitorId ∧ Credited w.tables r.visitor

/-- Visitors are removed at most. -/
structure Thins (t t' : Tables) : Prop where
  visitors : t'.visitors.Sublist t.visitors
  entered : t'.entered = t.entered
  next : t'.nextVisitorId = t.nextVisitorId

theorem Thins.rfl : Thins t t := ⟨List.Sublist.refl _, Eq.refl _, Eq.refl _⟩

theorem thins_of_eq (hvisitors : t'.visitors = t.visitors) (hentered : t'.entered = t.entered)
    (hnext : t'.nextVisitorId = t.nextVisitorId) : Thins t t' :=
  ⟨hvisitors ▸ List.Sublist.refl _, hentered, hnext⟩

theorem Sound.empty (now : Nat) : Sound (World.empty now) where
  visitors := ⟨List.nodup_nil, fun _ h => absurd h List.not_mem_nil⟩
  sessions := List.nodup_nil
  issued _ h := absurd h List.not_mem_nil
  credited _ h := absurd h List.not_mem_nil
  reporting _ h := absurd h List.not_mem_nil

theorem Credited.of_entered {visitor : DataRoomVisitor} (h : Credited t visitor)
    (hentered : t'.entered = t.entered) : Credited t' visitor := by
  intro linkId
  rw [hentered]
  exact h linkId

theorem Sound.thins (h : Sound w) (hthins : Thins w.tables w'.tables)
    (hreporting : ∀ r ∈ w'.reporting, r ∈ w.reporting ∨ r.visitor ∈ w.tables.visitors) :
    Sound w' := by
  have hmem : ∀ v ∈ w'.tables.visitors, v ∈ w.tables.visitors :=
    fun v hv => hthins.visitors.subset hv
  refine ⟨⟨?_, ?_⟩, ?_, ?_, ?_, ?_⟩
  · exact h.visitors.unique.sublist (hthins.visitors.map _)
  · intro v hv
    rw [hthins.next]
    exact h.visitors.fresh v (hmem v hv)
  · exact h.sessions.sublist (hthins.visitors.map _)
  · intro x hx
    rw [hthins.entered] at hx
    rw [hthins.next]
    exact h.issued x hx
  · exact fun v hv => (h.credited v (hmem v hv)).of_entered hthins.entered
  · intro r hr
    rw [hthins.next]
    rcases hreporting r hr with hold | hnew
    · exact ⟨(h.reporting r hold).1, (h.reporting r hold).2.of_entered hthins.entered⟩
    · exact ⟨h.visitors.fresh _ hnew, (h.credited _ hnew).of_entered hthins.entered⟩


theorem Credited.snoc {visitor : DataRoomVisitor} (h : Credited t visitor) {x : Entered}
    (hx : x.visitorId = visitor.id → x.linkId = visitor.linkId)
    (hentered : t'.entered = t.entered ++ [x]) : Credited t' visitor := by
  intro linkId
  rw [hentered, List.mem_append, List.mem_singleton, h linkId]
  constructor
  · rintro (hold | hnew)
    · exact hold
    · obtain ⟨hid, hlink⟩ := Entered.mk.inj hnew
      rw [hlink, hx hid.symm]
  · exact .inl

/-- Two copies of one visitor carry the same link. -/
theorem Credited.linkId_eq {v v' : DataRoomVisitor} (h : Credited t v) (h' : Credited t v')
    (hid : v.id = v'.id) : v.linkId = v'.linkId := by
  have hmem : (⟨v'.id, v.linkId⟩ : Entered) ∈ t.entered := hid ▸ (h v.linkId).mpr rfl
  exact (h' v.linkId).mp hmem

theorem Sound.enter (h : Sound w) {data : NewVisitor} {sessionToken : String}
    {visitor : DataRoomVisitor}
    (hcreated : createVisitor w.tables data sessionToken = .ok (t', visitor))
    (entering : List Entering) : Sound { w with tables := t', entering := entering } := by
  rw [createVisitor] at hcreated
  cases hexisting : w.tables.visitors.find? fun v =>
      v.linkId = data.linkId ∧ v.email = data.email with
  | some existing =>
    rw [hexisting] at hcreated
    dsimp only at hcreated
    have hmem := List.mem_of_find?_eq_some hexisting
    have hlink : existing.linkId = data.linkId := (of_decide_eq_true (List.find?_some hexisting :)).1
    have hown := h.credited existing hmem
    split at hcreated
    · cases hcreated
    · rename_i hfree
      obtain ⟨rfl, -⟩ := Prod.mk.inj (Except.ok.inj hcreated)
      have hother : ∀ v ∈ w.tables.visitors, v.id ≠ existing.id → v.sessionToken ≠ sessionToken := by
        intro v hv hid htoken
        exact hfree (List.any_eq_true.mpr ⟨v, hv, decide_eq_true ⟨hid, htoken⟩⟩)
      refine ⟨h.visitors.map ?_, ?_, ?_, ?_, ?_⟩
      · intro v
        split
        · rename_i hid
          exact hid.symm
        · rfl
      · rw [List.map_map]
        apply List.Nodup.map_on ?_ (List.Nodup.of_map _ h.visitors.unique)
        intro x hx y hy hsame
        dsimp only [Function.comp_apply] at hsame
        by_cases hxid : x.id = existing.id
        · by_cases hyid : y.id = existing.id
          · exact h.visitors.eq_of_key hx hy (hxid.trans hyid.symm)
          · rw [if_pos hxid, if_neg hyid] at hsame
            exact absurd hsame.symm (hother y hy hyid)
        · by_cases hyid : y.id = existing.id
          · rw [if_neg hxid, if_pos hyid] at hsame
            exact absurd hsame (hother x hx hxid)
          · rw [if_neg hxid, if_neg hyid] at hsame
            exact List.inj_on_of_nodup_map h.sessions hx hy hsame
      · intro x hx
        rcases List.mem_append.mp hx with hx | hx
        · exact h.issued x hx
        · rw [List.mem_singleton.mp hx]
          exact h.visitors.fresh existing hmem
      · intro v hv
        obtain ⟨u, hu, rfl⟩ := List.mem_map.mp hv
        split
        · exact Credited.snoc (t := w.tables) hown (fun _ => hlink.symm) rfl
        · rename_i hid
          exact (h.credited u hu).snoc (fun hcontra => absurd hcontra.symm hid) rfl
      · intro r hr
        obtain ⟨hfresh, hcredited⟩ := h.reporting r hr
        refine ⟨hfresh, hcredited.snoc ?_ rfl⟩
        intro hid
        exact hlink.symm.trans (hown.linkId_eq hcredited hid)
  | none =>
    rw [hexisting] at hcreated
    dsimp only at hcreated
    split at hcreated
    · cases hcreated
    · rename_i hfree
      split at hcreated
      · cases hcreated
      · obtain ⟨rfl, -⟩ := Prod.mk.inj (Except.ok.inj hcreated)
        have hnew : ∀ v : DataRoomVisitor, v.id < w.tables.nextVisitorId →
            w.tables.nextVisitorId = v.id → data.linkId = v.linkId :=
          fun v hlt heq => absurd heq hlt.ne'
        refine ⟨h.visitors.snoc rfl, ?_, ?_, ?_, ?_⟩
        · rw [List.map_append, List.nodup_append]
          refine ⟨h.sessions, List.nodup_singleton _, ?_⟩
          intro token htoken token' htoken' hsame
          obtain ⟨v, hv, rfl⟩ := List.mem_map.mp htoken
          rw [List.mem_singleton.mp htoken'] at hsame
          exact hfree (List.any_eq_true.mpr ⟨v, hv, decide_eq_true hsame⟩)
        · intro x hx
          rcases List.mem_append.mp hx with hx | hx
          · exact Nat.lt_succ_of_lt (h.issued x hx)
          · rw [List.mem_singleton.mp hx]
            exact Nat.lt_succ_self _
        · intro v hv
          rcases List.mem_append.mp hv with hv | hv
          · exact (h.credited v hv).snoc (hnew v (h.visitors.fresh v hv)) rfl
          · rw [List.mem_singleton.mp hv]
            intro linkId
            dsimp only
            rw [List.mem_append, List.mem_singleton]
            constructor
            · rintro (hold | hadded)
              · exact absurd (h.issued _ hold) (lt_irrefl _)
              · exact (Entered.mk.inj hadded).2
            · intro heq
              exact .inr (by rw [heq])
        · intro r hr
          obtain ⟨hfresh, hcredited⟩ := h.reporting r hr
          exact ⟨Nat.lt_succ_of_lt hfresh, hcredited.snoc (hnew r.visitor hfresh) rfl⟩


/-! ### The step -/

theorem thins_caught {failed : String → Reply} {x : Except String Tables}
    (h : ∀ t', x = .ok t' → Thins t t') : Thins t (caught t failed x).1 := by
  cases x with
  | ok t' => exact h t' (Eq.refl _)
  | error e => exact Thins.rfl

theorem thins_withLink {roomId linkId : Nat} {change : Tables} (h : Thins t change) :
    Thins t (withLink t roomId linkId change).1 := by
  rw [withLink]
  split
  · exact Thins.rfl
  · split
    · exact h
    · exact Thins.rfl

theorem thins_withDocument {roomId docId : Nat} {change : Tables} (h : Thins t change) :
    Thins t (withDocument t roomId docId change).1 := by
  rw [withDocument]
  split
  · exact Thins.rfl
  · exact Thins.rfl
  · split
    · exact Thins.rfl
    · exact h

theorem thins_putRoom {id : Nat} {updates : RoomUpdates} : Thins t (putRoom t id updates).1 := by
  rw [putRoom]
  split
  · exact Thins.rfl
  · apply thins_caught
    intro t' hupdated
    rw [updateRoom] at hupdated
    split at hupdated
    · cases hupdated
    · obtain rfl := Except.ok.inj hupdated
      exact thins_of_eq (Eq.refl _) (Eq.refl _) (Eq.refl _)

theorem thins_removeRoom {id : Nat} : Thins t (removeRoom t id).1 := by
  rw [removeRoom]
  split
  · exact Thins.rfl
  · exact ⟨List.filter_sublist, Eq.refl _, Eq.refl _⟩

theorem thins_postLink {roomId : Nat} {passcode : Option String} {allowDownload : Bool}
    {expiresAt : Option Nat} {token : String} :
    Thins t (postLink t roomId passcode allowDownload expiresAt token).1 := by
  rw [postLink]
  split
  · exact Thins.rfl
  · apply thins_caught
    intro t' hcreated
    rw [createLink] at hcreated
    split at hcreated
    · cases hcreated
    · obtain rfl := Except.ok.inj hcreated
      exact thins_of_eq (Eq.refl _) (Eq.refl _) (Eq.refl _)

theorem thins_recordEvent (data : NewEvent) : Thins t (recordEvent order t data).1 := by
  rw [recordEvent]
  dsimp only
  split
  · exact thins_of_eq (Eq.refl _) (Eq.refl _) (Eq.refl _)
  · exact thins_of_eq (Eq.refl _) (Eq.refl _) (Eq.refl _)

theorem thins_serveDocument {link : DataRoomLink} {room : DataRoom} {visitor : DataRoomVisitor}
    {docId : Nat} {download : Bool} {file : Option String} :
    Thins t (serveDocument order t link room visitor docId download file).1 := by
  rw [serveDocument]
  split
  · exact Thins.rfl
  · split
    · exact Thins.rfl
    · split
      · exact Thins.rfl
      · split
        · exact Thins.rfl
        · rename_i doc _ _ _ _ _
          have hthins := @thins_recordEvent order t ⟨visitor.id, room.id, doc.id,
            if download then .docDownloaded else .docViewed, none, none⟩
          dsimp only
          split
          · rename_i hrecorded
            rwa [hrecorded] at hthins
          · rename_i hrecorded
            rwa [hrecorded] at hthins

theorem thins_getFile {token : String} {docId : Nat} {cookie : Option String} {download : Bool}
    {file : Option String} : Thins t (getFile order t token docId cookie download file).1 := by
  rw [getFile]
  split
  · exact Thins.rfl
  · split
    · exact Thins.rfl
    · split
      · exact Thins.rfl
      · split
        · exact Thins.rfl
        · split
          · exact Thins.rfl
          · split
            · exact Thins.rfl
            · split
              · exact Thins.rfl
              · exact thins_serveDocument

theorem thins_finishReport {r : Reporting} {body : Body RecordEvent} :
    Thins t (finishReport order t r body).1 := by
  cases body with
  | notJson => exact Thins.rfl
  | rejected => exact Thins.rfl
  | parsed data =>
    rw [finishReport]
    dsimp only
    split
    · exact Thins.rfl
    · split
      · exact Thins.rfl
      · have hthins := @thins_recordEvent order t ⟨r.visitor.id, r.room.id,
          data.documentId, data.eventType, data.pageNumber, data.durationSeconds⟩
        split
        · rename_i hrecorded
          rwa [hrecorded] at hthins
        · rename_i hrecorded
          rwa [hrecorded] at hthins

/-- A report that waits is of a visitor whom the session has found. -/
theorem reporting_of_beginReport {token : String} {cookie : Option String} {r : Reporting}
    (hr : r ∈ (beginReport w token cookie).1.reporting) :
    r ∈ w.reporting ∨ r.visitor ∈ w.tables.visitors := by
  rw [beginReport] at hr
  split at hr
  · exact .inl hr
  · split at hr
    · exact .inl hr
    · split at hr
      · exact .inl hr
      · split at hr
        · exact .inl hr
        · split at hr
          · exact .inl hr
          · rename_i visitor hvisitor
            rcases List.mem_append.mp hr with hr | hr
            · exact .inl hr
            · rw [List.mem_singleton.mp hr]
              exact .inr (validateVisitorSession_eq_some hvisitor).1

theorem tables_beginReport (w : World) (token : String) (cookie : Option String) :
    (beginReport w token cookie).1.tables = w.tables := by
  rw [beginReport]
  split
  · rfl
  · split
    · rfl
    · split
      · rfl
      · split
        · rfl
        · split
          · rfl
          · rfl

theorem beginEnter_keeps (w : World) (token : String) (forwardedFor userAgent : Option String) :
    (beginEnter w token forwardedFor userAgent).1.tables = w.tables ∧
      (beginEnter w token forwardedFor userAgent).1.reporting = w.reporting := by
  rw [beginEnter]
  dsimp only
  split
  · exact ⟨rfl, rfl⟩
  · split
    · exact ⟨rfl, rfl⟩
    · exact ⟨rfl, rfl⟩

theorem Sound.finishEnter (h : Sound w) {e : Entering} {body : Body EnterRoom}
    {sessionToken : String} {notified : Bool} (entering : List Entering) :
    Sound { w with
      tables := (Routes.finishEnter w.tables e body sessionToken notified).1
      entering := entering } := by
  have hsame : Sound { w with entering := entering } :=
    h.thins Thins.rfl fun _ hr => .inl hr
  cases body with
  | notJson => exact hsame
  | rejected => exact hsame
  | parsed data =>
    rw [Routes.finishEnter]
    split
    · exact hsame
    · split
      · exact hsame
      · rename_i hcreated
        exact h.enter hcreated entering

/-- The step lemma. -/
theorem Sound.step (h : Sound w) {e : Event} (hstep : (machine order).step w e = some w') :
    Sound w' := by
  have hkeeps : ∀ (t : Tables), Thins w.tables t → Sound { w with tables := t } :=
    fun _ hthins => h.thins hthins fun _ hr => .inl hr
  cases e with
  | wait milliseconds =>
    obtain rfl := Option.some.inj hstep
    exact hkeeps _ (thins_of_eq rfl rfl rfl)
  | createRoom workspaceId name slug =>
    obtain rfl := Option.some.inj hstep
    apply hkeeps _ (thins_caught _)
    intro t' hcreated
    rw [Rooms.createRoom] at hcreated
    split at hcreated
    · cases hcreated
    · obtain rfl := Except.ok.inj hcreated
      exact thins_of_eq rfl rfl rfl
  | putRoom id updates =>
    obtain rfl := Option.some.inj hstep
    exact hkeeps _ thins_putRoom
  | removeRoom id =>
    obtain rfl := Option.some.inj hstep
    exact hkeeps _ thins_removeRoom
  | addDocument roomId filename originalName mimeType allowDownload =>
    obtain rfl := Option.some.inj hstep
    apply hkeeps
    split
    · exact Thins.rfl
    · exact thins_of_eq rfl rfl rfl
  | putDocument roomId docId allowDownload =>
    obtain rfl := Option.some.inj hstep
    exact hkeeps _ (thins_withDocument (thins_of_eq rfl rfl rfl))
  | removeDocument roomId docId =>
    obtain rfl := Option.some.inj hstep
    exact hkeeps _ (thins_withDocument (thins_of_eq rfl rfl rfl))
  | postLink roomId passcode allowDownload expiresAt token =>
    obtain rfl := Option.some.inj hstep
    exact hkeeps _ thins_postLink
  | putLink roomId linkId updates =>
    obtain rfl := Option.some.inj hstep
    exact hkeeps _ (thins_withLink (thins_of_eq rfl rfl rfl))
  | removeLink roomId linkId =>
    obtain rfl := Option.some.inj hstep
    exact hkeeps _ (thins_withLink ⟨List.filter_sublist, rfl, rfl⟩)
  | beginEnter token forwardedFor userAgent =>
    obtain rfl := Option.some.inj hstep
    have hbegun : Sound (beginEnter w token forwardedFor userAgent).1 := by
      obtain ⟨htables, hreporting⟩ := beginEnter_keeps w token forwardedFor userAgent
      apply h.thins
      · rw [htables]
        exact Thins.rfl
      · intro r hr
        rw [hreporting] at hr
        exact .inl hr
    exact hbegun
  | finishEnter i body sessionToken notified =>
    obtain ⟨result, hresult, rfl⟩ := Option.map_eq_some_iff.mp hstep
    obtain ⟨e, he, rfl⟩ := Option.map_eq_some_iff.mp hresult
    exact h.finishEnter _
  | getFile token docId cookie download file =>
    obtain rfl := Option.some.inj hstep
    exact hkeeps _ thins_getFile
  | beginReport token cookie =>
    obtain rfl := Option.some.inj hstep
    have hbegun : Sound (beginReport w token cookie).1 := by
      apply h.thins
      · rw [tables_beginReport w token cookie]
        exact Thins.rfl
      · exact fun _ hr => reporting_of_beginReport hr
    exact hbegun
  | finishReport i body =>
    obtain ⟨result, hresult, rfl⟩ := Option.map_eq_some_iff.mp hstep
    obtain ⟨r, hr, rfl⟩ := Option.map_eq_some_iff.mp hresult
    exact h.thins thins_finishReport fun _ hr => .inl (List.mem_of_mem_eraseIdx hr)

/-! ### Exactly when sessions are used rightfully -/

theorem perform_getFile {token : String} {docId : Nat} {cookie : Option String} {download : Bool}
    {file : Option String} {reply : Reply} :
    (∃ w' broadcasts, perform order w (.getFile token docId cookie download file) =
      some (w', reply, broadcasts)) ↔
      (getFile order w.tables token docId cookie download file).2.1 = reply := by
  constructor
  · rintro ⟨w', broadcasts, h⟩
    exact (Prod.mk.inj (Prod.mk.inj (Option.some.inj h)).2).1
  · intro h
    exact ⟨_, _, by rw [← h]; rfl⟩

theorem proper_getFile_iff (h : Sound w) {token : String} {docId : Nat} {cookie : Option String}
    {download : Bool} {file : Option String} :
    Proper order w (.getFile token docId cookie download file) ↔
      OwnLink w (.getFile token docId cookie download file) := by
  constructor
  · rintro hproper ⟨link, sessionToken, visitor, hlink, hopen, hcookie, hvisitor, hreadable, hother⟩
    obtain ⟨doc, attachment, content, hserved⟩ := (@getFile_served_iff order _ _ _ _ _ _).mpr
      ⟨link, sessionToken, visitor, hlink, hopen, hcookie, hvisitor, hreadable⟩
    obtain ⟨w', broadcasts, hperform⟩ := perform_getFile.mpr hserved
    obtain ⟨visitor', hmem', hcookie', link', hlink', -, hentered⟩ :=
      hproper w' doc attachment content broadcasts hperform
    obtain ⟨hmem, htoken, -⟩ := validateVisitorSession_eq_some hvisitor
    have hsession : sessionToken = visitor'.sessionToken := by
      rw [hcookie', truthy, Option.filter_eq_some_iff] at hcookie
      exact (Option.some.inj hcookie.1).symm
    have hsame : visitor = visitor' :=
      List.inj_on_of_nodup_map h.sessions hmem hmem' (htoken.trans hsession)
    obtain rfl : link = link' := Option.some.inj (hlink.symm.trans hlink')
    rw [← hsame] at hentered
    exact hother ((h.credited visitor hmem link.id).mp hentered).symm
  · intro hown w' doc attachment content broadcasts hperform
    have hserved := perform_getFile.mp ⟨w', broadcasts, hperform⟩
    obtain ⟨link, sessionToken, visitor, hlink, hopen, hcookie, hvisitor, hreadable⟩ :=
      getFile_served_iff.mp ⟨doc, attachment, content, hserved⟩
    obtain ⟨hmem, htoken, -⟩ := validateVisitorSession_eq_some hvisitor
    have hsame : visitor.linkId = link.id := by
      by_contra hother
      exact hown ⟨link, sessionToken, visitor, hlink, hopen, hcookie, hvisitor, hreadable, hother⟩
    refine ⟨visitor, hmem, ?_, link, hlink, hopen, ?_⟩
    · rw [truthy, Option.filter_eq_some_iff] at hcookie
      rw [hcookie.1, htoken]
    · exact (h.credited visitor hmem link.id).mpr hsame.symm

theorem perform_finishReport {i : Nat} {body : Body RecordEvent} {eventId : Nat} :
    (∃ w' broadcasts, perform order w (.finishReport i body) =
      some (w', .recorded eventId, broadcasts)) ↔
      ∃ r, w.reporting[i]? = some r ∧
        (finishReport order w.tables r body).2.1 = .recorded eventId := by
  constructor
  · rintro ⟨w', broadcasts, h⟩
    obtain ⟨r, hr, heq⟩ := Option.map_eq_some_iff.mp h
    exact ⟨r, hr, (Prod.mk.inj (Prod.mk.inj heq).2).1⟩
  · rintro ⟨r, hr, hrecorded⟩
    exact ⟨_, _, Option.map_eq_some_iff.mpr ⟨r, hr, by rw [← hrecorded]⟩⟩

theorem rightful_iff {token : String} {visitor : DataRoomVisitor} (h : Credited t visitor) :
    Rightful t token visitor.id ↔
      ∃ link, getLinkByToken t token = some link ∧ Open t link ∧ visitor.linkId = link.id := by
  constructor
  · rintro ⟨link, hlink, hopen, hentered⟩
    exact ⟨link, hlink, hopen, ((h link.id).mp hentered).symm⟩
  · rintro ⟨link, hlink, hopen, hsame⟩
    exact ⟨link, hlink, hopen, (h link.id).mpr hsame.symm⟩

theorem proper_finishReport_iff (h : Sound w) {i : Nat} {body : Body RecordEvent} :
    Proper order w (.finishReport i body) ↔ OwnLink w (.finishReport i body) := by
  constructor
  · rintro hproper r hr ⟨hdocument, hvisitor, hroom, hnot⟩
    obtain ⟨eventId, hrecorded⟩ := (@finishReport_recorded_iff order _ _ _).mpr
      ⟨hdocument, hvisitor, hroom⟩
    obtain ⟨w', broadcasts, hperform⟩ := perform_finishReport.mpr ⟨r, hr, hrecorded⟩
    obtain ⟨r', hr', hrightful⟩ := hproper w' eventId broadcasts hperform
    obtain rfl : r = r' := Option.some.inj (hr.symm.trans hr')
    have hcredited := (h.reporting r (List.mem_of_getElem? hr)).2
    exact hnot ((rightful_iff hcredited).mp hrightful)
  · intro hown w' eventId broadcasts hperform
    obtain ⟨r, hr, hrecorded⟩ := perform_finishReport.mp ⟨w', broadcasts, hperform⟩
    obtain ⟨hdocument, hvisitor, hroom⟩ := finishReport_recorded_iff.mp ⟨eventId, hrecorded⟩
    have hcredited := (h.reporting r (List.mem_of_getElem? hr)).2
    refine ⟨r, hr, (rightful_iff hcredited).mpr ?_⟩
    by_contra hnot
    exact hown r hr ⟨hdocument, hvisitor, hroom, hnot⟩

theorem proper_iff (h : Sound w) (e : Event) : Proper order w e ↔ OwnLink w e := by
  cases e with
  | getFile => exact proper_getFile_iff h
  | finishReport => exact proper_finishReport_iff h
  | _ => exact Iff.rfl

/-- In a history of the data rooms, every served document and every recorded report is for a
visitor of the link, open at that moment, that the request names, exactly if no session is used
for another link and no report arrives when its link is closed. -/
theorem sessions_rightful_iff (order : FirstBy LatestEvent) (now : Nat) (trace : List Event) :
    (machine order).Meets (Proper order) (World.empty now) trace ↔
      (machine order).Meets OwnLink (World.empty now) trace :=
  Machine.meets_congr (fun _ h e => proper_iff h e) (fun _ _ _ h hstep => h.step hstep)
    (Sound.empty now) trace

/-! ### A session on another link -/

theorem sorts_latest : Sorts LatestEvent := (sorts_by_key DataRoomEvent.createdAt).reverse

def byTime : FirstBy LatestEvent := FirstBy.first sorts_latest

def guest : EnterRoom := ⟨"guest@example.com", "", "", none⟩

/-- A room with an open link and one with a passcode, and a guest of the first. -/
def guestOfOne : List Event :=
  [.createRoom 1 "Deal" "deal", .addDocument 1 "1-terms.pdf" "terms.pdf" "application/pdf" false,
    .postLink 1 none false none "public", .postLink 1 (some "secret") true none "private",
    .beginEnter "public" none none, .finishEnter 0 (.parsed guest) "session" true]

/-- The guest downloads a document through the link with the passcode. -/
def download : Event := .getFile "private" 1 (some "session") true (some "Terms")

theorem session_crosses_links :
    ¬ (machine byTime).Meets (Proper byTime) (World.empty 0) (guestOfOne ++ [download]) := by
  intro h
  have hreached : ((machine byTime).run (World.empty 0) guestOfOne).any (fun w =>
      ((perform byTime w download).any fun answer =>
        answer.2.1 = .served ⟨1, 1, "1-terms.pdf", "terms.pdf", "application/pdf", false⟩ true "Terms") ∧
      ∀ v ∈ w.tables.visitors, (getLinkByToken w.tables "private").all fun link =>
        ⟨v.id, link.id⟩ ∉ w.tables.entered) = true := by
    decide +kernel
  obtain ⟨w, hr, hfacts⟩ := (Option.any_eq_true _ _).mp hreached
  obtain ⟨hserved, hforeign⟩ := of_decide_eq_true hfacts
  obtain ⟨⟨w', reply, broadcasts⟩, hperform, hreply⟩ := (Option.any_eq_true _ _).mp hserved
  obtain rfl := of_decide_eq_true hreply
  obtain ⟨visitor, hmem, -, link, hlink, -, hentered⟩ :=
    (h.append_right hr).1 w' _ _ _ broadcasts hperform
  have hnot := hforeign visitor hmem
  rw [hlink] at hnot
  exact of_decide_eq_true hnot hentered

end MissionControl.DataRooms.LinkSessions
