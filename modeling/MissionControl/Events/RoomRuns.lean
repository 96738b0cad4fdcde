import MissionControl.Events.RoomSteps
import MissionControl.Foundations.Noninterference

/-!
Two runs of the data rooms. What a workspace asks of its rooms is answered and announced the same
way, and leaves its rows the same, whatever the other workspaces ask of theirs; but the slugs and
the tokens that it chooses must not be in use by another one.
-/

set_option autoImplicit false
set_option relaxedAutoImplicit false

namespace MissionControl.Events.RoomRuns

open MissionControl.Foundations.JsText
open MissionControl.Foundations.Query
open MissionControl.Foundations.Noninterference (Unwinds)
open MissionControl.Foundations.Transition (Machine)
open MissionControl.DataRooms.LinkSessions
open MissionControl.DataRooms.Rooms
open MissionControl.DataRooms.Routes hiding World Event perform machine
open MissionControl.Events.Bus
open MissionControl.Events.Stream hiding Event perform machine
open RoomView RoomSteps

variable {labels : Labels} {workspaceId : Nat} {order : FirstBy LatestEvent} {t : Tables}
variable {rooms rooms' : DataRooms.Routes.World}

/-- No other workspace uses the slug, the token or the session token that the request brings. -/
def Free (labels : Labels) (workspaceId : Nat) (t : Tables) : RoomRequest → Bool
  | .route _ (.createRoom _ _ slug) =>
    t.rooms.all fun r => r.slug = slug → labels.room r.id = workspaceId
  | .route _ (.putRoom _ updates) =>
    t.rooms.all fun r => updates.slug = some r.slug → labels.room r.id = workspaceId
  | .route _ (.postLink _ _ _ _ token) =>
    t.links.all fun l => l.token = token → labels.room l.roomId = workspaceId
  | .finishEnter _ _ _ sessionToken _ =>
    t.visitors.all fun v => v.sessionToken = sessionToken → labels.room v.roomId = workspaceId
  | _ => true

theorem forall_of_all {α : Type} {P Q : α → Prop} [∀ a, Decidable (P a → Q a)] {l : List α}
    (h : l.all (fun a => P a → Q a) = true) : ∀ a ∈ l, P a → Q a :=
  fun a ha => of_decide_eq_true (List.all_eq_true.mp h a ha)

/-- What a workspace sees of a request. -/
def outcome (labels : Labels) (workspaceId : Nat) (order : FirstBy LatestEvent)
    (rooms : DataRooms.Routes.World) (request : RoomRequest) :
    Option (DataRooms.Routes.World × Reply × List Broadcast) :=
  (performRoom order rooms request).map fun (rooms, reply, broadcasts) =>
    (viewed labels workspaceId rooms, unnumbered reply, broadcasts)

theorem seen_seen : seen labels workspaceId (seen labels workspaceId t) =
    seen labels workspaceId t := by
  simp [seen, view, numbered, List.filter_filter]

theorem seen_view : seen labels workspaceId (view labels workspaceId t) =
    seen labels workspaceId t :=
  seen_eq_of_view view_view

/-- A route that changes tables only. -/
theorem outcome_of_tables {rowId : Nat} {event : DataRooms.Routes.Event}
    (route : Tables → Tables × Reply)
    (hroute : ∀ w, DataRooms.Routes.perform order w event = some (w.withTables (route w.tables)))
    (h : route (view labels workspaceId (numbered rowId rooms.tables)) =
      Prod.map (view labels workspaceId) id (route (numbered rowId rooms.tables))) :
    outcome labels workspaceId order (viewed labels workspaceId rooms) (.route rowId event) =
      outcome labels workspaceId order rooms (.route rowId event) := by
  have hviewed : (giving (viewed labels workspaceId rooms) rowId).tables =
      view labels workspaceId (numbered rowId rooms.tables) := rfl
  simp only [outcome, performRoom, hroute, DataRooms.Routes.World.withTables, hviewed, h,
    Option.map_some, Prod.map]
  simp [viewed, giving, seen_view, List.filter_filter, numbered]

theorem openRoom_view {token : String}
    (h : leadsInto labels workspaceId t token = true) :
    openRoom (view labels workspaceId t) token = openRoom t token := by
  rw [openRoom, openRoom, getLinkByToken_view fun link hlink => leadsInto_of_some h hlink]
  cases hlink : getLinkByToken t token with
  | none => rfl
  | some link =>
    dsimp only
    rw [getRoom_view (leadsInto_of_some h hlink)]
    rfl

theorem viewed_eq
    (htables : seen labels workspaceId rooms.tables = seen labels workspaceId rooms'.tables)
    (hentering : (rooms.entering.filter fun e => labels.room e.room.id = workspaceId) =
      rooms'.entering.filter fun e => labels.room e.room.id = workspaceId)
    (hreporting : (rooms.reporting.filter fun r => labels.room r.room.id = workspaceId) =
      rooms'.reporting.filter fun r => labels.room r.room.id = workspaceId) :
    viewed labels workspaceId rooms = viewed labels workspaceId rooms' := by
  rw [viewed, viewed, htables, hentering, hreporting]

theorem filter_filter_self {α : Type} (p : α → Bool) (l : List α) :
    (l.filter p).filter p = l.filter p := by
  simp

theorem outcome_beginEnter {rowId : Nat} {token : String} {forwardedFor userAgent : Option String}
    (h : leadsInto labels workspaceId rooms.tables token = true) :
    outcome labels workspaceId order (viewed labels workspaceId rooms)
        (.route rowId (.beginEnter token forwardedFor userAgent)) =
      outcome labels workspaceId order rooms
        (.route rowId (.beginEnter token forwardedFor userAgent)) := by
  have hopen : openRoom (giving (viewed labels workspaceId rooms) rowId).tables token =
      openRoom (giving rooms rowId).tables token :=
    openRoom_view (t := (giving rooms rowId).tables) h
  simp only [outcome, performRoom, DataRooms.Routes.perform, beginEnter, checkRateLimit,
    rateLimitEntry, List.find?_nil, Option.map_none, hopen]
  cases openRoom (giving rooms rowId).tables token with
  | error reply =>
    apply congrArg some
    refine Prod.ext (viewed_eq ?_ ?_ ?_) rfl
    · exact seen_seen (t := rooms.tables)
    · exact filter_filter_self _ _
    · exact filter_filter_self _ _
  | ok opened =>
    apply congrArg some
    refine Prod.ext (viewed_eq ?_ ?_ ?_) rfl
    · exact seen_seen (t := rooms.tables)
    · exact (List.filter_append ..).trans
        ((congrArg (· ++ _) (filter_filter_self _ _)).trans (List.filter_append ..).symm)
    · exact filter_filter_self _ _

/-- The checks of a report that come before the body. -/
def reporter (t : Tables) (token : String) (cookie : Option String) : Except Reply Reporting :=
  match getLinkByToken t token with
  | none => .error (.refused 404 "Link not found")
  | some link =>
    if link.isActive = false then .error (.refused 404 "Link not found")
    else
      match getRoom t link.roomId with
      | none => .error (.refused 404 "Room not found")
      | some room =>
        match truthy cookie with
        | none => .error (.refused 401 "Session required")
        | some sessionToken =>
          match validateVisitorSession t sessionToken room.id with
          | none => .error (.refused 401 "Invalid session")
          | some visitor => .ok ⟨token, room, visitor⟩

theorem beginReport_eq (rooms : DataRooms.Routes.World) (token : String) (cookie : Option String) :
    beginReport rooms token cookie =
      match reporter rooms.tables token cookie with
      | .error reply => (rooms, reply)
      | .ok r => ({ rooms with reporting := rooms.reporting ++ [r] }, .pending) := by
  unfold beginReport reporter
  cases getLinkByToken rooms.tables token with
  | none => rfl
  | some link =>
    dsimp only
    split
    · rfl
    · cases getRoom rooms.tables link.roomId with
      | none => rfl
      | some room =>
        cases truthy cookie with
        | none => rfl
        | some sessionToken =>
          dsimp only
          cases validateVisitorSession rooms.tables sessionToken room.id with
          | none => rfl
          | some visitor => rfl

theorem reporter_view {token : String} {cookie : Option String}
    (h : leadsInto labels workspaceId t token = true) :
    reporter (view labels workspaceId t) token cookie = reporter t token cookie := by
  rw [reporter, reporter, getLinkByToken_view fun link hlink => leadsInto_of_some h hlink]
  cases hlink : getLinkByToken t token with
  | none => rfl
  | some link =>
    have howner := leadsInto_of_some h hlink
    dsimp only
    rw [getRoom_view howner]
    split
    · rfl
    · cases hroom : getRoom t link.roomId with
      | none => rfl
      | some room =>
        obtain ⟨-, hid⟩ := getRoom_eq_some hroom
        cases truthy cookie with
        | none => rfl
        | some sessionToken =>
          dsimp only
          rw [validateVisitorSession_view (hid ▸ howner)]

theorem outcome_beginReport {rowId : Nat} {token : String} {cookie : Option String}
    (h : leadsInto labels workspaceId rooms.tables token = true) :
    outcome labels workspaceId order (viewed labels workspaceId rooms)
        (.route rowId (.beginReport token cookie)) =
      outcome labels workspaceId order rooms (.route rowId (.beginReport token cookie)) := by
  have hreporter : reporter (giving (viewed labels workspaceId rooms) rowId).tables token cookie =
      reporter (giving rooms rowId).tables token cookie :=
    reporter_view (t := (giving rooms rowId).tables) h
  simp only [outcome, performRoom, DataRooms.Routes.perform, beginReport_eq, hreporter]
  cases reporter (giving rooms rowId).tables token cookie with
  | error reply =>
    apply congrArg some
    refine Prod.ext (viewed_eq ?_ ?_ ?_) rfl
    · exact seen_seen (t := rooms.tables)
    · exact filter_filter_self _ _
    · exact filter_filter_self _ _
  | ok r =>
    apply congrArg some
    refine Prod.ext (viewed_eq ?_ ?_ ?_) rfl
    · exact seen_seen (t := rooms.tables)
    · exact filter_filter_self _ _
    · exact (List.filter_append ..).trans
        ((congrArg (· ++ _) (filter_filter_self _ _)).trans (List.filter_append ..).symm)

theorem seen_of_unrecorded {t' : Tables} (h : unrecorded t' = unrecorded t) :
    seen labels workspaceId t' = seen labels workspaceId t := by
  show seen labels workspaceId (unrecorded t') = seen labels workspaceId (unrecorded t)
  rw [h]

theorem outcome_getFile (hl : Labelled labels rooms.tables) {rowId : Nat} {token : String}
    {docId : Nat} {cookie : Option String} {download : Bool} {file : Option String}
    (h : leadsInto labels workspaceId rooms.tables token = true) :
    outcome labels workspaceId order (viewed labels workspaceId rooms)
        (.route rowId (.getFile token docId cookie download file)) =
      outcome labels workspaceId order rooms
        (.route rowId (.getFile token docId cookie download file)) := by
  have hsame : (getFile order (giving (viewed labels workspaceId rooms) rowId).tables token docId
      cookie download file).2 =
      (getFile order (giving rooms rowId).tables token docId cookie download file).2 :=
    getFile_view (t := (giving rooms rowId).tables) (labelled_numbered hl rowId)
      (fun link hlink => leadsInto_of_some h hlink) docId cookie download file
  apply congrArg some
  refine Prod.ext (viewed_eq ?_ ?_ ?_) ?_
  · calc seen labels workspaceId (getFile order (giving (viewed labels workspaceId rooms)
          rowId).tables token docId cookie download file).1
        = seen labels workspaceId (giving (viewed labels workspaceId rooms) rowId).tables :=
          seen_of_unrecorded unrecorded_getFile
      _ = seen labels workspaceId (giving rooms rowId).tables := seen_seen (t := rooms.tables)
      _ = seen labels workspaceId (getFile order (giving rooms rowId).tables token docId cookie
            download file).1 := (seen_of_unrecorded unrecorded_getFile).symm
  · exact filter_filter_self _ _
  · exact filter_filter_self _ _
  · exact congrArg (fun out : Reply × List Broadcast => (unnumbered out.1, out.2)) hsame

theorem filter_erase_filter {α : Type} [BEq α] [LawfulBEq α] (p : α → Bool) (a : α) (l : List α) :
    ((l.filter p).erase a).filter p = (l.erase a).filter p := by
  rw [List.erase_filter, filter_filter_self]

theorem outcome_finishEnter (hs : Suited labels rooms) {rowId : Nat} {e : Entering}
    {sessionToken : String} (hmem : e ∈ rooms.entering)
    (hroom : labels.room e.room.id = workspaceId)
    (hfree : ∀ v ∈ rooms.tables.visitors, v.sessionToken = sessionToken →
      labels.room v.roomId = workspaceId) (body : Body EnterRoom) (notified : Bool) :
    outcome labels workspaceId order (viewed labels workspaceId rooms)
        (.finishEnter rowId e body sessionToken notified) =
      outcome labels workspaceId order rooms
        (.finishEnter rowId e body sessionToken notified) := by
  have hlink := (hs.entering e hmem).trans hroom
  have hsame := finishEnter_view (labelled_numbered hs.tables rowId) hroom hlink hfree body notified
  have htables := congrArg (fun out => seen labels workspaceId out.1) hsame
  apply congrArg some
  refine Prod.ext (viewed_eq ?_ ?_ ?_) ?_
  · calc seen labels workspaceId (finishEnter (view labels workspaceId
          (numbered rowId rooms.tables)) e body sessionToken notified).1
        = seen labels workspaceId (view labels workspaceId (finishEnter (view labels workspaceId
            (numbered rowId rooms.tables)) e body sessionToken notified).1) := seen_view.symm
      _ = seen labels workspaceId (view labels workspaceId
            (finishEnter (numbered rowId rooms.tables) e body sessionToken notified).1) := htables
      _ = seen labels workspaceId
            (finishEnter (numbered rowId rooms.tables) e body sessionToken notified).1 := seen_view
  · exact filter_erase_filter _ _ _
  · exact filter_filter_self _ _
  · exact congrArg (fun out => (unnumbered out.2.1, out.2.2)) hsame

theorem recordEvent_snd (t : Tables) (data : NewEvent) :
    (recordEvent order t data).2 =
      if t.visitors.any (fun v => v.id = data.visitorId) ∧
          t.rooms.any (fun r => r.id = data.roomId) ∧
          t.documents.any fun d => d.id = data.documentId then some t.nextEventId
      else none := by
  unfold recordEvent
  dsimp only
  split
  · rfl
  · rfl

theorem recordEvent_numbered (n : Nat) (data : NewEvent) :
    (recordEvent order (numbered n t) data).2 = (recordEvent order t data).2 := by
  rw [recordEvent_snd, recordEvent_snd]
  rfl

theorem finishReport_numbered (n : Nat) {r : Reporting} {body : Body RecordEvent} :
    (finishReport order (numbered n t) r body).2 = (finishReport order t r body).2 := by
  cases body with
  | notJson => rfl
  | rejected => rfl
  | parsed data =>
    have hdoc : getDocument (numbered n t) data.documentId = getDocument t data.documentId := rfl
    unfold finishReport
    dsimp only
    rw [hdoc]
    cases getDocument t data.documentId with
    | none => rfl
    | some doc =>
      dsimp only
      split
      · rfl
      · have hrecorded := @recordEvent_numbered order t n ⟨r.visitor.id, r.room.id,
          data.documentId, data.eventType, data.pageNumber, data.durationSeconds⟩
        generalize recordEvent order (numbered n t) _ = x at hrecorded ⊢
        generalize recordEvent order t _ = y at hrecorded ⊢
        obtain ⟨t₁, i⟩ := x
        obtain ⟨t₂, j⟩ := y
        obtain rfl : i = j := hrecorded
        cases i with
        | none => rfl
        | some i => rfl

theorem outcome_finishReport (hs : Suited labels rooms) {r : Reporting}
    (hmem : r ∈ rooms.reporting) (hroom : labels.room r.room.id = workspaceId)
    (body : Body RecordEvent) :
    outcome labels workspaceId order (viewed labels workspaceId rooms) (.finishReport r body) =
      outcome labels workspaceId order rooms (.finishReport r body) := by
  have hvisitor := (hs.reporting r hmem).trans hroom
  have hsame : Prod.map unnumbered id
        (finishReport order (view labels workspaceId (numbered 0 rooms.tables)) r body).2 =
      Prod.map unnumbered id (finishReport order (numbered 0 rooms.tables) r body).2 :=
    finishReport_view (labelled_numbered hs.tables 0) hroom hvisitor body
  rw [finishReport_numbered] at hsame
  apply congrArg some
  refine Prod.ext (viewed_eq ?_ ?_ ?_) ?_
  · calc seen labels workspaceId
          (finishReport order (seen labels workspaceId rooms.tables) r body).1
        = seen labels workspaceId (seen labels workspaceId rooms.tables) :=
          seen_of_unrecorded unrecorded_finishReport
      _ = seen labels workspaceId rooms.tables := seen_seen
      _ = seen labels workspaceId (finishReport order rooms.tables r body).1 :=
          (seen_of_unrecorded unrecorded_finishReport).symm
  · exact filter_filter_self _ _
  · exact filter_erase_filter _ _ _
  · exact hsame

theorem outcome_view (hs : Suited labels rooms) {request : RoomRequest}
    (hconcerns : concerns labels workspaceId rooms request = true)
    (hfree : Free labels workspaceId rooms.tables request = true) :
    outcome labels workspaceId order (viewed labels workspaceId rooms) request =
      outcome labels workspaceId order rooms request := by
  cases request with
  | route rowId event =>
    have hl := labelled_numbered hs.tables rowId
    cases event with
    | wait milliseconds => cases hconcerns
    | createRoom owner name slug =>
      obtain ⟨rfl, hlabel, -⟩ := of_decide_eq_true hconcerns
      apply outcome_of_tables (fun t =>
        caught t (fun _ => .refused 409 "A room with that slug already exists")
          (createRoom t owner name slug)) (fun _ => rfl)
      rw [createRoom_view (t := numbered rowId rooms.tables) hlabel (forall_of_all hfree)]
      exact caught_view _ _
    | putRoom roomId updates =>
      have howner := of_decide_eq_true hconcerns
      exact outcome_of_tables (putRoom · roomId updates) (fun _ => rfl) 
        (putRoom_view howner (forall_of_all hfree))
    | removeRoom roomId =>
      have howner := of_decide_eq_true hconcerns
      exact outcome_of_tables (removeRoom · roomId) (fun _ => rfl) (removeRoom_view howner)
    | addDocument roomId filename originalName mimeType allowDownload =>
      obtain ⟨howner, -, -⟩ := of_decide_eq_true hconcerns
      apply outcome_of_tables (fun t => match getRoom t roomId with
        | none => (t, .refused 404 "Room not found")
        | some _ => (addDocument t roomId filename originalName mimeType allowDownload, .done))
        (fun _ => rfl)
      rw [getRoom_view howner, addDocument_view howner]
      split
      · rfl
      · rfl
    | putDocument roomId docId allowDownload =>
      have howner := of_decide_eq_true hconcerns
      apply outcome_of_tables (fun t =>
        withDocument t roomId docId (updateDocument t docId allowDownload)) (fun _ => rfl)
      rw [updateDocument_view]
      exact withDocument_view hl howner docId _
    | removeDocument roomId docId =>
      have howner := of_decide_eq_true hconcerns
      apply outcome_of_tables (fun t => withDocument t roomId docId (deleteDocument t docId))
        (fun _ => rfl)
      rw [deleteDocument_view]
      exact withDocument_view hl howner docId _
    | postLink roomId passcode allowDownload expiresAt token =>
      obtain ⟨howner, -, -⟩ := of_decide_eq_true hconcerns
      exact outcome_of_tables (postLink · roomId passcode allowDownload expiresAt token)
        (fun _ => rfl) (postLink_view howner (forall_of_all hfree))
    | putLink roomId linkId updates =>
      have howner := of_decide_eq_true hconcerns
      apply outcome_of_tables (fun t => withLink t roomId linkId (updateLink t linkId updates))
        (fun _ => rfl)
      rw [updateLink_view]
      exact withLink_view howner linkId _
    | removeLink roomId linkId =>
      have howner := of_decide_eq_true hconcerns
      apply outcome_of_tables (fun t => withLink t roomId linkId (deleteLink t linkId))
        (fun _ => rfl)
      rw [deleteLink_view]
      exact withLink_view howner linkId _
    | beginEnter token forwardedFor userAgent => exact outcome_beginEnter hconcerns
    | finishEnter i body sessionToken notified => cases hconcerns
    | getFile token docId cookie download file => exact outcome_getFile hs.tables hconcerns
    | beginReport token cookie => exact outcome_beginReport hconcerns
    | finishReport i body => cases hconcerns
  | finishEnter rowId entering body sessionToken notified =>
    obtain ⟨hmem, hroom, -⟩ := of_decide_eq_true hconcerns
    exact outcome_finishEnter hs hmem hroom (forall_of_all hfree) body notified
  | finishReport reporting body =>
    obtain ⟨hmem, hroom⟩ := of_decide_eq_true hconcerns
    exact outcome_finishReport hs hmem hroom body

/-! ### Runs -/

/-- What the rooms have come to, and what each request was answered and announced with. -/
structure History where
  rooms : DataRooms.Routes.World
  answers : List (Nat × Reply × List Broadcast)

inductive Event where
  | wait (milliseconds : Nat)
  | inside (workspaceId : Nat) (request : RoomRequest)

/-- The requests of all workspaces, and the clock. -/
def machine (labels : Labels) (order : FirstBy LatestEvent) : Machine History Event where
  step s
    | .wait milliseconds =>
      some { s with rooms := { s.rooms with
        tables := { s.rooms.tables with now := s.rooms.tables.now + milliseconds } } }
    | .inside workspaceId request =>
      if concerns labels workspaceId s.rooms request then
        (performRoom order s.rooms request).map fun (rooms, reply, broadcasts) =>
          ⟨rooms, s.answers ++ [(workspaceId, unnumbered reply, broadcasts)]⟩
      else none

/-- The events that a workspace takes part in. -/
def shared (workspaceId : Nat) : Event → Bool
  | .wait _ => true
  | .inside owner _ => owner = workspaceId

/-- The workspace chooses no slug and no token that another one uses. -/
def Chosen (labels : Labels) (workspaceId : Nat) (s : History) : Event → Prop
  | .wait _ => True
  | .inside owner request =>
    owner = workspaceId → Free labels workspaceId s.rooms.tables request = true

instance (labels : Labels) (workspaceId : Nat) (s : History) :
    DecidablePred (Chosen labels workspaceId s)
  | .wait _ => inferInstanceAs (Decidable True)
  | .inside owner request => inferInstanceAs (Decidable
      (owner = workspaceId → Free labels workspaceId s.rooms.tables request = true))

/-- What was said to a workspace. -/
def told (workspaceId : Nat) (s : History) : List (Nat × Reply × List Broadcast) :=
  s.answers.filter fun answer => answer.1 = workspaceId

/-- A workspace sees the same of both. -/
structure Alike (labels : Labels) (workspaceId : Nat) (s s' : History) : Prop where
  rooms : viewed labels workspaceId s.rooms = viewed labels workspaceId s'.rooms
  told : told workspaceId s = told workspaceId s'

theorem alike_equivalence : Equivalence (Alike labels workspaceId) where
  refl _ := ⟨rfl, rfl⟩
  symm h := ⟨h.rooms.symm, h.told.symm⟩
  trans h h' := ⟨h.rooms.trans h'.rooms, h.told.trans h'.told⟩

theorem inside_cases {s s' : History} {owner : Nat} {request : RoomRequest}
    (h : (machine labels order).step s (.inside owner request) = some s') :
    concerns labels owner s.rooms request = true ∧
      ∃ reply broadcasts, performRoom order s.rooms request = some (s'.rooms, reply, broadcasts) ∧
        s'.answers = s.answers ++ [(owner, unnumbered reply, broadcasts)] := by
  simp only [machine] at h
  split at h
  · rename_i hconcerns
    obtain ⟨⟨rooms, reply, broadcasts⟩, hperform, rfl⟩ := Option.map_eq_some_iff.mp h
    exact ⟨hconcerns, reply, broadcasts, hperform, rfl⟩
  · cases h

theorem suited_wait {s s' : History} {milliseconds : Nat} (hs : Suited labels s.rooms)
    (h : (machine labels order).step s (.wait milliseconds) = some s') :
    Suited labels s'.rooms := by
  obtain rfl := Option.some.inj h
  exact ⟨⟨hs.tables.rooms, hs.tables.documents, hs.tables.links, hs.tables.visitors,
    hs.tables.visitorLinks⟩, hs.entering, hs.reporting⟩

theorem viewed_wait (milliseconds : Nat) (rooms : DataRooms.Routes.World) :
    viewed labels workspaceId { rooms with
      tables := { rooms.tables with now := rooms.tables.now + milliseconds } } =
    { viewed labels workspaceId rooms with
      tables := { (viewed labels workspaceId rooms).tables with
        now := (viewed labels workspaceId rooms).tables.now + milliseconds } } := rfl

theorem unwinds (labels : Labels) (workspaceId : Nat) (order : FirstBy LatestEvent) :
    Unwinds (machine labels order) (shared workspaceId) (Chosen labels workspaceId)
      (fun s => Suited labels s.rooms) (Alike labels workspaceId) where
  equivalence := alike_equivalence
  kept s e s' hs _ hstep := by
    cases e with
    | wait milliseconds => exact suited_wait hs hstep
    | inside owner request =>
      obtain ⟨hconcerns, reply, broadcasts, hperform, -⟩ := inside_cases hstep
      exact (performRoom_steps hs hconcerns hperform).suited
  unseen s e s' hs hshared _ hstep := by
    cases e with
    | wait milliseconds => cases hshared
    | inside owner request =>
      have hother : workspaceId ≠ owner := fun h => of_decide_eq_false hshared h.symm
      obtain ⟨hconcerns, reply, broadcasts, hperform, hanswers⟩ := inside_cases hstep
      refine ⟨(performRoom_steps hs hconcerns hperform).others workspaceId hother, ?_⟩
      rw [told, told, hanswers, List.filter_append, List.filter_cons_of_neg (by simp [hother.symm]),
        List.filter_nil, List.append_nil]
  respected s t e s' t' hs ht halike hshared hfree hfree' hstep hstep' := by
    cases e with
    | wait milliseconds =>
      obtain rfl := Option.some.inj hstep
      obtain rfl := Option.some.inj hstep'
      refine ⟨?_, halike.told⟩
      show viewed labels workspaceId { s.rooms with tables := _ } =
        viewed labels workspaceId { t.rooms with tables := _ }
      rw [viewed_wait, viewed_wait, halike.rooms]
    | inside owner request =>
      obtain rfl : owner = workspaceId := of_decide_eq_true hshared
      obtain ⟨hconcerns, reply, broadcasts, hperform, hanswers⟩ := inside_cases hstep
      obtain ⟨hconcerns', reply', broadcasts', hperform', hanswers'⟩ := inside_cases hstep'
      have hsame : outcome labels owner order s.rooms request =
          outcome labels owner order t.rooms request := by
        rw [← outcome_view hs hconcerns (hfree rfl), halike.rooms,
          outcome_view ht hconcerns' (hfree' rfl)]
      rw [outcome, outcome, hperform, hperform'] at hsame
      obtain ⟨hrooms, hreply⟩ := Prod.mk.inj (Option.some.inj hsame)
      obtain ⟨hreply, rfl⟩ := Prod.mk.inj hreply
      refine ⟨hrooms, ?_⟩
      have htold := halike.told
      rw [told, told] at htold ⊢
      rw [hanswers, hanswers', List.filter_append, List.filter_append, htold, hreply]

/-- The odd ids are those of the first workspace. -/
def byParity : Labels :=
  ⟨fun id => if id % 2 = 1 then 1 else 2, fun id => if id % 2 = 1 then 1 else 2,
    fun id => if id % 2 = 1 then 1 else 2, fun id => if id % 2 = 1 then 1 else 2⟩

def dealEntering : Entering :=
  ⟨⟨1, 1, "public", true, none, false, none⟩, ⟨1, 1, "Deal", "deal", .draft⟩, "unknown", none⟩

/-- The requests of the first workspace, whose guest reads a document. -/
def deal : List Event :=
  [.inside 1 (.route 1 (.createRoom 1 "Deal" "deal")),
    .inside 1 (.route 1 (.addDocument 1 "1-terms.pdf" "terms.pdf" "application/pdf" false)),
    .inside 1 (.route 1 (.postLink 1 none false none "public")),
    .wait 1000,
    .inside 1 (.route 1 (.beginEnter "public" none none)),
    .inside 1 (.finishEnter 1 dealEntering (.parsed guest) "session" true),
    .inside 1 (.route 1 (.getFile "public" 1 (some "session") false (some "Terms")))]

/-- The same requests with those of another workspace before them and after the clock. -/
def dealBesideOther : List Event :=
  [.inside 2 (.route 2 (.createRoom 2 "Other" "other")),
    .inside 2 (.route 2 (.postLink 2 none true none "theirs"))] ++ deal.take 4 ++
  [.inside 2 (.route 2 (.removeRoom 2))] ++ deal.drop 4

end MissionControl.Events.RoomRuns
