import MissionControl.Client.Actions
import MissionControl.Foundations.Transition

/-!
The page and the server: answers to requests and the stream of events reach the page in any order,
and both may bring the same row.
-/

set_option autoImplicit false
set_option relaxedAutoImplicit false

namespace MissionControl.Client.UniqueIds

open MissionControl.Client.Actions
open MissionControl.Foundations.Schema (Json)
open MissionControl.Foundations.Transition (Machine)

/-! ### The page and the server -/

inductive Kind where
  | task
  | agent
  | notification
  | message
  deriving DecidableEq

/-- A table: the ids of its rows, and the one that the next row gets. -/
structure Table where
  ids : List Nat
  next : Nat
  next_pos : 0 < next
  ids_pos : ∀ id ∈ ids, 0 < id

namespace Table

variable (table : Table)

def insert : Table where
  ids := table.ids ++ [table.next]
  next := table.next + 1
  next_pos := Nat.succ_pos _
  ids_pos := by
    intro id hid
    rcases List.mem_append.mp hid with hid | hid
    · exact table.ids_pos id hid
    · obtain rfl := List.mem_singleton.mp hid
      exact table.next_pos

def remove (id : Nat) : Table where
  ids := table.ids.filter (· ≠ id)
  next := table.next
  next_pos := table.next_pos
  ids_pos id' hid := table.ids_pos id' (List.mem_of_mem_filter hid)

end Table

/-- How a message is sent: `handleSend` puts the answer in its place, `handleRetry` takes the message
out and adds the answer. -/
inductive Sending where
  | send
  | retry
  deriving DecidableEq

/-- A `POST` of a message that is under way, with the row that the server has made of it. -/
structure Post where
  sending : Sending
  tempId : Int
  saved : Option Entry
  deriving DecidableEq

structure World where
  store : Store
  pendingId : Int
  tables : Kind → Table
  stream : Option (List ServerEvent)
  answers : List (Kind × List Entry)
  posts : List Post

/-- A page that has just been loaded, and a server with rows of its own. -/
def World.init (tables : Kind → Table) : World := ⟨.empty, -1, tables, none, [], []⟩

inductive Event where
  /-- A row is made by anyone, with an event. -/
  | create (kind : Kind) (fields : List (String × Json))
  /-- A sync of the agents tells that agents have been made, and a visitor of a data room is told of
  by a notification; neither event has an id. -/
  | announceSync (fields : List (String × Json))
  | announceVisitor (fields : List (String × Json))
  | update (kind : Kind) (id : Nat) (fields : List (String × Json))
  | changeStatus (kind : Kind) (id : Nat) (fields : List (String × Json))
  | delete (kind : Kind) (id : Nat)
  /-- The server answers a `GET` with some of the rows. -/
  | list (kind : Kind) (rows : List Entry)
  /-- An answer reaches the page. -/
  | arrive (i : Nat)
  | connect
  | disconnect
  /-- The next event of the stream reaches the page. -/
  | deliver (now : Nat)
  /-- The panel for the chat is made anew. -/
  | mount
  | send (fields : List (String × Json))
  | retry (tempId : Int)
  /-- The server saves a message that is posted. -/
  | save (i : Nat) (fields : List (String × Json))
  /-- The answer to a `POST` reaches the page. -/
  | respond (i : Nat)
  | fail (i : Nat)
  | discard (tempId : Int)

/-- The event that tells of a new row. -/
def created (kind : Kind) (data : Entry) : ServerEvent :=
  match kind with
  | .task => .taskCreated data
  | .agent => .agentCreated data
  | .notification => .notificationCreated data
  | .message => .chatMessage data

/-- The event that tells of a change; the page handles none for notifications and messages. -/
def updated (kind : Kind) (data : Entry) : ServerEvent :=
  match kind with
  | .task => .taskUpdated data
  | .agent => .agentUpdated data
  | .notification | .message => .other

def statusChanged (kind : Kind) (data : Entry) : ServerEvent :=
  match kind with
  | .task => .taskStatusChanged data
  | .agent => .agentStatusChanged data
  | .notification | .message => .other

def deleted (kind : Kind) (data : Entry) : ServerEvent :=
  match kind with
  | .task => .taskDeleted data
  | .agent | .notification | .message => .other

/-- What the page makes of an answer. -/
def load (s : Store) (kind : Kind) (rows : List Entry) : Store :=
  match kind with
  | .task => s.setTasks rows
  | .agent => s.setAgents rows
  | .notification => s.setNotifications rows
  | .message => s.setChatMessages rows

namespace World

/-- An event is seen by a page that is connected. -/
def broadcast (w : World) (event : ServerEvent) : World :=
  { w with stream := w.stream.map (· ++ [event]) }

/-- A new row in a table. -/
def insert (w : World) (kind : Kind) : World :=
  { w with tables := Function.update w.tables kind (w.tables kind).insert }

def remove (w : World) (kind : Kind) (id : Nat) : World :=
  { w with tables := Function.update w.tables kind ((w.tables kind).remove id) }

/-- The row that a table gets next. -/
def newRow (w : World) (kind : Kind) (fields : List (String × Json)) : Entry :=
  ⟨some (w.tables kind).next, fields⟩

/-- The page puts the row of the server in the place of the message that was pending. -/
def accept (w : World) (post : Post) (message : Entry) : Store :=
  match post.sending with
  | .send => w.store.replacePendingMessage post.tempId message
  | .retry => (w.store.removePendingMessage post.tempId).addChatMessage message

end World

/-- Rows of a table, each of them once. -/
def Lists (table : Table) (rows : List Entry) : Prop :=
  (rows.map Entry.id).Nodup ∧ ∀ row ∈ rows, ∃ id ∈ table.ids, row.id = some (id : Int)

instance (table : Table) (rows : List Entry) : Decidable (Lists table rows) :=
  inferInstanceAs (Decidable (_ ∧ _))

def pendingStatus (status : String) : List (String × Json) := [("pendingStatus", .string status)]

def step (w : World) : Event → Option World
  | .create kind fields =>
    some ((w.insert kind).broadcast (created kind (w.newRow kind fields)))
  | .announceSync fields => some (w.broadcast (.agentCreated ⟨none, fields⟩))
  | .announceVisitor fields => some (w.broadcast (.notificationCreated ⟨none, fields⟩))
  | .update kind id fields =>
    if id ∈ (w.tables kind).ids then some (w.broadcast (updated kind ⟨some id, fields⟩)) else none
  | .changeStatus kind id fields =>
    if id ∈ (w.tables kind).ids then some (w.broadcast (statusChanged kind ⟨some id, fields⟩))
    else none
  | .delete kind id => some ((w.remove kind id).broadcast (deleted kind ⟨some id, []⟩))
  | .list kind rows =>
    if Lists (w.tables kind) rows then some { w with answers := w.answers ++ [(kind, rows)] }
    else none
  | .arrive i =>
    (w.answers[i]?).map fun answer =>
      { w with
        store := load w.store answer.1 answer.2
        answers := w.answers.eraseIdx i }
  | .connect => some { w with stream := some [] }
  | .disconnect => some { w with stream := none }
  | .deliver now =>
    match w.stream with
    | some (event :: rest) =>
      some { w with
        store := dispatch now w.store event
        stream := some rest }
    | some [] | none => none
  | .mount => some { w with pendingId := -1 }
  | .send fields =>
    some { w with
      pendingId := w.pendingId - 1
      store := w.store.addChatMessage
        ⟨some (w.pendingId - 1), fields ++ pendingStatus "sending"⟩
      posts := w.posts ++ [⟨.send, w.pendingId - 1, none⟩] }
  | .retry tempId =>
    if tempId < 0 then
      some { w with
        store := w.store.updatePendingMessage tempId (pendingStatus "sending")
        posts := w.posts ++ [⟨.retry, tempId, none⟩] }
    else none
  | .save i fields =>
    match w.posts[i]? with
    | some ⟨sending, tempId, none⟩ =>
      let message := w.newRow .message fields
      some { (w.insert .message).broadcast (.chatMessage message) with
        posts := w.posts.set i ⟨sending, tempId, some message⟩ }
    | _ => none
  | .respond i =>
    match w.posts[i]? with
    | some ⟨sending, tempId, some message⟩ =>
      some { w with
        store := w.accept ⟨sending, tempId, some message⟩ message
        posts := w.posts.eraseIdx i }
    | _ => none
  | .fail i =>
    (w.posts[i]?).map fun post =>
      { w with
        store := w.store.updatePendingMessage post.tempId (pendingStatus "failed")
        posts := w.posts.eraseIdx i }
  | .discard tempId =>
    some { w with store := w.store.removePendingMessage tempId }

def machine : Machine World Event := ⟨step⟩

/-! ### What is promised -/

def ids (entries : List Entry) : List (Option Int) := entries.map Entry.id

/-- No two entries of a list have the same id. -/
structure Unique (s : Store) : Prop where
  tasks : (ids s.tasks).Nodup
  agents : (ids s.agents).Nodup
  notifications : (ids s.notifications).Nodup
  chatMessages : (ids s.chatMessages).Nodup

/-- What an event adds is not in the store yet. A message is left out if it is there. -/
def NewTo (s : Store) : ServerEvent → Prop
  | .taskCreated data => data.id ∉ ids s.tasks
  | .agentCreated data => data.id ∉ ids s.agents
  | .notificationCreated data => (idOf data).isSome → data.id ∉ ids s.notifications
  | .taskUpdated _ | .taskStatusChanged _ | .taskDeleted _ | .agentUpdated _
  | .agentStatusChanged _ | .chatMessage _ | .other => True

/-- The messages that stay when one more is added. -/
def stays (messages : List Entry) : List Entry := messages.drop (messages.length - 499)

/-- The condition on a step: a row that the stream tells of has not been loaded before, the answer to
a message reaches the page before its row does by another way, and a message that is pending gets a
number that no other one has. -/
def InTime (w : World) : Event → Prop
  | .deliver _ => ∀ event rest, w.stream = some (event :: rest) → NewTo w.store event
  | .respond i =>
    ∀ tempId message, w.posts[i]? = some ⟨.send, tempId, some message⟩ →
      some tempId ∈ ids w.store.chatMessages → message.id ∉ ids w.store.chatMessages
  | .send _ => some (w.pendingId - 1) ∉ ids (stays w.store.chatMessages)
  | _ => True

/-! ### Lists of ids -/

variable {s : Store}

theorem ids_cons (entry : Entry) (entries : List Entry) :
    ids (entry :: entries) = entry.id :: ids entries := rfl

theorem ids_append (entries entries' : List Entry) :
    ids (entries ++ entries') = ids entries ++ ids entries' :=
  List.map_append

theorem ids_updateEntries (id : Int) (updates : List (String × Json)) (entries : List Entry) :
    ids (updateEntries id updates entries) = ids entries := by
  simp only [ids, updateEntries, List.map_map]
  apply List.map_congr_left
  intro entry _
  simp only [Function.comp_apply]
  split
  · rfl
  · rfl

theorem ids_deleteEntries_sublist (id : Int) (entries : List Entry) :
    (ids (deleteEntries id entries)).Sublist (ids entries) :=
  List.filter_sublist.map _

theorem ids_lastMessages_sublist (messages : List Entry) :
    (ids (lastMessages messages)).Sublist (ids messages) :=
  (List.drop_sublist _ _).map _

theorem lastMessages_snoc (messages : List Entry) (message : Entry) :
    lastMessages (messages ++ [message]) = stays messages ++ [message] := by
  have hlength : (messages ++ [message]).length - 500 = messages.length - 499 := by
    simp only [List.length_append, List.length_singleton]
    omega
  rw [lastMessages, hlength, List.drop_append_of_le_length (by omega)]
  rfl

theorem ids_stays_sublist (messages : List Entry) : (ids (stays messages)).Sublist (ids messages) :=
  (List.drop_sublist _ _).map _

theorem nodup_lastMessages_snoc_iff {messages : List Entry} (h : (ids messages).Nodup)
    (message : Entry) :
    (ids (lastMessages (messages ++ [message]))).Nodup ↔ message.id ∉ ids (stays messages) := by
  rw [lastMessages_snoc, ids_append, List.nodup_append]
  constructor
  · rintro ⟨-, -, hne⟩ hmem
    exact hne _ hmem _ (List.mem_singleton_self _) rfl
  · intro hnew
    refine ⟨h.sublist (ids_stays_sublist messages), List.nodup_singleton _, ?_⟩
    rintro a ha b hb rfl
    obtain rfl : a = message.id := List.mem_singleton.mp hb
    exact hnew ha

attribute [local irreducible] lastMessages

/-- One id of a list is replaced. -/
theorem nodup_replace_iff {l : List (Option Int)} (h : l.Nodup) {a b : Option Int} (hab : a ≠ b) :
    (l.map fun i => if i = a then b else i).Nodup ↔ (a ∈ l → b ∉ l) := by
  rw [List.nodup_map_iff_inj_on h]
  constructor
  · intro hinj ha hb
    apply hab
    apply hinj a ha b hb
    rw [if_pos rfl, if_neg hab.symm]
  · intro hnew x hx y hy hxy
    by_cases hxa : x = a
    · by_cases hya : y = a
      · rw [hxa, hya]
      · rw [if_pos hxa, if_neg hya] at hxy
        exact absurd (hxy ▸ hy) (hnew (hxa ▸ hx))
    · by_cases hya : y = a
      · rw [if_neg hxa, if_pos hya] at hxy
        exact absurd (hxy ▸ hx) (hnew (hya ▸ hy))
      · rwa [if_neg hxa, if_neg hya] at hxy

theorem ids_replacePendingMessage (s : Store) (tempId : Int) (message : Entry) :
    ids (s.replacePendingMessage tempId message).chatMessages =
      (ids s.chatMessages).map fun i => if i = some tempId then message.id else i := by
  simp only [ids, Store.replacePendingMessage, List.map_map]
  apply List.map_congr_left
  intro m _
  simp only [Function.comp_apply, Entry.update]
  split
  · rfl
  · rfl

/-! ### What an action does to the ids -/

theorem addChatMessage_tasks (s : Store) (message : Entry) :
    (s.addChatMessage message).tasks = s.tasks ∧ (s.addChatMessage message).agents = s.agents ∧
      (s.addChatMessage message).notifications = s.notifications := by
  unfold Store.addChatMessage
  split
  · exact ⟨rfl, rfl, rfl⟩
  · exact ⟨rfl, rfl, rfl⟩

/-- The lists other than the messages are as they were. -/
theorem unique_of_messages {s' : Store} (h : Unique s)
    (hsame : s'.tasks = s.tasks ∧ s'.agents = s.agents ∧ s'.notifications = s.notifications) :
    Unique s' ↔ (ids s'.chatMessages).Nodup := by
  refine ⟨Unique.chatMessages, fun hmessages => ⟨?_, ?_, ?_, hmessages⟩⟩
  · exact hsame.1 ▸ h.tasks
  · exact hsame.2.1 ▸ h.agents
  · exact hsame.2.2 ▸ h.notifications

/-- A message with an id of the server is added safely. -/
theorem unique_addChatMessage_of_pos (h : Unique s) {message : Entry}
    (hpos : message.id.any (0 < ·) = true) : Unique (s.addChatMessage message) := by
  rw [unique_of_messages h (addChatMessage_tasks s message)]
  unfold Store.addChatMessage
  by_cases hthere : ∃ m ∈ s.chatMessages, m.id = message.id
  · rw [if_pos ⟨hpos, hthere⟩]
    exact h.chatMessages
  · rw [if_neg (fun hskip => hthere hskip.2)]
    show (ids (lastMessages (s.chatMessages ++ [message]))).Nodup
    refine (nodup_lastMessages_snoc_iff h.chatMessages message).mpr fun hmem => hthere ?_
    exact List.mem_map.mp ((ids_stays_sublist _).subset hmem)

/-- A message with a number of the page is added safely exactly if no other one has it. -/
theorem unique_addChatMessage_iff (h : Unique s) {message : Entry}
    (hneg : message.id.any (0 < ·) = false) :
    Unique (s.addChatMessage message) ↔ message.id ∉ ids (stays s.chatMessages) := by
  rw [unique_of_messages h (addChatMessage_tasks s message)]
  unfold Store.addChatMessage
  rw [if_neg (fun hskip => by simp [hneg] at hskip)]
  show (ids (lastMessages (s.chatMessages ++ [message]))).Nodup ↔ _
  exact nodup_lastMessages_snoc_iff h.chatMessages message

theorem unique_replacePendingMessage_iff (h : Unique s) {tempId : Int} {message : Entry}
    (hne : some tempId ≠ message.id) :
    Unique (s.replacePendingMessage tempId message) ↔
      (some tempId ∈ ids s.chatMessages → message.id ∉ ids s.chatMessages) := by
  have hothers : Unique (s.replacePendingMessage tempId message) ↔
      (ids (s.replacePendingMessage tempId message).chatMessages).Nodup :=
    unique_of_messages h ⟨rfl, rfl, rfl⟩
  rw [hothers, ids_replacePendingMessage]
  exact nodup_replace_iff h.chatMessages hne

theorem unique_updatePendingMessage (h : Unique s) (tempId : Int)
    (updates : List (String × Json)) : Unique (s.updatePendingMessage tempId updates) :=
  { h with chatMessages := (ids_updateEntries tempId updates s.chatMessages).symm ▸ h.chatMessages }

theorem unique_removePendingMessage (h : Unique s) (tempId : Int) :
    Unique (s.removePendingMessage tempId) :=
  { h with
    chatMessages := h.chatMessages.sublist (ids_deleteEntries_sublist tempId s.chatMessages) }

theorem unique_updateTask (h : Unique s) (id : Int) (updates : List (String × Json)) :
    Unique (s.updateTask id updates) :=
  { h with tasks := (ids_updateEntries id updates s.tasks).symm ▸ h.tasks }

theorem unique_deleteTask (h : Unique s) (id : Int) : Unique (s.deleteTask id) :=
  { h with tasks := h.tasks.sublist (ids_deleteEntries_sublist id s.tasks) }

theorem unique_updateAgent (h : Unique s) (id : Int) (updates : List (String × Json)) :
    Unique (s.updateAgent id updates) :=
  { h with agents := (ids_updateEntries id updates s.agents).symm ▸ h.agents }

theorem unique_load (h : Unique s) (kind : Kind) {rows : List Entry} (hrows : (ids rows).Nodup) :
    Unique (load s kind rows) := by
  cases kind with
  | task => exact { h with tasks := hrows }
  | agent => exact { h with agents := hrows }
  | notification => exact { h with notifications := hrows }
  | message =>
    have hmessages : (ids (load s .message rows).chatMessages).Nodup :=
      hrows.sublist (ids_lastMessages_sublist rows)
    exact { h with chatMessages := hmessages }

/-- A message that the stream tells of has an id of the server. -/
def FromServer : ServerEvent → Prop
  | .chatMessage data => data.id.any (0 < ·) = true
  | _ => True

/-- An event keeps the ids apart exactly if what it adds is not there. -/
theorem unique_dispatch_iff (h : Unique s) (now : Nat) {event : ServerEvent}
    (hserver : FromServer event) : Unique (dispatch now s event) ↔ NewTo s event := by
  cases event with
  | taskCreated data =>
    constructor
    · intro hunique
      exact (List.nodup_cons.mp hunique.tasks).1
    · intro hnew
      exact { h with tasks := List.nodup_cons.mpr ⟨hnew, h.tasks⟩ }
  | agentCreated data =>
    constructor
    · intro hunique
      exact (List.nodup_cons.mp hunique.agents).1
    · intro hnew
      exact { h with agents := List.nodup_cons.mpr ⟨hnew, h.agents⟩ }
  | notificationCreated data =>
    simp only [dispatch, NewTo]
    cases hid : idOf data with
    | none => exact iff_of_true h (fun hsome => by cases hsome)
    | some id =>
      constructor
      · intro hunique _
        exact (List.nodup_cons.mp hunique.notifications).1
      · intro hnew
        exact { h with notifications := List.nodup_cons.mpr ⟨hnew rfl, h.notifications⟩ }
  | taskUpdated data =>
    refine iff_of_true ?_ trivial
    simp only [dispatch]
    cases idOf data with
    | none => exact h
    | some id => exact unique_updateTask h id data.fields
  | taskStatusChanged data =>
    refine iff_of_true ?_ trivial
    simp only [dispatch]
    cases idOf data with
    | none => exact h
    | some id => exact unique_updateTask h id _
  | taskDeleted data =>
    refine iff_of_true ?_ trivial
    simp only [dispatch]
    cases idOf data with
    | none => exact h
    | some id => exact unique_deleteTask h id
  | agentUpdated data | agentStatusChanged data =>
    refine iff_of_true ?_ trivial
    simp only [dispatch]
    cases idOf data with
    | none => exact h
    | some id => exact unique_updateAgent h id data.fields
  | chatMessage data =>
    refine iff_of_true ?_ trivial
    simp only [dispatch]
    cases idOf data with
    | none => exact h
    | some id => exact unique_addChatMessage_of_pos h hserver
  | other => exact iff_of_true h trivial

/-! ### Runs -/

variable {w w' : World} {e : Event}

/-- What holds in every state in which the ids are told apart. -/
structure Sound (w : World) : Prop where
  unique : Unique w.store
  stream : ∀ events, w.stream = some events → ∀ event ∈ events, FromServer event
  answers : ∀ answer ∈ w.answers, (ids answer.2).Nodup
  posts : ∀ post ∈ w.posts, post.tempId < 0 ∧
    ∀ message, post.saved = some message → message.id.any (0 < ·) = true
  pendingId : w.pendingId < 0

theorem sound_init (tables : Kind → Table) : Sound (World.init tables) where
  unique := ⟨List.nodup_nil, List.nodup_nil, List.nodup_nil, List.nodup_nil⟩
  stream _ h := nomatch h
  answers _ h := nomatch h
  posts _ h := nomatch h
  pendingId := show (-1 : Int) < 0 by decide

theorem fromServer_newRow (w : World) (fields : List (String × Json)) :
    (w.newRow .message fields).id.any (0 < ·) = true := by
  have hpos := (w.tables .message).next_pos
  simp only [World.newRow, Option.any_some, decide_eq_true_eq]
  omega

theorem fromServer_created (w : World) (kind : Kind) (fields : List (String × Json)) :
    FromServer (created kind (w.newRow kind fields)) := by
  cases kind with
  | task | agent | notification => trivial
  | message => exact fromServer_newRow w fields

/-- An event at the end of the stream. -/
theorem stream_broadcast {event : ServerEvent} (hevent : FromServer event)
    (h : ∀ events, w.stream = some events → ∀ e ∈ events, FromServer e) :
    ∀ events, (w.broadcast event).stream = some events → ∀ e ∈ events, FromServer e := by
  intro events hevents e he
  obtain ⟨events', hstream, rfl⟩ := Option.map_eq_some_iff.mp hevents
  rcases List.mem_append.mp he with he | he
  · exact h events' hstream e he
  · obtain rfl := List.mem_singleton.mp he
    exact hevent

/-- An event of the server changes nothing on the page. -/
theorem sound_broadcast {w₀ : World} {event : ServerEvent} (h : Sound w)
    (hevent : FromServer event) (hstore : w₀.store = w.store) (hstream : w₀.stream = w.stream)
    (hanswers : w₀.answers = w.answers) (hposts : w₀.posts = w.posts)
    (hpending : w₀.pendingId = w.pendingId) : Sound (w₀.broadcast event) where
  unique := hstore ▸ h.unique
  stream := stream_broadcast hevent (hstream ▸ h.stream)
  answers := hanswers ▸ h.answers
  posts := hposts ▸ h.posts
  pendingId := hpending ▸ h.pendingId

/-- A step keeps what holds, with the ids told apart exactly if it is in time. -/
theorem step_keeps (h : Sound w) (hstep : step w e = some w') :
    (Unique w'.store ↔ InTime w e) ∧ (Unique w'.store → Sound w') := by
  have hsilent : ∀ {w'' : World}, InTime w e → Sound w'' → w'' = w' →
      (Unique w'.store ↔ InTime w e) ∧ (Unique w'.store → Sound w') := by
    rintro w'' htime hsound rfl
    exact ⟨iff_of_true hsound.unique htime, fun _ => hsound⟩
  cases e with
  | create kind fields =>
    refine hsilent trivial ?_ (Option.some.inj hstep)
    exact sound_broadcast h (fromServer_created w kind fields) rfl rfl rfl rfl rfl
  | announceSync fields =>
    refine hsilent trivial ?_ (Option.some.inj hstep)
    exact sound_broadcast h trivial rfl rfl rfl rfl rfl
  | announceVisitor fields =>
    refine hsilent trivial ?_ (Option.some.inj hstep)
    exact sound_broadcast h trivial rfl rfl rfl rfl rfl
  | update kind id fields =>
    obtain ⟨-, hstep⟩ := Option.ite_none_right_eq_some.mp hstep
    refine hsilent trivial ?_ (Option.some.inj hstep)
    exact sound_broadcast h (by cases kind <;> trivial) rfl rfl rfl rfl rfl
  | changeStatus kind id fields =>
    obtain ⟨-, hstep⟩ := Option.ite_none_right_eq_some.mp hstep
    refine hsilent trivial ?_ (Option.some.inj hstep)
    exact sound_broadcast h (by cases kind <;> trivial) rfl rfl rfl rfl rfl
  | delete kind id =>
    refine hsilent trivial ?_ (Option.some.inj hstep)
    exact sound_broadcast h (by cases kind <;> trivial) rfl rfl rfl rfl rfl
  | list kind rows =>
    obtain ⟨hlists, hstep⟩ := Option.ite_none_right_eq_some.mp hstep
    refine hsilent trivial ?_ (Option.some.inj hstep)
    refine { h with answers := fun answer hanswer => ?_ }
    rcases List.mem_append.mp hanswer with hanswer | hanswer
    · exact h.answers answer hanswer
    · obtain rfl := List.mem_singleton.mp hanswer
      exact hlists.1
  | arrive i =>
    obtain ⟨answer, hanswer, hw'⟩ := Option.map_eq_some_iff.mp hstep
    refine hsilent trivial ?_ hw'
    exact { h with
      unique := unique_load h.unique answer.1 (h.answers answer (List.mem_of_getElem? hanswer))
      answers := fun answer' h' => h.answers answer' (List.mem_of_mem_eraseIdx h') }
  | connect =>
    refine hsilent trivial ?_ (Option.some.inj hstep)
    refine { h with stream := fun events hevents => ?_ }
    obtain rfl := Option.some.inj hevents
    exact fun event hevent => nomatch hevent
  | disconnect =>
    refine hsilent trivial ?_ (Option.some.inj hstep)
    exact { h with stream := fun events hevents => nomatch hevents }
  | deliver now =>
    simp only [step] at hstep
    cases hstream : w.stream with
    | none => simp [hstream] at hstep
    | some events =>
      cases events with
      | nil => simp [hstream] at hstep
      | cons event rest =>
        simp only [hstream, Option.some.injEq] at hstep
        subst hstep
        have hserver := h.stream _ hstream
        constructor
        · rw [unique_dispatch_iff h.unique now (hserver event List.mem_cons_self)]
          simp only [InTime, hstream, Option.some.injEq, List.cons.injEq]
          constructor
          · rintro hnew event' rest' ⟨rfl, rfl⟩
            exact hnew
          · intro htime
            exact htime event rest ⟨rfl, rfl⟩
        · intro hunique
          refine { h with unique := hunique, stream := fun events hevents => ?_ }
          obtain rfl := Option.some.inj hevents
          exact fun event' hevent' => hserver event' (List.mem_cons_of_mem event hevent')
  | mount =>
    refine hsilent trivial ?_ (Option.some.inj hstep)
    exact { h with pendingId := show (-1 : Int) < 0 by decide }
  | send fields =>
    obtain rfl := Option.some.inj hstep
    have hpending := h.pendingId
    constructor
    · refine unique_addChatMessage_iff h.unique ?_
      simp only [Option.any_some, decide_eq_false_iff_not]
      omega
    · intro hunique
      refine { h with unique := hunique, posts := fun post hpost => ?_, pendingId := ?_ }
      · rcases List.mem_append.mp hpost with hpost | hpost
        · exact h.posts post hpost
        · obtain rfl := List.mem_singleton.mp hpost
          exact ⟨show w.pendingId - 1 < 0 by omega, fun message hmessage => nomatch hmessage⟩
      · show w.pendingId - 1 < 0
        omega
  | retry tempId =>
    obtain ⟨htemp, hstep⟩ := Option.ite_none_right_eq_some.mp hstep
    refine hsilent trivial ?_ (Option.some.inj hstep)
    refine { h with unique := unique_updatePendingMessage h.unique _ _, posts := fun post hpost => ?_ }
    rcases List.mem_append.mp hpost with hpost | hpost
    · exact h.posts post hpost
    · obtain rfl := List.mem_singleton.mp hpost
      exact ⟨htemp, fun message hmessage => nomatch hmessage⟩
  | save i fields =>
    simp only [step] at hstep
    split at hstep
    · rename_i sending tempId hpost
      have hsound : Sound ((w.insert .message).broadcast
          (.chatMessage (w.newRow .message fields))) :=
        sound_broadcast h (fromServer_newRow w fields) rfl rfl rfl rfl rfl
      refine hsilent trivial ?_ (Option.some.inj hstep)
      refine { hsound with posts := fun post hmem => ?_ }
      rcases List.mem_or_eq_of_mem_set hmem with hmem | rfl
      · exact h.posts post hmem
      · refine ⟨(h.posts _ (List.mem_of_getElem? hpost)).1, fun message hmessage => ?_⟩
        obtain rfl := Option.some.inj hmessage
        exact fromServer_newRow w fields
    · cases hstep
  | respond i =>
    simp only [step] at hstep
    split at hstep
    · rename_i sending tempId message hpost
      obtain rfl := Option.some.inj hstep
      obtain ⟨htemp, hsaved⟩ := h.posts _ (List.mem_of_getElem? hpost)
      have hpos := hsaved message rfl
      constructor
      · cases sending with
        | retry =>
          refine iff_of_true ?_ ?_
          · exact unique_addChatMessage_of_pos (unique_removePendingMessage h.unique tempId) hpos
          · intro tempId' message' hpost'
            rw [hpost] at hpost'
            cases hpost'
        | send =>
          have hne : some tempId ≠ message.id := by
            intro hsame
            rw [← hsame, Option.any_some, decide_eq_true_eq] at hpos
            dsimp only at htemp
            omega
          refine (unique_replacePendingMessage_iff h.unique hne).trans ?_
          simp only [InTime, hpost, Option.some.injEq, Post.mk.injEq, true_and]
          constructor
          · rintro hnew tempId' message' ⟨rfl, rfl⟩
            exact hnew
          · intro htime
            exact htime tempId message ⟨rfl, rfl⟩
      · intro hunique
        exact { h with
          unique := hunique
          posts := fun post hpost => h.posts post (List.mem_of_mem_eraseIdx hpost) }
    · cases hstep
  | fail i =>
    obtain ⟨post, -, hw'⟩ := Option.map_eq_some_iff.mp hstep
    refine hsilent trivial ?_ hw'
    exact { h with
      unique := unique_updatePendingMessage h.unique _ _
      posts := fun post hpost => h.posts post (List.mem_of_mem_eraseIdx hpost) }
  | discard tempId =>
    refine hsilent trivial ?_ (Option.some.inj hstep)
    exact { h with unique := unique_removePendingMessage h.unique tempId }

/-- Only a step that can be taken is late. -/
theorem enabled_of_late (h : ¬ InTime w e) : ∃ w', step w e = some w' := by
  cases e with
  | deliver now =>
    obtain ⟨event, h⟩ := not_forall.mp h
    obtain ⟨rest, h⟩ := not_forall.mp h
    obtain ⟨hstream, -⟩ := Classical.not_imp.mp h
    simp [step, hstream]
  | respond i =>
    obtain ⟨tempId, h⟩ := not_forall.mp h
    obtain ⟨message, h⟩ := not_forall.mp h
    obtain ⟨hpost, -⟩ := Classical.not_imp.mp h
    simp [step, hpost]
  | send fields => exact ⟨_, rfl⟩
  | create kind fields | update kind id fields | changeStatus kind id fields | list kind rows =>
    exact absurd trivial h
  | announceSync fields | announceVisitor fields => exact absurd trivial h
  | delete kind id => exact absurd trivial h
  | arrive i | fail i => exact absurd trivial h
  | connect | disconnect | mount => exact absurd trivial h
  | retry tempId | discard tempId => exact absurd trivial h
  | save i fields => exact absurd trivial h

/-- The ids are told apart in every state of a run exactly if every step of it is in time. -/
theorem unique_ids_iff (tables : Kind → Table) (trace : List Event) :
    machine.Always (fun w => Unique w.store) (World.init tables) trace ↔
      machine.Meets InTime (World.init tables) trace := by
  have hsound : ∀ w, Sound w → Unique w.store := fun w h => h.unique
  refine Machine.always_iff_meets hsound ?_ ?_ (sound_init tables) trace
  · intro w e w' h htime hstep
    obtain ⟨hiff, hkept⟩ := step_keeps h hstep
    exact hkept (hiff.mpr htime)
  · intro w e h hlate
    obtain ⟨w', hstep⟩ := enabled_of_late hlate
    exact ⟨w', hstep, fun hunique => hlate ((step_keeps h hstep).1.mp hunique)⟩

/-! ### Runs in which a row comes twice -/

def newTable : Table := ⟨[], 1, by decide, by simp⟩

def newTables : Kind → Table := fun _ => newTable

/-- A task is made and listed before its event reaches the page. -/
def listedFirst : List Event :=
  [.connect, .create .task [], .list .task [⟨some 1, []⟩], .arrive 0, .deliver 0]

/-- The event of a message reaches the page before the answer to its `POST`. -/
def eventFirst : List Event := [.connect, .send [], .save 0 [], .deliver 0, .respond 0]

/-- The agents are synced twice. -/
def syncedTwice : List Event :=
  [.connect, .announceSync [], .announceSync [], .deliver 0, .deliver 0]

/-- A message fails, and another one is sent from a panel that is made anew. -/
def sentAgain : List Event := [.send [], .fail 0, .mount, .send []]

def shown (s : Store) : List (Option Int) × List (Option Int) × List (Option Int) :=
  (ids s.tasks, ids s.agents, ids s.chatMessages)

theorem not_always_of_shown {trace : List Event}
    {tasks agents messages : List (Option Int)}
    (hrun : ((machine.run (World.init newTables) trace).map fun w => shown w.store) =
      some (tasks, agents, messages))
    (htwice : ¬ (tasks.Nodup ∧ agents.Nodup ∧ messages.Nodup)) :
    ¬ machine.Always (fun w => Unique w.store) (World.init newTables) trace := by
  intro hkept
  obtain ⟨w, hrun, hshown⟩ := Option.map_eq_some_iff.mp hrun
  have hunique : Unique w.store := hkept _ [] w (List.append_nil _).symm hrun
  obtain ⟨rfl, hrest⟩ := Prod.mk.inj hshown
  obtain ⟨rfl, rfl⟩ := Prod.mk.inj hrest
  exact htwice ⟨hunique.tasks, hunique.agents, hunique.chatMessages⟩

theorem ids_repeated :
    ¬ machine.Always (fun w => Unique w.store) (World.init newTables) listedFirst ∧
    ¬ machine.Always (fun w => Unique w.store) (World.init newTables) eventFirst ∧
    ¬ machine.Always (fun w => Unique w.store) (World.init newTables) syncedTwice ∧
    ¬ machine.Always (fun w => Unique w.store) (World.init newTables) sentAgain := by
  have hlisted : ((machine.run (World.init newTables) listedFirst).map fun w => shown w.store) =
      some ([some 1, some 1], [], []) := by
    decide +kernel
  have hevent : ((machine.run (World.init newTables) eventFirst).map fun w => shown w.store) =
      some ([], [], [some 1, some 1]) := by
    decide +kernel
  have hsynced : ((machine.run (World.init newTables) syncedTwice).map fun w => shown w.store) =
      some ([], [none, none], []) := by
    decide +kernel
  have hsent : ((machine.run (World.init newTables) sentAgain).map fun w => shown w.store) =
      some ([], [], [some (-2), some (-2)]) := by
    decide +kernel
  exact ⟨not_always_of_shown hlisted (by decide), not_always_of_shown hevent (by decide),
    not_always_of_shown hsynced (by decide), not_always_of_shown hsent (by decide)⟩

end MissionControl.Client.UniqueIds
