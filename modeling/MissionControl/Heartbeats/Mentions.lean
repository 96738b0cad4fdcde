import MissionControl.Comments.Notices
import MissionControl.Comments.Resolution
import MissionControl.Foundations.LikePatterns
import MissionControl.Heartbeats.Routes

/-!
The comments that the heartbeat of an agent finds by the name in their stored tokens, against those
whose mentions resolve to the agent.
-/

set_option autoImplicit false
set_option relaxedAutoImplicit false

namespace MissionControl.Heartbeats.Mentions

open MissionControl.Auth.Accounts (UserRow)
open MissionControl.Comments.Mentions
open MissionControl.Comments.Notices (Accepted accepted_of_created postComment_eq)
open MissionControl.Comments.Resolution
open MissionControl.Comments.Routes
open MissionControl.Comments.Tokens
open MissionControl.Events.Producers (Caller)
open MissionControl.Events.Stores (Agent)
open MissionControl.Foundations.JsText
open MissionControl.Foundations.LetterCase (of_small toLower_eq_iff)
open MissionControl.Foundations.LikePatterns
open MissionControl.Foundations.Lists
open MissionControl.Foundations.Query
open MissionControl.Foundations.Schema
open MissionControl.Tasks.Database (Response Task)
open MissionControl.Tasks.Validation (minLength)
open Heartbeats.Routes

/-- A comment that a request creates in the workspace, with these users and agents. -/
def Created (users : List UserRow) (agents : List Agent) (workspaceId : Nat) (comment : Comment) :
    Prop :=
  ∃ (b b' : Board) (caller : Caller) (taskId : Nat) (json : Json), b.world.agents = agents ∧
    postComment users b workspaceId caller taskId json = (b', .created comment.id) ∧
    b'.comments = b.comments ++ [comment]

/-- The comment and its task are there, and it is no older than four hours. -/
structure Recent (b : Board) (workspaceId : Nat) (comment : Comment) : Prop where
  stored : comment ∈ b.comments
  task : ∃ task ∈ b.world.tasks.tasks, comment.taskId = task.id ∧ task.workspaceId = workspaceId
  recent : fourHoursBefore b.world.now < comment.createdAt

/-- The query of the mentions finds the comment, whether or not it is among the first. -/
def Selected (b : Board) (agentName : String) (workspaceId : Nat) (comment : Comment) : Prop :=
  ∃ task, (comment, task) ∈ mentionRows b agentName workspaceId (fourHoursBefore b.world.now)

/-- The handle can be the token of a mention. -/
def Mentionable (handle : String) : Prop := handleAt handle.toList = some handle.toList

/-- Every handle of the name that can be mentioned matches it, and no list of handles of others does
when it is stored. -/
structure Spelled (users : List UserRow) (agents : List Agent) (workspaceId : Nat)
    (agentName : String) : Prop where
  own : ∀ target ∈ getMentionTargets users agents workspaceId, Mentionable target.handle →
    target.recipient = agentName → like agentName.toList target.handle.toList = true
  others : ∀ handles : List String, handles.Nodup → handles ≠ [] →
    (∀ handle ∈ handles, Mentionable handle ∧
      ∃ target ∈ getMentionTargets users agents workspaceId,
        target.handle = handle ∧ target.recipient ≠ agentName) →
    like (mentionPattern agentName) (stringify handles) = false

/-! ### Stored tokens -/

theorem escapeChar_of_handle {c : Char} (h : isHandleChar c = true) : escapeChar c = [c] := by
  have hsmall := isHandleChar_small h
  revert h
  exact of_small
    (p := fun c => isHandleChar c = true → escapeChar c = [c]) (by decide) hsmall

/-- A token of the alphabet is stored as it is. -/
theorem quoted_of_handle {token : String} (h : ∀ c ∈ token.toList, isHandleChar c = true) :
    quoted token = '"' :: (token.toList ++ ['"']) := by
  have hescape : token.toList.flatMap escapeChar = token.toList := by
    generalize token.toList = cs at h
    induction cs with
    | nil => rfl
    | cons c cs ih =>
      rw [List.flatMap_cons, escapeChar_of_handle (h c List.mem_cons_self),
        ih fun d hd => h d (List.mem_cons_of_mem c hd)]
      rfl
  rw [quoted, hescape]

theorem mentionable_chars {handle : String} (h : Mentionable handle) :
    ∀ c ∈ handle.toList, isHandleChar c = true :=
  fun _ => isHandleChar_of_mem h

/-- A token of a text can be mentioned. -/
theorem mentionable_of_token {cs token : List Char} (h : handleAt cs = some token) :
    handleAt token = some token := by
  obtain ⟨⟨c, hhead, hc⟩, htoken⟩ := handleAt_eq_some h
  cases token with
  | nil => exact absurd rfl (token_ne_nil h)
  | cons d token =>
    have hd : isLetterOrDigit d = true := by
      cases cs with
      | nil => cases hhead
      | cons e cs =>
        obtain rfl : e = c := by simpa using hhead
        rw [List.takeWhile_cons_of_pos (isHandleChar_of_letter hc), List.take_succ_cons] at htoken
        rw [(List.cons.inj htoken).1]
        exact hc
    have hall : (d :: token).takeWhile isHandleChar = d :: token :=
      List.takeWhile_eq_self_iff.mpr fun _ => isHandleChar_of_mem h
    have hlength : (d :: token).length ≤ 64 := by
      rw [htoken]
      exact List.length_take_le 64 _
    rw [handleAt_of_letter hd, hall, List.take_of_length_le hlength]

theorem toLower_eq_quote {c : Char} : c.toLower = '"' ↔ c = '"' :=
  toLower_eq_iff (by decide)

theorem toLower_eq_comma {c : Char} : c.toLower = ',' ↔ c = ',' :=
  toLower_eq_iff (by decide)

/-- The name matches what stands between two quotes. -/
theorem like_mentionPattern {agentName : String} {text : List Char} :
    like (mentionPattern agentName) text = true ↔
      ∃ front inner back, text = front ++ '"' :: (inner ++ '"' :: back) ∧
        like agentName.toList inner = true := by
  have hpattern : mentionPattern agentName =
      '%' :: ((['"'] ++ (agentName.toList ++ ['"'])) ++ ['%']) := by
    simp [mentionPattern]
  have hquote : ∀ {text : List Char}, like ['"'] text = true ↔ text = ['"'] := by
    intro text
    rw [like_literal (by decide) (by decide)]
    constructor
    · rintro ⟨d, rfl, hd⟩
      rw [toLower_eq_quote.mp hd.symm]
    · rintro rfl
      exact ⟨'"', rfl, rfl⟩
  rw [hpattern, like_between]
  constructor
  · rintro ⟨front, stretch, back, rfl, hstretch⟩
    obtain ⟨opening, rest, rfl, hopening, hrest⟩ := like_append.mp hstretch
    obtain ⟨inner, closing, rfl, hinner, hclosing⟩ := like_append.mp hrest
    obtain rfl := hquote.mp hopening
    obtain rfl := hquote.mp hclosing
    exact ⟨front, inner, back, by simp, hinner⟩
  · rintro ⟨front, inner, back, rfl, hinner⟩
    refine ⟨front, ['"'] ++ (inner ++ ['"']), back, by simp, ?_⟩
    exact like_append.mpr ⟨['"'], inner ++ ['"'], rfl, hquote.mpr rfl,
      like_append.mpr ⟨inner, ['"'], rfl, hinner, hquote.mpr rfl⟩⟩

/-- A token that the name matches is found among the stored ones. -/
theorem like_stringify_of_mem {agentName token : String} {tokens : List String}
    (htokens : ∀ token ∈ tokens, ∀ c ∈ token.toList, isHandleChar c = true) (hmem : token ∈ tokens)
    (h : like agentName.toList token.toList = true) :
    like (mentionPattern agentName) (stringify tokens) = true := by
  obtain ⟨front, back, heq⟩ : ∃ front back,
      [','].intercalate (tokens.map quoted) = front ++ quoted token ++ back :=
    infix_intercalate (List.mem_map_of_mem hmem)
  rw [quoted_of_handle (htokens token hmem)] at heq
  refine like_mentionPattern.mpr ⟨'[' :: front, token.toList, back ++ [']'], ?_, h⟩
  simp [stringify, heq]

/-- Where a character that the first part does not have is found in a text. -/
theorem append_cons_cases {c : Char} {a x b y : List Char} (ha : c ∉ a)
    (h : a ++ c :: x = b ++ c :: y) :
    (b = a ∧ x = y) ∨ ∃ m, b = a ++ c :: m ∧ x = m ++ c :: y := by
  rcases List.append_eq_append_iff.mp h with ⟨m, rfl, hm⟩ | ⟨m, rfl, hm⟩
  · cases m with
    | nil => exact .inl ⟨by simp, by simpa using hm⟩
    | cons d m =>
      obtain ⟨rfl, rfl⟩ := List.cons.inj hm
      exact .inr ⟨m, rfl, rfl⟩
  · cases m with
    | nil => exact .inl ⟨by simp, by simpa using hm.symm⟩
    | cons d m =>
      obtain ⟨rfl, -⟩ := List.cons.inj hm
      simp at ha

/-- Two quotes in a text that has no more of them. -/
theorem between_quotes {handle front inner back : List Char} (hhandle : '"' ∉ handle)
    (h : '[' :: '"' :: (handle ++ ['"', ']']) = front ++ '"' :: (inner ++ '"' :: back)) :
    inner = handle := by
  have hlast : ∀ m y : List Char, [']'] ≠ m ++ '"' :: y := by
    intro m y heq
    have hmem : '"' ∈ [']'] := by
      rw [heq]
      simp
    revert hmem
    decide
  have hopening : ['['] ++ '"' :: (handle ++ '"' :: [']']) = front ++ '"' :: (inner ++ '"' :: back) :=
    h
  rcases append_cons_cases (by decide) hopening with ⟨-, hrest⟩ | ⟨m, -, hrest⟩
  · rcases append_cons_cases hhandle hrest with ⟨hinner, -⟩ | ⟨m, -, hclosing⟩
    · exact hinner
    · exact absurd hclosing (hlast m back)
  · rcases append_cons_cases hhandle hrest with ⟨-, hclosing⟩ | ⟨m', -, hclosing⟩
    · exact absurd hclosing (hlast inner back)
    · exact absurd hclosing (hlast m' _)

theorem quote_not_mem {cs : List Char} (h : ∀ c ∈ cs, isHandleChar c = true) : '"' ∉ cs := by
  intro hmem
  have hquote := h _ hmem
  revert hquote
  decide

/-- One stored token is found exactly if the name matches it. -/
theorem like_stringify_singleton {agentName handle : String}
    (hhandle : ∀ c ∈ handle.toList, isHandleChar c = true) :
    like (mentionPattern agentName) (stringify [handle]) = true ↔
      like agentName.toList handle.toList = true := by
  have htext : stringify [handle] = '[' :: '"' :: (handle.toList ++ ['"', ']']) := by
    simp [stringify, quoted_of_handle hhandle]
  constructor
  · intro h
    obtain ⟨front, inner, back, heq, hinner⟩ := like_mentionPattern.mp h
    rw [htext] at heq
    rwa [between_quotes (quote_not_mem hhandle) heq] at hinner
  · intro h
    refine like_stringify_of_mem ?_ List.mem_cons_self h
    intro token htoken
    rw [List.mem_singleton.mp htoken]
    exact hhandle

/-- Stored tokens in lower case are found by the same names. -/
theorem like_stringify_lower {agentName : String} {tokens : List String}
    (htokens : ∀ token ∈ tokens, ∀ c ∈ token.toList, isHandleChar c = true) :
    like (mentionPattern agentName) (stringify (tokens.map toLowerCase)) =
      like (mentionPattern agentName) (stringify tokens) := by
  refine like_congr _ ?_
  have hquoted : ∀ token ∈ tokens, (quoted (toLowerCase token)).map Char.toLower =
      (quoted token).map Char.toLower := by
    intro token htoken
    have hchars := htokens token htoken
    have hlower : (toLowerCase token).toList = token.toList.map Char.toLower := by
      conv_lhs => rw [← String.ofList_toList (s := token), toLowerCase_ofList hchars]
      rw [String.toList_ofList]
    have hlowerChars : ∀ c ∈ (toLowerCase token).toList, isHandleChar c = true := by
      intro c hc
      rw [hlower] at hc
      obtain ⟨d, hd, rfl⟩ := List.mem_map.mp hc
      rw [isHandleChar_toLower]
      exact hchars d hd
    rw [quoted_of_handle hlowerChars, quoted_of_handle hchars, hlower]
    simp [Function.comp_def]
  have hmap : tokens.map (List.map Char.toLower ∘ quoted ∘ toLowerCase) =
      tokens.map (List.map Char.toLower ∘ quoted) :=
    List.map_congr_left hquoted
  unfold stringify
  simp only [List.map_cons, List.map_append, map_intercalate, List.map_map, hmap]

/-! ### Created comments -/

/-- The row that a comment is. -/
def newComment (b : Board) (workspaceId : Nat) (author : String) (task : Task) (body : CommentBody)
    (parent : Option Comment) (tokens : List String) : Comment :=
  { id := b.nextCommentId
    taskId := task.id
    author := author
    content := body.content
    createdAt := b.world.now
    parentId := parent.map Comment.id
    mentions := if tokens = [] then none else some tokens
    workspaceId := workspaceId }

theorem ensureTaskSubscriptions_comments (b : Board) (taskId workspaceId : Nat)
    (names : List String) :
    (b.ensureTaskSubscriptions taskId workspaceId names).comments = b.comments := by
  unfold Board.ensureTaskSubscriptions
  induction names generalizing b with
  | nil => rfl
  | cons name names ih =>
    rw [List.foldl_cons, ih]
    unfold Board.ensureTaskSubscription
    split
    · rfl
    · split <;> rfl

theorem writeComment_comments (b : Board) (workspaceId : Nat) (author : String) (task : Task)
    (body : CommentBody) (parent : Option Comment) (resolution : Resolution) :
    (writeComment b workspaceId author task body parent resolution).comments =
      b.comments ++ [newComment b workspaceId author task body parent resolution.tokens] := by
  unfold writeComment
  dsimp only
  rw [ensureTaskSubscriptions_comments]
  rfl

theorem created_of_accepted {users : List UserRow} {b : Board} {workspaceId taskId : Nat}
    {json : Json} {body : CommentBody} {task : Task} (caller : Caller)
    (h : Accepted users b workspaceId taskId json body task) :
    ∃ parent, Created users b.world.agents workspaceId (newComment b workspaceId (authorOf caller)
      task body parent
      (resolveMentionRecipients users b.world.agents workspaceId body.content).tokens) := by
  obtain ⟨parent, heq⟩ := postComment_eq caller h
  exact ⟨parent, b, _, caller, taskId, json, rfl, heq, writeComment_comments ..⟩

/-- What is stored of a comment. -/
theorem stored_of_created {users : List UserRow} {agents : List Agent} {workspaceId : Nat}
    {comment : Comment} (h : Created users agents workspaceId comment) :
    comment.workspaceId = workspaceId ∧
      (resolveMentionRecipients users agents workspaceId comment.content).unresolved = [] ∧
      comment.mentions = if parseMentions comment.content = [] then none
        else some (parseMentions comment.content) := by
  obtain ⟨b, b', caller, taskId, json, rfl, hposted, hcomments⟩ := h
  obtain ⟨body, task, haccepted⟩ := accepted_of_created hposted
  obtain ⟨parent, heq⟩ := postComment_eq caller haccepted
  rw [hposted] at heq
  obtain rfl := (Prod.mk.inj heq).1
  rw [writeComment_comments] at hcomments
  obtain rfl := List.singleton_inj.mp (List.append_cancel_left hcomments)
  exact ⟨rfl, haccepted.known, rfl⟩

theorem utf16Length_pos {text : String} (h : text ≠ "") : 1 ≤ utf16Length text := by
  have hmono : ∀ (cs : List Char) (n : Nat), n ≤ cs.foldl (fun n c => n + codeUnits c) n := by
    intro cs
    induction cs with
    | nil => exact fun n => Nat.le_refl n
    | cons c cs ih => exact fun n => Nat.le_trans (Nat.le_add_right n _) (ih (n + codeUnits c))
  unfold utf16Length
  cases hchars : text.toList with
  | nil => exact absurd (String.toList_eq_nil_iff.mp hchars) h
  | cons c cs =>
    have hunit : 1 ≤ 0 + codeUnits c := by
      unfold codeUnits
      split <;> omega
    exact Nat.le_trans hunit (hmono cs (0 + codeUnits c))

theorem parseComment_content {text : String} (h : text ≠ "") :
    parseComment (.object [("content", .string text)]) = .ok ⟨none, text, none⟩ := by
  have hlength := utf16Length_pos h
  simp [parseComment, parseObject, issuesAt, valueAt, createCommentSchema, lookup, string, required,
    checked, minLength, Foundations.Schema.optional, number, Except.map, hlength]

def taskOf (workspaceId : Nat) : Task :=
  { Tasks.Routes.sampleTask with workspaceId := workspaceId }

/-- A board with one task of the workspace. -/
def boardOf (agents : List Agent) (workspaceId : Nat) : Board :=
  { Comments.Notices.sampleBoard with
    world := { Comments.Notices.sampleBoard.world with
      agents := agents
      tasks := { Tasks.Routes.sampleDb with tasks := [taskOf workspaceId] } } }

section

variable {users : List UserRow} {agents : List Agent} {workspaceId : Nat}

/-- Every text without unknown mentions can be written as a comment. -/
theorem exists_created {text : String} (hne : text ≠ "")
    (hknown : (resolveMentionRecipients users agents workspaceId text).unresolved = []) :
    ∃ comment later, Created users agents workspaceId comment ∧ Recent later workspaceId comment ∧
      comment.content = text := by
  have haccepted : Accepted users (boardOf agents workspaceId) workspaceId 1
      (.object [("content", .string text)]) ⟨none, text, none⟩ (taskOf workspaceId) := by
    refine ⟨parseComment_content hne, ?_, ?_, hknown⟩
    · simp [boardOf, Tasks.Database.Db.task?, taskOf, Tasks.Routes.sampleTask]
    · intro id hid
      cases hid
  obtain ⟨parent, hcreated⟩ := created_of_accepted ⟨"ada", none⟩ haccepted
  refine ⟨_, { boardOf agents workspaceId with comments := [_] }, hcreated,
    ⟨List.mem_cons_self, ⟨taskOf workspaceId, List.mem_cons_self, rfl, rfl⟩, ?_⟩, rfl⟩
  show fourHoursBefore (boardOf agents workspaceId).world.now <
    ((boardOf agents workspaceId).world.now : Int)
  unfold fourHoursBefore
  omega

end

/-! ### Texts that mention handles -/

theorem tokensFrom_skip (front cs : List Char) :
    tokensFrom front.length false (front ++ cs) = tokensFrom 0 false cs := by
  induction front with
  | nil => rfl
  | cons c front ih => exact ih

/-- A token reaches up to a character that is none of a token. -/
theorem handleAt_append {handle rest : List Char} (h : handleAt handle = some handle)
    (hrest : ∀ c ∈ rest.head?, isHandleChar c = false) : handleAt (handle ++ rest) = some handle := by
  obtain ⟨⟨c, hhead, hc⟩, htoken⟩ := handleAt_eq_some h
  have hnone : rest.takeWhile isHandleChar = [] := by
    cases rest with
    | nil => rfl
    | cons d rest => rw [List.takeWhile_cons_of_neg (by simp [hrest d rfl])]
  cases handle with
  | nil => cases hhead
  | cons d handle =>
    obtain rfl : d = c := by simpa using hhead
    have hall : ∀ e ∈ d :: handle, isHandleChar e = true := fun _ => isHandleChar_of_mem h
    rw [List.cons_append, handleAt_of_letter hc, ← List.cons_append,
      List.takeWhile_append_of_pos hall, hnone, List.append_nil]
    rw [List.takeWhile_eq_self_iff.mpr hall] at htoken
    rw [← htoken]

/-- The handles one after the other. -/
def mentionText (handles : List String) : List Char :=
  handles.flatMap fun handle => ' ' :: '@' :: handle.toList

theorem tokensFrom_mentionText {handles : List String} (h : ∀ handle ∈ handles, Mentionable handle)
    (atStart : Bool) :
    tokensFrom 0 atStart (mentionText handles) = handles.map String.toList := by
  induction handles generalizing atStart with
  | nil => rfl
  | cons handle handles ih =>
    have hrest : ∀ c ∈ (mentionText handles).head?, isHandleChar c = false := by
      intro c hc
      cases handles with
      | nil => cases hc
      | cons other handles =>
        obtain rfl : ' ' = c := by simpa [mentionText] using hc
        decide
    have htoken := handleAt_append (h handle List.mem_cons_self) hrest
    have hmatch : mentionMatch atStart (' ' :: '@' :: (handle.toList ++ mentionText handles)) =
        some (handle.toList, handle.toList.length + 2) :=
      mentionMatch_separated (by decide) htoken
    have htext : mentionText (handle :: handles) =
        ' ' :: '@' :: (handle.toList ++ mentionText handles) := by
      simp [mentionText]
    rw [htext, tokensFrom, hmatch, List.map_cons,
      ← ih (fun other hother => h other (List.mem_cons_of_mem handle hother)) false]
    exact congrArg (handle.toList :: ·)
      (tokensFrom_skip ('@' :: handle.toList) (mentionText handles))

/-! ### What the heartbeat finds -/

section

variable {users : List UserRow} {agents : List Agent} {workspaceId : Nat} {agentName : String}

/-- A recent comment of the workspace is found by its tokens. -/
theorem selected_iff {b : Board} {comment : Comment} (h : Recent b workspaceId comment)
    (hworkspace : comment.workspaceId = workspaceId) :
    Selected b agentName workspaceId comment ↔ mentionsLike agentName comment = true := by
  unfold Selected mentionRows
  simp only [List.mem_filter, List.mem_flatMap, List.mem_map, Bool.and_eq_true, decide_eq_true_eq]
  constructor
  · rintro ⟨task, -, ⟨⟨hlike, -⟩, -⟩, -⟩
    exact hlike
  · intro hlike
    obtain ⟨task, htask, hid, htaskWorkspace⟩ := h.task
    exact ⟨task, ⟨comment, h.stored, task, ⟨htask, hid⟩, rfl⟩,
      ⟨⟨⟨hlike, hworkspace⟩, htaskWorkspace⟩, h.recent⟩⟩

/-- Handles of targets can be mentioned in a recent comment, and nothing else. -/
theorem exists_mentioning {handles : List String} (hnodup : handles.Nodup) (hne : handles ≠ [])
    (hhandles : ∀ handle ∈ handles, Mentionable handle ∧
      ∃ target ∈ getMentionTargets users agents workspaceId, target.handle = handle) :
    ∃ comment later, Created users agents workspaceId comment ∧ Recent later workspaceId comment ∧
      parseMentions comment.content = handles := by
  have hlower : ∀ handle ∈ handles, toLowerCase handle = handle := by
    intro handle hhandle
    obtain ⟨-, target, htarget, rfl⟩ := hhandles handle hhandle
    exact handle_lower htarget
  have htokens : parseMentions (String.ofList (mentionText handles)) = handles := by
    have hmap : (handles.map String.toList).map String.ofList = handles := by
      rw [List.map_map]
      exact (List.map_congr_left fun handle _ => String.ofList_toList).trans (List.map_id handles)
    rw [parseMentions, String.toList_ofList,
      tokensFrom_mentionText (fun handle hhandle => (hhandles handle hhandle).1), hmap]
    refine keepFirst_of_nodup ?_ fun _ _ => List.not_mem_nil
    rwa [(List.map_congr_left hlower).trans (List.map_id handles)]
  have hknown : (resolveMentionRecipients users agents workspaceId
      (String.ofList (mentionText handles))).unresolved = [] := by
    unfold resolveMentionRecipients
    dsimp only
    rw [htokens, List.filter_eq_nil_iff]
    intro handle hhandle
    obtain ⟨-, target, htarget, heq⟩ := hhandles handle hhandle
    rw [targetOf_eq_some_iff.mpr ⟨htarget, heq.trans (hlower handle hhandle).symm⟩]
    simp
  have htext : String.ofList (mentionText handles) ≠ "" := by
    intro hempty
    have hchars : mentionText handles = [] := by
      have hlist := congrArg String.toList hempty
      rwa [String.toList_ofList] at hlist
    obtain ⟨handle, rest, rfl⟩ := List.exists_cons_of_ne_nil hne
    cases hchars
  obtain ⟨comment, later, hcreated, hrecent, hcontent⟩ := exists_created htext hknown
  exact ⟨comment, later, hcreated, hrecent, by rw [hcontent, htokens]⟩

/-- A token of a text can be mentioned in lower case too. -/
theorem mentionable_lower {text token : String} (h : token ∈ parseMentions text) :
    Mentionable (toLowerCase token) ∧ ∀ c ∈ token.toList, isHandleChar c = true := by
  obtain ⟨cs, hcs, rfl⟩ := List.mem_map.mp (mem_of_mem_keepFirst h).1
  have hchars := isHandleChar_of_mem_tokens hcs
  rw [← map_matchesFrom 0, List.mem_map] at hcs
  obtain ⟨⟨position, cs⟩, hmem, rfl⟩ := hcs
  obtain ⟨n, -, hfound⟩ := found_of_mem hmem
  obtain ⟨front, rest, -, -, -, htoken⟩ := hfound.split
  obtain ⟨⟨c, hhead, hc⟩, hself⟩ := handleAt_eq_some (mentionable_of_token htoken)
  refine ⟨?_, by simpa using hchars⟩
  rw [toLowerCase_ofList hchars, Mentionable, String.toList_ofList]
  cases cs with
  | nil => cases hhead
  | cons d cs =>
    obtain rfl : d = c := by simpa using hhead
    have hlength : (d :: cs).length ≤ 64 := by
      rw [hself]
      exact List.length_take_le 64 _
    have hlower : ∀ e ∈ (d :: cs).map Char.toLower, isHandleChar e = true := by
      intro e he
      obtain ⟨f, hf, rfl⟩ := List.mem_map.mp he
      rw [isHandleChar_toLower]
      exact hchars f hf
    rw [List.map_cons, handleAt_of_letter (by rwa [isLetterOrDigit_toLower]), ← List.map_cons,
      List.takeWhile_eq_self_iff.mpr hlower, List.take_of_length_le (by rwa [List.length_map])]

/-- The tokens of a text that resolves, one by one. -/
theorem target_of_token {text token : String} (h : token ∈ parseMentions text)
    (hknown : (resolveMentionRecipients users agents workspaceId text).unresolved = []) :
    ∃ target ∈ getMentionTargets users agents workspaceId, target.handle = toLowerCase token ∧
      target.recipient ∈ (resolveMentionRecipients users agents workspaceId text).recipients := by
  cases htarget : targetOf (getMentionTargets users agents workspaceId) token with
  | none =>
    have hunknown : token ∈ (resolveMentionRecipients users agents workspaceId text).unresolved := by
      unfold resolveMentionRecipients
      dsimp only
      exact List.mem_filter.mpr ⟨h, decide_eq_true htarget⟩
    rw [hknown] at hunknown
    cases hunknown
  | some target =>
    obtain ⟨hmem, hhandle⟩ := targetOf_eq_some_iff.mp htarget
    exact ⟨target, hmem, hhandle, mem_recipients.mpr ⟨token, h, target, htarget, rfl⟩⟩

/-- The heartbeat finds the recent comments that mention the agent, and no others, exactly if the
handles of the workspace are spelled as the name is. -/
theorem heartbeat_mentions_iff (users : List UserRow) (agents : List Agent) (workspaceId : Nat)
    (agentName : String) :
    (∀ comment later, Created users agents workspaceId comment → Recent later workspaceId comment →
      (Selected later agentName workspaceId comment ↔
        agentName ∈
          (resolveMentionRecipients users agents workspaceId comment.content).recipients)) ↔
      Spelled users agents workspaceId agentName := by
  constructor
  · intro hfinds
    constructor
    · intro target htarget hmentionable hrecipient
      obtain ⟨comment, later, hcreated, hrecent, htokens⟩ :
          ∃ comment later, Created users agents workspaceId comment ∧
            Recent later workspaceId comment ∧ parseMentions comment.content = [target.handle] := by
        refine exists_mentioning (List.nodup_singleton _) (List.cons_ne_nil _ _) ?_
        intro handle hhandle
        rw [List.mem_singleton.mp hhandle]
        exact ⟨hmentionable, target, htarget, rfl⟩
      obtain ⟨hworkspace, -, hmentions⟩ := stored_of_created hcreated
      have hmem : agentName ∈
          (resolveMentionRecipients users agents workspaceId comment.content).recipients := by
        refine mem_recipients.mpr ⟨target.handle, by simp [htokens], target, ?_, hrecipient⟩
        exact targetOf_eq_some_iff.mpr ⟨htarget, (handle_lower htarget).symm⟩
      have hlike := (selected_iff hrecent hworkspace).mp ((hfinds comment later hcreated hrecent).mpr hmem)
      rw [mentionsLike, hmentions, htokens, if_neg (List.cons_ne_nil _ _), Option.any_some] at hlike
      exact (like_stringify_singleton (mentionable_chars hmentionable)).mp hlike
    · intro handles hnodup hne hothers
      obtain ⟨comment, later, hcreated, hrecent, htokens⟩ :
          ∃ comment later, Created users agents workspaceId comment ∧
            Recent later workspaceId comment ∧ parseMentions comment.content = handles := by
        refine exists_mentioning hnodup hne fun handle hhandle => ?_
        obtain ⟨hmentionable, target, htarget, heq, -⟩ := hothers handle hhandle
        exact ⟨hmentionable, target, htarget, heq⟩
      obtain ⟨hworkspace, -, hmentions⟩ := stored_of_created hcreated
      by_contra hlike
      have hselected : Selected later agentName workspaceId comment := by
        rw [selected_iff hrecent hworkspace, mentionsLike, hmentions, htokens, if_neg hne,
          Option.any_some]
        simpa using hlike
      obtain ⟨token, htoken, target, htarget, hrecipient⟩ :=
        mem_recipients.mp ((hfinds comment later hcreated hrecent).mp hselected)
      rw [htokens] at htoken
      obtain ⟨-, other, hother, hhandle, hne'⟩ := hothers token htoken
      have hlower : other.handle = toLowerCase token := by
        rw [← hhandle, handle_lower hother]
      have hsame := targetOf_eq_some_iff.mpr ⟨hother, hlower⟩
      rw [htarget] at hsame
      obtain rfl := Option.some.inj hsame
      exact hne' hrecipient
  · intro hspelled comment later hcreated hrecent
    obtain ⟨hworkspace, hknown, hmentions⟩ := stored_of_created hcreated
    rw [selected_iff hrecent hworkspace, mentionsLike, hmentions]
    have hchars : ∀ token ∈ parseMentions comment.content, ∀ c ∈ token.toList,
        isHandleChar c = true := fun token htoken => (mentionable_lower htoken).2
    by_cases hnone : parseMentions comment.content = []
    · rw [if_pos hnone, mem_recipients, hnone]
      simp
    · rw [if_neg hnone, Option.any_some, ← like_stringify_lower hchars]
      constructor
      · intro hlike
        by_contra hnot
        refine absurd hlike (Bool.eq_false_iff.mp (hspelled.others _ ?_ ?_ ?_))
        · exact nodup_map_keepFirst [] _
        · simpa using hnone
        · intro handle hhandle
          obtain ⟨token, htoken, rfl⟩ := List.mem_map.mp hhandle
          obtain ⟨target, htarget, heq, hrecipient⟩ := target_of_token htoken hknown
          refine ⟨(mentionable_lower htoken).1, target, htarget, heq, ?_⟩
          rintro rfl
          exact hnot hrecipient
      · intro hmem
        obtain ⟨token, htoken, target, htarget, hrecipient⟩ := mem_recipients.mp hmem
        obtain ⟨htarget, hhandle⟩ := targetOf_eq_some_iff.mp htarget
        have hlower : ∀ handle ∈ (parseMentions comment.content).map toLowerCase,
            ∀ c ∈ handle.toList, isHandleChar c = true := by
          intro handle hmem
          obtain ⟨other, hother, rfl⟩ := List.mem_map.mp hmem
          exact mentionable_chars (mentionable_lower hother).1
        refine like_stringify_of_mem hlower (List.mem_map_of_mem htoken) ?_
        rw [← hhandle]
        refine hspelled.own target htarget ?_ hrecipient
        rw [hhandle]
        exact (mentionable_lower htoken).1

end

/-! ### Names without wildcards -/

theorem exists_quote_cons (token : String) (tokens : List String) :
    ∃ text, [','].intercalate ((token :: tokens).map quoted) ++ [']'] = '"' :: text := by
  cases tokens with
  | nil => exact ⟨_, rfl⟩
  | cons other tokens => exact ⟨_, rfl⟩

/-- Between two quotes next to each other there is a token or a comma. -/
theorem between_next_quotes {tokens : List String}
    (htokens : ∀ token ∈ tokens, ∀ c ∈ token.toList, isHandleChar c = true)
    {front inner back : List Char} (hinner : '"' ∉ inner)
    (h : [','].intercalate (tokens.map quoted) ++ [']'] = front ++ '"' :: (inner ++ '"' :: back)) :
    inner ∈ tokens.map String.toList ∨ inner = [','] := by
  have hlast : ∀ m y : List Char, [']'] ≠ m ++ '"' :: y := by
    intro m y heq
    have hmem : '"' ∈ [']'] := by
      rw [heq]
      simp
    revert hmem
    decide
  induction tokens generalizing front with
  | nil => exact absurd h (hlast _ _)
  | cons token tokens ih =>
    have hquoted := quoted_of_handle (htokens token List.mem_cons_self)
    have hnot := quote_not_mem (htokens token List.mem_cons_self)
    obtain ⟨rest, hrest, hnext⟩ : ∃ rest,
        [','].intercalate ((token :: tokens).map quoted) ++ [']'] =
          [] ++ '"' :: (token.toList ++ '"' :: rest) ∧
        (rest = [']'] ∨ rest = ',' :: ([','].intercalate (tokens.map quoted) ++ [']'])) := by
      cases tokens with
      | nil => exact ⟨[']'], by simp [hquoted], .inl rfl⟩
      | cons other tokens =>
        refine ⟨_, ?_, .inr rfl⟩
        rw [List.map_cons, List.intercalate_cons_of_ne_nil (by simp), hquoted]
        simp
    rw [hrest] at h
    rcases append_cons_cases List.not_mem_nil h with ⟨-, h⟩ | ⟨m, -, h⟩
    · rcases append_cons_cases hnot h with ⟨heq, -⟩ | ⟨m, heq, -⟩
      · left
        rw [heq]
        exact List.mem_cons_self
      · rw [heq] at hinner
        simp at hinner
    · rcases append_cons_cases hnot h with ⟨-, h⟩ | ⟨m', -, h⟩
      · rcases hnext with rfl | rfl
        · exact absurd h (hlast _ _)
        · cases inner with
          | nil => exact absurd (List.cons.inj h).1 (by decide)
          | cons c inner =>
            obtain ⟨rfl, hrest⟩ := List.cons.inj h
            cases inner with
            | nil => exact .inr rfl
            | cons d inner =>
              cases tokens with
              | nil => exact absurd hrest (hlast (d :: inner) back)
              | cons other tokens =>
                obtain ⟨text, htext⟩ := exists_quote_cons other tokens
                rw [htext] at hrest
                obtain ⟨rfl, -⟩ := List.cons.inj hrest
                simp at hinner
      · rcases hnext with rfl | rfl
        · exact absurd h (hlast _ _)
        · cases m' with
          | nil => exact absurd (List.cons.inj h).1 (by decide)
          | cons c m' =>
            have htail := ih (fun other hother => htokens other (List.mem_cons_of_mem token hother))
              (List.cons.inj h).2
            exact htail.imp_left (List.mem_cons_of_mem _)

/-- A name without wildcards and quotes finds its own spelling only. -/
theorem spelled_iff_of_plain {users : List UserRow} {agents : List Agent} {workspaceId : Nat}
    {agentName : String} (hany : '%' ∉ agentName.toList) (hone : '_' ∉ agentName.toList)
    (hquote : '"' ∉ agentName.toList) (hcomma : agentName ≠ ",") :
    Spelled users agents workspaceId agentName ↔
      ∀ target ∈ getMentionTargets users agents workspaceId, Mentionable target.handle →
        (target.recipient = agentName ↔
          target.handle.toList = agentName.toList.map Char.toLower) := by
  -- What the name is compared with is in lower case.
  have hlike : ∀ target ∈ getMentionTargets users agents workspaceId, Mentionable target.handle →
      (like agentName.toList target.handle.toList = true ↔
        target.handle.toList = agentName.toList.map Char.toLower) := by
    intro target htarget hmentionable
    have hchars := mentionable_chars hmentionable
    have hlower : target.handle.toList.map Char.toLower = target.handle.toList := by
      have hsame : toLowerCase (String.ofList target.handle.toList) = target.handle := by
        rw [String.ofList_toList]
        exact handle_lower htarget
      rw [toLowerCase_ofList hchars] at hsame
      have hlist := congrArg String.toList hsame
      rwa [String.toList_ofList] at hlist
    rw [like_plain hany hone, hlower, eq_comm]
  constructor
  · intro h target htarget hmentionable
    rw [← hlike target htarget hmentionable]
    refine ⟨h.own target htarget hmentionable, fun hmatches => ?_⟩
    by_contra hne
    have hfalse : like (mentionPattern agentName) (stringify [target.handle]) = false := by
      refine h.others [target.handle] (List.nodup_singleton _) (List.cons_ne_nil _ _) ?_
      intro handle hhandle
      rw [List.mem_singleton.mp hhandle]
      exact ⟨hmentionable, target, htarget, rfl, hne⟩
    rw [(like_stringify_singleton (mentionable_chars hmentionable)).mpr hmatches] at hfalse
    cases hfalse
  · intro h
    refine ⟨fun target htarget hmentionable hrecipient =>
      (hlike target htarget hmentionable).mpr ((h target htarget hmentionable).mp hrecipient), ?_⟩
    intro handles _ _ hothers
    by_contra hfound
    have hfound : like (mentionPattern agentName) (stringify handles) = true := by
      simpa using hfound
    obtain ⟨front, inner, back, htext, hinner⟩ := like_mentionPattern.mp hfound
    have hsame := (like_plain hany hone).mp hinner
    have hnot : '"' ∉ inner := by
      intro hmem
      have hlower : '"' ∈ agentName.toList.map Char.toLower := by
        rw [hsame]
        exact List.mem_map.mpr ⟨'"', hmem, rfl⟩
      obtain ⟨c, hc, hceq⟩ := List.mem_map.mp hlower
      rw [toLower_eq_quote.mp hceq] at hc
      exact hquote hc
    obtain ⟨front, rfl⟩ : ∃ front', front = '[' :: front' := by
      cases front with
      | nil => exact absurd (List.cons.inj htext).1 (by decide)
      | cons c front => exact ⟨front, by rw [(List.cons.inj htext).1]⟩
    have hchars : ∀ handle ∈ handles, ∀ c ∈ handle.toList, isHandleChar c = true :=
      fun handle hhandle => mentionable_chars (hothers handle hhandle).1
    rcases between_next_quotes hchars hnot (List.cons.inj htext).2 with hmem | rfl
    · obtain ⟨handle, hhandle, rfl⟩ := List.mem_map.mp hmem
      obtain ⟨hmentionable, target, htarget, rfl, hne⟩ := hothers handle hhandle
      exact hne ((h target htarget hmentionable).mpr ((hlike target htarget hmentionable).mp hinner))
    · obtain ⟨c, hname, hc⟩ : ∃ c, agentName.toList = [c] ∧ c.toLower = ',' := by
        simpa [List.map_eq_cons_iff] using hsame
      rw [toLower_eq_comma.mp hc] at hname
      exact hcomma (String.toList_inj.mp hname)

/-- An agent whose name has a blank. -/
def dataBot : Agent where
  id := 1
  name := "Data Bot"
  role := "analyst"
  sessionKey := none
  soulContent := none
  status := "idle"
  lastSeen := none
  lastActivity := none
  createdAt := 100
  updatedAt := 100
  config := []
  workspaceId := 1

/-- The agent is mentioned by its handle, and its heartbeat does not find that. -/
theorem alias_not_found : ∃ comment later, Created [] [dataBot] 1 comment ∧ Recent later 1 comment ∧
    comment.content = "@data-bot please check" ∧
    "Data Bot" ∈ (resolveMentionRecipients [] [dataBot] 1 comment.content).recipients ∧
    ¬ Selected later "Data Bot" 1 comment := by
  obtain ⟨comment, later, hcreated, hrecent, hcontent⟩ :
      ∃ comment later, Created [] [dataBot] 1 comment ∧ Recent later 1 comment ∧
        comment.content = "@data-bot please check" :=
    exists_created (by decide) (by decide +kernel)
  obtain ⟨hworkspace, -, hmentions⟩ := stored_of_created hcreated
  refine ⟨comment, later, hcreated, hrecent, hcontent, ?_, ?_⟩
  · rw [hcontent]
    decide +kernel
  · rw [selected_iff hrecent hworkspace, mentionsLike, hmentions, hcontent]
    decide +kernel

end MissionControl.Heartbeats.Mentions
