import Mathlib.Data.List.Sort
import MissionControl.Auth.Accounts
import MissionControl.Events.Stores
import MissionControl.Gateway.AgentSave

/-!
Mentions: the tokens after `@` in a text, the handles under which the users and the agents of a
workspace can be mentioned, and the recipients that a text resolves to.
-/

set_option autoImplicit false
set_option relaxedAutoImplicit false

namespace MissionControl.Comments.Mentions

open MissionControl.Auth.Accounts (UserRow)
open MissionControl.Events.Stores (Agent)
open MissionControl.Foundations.JsText
open MissionControl.Foundations.Lists
open MissionControl.Foundations.Schema (Json lookup)
open MissionControl.Gateway.AgentSave (hyphenate)

/-! ### Tokens -/

def isLetterOrDigit (c : Char) : Bool :=
  ('A' ≤ c && c ≤ 'Z') || ('a' ≤ c && c ≤ 'z') || ('0' ≤ c && c ≤ '9')

def isHandleChar (c : Char) : Bool := isLetterOrDigit c || c = '.' || c = '_' || c = '-'

/-- `[A-Za-z0-9][A-Za-z0-9._-]{0,63}` at the beginning of a text. -/
def handleAt : List Char → Option (List Char)
  | [] => none
  | c :: cs =>
    if isLetterOrDigit c then some (c :: (cs.takeWhile isHandleChar).take 63) else none

/-- `[^A-Za-z0-9._-]@` and a handle at the beginning of a text: the handle and the length of the
match. -/
def separatedMatch : List Char → Option (List Char × Nat)
  | c :: '@' :: cs =>
    if isHandleChar c then none else (handleAt cs).map fun token => (token, token.length + 2)
  | _ => none

/-- `MENTION_PATTERN` at the beginning of a text, which may be the start of all of it. -/
def mentionMatch (atStart : Bool) (cs : List Char) : Option (List Char × Nat) :=
  match atStart, cs with
  | true, '@' :: rest =>
    ((handleAt rest).map fun token => (token, token.length + 1)).or (separatedMatch cs)
  | _, _ => separatedMatch cs

/-- The tokens of all matches, one after the other; the characters of a match are skipped. -/
def tokensFrom : Nat → Bool → List Char → List (List Char)
  | _, _, [] => []
  | skip + 1, _, _ :: cs => tokensFrom skip false cs
  | 0, atStart, c :: cs =>
    match mentionMatch atStart (c :: cs) with
    | some (token, length) => token :: tokensFrom (length - 1) false cs
    | none => tokensFrom 0 false cs

/-- The tokens of a text, each in the case in which it comes first. -/
def parseMentions (text : String) : List String :=
  keepFirst toLowerCase [] ((tokensFrom 0 true text.toList).map String.ofList)

example : parseMentions "@Ada, see x@bob (@bob and @ada)" = ["Ada", "bob"] := by decide +kernel

/-! ### Targets -/

inductive TargetType where
  | user
  | agent
  deriving DecidableEq

structure MentionTarget where
  handle : String
  recipient : String
  type : TargetType
  display : String
  role : Option String
  deriving DecidableEq

def normalizeAgentHandle (name : String) : String :=
  String.ofList (hyphenate (toLowerCase (trim name)).toList)

/-- The target that a user is, if the name is not blank. -/
def userTargets (user : UserRow) : List MentionTarget :=
  let username := trim user.username
  if username = "" then []
  else [⟨toLowerCase username, username, .user, orElse (trim user.displayName) username, none⟩]

/-- `openclawId` of the configuration of an agent, if it is a text that is not blank. -/
def openclawId (agent : Agent) : Option String :=
  match lookup agent.config "openclawId" with
  | some (.string id) => truthy (some (trim id))
  | _ => none

/-- The targets that an agent is: under the id of its configuration and under two spellings of its
name. -/
def agentTargets (agent : Agent) : List MentionTarget :=
  let recipient := trim agent.name
  if recipient = "" then []
  else
    let candidateHandles := ((openclawId agent).toList ++
      [normalizeAgentHandle recipient, toLowerCase recipient]).filter (· ≠ "")
    ((candidateHandles.map toLowerCase).filter (· ≠ "")).map fun handle =>
      ⟨handle, recipient, .agent, recipient, truthy (some agent.role)⟩

/-- The targets of a workspace; a handle belongs to the first that has it. -/
def getMentionTargets (users : List UserRow) (agents : List Agent) (workspaceId : Nat) :
    List MentionTarget :=
  let users := (users.filter fun user => user.workspaceId = workspaceId).insertionSort fun a b =>
    a.username ≤ b.username
  let agents := (agents.filter fun agent => agent.workspaceId = workspaceId).insertionSort
    fun a b => a.name ≤ b.name
  keepFirst MentionTarget.handle [] (users.flatMap userTargets ++ agents.flatMap agentTargets)

/-- The target that `byHandle` has for a token; a handle set again replaces the one before. -/
def targetOf (targets : List MentionTarget) (token : String) : Option MentionTarget :=
  targets.reverse.find? fun target => toLowerCase target.handle = toLowerCase token

/-! ### Recipients -/

/-- A `MentionResolution`, with the tokens and the targets. -/
structure Resolution where
  tokens : List String
  unresolved : List String
  recipients : List String
  resolved : List MentionTarget
  deriving DecidableEq

def resolveMentionRecipients (users : List UserRow) (agents : List Agent) (workspaceId : Nat)
    (text : String) : Resolution :=
  let tokens := parseMentions text
  let targets := getMentionTargets users agents workspaceId
  let resolved := keepFirst MentionTarget.recipient [] (tokens.filterMap (targetOf targets))
  { tokens := tokens
    unresolved := tokens.filter fun token => targetOf targets token = none
    recipients := resolved.map MentionTarget.recipient
    resolved := resolved }

variable {users : List UserRow} {agents : List Agent} {workspaceId : Nat} {text name : String}

/-- The recipients are those of the targets that the tokens lead to. -/
theorem mem_recipients :
    name ∈ (resolveMentionRecipients users agents workspaceId text).recipients ↔
      ∃ token ∈ parseMentions text, ∃ target,
        targetOf (getMentionTargets users agents workspaceId) token = some target ∧
          target.recipient = name := by
  unfold resolveMentionRecipients
  rw [mem_map_keepFirst]
  simp only [List.mem_map, List.mem_filterMap, List.not_mem_nil, not_false_eq_true, and_true]
  constructor
  · rintro ⟨target, ⟨token, htoken, htarget⟩, rfl⟩
    exact ⟨token, htoken, target, htarget, rfl⟩
  · rintro ⟨token, htoken, target, htarget, rfl⟩
    exact ⟨target, ⟨token, htoken, htarget⟩, rfl⟩

theorem nodup_recipients :
    (resolveMentionRecipients users agents workspaceId text).recipients.Nodup :=
  nodup_map_keepFirst [] _

/-- A target is a user or an agent of the workspace under the name without blanks around it. -/
theorem mem_getMentionTargets {target : MentionTarget}
    (h : target ∈ getMentionTargets users agents workspaceId) :
    (target.type = .user ∧ ∃ user ∈ users, user.workspaceId = workspaceId ∧
        target.recipient = trim user.username) ∨
      (target.type = .agent ∧ ∃ agent ∈ agents, agent.workspaceId = workspaceId ∧
        target.recipient = trim agent.name) := by
  obtain ⟨hmem, -⟩ := mem_of_mem_keepFirst h
  rcases List.mem_append.mp hmem with hmem | hmem
  · obtain ⟨user, huser, htarget⟩ := List.mem_flatMap.mp hmem
    rw [List.mem_insertionSort, List.mem_filter, decide_eq_true_eq] at huser
    unfold userTargets at htarget
    dsimp only at htarget
    split at htarget
    · cases htarget
    · obtain rfl := List.mem_singleton.mp htarget
      exact .inl ⟨rfl, user, huser.1, huser.2, rfl⟩
  · obtain ⟨agent, hagent, htarget⟩ := List.mem_flatMap.mp hmem
    rw [List.mem_insertionSort, List.mem_filter, decide_eq_true_eq] at hagent
    unfold agentTargets at htarget
    dsimp only at htarget
    split at htarget
    · cases htarget
    · obtain ⟨handle, -, rfl⟩ := List.mem_map.mp htarget
      exact .inr ⟨rfl, agent, hagent.1, hagent.2, rfl⟩

end MissionControl.Comments.Mentions
