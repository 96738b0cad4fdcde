import MissionControl.Comments.Tokens
import MissionControl.Foundations.LetterCase

/-!
What the mentions of a text resolve to: which names that are written in it reach their target, that
a token has one target at most, and that letter case does not matter.
-/

set_option autoImplicit false
set_option relaxedAutoImplicit false

namespace MissionControl.Comments.Resolution

open MissionControl.Auth.Accounts (UserRow)
open MissionControl.Events.Stores (Agent)
open MissionControl.Foundations.JsText
open MissionControl.Foundations.LetterCase
open MissionControl.Foundations.Lists
open Mentions Tokens

/-! ### Letter case -/

theorem isHandleChar_small {c : Char} (h : isHandleChar c = true) : c.toNat < 128 := by
  by_contra hlarge
  have hlarge : 128 ≤ c.toNat := by omega
  have hne : ∀ d : Char, d.toNat < 128 → c ≠ d := by
    rintro d hd rfl
    omega
  have hle : ∀ d : Char, d.toNat < 128 → ¬ c ≤ d := by
    intro d hd hle
    have hle : c.toNat ≤ d.toNat := hle
    omega
  simp [isHandleChar, isLetterOrDigit, hne '.' (by decide), hne '_' (by decide), hne '-' (by decide),
    hle 'Z' (by decide), hle 'z' (by decide), hle '9' (by decide)] at h

@[simp]
theorem isLetterOrDigit_toLower (c : Char) : isLetterOrDigit c.toLower = isLetterOrDigit c := by
  by_cases h : c.toNat < 128
  · exact of_small (p := fun c => isLetterOrDigit c.toLower = isLetterOrDigit c)
      (by decide) h
  · rw [toLower_of_large (by omega)]

@[simp]
theorem isHandleChar_toLower (c : Char) : isHandleChar c.toLower = isHandleChar c := by
  by_cases h : c.toNat < 128
  · exact of_small (p := fun c => isHandleChar c.toLower = isHandleChar c) (by decide) h
  · rw [toLower_of_large (by omega)]

theorem toLower_eq_at {c : Char} : c.toLower = '@' ↔ c = '@' :=
  toLower_eq_iff (by decide)

/-- A text of the alphabet of the tokens, in lower case. -/
theorem toLowerCase_ofList {cs : List Char} (h : ∀ c ∈ cs, isHandleChar c = true) :
    toLowerCase (String.ofList cs) = String.ofList (cs.map Char.toLower) := by
  rw [toLowerCase, String.toList_ofList]
  congr 1
  induction cs with
  | nil => rfl
  | cons c cs ih =>
    rw [List.flatMap_cons, List.map_cons, ih fun d hd => h d (List.mem_cons_of_mem c hd),
      lowerChar_small (isHandleChar_small (h c List.mem_cons_self))]
    rfl

/-! ### Targets -/

section

variable {users : List UserRow} {agents : List Agent} {workspaceId : Nat}

/-- A handle is in lower case, whatever its sources are. -/
theorem handle_lower {target : MentionTarget}
    (h : target ∈ getMentionTargets users agents workspaceId) :
    toLowerCase target.handle = target.handle := by
  obtain ⟨hmem, -⟩ := mem_of_mem_keepFirst h
  rcases List.mem_append.mp hmem with hmem | hmem
  · obtain ⟨user, -, htarget⟩ := List.mem_flatMap.mp hmem
    unfold userTargets at htarget
    dsimp only at htarget
    split at htarget
    · cases htarget
    · obtain rfl := List.mem_singleton.mp htarget
      exact toLowerCase_toLowerCase _
  · obtain ⟨agent, -, htarget⟩ := List.mem_flatMap.mp hmem
    unfold agentTargets at htarget
    dsimp only at htarget
    split at htarget
    · cases htarget
    · obtain ⟨handle, hhandle, rfl⟩ := List.mem_map.mp htarget
      obtain ⟨raw, -, rfl⟩ := List.mem_map.mp (List.mem_of_mem_filter hhandle)
      exact toLowerCase_toLowerCase raw

/-- A token resolves to the target with its handle, of which there is one at most. -/
theorem targetOf_eq_some_iff {token : String} {target : MentionTarget} :
    targetOf (getMentionTargets users agents workspaceId) token = some target ↔
      target ∈ getMentionTargets users agents workspaceId ∧ target.handle = toLowerCase token := by
  constructor
  · intro h
    have hmem := List.mem_reverse.mp (List.mem_of_find?_eq_some h)
    have hhandle : toLowerCase target.handle = toLowerCase token := by
      simpa using List.find?_some h
    exact ⟨hmem, (handle_lower hmem).symm.trans hhandle⟩
  · rintro ⟨hmem, hhandle⟩
    cases hfound : targetOf (getMentionTargets users agents workspaceId) token with
    | none =>
      have hnone := List.find?_eq_none.mp hfound target (List.mem_reverse.mpr hmem)
      rw [handle_lower hmem, hhandle] at hnone
      simp at hnone
    | some other =>
      have hother := List.mem_reverse.mp (List.mem_of_find?_eq_some hfound)
      have hsame : toLowerCase other.handle = toLowerCase token := by
        simpa using List.find?_some hfound
      rw [handle_lower hother, ← hhandle] at hsame
      have hnodup : ((getMentionTargets users agents workspaceId).map MentionTarget.handle).Nodup :=
        nodup_map_keepFirst [] _
      rw [List.inj_on_of_nodup_map hnodup hother hmem hsame]

/-- The agents of one workspace as the query of the targets reads them. -/
theorem getMentionTargets_map {f : Agent → Agent}
    (hname : ∀ agent ∈ agents, (f agent).name = agent.name)
    (hworkspace : ∀ agent ∈ agents, (f agent).workspaceId = agent.workspaceId)
    (htargets : ∀ agent ∈ agents, agentTargets (f agent) = agentTargets agent) :
    getMentionTargets users (agents.map f) workspaceId =
      getMentionTargets users agents workspaceId := by
  have hfilter : (agents.map f).filter (fun agent => agent.workspaceId = workspaceId) =
      (agents.filter fun agent => agent.workspaceId = workspaceId).map f := by
    rw [List.filter_map]
    congr 1
    refine List.filter_congr fun agent hagent => ?_
    simp [hworkspace agent hagent]
  unfold getMentionTargets
  rw [hfilter]
  dsimp only
  have hmem : ∀ agent ∈ agents.filter fun agent => agent.workspaceId = workspaceId,
      agent ∈ agents := fun agent hagent => List.mem_of_mem_filter hagent
  rw [← List.map_insertionSort (fun a b : Agent => a.name ≤ b.name) (fun a b => a.name ≤ b.name) f _
    fun a ha b hb => by rw [hname a (hmem a ha), hname b (hmem b hb)]]
  congr 2
  rw [List.flatMap_map]
  refine List.flatMap_congr fun agent hagent => ?_
  exact htargets agent (hmem agent ((List.mem_insertionSort _).mp hagent))

end

/-- The agent with its configured id written in another letter case. -/
structure Respelled (agent agent' : Agent) : Prop where
  name : agent'.name = agent.name
  role : agent'.role = agent.role
  workspaceId : agent'.workspaceId = agent.workspaceId
  openclawId : (openclawId agent').map toLowerCase = (openclawId agent).map toLowerCase

/-- Blank handles are blank in lower case. -/
theorem map_filter_blank (handles : List String) :
    ((handles.filter (· ≠ "")).map toLowerCase).filter (· ≠ "") =
      (handles.map toLowerCase).filter (· ≠ "") := by
  induction handles with
  | nil => rfl
  | cons handle handles ih =>
    by_cases hblank : handle = ""
    · subst hblank
      rw [List.filter_cons_of_neg (by simp), ih, List.map_cons, List.filter_cons_of_neg (by decide)]
    · have hlower := toLowerCase_ne_empty hblank
      rw [List.filter_cons_of_pos (by simpa using hblank), List.map_cons, List.map_cons,
        List.filter_cons_of_pos (by simpa using hlower), List.filter_cons_of_pos (by simpa using hlower),
        ih]

theorem agentTargets_respelled {agent agent' : Agent} (h : Respelled agent agent') :
    agentTargets agent' = agentTargets agent := by
  have hids : (openclawId agent').toList.map toLowerCase =
      (openclawId agent).toList.map toLowerCase := by
    rw [← Option.toList_map, ← Option.toList_map, h.openclawId]
  unfold agentTargets
  dsimp only
  rw [h.name, h.role, map_filter_blank, map_filter_blank, List.map_append, List.map_append, hids]

/-! ### Texts in another letter case -/

/-- The same letter of ASCII in one of its cases, or two characters beyond ASCII. -/
def SameLetter (c d : Char) : Prop := c.toLower = d.toLower ∨ (128 ≤ c.toNat ∧ 128 ≤ d.toNat)

theorem SameLetter.isHandleChar {c d : Char} (h : SameLetter c d) :
    isHandleChar c = isHandleChar d := by
  rcases h with hsame | ⟨hc, hd⟩
  · rw [← isHandleChar_toLower c, hsame, isHandleChar_toLower]
  · have hlarge : ∀ e : Char, 128 ≤ e.toNat → Mentions.isHandleChar e = false := by
      intro e he
      by_contra hhandle
      have hsmall := isHandleChar_small (by simpa using hhandle)
      omega
    rw [hlarge c hc, hlarge d hd]

theorem SameLetter.isLetterOrDigit {c d : Char} (h : SameLetter c d) :
    isLetterOrDigit c = isLetterOrDigit d := by
  rcases h with hsame | ⟨hc, hd⟩
  · rw [← isLetterOrDigit_toLower c, hsame, isLetterOrDigit_toLower]
  · have hlarge : ∀ e : Char, 128 ≤ e.toNat → Mentions.isLetterOrDigit e = false := by
      intro e he
      by_contra hletter
      have hsmall := isHandleChar_small (isHandleChar_of_letter (by simpa using hletter))
      omega
    rw [hlarge c hc, hlarge d hd]

theorem SameLetter.at_iff {c d : Char} (h : SameLetter c d) : c = '@' ↔ d = '@' := by
  rcases h with hsame | ⟨hc, hd⟩
  · rw [← toLower_eq_at, hsame, toLower_eq_at]
  · constructor <;> rintro rfl <;> exact absurd (by assumption) (by decide)

theorem map_takeWhile_same {cs ds : List Char} (h : List.Forall₂ SameLetter cs ds) :
    (cs.takeWhile isHandleChar).map Char.toLower = (ds.takeWhile isHandleChar).map Char.toLower := by
  induction h with
  | nil => rfl
  | @cons c d cs ds hsame _ ih =>
    by_cases hc : isHandleChar c = true
    · have hd := hsame.isHandleChar.symm.trans hc
      have hlower : c.toLower = d.toLower := by
        rcases hsame with hlower | ⟨hlarge, -⟩
        · exact hlower
        · have hsmall := isHandleChar_small hc
          omega
      rw [List.takeWhile_cons_of_pos hc, List.takeWhile_cons_of_pos hd, List.map_cons, List.map_cons,
        hlower, ih]
    · have hd : ¬ isHandleChar d = true := by rwa [← hsame.isHandleChar]
      rw [List.takeWhile_cons_of_neg hc, List.takeWhile_cons_of_neg hd]

theorem map_handleAt_same {cs ds : List Char} (h : List.Forall₂ SameLetter cs ds) :
    (handleAt cs).map (List.map Char.toLower) = (handleAt ds).map (List.map Char.toLower) := by
  cases h with
  | nil => rfl
  | @cons c d cs ds hsame htail =>
    by_cases hc : isLetterOrDigit c = true
    · have hd := hsame.isLetterOrDigit.symm.trans hc
      rw [handleAt_of_letter hc, handleAt_of_letter hd, Option.map_some, Option.map_some,
        List.map_take, List.map_take, map_takeWhile_same (List.Forall₂.cons hsame htail)]
    · have hd : ¬ isLetterOrDigit d = true := by rwa [← hsame.isLetterOrDigit]
      rw [handleAt, handleAt, if_neg hc, if_neg hd]

/-- A match with its token in lower case. -/
def lowerMatch (found : List Char × Nat) : List Char × Nat := (found.1.map Char.toLower, found.2)

theorem map_lowerMatch (k : Nat) (token : Option (List Char)) :
    (token.map fun token => (token, token.length + k)).map lowerMatch =
      (token.map (List.map Char.toLower)).map fun token => (token, token.length + k) := by
  cases token with
  | none => rfl
  | some token => simp [lowerMatch]

theorem separatedMatch_ne {c d : Char} {cs : List Char} (h : d ≠ '@') :
    separatedMatch (c :: d :: cs) = none := by
  unfold separatedMatch
  split
  · rename_i heq
    simp only [List.cons.injEq] at heq
    exact absurd heq.2.1 h
  · rfl

theorem separatedMatch_same {cs ds : List Char} (h : List.Forall₂ SameLetter cs ds) :
    (separatedMatch cs).map lowerMatch = (separatedMatch ds).map lowerMatch := by
  cases h with
  | nil => rfl
  | @cons c d cs ds hsame htail =>
    cases htail with
    | nil => rfl
    | @cons c' d' cs ds hsame' htail =>
      by_cases hat : c' = '@'
      · obtain rfl := hat
        obtain rfl := hsame'.at_iff.mp rfl
        rw [separatedMatch, separatedMatch, hsame.isHandleChar]
        split
        · rfl
        · rw [map_lowerMatch, map_lowerMatch, map_handleAt_same htail]
      · rw [separatedMatch_ne hat, separatedMatch_ne fun hd => hat (hsame'.at_iff.mpr hd)]

theorem mentionMatch_same {cs ds : List Char} (h : List.Forall₂ SameLetter cs ds) (atStart : Bool) :
    (mentionMatch atStart cs).map lowerMatch = (mentionMatch atStart ds).map lowerMatch := by
  have hother : ∀ {c : Char} {cs : List Char} (b : Bool), b = false ∨ c ≠ '@' →
      mentionMatch b (c :: cs) = separatedMatch (c :: cs) := by
    intro c cs b hb
    unfold mentionMatch
    split
    · rename_i heq
      exact absurd (List.cons.inj heq).1 (hb.resolve_left (by simp))
    · rfl
  cases h with
  | nil => cases atStart <;> rfl
  | @cons c d cs ds hsame htail =>
    by_cases hstart : atStart = false ∨ c ≠ '@'
    · have hstart' : atStart = false ∨ d ≠ '@' :=
        hstart.imp_right fun hc hd => hc (hsame.at_iff.mpr hd)
      rw [hother atStart hstart, hother atStart hstart', separatedMatch_same (.cons hsame htail)]
    · push Not at hstart
      obtain ⟨hstart, rfl⟩ := hstart
      obtain rfl : d = '@' := hsame.at_iff.mp rfl
      obtain rfl : atStart = true := by simpa using hstart
      have hboth := separatedMatch_same (List.Forall₂.cons hsame htail)
      have hhandle := map_handleAt_same htail
      rw [mentionMatch, mentionMatch]
      cases hleft : handleAt cs with
      | none =>
        rw [hleft] at hhandle
        rw [Option.map_eq_none_iff.mp hhandle.symm]
        exact hboth
      | some token =>
        rw [hleft] at hhandle
        obtain ⟨token', hright, hsame'⟩ := Option.map_eq_some_iff.mp hhandle.symm
        have hlength := congrArg List.length hsame'
        rw [List.length_map, List.length_map] at hlength
        simp [hright, lowerMatch, hsame', hlength]

/-- The tokens of a text in another letter case are the same in lower case. -/
theorem map_tokensFrom_same {cs ds : List Char} (h : List.Forall₂ SameLetter cs ds) (skip : Nat)
    (atStart : Bool) :
    (tokensFrom skip atStart cs).map (List.map Char.toLower) =
      (tokensFrom skip atStart ds).map (List.map Char.toLower) := by
  induction h generalizing skip atStart with
  | nil => rfl
  | @cons c d cs ds hsame htail ih =>
    cases skip with
    | succ skip => exact ih skip false
    | zero =>
      have hmatch := mentionMatch_same (List.Forall₂.cons hsame htail) atStart
      rw [tokensFrom, tokensFrom]
      cases hleft : mentionMatch atStart (c :: cs) with
      | none =>
        rw [hleft] at hmatch
        rw [Option.map_eq_none_iff.mp hmatch.symm]
        exact ih 0 false
      | some found =>
        rw [hleft] at hmatch
        obtain ⟨found', hright, hsame'⟩ := Option.map_eq_some_iff.mp hmatch.symm
        obtain ⟨htoken, hlength⟩ := Prod.mk.inj hsame'
        rw [hright]
        dsimp only
        rw [List.map_cons, List.map_cons, htoken, hlength, ih]

/-- The tokens, with each character one of a token. -/
theorem isHandleChar_of_mem_tokens {text : String} {token : List Char}
    (h : token ∈ tokensFrom 0 true text.toList) : ∀ c ∈ token, isHandleChar c = true := by
  rw [← map_matchesFrom 0, List.mem_map] at h
  obtain ⟨⟨position, token⟩, hmem, rfl⟩ := h
  obtain ⟨n, -, hfound⟩ := found_of_mem hmem
  obtain ⟨front, rest, -, -, -, htoken⟩ := hfound.split
  exact fun c => isHandleChar_of_mem htoken

theorem map_parseMentions (text : String) :
    (parseMentions text).map toLowerCase = keepFirst id []
      (((tokensFrom 0 true text.toList).map (List.map Char.toLower)).map String.ofList) := by
  have hlower : ((tokensFrom 0 true text.toList).map String.ofList).map toLowerCase =
      ((tokensFrom 0 true text.toList).map (List.map Char.toLower)).map String.ofList := by
    rw [List.map_map, List.map_map]
    refine List.map_congr_left fun token htoken => ?_
    exact toLowerCase_ofList (isHandleChar_of_mem_tokens htoken)
  rw [parseMentions, map_keepFirst, hlower]

/-! ### Resolutions -/

section

variable (users : List UserRow) (agents : List Agent) (workspaceId : Nat)

/-- The target of a token is that of the token in lower case. -/
theorem targetOf_toLowerCase (targets : List MentionTarget) (token : String) :
    targetOf targets (toLowerCase token) = targetOf targets token := by
  simp only [targetOf, toLowerCase_toLowerCase]

theorem filterMap_targetOf (targets : List MentionTarget) (tokens : List String) :
    tokens.filterMap (targetOf targets) = (tokens.map toLowerCase).filterMap (targetOf targets) := by
  rw [List.filterMap_map]
  exact List.filterMap_congr fun token _ => (targetOf_toLowerCase targets token).symm

theorem map_filter_targetOf (targets : List MentionTarget) (tokens : List String) :
    (tokens.filter fun token => targetOf targets token = none).map toLowerCase =
      (tokens.map toLowerCase).filter fun token => targetOf targets token = none := by
  induction tokens with
  | nil => rfl
  | cons token tokens ih =>
    rw [List.map_cons, List.filter_cons, List.filter_cons, ← ih, targetOf_toLowerCase]
    split
    · rfl
    · rfl

/-- Texts that differ in letter case have the same targets in the same order, and the same tokens
without one up to letter case. -/
theorem resolution_same {text text' : String}
    (h : List.Forall₂ SameLetter text.toList text'.toList) :
    (resolveMentionRecipients users agents workspaceId text).resolved =
        (resolveMentionRecipients users agents workspaceId text').resolved ∧
      (resolveMentionRecipients users agents workspaceId text).unresolved.map toLowerCase =
        (resolveMentionRecipients users agents workspaceId text').unresolved.map toLowerCase := by
  have htokens : (parseMentions text).map toLowerCase = (parseMentions text').map toLowerCase := by
    rw [map_parseMentions, map_parseMentions, map_tokensFrom_same h]
  constructor
  · unfold resolveMentionRecipients
    dsimp only
    generalize getMentionTargets users agents workspaceId = targets
    rw [filterMap_targetOf targets, filterMap_targetOf targets (parseMentions text'), htokens]
  · unfold resolveMentionRecipients
    dsimp only
    generalize getMentionTargets users agents workspaceId = targets
    rw [map_filter_targetOf targets, map_filter_targetOf targets (parseMentions text'), htokens]

end

/-! ### Names written in a text -/

/-- The handle of a target, in any letter case, after an `@` that no character of a token is before,
and in front of the end of the text, a full stop or a character that no token has. -/
structure Written (targets : List MentionTarget) (target : MentionTarget)
    (front name back : List Char) : Prop where
  mem : target ∈ targets
  handle : toLowerCase (String.ofList name) = target.handle
  alphabet : ∀ c ∈ name, isHandleChar c = true
  ending : ∃ c ∈ name.getLast?, isLetterOrDigit c = true
  before : Separated front
  after : ∀ c ∈ back.head?, c = '.' ∨ isHandleChar c = false
  longest : ∀ other ∈ targets, ∀ more, more <+: back → more ≠ [] →
    toLowerCase (String.ofList (name ++ more)) ≠ other.handle

/-- The `@` at the index has a token that resolves to the target. -/
def Resolves (targets : List MentionTarget) (text : String) (index : Nat)
    (target : MentionTarget) : Prop :=
  ∃ token, (index, token) ∈ mentionsOf text ∧ targetOf targets (String.ofList token) = some target

/-- The name begins as a token does, is no longer than one, and is not followed by a full stop
unless it is as long as a token can be. -/
def Scanned (name back : List Char) : Prop :=
  (∃ c ∈ name.head?, isLetterOrDigit c = true) ∧ name.length ≤ 64 ∧
    (back.head? = some '.' → name.length = 64)

variable {users : List UserRow} {agents : List Agent} {workspaceId : Nat} {text : String}

theorem length_toLower {name token : List Char} (hname : ∀ c ∈ name, isHandleChar c = true)
    (htoken : ∀ c ∈ token, isHandleChar c = true)
    (h : toLowerCase (String.ofList name) = toLowerCase (String.ofList token)) :
    name.length = token.length := by
  rw [toLowerCase_ofList hname, toLowerCase_ofList htoken, String.ofList_inj] at h
  simpa using congrArg List.length h

/-- A name reaches its target exactly if the scan takes it whole and nothing else. -/
theorem resolves_iff {target : MentionTarget} {front name back : List Char}
    (htext : text.toList = front ++ '@' :: (name ++ back))
    (h : Written (getMentionTargets users agents workspaceId) target front name back) :
    Resolves (getMentionTargets users agents workspaceId) text front.length target ↔
      Scanned name back := by
  have htake : (name ++ back).takeWhile isHandleChar = name ++ back.takeWhile isHandleChar :=
    List.takeWhile_append_of_pos h.alphabet
  have hend : back.head? ≠ some '.' → back.takeWhile isHandleChar = [] := by
    intro hdot
    cases back with
    | nil => rfl
    | cons c back =>
      have hc := (h.after c rfl).resolve_left (by rintro rfl; exact hdot rfl)
      rw [List.takeWhile_cons_of_neg (by simp [hc])]
  obtain ⟨last, hlast, -⟩ := h.ending
  obtain ⟨c, name', hname⟩ := List.exists_cons_of_ne_nil (l := name) (by rintro rfl; cases hlast)
  constructor
  · rintro ⟨token, hmem, htarget⟩
    have hhandle := (mem_mentionsOf_iff htext h.before).mp hmem
    have hlower := (targetOf_eq_some_iff.mp htarget).2
    have hlength : name.length = token.length :=
      length_toLower h.alphabet (fun c => isHandleChar_of_mem hhandle) (h.handle.trans hlower)
    obtain ⟨⟨d, hd, hletter⟩, htoken⟩ := handleAt_eq_some hhandle
    rw [htoken, htake, List.length_take, List.length_append] at hlength
    refine ⟨⟨d, by simpa [hname] using hd, hletter⟩, by omega, ?_⟩
    intro hdot
    have hmore : 0 < (back.takeWhile isHandleChar).length := by
      cases back with
      | nil => cases hdot
      | cons e back =>
        obtain rfl : e = '.' := by simpa using hdot
        rw [List.takeWhile_cons_of_pos isHandleChar_dot]
        simp
    omega
  · rintro ⟨⟨d, hd, hletter⟩, hshort, hdot⟩
    have htoken : handleAt (name ++ back) = some name := by
      subst hname
      obtain rfl : c = d := by simpa using hd
      rw [List.cons_append, handleAt_of_letter hletter, ← List.cons_append, htake]
      congr 1
      by_cases hfull : back.head? = some '.'
      · exact List.take_left' (hdot hfull)
      · rw [hend hfull, List.append_nil, List.take_of_length_le hshort]
    exact ⟨name, (mem_mentionsOf_iff htext h.before).mpr htoken,
      targetOf_eq_some_iff.mpr ⟨h.mem, h.handle.symm⟩⟩

/-- What a place resolves to is among the recipients. -/
theorem mem_recipients_of_resolves {index : Nat} {target : MentionTarget}
    (h : Resolves (getMentionTargets users agents workspaceId) text index target) :
    target.recipient ∈ (resolveMentionRecipients users agents workspaceId text).recipients := by
  obtain ⟨token, hmem, htarget⟩ := h
  have htoken : String.ofList token ∈ (tokensFrom 0 true text.toList).map String.ofList := by
    rw [← map_matchesFrom 0, List.map_map]
    exact List.mem_map.mpr ⟨_, hmem, rfl⟩
  have hkept : toLowerCase (String.ofList token) ∈ (parseMentions text).map toLowerCase :=
    mem_map_keepFirst.mpr ⟨List.mem_map_of_mem htoken, List.not_mem_nil⟩
  obtain ⟨token', htoken', hlower⟩ := List.mem_map.mp hkept
  refine mem_recipients.mpr ⟨token', htoken', target, ?_, rfl⟩
  rw [← targetOf_toLowerCase, hlower, targetOf_toLowerCase]
  exact htarget

/-- Every token is unresolved or has one target. -/
theorem unresolved_or_unique (token : String)
    (htoken : token ∈ (resolveMentionRecipients users agents workspaceId text).tokens) :
    (token ∈ (resolveMentionRecipients users agents workspaceId text).unresolved ∧
        ∀ target ∈ getMentionTargets users agents workspaceId, target.handle ≠ toLowerCase token) ∨
      (token ∉ (resolveMentionRecipients users agents workspaceId text).unresolved ∧
        ∃ target, (target ∈ getMentionTargets users agents workspaceId ∧
            target.handle = toLowerCase token) ∧
          (∀ other ∈ getMentionTargets users agents workspaceId,
            other.handle = toLowerCase token → other = target) ∧
          (resolveMentionRecipients users agents workspaceId text).recipients.count
            target.recipient = 1) := by
  have hmem : token ∈ (resolveMentionRecipients users agents workspaceId text).unresolved ↔
      targetOf (getMentionTargets users agents workspaceId) token = none := by
    unfold resolveMentionRecipients at htoken ⊢
    dsimp only at htoken ⊢
    rw [List.mem_filter, decide_eq_true_eq]
    exact and_iff_right htoken
  rw [hmem]
  cases hfound : targetOf (getMentionTargets users agents workspaceId) token with
  | none =>
    refine .inl ⟨rfl, fun target htarget hhandle => ?_⟩
    rw [targetOf_eq_some_iff.mpr ⟨htarget, hhandle⟩] at hfound
    cases hfound
  | some target =>
    refine .inr ⟨by simp, target, targetOf_eq_some_iff.mp hfound, ?_, ?_⟩
    · intro other hother hhandle
      have hsame := targetOf_eq_some_iff.mpr ⟨hother, hhandle⟩
      rw [hfound] at hsame
      exact (Option.some.inj hsame).symm
    · exact List.count_eq_one_of_mem nodup_recipients
        (mem_recipients.mpr ⟨token, htoken, target, hfound, rfl⟩)

/-- What the mentions of a text resolve to. A name of a target reaches it exactly if the scan takes
it whole; a token has one target at most, a recipient comes once, and letter case is ignored. -/
theorem mentions_resolved_iff (users : List UserRow) (agents : List Agent) (workspaceId : Nat)
    (text : String) :
    (∀ target front name back, text.toList = front ++ '@' :: (name ++ back) →
      Written (getMentionTargets users agents workspaceId) target front name back →
      ((Resolves (getMentionTargets users agents workspaceId) text front.length target ∧
        target.recipient ∈ (resolveMentionRecipients users agents workspaceId text).recipients) ↔
        Scanned name back)) ∧
    (∀ token ∈ (resolveMentionRecipients users agents workspaceId text).tokens,
      (token ∈ (resolveMentionRecipients users agents workspaceId text).unresolved ∧
        ∀ target ∈ getMentionTargets users agents workspaceId, target.handle ≠ toLowerCase token) ∨
      (token ∉ (resolveMentionRecipients users agents workspaceId text).unresolved ∧
        ∃ target, (target ∈ getMentionTargets users agents workspaceId ∧
            target.handle = toLowerCase token) ∧
          (∀ other ∈ getMentionTargets users agents workspaceId,
            other.handle = toLowerCase token → other = target) ∧
          (resolveMentionRecipients users agents workspaceId text).recipients.count
            target.recipient = 1)) ∧
    (∀ text' : String, List.Forall₂ SameLetter text.toList text'.toList →
      (resolveMentionRecipients users agents workspaceId text).resolved =
          (resolveMentionRecipients users agents workspaceId text').resolved ∧
        (resolveMentionRecipients users agents workspaceId text).unresolved.map toLowerCase =
          (resolveMentionRecipients users agents workspaceId text').unresolved.map toLowerCase) ∧
    ∀ f : Agent → Agent, (∀ agent ∈ agents, Respelled agent (f agent)) →
      resolveMentionRecipients users (agents.map f) workspaceId text =
        resolveMentionRecipients users agents workspaceId text := by
  refine ⟨?_, unresolved_or_unique, fun _ => resolution_same users agents workspaceId, ?_⟩
  · intro target front name back htext hwritten
    rw [← resolves_iff htext hwritten]
    exact and_iff_left_of_imp mem_recipients_of_resolves
  · intro f hf
    unfold resolveMentionRecipients
    rw [getMentionTargets_map (fun agent h => (hf agent h).name)
      (fun agent h => (hf agent h).workspaceId) fun agent h => agentTargets_respelled (hf agent h)]

def ada : UserRow where
  id := 1
  username := "Ada"
  displayName := "Ada Lovelace"
  passwordHash := ""
  role := "operator"
  provider := .localAccount
  providerUserId := none
  email := none
  avatarUrl := none
  isApproved := 1
  approvedBy := none
  approvedAt := none
  workspaceId := 1
  updatedAt := 100
  lastLoginAt := none

def adaTarget : MentionTarget := ⟨"ada", "Ada", .user, "Ada Lovelace", none⟩

theorem targets_ada : getMentionTargets [ada] [] 1 = [adaTarget] := by decide +kernel

/-- A name before a mark that is none of a token. -/
theorem written_ada {name back : List Char} (hhandle : toLowerCase (String.ofList name) = "ada")
    (halphabet : name.all isHandleChar = true) (hending : name.getLast?.any isLetterOrDigit = true)
    (hafter : (back.head?.all fun c => c = '.' || !isHandleChar c) = true)
    (hlongest : ∀ more ∈ back.inits, more ≠ [] →
      toLowerCase (String.ofList (name ++ more)) ≠ "ada") :
    Written (getMentionTargets [ada] [] 1) adaTarget "Thanks ".toList name back where
  mem := by simp [targets_ada]
  handle := hhandle
  alphabet := List.all_eq_true.mp halphabet
  ending := (Option.any_eq_true _ _).mp hending
  before := by
    intro c hc
    obtain rfl : ' ' = c := Option.some.inj hc
    decide
  after := by
    intro c hc
    have hall := (Option.all_eq_true _ _).mp hafter c hc
    simpa using hall
  longest := by
    intro other hother more hmore hne
    rw [targets_ada] at hother
    obtain rfl := List.mem_singleton.mp hother
    exact hlongest more (List.mem_inits more back |>.mpr hmore) hne

theorem mentions_resolved_sample :
    (Resolves (getMentionTargets [ada] [] 1) "Thanks @ADA!" 7 adaTarget ∧
        adaTarget.recipient ∈ (resolveMentionRecipients [ada] [] 1 "Thanks @ADA!").recipients) ↔
      Scanned "ADA".toList "!".toList :=
  (mentions_resolved_iff [ada] [] 1 "Thanks @ADA!").1 adaTarget "Thanks ".toList "ADA".toList
    "!".toList (by decide) (written_ada (by decide +kernel) (by decide) (by decide) (by decide)
      (by decide +kernel))

/-- The full stop after a name is taken for a part of it. -/
theorem full_stop_swallowed :
    Written (getMentionTargets [ada] [] 1) adaTarget "Thanks ".toList "ada".toList ".".toList ∧
      ¬ Resolves (getMentionTargets [ada] [] 1) "Thanks @ada." 7 adaTarget ∧
      (resolveMentionRecipients [ada] [] 1 "Thanks @ada.").unresolved = ["ada."] ∧
      (resolveMentionRecipients [ada] [] 1 "Thanks @ada.").recipients = [] := by
  have hwritten : Written (getMentionTargets [ada] [] 1) adaTarget "Thanks ".toList "ada".toList
      ".".toList :=
    written_ada (by decide +kernel) (by decide) (by decide) (by decide) (by decide +kernel)
  refine ⟨hwritten, ?_, by decide +kernel, by decide +kernel⟩
  intro hresolves
  have htext : "Thanks @ada.".toList = "Thanks ".toList ++ '@' :: ("ada".toList ++ ".".toList) := by
    decide
  obtain ⟨-, -, hstop⟩ := (resolves_iff htext hwritten).mp hresolves
  exact absurd (hstop rfl) (by decide)

end MissionControl.Comments.Resolution
