import MissionControl.Comments.Mentions

/-!
Where the scan for mentions finds a token, and how far the token reaches.
-/

set_option autoImplicit false
set_option relaxedAutoImplicit false

namespace MissionControl.Comments.Tokens

open MissionControl.Foundations.JsText
open Mentions

/-- The matches of the scan, each with the index of its `@`. -/
def matchesFrom : Nat → Nat → Bool → List Char → List (Nat × List Char)
  | _, _, _, [] => []
  | i, skip + 1, _, _ :: cs => matchesFrom (i + 1) skip false cs
  | i, 0, atStart, c :: cs =>
    match mentionMatch atStart (c :: cs) with
    | some (token, length) =>
      (i + (length - token.length - 1), token) :: matchesFrom (i + 1) (length - 1) false cs
    | none => matchesFrom (i + 1) 0 false cs

/-- The tokens are those of the matches. -/
theorem map_matchesFrom (i skip : Nat) (atStart : Bool) (cs : List Char) :
    (matchesFrom i skip atStart cs).map Prod.snd = tokensFrom skip atStart cs := by
  induction cs generalizing i skip atStart with
  | nil => cases skip <;> rfl
  | cons c cs ih =>
    cases skip with
    | succ skip => exact ih (i + 1) skip false
    | zero =>
      rw [matchesFrom, tokensFrom]
      cases mentionMatch atStart (c :: cs) with
      | none => exact ih (i + 1) 0 false
      | some found => exact congrArg (found.1 :: ·) (ih (i + 1) (found.2 - 1) false)

/-! ### The characters of a token -/

@[simp]
theorem isLetterOrDigit_at : isLetterOrDigit '@' = false := by decide

@[simp]
theorem isHandleChar_at : isHandleChar '@' = false := by decide

@[simp]
theorem isLetterOrDigit_dot : isLetterOrDigit '.' = false := by decide

@[simp]
theorem isHandleChar_dot : isHandleChar '.' = true := by decide

theorem isHandleChar_of_letter {c : Char} (h : isLetterOrDigit c = true) :
    isHandleChar c = true := by
  simp [isHandleChar, h]

/-- The token is what the greedy part takes, up to its length. -/
theorem handleAt_eq_some {cs token : List Char} (h : handleAt cs = some token) :
    (∃ c ∈ cs.head?, isLetterOrDigit c = true) ∧ token = (cs.takeWhile isHandleChar).take 64 := by
  cases cs with
  | nil => cases h
  | cons c cs =>
    rw [handleAt] at h
    split at h
    · rename_i hc
      obtain rfl := Option.some.inj h
      rw [List.takeWhile_cons_of_pos (isHandleChar_of_letter hc)]
      exact ⟨⟨c, rfl, hc⟩, rfl⟩
    · cases h

theorem handleAt_of_letter {c : Char} {cs : List Char} (h : isLetterOrDigit c = true) :
    handleAt (c :: cs) = some (((c :: cs).takeWhile isHandleChar).take 64) := by
  rw [handleAt, if_pos h, List.takeWhile_cons_of_pos (isHandleChar_of_letter h)]
  rfl

@[simp]
theorem handleAt_at (cs : List Char) : handleAt ('@' :: cs) = none := by
  rw [handleAt, isLetterOrDigit_at]
  rfl

theorem isHandleChar_of_mem {cs token : List Char} (h : handleAt cs = some token) {c : Char}
    (hc : c ∈ token) : isHandleChar c = true := by
  rw [(handleAt_eq_some h).2] at hc
  exact List.mem_takeWhile_imp (List.mem_of_mem_take hc)

theorem token_ne_nil {cs token : List Char} (h : handleAt cs = some token) : token ≠ [] := by
  obtain ⟨⟨c, hhead, hc⟩, rfl⟩ := handleAt_eq_some h
  cases cs with
  | nil => cases hhead
  | cons d cs =>
    obtain rfl : d = c := by simpa using hhead
    rw [List.takeWhile_cons_of_pos (isHandleChar_of_letter hc)]
    simp

/-- A token does not reach over a character that cannot be in it. -/
theorem length_token_le {front back token : List Char} {c : Char} (hc : isHandleChar c = false)
    (h : handleAt (front ++ c :: back) = some token) : token.length ≤ front.length := by
  have hshort : ∀ front : List Char,
      ((front ++ c :: back).takeWhile isHandleChar).length ≤ front.length := by
    intro front
    induction front with
    | nil => simp [hc]
    | cons d front ih =>
      rw [List.cons_append, List.takeWhile_cons]
      split <;> simp [ih]
  have htoken := hshort front
  rw [(handleAt_eq_some h).2, List.length_take]
  omega

/-! ### The matches -/

theorem separatedMatch_eq_some {cs token : List Char} {length : Nat}
    (h : separatedMatch cs = some (token, length)) :
    ∃ c rest, cs = c :: '@' :: rest ∧ isHandleChar c = false ∧ handleAt rest = some token ∧
      length = token.length + 2 := by
  unfold separatedMatch at h
  split at h
  · rename_i c rest
    split at h
    · cases h
    · rename_i hc
      obtain ⟨token', htoken, hpair⟩ := Option.map_eq_some_iff.mp h
      obtain ⟨rfl, rfl⟩ := Prod.mk.inj hpair
      exact ⟨c, rest, rfl, by simpa using hc, htoken, rfl⟩
  · cases h

theorem mentionMatch_eq_some {atStart : Bool} {cs token : List Char} {length : Nat}
    (h : mentionMatch atStart cs = some (token, length)) :
    (atStart = true ∧ ∃ rest, cs = '@' :: rest ∧ handleAt rest = some token ∧
        length = token.length + 1) ∨
      ∃ c rest, cs = c :: '@' :: rest ∧ isHandleChar c = false ∧ handleAt rest = some token ∧
        length = token.length + 2 := by
  unfold mentionMatch at h
  split at h
  · rename_i rest
    rcases Option.or_eq_some_iff.mp h with hfirst | ⟨-, hsecond⟩
    · obtain ⟨token', htoken, hpair⟩ := Option.map_eq_some_iff.mp hfirst
      obtain ⟨rfl, rfl⟩ := Prod.mk.inj hpair
      exact .inl ⟨rfl, rest, rfl, htoken, rfl⟩
    · exact .inr (separatedMatch_eq_some hsecond)
  · exact .inr (separatedMatch_eq_some h)

theorem mentionMatch_start {rest token : List Char} (h : handleAt rest = some token) :
    mentionMatch true ('@' :: rest) = some (token, token.length + 1) := by
  simp [mentionMatch, h]

theorem mentionMatch_separated {atStart : Bool} {c : Char} {rest token : List Char}
    (hc : isHandleChar c = false) (h : handleAt rest = some token) :
    mentionMatch atStart (c :: '@' :: rest) = some (token, token.length + 2) := by
  have hmatch : separatedMatch (c :: '@' :: rest) = some (token, token.length + 2) := by
    simp [separatedMatch, hc, h]
  unfold mentionMatch
  split
  · rename_i cs heq
    obtain ⟨-, rfl⟩ := List.cons.inj heq
    rw [handleAt_at]
    exact hmatch
  · exact hmatch

/-- The last character is none of a token. -/
def Separated (front : List Char) : Prop := ∀ c ∈ front.getLast?, isHandleChar c = false

/-- After `n` characters there is an `@` with a token. It is separated from what is before it, or
at the start. -/
structure Found (atStart : Bool) (cs : List Char) (n : Nat) (token : List Char) : Prop where
  split : ∃ front rest, cs = front ++ '@' :: rest ∧ front.length = n ∧ Separated front ∧
    handleAt rest = some token
  start : n = 0 → atStart = true

theorem Found.cons {atStart : Bool} {c : Char} {cs token : List Char} {n : Nat}
    (h : Found false cs n token) : Found atStart (c :: cs) (n + 1) token := by
  obtain ⟨⟨front, rest, rfl, rfl, hseparated, htoken⟩, hstart⟩ := h
  have hne : front ≠ [] := by
    rintro rfl
    cases hstart rfl
  refine ⟨⟨c :: front, rest, rfl, rfl, ?_, htoken⟩, by simp⟩
  intro d hd
  obtain ⟨init, last, rfl⟩ := List.eq_nil_or_concat front |>.resolve_left hne
  refine hseparated d ?_
  rw [List.concat_eq_append] at hd ⊢
  rw [← List.cons_append, List.getLast?_append] at hd
  rw [List.getLast?_append]
  exact hd

theorem Found.tail {atStart : Bool} {c : Char} {cs token : List Char} {n : Nat}
    (h : Found atStart (c :: cs) (n + 2) token) : Found false cs (n + 1) token := by
  obtain ⟨front, rest, heq, hlength, hseparated, htoken⟩ := h.split
  cases front with
  | nil => cases hlength
  | cons d front =>
    obtain ⟨rfl, rfl⟩ := List.cons.inj heq
    have hn : front.length = n + 1 := by simpa using hlength
    refine ⟨⟨front, rest, rfl, hn, fun e he => hseparated e ?_, htoken⟩, by simp⟩
    obtain ⟨init, last, rfl⟩ := List.eq_nil_or_concat front |>.resolve_left (by rintro rfl; cases hn)
    rw [List.concat_eq_append] at he ⊢
    rw [List.getLast?_append] at he
    rw [← List.cons_append, List.getLast?_append]
    exact he

/-- A match is a token after an `@` that is separated from what is before it. -/
theorem found_of_mem {i skip : Nat} {atStart : Bool} {cs token : List Char} {position : Nat}
    (h : (position, token) ∈ matchesFrom i skip atStart cs) :
    ∃ n, position = i + n ∧ Found atStart cs n token := by
  induction cs generalizing i skip atStart with
  | nil => cases skip <;> cases h
  | cons c cs ih =>
    have hlater : ∀ {skip' : Nat}, (position, token) ∈ matchesFrom (i + 1) skip' false cs →
        ∃ n, position = i + n ∧ Found atStart (c :: cs) n token := by
      intro skip' hmem
      obtain ⟨n, rfl, hfound⟩ := ih hmem
      exact ⟨n + 1, by omega, hfound.cons⟩
    cases skip with
    | succ skip => exact hlater h
    | zero =>
      rw [matchesFrom] at h
      cases hmatch : mentionMatch atStart (c :: cs) with
      | none =>
        rw [hmatch] at h
        exact hlater h
      | some found =>
        obtain ⟨token', length⟩ := found
        rw [hmatch] at h
        rcases List.mem_cons.mp h with hpair | h
        · obtain ⟨rfl, rfl⟩ := Prod.mk.inj hpair
          obtain ⟨hstart, rest, hcs, htoken, rfl⟩ | ⟨d, rest, hcs, hd, htoken, rfl⟩ :=
            mentionMatch_eq_some hmatch
          · refine ⟨0, by omega, ⟨[], rest, hcs, rfl, ?_, htoken⟩, fun _ => hstart⟩
            simp [Separated]
          · refine ⟨1, by omega, ⟨[d], rest, hcs, rfl, ?_, htoken⟩, by simp⟩
            simpa [Separated] using hd
        · exact hlater h

/-- A match that begins before does not reach over an `@` that is separated. -/
theorem length_match_le {atStart : Bool} {c : Char} {cs token token' : List Char} {n length : Nat}
    (h : Found atStart (c :: cs) (n + 2) token)
    (hmatch : mentionMatch atStart (c :: cs) = some (token', length)) : length ≤ n + 1 := by
  obtain ⟨front, rest, heq, hlength, hseparated, htoken⟩ := h.split
  obtain ⟨init, last, rfl⟩ := List.eq_nil_or_concat front |>.resolve_left
    (by rintro rfl; cases hlength)
  rw [List.concat_eq_append] at heq hlength hseparated
  have hlast : isHandleChar last = false := hseparated last (by simp)
  rw [heq] at hmatch
  have hinit : init.length = n + 1 := by simpa using hlength
  obtain ⟨d, init, rfl⟩ := List.exists_cons_of_ne_nil (l := init) (by rintro rfl; cases hinit)
  have hn : init.length = n := by simpa using hinit
  obtain ⟨-, rest', hcs, htoken', rfl⟩ | ⟨e, rest', hcs, -, htoken', rfl⟩ :=
    mentionMatch_eq_some hmatch
  · simp only [List.cons_append, List.append_assoc, List.cons.injEq] at hcs
    obtain ⟨-, rfl⟩ := hcs
    have hle := length_token_le hlast htoken'
    omega
  · simp only [List.cons_append, List.append_assoc, List.cons.injEq] at hcs
    obtain ⟨-, hcs⟩ := hcs
    cases init with
    | nil =>
      -- The separator is the `@` of the match, and the other `@` would be in its token.
      obtain ⟨-, rfl⟩ := List.cons.inj hcs
      rw [List.nil_append, handleAt_at] at htoken'
      cases htoken'
    | cons f init =>
      obtain ⟨-, rfl⟩ := List.cons.inj hcs
      have hle := length_token_le hlast htoken'
      simp only [List.length_cons] at hn
      omega

theorem mem_of_found {i skip n : Nat} {atStart : Bool} {cs token : List Char}
    (h : Found atStart cs n token) (hskip : skip ≤ n - 1) :
    (i + n, token) ∈ matchesFrom i skip atStart cs := by
  induction cs generalizing i skip n atStart with
  | nil =>
    obtain ⟨front, rest, heq, -⟩ := h.split
    simp at heq
  | cons c cs ih =>
    have hlater : ∀ {skip' m : Nat}, n = m + 2 → skip' ≤ m →
        (i + n, token) ∈ matchesFrom (i + 1) skip' false cs := by
      rintro skip' m rfl hle
      have hmem : (i + 1 + (m + 1), token) ∈ matchesFrom (i + 1) skip' false cs :=
        ih h.tail (by omega)
      rwa [show i + (m + 2) = i + 1 + (m + 1) by omega]
    cases skip with
    | succ skip =>
      obtain ⟨m, rfl⟩ : ∃ m, n = m + 2 := ⟨n - 2, by omega⟩
      exact hlater rfl (by omega)
    | zero =>
      rw [matchesFrom]
      obtain ⟨front, rest, heq, hlength, hseparated, htoken⟩ := h.split
      match n, front, hlength with
      | 0, [], _ =>
        obtain ⟨rfl, rfl⟩ := List.cons.inj heq
        obtain rfl := h.start rfl
        rw [mentionMatch_start htoken]
        refine List.mem_cons.mpr (.inl (Prod.ext ?_ rfl))
        dsimp only
        omega
      | 1, [d], _ =>
        have hc : c = d := (List.cons.inj heq).1
        have hcs : cs = '@' :: rest := (List.cons.inj heq).2
        subst hc hcs
        rw [mentionMatch_separated (hseparated c rfl) htoken]
        refine List.mem_cons.mpr (.inl (Prod.ext ?_ rfl))
        dsimp only
        omega
      | m + 2, _, _ =>
        cases hmatch : mentionMatch atStart (c :: cs) with
        | none => exact hlater rfl (Nat.zero_le m)
        | some found =>
          have hle := length_match_le h hmatch
          exact List.mem_cons_of_mem _ (hlater rfl (by omega))

/-- The matches of a text. -/
def mentionsOf (text : String) : List (Nat × List Char) := matchesFrom 0 0 true text.toList

/-- After a separated beginning of a text there is a match exactly if a token is there. -/
theorem mem_mentionsOf_iff {text : String} {front rest token : List Char}
    (htext : text.toList = front ++ '@' :: rest) (hseparated : Separated front) :
    (front.length, token) ∈ mentionsOf text ↔ handleAt rest = some token := by
  constructor
  · intro hmem
    obtain ⟨n, hn, hfound⟩ := found_of_mem hmem
    obtain ⟨front', rest', heq, hlength, -, htoken⟩ := hfound.split
    rw [htext] at heq
    obtain ⟨-, hrest⟩ := List.append_inj heq (by omega)
    obtain ⟨-, rfl⟩ := List.cons.inj hrest
    exact htoken
  · intro htoken
    have hfound : Found true text.toList front.length token :=
      ⟨⟨front, rest, htext, rfl, hseparated, htoken⟩, fun _ => rfl⟩
    have hmem : (0 + front.length, token) ∈ matchesFrom 0 0 true text.toList :=
      mem_of_found hfound (Nat.zero_le _)
    rwa [Nat.zero_add] at hmem

end MissionControl.Comments.Tokens
