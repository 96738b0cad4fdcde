import Mathlib.Data.List.Chain
import MissionControl.Foundations.JsonSpelling
import MissionControl.Gateway.RelaxedJson

/-!
Texts of JSON with comments and commas put in, and what the relaxed reading makes of them. It undoes
every such commenting of a text exactly if no string literal of the text ends in a backslash.
-/

set_option autoImplicit false
set_option relaxedAutoImplicit false

namespace MissionControl.Gateway.Commenting

open MissionControl.Foundations.JsText (isWhiteSpace)
open MissionControl.Foundations.JsonSpelling
open MissionControl.Foundations.JsonText
open RelaxedJson

/-! ### Comments and commas -/

/-- White space of a text, and what stands in its place when comments are put into it. The comment of
a line takes in the white space up to the end of the line. -/
inductive Gap : List Char → List Char → Prop
  | nil : Gap [] []
  | white {c : Char} {w g : List Char} : isWhite c = true → Gap w g → Gap (c :: w) (c :: g)
  | block {body w g : List Char} : ¬['*', '/'] <:+: body → Gap w g →
      Gap w ('/' :: '*' :: (body ++ '*' :: '/' :: g))
  | line {body w g : List Char} : '\n' ∉ body → Gap w g → Gap w ('/' :: '/' :: (body ++ '\n' :: g))
  | upTo {body v w g : List Char} : '\n' ∉ body → White v → v.Sublist body → Gap w g →
      Gap (v ++ '\n' :: w) ('/' :: '/' :: (body ++ '\n' :: g))

/-- The white space after the last token; the comment of the last line may end with the text. -/
inductive LastGap : List Char → List Char → Prop
  | gap {w g : List Char} : Gap w g → LastGap w g
  | line {body v w g : List Char} : '\n' ∉ body → White v → v.Sublist body → Gap w g →
      LastGap (w ++ v) (g ++ '/' :: '/' :: body)

/-- The token is the end of an element. -/
def EndsElement : Option Token → Prop
  | some (.string _) => True
  | some (.word _) => True
  | some (.punct c) => c = ']' ∨ c = '}'
  | none => False

/-- A text that is spelled from tokens, and the text that comes from it by putting in comments, and
commas between an element and the bracket that closes after it. -/
inductive Inserted : Option Token → List Token → List Char → List Char → Prop
  | done {prev : Option Token} {w g : List Char} : LastGap w g → Inserted prev [] w g
  | next {prev : Option Token} {token : Token} {tokens : List Token} {w g s t : List Char} :
      Gap w g → Inserted (some token) tokens s t →
      Inserted prev (token :: tokens) (w ++ token.text ++ s) (g ++ token.text ++ t)
  | comma {prev : Option Token} {token : Token} {tokens : List Token}
      {w g w' g' s t : List Char} : EndsElement prev → Closer token → Gap w g → Gap w' g' →
      Inserted (some token) tokens s t →
      Inserted prev (token :: tokens) (w ++ w' ++ token.text ++ s)
        (g ++ ',' :: (g' ++ token.text ++ t))

/-- `t` is `s` with comments and trailing commas. -/
def Commented (s t : List Char) : Prop := ∃ tokens, lex s = some tokens ∧ Inserted none tokens s t

/-- A string literal of the text has a backslash before the quote that closes it. -/
def EndsInBackslash : Token → Prop
  | .string raw => raw.getLast? = some '\\'
  | _ => False

/-! ### The scanners in a string -/

/-- The last character of a text after another. -/
def lastOr : Char → List Char → Char
  | p, [] => p
  | _, c :: cs => lastOr c cs

theorem lastOr_eq (p : Char) (raw : List Char) : lastOr p raw = raw.getLast?.getD p := by
  induction raw generalizing p with
  | nil => rfl
  | cons c raw ih =>
    rw [lastOr, ih, List.getLast?_cons]
    rfl

/-- A scanner that copies a string up to a quote after anything but a backslash finds the end of a
literal if there is no backslash before it, and else misses it. -/
theorem scan_body {F G : Char → List Char → List Char}
    (hstep : ∀ p c cs, F p (c :: cs) = c :: if c = '"' ∧ p ≠ '\\' then G c cs else F c cs)
    {raw : List Char} (h : Body raw) (p : Char) (rest : List Char) :
    F p (raw ++ '"' :: rest) =
      raw ++ '"' :: if lastOr p raw = '\\' then F '"' rest else G '"' rest := by
  induction h generalizing p with
  | nil =>
    rw [List.nil_append, hstep, lastOr]
    by_cases hp : p = '\\'
    · rw [if_neg fun hcontra => hcontra.2 hp, if_pos hp]
      rfl
    · rw [if_pos ⟨rfl, hp⟩, if_neg hp]
      rfl
  | @plain c raw hquote _ _ _ ih =>
    rw [List.cons_append, hstep, if_neg fun hcontra => hquote hcontra.1, ih, lastOr]
    rfl
  | @pair c raw _ ih =>
    rw [List.cons_append, List.cons_append, hstep, if_neg fun hcontra => absurd hcontra.1 (by decide),
      hstep, if_neg fun hcontra => hcontra.2 rfl, ih, lastOr, lastOr]
    rfl

theorem stripFrom_string (p c : Char) (cs : List Char) :
    stripFrom (.string '"') (some p) (c :: cs) =
      c :: if c = '"' ∧ p ≠ '\\' then stripFrom .outside (some c) cs
        else stripFrom (.string '"') (some c) cs := by
  simp [stripFrom, closes]

theorem removeFrom_string (p c : Char) (cs : List Char) :
    removeFrom (.string '"') (some p) (c :: cs) =
      c :: if c = '"' ∧ p ≠ '\\' then removeFrom .outside (some c) cs
        else removeFrom (.string '"') (some c) cs := by
  simp [removeFrom, closes]

/-! ### The scanners outside strings -/

/-- A character that both scanners copy, and that does not hide a quote after it. -/
structure Copied (c : Char) : Prop where
  noQuote : c ≠ '"' ∧ c ≠ '\''
  noSlash : c ≠ '/'
  noBackslash : c ≠ '\\'

theorem copied_white {c : Char} (h : isWhite c = true) : Copied c := by
  simp only [isWhite, decide_eq_true_eq] at h
  rcases h with rfl | rfl | rfl | rfl <;> exact ⟨by decide, by decide, by decide⟩

theorem copied_punct {c : Char} (h : isPunct c = true) : Copied c := by
  simp only [isPunct, decide_eq_true_eq] at h
  rcases h with rfl | rfl | rfl | rfl | rfl | rfl <;> exact ⟨by decide, by decide, by decide⟩

theorem copied_word {c : Char} (h : isWordChar c = true) : Copied c := by
  refine ⟨⟨?_, ?_⟩, ?_, ?_⟩ <;>
  · rintro rfl
    exact absurd h (by decide)

theorem stripFrom_copied {c : Char} (h : Copied c) (p : Option Char) (cs : List Char) :
    stripFrom .outside p (c :: cs) = c :: stripFrom .outside (some c) cs := by
  simp [stripFrom, opens, h.noQuote.1, h.noQuote.2, h.noSlash]

theorem stripFrom_copies {l : List Char} (h : ∀ c ∈ l, Copied c) (p : Option Char)
    (hp : p ≠ some '\\') :
    ∃ p', p' ≠ some '\\' ∧ ∀ cs, stripFrom .outside p (l ++ cs) = l ++ stripFrom .outside p' cs := by
  induction l generalizing p with
  | nil => exact ⟨p, hp, fun _ => rfl⟩
  | cons c l ih =>
    have hc := h c List.mem_cons_self
    obtain ⟨p', hp', hrest⟩ := ih (fun d hd => h d (List.mem_cons_of_mem c hd)) (some c)
      (fun hcontra => hc.noBackslash (Option.some.inj hcontra))
    refine ⟨p', hp', fun cs => ?_⟩
    rw [List.cons_append, stripFrom_copied hc, hrest, List.cons_append]

theorem removeFrom_copied {c : Char} (h : Copied c) (p : Option Char) {cs : List Char}
    (hcomma : c = ',' → closesNext cs = false) :
    removeFrom .outside p (c :: cs) = c :: removeFrom .outside (some c) cs := by
  have hkept : ¬(c = ',' ∧ closesNext cs = true) := by
    rintro ⟨hc, hnext⟩
    rw [hcomma hc] at hnext
    cases hnext
  simp [removeFrom, opens, h.noQuote.1, h.noQuote.2, hkept]

theorem removeFrom_copies {l : List Char} (h : ∀ c ∈ l, Copied c) (hcomma : ',' ∉ l)
    (p : Option Char) (hp : p ≠ some '\\') :
    ∃ p', p' ≠ some '\\' ∧ ∀ cs, removeFrom .outside p (l ++ cs) = l ++ removeFrom .outside p' cs := by
  induction l generalizing p with
  | nil => exact ⟨p, hp, fun _ => rfl⟩
  | cons c l ih =>
    have hc := h c List.mem_cons_self
    rw [List.mem_cons, not_or] at hcomma
    obtain ⟨p', hp', hrest⟩ := ih (fun d hd => h d (List.mem_cons_of_mem c hd)) hcomma.2 (some c)
      (fun hcontra => hc.noBackslash (Option.some.inj hcontra))
    refine ⟨p', hp', fun cs => ?_⟩
    rw [List.cons_append, removeFrom_copied hc p (fun hcontra => absurd hcontra.symm hcomma.1),
      hrest, List.cons_append]

/-! ### Comments go -/

theorem stripFrom_line {body : List Char} (h : '\n' ∉ body) (p : Option Char) (cs : List Char) :
    stripFrom .line p (body ++ '\n' :: cs) = '\n' :: stripFrom .outside (some '\n') cs := by
  induction body generalizing p with
  | nil => simp [stripFrom]
  | cons c body ih =>
    rw [List.mem_cons, not_or] at h
    rw [List.cons_append, stripFrom, if_neg (Ne.symm h.1), ih h.2]

theorem stripFrom_lastLine {body : List Char} (h : '\n' ∉ body) (p : Option Char) :
    stripFrom .line p body = [] := by
  induction body generalizing p with
  | nil => rfl
  | cons c body ih =>
    rw [List.mem_cons, not_or] at h
    rw [stripFrom, if_neg (Ne.symm h.1), ih h.2]

theorem stripFrom_block {body : List Char} (h : ¬['*', '/'] <:+: body) (p : Option Char)
    (cs : List Char) :
    stripFrom .block p (body ++ '*' :: '/' :: cs) = stripFrom .outside (some '/') cs := by
  induction body generalizing p with
  | nil => simp [stripFrom]
  | cons c body ih =>
    have hbody : ¬['*', '/'] <:+: body := fun hcontra => h (hcontra.trans (List.suffix_cons c body).isInfix)
    have hopen : ¬(c = '*' ∧ (body ++ '*' :: '/' :: cs).head? = some '/') := by
      rintro ⟨rfl, hhead⟩
      cases body with
      | nil => cases hhead
      | cons d body =>
        obtain rfl := Option.some.inj hhead
        exact h ⟨[], body, rfl⟩
    rw [List.cons_append, stripFrom, if_neg hopen, ih hbody]

theorem stripFrom_openLine (p : Option Char) (cs : List Char) :
    stripFrom .outside p ('/' :: '/' :: cs) = stripFrom .line (some '/') cs := by
  simp [stripFrom, opens]

theorem stripFrom_openBlock (p : Option Char) (cs : List Char) :
    stripFrom .outside p ('/' :: '*' :: cs) = stripFrom .block (some '*') cs := by
  simp [stripFrom, opens]

/-- Of a gap only white space is left. -/
theorem stripFrom_gap {w g : List Char} (h : Gap w g) (p : Option Char) (hp : p ≠ some '\\') :
    ∃ b p', White b ∧ p' ≠ some '\\' ∧
      ∀ cs, stripFrom .outside p (g ++ cs) = b ++ stripFrom .outside p' cs := by
  induction h generalizing p with
  | nil => exact ⟨[], p, .nil, hp, fun _ => rfl⟩
  | @white c w g hc _ ih =>
    have hcopied := copied_white hc
    obtain ⟨b, p', hb, hp', hrest⟩ := ih (some c)
      fun hcontra => hcopied.noBackslash (Option.some.inj hcontra)
    refine ⟨c :: b, p', .cons hc hb, hp', fun cs => ?_⟩
    rw [List.cons_append, stripFrom_copied hcopied, hrest, List.cons_append]
  | @block body w g hbody _ ih =>
    obtain ⟨b, p', hb, hp', hrest⟩ := ih (some '/') (by decide)
    refine ⟨b, p', hb, hp', fun cs => ?_⟩
    rw [← hrest]
    simpa using (stripFrom_openBlock p _).trans (stripFrom_block hbody (some '*') (g ++ cs))
  | @line body w g hbody _ ih =>
    obtain ⟨b, p', hb, hp', hrest⟩ := ih (some '\n') (by decide)
    refine ⟨'\n' :: b, p', .cons rfl hb, hp', fun cs => ?_⟩
    have hline := (stripFrom_openLine p _).trans (stripFrom_line hbody (some '/') (g ++ cs))
    rw [hrest] at hline
    simpa using hline
  | @upTo body v w g hbody _ _ _ ih =>
    obtain ⟨b, p', hb, hp', hrest⟩ := ih (some '\n') (by decide)
    refine ⟨'\n' :: b, p', .cons rfl hb, hp', fun cs => ?_⟩
    have hline := (stripFrom_openLine p _).trans (stripFrom_line hbody (some '/') (g ++ cs))
    rw [hrest] at hline
    simpa using hline

theorem stripFrom_lastGap {w g : List Char} (h : LastGap w g) (p : Option Char)
    (hp : p ≠ some '\\') : White (stripFrom .outside p g) := by
  cases h with
  | gap h =>
    obtain ⟨b, p', hb, -, hrest⟩ := stripFrom_gap h p hp
    have hend := hrest []
    rw [List.append_nil] at hend
    rw [hend, stripFrom, List.append_nil]
    exact hb
  | @line body v w g hbody _ _ h =>
    obtain ⟨b, p', hb, -, hrest⟩ := stripFrom_gap h p hp
    rw [hrest, stripFrom_openLine, stripFrom_lastLine hbody, List.append_nil]
    exact hb

/-! ### Tokens stay -/

/-- A literal whose end the scanners find. -/
def Sound (token : Token) : Prop := ¬EndsInBackslash token

theorem lastOr_of_sound {raw : List Char} (h : Sound (.string raw)) : lastOr '"' raw ≠ '\\' := by
  rw [lastOr_eq]
  cases hlast : raw.getLast? with
  | none => decide
  | some c =>
    rintro rfl
    exact h hlast

theorem lastOr_of_not_sound {raw : List Char} (h : raw.getLast? = some '\\') :
    lastOr '"' raw = '\\' := by
  rw [lastOr_eq, h]
  rfl

theorem copied_token (token : Token) (hvalid : Valid token) (hstring : ∀ raw, token ≠ .string raw) :
    ∀ c ∈ token.text, Copied c := by
  cases token with
  | punct c =>
    intro d hd
    obtain rfl := List.mem_singleton.mp hd
    exact copied_punct hvalid
  | string raw => exact absurd rfl (hstring raw)
  | word raw => exact fun c hc => copied_word (hvalid.2 c hc)

theorem stripFrom_token {token : Token} (hvalid : Valid token) (hsound : Sound token)
    (p : Option Char) (hp : p ≠ some '\\') :
    ∃ p', p' ≠ some '\\' ∧
      ∀ cs, stripFrom .outside p (token.text ++ cs) = token.text ++ stripFrom .outside p' cs := by
  cases token with
  | punct c => exact stripFrom_copies (copied_token _ hvalid (by simp)) p hp
  | word raw => exact stripFrom_copies (copied_token _ hvalid (by simp)) p hp
  | string raw =>
    refine ⟨some '"', by decide, fun cs => ?_⟩
    have hscan := scan_body (F := fun q => stripFrom (.string '"') (some q))
      (G := fun q => stripFrom .outside (some q)) stripFrom_string hvalid '"' cs
    rw [if_neg (lastOr_of_sound hsound)] at hscan
    have hopen : opens '"' p = true := by simp [opens, hp]
    simpa [Token.text, stripFrom, hopen] using hscan

/-- What the first scanner leaves: tokens with white space, and the commas that were put in. -/
inductive Trailing : List Token → List Char → Prop
  | done {w : List Char} : White w → Trailing [] w
  | next {w : List Char} {token : Token} {tokens : List Token} {text : List Char} : White w →
      Trailing tokens text → Trailing (token :: tokens) (w ++ token.text ++ text)
  | comma {w w' : List Char} {token : Token} {tokens : List Token} {text : List Char} : White w →
      White w' → Closer token → Trailing tokens text →
      Trailing (token :: tokens) (w ++ ',' :: (w' ++ token.text ++ text))

theorem trailing_of_inserted {prev : Option Token} {tokens : List Token} {s t : List Char}
    (h : Inserted prev tokens s t) (hvalid : ∀ token ∈ tokens, Valid token)
    (hsound : ∀ token ∈ tokens, Sound token) (p : Option Char) (hp : p ≠ some '\\') :
    Trailing tokens (stripFrom .outside p t) := by
  induction h generalizing p with
  | done hgap => exact .done (stripFrom_lastGap hgap p hp)
  | @next prev token tokens w g s t hgap _ ih =>
    rw [List.forall_mem_cons] at hvalid hsound
    obtain ⟨b, p', hb, hp', hrest⟩ := stripFrom_gap hgap p hp
    obtain ⟨p'', hp'', htoken⟩ := stripFrom_token hvalid.1 hsound.1 p' hp'
    rw [List.append_assoc, hrest, htoken, ← List.append_assoc]
    exact .next hb (ih hvalid.2 hsound.2 p'' hp'')
  | @comma prev token tokens w g w' g' s t _ hcloser hgap hgap' _ ih =>
    rw [List.forall_mem_cons] at hvalid hsound
    obtain ⟨b, p', hb, hp', hrest⟩ := stripFrom_gap hgap p hp
    obtain ⟨b', q, hb', hq, hrest'⟩ := stripFrom_gap hgap' (some ',') (by decide)
    obtain ⟨p'', hp'', htoken⟩ := stripFrom_token hvalid.1 hsound.1 q hq
    rw [hrest, stripFrom_copied (copied_punct (c := ',') rfl), List.append_assoc, hrest', htoken,
      ← List.append_assoc]
    exact .comma hb hb' hcloser (ih hvalid.2 hsound.2 p'' hp'')

/-! ### Commas go -/

theorem isWhiteSpace_of_white {c : Char} (h : isWhite c = true) : isWhiteSpace c = true := by
  simp only [isWhite, decide_eq_true_eq] at h
  rcases h with rfl | rfl | rfl | rfl <;> rfl

theorem closesNext_white {w : List Char} (h : White w) (cs : List Char) :
    closesNext (w ++ cs) = closesNext cs := by
  have hdrop : (w ++ cs).dropWhile isWhiteSpace = cs.dropWhile isWhiteSpace :=
    List.dropWhile_append_of_pos fun c hc => isWhiteSpace_of_white (h c hc)
  rw [closesNext, hdrop]
  rfl

theorem closesNext_cons {c : Char} (h : isWhiteSpace c = false) (cs : List Char) :
    closesNext (c :: cs) = true ↔ c = '}' ∨ c = ']' := by
  have hdrop : (c :: cs).dropWhile isWhiteSpace = c :: cs :=
    List.dropWhile_cons_of_neg (by simp [h])
  simp [closesNext, hdrop]

theorem toNat_lt_of_isAlphanum {c : Char} (h : c.isAlphanum = true) : c.toNat < 128 := by
  have hle : c.val ≤ 'z'.val := by
    have hcases : ((decide ('A'.val ≤ c.val ∧ c.val ≤ 'Z'.val) ||
        (decide ('a'.val ≤ c.val) && decide (c.val ≤ 'z'.val))) ||
        (decide ('0'.val ≤ c.val) && decide (c.val ≤ '9'.val))) = true := h
    simp only [Bool.or_eq_true, Bool.and_eq_true, decide_eq_true_eq] at hcases
    rcases hcases with (⟨-, hupper⟩ | ⟨-, hlower⟩) | ⟨-, hdigit⟩
    · exact UInt32.le_trans hupper (by decide)
    · exact hlower
    · exact UInt32.le_trans hdigit (by decide)
  have hnat : c.toNat ≤ 122 := UInt32.le_iff_toNat_le.mp hle
  omega

theorem not_whiteSpace_of_word {c : Char} (h : isWordChar c = true) : isWhiteSpace c = false := by
  by_contra hcontra
  rw [Bool.not_eq_false] at hcontra
  have hlarge : ∀ d : Char, isWordChar d = true → d.toNat < 128 := by
    intro d hd
    simp only [isWordChar, Bool.or_eq_true, decide_eq_true_eq] at hd
    rcases hd with ((hd | rfl) | rfl) | rfl
    · exact toNat_lt_of_isAlphanum hd
    · decide
    · decide
    · decide
  have hall : ∀ n < 128, isWordChar (Char.ofNat n) = true → isWhiteSpace (Char.ofNat n) = false := by
    decide +kernel
  have hsmall := hall c.toNat (hlarge c h)
  rw [Char.ofNat_toNat] at hsmall
  rw [hsmall h] at hcontra
  cases hcontra

/-- The scanner looks at the first character of the next token. -/
theorem closesNext_token {token : Token} (hvalid : Valid token) (cs : List Char) :
    closesNext (token.text ++ cs) = true ↔ Closer token := by
  cases token with
  | punct c =>
    have hspace : isWhiteSpace c = false := by
      have hpunct : isPunct c = true := hvalid
      simp only [isPunct, decide_eq_true_eq] at hpunct
      rcases hpunct with rfl | rfl | rfl | rfl | rfl | rfl <;> rfl
    refine (closesNext_cons hspace cs).trans ?_
    simp [Closer, or_comm]
  | string raw =>
    refine (closesNext_cons (c := '"') rfl (raw ++ ['"'] ++ cs)).trans ?_
    simp [Closer]
  | word raw =>
    obtain ⟨hne, hword⟩ := hvalid
    obtain ⟨c, raw, rfl⟩ := List.exists_cons_of_ne_nil hne
    have hc := hword c List.mem_cons_self
    refine (closesNext_cons (not_whiteSpace_of_word hc) (raw ++ cs)).trans ?_
    constructor
    · rintro (rfl | rfl)
      · cases hc
      · cases hc
    · rintro (hcontra | hcontra)
      · cases hcontra
      · cases hcontra

/-- No bracket closes next in a text whose next token is none. -/
theorem closesNext_of_trailing {tokens : List Token} {text : List Char} (h : Trailing tokens text)
    (hvalid : ∀ token ∈ tokens, Valid token)
    (hhead : ∀ token ∈ tokens.head?, ¬Closer token) : closesNext text = false := by
  rw [Bool.eq_false_iff]
  cases h with
  | @done w hw =>
    intro hnext
    have hempty := closesNext_white hw []
    rw [List.append_nil, hnext] at hempty
    cases hempty
  | @next w token tokens text hw _ =>
    rw [List.append_assoc, closesNext_white hw, Ne, closesNext_token (hvalid token (by simp))]
    exact hhead token rfl
  | @comma w w' token tokens text _ _ hcloser _ => exact absurd hcloser (hhead token rfl)

/-- A text that goes on with no word does not go on with a character of one. -/
theorem ended_of_spelled {tokens : List Token} {text : List Char} (h : Spelled tokens text)
    (hhead : ∀ token ∈ tokens.head?, ¬IsWord token) : Ended text := by
  intro c cs heq
  have hwhite : ∀ {w : List Char} (rest : List Char), White w → (∀ d ds, rest = d :: ds → isWordChar d = false) →
      w ++ rest = c :: cs → isWordChar c = false := by
    intro w rest hw hrest happend
    cases w with
    | nil => exact hrest c cs happend
    | cons d w =>
      obtain ⟨rfl, -⟩ := List.cons.inj happend
      exact not_word_of_white (hw d List.mem_cons_self)
  cases h with
  | @done w hw => exact hwhite [] hw (fun d ds hcontra => by cases hcontra) (by simpa)
  | @next w token tokens text hw hvalid _ _ =>
    rw [List.append_assoc] at heq
    refine hwhite _ hw (fun d ds hrest => ?_) heq
    cases token with
    | punct e =>
      obtain ⟨rfl, -⟩ := List.cons.inj hrest
      exact not_word_of_punct hvalid
    | string raw =>
      obtain ⟨rfl, -⟩ := List.cons.inj hrest
      rfl
    | word raw => exact absurd trivial (hhead _ rfl)

theorem removeFrom_token {token : Token} (hvalid : Valid token) (hsound : Sound token)
    (p : Option Char) (hp : p ≠ some '\\') (text : List Char)
    (hcomma : token = .punct ',' → closesNext text = false) :
    ∃ p', p' ≠ some '\\' ∧
      removeFrom .outside p (token.text ++ text) = token.text ++ removeFrom .outside p' text := by
  cases token with
  | punct c =>
    refine ⟨some c, fun hcontra => (copied_punct hvalid).noBackslash (Option.some.inj hcontra), ?_⟩
    exact removeFrom_copied (copied_punct hvalid) p fun hc => hcomma (congrArg Token.punct hc)
  | word raw =>
    have hnone : ',' ∉ raw := fun hcontra => absurd (hvalid.2 ',' hcontra) (by decide)
    obtain ⟨p', hp', hrest⟩ := removeFrom_copies
      (copied_token (.word raw) hvalid (by simp)) hnone p hp
    exact ⟨p', hp', hrest text⟩
  | string raw =>
    refine ⟨some '"', by decide, ?_⟩
    have hscan := scan_body (F := fun q => removeFrom (.string '"') (some q))
      (G := fun q => removeFrom .outside (some q)) removeFrom_string hvalid '"' text
    rw [if_neg (lastOr_of_sound hsound)] at hscan
    have hopen : opens '"' p = true := by simp [opens, hp]
    simpa [Token.text, removeFrom, hopen] using hscan

theorem removeFrom_white {w : List Char} (h : White w) (p : Option Char) (hp : p ≠ some '\\') :
    ∃ p', p' ≠ some '\\' ∧ ∀ cs, removeFrom .outside p (w ++ cs) = w ++ removeFrom .outside p' cs :=
  removeFrom_copies (fun c hc => copied_white (h c hc))
    (fun hcontra => absurd (h ',' hcontra) (by decide)) p hp

/-- A token that the second scanner comes to is spelled before what it leaves after it. -/
theorem spelled_next {token : Token} {tokens : List Token} {text : List Char}
    (htrailing : Trailing tokens text) (hvalid : ∀ other ∈ token :: tokens, Valid other)
    (hsound : ∀ other ∈ token :: tokens, Sound other) (hchain : (token :: tokens).IsChain Adjacent)
    (ih : ∀ p, p ≠ some '\\' → Spelled tokens (removeFrom .outside p text)) (q : Option Char)
    (hq : q ≠ some '\\') :
    Spelled (token :: tokens) (removeFrom .outside q (token.text ++ text)) := by
  have hhead := (List.isChain_cons.mp hchain).1
  rw [List.forall_mem_cons] at hvalid hsound
  obtain ⟨p', hp', hrest⟩ := removeFrom_token hvalid.1 hsound.1 q hq text fun hcomma =>
    closesNext_of_trailing htrailing hvalid.2 fun other hother => (hhead other hother).comma hcomma
  have hspelled := ih p' hp'
  rw [hrest]
  exact spelled_token _ hvalid.1
    (fun hword => ended_of_spelled hspelled fun other hother => (hhead other hother).words hword)
    hspelled

/-- What the second scanner leaves is spelled from the tokens. -/
theorem spelled_of_trailing {tokens : List Token} {text : List Char} (h : Trailing tokens text)
    (hvalid : ∀ token ∈ tokens, Valid token) (hsound : ∀ token ∈ tokens, Sound token)
    (hchain : tokens.IsChain Adjacent) (p : Option Char) (hp : p ≠ some '\\') :
    Spelled tokens (removeFrom .outside p text) := by
  induction h generalizing p with
  | @done w hw =>
    obtain ⟨p', -, hrest⟩ := removeFrom_white hw p hp
    have hend := hrest []
    rw [List.append_nil, removeFrom, List.append_nil] at hend
    rw [hend]
    exact .done hw
  | @next w token tokens text hw htrailing ih =>
    obtain ⟨p', hp', hrest⟩ := removeFrom_white hw p hp
    rw [List.append_assoc, hrest]
    exact spelled_white hw (spelled_next htrailing hvalid hsound hchain
      (ih (List.forall_mem_cons.mp hvalid).2 (List.forall_mem_cons.mp hsound).2 hchain.of_cons)
      p' hp')
  | @comma w w' token tokens text hw hw' hcloser htrailing ih =>
    obtain ⟨p', hp', hrest⟩ := removeFrom_white hw p hp
    obtain ⟨q, hq, hrest'⟩ := removeFrom_white hw' (some ',') (by decide)
    have hgone : removeFrom .outside p' (',' :: (w' ++ token.text ++ text)) =
        removeFrom .outside (some ',') (w' ++ token.text ++ text) := by
      have hcloses : closesNext (w' ++ token.text ++ text) = true := by
        rw [List.append_assoc, closesNext_white hw',
          closesNext_token (List.forall_mem_cons.mp hvalid).1]
        exact hcloser
      have hopen : opens ',' p' ≠ true := by simp [opens]
      rw [removeFrom, if_neg hopen, if_pos ⟨rfl, hcloses⟩]
    rw [hrest, hgone, List.append_assoc, hrest']
    exact spelled_white hw (spelled_white hw' (spelled_next htrailing hvalid hsound hchain
      (ih (List.forall_mem_cons.mp hvalid).2 (List.forall_mem_cons.mp hsound).2 hchain.of_cons)
      q hq))

/-! ### The strict reading -/

theorem lex_slash (cs : List Char) : lex ('/' :: cs) = none := rfl

/-- A gap is white space, or the text is not cut at all. -/
theorem lex_gap {w g : List Char} (h : Gap w g) : White g ∨ ∀ cs, lex (g ++ cs) = none := by
  induction h with
  | nil => exact .inl .nil
  | @white c w g hc _ ih =>
    rcases ih with hwhite | hnone
    · exact .inl (.cons hc hwhite)
    · refine .inr fun cs => ?_
      exact (lex_white (w := [c]) (.cons hc .nil) (g ++ cs)).trans (hnone cs)
  | block _ _ _ => exact .inr fun cs => lex_slash _
  | line _ _ _ => exact .inr fun cs => lex_slash _
  | upTo _ _ _ _ _ => exact .inr fun cs => lex_slash _

theorem lex_lastGap {w g : List Char} (h : LastGap w g) : White g ∨ lex g = none := by
  cases h with
  | gap h =>
    rcases lex_gap h with hwhite | hnone
    · exact .inl hwhite
    · have hend := hnone []
      rw [List.append_nil] at hend
      exact .inr hend
  | line _ _ _ h =>
    rcases lex_gap h with hwhite | hnone
    · rw [lex_white hwhite]
      exact .inr (lex_slash _)
    · exact .inr (hnone _)

/-- A gap begins with no character of a word. -/
theorem ended_gap {w g cs : List Char} (h : Gap w g) (hcs : Ended cs) : Ended (g ++ cs) := by
  intro c ds heq
  cases h with
  | nil => exact hcs c ds heq
  | white hc _ =>
    obtain ⟨rfl, -⟩ := List.cons.inj heq
    exact not_word_of_white hc
  | block _ _ =>
    obtain ⟨rfl, -⟩ := List.cons.inj heq
    rfl
  | line _ _ =>
    obtain ⟨rfl, -⟩ := List.cons.inj heq
    rfl
  | upTo _ _ _ _ =>
    obtain ⟨rfl, -⟩ := List.cons.inj heq
    rfl

theorem ended_nil : Ended [] := fun _ _ h => by cases h

theorem ended_cons {c : Char} (h : isWordChar c = false) (cs : List Char) : Ended (c :: cs) := by
  intro d ds heq
  obtain ⟨rfl, -⟩ := List.cons.inj heq
  exact h

theorem ended_token {token : Token} (hvalid : Valid token) (hword : ¬IsWord token)
    (cs : List Char) : Ended (token.text ++ cs) := by
  cases token with
  | punct c => exact ended_cons (not_word_of_punct hvalid) cs
  | string raw => exact ended_cons rfl _
  | word raw => exact absurd trivial hword

theorem ended_inserted {prev : Option Token} {tokens : List Token} {s t : List Char}
    (h : Inserted prev tokens s t) (hvalid : ∀ token ∈ tokens, Valid token)
    (hhead : ∀ token ∈ tokens.head?, ¬IsWord token) : Ended t := by
  cases h with
  | done hlast =>
    cases hlast with
    | gap hgap =>
      have hended := ended_gap hgap ended_nil
      rwa [List.append_nil] at hended
    | line _ _ _ hgap => exact ended_gap hgap (ended_cons rfl _)
  | next hgap _ =>
    rw [List.append_assoc]
    exact ended_gap hgap (ended_token (hvalid _ (by simp)) (hhead _ rfl) _)
  | comma _ _ hgap _ _ => exact ended_gap hgap (ended_cons rfl _)

/-- If a text with comments and commas is cut into tokens, they are those of the text without, or a
bracket closes after a comma. -/
theorem lex_inserted {prev : Option Token} {tokens : List Token} {s t : List Char}
    (h : Inserted prev tokens s t) (hvalid : ∀ token ∈ tokens, Valid token)
    (hchain : tokens.IsChain Adjacent) {tokens' : List Token} (hlex : lex t = some tokens') :
    tokens' = tokens ∨ ¬tokens'.IsChain Adjacent := by
  induction h generalizing tokens' with
  | done hgap =>
    rcases lex_lastGap hgap with hwhite | hnone
    · rw [lex_of_spelled (.done hwhite)] at hlex
      exact .inl (Option.some.inj hlex).symm
    · rw [hnone] at hlex
      cases hlex
  | @next prev token tokens w g s t hgap hinserted ih =>
    rw [List.forall_mem_cons] at hvalid
    rw [List.isChain_cons] at hchain
    rcases lex_gap hgap with hwhite | hnone
    · have hended : IsWord token → Ended t := fun hword =>
        ended_inserted hinserted hvalid.2 fun other hother => (hchain.1 other hother).words hword
      rw [List.append_assoc, lex_white hwhite, lex_token _ hvalid.1 hended,
        Option.map_eq_some_iff] at hlex
      obtain ⟨more, hmore, rfl⟩ := hlex
      rcases ih hvalid.2 hchain.2 hmore with rfl | hbroken
      · exact .inl rfl
      · exact .inr fun hcontra => hbroken hcontra.of_cons
    · rw [List.append_assoc, hnone] at hlex
      cases hlex
  | @comma prev token tokens w g w' g' s t _ hcloser hgap hgap' hinserted ih =>
    rw [List.forall_mem_cons] at hvalid
    have hword : ¬IsWord token := by
      rintro hword
      rcases hcloser with rfl | rfl <;> exact hword
    rcases lex_gap hgap with hwhite | hnone
    · rcases lex_gap hgap' with hwhite' | hnone'
      · have hcomma : lex (',' :: (g' ++ token.text ++ t)) =
            (lex (g' ++ token.text ++ t)).map (.punct ',' :: ·) :=
          lex_token (.punct ',') rfl fun hcontra => hcontra.elim
        rw [lex_white hwhite, hcomma, List.append_assoc, lex_white hwhite',
          lex_token _ hvalid.1 fun hcontra => absurd hcontra hword, Option.map_map,
          Option.map_eq_some_iff] at hlex
        obtain ⟨more, -, rfl⟩ := hlex
        refine .inr fun hcontra => ?_
        exact (List.isChain_cons_cons.mp hcontra).1.comma rfl hcloser
      · have hcomma : lex (',' :: (g' ++ token.text ++ t)) =
            (lex (g' ++ token.text ++ t)).map (.punct ',' :: ·) :=
          lex_token (.punct ',') rfl fun hcontra => hcontra.elim
        rw [lex_white hwhite, hcomma, List.append_assoc, hnone'] at hlex
        cases hlex
    · rw [hnone] at hlex
      cases hlex

theorem valid_of_spelled {tokens : List Token} {text : List Char} (h : Spelled tokens text) :
    ∀ token ∈ tokens, Valid token := by
  induction h with
  | done _ => exact fun _ hmem => absurd hmem List.not_mem_nil
  | next _ hvalid _ _ ih => exact List.forall_mem_cons.mpr ⟨hvalid, ih⟩

/-- Where no literal ends in a backslash, the relaxed reading of the text with comments and commas is
the strict reading of the text without. -/
theorem relaxed_of_sound {s t : List Char} {v : Value} (hparse : parse s = some v)
    (hcommented : Commented s t)
    (hsound : ∀ tokens, lex s = some tokens → ∀ token ∈ tokens, Sound token) :
    parseJsonRelaxed t = some v := by
  obtain ⟨tokens, hlex, hinserted⟩ := hcommented
  have hvalid := valid_of_spelled (lex_eq_some_iff.mp hlex)
  have htokens : parseTokens tokens = some v := by
    rw [parse, hlex] at hparse
    exact hparse
  have hchain := adjacent_of_parse htokens
  have hstripped := trailing_of_inserted hinserted hvalid (hsound tokens hlex) none (by decide)
  have hspelled := spelled_of_trailing hstripped hvalid (hsound tokens hlex) hchain none (by decide)
  have hrelaxed : parse (removeTrailingCommas (stripJsonComments t)) = some v := by
    rw [parse, removeTrailingCommas, stripJsonComments, lex_of_spelled hspelled]
    exact htokens
  unfold parseJsonRelaxed
  cases hstrict : parse t with
  | none => exact hrelaxed
  | some v' =>
    obtain ⟨tokens', hlex', hparse'⟩ := Option.bind_eq_some_iff.mp hstrict
    rcases lex_inserted hinserted hvalid hchain hlex' with rfl | hbroken
    · exact hparse'.symm.trans htokens
    · exact absurd (adjacent_of_parse hparse') hbroken

/-! ### A literal whose end is missed -/

/-- After tokens that the scanners find the end of comes a literal of which they do not, and after it
a slash. -/
inductive Stuck : List Token → List Char → List Char → Prop
  | here {w raw cs : List Char} : White w → Stuck [] raw (w ++ '"' :: (raw ++ '"' :: '/' :: cs))
  | next {w : List Char} {token : Token} {front : List Token} {raw text : List Char} : White w →
      Stuck front raw text → Stuck (token :: front) raw (w ++ token.text ++ text)

theorem stuck_stripFrom {front : List Token} {raw text : List Char} (h : Stuck front raw text)
    (hvalid : ∀ token ∈ front, Valid token) (hsound : ∀ token ∈ front, Sound token)
    (hbody : Body raw) (hmissed : raw.getLast? = some '\\') (p : Option Char)
    (hp : p ≠ some '\\') : Stuck front raw (stripFrom .outside p text) := by
  induction h generalizing p with
  | @here w raw cs hw =>
    obtain ⟨p', hp', hrest⟩ := stripFrom_copies (fun c hc => copied_white (hw c hc)) p hp
    have hscan := scan_body (F := fun q => stripFrom (.string '"') (some q))
      (G := fun q => stripFrom .outside (some q)) stripFrom_string hbody '"' ('/' :: cs)
    rw [if_pos (lastOr_of_not_sound hmissed)] at hscan
    have hopen : opens '"' p' = true := by simp [opens, hp']
    have hslash : stripFrom (.string '"') (some '"') ('/' :: cs) =
        '/' :: stripFrom (.string '"') (some '/') cs := by simp [stripFrom, closes]
    have hstep : stripFrom .outside p' ('"' :: (raw ++ '"' :: '/' :: cs)) =
        '"' :: (raw ++ '"' :: '/' :: stripFrom (.string '"') (some '/') cs) := by
      rw [stripFrom, if_pos hopen, ← hslash]
      exact congrArg ('"' :: ·) hscan
    rw [hrest, hstep]
    exact .here hw
  | @next w token front raw text hw _ ih =>
    rw [List.forall_mem_cons] at hvalid hsound
    obtain ⟨p', hp', hrest⟩ := stripFrom_copies (fun c hc => copied_white (hw c hc)) p hp
    obtain ⟨q, hq, htoken⟩ := stripFrom_token hvalid.1 hsound.1 p' hp'
    rw [List.append_assoc, hrest, htoken, ← List.append_assoc]
    exact .next hw (ih hvalid.2 hsound.2 hbody hmissed q hq)

/-- The tokens up to the literal. -/
def upToLiteral (front : List Token) (raw : List Char) : List Token := front ++ [.string raw]

theorem closesNext_of_stuck {front : List Token} {raw text : List Char} (h : Stuck front raw text)
    (hvalid : ∀ token ∈ front, Valid token)
    (hhead : ∀ token ∈ (upToLiteral front raw).head?, ¬Closer token) : closesNext text = false := by
  rw [Bool.eq_false_iff]
  cases h with
  | here hw =>
    rw [closesNext_white hw]
    exact fun hcontra => absurd ((closesNext_cons (c := '"') rfl _).mp hcontra) (by decide)
  | next hw _ =>
    rw [List.append_assoc, closesNext_white hw, Ne, closesNext_token (hvalid _ (by simp))]
    exact hhead _ rfl

theorem stuck_removeFrom {front : List Token} {raw text : List Char} (h : Stuck front raw text)
    (hvalid : ∀ token ∈ front, Valid token) (hsound : ∀ token ∈ front, Sound token)
    (hbody : Body raw) (hmissed : raw.getLast? = some '\\')
    (hchain : (upToLiteral front raw).IsChain Adjacent) (p : Option Char) (hp : p ≠ some '\\') :
    Stuck front raw (removeFrom .outside p text) := by
  induction h generalizing p with
  | @here w raw cs hw =>
    obtain ⟨p', hp', hrest⟩ := removeFrom_white hw p hp
    have hscan := scan_body (F := fun q => removeFrom (.string '"') (some q))
      (G := fun q => removeFrom .outside (some q)) removeFrom_string hbody '"' ('/' :: cs)
    rw [if_pos (lastOr_of_not_sound hmissed)] at hscan
    have hopen : opens '"' p' = true := by simp [opens, hp']
    have hslash : removeFrom (.string '"') (some '"') ('/' :: cs) =
        '/' :: removeFrom (.string '"') (some '/') cs := by simp [removeFrom, closes]
    have hstep : removeFrom .outside p' ('"' :: (raw ++ '"' :: '/' :: cs)) =
        '"' :: (raw ++ '"' :: '/' :: removeFrom (.string '"') (some '/') cs) := by
      rw [removeFrom, if_pos hopen, ← hslash]
      exact congrArg ('"' :: ·) hscan
    rw [hrest, hstep]
    exact .here hw
  | @next w token front raw text hw hstuck ih =>
    rw [List.forall_mem_cons] at hvalid hsound
    have hneighbours := List.isChain_cons.mp
      (show (token :: upToLiteral front raw).IsChain Adjacent from hchain)
    obtain ⟨p', hp', hrest⟩ := removeFrom_white hw p hp
    obtain ⟨q, hq, htoken⟩ := removeFrom_token hvalid.1 hsound.1 p' hp' text
      fun hcomma => closesNext_of_stuck hstuck hvalid.2 fun other hother =>
        (hneighbours.1 other hother).comma hcomma
    rw [List.append_assoc, hrest, htoken, ← List.append_assoc]
    exact .next hw (ih hvalid.2 hsound.2 hbody hmissed hneighbours.2 q hq)

theorem ended_white {w cs : List Char} (hw : White w) (hcs : Ended cs) : Ended (w ++ cs) := by
  cases w with
  | nil => exact hcs
  | cons c w => exact ended_cons (not_word_of_white (hw c List.mem_cons_self)) _

theorem ended_of_stuck {front : List Token} {raw text : List Char} (h : Stuck front raw text)
    (hvalid : ∀ token ∈ front, Valid token)
    (hhead : ∀ token ∈ (upToLiteral front raw).head?, ¬IsWord token) : Ended text := by
  cases h with
  | here hw => exact ended_white hw (ended_cons rfl _)
  | next hw _ =>
    rw [List.append_assoc]
    exact ended_white hw (ended_token (hvalid _ (by simp)) (hhead _ rfl) _)

/-- The slash is no token. -/
theorem lex_stuck {front : List Token} {raw text : List Char} (h : Stuck front raw text)
    (hvalid : ∀ token ∈ front, Valid token) (hbody : Body raw)
    (hchain : (upToLiteral front raw).IsChain Adjacent) : lex text = none := by
  induction h with
  | @here w raw cs hw =>
    have htoken : lex (Token.text (.string raw) ++ '/' :: cs) =
        (lex ('/' :: cs)).map (.string raw :: ·) :=
      lex_token (.string raw) hbody fun hword => hword.elim
    rw [lex_white hw]
    simpa [Token.text, lex_slash] using htoken
  | @next w token front raw text hw hstuck ih =>
    rw [List.forall_mem_cons] at hvalid
    have hneighbours := List.isChain_cons.mp
      (show (token :: upToLiteral front raw).IsChain Adjacent from hchain)
    rw [List.append_assoc, lex_white hw, lex_token _ hvalid.1 fun hword =>
      ended_of_stuck hstuck hvalid.2 fun other hother => (hneighbours.1 other hother).words hword,
      ih hvalid.2 hbody hneighbours.2]
    rfl

/-! ### A comment after such a literal -/

theorem gap_refl {w : List Char} (h : White w) : Gap w w := by
  induction w with
  | nil => exact .nil
  | cons c w ih =>
    exact .white (h c List.mem_cons_self) (ih fun d hd => h d (List.mem_cons_of_mem c hd))

theorem inserted_refl {tokens : List Token} {s : List Char} (h : Spelled tokens s)
    (prev : Option Token) : Inserted prev tokens s s := by
  induction h generalizing prev with
  | done hw => exact .done (.gap (gap_refl hw))
  | next hw _ _ _ ih => exact .next (gap_refl hw) (ih _)

/-- An empty comment in front of a text. -/
theorem inserted_comment {tokens : List Token} {s : List Char} (h : Spelled tokens s)
    (prev : Option Token) : Inserted prev tokens s ('/' :: '*' :: '*' :: '/' :: s) := by
  have hempty : ¬['*', '/'] <:+: ([] : List Char) := by decide
  cases h with
  | done hw => exact .done (.gap (.block hempty (gap_refl hw)))
  | @next w token tokens text hw _ _ h =>
    have hgap : Gap w ('/' :: '*' :: ([] ++ '*' :: '/' :: w)) := .block hempty (gap_refl hw)
    exact .next hgap (inserted_refl h _)

theorem exists_stuck {front : List Token} {raw : List Char} {back : List Token} {s : List Char}
    (h : Spelled (front ++ .string raw :: back) s) (prev : Option Token) :
    ∃ t, Inserted prev (front ++ .string raw :: back) s t ∧ Stuck front raw t := by
  induction front generalizing s prev with
  | nil =>
    cases h with
    | @next w token tokens text hw _ _ h =>
      refine ⟨_, .next (gap_refl hw) (inserted_comment h _), ?_⟩
      have hstuck : Stuck [] raw (w ++ '"' :: (raw ++ '"' :: '/' :: '*' :: '*' :: '/' :: text)) :=
        .here hw
      simpa [Token.text] using hstuck
  | cons token front ih =>
    cases h with
    | next hw _ _ h =>
      obtain ⟨t, hinserted, hstuck⟩ := ih h (some token)
      exact ⟨_, .next (gap_refl hw) hinserted, .next hw hstuck⟩

theorem exists_first {α : Type} {P : α → Prop} {l : List α} (h : ∃ a ∈ l, ¬P a) :
    ∃ front a back, l = front ++ a :: back ∧ (∀ b ∈ front, P b) ∧ ¬P a := by
  induction l with
  | nil =>
    obtain ⟨a, ha, -⟩ := h
    cases ha
  | cons b l ih =>
    by_cases hb : P b
    · have hrest : ∃ a ∈ l, ¬P a := by
        obtain ⟨a, ha, hnot⟩ := h
        rcases List.mem_cons.mp ha with rfl | ha
        · exact absurd hb hnot
        · exact ⟨a, ha, hnot⟩
      obtain ⟨front, a, back, rfl, hfront, hnot⟩ := ih hrest
      exact ⟨b :: front, a, back, rfl, List.forall_mem_cons.mpr ⟨hb, hfront⟩, hnot⟩
    · exact ⟨[], b, l, rfl, fun _ hmem => absurd hmem List.not_mem_nil, hb⟩

/-- Where a literal ends in a backslash, a comment after the first that does so is not taken out. -/
theorem exists_unread {s : List Char} {v : Value} {tokens : List Token} (hparse : parse s = some v)
    (hlex : lex s = some tokens) (hmissed : ∃ token ∈ tokens, ¬Sound token) :
    ∃ t, Commented s t ∧ parseJsonRelaxed t = none := by
  obtain ⟨front, token, back, rfl, hsound, hnot⟩ := exists_first hmissed
  have hspelled := lex_eq_some_iff.mp hlex
  have hvalid := valid_of_spelled hspelled
  have hchain : (front ++ token :: back).IsChain Adjacent := by
    rw [parse, hlex] at hparse
    exact adjacent_of_parse hparse
  have hfront : ∀ other ∈ front, Valid other := fun other hother =>
    hvalid other (List.mem_append_left _ hother)
  cases token with
  | punct c => exact absurd (fun hcontra : False => hcontra) hnot
  | word raw => exact absurd (fun hcontra : False => hcontra) hnot
  | string raw =>
    have hends : raw.getLast? = some '\\' := not_not.mp hnot
    have hbody : Body raw := hvalid (.string raw) (by simp)
    have hupTo : (upToLiteral front raw).IsChain Adjacent := by
      refine hchain.prefix ⟨back, ?_⟩
      simp [upToLiteral]
    obtain ⟨t, hinserted, hstuck⟩ := exists_stuck hspelled none
    refine ⟨t, ⟨_, hlex, hinserted⟩, ?_⟩
    have hstripped := stuck_stripFrom hstuck hfront hsound hbody hends none (by decide)
    have hremoved := stuck_removeFrom hstripped hfront hsound hbody hends hupTo none (by decide)
    have hstrict : parse t = none := by
      rw [parse, lex_stuck hstuck hfront hbody hupTo]
      rfl
    have hrelaxed : parse (removeTrailingCommas (stripJsonComments t)) = none := by
      rw [parse, removeTrailingCommas, stripJsonComments,
        lex_stuck hremoved hfront hbody hupTo]
      rfl
    rw [parseJsonRelaxed, hstrict, hrelaxed]

/-! ### What is undone -/

/-- A string literal of the text ends in a backslash, which is an escaped one. -/
def LiteralEndsInBackslash (s : List Char) : Prop :=
  ∃ tokens, lex s = some tokens ∧ ∃ token ∈ tokens, EndsInBackslash token

/-- The relaxed reading undoes every commenting of a text of JSON if and only if no string literal of
the text ends in a backslash. -/
theorem undoes_iff (s : List Char) (hstrict : (parse s).isSome = true) :
    (∀ t, Commented s t → parseJsonRelaxed t = parse s) ↔ ¬LiteralEndsInBackslash s := by
  obtain ⟨v, hparse⟩ := Option.isSome_iff_exists.mp hstrict
  rw [hparse]
  constructor
  · rintro hundone ⟨tokens, hlex, token, hmem, hends⟩
    obtain ⟨t, hcommented, hnone⟩ := exists_unread hparse hlex ⟨token, hmem, fun hsound => hsound hends⟩
    rw [hundone t hcommented] at hnone
    cases hnone
  · intro hnone t hcommented
    refine relaxed_of_sound hparse hcommented fun tokens hlex token hmem hends => ?_
    exact hnone ⟨tokens, hlex, token, hmem, hends⟩

theorem undoes_sample :
    (∀ t, Commented "\x7b\"a\": [1, \"//\"]\x7d".toList t →
        parseJsonRelaxed t = parse "\x7b\"a\": [1, \"//\"]\x7d".toList) ↔
      ¬LiteralEndsInBackslash "\x7b\"a\": [1, \"//\"]\x7d".toList :=
  undoes_iff "\x7b\"a\": [1, \"//\"]\x7d".toList (by decide +kernel)

/-- A comment after a literal that ends in a backslash is left in, and the text is not read. -/
theorem comment_left_in :
    ∃ s t : List Char, (parse s).isSome = true ∧ Commented s t ∧
      parseJsonRelaxed t ≠ parse s := by
  refine ⟨"[\"a\\\\\"]".toList, "[\"a\\\\\"/**/]".toList, by decide +kernel, ?_, ?_⟩
  · refine ⟨[.punct '[', .string ['a', '\\', '\\'], .punct ']'], by decide +kernel, ?_⟩
    have hgap : Gap [] ('/' :: '*' :: ([] ++ '*' :: '/' :: [])) := .block (by decide) .nil
    exact .next (w := []) (g := []) .nil (.next (w := []) (g := []) .nil
      (.next (w := []) hgap (s := []) (t := []) (.done (.gap .nil))))
  · have hnone : (parseJsonRelaxed "[\"a\\\\\"/**/]".toList).isSome = false := by decide +kernel
    have hsome : (parse "[\"a\\\\\"]".toList).isSome = true := by decide +kernel
    intro hsame
    rw [hsame, hsome] at hnone
    cases hnone

end MissionControl.Gateway.Commenting
