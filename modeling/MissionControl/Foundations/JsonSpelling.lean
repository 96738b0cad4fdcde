import MissionControl.Foundations.JsonText

/-!
How tokens of JSON are spelled: what text is cut into which tokens, and which tokens may stand next
to each other in a text that is read.
-/

set_option autoImplicit false
set_option relaxedAutoImplicit false

namespace MissionControl.Foundations.JsonSpelling

open JsonText

/-! ### Spelling -/

def White (w : List Char) : Prop := ∀ c ∈ w, isWhite c = true

theorem White.nil : White [] := fun _ h => absurd h List.not_mem_nil

theorem White.cons {c : Char} {w : List Char} (hc : isWhite c = true) (hw : White w) :
    White (c :: w) := List.forall_mem_cons.mpr ⟨hc, hw⟩

theorem White.append {w w' : List Char} (hw : White w) (hw' : White w') : White (w ++ w') :=
  List.forall_mem_append.mpr ⟨hw, hw'⟩

/-- The inside of a string literal: characters, and pairs that begin with a backslash. -/
inductive Body : List Char → Prop
  | nil : Body []
  | plain {c : Char} {raw : List Char} : c ≠ '"' → c ≠ '\\' → isControl c = false → Body raw →
      Body (c :: raw)
  | pair {c : Char} {raw : List Char} : Body raw → Body ('\\' :: c :: raw)

/-- A token as it can be cut out of a text. -/
def Valid : Token → Prop
  | .punct c => isPunct c = true
  | .string raw => Body raw
  | .word raw => raw ≠ [] ∧ ∀ c ∈ raw, isWordChar c = true

/-- No word goes on in the text. -/
def Ended (text : List Char) : Prop := ∀ c cs, text = c :: cs → isWordChar c = false

def IsWord : Token → Prop
  | .word _ => True
  | _ => False

/-- A text is spelled from tokens with white space between them, of which words are spelled to their
end. -/
inductive Spelled : List Token → List Char → Prop
  | done {w : List Char} : White w → Spelled [] w
  | next {w : List Char} {token : Token} {tokens : List Token} {text : List Char} : White w →
      Valid token → (IsWord token → Ended text) → Spelled tokens text →
      Spelled (token :: tokens) (w ++ token.text ++ text)

/-! ### Characters -/

theorem begins_white {c : Char} (h : isWhite c = true) : begins c = some ([], .outside) := if_pos h

theorem not_white_of_punct {c : Char} (h : isPunct c = true) : isWhite c = false := by
  simp only [isPunct, decide_eq_true_eq] at h
  rcases h with rfl | rfl | rfl | rfl | rfl | rfl <;> rfl

theorem begins_punct {c : Char} (h : isPunct c = true) : begins c = some ([.punct c], .outside) := by
  rw [begins, not_white_of_punct h]
  exact if_pos h

theorem not_word_of_white {c : Char} (h : isWhite c = true) : isWordChar c = false := by
  simp only [isWhite, decide_eq_true_eq] at h
  rcases h with rfl | rfl | rfl | rfl <;> rfl

theorem not_word_of_punct {c : Char} (h : isPunct c = true) : isWordChar c = false := by
  simp only [isPunct, decide_eq_true_eq] at h
  rcases h with rfl | rfl | rfl | rfl | rfl | rfl <;> rfl

theorem begins_word {c : Char} (h : isWordChar c = true) : begins c = some ([], .word [c]) := by
  have hwhite : isWhite c = false := by
    by_contra hcontra
    rw [not_word_of_white (by simpa using hcontra)] at h
    cases h
  have hpunct : isPunct c = false := by
    by_contra hcontra
    rw [not_word_of_punct (by simpa using hcontra)] at h
    cases h
  have hquote : c ≠ '"' := by
    rintro rfl
    cases h
  rw [begins, hwhite, hpunct, if_neg hquote, h]
  rfl

/-- What a character can begin. -/
theorem begins_cases {c : Char} {b : List Token × Scan} (h : begins c = some b) :
    (isWhite c = true ∧ b = ([], .outside)) ∨ (isPunct c = true ∧ b = ([.punct c], .outside)) ∨
      (c = '"' ∧ b = ([], .string [])) ∨ (isWordChar c = true ∧ b = ([], .word [c])) := by
  unfold begins at h
  split at h
  · rename_i hc
    exact .inl ⟨hc, (Option.some.inj h).symm⟩
  · split at h
    · rename_i hc
      exact .inr (.inl ⟨hc, (Option.some.inj h).symm⟩)
    · split at h
      · rename_i hc
        exact .inr (.inr (.inl ⟨hc, (Option.some.inj h).symm⟩))
      · split at h
        · rename_i hc
          exact .inr (.inr (.inr ⟨hc, (Option.some.inj h).symm⟩))
        · cases h

/-! ### Cutting what is spelled -/

theorem lex_white {w : List Char} (h : White w) (text : List Char) : lex (w ++ text) = lex text := by
  induction w with
  | nil => rfl
  | cons c w ih =>
    rw [lex, List.cons_append, lexFrom, begins_white (h c List.mem_cons_self)]
    rw [lex] at ih
    rw [Option.bind_some, ih fun d hd => h d (List.mem_cons_of_mem c hd)]
    exact Option.map_id'

theorem lexFrom_body {raw : List Char} (h : Body raw) (acc text : List Char) :
    lexFrom (.string acc) (raw ++ '"' :: text) =
      (lex text).map fun tokens => .string (acc ++ raw) :: tokens := by
  induction h generalizing acc with
  | nil =>
    rw [List.nil_append, lexFrom, if_pos rfl, List.append_nil]
    rfl
  | @plain c raw hquote hslash hcontrol _ ih =>
    rw [List.cons_append, lexFrom, if_neg hquote, if_neg hslash, hcontrol]
    simp [ih]
  | @pair c raw _ ih =>
    rw [List.cons_append, List.cons_append, lexFrom, if_neg (by decide), if_pos rfl, lexFrom, ih]
    simp

theorem lexFrom_word {raw : List Char} (h : ∀ c ∈ raw, isWordChar c = true) (acc : List Char)
    {text : List Char} (hended : Ended text) :
    lexFrom (.word acc) (raw ++ text) =
      (lex text).map fun tokens => .word (acc ++ raw) :: tokens := by
  induction raw generalizing acc with
  | nil =>
    rw [List.nil_append, List.append_nil]
    cases text with
    | nil => rfl
    | cons c cs =>
      rw [lexFrom, hended c cs rfl, lex, lexFrom]
      cases begins c with
      | none => rfl
      | some b => simp [Option.map_map, Function.comp_def]
  | cons c raw ih =>
    rw [List.cons_append, lexFrom, if_pos (h c List.mem_cons_self),
      ih fun d hd => h d (List.mem_cons_of_mem c hd)]
    simp

/-- The first token of a text is cut off. -/
theorem lex_token (token : Token) (hvalid : Valid token) {text : List Char}
    (hended : IsWord token → Ended text) :
    lex (token.text ++ text) = (lex text).map (token :: ·) := by
  cases token with
  | punct c =>
    show lexFrom .outside (c :: text) = _
    rw [lexFrom, begins_punct hvalid]
    rfl
  | string raw =>
    show lexFrom .outside ('"' :: (raw ++ ['"'] ++ text)) = _
    rw [lexFrom, List.append_assoc]
    exact (congrArg (Option.map fun tokens => [] ++ tokens) (lexFrom_body hvalid [] text)).trans
      (Option.map_id')
  | word raw =>
    obtain ⟨hne, hword⟩ := hvalid
    obtain ⟨c, cs, rfl⟩ := List.exists_cons_of_ne_nil hne
    show lexFrom .outside (c :: (cs ++ text)) = _
    rw [lexFrom, begins_word (hword c List.mem_cons_self), Option.bind_some,
      lexFrom_word (fun d hd => hword d (List.mem_cons_of_mem c hd)) [c] (hended trivial)]
    exact Option.map_id'

theorem lex_of_spelled {tokens : List Token} {text : List Char} (h : Spelled tokens text) :
    lex text = some tokens := by
  induction h with
  | done hw =>
    have hnil := lex_white hw []
    rw [List.append_nil] at hnil
    exact hnil
  | next hw hvalid hended _ ih =>
    rw [List.append_assoc, lex_white hw, lex_token _ hvalid hended, ih]
    rfl

/-! ### What is cut is spelled -/

theorem spelled_white {w : List Char} (hw : White w) {tokens : List Token} {text : List Char}
    (h : Spelled tokens text) : Spelled tokens (w ++ text) := by
  cases h with
  | done hw' => exact .done (hw.append hw')
  | next hw' hvalid hended h =>
    rw [List.append_assoc, ← List.append_assoc, ← List.append_assoc]
    exact .next (hw.append hw') hvalid hended h

theorem spelled_token (token : Token) (hvalid : Valid token) {tokens : List Token}
    {text : List Char} (hended : IsWord token → Ended text) (h : Spelled tokens text) :
    Spelled (token :: tokens) (token.text ++ text) := .next .nil hvalid hended h

/-- What a text still has of the token that is being cut, and of those after it. -/
def Reads (tokens : List Token) (text : List Char) : Scan → Prop
  | .outside => Spelled tokens text
  | .word acc => ∃ raw rest more, text = raw ++ rest ∧ (∀ c ∈ raw, isWordChar c = true) ∧
      Ended rest ∧ tokens = .word (acc ++ raw) :: more ∧ Spelled more rest
  | .string acc => ∃ raw rest more, text = raw ++ '"' :: rest ∧ Body raw ∧
      tokens = .string (acc ++ raw) :: more ∧ Spelled more rest
  | .escape acc => ∃ c raw rest more, text = c :: (raw ++ '"' :: rest) ∧ Body raw ∧
      tokens = .string (acc ++ '\\' :: c :: raw) :: more ∧ Spelled more rest

/-- A character that begins something is followed by what it begins. -/
theorem spelled_begins {c : Char} {cs : List Char} {b : List Token × Scan} (hb : begins c = some b)
    {tokens : List Token} (h : Reads tokens cs b.2) : Spelled (b.1 ++ tokens) (c :: cs) := by
  obtain ⟨hc, rfl⟩ | ⟨hc, rfl⟩ | ⟨rfl, rfl⟩ | ⟨hc, rfl⟩ := begins_cases hb
  · exact spelled_white (w := [c]) (.cons hc .nil) h
  · exact spelled_token (.punct c) hc (fun hword => hword.elim) h
  · obtain ⟨raw, rest, more, rfl, hbody, rfl, hmore⟩ := h
    have hspelled := spelled_token (.string raw) hbody (fun hword => hword.elim) hmore
    simpa [Token.text] using hspelled
  · obtain ⟨raw, rest, more, rfl, hraw, hended, rfl, hmore⟩ := h
    exact spelled_token (.word (c :: raw))
      ⟨List.cons_ne_nil c raw, List.forall_mem_cons.mpr ⟨hc, hraw⟩⟩ (fun _ => hended) hmore

theorem reads_of_lexFrom {text : List Char} {scan : Scan} {tokens : List Token}
    (h : lexFrom scan text = some tokens) : Reads tokens text scan := by
  induction text generalizing scan tokens with
  | nil =>
    cases scan with
    | outside =>
      obtain rfl := Option.some.inj h
      exact .done .nil
    | word acc =>
      obtain rfl := Option.some.inj h
      refine ⟨[], [], [], rfl, fun _ hc => absurd hc List.not_mem_nil, ?_, ?_, .done .nil⟩
      · intro c cs hcontra
        cases hcontra
      · rw [List.append_nil]
    | string acc => cases h
    | escape acc => cases h
  | cons c cs ih =>
    cases scan with
    | outside =>
      rw [lexFrom, Option.bind_eq_some_iff] at h
      obtain ⟨b, hb, h⟩ := h
      obtain ⟨more, hmore, rfl⟩ := Option.map_eq_some_iff.mp h
      exact spelled_begins hb (ih hmore)
    | word acc =>
      rw [lexFrom] at h
      split at h
      · rename_i hc
        obtain ⟨raw, rest, more, rfl, hraw, hended, rfl, hmore⟩ := ih h
        exact ⟨c :: raw, rest, more, rfl, List.forall_mem_cons.mpr ⟨hc, hraw⟩, hended, by simp,
          hmore⟩
      · rename_i hc
        rw [Option.bind_eq_some_iff] at h
        obtain ⟨b, hb, h⟩ := h
        obtain ⟨more, hmore, rfl⟩ := Option.map_eq_some_iff.mp h
        refine ⟨[], c :: cs, _, rfl, fun _ hc => absurd hc List.not_mem_nil, ?_, ?_,
          spelled_begins hb (ih hmore)⟩
        · intro d ds heq
          obtain ⟨rfl, -⟩ := List.cons.inj heq
          exact Bool.eq_false_iff.mpr hc
        · rw [List.append_nil]
    | string acc =>
      rw [lexFrom] at h
      split at h
      · rename_i hc
        subst hc
        obtain ⟨more, hmore, rfl⟩ := Option.map_eq_some_iff.mp h
        exact ⟨[], cs, more, rfl, .nil, by rw [List.append_nil], ih hmore⟩
      · rename_i hquote
        split at h
        · rename_i hslash
          subst hslash
          obtain ⟨d, raw, rest, more, rfl, hbody, rfl, hmore⟩ := ih h
          exact ⟨'\\' :: d :: raw, rest, more, rfl, .pair hbody, rfl, hmore⟩
        · rename_i hslash
          split at h
          · cases h
          · rename_i hcontrol
            obtain ⟨raw, rest, more, rfl, hbody, rfl, hmore⟩ := ih h
            exact ⟨c :: raw, rest, more, rfl,
              .plain hquote hslash (Bool.eq_false_iff.mpr hcontrol) hbody, by simp, hmore⟩
    | escape acc =>
      rw [lexFrom] at h
      obtain ⟨raw, rest, more, rfl, hbody, rfl, hmore⟩ := ih h
      exact ⟨c, raw, rest, more, rfl, hbody, by simp, hmore⟩

/-- A text is cut into the tokens that it is spelled from. -/
theorem lex_eq_some_iff {text : List Char} {tokens : List Token} :
    lex text = some tokens ↔ Spelled tokens text :=
  ⟨fun h => reads_of_lexFrom h, lex_of_spelled⟩

/-! ### Neighbours -/

def Closer (token : Token) : Prop := token = .punct ']' ∨ token = .punct '}'

/-- Words do not touch, and no bracket closes after a comma. -/
structure Adjacent (a b : Token) : Prop where
  words : IsWord a → ¬IsWord b
  comma : a = .punct ',' → ¬Closer b

theorem mode_deliver (v : Value) (stack : List Frame) : (deliver v stack).mode = .after := by
  cases stack with
  | nil => rfl
  | cons frame stack => cases frame <;> rfl

theorem openValue_spec {stack : List Frame} {token : Token} {state : State}
    (h : openValue stack token = some state) :
    ¬Closer token ∧ token ≠ .punct ',' ∧ (IsWord token → state.mode = .after) := by
  cases token with
  | punct c =>
    refine ⟨?_, ?_, fun hword => hword.elim⟩
    · rintro (hc | hc)
      · cases hc
        cases h
      · cases hc
        cases h
    · intro hc
      cases hc
      cases h
  | string raw => exact ⟨by simp [Closer], by simp, fun hword => hword.elim⟩
  | word raw =>
    refine ⟨by simp [Closer], by simp, fun _ => ?_⟩
    obtain ⟨v, -, rfl⟩ := Option.map_eq_some_iff.mp h
    exact mode_deliver v stack

theorem openKey_spec {stack : List Frame} {token : Token} {state : State}
    (h : openKey stack token = some state) :
    ¬Closer token ∧ token ≠ .punct ',' ∧ ¬IsWord token := by
  cases token with
  | punct c => cases h
  | string raw => exact ⟨by simp [Closer], by simp, fun hword => hword.elim⟩
  | word raw => cases h

/-- What a step says of its token and of the modes around it. -/
structure Turn (mode : Mode) (token : Token) (mode' : Mode) : Prop where
  word : IsWord token → mode' = .after
  after : mode = .after → ¬IsWord token
  comma : token = .punct ',' → mode' = .value ∨ mode' = .key
  fresh : mode = .value ∨ mode = .key → ¬Closer token

theorem proceed_spec {stack : List Frame} {token : Token} {state : State}
    (h : proceed stack token = some state) :
    ¬IsWord token ∧ (token = .punct ',' → state.mode = .value ∨ state.mode = .key) := by
  cases token with
  | punct c =>
    refine ⟨fun hword => hword, fun hc => ?_⟩
    cases hc
    cases stack with
    | nil => cases h
    | cons frame stack =>
      cases frame with
      | array items =>
        obtain rfl := Option.some.inj h
        exact .inl rfl
      | object fields key =>
        obtain rfl := Option.some.inj h
        exact .inr rfl
  | string raw => cases h
  | word raw => cases h

theorem step_turn {state state' : State} {token : Token} (h : step state token = some state') :
    Turn state.mode token state'.mode := by
  obtain ⟨mode, stack, result⟩ := state
  cases mode with
  | value =>
    show Turn .value token state'.mode
    obtain ⟨hcloser, hcomma, hword⟩ := openValue_spec h
    exact ⟨hword, fun hmode => absurd hmode (by decide), fun hc => absurd hc hcomma, fun _ => hcloser⟩
  | valueOrClose =>
    show Turn .valueOrClose token state'.mode
    simp only [step] at h
    split at h
    · rename_i htoken
      subst htoken
      exact ⟨fun hword => hword.elim, fun _ hword => hword, fun hc => absurd hc (by decide),
        fun hmode => absurd hmode (by decide)⟩
    · obtain ⟨-, hcomma, hword⟩ := openValue_spec h
      exact ⟨hword, fun hmode => absurd hmode (by decide), fun hc => absurd hc hcomma,
        fun hmode => absurd hmode (by decide)⟩
  | keyOrClose =>
    show Turn .keyOrClose token state'.mode
    simp only [step] at h
    split at h
    · rename_i htoken
      subst htoken
      exact ⟨fun hword => hword.elim, fun _ hword => hword, fun hc => absurd hc (by decide),
        fun hmode => absurd hmode (by decide)⟩
    · obtain ⟨-, hcomma, hword⟩ := openKey_spec h
      exact ⟨fun hcontra => absurd hcontra hword, fun _ => hword, fun hc => absurd hc hcomma,
        fun hmode => absurd hmode (by decide)⟩
  | key =>
    show Turn .key token state'.mode
    obtain ⟨hcloser, hcomma, hword⟩ := openKey_spec h
    exact ⟨fun hcontra => absurd hcontra hword, fun _ => hword, fun hc => absurd hc hcomma,
      fun _ => hcloser⟩
  | colon =>
    show Turn .colon token state'.mode
    simp only [step] at h
    split at h
    · rename_i htoken
      subst htoken
      exact ⟨fun hword => hword.elim, fun _ hword => hword, fun hc => absurd hc (by decide),
        fun hmode => absurd hmode (by decide)⟩
    · cases h
  | after =>
    show Turn .after token state'.mode
    obtain ⟨hword, hcomma⟩ := proceed_spec h
    exact ⟨fun hcontra => absurd hcontra hword, fun _ => hword, hcomma,
      fun hmode => absurd hmode (by decide)⟩

/-- In a text that is read, neighbours are adjacent. -/
theorem adjacent_of_steps {state : State} {tokens : List Token} {state' : State}
    (h : tokens.foldlM step state = some state') : tokens.IsChain Adjacent := by
  induction tokens generalizing state with
  | nil => exact .nil
  | cons a tokens ih =>
    rw [List.foldlM_cons, Option.bind_eq_bind, Option.bind_eq_some_iff] at h
    obtain ⟨middle, ha, h⟩ := h
    cases tokens with
    | nil => exact .singleton a
    | cons b tokens =>
      refine .cons_cons ?_ (ih h)
      rw [List.foldlM_cons, Option.bind_eq_bind, Option.bind_eq_some_iff] at h
      obtain ⟨next, hb, -⟩ := h
      have hfirst := step_turn ha
      have hsecond := step_turn hb
      exact ⟨fun hword => hsecond.after (hfirst.word hword),
        fun hcomma => hsecond.fresh (hfirst.comma hcomma)⟩

theorem adjacent_of_parse {tokens : List Token} {v : Value} (h : parseTokens tokens = some v) :
    tokens.IsChain Adjacent := by
  obtain ⟨state, hsteps, -⟩ := Option.bind_eq_some_iff.mp h
  exact adjacent_of_steps hsteps

end MissionControl.Foundations.JsonSpelling
