import MissionControl.Foundations.Lists
import MissionControl.Integrations.EnvFile

/-!
What `/api/integrations` leaves in the `.env` file, as it is read again. A value that is written goes
into the text as it is; a key with several lines is updated in the first and read from the last.
-/

set_option autoImplicit false
set_option relaxedAutoImplicit false

namespace MissionControl.Integrations.RoundTrip

open MissionControl.Foundations.JsText
open MissionControl.Foundations.JsonValues (getField names spread nodup_spread)
open MissionControl.Foundations.KeyedLines
open MissionControl.Foundations.Lists
open MissionControl.Foundations.Schema (Json)
open EnvFile

/-- The lines of the file as a request reads them. -/
def linesOf (path : EnvPath) : List EnvLine := (readEnvFile path).getD []

/-- What the file maps a key to. -/
def fileMap (path : EnvPath) (key : List Char) : Option (List Char) := envMap (linesOf path) key

def comments (lines : List EnvLine) : List (List Char) :=
  lines.filterMap fun
    | .comment raw => some raw
    | .blank _ | .var _ _ _ => none

/-- The keys of a `PUT` with the strings given for them. -/
def given (numberText : Rat → String) (body : Json) : List (List Char × List Char) :=
  (((getField body "vars").bind objectEntries).getD []).filterMap fun entry =>
    (toText numberText entry.2).map fun text => (entry.1.toList, text.toList)

/-- The keys that a `DELETE` asks for. -/
def requested (numberText : Rat → String) (body : Json) : List (List Char) :=
  keysToRemove (((keysParam numberText body).bind id).getD "")

/-- What a `PUT` must leave. -/
structure RoundTrips (path path' : EnvPath) (entries : List (List Char × List Char)) : Prop where
  given : ∀ entry ∈ entries, fileMap path' entry.1 = some entry.2
  others : ∀ key, key ∉ entries.map Prod.fst → fileMap path' key = fileMap path key
  blocked : ∀ key, isVarBlocked key = true → fileMap path' key = fileMap path key
  comments : (comments (linesOf path)).Sublist (comments (linesOf path'))

local instance lawfulKeys : LawfulBEq (List Char) := inferInstance

/-- What a `DELETE` must leave. -/
def Removes (path path' : EnvPath) (keys : List (List Char)) : Prop :=
  ∀ key, fileMap path' key = if key ∈ keys then none else fileMap path key

/-- The value is one line with nothing to trim. -/
structure Clean (value : List Char) : Prop where
  trimmed : trimChars value = value
  noBreak : '\n' ∉ value

/-- A value that can be written and read again, for a key that has one line at most, or whose last
line has the value already. -/
def Storable (path : EnvPath) (entry : List Char × List Char) : Prop :=
  Clean entry.2 ∧ ((values EnvLine.entry (linesOf path) entry.1).length ≤ 1 ∨
    fileMap path entry.1 = some entry.2)

/-! ### One line -/

/-- What is written for the line is read as a line that carries the same. -/
structure Stable (line : EnvLine) : Prop where
  noBreak : '\n' ∉ line.text
  entry : (parseLine line.text).entry = line.entry
  comment : ∀ raw, line = .comment raw → parseLine raw = .comment raw

/-- A key that can stand in front of an equals sign. -/
structure Written (key : List Char) : Prop where
  nonempty : key ≠ []
  trimmed : trimChars key = key
  noEquals : '=' ∉ key
  noHash : key.head? ≠ some '#'
  noBreak : '\n' ∉ key

theorem takeWhile_key {key : List Char} (h : '=' ∉ key) (rest : List Char) :
    (key ++ '=' :: rest).takeWhile (· ≠ '=') = key := by
  rw [List.takeWhile_append_of_pos]
  · simp
  · intro c hc
    have hne : c ≠ '=' := by
      rintro rfl
      exact h hc
    simpa using hne

theorem isWhiteSpace_head {c : Char} {cs : List Char} (h : trimChars (c :: cs) = c :: cs) :
    isWhiteSpace c = false := by
  by_contra hspace
  rw [Bool.not_eq_false] at hspace
  have hlength := congrArg List.length h
  have hdropped : (c :: cs).dropWhile isWhiteSpace = cs.dropWhile isWhiteSpace :=
    List.dropWhile_cons_of_pos hspace
  have hle : (trimChars (c :: cs)).length ≤ cs.length := by
    calc
      (trimChars (c :: cs)).length ≤ ((c :: cs).dropWhile isWhiteSpace).length :=
        (List.rdropWhile_prefix isWhiteSpace _).length_le
      _ = (cs.dropWhile isWhiteSpace).length := by rw [hdropped]
      _ ≤ cs.length := (List.dropWhile_suffix _).length_le
  rw [hlength, List.length_cons] at hle
  omega

theorem parseLine_var {key : List Char} (h : Written key) (value : List Char) :
    parseLine (key ++ '=' :: value) = .var (key ++ '=' :: value) key (trimChars value) := by
  cases key with
  | nil => exact absurd rfl h.nonempty
  | cons c cs =>
    have hspace := isWhiteSpace_head h.trimmed
    have hhead : (trimChars (c :: cs ++ '=' :: value)).head? = some c := head?_trimChars hspace
    have hne : trimChars (c :: cs ++ '=' :: value) ≠ [] := by
      intro hnil
      rw [hnil] at hhead
      cases hhead
    have hhash : (trimChars (c :: cs ++ '=' :: value)).head? ≠ some '#' := by
      rw [hhead]
      exact h.noHash
    have hkey := takeWhile_key h.noEquals value
    unfold parseLine
    rw [if_neg hne, if_neg hhash]
    dsimp only
    rw [hkey, if_pos ⟨by simp, List.cons_ne_nil _ _⟩, h.trimmed]
    congr 2
    rw [List.drop_append]
    simp

/-- A line whose key is empty is read as a comment. -/
theorem parseLine_equals (value : List Char) :
    parseLine ('=' :: value) = .comment ('=' :: value) := by
  have hhead : (trimChars ('=' :: value)).head? = some '=' := head?_trimChars (by decide)
  have hne : trimChars ('=' :: value) ≠ [] := by
    intro hnil
    rw [hnil] at hhead
    cases hhead
  unfold parseLine
  rw [if_neg hne, if_neg (by rw [hhead]; decide)]
  simp

theorem parseLine_cases (raw : List Char) :
    parseLine raw = .blank raw ∨ parseLine raw = .comment raw ∨
      ∃ key rest, raw = key ++ '=' :: rest ∧ '=' ∉ key ∧ (trimChars raw).head? ≠ some '#' ∧
        parseLine raw = .var raw (trimChars key) (trimChars rest) := by
  unfold parseLine
  split
  · exact .inl rfl
  · split
    · exact .inr (.inl rfl)
    · rename_i hhash
      dsimp only
      split
      · rename_i hkey
        right; right
        obtain ⟨rest, hraw, hdrop⟩ := exists_after_takeWhile_ne hkey.1
        refine ⟨raw.takeWhile (· ≠ '='), rest, hraw, ?_, hhash, by rw [hdrop]⟩
        intro hmem
        simpa using List.mem_takeWhile_imp hmem
      · exact .inr (.inl rfl)

/-- The text before the equals sign of a line, where there is one. -/
theorem written_key {raw key rest : List Char} (hraw : raw = key ++ '=' :: rest)
    (hequals : '=' ∉ key) (hhash : (trimChars raw).head? ≠ some '#') (hbreak : '\n' ∉ raw)
    (hne : trimChars key ≠ []) : Written (trimChars key) := by
  refine ⟨hne, trimChars_trimChars key, fun hmem => hequals (trimChars_subset key hmem), ?_, ?_⟩
  · intro hhead
    obtain ⟨cs, hcs⟩ : ∃ cs, trimChars key = '#' :: cs := by
      cases htrimmed : trimChars key with
      | nil => exact absurd htrimmed hne
      | cons c cs =>
        rw [htrimmed] at hhead
        exact ⟨cs, by rw [Option.some.inj hhead]⟩
    -- the first word of the key is the first word of the line
    obtain ⟨tail, htail⟩ := List.rdropWhile_prefix isWhiteSpace (key.dropWhile isWhiteSpace)
    have hdropped : key.dropWhile isWhiteSpace = '#' :: (cs ++ tail) := by
      rw [← htail]
      exact congrArg (· ++ tail) hcs
    apply hhash
    have hfront : raw.dropWhile isWhiteSpace = '#' :: (cs ++ tail ++ '=' :: rest) := by
      rw [hraw, List.dropWhile_append, hdropped]
      simp
    have hwords : trimChars raw = trimChars ('#' :: (cs ++ tail ++ '=' :: rest)) := by
      rw [trimChars, hfront, trimChars, List.dropWhile_cons_of_neg (by decide)]
    rw [hwords]
    exact head?_trimChars (by decide)
  · intro hmem
    apply hbreak
    rw [hraw]
    exact List.mem_append_left _ (trimChars_subset key hmem)

/-- A line that the parser has made is read again as it was. -/
theorem stable_parseLine {raw : List Char} (h : '\n' ∉ raw) : Stable (parseLine raw) := by
  rcases parseLine_cases raw with hline | hline | ⟨key, rest, hraw, hequals, hhash, hline⟩
  · rw [hline]
    exact ⟨h, by rw [EnvLine.text, hline], by simp⟩
  · rw [hline]
    refine ⟨h, by rw [EnvLine.text, hline], ?_⟩
    rintro other ⟨⟩
    exact hline
  · rw [hline]
    have hvalue : '\n' ∉ trimChars rest := by
      intro hmem
      apply h
      rw [hraw]
      exact List.mem_append_right _ (List.mem_cons_of_mem _ (trimChars_subset rest hmem))
    by_cases hne : trimChars key = []
    · rw [hne]
      refine ⟨by simpa [EnvLine.text] using hvalue, ?_, by simp⟩
      rw [EnvLine.text, List.nil_append, parseLine_equals]
      rfl
    · have hwritten := written_key hraw hequals hhash h hne
      refine ⟨?_, ?_, by simp⟩
      · simp [EnvLine.text, hwritten.noBreak, hvalue]
      · rw [EnvLine.text, parseLine_var hwritten, trimChars_trimChars]
        rfl

/-! ### The text of the lines -/

theorem stable_linesOf (path : EnvPath) : ∀ line ∈ linesOf path, Stable line := by
  intro line hline
  cases path with
  | unconfigured => cases hline
  | missing => cases hline
  | file content =>
    obtain ⟨raw, hraw, rfl⟩ := List.mem_map.mp hline
    exact stable_parseLine (not_mem_of_mem_splitOn '\n' content raw hraw)

theorem stable_blank : Stable (.blank []) := ⟨by simp [EnvLine.text], by decide, by simp⟩

theorem stable_var {key value : List Char} (hkey : Written key) (hvalue : Clean value)
    (raw : List Char) : Stable (.var raw key value) := by
  refine ⟨?_, ?_, by simp⟩
  · simp [EnvLine.text, hkey.noBreak, hvalue.noBreak]
  · rw [EnvLine.text, parseLine_var hkey, hvalue.trimmed]
    rfl

section

variable {lines : List EnvLine} (h : ∀ line ∈ lines, Stable line)
include h

/-- Lines that are written and read again are those that their texts are parsed to. -/
theorem linesOf_writeEnvFile : linesOf (writeEnvFile lines) =
    if lines = [] then [.blank []] else lines.map fun line => parseLine line.text := by
  by_cases hnil : lines = []
  · subst hnil
    rfl
  · have hbreaks : ∀ text ∈ lines.map EnvLine.text, '\n' ∉ text := by
      intro text htext
      obtain ⟨line, hline, rfl⟩ := List.mem_map.mp htext
      exact (h line hline).noBreak
    rw [if_neg hnil]
    change (serializeEnv lines |>.splitOn '\n').map parseLine = _
    rw [serializeEnv, List.splitOn_intercalate _ hbreaks (by simpa using hnil), List.map_map]
    rfl

theorem values_writeEnvFile (key : List Char) :
    values EnvLine.entry (linesOf (writeEnvFile lines)) key = values EnvLine.entry lines key := by
  rw [linesOf_writeEnvFile h]
  by_cases hnil : lines = []
  · rw [if_pos hnil, hnil]
    rfl
  · rw [if_neg hnil]
    exact values_map fun line hline => (h line hline).entry

theorem comments_writeEnvFile :
    (comments lines).Sublist (comments (linesOf (writeEnvFile lines))) := by
  rw [linesOf_writeEnvFile h]
  by_cases hnil : lines = []
  · rw [if_pos hnil, hnil]
    exact List.Sublist.slnil
  · rw [if_neg hnil]
    clear hnil
    induction lines with
    | nil => exact List.Sublist.slnil
    | cons line lines ih =>
      have hrest := ih fun line hmem => h line (List.mem_cons_of_mem _ hmem)
      cases line with
      | blank raw => exact hrest.trans (List.Sublist.filterMap _ (List.sublist_cons_self _ _))
      | var raw key value => exact hrest.trans (List.Sublist.filterMap _ (List.sublist_cons_self _ _))
      | comment raw =>
        have hsame := (h _ List.mem_cons_self).comment raw rfl
        simp only [List.map_cons, EnvLine.text, hsame]
        exact hrest.cons_cons raw

end

/-- Every value that is read is one line with nothing to trim. -/
theorem clean_of_fileMap {path : EnvPath} {key value : List Char}
    (h : fileMap path key = some value) : Clean value := by
  have hmem : value ∈ values EnvLine.entry (linesOf path) key := List.mem_of_getLast? h
  obtain ⟨line, hline, hvalue⟩ := List.mem_filterMap.mp hmem
  cases path with
  | unconfigured => cases hline
  | missing => cases hline
  | file content =>
    obtain ⟨raw, hraw, rfl⟩ := List.mem_map.mp hline
    have hbreak := not_mem_of_mem_splitOn '\n' content raw hraw
    have hentry := valueFor_eq_some.mp hvalue
    rcases parseLine_cases raw with hline | hline | ⟨key', rest, hsplit, -, -, hline⟩
    · rw [hline] at hentry
      cases hentry
    · rw [hline] at hentry
      cases hentry
    · rw [hline, EnvLine.entry] at hentry
      split at hentry
      · cases hentry
      · obtain ⟨-, rfl⟩ := Prod.mk.inj (Option.some.inj hentry)
        refine ⟨trimChars_trimChars rest, fun hmem => hbreak ?_⟩
        rw [hsplit]
        exact List.mem_append_right _ (List.mem_cons_of_mem _ (trimChars_subset rest hmem))

/-! ### One variable -/

section

variable {lines : List EnvLine} {key : List Char}

theorem isVar_eq (hkey : key ≠ []) (line : EnvLine) :
    isVar key line = (valueFor EnvLine.entry key line).isSome := by
  cases line with
  | comment raw => rfl
  | blank raw => rfl
  | var raw key' value =>
    by_cases hsame : key' = key
    · subst hsame
      simp [isVar, valueFor, EnvLine.entry, hkey]
    · by_cases hempty : key' = [] <;>
        simp [isVar, valueFor, EnvLine.entry, hsame, hempty, hkey]

/-- The lines before a variable that is new. -/
def separated (lines : List EnvLine) : List EnvLine :=
  if lines.getLast?.any fun line => !isBlank line then lines ++ [.blank []] else lines

theorem setVar_eq (hkey : key ≠ []) (value : List Char) : setVar lines key value =
    if values EnvLine.entry lines key = [] then
      separated lines ++ [.var (key ++ '=' :: value) key value]
    else updateFirst EnvLine.entry (EnvLine.setValue value) key lines := by
  have hany : lines.any (isVar key) = true ↔ ¬ values EnvLine.entry lines key = [] := by
    rw [values_eq_nil_iff, List.any_eq_true]
    simp only [isVar_eq hkey]
    push Not
    simp [Option.isSome_iff_ne_none]
  unfold setVar
  by_cases hnil : values EnvLine.entry lines key = []
  · rw [if_pos hnil, if_neg (by simpa [hany] using hnil)]
    rfl
  · rw [if_neg hnil, if_pos (hany.mpr hnil)]
    simp only [isVar_eq hkey]
    rfl

theorem values_separated (other : List Char) :
    values EnvLine.entry (separated lines) other = values EnvLine.entry lines other := by
  unfold separated
  split
  · simp [values, valueFor, EnvLine.entry]
  · rfl

theorem entry_setValue (value : List Char) (line : EnvLine) (old : List Char)
    (h : line.entry = some (key, old)) : (line.setValue value).entry = some (key, value) := by
  cases line with
  | comment raw => cases h
  | blank raw => cases h
  | var raw key' value' =>
    simp only [EnvLine.entry, EnvLine.setValue] at h ⊢
    split at h
    · cases h
    · rename_i hne
      obtain ⟨rfl, -⟩ := Prod.mk.inj (Option.some.inj h)
      rw [if_neg hne]

/-- A variable that is set has its value first among its values. -/
theorem values_setVar_self (hkey : key ≠ []) (value : List Char) :
    values EnvLine.entry (setVar lines key value) key =
      value :: (values EnvLine.entry lines key).tail := by
  rw [setVar_eq hkey]
  cases hvalues : values EnvLine.entry lines key with
  | nil =>
    rw [if_pos rfl, values_append, values_separated, hvalues]
    simp [values, valueFor, EnvLine.entry, hkey]
  | cons old rest =>
    rw [if_neg (List.cons_ne_nil _ _)]
    exact values_updateFirst_self (fun line _ => entry_setValue value line) hvalues

theorem values_setVar_other (hkey : key ≠ []) (value : List Char) {other : List Char}
    (hother : other ≠ key) :
    values EnvLine.entry (setVar lines key value) other = values EnvLine.entry lines other := by
  rw [setVar_eq hkey]
  split
  · rw [values_append, values_separated]
    simp [values, valueFor, EnvLine.entry, hkey, hother.symm]
  · exact values_updateFirst_other (fun line _ => entry_setValue value line) hother

theorem stable_setVar (h : ∀ line ∈ lines, Stable line) (hkey : Written key) {value : List Char}
    (hvalue : Clean value) : ∀ line ∈ setVar lines key value, Stable line := by
  intro line hline
  rw [setVar_eq hkey.nonempty] at hline
  split at hline
  · rcases List.mem_append.mp hline with hline | hline
    · unfold separated at hline
      split at hline
      · rcases List.mem_append.mp hline with hline | hline
        · exact h line hline
        · rw [List.mem_singleton.mp hline]
          exact stable_blank
      · exact h line hline
    · rw [List.mem_singleton.mp hline]
      exact stable_var hkey hvalue _
  · rcases mem_updateFirst hline with hline | ⟨old, value', -, hentry, rfl⟩
    · exact h line hline
    · cases old with
      | comment raw => cases hentry
      | blank raw => cases hentry
      | var raw key' value'' =>
        simp only [EnvLine.entry] at hentry
        split at hentry
        · cases hentry
        · obtain ⟨rfl, -⟩ := Prod.mk.inj (Option.some.inj hentry)
          exact stable_var hkey hvalue raw

theorem comments_setVar (hkey : key ≠ []) (value : List Char) :
    comments (setVar lines key value) = comments lines := by
  rw [setVar_eq hkey]
  split
  · unfold separated
    split <;> simp [comments]
  · refine filterMap_updateFirst (fun line => ?_) lines
    cases line <;> rfl

end

/-! ### The variables of a request -/

/-- The lines after the variables of a `PUT`. -/
def setAll (lines : List EnvLine) (entries : List (List Char × List Char)) : List EnvLine :=
  entries.foldl (fun lines entry => setVar lines entry.1 entry.2) lines

section

variable {entries : List (List Char × List Char)} (hkeys : ∀ entry ∈ entries, Written entry.1)
include hkeys

theorem stable_setAll {lines : List EnvLine} (h : ∀ line ∈ lines, Stable line)
    (hclean : ∀ entry ∈ entries, Clean entry.2) : ∀ line ∈ setAll lines entries, Stable line := by
  induction entries generalizing lines with
  | nil => exact h
  | cons entry entries ih =>
    exact ih (fun entry hmem => hkeys entry (List.mem_cons_of_mem _ hmem))
      (stable_setVar h (hkeys entry List.mem_cons_self) (hclean entry List.mem_cons_self))
      fun entry hmem => hclean entry (List.mem_cons_of_mem _ hmem)

theorem comments_setAll (lines : List EnvLine) : comments (setAll lines entries) = comments lines := by
  induction entries generalizing lines with
  | nil => rfl
  | cons entry entries ih =>
    refine (ih (fun entry hmem => hkeys entry (List.mem_cons_of_mem _ hmem)) _).trans ?_
    exact comments_setVar (hkeys entry List.mem_cons_self).nonempty _

theorem values_setAll_other (lines : List EnvLine) {key : List Char}
    (hkey : key ∉ entries.map Prod.fst) :
    values EnvLine.entry (setAll lines entries) key = values EnvLine.entry lines key := by
  induction entries generalizing lines with
  | nil => rfl
  | cons entry entries ih =>
    rw [List.map_cons, List.mem_cons, not_or] at hkey
    refine (ih (fun entry hmem => hkeys entry (List.mem_cons_of_mem _ hmem)) _ hkey.2).trans ?_
    exact values_setVar_other (hkeys entry List.mem_cons_self).nonempty _ hkey.1

theorem values_setAll_self (hnodup : (entries.map Prod.fst).Nodup) (lines : List EnvLine)
    {key value : List Char} (h : (key, value) ∈ entries) :
    values EnvLine.entry (setAll lines entries) key =
      value :: (values EnvLine.entry lines key).tail := by
  induction entries generalizing lines with
  | nil => cases h
  | cons entry entries ih =>
    rw [List.map_cons, List.nodup_cons] at hnodup
    have hrest : ∀ entry ∈ entries, Written entry.1 :=
      fun entry hmem => hkeys entry (List.mem_cons_of_mem _ hmem)
    rcases List.mem_cons.mp h with rfl | hmem
    · refine (values_setAll_other hrest _ hnodup.1).trans ?_
      exact values_setVar_self (hkeys _ List.mem_cons_self).nonempty value
    · refine (ih hrest hnodup.2 _ hmem).trans ?_
      have hne : key ≠ entry.1 := by
        rintro rfl
        exact hnodup.1 (List.mem_map.mpr ⟨_, hmem, rfl⟩)
      rw [values_setVar_other (hkeys entry List.mem_cons_self).nonempty _ hne]

end

/-! ### Requests -/

theorem word_of_isWordChar {c : Char} (h : isWordChar c = true) :
    isWhiteSpace c = false ∧ c ≠ '=' ∧ c ≠ '#' ∧ c ≠ '\n' := by
  have hrange : (97 ≤ c.toNat ∧ c.toNat ≤ 122) ∨ (65 ≤ c.toNat ∧ c.toNat ≤ 90) ∨ c.toNat = 95 ∨
      (48 ≤ c.toNat ∧ c.toNat ≤ 57) := by
    simp only [isWordChar, isLetter, Bool.or_eq_true, Bool.and_eq_true, decide_eq_true_eq] at h
    rcases h with ((⟨hlow, hhigh⟩ | ⟨hlow, hhigh⟩) | rfl) | ⟨hlow, hhigh⟩
    · exact .inl ⟨hlow, hhigh⟩
    · exact .inr (.inl ⟨hlow, hhigh⟩)
    · exact .inr (.inr (.inl rfl))
    · exact .inr (.inr (.inr ⟨hlow, hhigh⟩))
  have hother : ∀ d : Char, (d.toNat = 61 ∨ d.toNat = 35 ∨ d.toNat = 10) → c ≠ d := by
    rintro d hd rfl
    omega
  refine ⟨?_, hother '=' (by decide), hother '#' (by decide), hother '\n' (by decide)⟩
  simp only [isWhiteSpace, Bool.or_eq_false_iff, Bool.and_eq_false_imp, decide_eq_true_eq,
    decide_eq_false_iff_not]
  omega

theorem written_of_validName {key : List Char} (h : validName key = true) : Written key := by
  have hwords : ∀ c ∈ key, isWordChar c = true := by
    cases key with
    | nil => cases h
    | cons c cs =>
      rw [validName, Bool.and_eq_true] at h
      intro d hd
      rcases List.mem_cons.mp hd with rfl | hd
      · rw [isWordChar, h.1, Bool.true_or]
      · exact List.all_eq_true.mp h.2 d hd
  refine ⟨?_, trimChars_of_words fun c hc => (word_of_isWordChar (hwords c hc)).1, ?_, ?_, ?_⟩
  · rintro rfl
    cases h
  · exact fun hmem => (word_of_isWordChar (hwords _ hmem)).2.1 rfl
  · intro hhead
    exact (word_of_isWordChar (hwords _ (List.mem_of_head? hhead))).2.2.1 rfl
  · exact fun hmem => (word_of_isWordChar (hwords _ hmem)).2.2.2 rfl

section

variable {numberText : Rat → String}

/-- The entries of a request, as texts. -/
def texts (numberText : Rat → String) (entries : List (String × Json)) :
    List (List Char × List Char) :=
  entries.filterMap fun entry =>
    (toText numberText entry.2).map fun text => (entry.1.toList, text.toList)

theorem setVars_spec {entries : List (String × Json)} {lines lines' : List EnvLine}
    (h : setVars numberText lines entries = some lines') :
    lines' = setAll lines (texts numberText entries) ∧
      (texts numberText entries).map Prod.fst = (names entries).map String.toList := by
  induction entries generalizing lines with
  | nil =>
    obtain rfl := Option.some.inj h
    exact ⟨rfl, rfl⟩
  | cons entry entries ih =>
    obtain ⟨text, htext, hrest⟩ := Option.bind_eq_some_iff.mp h
    obtain ⟨rfl, hnames⟩ := ih hrest
    have htexts : texts numberText (entry :: entries) =
        (entry.1.toList, text.toList) :: texts numberText entries := by
      simp [texts, htext]
    rw [htexts]
    exact ⟨rfl, congrArg (entry.1.toList :: ·) hnames⟩

theorem accepted_of_refusal {entries : List (String × Json)} (h : refusal entries = none) :
    ∀ key ∈ names entries, isVarBlocked key.toList = false ∧ validName key.toList = true := by
  intro key hkey
  obtain ⟨entry, hentry, rfl⟩ := List.mem_map.mp hkey
  have hnone := List.findSome?_eq_none_iff.mp h entry hentry
  split at hnone
  · cases hnone
  · rename_i hfree
    split at hnone
    · cases hnone
    · rename_i hvalid
      exact ⟨by simpa using hfree, by simpa using hvalid⟩

theorem error_of_refusal {entries : List (String × Json)} {reply : Reply}
    (h : refusal entries = some reply) : ∃ status message, reply = .error status message := by
  obtain ⟨entry, -, hreply⟩ := List.exists_of_findSome?_eq_some h
  split at hreply
  · exact ⟨_, _, (Option.some.inj hreply).symm⟩
  · split at hreply
    · exact ⟨_, _, (Option.some.inj hreply).symm⟩
    · cases hreply

/-- The keys that are accepted are distinct: the names of elements are not. -/
theorem nodup_objectEntries {value : Json} {entries : List (String × Json)}
    (h : objectEntries value = some entries) (haccepted : refusal entries = none) :
    (names entries).Nodup := by
  cases value with
  | object fields =>
    obtain rfl := Option.some.inj h
    have hnil : (names ([] : List (String × Json))).Nodup := List.nodup_nil
    exact nodup_spread hnil fields
  | array items =>
    obtain rfl := Option.some.inj h
    cases items with
    | nil => exact List.nodup_nil
    | cons item items =>
      have hzero := (accepted_of_refusal haccepted (toString 0) (by simp [names])).2
      exact absurd hzero (by decide)
  | null | bool b | number n | string s => cases h

/-- A `PUT` that is accepted. -/
theorem put_updated {path : EnvPath} {body : Json} {keys : List String}
    (h : (putIntegrations numberText path body).2 = .updated keys) :
    (putIntegrations numberText path body).1 =
        writeEnvFile (setAll (linesOf path) (given numberText body)) ∧
      ((given numberText body).map Prod.fst).Nodup ∧
      ∀ entry ∈ given numberText body, Written entry.1 ∧ isVarBlocked entry.1 = false := by
  unfold putIntegrations at h ⊢
  cases hentries : (getField body "vars").bind objectEntries with
  | none => simp [hentries] at h
  | some entries =>
    have hgiven : given numberText body = texts numberText entries := by
      rw [given, hentries]
      rfl
    obtain ⟨value, -, hvalue⟩ := Option.bind_eq_some_iff.mp hentries
    simp only [hentries] at h ⊢
    cases hrefusal : refusal entries with
    | some reply =>
      obtain ⟨status, message, rfl⟩ := error_of_refusal hrefusal
      simp [hrefusal] at h
    | none =>
      simp only [hrefusal] at h ⊢
      cases hlines : readEnvFile path with
      | none => simp [hlines] at h
      | some lines =>
        simp only [hlines] at h ⊢
        cases hset : setVars numberText lines entries with
        | none => simp [hset] at h
        | some lines' =>
          obtain ⟨rfl, hnames⟩ := setVars_spec hset
          have hsame : linesOf path = lines := by
            rw [linesOf, hlines]
            rfl
          rw [hgiven, hsame]
          refine ⟨rfl, ?_, ?_⟩
          · rw [hnames]
            exact (nodup_objectEntries hvalue hrefusal).map fun a b hab => String.toList_inj.mp hab
          · intro entry hentry
            have hmem : entry.1 ∈ (texts numberText entries).map Prod.fst := List.mem_map_of_mem hentry
            rw [hnames] at hmem
            obtain ⟨key, hkey, heq⟩ := List.mem_map.mp hmem
            obtain ⟨hfree, hvalid⟩ := accepted_of_refusal hrefusal key hkey
            rw [← heq]
            exact ⟨written_of_validName hvalid, hfree⟩

theorem requested_eq {body : Json} {text : String}
    (h : keysParam numberText body = some (some text)) :
    requested numberText body = keysToRemove text := by
  rw [requested, h]
  rfl

/-- A `DELETE` that is accepted. -/
theorem delete_removed {path : EnvPath} {body : Json} {removed : List (List Char)}
    (h : (deleteIntegrations numberText path body).2 = .removed removed) :
    ∃ lines, readEnvFile path = some lines ∧
      removed = ((lines.filter fun line => !stays (requested numberText body) line).filterMap
        fun line => line.entry.map Prod.fst) ∧
      (deleteIntegrations numberText path body).1 =
        if removed = [] then path
        else writeEnvFile (lines.filter (stays (requested numberText body))) := by
  unfold deleteIntegrations at h ⊢
  split at h
  · cases h
  · cases h
  · cases h
  · rename_i text hempty hkeys
    rw [requested_eq hkeys]
    dsimp only at h ⊢
    by_cases hnone : keysToRemove text = []
    · rw [if_pos hnone] at h
      cases h
    · rw [if_neg hnone] at h ⊢
      cases hblocked : (keysToRemove text).find? isVarBlocked with
      | some key => simp [hblocked] at h
      | none =>
        simp only [hblocked] at h ⊢
        cases hlines : readEnvFile path with
        | none => simp [hlines] at h
        | some lines =>
          simp only [hlines] at h ⊢
          exact ⟨lines, rfl, (Reply.removed.inj h).symm, by rw [← Reply.removed.inj h]⟩

/-- Whether a line with an entry stays. -/
theorem stays_iff {keys : List (List Char)} {line : EnvLine} {key value : List Char}
    (h : line.entry = some (key, value)) : stays keys line = true ↔ key ∉ keys := by
  cases line with
  | comment raw => cases h
  | blank raw => cases h
  | var raw key' value' =>
    simp only [EnvLine.entry] at h
    split at h
    · cases h
    · rename_i hne
      obtain ⟨rfl, -⟩ := Prod.mk.inj (Option.some.inj h)
      simp [stays, hne]

/-- Removing keys removes their values only. -/
theorem delete_removes {path : EnvPath} {body : Json} {removed : List (List Char)}
    (h : (deleteIntegrations numberText path body).2 = .removed removed) :
    Removes path (deleteIntegrations numberText path body).1 (requested numberText body) := by
  obtain ⟨lines, hlines, hremoved, hpath⟩ := delete_removed h
  have hsame : linesOf path = lines := by
    rw [linesOf, hlines]
    rfl
  have hvalues : ∀ key, values EnvLine.entry
      (lines.filter (stays (requested numberText body))) key =
        if key ∈ requested numberText body then [] else values EnvLine.entry lines key := by
    intro key
    refine values_filter EnvLine.entry ?_
    intro line _ key value hentry
    exact stays_iff hentry
  intro key
  have hmap : fileMap (deleteIntegrations numberText path body).1 key =
      (values EnvLine.entry (lines.filter (stays (requested numberText body))) key).getLast? := by
    rw [hpath]
    by_cases hnone : removed = []
    · -- no line of the keys was found
      have hmissing : key ∈ requested numberText body → values EnvLine.entry lines key = [] := by
        intro hkey
        rw [values_eq_nil_iff]
        intro line hline
        by_contra hcarries
        obtain ⟨value, hvalue⟩ := Option.ne_none_iff_exists'.mp hcarries
        have hentry := valueFor_eq_some.mp hvalue
        have hgoes : stays (requested numberText body) line = false := by
          rw [← Bool.not_eq_true, stays_iff hentry]
          exact not_not.mpr hkey
        have hmem : key ∈ removed := by
          rw [hremoved]
          refine List.mem_filterMap.mpr ⟨line, List.mem_filter.mpr ⟨hline, by simp [hgoes]⟩, ?_⟩
          rw [hentry]
          rfl
        rw [hnone] at hmem
        cases hmem
      rw [if_pos hnone, hvalues, fileMap, envMap, reading, hsame]
      split
      · rename_i hkey
        rw [hmissing hkey]
      · rfl
    · rw [if_neg hnone, fileMap, envMap, reading, values_writeEnvFile]
      intro line hline
      exact stable_linesOf path line (hsame ▸ List.mem_of_mem_filter hline)
  rw [hmap, hvalues, fileMap, envMap, reading, hsame]
  split <;> rfl

end

theorem getLast?_cons_tail {α : Type} (a : α) (l : List α) :
    (a :: l.tail).getLast? = if l.length ≤ 1 then some a else l.getLast? := by
  match l with
  | [] => rfl
  | [b] => rfl
  | b :: c :: l => simp

/-- After a `PUT` the file is read back as it must be, and after a `DELETE` on top of it as well,
exactly if every value can be stored. -/
theorem env_round_trip_iff {numberText : Rat → String} {path : EnvPath} {body : Json}
    {keys : List String} (h : (putIntegrations numberText path body).2 = .updated keys) :
    (RoundTrips path (putIntegrations numberText path body).1 (given numberText body) ∧
      ∀ body' removed, (deleteIntegrations numberText (putIntegrations numberText path body).1
          body').2 = .removed removed →
        Removes (putIntegrations numberText path body).1 (deleteIntegrations numberText
          (putIntegrations numberText path body).1 body').1 (requested numberText body')) ↔
      ∀ entry ∈ given numberText body, Storable path entry := by
  obtain ⟨hpath, hnodup, hkeys⟩ := put_updated h
  have hwritten : ∀ entry ∈ given numberText body, Written entry.1 :=
    fun entry hentry => (hkeys entry hentry).1
  have hread : (∀ entry ∈ given numberText body, Clean entry.2) → ∀ key,
      fileMap (putIntegrations numberText path body).1 key =
        reading EnvLine.entry (setAll (linesOf path) (given numberText body)) key := by
    intro hclean key
    have hstable := stable_setAll hwritten (stable_linesOf path) hclean
    rw [fileMap, envMap, reading, hpath, values_writeEnvFile hstable]
    rfl
  have hvalue : (∀ entry ∈ given numberText body, Clean entry.2) →
      ∀ entry ∈ given numberText body,
        (fileMap (putIntegrations numberText path body).1 entry.1 = some entry.2 ↔
          (values EnvLine.entry (linesOf path) entry.1).length ≤ 1 ∨
            fileMap path entry.1 = some entry.2) := by
    intro hclean entry hentry
    rw [hread hclean, reading, values_setAll_self hwritten hnodup _ hentry, getLast?_cons_tail]
    by_cases hone : (values EnvLine.entry (linesOf path) entry.1).length ≤ 1
    · simp [hone]
    · simp [hone, fileMap, envMap, reading]
  constructor
  · rintro ⟨htrips, -⟩
    have hclean : ∀ entry ∈ given numberText body, Clean entry.2 :=
      fun entry hentry => clean_of_fileMap (htrips.given entry hentry)
    intro entry hentry
    exact ⟨hclean entry hentry, (hvalue hclean entry hentry).mp (htrips.given entry hentry)⟩
  · intro hstorable
    have hclean : ∀ entry ∈ given numberText body, Clean entry.2 :=
      fun entry hentry => (hstorable entry hentry).1
    have hothers : ∀ key, key ∉ (given numberText body).map Prod.fst →
        fileMap (putIntegrations numberText path body).1 key = fileMap path key := by
      intro key hkey
      rw [hread hclean, reading, values_setAll_other hwritten _ hkey]
      rfl
    refine ⟨⟨?_, hothers, ?_, ?_⟩, fun body' removed hremoved => delete_removes hremoved⟩
    · intro entry hentry
      exact (hvalue hclean entry hentry).mpr (hstorable entry hentry).2
    · intro key hblocked
      refine hothers key fun hmem => ?_
      obtain ⟨entry, hentry, rfl⟩ := List.mem_map.mp hmem
      rw [(hkeys entry hentry).2] at hblocked
      cases hblocked
    · have hstable := stable_setAll hwritten (stable_linesOf path) hclean
      have hcomments := comments_writeEnvFile hstable
      rw [comments_setAll hwritten] at hcomments
      rw [hpath]
      exact hcomments

/-! ### A value of two lines -/

def samplePath : EnvPath := .file "# keys\nA=1\nB = two".toList

/-- A `PUT` with one variable. -/
def sampleBody (key value : String) : Json :=
  .object [("vars", .object [(key, .string value)])]

def sampleNumberText (n : Rat) : String := toString n.num

theorem env_round_trip_sample :
    RoundTrips samplePath (putIntegrations sampleNumberText samplePath (sampleBody "A" "#=2")).1
      [("A".toList, "#=2".toList)] := by
  have hupdated : (putIntegrations sampleNumberText samplePath (sampleBody "A" "#=2")).2 =
      .updated ["A"] := by
    decide +kernel
  have hgiven : given sampleNumberText (sampleBody "A" "#=2") = [("A".toList, "#=2".toList)] := by
    decide +kernel
  have htrips := (env_round_trip_iff hupdated).mpr (by
    intro entry hentry
    rw [hgiven, List.mem_singleton] at hentry
    subst hentry
    exact ⟨⟨by decide +kernel, by decide +kernel⟩, .inl (by decide +kernel)⟩)
  rw [hgiven] at htrips
  exact htrips.1

/-- A line break in a value begins another line, here of a variable that must not be set. -/
theorem line_break_sets_path :
    (putIntegrations sampleNumberText samplePath (sampleBody "A" "2\nPATH=/tmp")).2 =
        .updated ["A"] ∧
      ¬ RoundTrips samplePath
        (putIntegrations sampleNumberText samplePath (sampleBody "A" "2\nPATH=/tmp")).1
        [("A".toList, "2\nPATH=/tmp".toList)] := by
  constructor
  · decide +kernel
  · intro htrips
    have hbefore : fileMap samplePath "PATH".toList = none := by decide +kernel
    have hafter : fileMap (putIntegrations sampleNumberText samplePath
        (sampleBody "A" "2\nPATH=/tmp")).1 "PATH".toList = some "/tmp".toList := by
      decide +kernel
    have hsame := htrips.blocked "PATH".toList (by decide +kernel)
    rw [hbefore, hafter] at hsame
    cases hsame

end MissionControl.Integrations.RoundTrip
