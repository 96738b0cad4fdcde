import MissionControl.Cron.Occurrences
import MissionControl.Foundations.Lists

/-!
Cron expressions of five fields as a grammar, what a minute of local time has to be for them to
match, and that `parseCron` reads their texts so.
-/

set_option autoImplicit false
set_option relaxedAutoImplicit false

namespace MissionControl.Cron.Expressions

open MissionControl.Foundations
open Calendar (date dayOfTime weekDay)
open Doubles (double number)
open JsText (isWhiteSpace trimChars words)
open MissionControl.Foundations.Lists (find?_reverse_range mem_or_eq_of_mem_intercalate)
open Numbers (Number)
open Occurrences
open TimeZones (hourFromTime minFromTime)

/-! ### The grammar -/

structure Numeral where
  digits : List Char
  nonempty : digits ≠ []
  isDigit : ∀ c ∈ digits, c.isDigit = true

def Numeral.value (n : Numeral) : Nat := Nat.ofDigitChars 10 n.digits 0

structure Step where
  numeral : Numeral
  positive : 0 < numeral.value

/-- A part of a field whose values are from `low` to `high`. -/
inductive Part (low high : Nat) where
  | all (step : Option Step)
  | single (n : Numeral) (inRange : low ≤ n.value ∧ n.value ≤ high)
  | range (first last : Numeral)
      (ascending : low ≤ first.value ∧ first.value ≤ last.value ∧ last.value ≤ high)
      (step : Option Step)

/-- A list of parts, of which there is at least one. -/
structure Field (low high : Nat) where
  head : Part low high
  rest : List (Part low high)

/-- White space between the fields, on one line. -/
structure Gap where
  blanks : List Char
  nonempty : blanks ≠ []
  isBlank : ∀ c ∈ blanks, isWhiteSpace c = true ∧ isLineTerminator c = false

/-- The name of a zone in parentheses, after the fields. -/
structure Suffix where
  gap : Gap
  name : List Char
  nonempty : name ≠ []
  noParentheses : '(' ∉ name ∧ ')' ∉ name

structure Expression where
  minute : Field 0 59
  afterMinute : Gap
  hour : Field 0 23
  afterHour : Gap
  dayOfMonth : Field 1 31
  afterDayOfMonth : Gap
  month : Field 1 12
  afterMonth : Gap
  dayOfWeek : Field 0 6
  suffix : Option Suffix

/-! ### Texts -/

def stepText : Option Step → List Char
  | none => []
  | some step => '/' :: step.numeral.digits

section

variable {low high : Nat}

def Part.text : Part low high → List Char
  | .all step => '*' :: stepText step
  | .single n _ => n.digits
  | .range first last _ step => first.digits ++ '-' :: last.digits ++ stepText step

def Field.parts (field : Field low high) : List (Part low high) := field.head :: field.rest

def Field.text (field : Field low high) : List Char :=
  [','].intercalate (field.parts.map Part.text)

/-! ### Meanings -/

/-- The number of values from one to the next. -/
def stepValue : Option Step → Nat
  | none => 1
  | some step => step.numeral.value

def Part.Matches : Part low high → Nat → Prop
  | .all step, v => low ≤ v ∧ v ≤ high ∧ (v - low) % stepValue step = 0
  | .single n _, v => v = n.value
  | .range first last _ step, v =>
    first.value ≤ v ∧ v ≤ last.value ∧ (v - first.value) % stepValue step = 0

def Field.Matches (field : Field low high) (v : Nat) : Prop := ∃ part ∈ field.parts, part.Matches v

/-- The field is `*`. -/
def Field.IsStar (field : Field low high) : Prop := field.head = .all none ∧ field.rest = []

/-- The steps that are not so large as to be infinite. -/
def stepFinite : Option Step → Prop
  | none => True
  | some step => ∃ y, double step.numeral.value = .finite y

def Part.Finite : Part low high → Prop
  | .all step => stepFinite step
  | .single _ _ => True
  | .range _ _ _ step => stepFinite step

def Field.Finite (field : Field low high) : Prop := ∀ part ∈ field.parts, part.Finite

end

namespace Expression

def fieldsText (e : Expression) : List Char :=
  e.minute.text ++ e.afterMinute.blanks ++ (e.hour.text ++ e.afterHour.blanks ++
    (e.dayOfMonth.text ++ e.afterDayOfMonth.blanks ++ (e.month.text ++ e.afterMonth.blanks ++
      e.dayOfWeek.text)))

def suffixText : Option Suffix → List Char
  | none => []
  | some suffix => suffix.gap.blanks ++ '(' :: suffix.name ++ [')']

def text (e : Expression) : List Char := e.fieldsText ++ suffixText e.suffix

/-- The day of a local time is matched: by the one field of days that is not `*`, or by either. -/
def DayMatches (e : Expression) (l : Int) : Prop :=
  (e.dayOfMonth.IsStar ∧ e.dayOfWeek.IsStar) ∨
    (e.dayOfMonth.IsStar ∧ ¬e.dayOfWeek.IsStar ∧ e.dayOfWeek.Matches (weekDay (dayOfTime l))) ∨
    (¬e.dayOfMonth.IsStar ∧ e.dayOfWeek.IsStar ∧ e.dayOfMonth.Matches (date (dayOfTime l))) ∨
    (¬e.dayOfMonth.IsStar ∧ ¬e.dayOfWeek.IsStar ∧
      (e.dayOfMonth.Matches (date (dayOfTime l)) ∨ e.dayOfWeek.Matches (weekDay (dayOfTime l))))

/-- Local minute, hour, month and day match. -/
def Matches (e : Expression) (l : Int) : Prop :=
  e.minute.Matches (minFromTime l).toNat ∧ e.hour.Matches (hourFromTime l).toNat ∧
    e.month.Matches (Calendar.month (dayOfTime l) + 1) ∧ e.DayMatches l

structure FiniteSteps (e : Expression) : Prop where
  minute : e.minute.Finite
  hour : e.hour.Finite
  dayOfMonth : e.dayOfMonth.Finite
  month : e.month.Finite
  dayOfWeek : e.dayOfWeek.Finite

end Expression

/-! ### The loops over values -/

/-- A loop with a whole step runs through the values that are whole steps away. -/
theorem exists_steps {k stop : Nat} {y : ℚ} (hk : 0 < k) (hy : double k = .finite y)
    (hstop : stop < 2 ^ 53) (a : Nat) :
    ∃ fuel values, steps y stop fuel (.finite a) = some values ∧
      ∀ value : ℚ, value ∈ values ↔
        ∃ v : Nat, value = v ∧ a ≤ v ∧ v ≤ stop ∧ (v - a) % k = 0 := by
  obtain ⟨n, hn⟩ : ∃ n, stop + 1 - a = n := ⟨_, rfl⟩
  induction n using Nat.strongRecOn generalizing a with
  | ind n ih =>
    by_cases ha : a ≤ stop
    · have hle : (a : ℚ) ≤ stop := by exact_mod_cast ha
      by_cases hnext : a + k ≤ stop
      · -- the next value is below the end, so the step and the sum are exact
        have hexact : y = k := by
          rw [Doubles.double_natCast (by omega)] at hy
          exact (Number.finite.inj hy).symm
        have hsum : double ((a : ℚ) + y) = .finite ((a + k : Nat) : ℚ) := by
          rw [hexact, ← Doubles.double_natCast (by omega)]
          push_cast
          rfl
        obtain ⟨fuel, values, hsteps, hvalues⟩ := ih (stop + 1 - (a + k)) (by omega) (a + k) rfl
        refine ⟨fuel + 1, a :: values, ?_, ?_⟩
        · rw [steps, if_pos hle, hsum, hsteps]
          rfl
        · intro value
          rw [List.mem_cons, hvalues]
          constructor
          · rintro (rfl | ⟨v, rfl, hav, hvs, hmod⟩)
            · exact ⟨a, rfl, le_rfl, ha, by simp⟩
            · refine ⟨v, rfl, by omega, hvs, ?_⟩
              rw [show v - a = v - (a + k) + k by omega, Nat.add_mod_right]
              exact hmod
          · rintro ⟨v, rfl, hav, hvs, hmod⟩
            by_cases heq : v = a
            · exact .inl (by rw [heq])
            · have hkv : k ≤ v - a := Nat.le_of_dvd (by omega) (Nat.dvd_of_mod_eq_zero hmod)
              refine .inr ⟨v, rfl, by omega, hvs, ?_⟩
              rw [show v - a = v - (a + k) + k by omega, Nat.add_mod_right] at hmod
              exact hmod
      · -- the next value is above the end, however the step is rounded
        have hbound : ((stop + 1 : Nat) : ℚ) ≤ a + y := by
          by_cases hsmall : k < 2 ^ 53
          · rw [Doubles.double_natCast hsmall] at hy
            rw [← Number.finite.inj hy]
            exact_mod_cast (by omega : stop + 1 ≤ a + k)
          · have hlarge : ((2 ^ 53 : Nat) : ℚ) ≤ y :=
              Doubles.natCast_le_of_double le_rfl (by exact_mod_cast not_lt.mp hsmall) hy
            have hstop' : ((stop + 1 : Nat) : ℚ) ≤ (2 ^ 53 : Nat) := by
              exact_mod_cast (by omega : stop + 1 ≤ 2 ^ 53)
            have hnonneg : (0 : ℚ) ≤ a := Nat.cast_nonneg a
            linarith
        have hover : ∀ z, double ((a : ℚ) + y) = .finite z → ¬z ≤ stop := by
          intro z hz hcontra
          have hge := Doubles.natCast_le_of_double (by omega) hbound hz
          have hlt : (stop : ℚ) < (stop + 1 : Nat) := by exact_mod_cast Nat.lt_succ_self stop
          linarith
        have hend : steps y stop 1 (double ((a : ℚ) + y)) = some [] := by
          cases hz : double ((a : ℚ) + y) with
          | nan => rfl
          | infinite negative => rfl
          | finite z => rw [steps, if_neg (hover z hz)]
        refine ⟨2, [(a : ℚ)], ?_, ?_⟩
        · rw [steps, if_pos hle, hend]
          rfl
        · intro value
          rw [List.mem_singleton]
          constructor
          · rintro rfl
            exact ⟨a, rfl, le_rfl, ha, by simp⟩
          · rintro ⟨v, rfl, hav, hvs, hmod⟩
            congr 1
            by_contra hne
            have hkv : k ≤ v - a := Nat.le_of_dvd (by omega) (Nat.dvd_of_mod_eq_zero hmod)
            omega
    · refine ⟨1, [], ?_, ?_⟩
      · rw [steps, if_neg]
        exact_mod_cast ha
      · intro value
        simp only [List.not_mem_nil, false_iff]
        rintro ⟨v, -, hav, hvs, -⟩
        omega

/-- The values that an addition adds are those of the predicate. -/
def AddsExactly (additions : Additions) (P : Nat → Prop) : Prop :=
  ∃ fuel values, additions.values fuel = some values ∧
    ∀ value : ℚ, value ∈ values ↔ ∃ v : Nat, value = v ∧ P v

theorem addsExactly_nothing {P : Nat → Prop} (h : ∀ v, ¬ P v) : AddsExactly .nothing P := by
  refine ⟨0, [], rfl, fun value => ?_⟩
  simp [h]

theorem addsExactly_single (n : Nat) : AddsExactly (.single n) fun v => v = n := by
  refine ⟨0, [(n : ℚ)], rfl, fun value => ?_⟩
  rw [List.mem_singleton]
  constructor
  · rintro rfl
    exact ⟨n, rfl, rfl⟩
  · rintro ⟨v, rfl, rfl⟩
    rfl

theorem AddsExactly.congr {additions : Additions} {P Q : Nat → Prop}
    (h : AddsExactly additions P) (hiff : ∀ v, P v ↔ Q v) : AddsExactly additions Q := by
  obtain ⟨fuel, values, hvalues, hmem⟩ := h
  refine ⟨fuel, values, hvalues, fun value => ?_⟩
  simp only [hmem, hiff]

theorem addsExactly_loop {k stop : Nat} {y : ℚ} (hk : 0 < k) (hy : double k = .finite y)
    (hstop : stop < 2 ^ 53) (start : Nat) :
    AddsExactly (.loop y start stop) fun v => start ≤ v ∧ v ≤ stop ∧ (v - start) % k = 0 :=
  exists_steps hk hy hstop start

/-- The texts of parts add together what each of them adds. -/
theorem exists_flatten {α : Type} {low high : Nat} (text : α → List Char) {P : α → Nat → Prop}
    {l : List α} (h : ∀ a ∈ l, AddsExactly (parsePart low high (text a)) (P a)) :
    ∃ fuel lists,
      ((l.map text).mapM fun part => (parsePart low high part).values fuel) = some lists ∧
      ∀ value : ℚ, value ∈ lists.flatten ↔ ∃ v : Nat, value = v ∧ ∃ a ∈ l, P a v := by
  obtain ⟨fuel, hfuel⟩ := exists_fuel
    (P := fun fuel a => ∃ values, (parsePart low high (text a)).values fuel = some values ∧
      ∀ value : ℚ, value ∈ values ↔ ∃ v : Nat, value = v ∧ P a v)
    (fun a n m hnm ⟨values, hvalues, hmem⟩ => ⟨values, values_mono hnm hvalues, hmem⟩) h
  obtain ⟨lists, hlists⟩ := (Lists.exists_mapM (f := fun part : List Char =>
      (parsePart low high part).values fuel) (l := l.map text)).mpr (by
    intro part hpart
    obtain ⟨a, ha, rfl⟩ := List.mem_map.mp hpart
    obtain ⟨values, hvalues, -⟩ := hfuel a ha
    rw [hvalues]
    rfl)
  have hall := Lists.mapM_eq_some_iff.mp hlists
  refine ⟨fuel, lists, hlists, fun value => ?_⟩
  rw [List.mem_flatten]
  constructor
  · rintro ⟨values, hvalues, hv⟩
    obtain ⟨part, hpart, heq⟩ := Lists.mem_of_forall₂ hall hvalues
    obtain ⟨a, ha, rfl⟩ := List.mem_map.mp hpart
    obtain ⟨values', hvalues', hmem⟩ := hfuel a ha
    obtain rfl := Option.some.inj (heq.symm.trans hvalues')
    obtain ⟨v, hvalue, hPv⟩ := (hmem value).mp hv
    exact ⟨v, hvalue, a, ha, hPv⟩
  · rintro ⟨v, hvalue, a, ha, hPv⟩
    obtain ⟨values, hvalues, heq⟩ := Lists.mem_of_forall₂ hall.flip (List.mem_map_of_mem ha)
    obtain ⟨values', hvalues', hmem⟩ := hfuel a ha
    obtain rfl := Option.some.inj (heq.symm.trans hvalues')
    exact ⟨values, hvalues, (hmem value).mpr ⟨v, hvalue, hPv⟩⟩

/-! ### Parts -/

theorem number_digits (n : Numeral) : number n.digits = double n.value :=
  Doubles.number_digits n.nonempty n.isDigit

theorem number_digits_of_le {n : Numeral} {high : Nat} (hhigh : high < 2 ^ 52)
    (hn : n.value ≤ high) : number n.digits = .finite n.value := by
  rw [number_digits, Doubles.double_natCast (by omega)]

def isPartChar (c : Char) : Bool := c.isDigit || c = '*' || c = '-' || c = '/'

theorem isPartChar_of_mem_stepText {step : Option Step} {c : Char} (h : c ∈ stepText step) :
    isPartChar c = true := by
  cases step with
  | none => simp [stepText] at h
  | some step =>
    rw [stepText, List.mem_cons] at h
    rcases h with rfl | h
    · rfl
    · simp [isPartChar, step.numeral.isDigit c h]

section

variable {low high : Nat}

theorem isPartChar_of_mem {part : Part low high} {c : Char} (h : c ∈ part.text) :
    isPartChar c = true := by
  cases part with
  | all step =>
    rw [Part.text, List.mem_cons] at h
    rcases h with rfl | h
    · rfl
    · exact isPartChar_of_mem_stepText h
  | single n inRange => simp [isPartChar, n.isDigit c h]
  | range first last ascending step =>
    simp only [Part.text, List.mem_append, List.mem_cons] at h
    rcases h with (h | rfl | h) | h
    · simp [isPartChar, first.isDigit c h]
    · rfl
    · simp [isPartChar, last.isDigit c h]
    · exact isPartChar_of_mem_stepText h

theorem not_whiteSpace_of_isPartChar {c : Char} (h : isPartChar c = true) :
    isWhiteSpace c = false := by
  simp only [isPartChar, Bool.or_eq_true, decide_eq_true_eq] at h
  rcases h with ((h | rfl) | rfl) | rfl
  · exact Doubles.not_whiteSpace_of_isDigit h
  all_goals decide

/-- No other character is a digit. -/
theorem not_mem_digits {n : Numeral} {c : Char} (hc : c.isDigit = false) : c ∉ n.digits := by
  intro h
  rw [n.isDigit c h] at hc
  cases hc

/-- A part is read in two pieces, the range and the step. -/
theorem parsePart_eq (low high : Nat) {r : List Char} (hne : r ≠ []) (hslash : '/' ∉ r)
    (hwords : ∀ c ∈ r, isWhiteSpace c = false) {step : Option Step} {y : ℚ}
    (hy : double (stepValue step) = .finite y) :
    parsePart low high (r ++ stepText step) = parseRange low high y r := by
  have htrim : trimChars (r ++ stepText step) = r ++ stepText step := by
    refine JsText.trimChars_of_words fun c hc => ?_
    rcases List.mem_append.mp hc with hc | hc
    · exact hwords c hc
    · exact not_whiteSpace_of_isPartChar (isPartChar_of_mem_stepText hc)
  have hfull : r ++ stepText step ≠ [] := List.append_ne_nil_of_left_ne_nil hne _
  have hone : ((1 : Nat) : ℚ) ≤ stepValue step := by
    cases step with
    | none => exact le_rfl
    | some step => exact_mod_cast step.positive
  have hpositive : ¬y ≤ 0 := by
    have hge := Doubles.natCast_le_of_double (by norm_num) hone hy
    push_cast at hge
    linarith
  unfold parsePart
  simp only [htrim, if_neg hfull]
  cases step with
  | none =>
    have hpieces : (r ++ stepText none).splitOn '/' = [r] := by
      rw [stepText, List.append_nil, List.splitOn_eq_singleton hslash]
    have hy' : y = 1 := by
      have hdouble := Doubles.double_natCast (n := 1) (by norm_num)
      rw [stepValue, hdouble] at hy
      have heq := Number.finite.inj hy
      push_cast at heq
      exact heq.symm
    subst hy'
    simp only [hpieces, List.tail_cons, List.headD_nil, if_true, List.headD_cons, if_neg hpositive]
  | some step =>
    have hpieces : (r ++ stepText (some step)).splitOn '/' = [r, step.numeral.digits] := by
      rw [stepText, List.splitOn_append_cons_self_of_not_mem hslash,
        List.splitOn_eq_singleton (not_mem_digits (by decide))]
    have hnumber : number step.numeral.digits = .finite y := by
      rw [number_digits]
      exact hy
    simp only [hpieces, List.tail_cons, List.headD_cons, if_neg step.numeral.nonempty, hnumber,
      if_neg hpositive]

theorem clamp_of_le {n : Nat} (hlow : low ≤ n) (hhigh : n ≤ high) : clamp low high n = n := by
  have hlow' : (low : ℚ) ≤ n := by exact_mod_cast hlow
  have hhigh' : (n : ℚ) ≤ high := by exact_mod_cast hhigh
  rw [clamp, min_eq_right hhigh', max_eq_right hlow']

theorem exists_stepValue {step : Option Step} (h : stepFinite step) :
    0 < stepValue step ∧ ∃ y, double (stepValue step) = .finite y := by
  cases step with
  | none => exact ⟨Nat.one_pos, 1, by rw [stepValue, Doubles.double_natCast (by norm_num)]; simp⟩
  | some step => exact ⟨step.positive, h⟩

theorem not_whiteSpace_of_mem_digits {n : Numeral} {c : Char} (h : c ∈ n.digits) :
    isWhiteSpace c = false :=
  Doubles.not_whiteSpace_of_isDigit (n.isDigit c h)

/-- The text of a range without its step. -/
theorem range_text {first last : Numeral} {c : Char} (h : c ∈ first.digits ++ '-' :: last.digits) :
    c.isDigit = true ∨ c = '-' := by
  rcases List.mem_append.mp h with h | h
  · exact .inl (first.isDigit c h)
  · rcases List.mem_cons.mp h with rfl | h
    · exact .inr rfl
    · exact .inl (last.isDigit c h)

theorem not_whiteSpace_of_range {first last : Numeral} {c : Char}
    (h : c ∈ first.digits ++ '-' :: last.digits) : isWhiteSpace c = false := by
  rcases range_text h with h | rfl
  · exact Doubles.not_whiteSpace_of_isDigit h
  · decide

theorem parseRange_star (y : ℚ) : parseRange low high y ['*'] = .loop y low high := if_pos rfl

theorem not_whiteSpace_star : ∀ c ∈ ['*'], isWhiteSpace c = false :=
  List.forall_mem_singleton.mpr rfl

theorem digits_ne_star (n : Numeral) : n.digits ≠ ['*'] := by
  intro heq
  have hdigit := n.isDigit '*' (by simp [heq])
  exact absurd hdigit (by decide)

theorem parseRange_single {n : Numeral} {z : ℚ} (hz : number n.digits = .finite z) (y : ℚ) :
    parseRange low high y n.digits = if low ≤ z ∧ z ≤ high then .single z else .nothing := by
  have hdash : '-' ∉ n.digits := not_mem_digits (by decide)
  rw [parseRange, if_neg (digits_ne_star n), if_neg hdash, hz]

theorem rangeText_ne_star (first last : Numeral) :
    first.digits ++ '-' :: last.digits ≠ ['*'] := by
  intro heq
  have hmem : '-' ∈ first.digits ++ '-' :: last.digits := by simp
  rw [heq] at hmem
  exact absurd hmem (by decide)

theorem splitOn_rangeText (first last : Numeral) :
    (first.digits ++ '-' :: last.digits).splitOn '-' = [first.digits, last.digits] := by
  rw [List.splitOn_append_cons_self_of_not_mem (not_mem_digits (by decide)),
    List.splitOn_eq_singleton (not_mem_digits (by decide))]

theorem parseRange_range {first last : Numeral} {a b : ℚ} (ha : number first.digits = .finite a)
    (hb : number last.digits = .finite b) (y : ℚ) :
    parseRange low high y (first.digits ++ '-' :: last.digits) =
      .loop y (clamp low high a) (clamp low high b) := by
  rw [parseRange, if_neg (rangeText_ne_star first last), if_pos (by simp), splitOn_rangeText]
  simp only [List.headD_cons, List.tail_cons, ha, hb]

/-- A part adds the values that it matches. -/
theorem addsExactly_part (hhigh : high < 2 ^ 52) {part : Part low high} (h : part.Finite) :
    AddsExactly (parsePart low high part.text) part.Matches := by
  cases part with
  | all step =>
    obtain ⟨hpositive, y, hy⟩ := exists_stepValue h
    have hpart : parsePart low high (Part.all step : Part low high).text = .loop y low high := by
      have hread := parsePart_eq low high (List.cons_ne_nil '*' []) (by decide)
        not_whiteSpace_star hy
      exact hread
    rw [hpart]
    exact addsExactly_loop hpositive hy (hhigh.trans (by norm_num)) low
  | single n inRange =>
    have hone : double (stepValue none) = .finite 1 := by
      rw [stepValue, Doubles.double_natCast (by norm_num)]
      simp
    have hread := parsePart_eq low high n.nonempty (not_mem_digits (by decide))
      (fun c hc => not_whiteSpace_of_mem_digits hc) hone
    rw [stepText, List.append_nil] at hread
    have hrange : ((low : ℚ) ≤ (n.value : ℚ)) ∧ (n.value : ℚ) ≤ high := by exact_mod_cast inRange
    have hsingle : parsePart low high n.digits = .single n.value := by
      rw [hread, parseRange_single (number_digits_of_le hhigh inRange.2), if_pos hrange]
    rw [Part.text, hsingle]
    exact addsExactly_single n.value
  | range first last ascending step =>
    obtain ⟨hlow, hascending, hlast⟩ := ascending
    obtain ⟨hpositive, y, hy⟩ := exists_stepValue h
    have hread := parsePart_eq low high (r := first.digits ++ '-' :: last.digits)
      (List.append_ne_nil_of_left_ne_nil first.nonempty _)
      (fun hslash => absurd (range_text hslash) (by decide))
      (fun c hc => not_whiteSpace_of_range hc) hy
    have hloop : parseRange low high y (first.digits ++ '-' :: last.digits) =
        .loop y first.value last.value := by
      rw [parseRange_range (number_digits_of_le hhigh (hascending.trans hlast))
        (number_digits_of_le hhigh hlast), clamp_of_le hlow (hascending.trans hlast),
        clamp_of_le (hlow.trans hascending) hlast]
    rw [Part.text, hread, hloop]
    exact addsExactly_loop hpositive hy (hlast.trans_lt (hhigh.trans (by norm_num))) first.value

/-! ### Fields -/

theorem text_ne_nil (part : Part low high) : part.text ≠ [] := by
  cases part with
  | all step => simp [Part.text]
  | single n inRange => exact n.nonempty
  | range first last ascending step => simp [Part.text]

theorem splitOn_text (field : Field low high) :
    field.text.splitOn ',' = field.parts.map Part.text := by
  refine List.splitOn_intercalate ',' ?_ (by simp [Field.parts])
  intro text htext hcomma
  obtain ⟨part, -, rfl⟩ := List.mem_map.mp htext
  exact absurd (isPartChar_of_mem hcomma) (by decide)

/-- What the text of a field is made of. -/
def isFieldChar (c : Char) : Bool := isPartChar c || c = ','

theorem isFieldChar_of_mem {field : Field low high} {c : Char} (h : c ∈ field.text) :
    isFieldChar c = true := by
  have hsplit := mem_or_eq_of_mem_intercalate h
  rcases hsplit with rfl | ⟨text, htext, hc⟩
  · rfl
  · obtain ⟨part, -, rfl⟩ := List.mem_map.mp htext
    simp [isFieldChar, isPartChar_of_mem hc]

theorem not_whiteSpace_of_isFieldChar {c : Char} (h : isFieldChar c = true) :
    isWhiteSpace c = false := by
  simp only [isFieldChar, Bool.or_eq_true, decide_eq_true_eq] at h
  rcases h with h | rfl
  · exact not_whiteSpace_of_isPartChar h
  · decide

theorem fieldText_ne_nil (field : Field low high) : field.text ≠ [] := by
  intro h
  have hsplit := splitOn_text field
  rw [h, List.splitOn_nil] at hsplit
  have hhead : field.head.text = [] := by
    simp only [Field.parts, List.map_cons, List.cons.injEq] at hsplit
    exact hsplit.1.symm
  exact text_ne_nil field.head hhead

theorem text_eq_star_iff (field : Field low high) : field.text = ['*'] ↔ field.IsStar := by
  constructor
  · intro h
    have hsplit := splitOn_text field
    rw [h] at hsplit
    have hone : (['*'] : List Char).splitOn ',' = [['*']] := by decide
    rw [hone] at hsplit
    simp only [Field.parts, List.map_cons, List.cons.injEq] at hsplit
    obtain ⟨hhead, hrest⟩ := hsplit
    refine ⟨?_, by simpa using hrest.symm⟩
    cases hpart : field.head with
    | all step =>
      cases step with
      | none => rfl
      | some step => simp [hpart, Part.text, stepText] at hhead
    | single n inRange =>
      have hdigit := n.isDigit '*' (by rw [hpart, Part.text] at hhead; simp [← hhead])
      exact absurd hdigit (by decide)
    | range first last ascending step =>
      have hmem : '-' ∈ field.head.text := by simp [hpart, Part.text]
      rw [← hhead] at hmem
      exact absurd hmem (by decide)
  · rintro ⟨hhead, hrest⟩
    simp [Field.text, Field.parts, hhead, hrest, Part.text, stepText, List.intercalate]

/-- A field is read as what it matches. -/
structure Agrees (parsed : ParsedField) (field : Field low high) : Prop where
  any : parsed.any = true ↔ field.IsStar
  values : ∀ v, parsed.matches v = true ↔ field.Matches v

theorem parseToken_text (hhigh : high < 2 ^ 52) {field : Field low high} (h : field.Finite) :
    ∃ fuel parsed, parseToken fuel low high field.text = some parsed ∧ Agrees parsed field := by
  have htrim : trimChars field.text = field.text :=
    JsText.trimChars_of_words fun c hc => not_whiteSpace_of_isFieldChar (isFieldChar_of_mem hc)
  unfold parseToken
  simp only [htrim]
  by_cases hstar : field.text = ['*']
  · have hone : double ((1 : Nat) : ℚ) = .finite 1 := by
      rw [Doubles.double_natCast (by norm_num)]
      simp
    obtain ⟨fuel, values, hvalues, hmem⟩ :=
      addsExactly_loop Nat.one_pos hone (hhigh.trans (by norm_num)) low
    refine ⟨fuel, ⟨true, values⟩, ?_, ?_⟩
    · rw [if_pos hstar]
      exact congrArg (Option.map _) hvalues
    · have hfield := (text_eq_star_iff field).mp hstar
      refine ⟨by simp [hfield], fun v => ?_⟩
      rw [ParsedField.matches, decide_eq_true_eq, hmem]
      simp [Field.Matches, Field.parts, hfield.1, hfield.2, Part.Matches, stepValue]
  · obtain ⟨fuel, lists, hlists, hmem⟩ := exists_flatten Part.text
      fun part hpart => addsExactly_part hhigh (h part hpart)
    refine ⟨fuel, ⟨false, lists.flatten⟩, ?_, ?_⟩
    · rw [if_neg hstar, splitOn_text, hlists]
      rfl
    · refine ⟨by simp [← text_eq_star_iff, hstar], fun v => ?_⟩
      rw [ParsedField.matches, decide_eq_true_eq, hmem]
      simp [Field.Matches]

end

/-! ### Words -/

theorem words_ne_nil (cs : List Char) : words cs ≠ [] := by
  cases cs with
  | nil => simp [words]
  | cons c cs =>
    rw [words]
    split
    · simp
    · split
      · split <;> simp
      · simp

theorem words_blank {c : Char} (hc : isWhiteSpace c = true) {cs word : List Char}
    {rest : List (List Char)} (h : words cs = word :: rest) :
    words (c :: cs) = if word = [] ∧ rest ≠ [] then word :: rest else [] :: word :: rest := by
  rw [words, h]
  exact if_pos hc

/-- Before a blank, or at the end, there is a word that is empty. -/
theorem exists_words {rest : List Char}
    (h : rest = [] ∨ ∃ c cs, rest = c :: cs ∧ isWhiteSpace c = true) :
    ∃ tail, words rest = [] :: tail := by
  rcases h with rfl | ⟨c, cs, rfl, hc⟩
  · exact ⟨[], rfl⟩
  · obtain ⟨word, tail, hwords⟩ := List.exists_cons_of_ne_nil (words_ne_nil cs)
    rw [words_blank hc hwords]
    split
    · rename_i h
      exact ⟨tail, by rw [h.1]⟩
    · exact ⟨word :: tail, rfl⟩

theorem words_append {token rest : List Char} (htoken : ∀ c ∈ token, isWhiteSpace c = false)
    {tail : List (List Char)} (hrest : words rest = [] :: tail) :
    words (token ++ rest) = token :: tail := by
  induction token with
  | nil => exact hrest
  | cons c token ih =>
    have hc := htoken c List.mem_cons_self
    rw [List.cons_append, words, ih fun d hd => htoken d (List.mem_cons_of_mem c hd)]
    simp [hc]

/-- `text.split(/\s+/).filter(Boolean)`. -/
def wordsOf (cs : List Char) : List (List Char) := (words cs).filter (· ≠ [])

theorem wordsOf_token {token rest : List Char} (hne : token ≠ [])
    (htoken : ∀ c ∈ token, isWhiteSpace c = false)
    (hrest : rest = [] ∨ ∃ c cs, rest = c :: cs ∧ isWhiteSpace c = true) :
    wordsOf (token ++ rest) = token :: wordsOf rest := by
  obtain ⟨tail, htail⟩ := exists_words hrest
  rw [wordsOf, wordsOf, words_append htoken htail, htail]
  simp [hne]

theorem wordsOf_blanks {blanks : List Char} (h : ∀ c ∈ blanks, isWhiteSpace c = true)
    (rest : List Char) : wordsOf (blanks ++ rest) = wordsOf rest := by
  induction blanks with
  | nil => rfl
  | cons c blanks ih =>
    obtain ⟨word, tail, hwords⟩ := List.exists_cons_of_ne_nil (words_ne_nil (blanks ++ rest))
    rw [← ih fun d hd => h d (List.mem_cons_of_mem c hd), List.cons_append, wordsOf, wordsOf,
      words_blank (h c List.mem_cons_self) hwords, hwords]
    split <;> simp

theorem Gap.isWhiteSpace_of_mem (gap : Gap) {c : Char} (h : c ∈ gap.blanks) :
    isWhiteSpace c = true :=
  (gap.isBlank c h).1

/-- A field and the blanks after it are one word. -/
theorem wordsOf_field {low high : Nat} (field : Field low high) (gap : Gap) (rest : List Char) :
    wordsOf (field.text ++ gap.blanks ++ rest) = field.text :: wordsOf rest := by
  obtain ⟨c, cs, hblanks⟩ := List.exists_cons_of_ne_nil gap.nonempty
  rw [List.append_assoc, wordsOf_token (fieldText_ne_nil field)
    (fun c hc => not_whiteSpace_of_isFieldChar (isFieldChar_of_mem hc)) (.inr ⟨c, cs ++ rest, ?_, ?_⟩),
    wordsOf_blanks fun c hc => gap.isWhiteSpace_of_mem hc]
  · rw [hblanks, List.cons_append]
  · exact gap.isWhiteSpace_of_mem (by simp [hblanks])

theorem wordsOf_fieldsText (e : Expression) : wordsOf e.fieldsText =
    [e.minute.text, e.hour.text, e.dayOfMonth.text, e.month.text, e.dayOfWeek.text] := by
  have hlast : wordsOf e.dayOfWeek.text = [e.dayOfWeek.text] := by
    have htoken : wordsOf (e.dayOfWeek.text ++ []) = e.dayOfWeek.text :: wordsOf [] :=
      wordsOf_token (fieldText_ne_nil e.dayOfWeek)
        (fun c hc => not_whiteSpace_of_isFieldChar (isFieldChar_of_mem hc)) (.inl rfl)
    rw [List.append_nil] at htoken
    rw [htoken]
    rfl
  rw [Expression.fieldsText, wordsOf_field, wordsOf_field, wordsOf_field, wordsOf_field, hlast]

/-! ### The suffix -/

/-- White space is only taken from behind what begins and ends with words. -/
theorem trimChars_append {first last blanks : List Char} (middle : List Char)
    (hfirst : first ≠ []) (hlast : last ≠ []) (hfirstWord : ∀ c ∈ first, isWhiteSpace c = false)
    (hlastWord : ∀ c ∈ last, isWhiteSpace c = false)
    (hblanks : ∀ c ∈ blanks, isWhiteSpace c = true) :
    trimChars (first ++ middle ++ last ++ blanks) = first ++ middle ++ last := by
  obtain ⟨c, cs, rfl⟩ := List.exists_cons_of_ne_nil hfirst
  obtain ⟨init, d, rfl⟩ : ∃ init d, last = init ++ [d] := by
    rcases last.eq_nil_or_concat with rfl | ⟨init, d, rfl⟩
    · exact absurd rfl hlast
    · exact ⟨init, d, by simp⟩
  have hc : isWhiteSpace c = false := hfirstWord c List.mem_cons_self
  have hd : isWhiteSpace d = false := hlastWord d (by simp)
  have hreverse : ∀ b ∈ blanks.reverse, isWhiteSpace b = true :=
    fun b hb => hblanks b (List.mem_reverse.mp hb)
  rw [trimChars, List.cons_append, List.cons_append, List.cons_append,
    List.dropWhile_cons_of_neg (by simp [hc])]
  have hrev : (c :: (cs ++ middle ++ (init ++ [d]) ++ blanks)).reverse =
      blanks.reverse ++ d :: (c :: (cs ++ middle ++ init)).reverse := by simp
  rw [hrev, List.dropWhile_append_of_pos hreverse, List.dropWhile_cons_of_neg (by simp [hd])]
  simp

theorem paren_mem_of_isSuffix {cs : List Char} (h : isSuffix cs = true) :
    '(' ∈ cs.tail ∧ ')' ∈ cs := by
  rw [isSuffix, Bool.and_eq_true, decide_eq_true_eq] at h
  obtain ⟨hblanks, hbody⟩ := h
  have hsplit := List.takeWhile_append_dropWhile (p := isWhiteSpace) (l := cs)
  obtain ⟨b, bs, htake⟩ := List.exists_cons_of_ne_nil hblanks
  cases hdrop : cs.dropWhile isWhiteSpace with
  | nil => simp [hdrop] at hbody
  | cons c body =>
    simp only [hdrop, Bool.and_eq_true, decide_eq_true_eq] at hbody
    obtain ⟨⟨⟨rfl, hlast⟩, -⟩, -⟩ := hbody
    rw [htake, hdrop] at hsplit
    rw [← hsplit]
    exact ⟨by simp, by simp [List.mem_of_getLast? hlast]⟩

theorem isSuffix_of_name {b : Char} (hb : isWhiteSpace b = true) {name : List Char}
    (hne : name ≠ []) (hparen : ')' ∉ name) : isSuffix (b :: '(' :: name ++ [')']) = true := by
  have hopen : isWhiteSpace '(' = false := by decide
  simp [isSuffix, hb, hopen, hne, hparen]

theorem mem_fieldsText {e : Expression} {c : Char} (h : c ∈ e.fieldsText) :
    isFieldChar c = true ∨ (isWhiteSpace c = true ∧ isLineTerminator c = false) := by
  simp only [Expression.fieldsText, List.mem_append] at h
  rcases h with (h | h) | (h | h) | (h | h) | (h | h) | h
  · exact .inl (isFieldChar_of_mem h)
  · exact .inr (e.afterMinute.isBlank c h)
  · exact .inl (isFieldChar_of_mem h)
  · exact .inr (e.afterHour.isBlank c h)
  · exact .inl (isFieldChar_of_mem h)
  · exact .inr (e.afterDayOfMonth.isBlank c h)
  · exact .inl (isFieldChar_of_mem h)
  · exact .inr (e.afterMonth.isBlank c h)
  · exact .inl (isFieldChar_of_mem h)

theorem isLineTerminator_of_mem {e : Expression} {c : Char} (h : c ∈ e.fieldsText) :
    isLineTerminator c = false := by
  rcases mem_fieldsText h with hc | hc
  · by_contra hline
    have hblank : isWhiteSpace c = true := by
      simp only [isLineTerminator, Bool.not_eq_false, Bool.or_eq_true, decide_eq_true_eq] at hline
      rcases hline with ((rfl | rfl) | hline) | hline
      · decide
      · decide
      · simp [isWhiteSpace, hline]
      · simp [isWhiteSpace, hline]
    rw [not_whiteSpace_of_isFieldChar hc] at hblank
    cases hblank
  · exact hc.2

theorem paren_not_mem_fieldsText {e : Expression} {c : Char} (hc : c = '(' ∨ c = ')') :
    c ∉ e.fieldsText := by
  intro h
  rcases hc with rfl | rfl <;> rcases mem_fieldsText h with hc | hc <;>
    exact absurd hc (by decide)

/-- The text of the fields begins and ends with words. -/
theorem trimChars_fieldsText (e : Expression) {blanks : List Char}
    (h : ∀ c ∈ blanks, isWhiteSpace c = true) :
    trimChars (e.fieldsText ++ blanks) = e.fieldsText := by
  have hsplit : ∃ middle, e.fieldsText = e.minute.text ++ middle ++ e.dayOfWeek.text :=
    ⟨e.afterMinute.blanks ++ (e.hour.text ++ e.afterHour.blanks ++ (e.dayOfMonth.text ++
      e.afterDayOfMonth.blanks ++ (e.month.text ++ e.afterMonth.blanks))),
      by simp [Expression.fieldsText]⟩
  obtain ⟨middle, hmiddle⟩ := hsplit
  rw [hmiddle]
  exact trimChars_append middle (fieldText_ne_nil _) (fieldText_ne_nil _)
    (fun c hc => not_whiteSpace_of_isFieldChar (isFieldChar_of_mem hc))
    (fun c hc => not_whiteSpace_of_isFieldChar (isFieldChar_of_mem hc)) h

theorem fieldsText_ne_nil (e : Expression) : e.fieldsText ≠ [] := by
  rw [Expression.fieldsText, List.append_assoc]
  exact List.append_ne_nil_of_left_ne_nil (fieldText_ne_nil _) _

/-- The suffix is dropped. -/
theorem normalize_text (e : Expression) : normalizeCronExpression e.text = e.fieldsText := by
  have hfields : trimChars e.fieldsText = e.fieldsText := by
    have htrim : trimChars (e.fieldsText ++ []) = e.fieldsText :=
      trimChars_fieldsText e (by simp)
    rwa [List.append_nil] at htrim
  cases hsuffix : e.suffix with
  | none =>
    have htext : e.text = e.fieldsText := by
      rw [Expression.text, hsuffix, Expression.suffixText, List.append_nil]
    have hnone : tzSuffixMatch e.fieldsText = none := by
      rw [tzSuffixMatch, Option.map_eq_none_iff, List.find?_eq_none]
      intro n hn hmatch
      rw [Bool.and_eq_true] at hmatch
      exact paren_not_mem_fieldsText (.inr rfl)
        (List.mem_of_mem_drop (paren_mem_of_isSuffix hmatch.2).2)
    rw [htext, normalizeCronExpression, hfields]
    simp only [hnone, hfields]
  | some suffix =>
    -- the blanks before the parenthesis, of which the suffix takes the last
    obtain ⟨blanks, b, hblanks⟩ : ∃ blanks b, suffix.gap.blanks = blanks ++ [b] := by
      rcases suffix.gap.blanks.eq_nil_or_concat with hnil | ⟨blanks, b, hconcat⟩
      · exact absurd hnil suffix.gap.nonempty
      · exact ⟨blanks, b, by simpa using hconcat⟩
    have hwhite : ∀ c ∈ blanks, isWhiteSpace c = true := fun c hc =>
      suffix.gap.isWhiteSpace_of_mem (by simp [hblanks, hc])
    have hb : isWhiteSpace b = true := suffix.gap.isWhiteSpace_of_mem (by simp [hblanks])
    obtain ⟨hopen, hclose⟩ := suffix.noParentheses
    have htext : e.text = (e.fieldsText ++ blanks) ++ (b :: '(' :: suffix.name ++ [')']) := by
      rw [Expression.text, hsuffix, Expression.suffixText, hblanks]
      simp
    have htrim : trimChars e.text = e.text := by
      obtain ⟨middle, heq⟩ : ∃ middle, e.text = e.minute.text ++ middle ++ [')'] :=
        ⟨e.afterMinute.blanks ++ (e.hour.text ++ e.afterHour.blanks ++ (e.dayOfMonth.text ++
          e.afterDayOfMonth.blanks ++ (e.month.text ++ e.afterMonth.blanks ++
            e.dayOfWeek.text))) ++ (suffix.gap.blanks ++ '(' :: suffix.name), by
          rw [Expression.text, hsuffix, Expression.suffixText, Expression.fieldsText]
          simp⟩
      have hfull : trimChars (e.minute.text ++ middle ++ [')'] ++ []) =
          e.minute.text ++ middle ++ [')'] :=
        trimChars_append middle (fieldText_ne_nil _) (by simp)
          (fun c hc => not_whiteSpace_of_isFieldChar (isFieldChar_of_mem hc))
          (List.forall_mem_singleton.mpr rfl) (by simp)
      rw [List.append_nil] at hfull
      rw [heq, hfull]
    have hmatch : tzSuffixMatch e.text = some (e.fieldsText ++ blanks) := by
      have hfind := find?_reverse_range (n := (e.fieldsText ++ blanks).length)
        (N := e.text.length + 1)
        (p := fun n => (e.text.take n).all (!isLineTerminator ·) && isSuffix (e.text.drop n))
        (by rw [htext]; simp only [List.length_append]; omega) ?_ ?_
      · rw [tzSuffixMatch, hfind, Option.map_some, htext, List.take_left]
      · rw [htext, List.take_left, List.drop_left, isSuffix_of_name hb suffix.nonempty hclose,
          Bool.and_true, List.all_eq_true]
        intro c hc
        rcases List.mem_append.mp hc with hc | hc
        · rw [isLineTerminator_of_mem hc]
          rfl
        · rw [(suffix.gap.isBlank c (by simp [hblanks, hc])).2]
          rfl
      · intro m hm hlength
        have hnot : isSuffix (e.text.drop m) = false := by
          by_contra hcontra
          have hparen := (paren_mem_of_isSuffix (Bool.not_eq_false _ ▸ hcontra)).1
          obtain ⟨k, rfl⟩ : ∃ k, m = (e.fieldsText ++ blanks).length + (k + 1) :=
            ⟨m - (e.fieldsText ++ blanks).length - 1, by omega⟩
          rw [htext, ← List.drop_drop, List.drop_left, List.cons_append, List.drop_succ_cons,
            List.tail_drop, List.cons_append, List.drop_succ_cons] at hparen
          have hmem := List.mem_of_mem_drop hparen
          simp [hopen] at hmem
        rw [hnot, Bool.and_false]
    rw [normalizeCronExpression, htrim]
    simp only [hmatch]
    obtain ⟨c, cs, hcons⟩ := List.exists_cons_of_ne_nil
      (List.append_ne_nil_of_left_ne_nil (fieldsText_ne_nil e) blanks)
    rw [hcons]
    simp only [← hcons]
    exact trimChars_fieldsText e hwhite

/-- The fields are read as the grammar has them. -/
structure Reads (parsed : ParsedCron) (e : Expression) : Prop where
  minute : Agrees parsed.minute e.minute
  hour : Agrees parsed.hour e.hour
  dayOfMonth : Agrees parsed.dayOfMonth e.dayOfMonth
  month : Agrees parsed.month e.month
  dayOfWeek : Agrees parsed.dayOfWeek e.dayOfWeek

theorem parseCron_text {e : Expression} (h : e.FiniteSteps) :
    ∃ fuel parsed, parseCron fuel e.text = some (some parsed) ∧ Reads parsed e := by
  obtain ⟨f₁, minute, hminute, hm⟩ := parseToken_text (by norm_num) h.minute
  obtain ⟨f₂, hour, hhour, hh⟩ := parseToken_text (by norm_num) h.hour
  obtain ⟨f₃, dayOfMonth, hdayOfMonth, hd⟩ := parseToken_text (by norm_num) h.dayOfMonth
  obtain ⟨f₄, month, hmonth, hmo⟩ := parseToken_text (by norm_num) h.month
  obtain ⟨f₅, dayOfWeek, hdayOfWeek, hw⟩ := parseToken_text (by norm_num) h.dayOfWeek
  obtain ⟨fuel, hfuel⟩ : ∃ fuel, fuel = f₁ + f₂ + f₃ + f₄ + f₅ := ⟨_, rfl⟩
  have h₁ : f₁ ≤ fuel := by omega
  have h₂ : f₂ ≤ fuel := by omega
  have h₃ : f₃ ≤ fuel := by omega
  have h₄ : f₄ ≤ fuel := by omega
  have h₅ : f₅ ≤ fuel := by omega
  refine ⟨fuel, ⟨minute, hour, dayOfMonth, month, dayOfWeek⟩, ?_, ⟨hm, hh, hd, hmo, hw⟩⟩
  have hwords := wordsOf_fieldsText e
  rw [wordsOf] at hwords
  rw [parseCron, normalize_text, hwords]
  simp only [parseToken_mono h₁ hminute, parseToken_mono h₂ hhour, parseToken_mono h₃ hdayOfMonth,
    parseToken_mono h₄ hmonth, parseToken_mono h₅ hdayOfWeek]
  rfl

/-- The condition of the loop is that local minute, hour, month and day match. -/
theorem Reads.isDue_iff {parsed : ParsedCron} {e : Expression} (h : Reads parsed e) (l : Int) :
    isDue parsed l = true ↔ e.Matches l := by
  have hday : matchesDay parsed l = true ↔ e.DayMatches l := by
    have hmonthDay := h.dayOfMonth.values (date (dayOfTime l))
    have hweekDay := h.dayOfWeek.values (weekDay (dayOfTime l))
    have hmonthStar := h.dayOfMonth.any
    have hweekStar := h.dayOfWeek.any
    unfold matchesDay Expression.DayMatches
    rw [← hmonthDay, ← hweekDay, ← hmonthStar, ← hweekStar]
    cases parsed.dayOfMonth.any <;> cases parsed.dayOfWeek.any <;> simp
  rw [isDue, Bool.and_eq_true, Bool.and_eq_true, Bool.and_eq_true, h.month.values, hday,
    h.hour.values, h.minute.values, Expression.Matches]
  constructor
  · rintro ⟨⟨⟨hmonth, hday⟩, hhour⟩, hminute⟩
    exact ⟨hminute, hhour, hmonth, hday⟩
  · rintro ⟨hminute, hhour, hmonth, hday⟩
    exact ⟨⟨⟨hmonth, hday⟩, hhour⟩, hminute⟩

end MissionControl.Cron.Expressions
