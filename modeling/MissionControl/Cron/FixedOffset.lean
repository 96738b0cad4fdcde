import MissionControl.Cron.Expressions

/-!
At a fixed offset, `getCronOccurrences` returns the first of the local minutes that match a cron
expression, all of them up to the limit. A step that is too large for a number is passed over with
its part, and a start whose minute begins before the range of dates has no occurrences.
-/

set_option autoImplicit false
set_option relaxedAutoImplicit false

namespace MissionControl.Cron.FixedOffset

open MissionControl.Foundations
open Calendar (maxTime timeClip trunc)
open Numbers (Number)
open Occurrences Expressions TimeZones

/-- The first `max` of the local minutes in the range that match are returned, in their order. -/
def FirstOccurrences (offset : Int) (e : Expression) (start finish : ℚ) (max : Nat) : Prop :=
  ∃ instants : List Int, instants.Pairwise (· < ·) ∧
    (∀ t, t ∈ instants ↔
      start ≤ t ∧ t < finish ∧ (t + offset) % 60000 = 0 ∧ e.Matches (t + offset)) ∧
    ∃ least, ∀ fuel, least ≤ fuel →
      getCronOccurrences fuel (.fixed offset) (String.ofList e.text) (.finite start)
        (.finite finish) (.finite max) =
      some ((instants.take max).map (occurrence (.fixed offset)))

section

variable {offset : Int} {start finish : ℚ}

theorem nextMinute_fixed {t : Int} (h : (t + offset) % 60000 = 0) :
    nextMinute (.fixed offset) (some t) =
      if -maxTime ≤ t + 60000 ∧ t + 60000 ≤ maxTime then some (t + 60000) else none := by
  have hminute : minuteStart (t + offset) + 60000 - offset = t + 60000 := by
    unfold minuteStart
    omega
  rw [nextMinute, Option.bind_some, setMinutes_succ, localTime_fixed, utc_fixed, hminute,
    timeClip_intCast]

/-- The loop leaves no local minute out. -/
theorem mem_of_visits (hfinish : finish ≤ maxTime) {cursor : Option Int} {ts : List Int}
    (h : Visits (.fixed offset) finish cursor ts) {t : Int} (hcursor : cursor = some t)
    (hrange : -maxTime ≤ t) (ht : (t + offset) % 60000 = 0) {m : Int}
    (hm : (m + offset) % 60000 = 0) (hle : t ≤ m) (hlt : (m : ℚ) < finish) : m ∈ ts := by
  induction h generalizing t with
  | invalid => cases hcursor
  | ended hend =>
    obtain rfl := Option.some.inj hcursor
    have hcontra : (m : ℚ) < m := lt_of_lt_of_le hlt (hend.trans (by exact_mod_cast hle))
    exact absurd hcontra (lt_irrefl _)
  | @minute u ts hbefore hrest ih =>
    obtain rfl := Option.some.inj hcursor
    by_cases heq : m = u
    · rw [heq]
      exact List.mem_cons_self
    · have hnext : u + 60000 ≤ m := by omega
      have hbelow : m < maxTime := by exact_mod_cast hlt.trans_le hfinish
      refine List.mem_cons_of_mem u (ih ?_ (by omega) (by omega) hnext)
      rw [nextMinute_fixed ht, if_pos ⟨by omega, by omega⟩]

theorem exists_visits_of_whole (offset : Int) (hfinish : finish ≤ maxTime) {t : Int} (hrange : -maxTime ≤ t)
    (ht : (t + offset) % 60000 = 0) :
    ∃ ts, Visits (.fixed offset) finish (some t) ts ∧ ts.Pairwise (· < ·) ∧
      ∀ m, m ∈ ts ↔ t ≤ m ∧ (m : ℚ) < finish ∧ (m + offset) % 60000 = 0 := by
  have hstep : ∀ u, (u + offset) % 60000 = 0 → (u : ℚ) < finish → ∀ u',
      nextMinute (.fixed offset) (some u) = some u' → u < u' ∧ (u' + offset) % 60000 = 0 := by
    intro u hu hbefore u' hnext
    rw [nextMinute_fixed hu] at hnext
    split at hnext
    · obtain rfl := Option.some.inj hnext
      omega
    · cases hnext
  obtain ⟨ts, hvisits, hpairwise, hall⟩ := exists_visits hstep ht
  refine ⟨ts, hvisits, hpairwise, fun m => ⟨fun hm => hall m hm, ?_⟩⟩
  rintro ⟨hle, hlt, hwhole⟩
  exact mem_of_visits hfinish hvisits rfl hrange ht hwhole hle hlt

/-- From the first cursor on the loop visits the local minutes of the range. -/
theorem exists_visits_of_start (offset : Int) (hstart : -(maxTime : ℚ) ≤ start ∧ start ≤ maxTime)
    (hfinish : finish ≤ maxTime)
    (hminute : -maxTime ≤ minuteStart (trunc start + offset) - offset) :
    ∃ ts, Visits (.fixed offset) finish (firstCursor (.fixed offset) start) ts ∧
      ts.Pairwise (· < ·) ∧
      ∀ m, m ∈ ts ↔ start ≤ m ∧ (m : ℚ) < finish ∧ (m + offset) % 60000 = 0 := by
  obtain ⟨hlow, hhigh⟩ := trunc_bounds start
  obtain ⟨c, hc⟩ : ∃ c, minuteStart (trunc start + offset) - offset = c := ⟨_, rfl⟩
  have hwhole : (c + offset) % 60000 = 0 := by
    unfold minuteStart at hc
    omega
  have hnear : c ≤ trunc start ∧ trunc start < c + 60000 := by
    unfold minuteStart at hc
    omega
  have hceiling : c ≤ maxTime := by
    have hle : (trunc start : ℚ) < (maxTime + 1 : Int) := by
      push_cast
      linarith [hstart.2]
    have hle' : trunc start < maxTime + 1 := by exact_mod_cast hle
    omega
  have hcursor : setSeconds (.fixed offset) 0 0 (timeClip (.finite start)) = some c := by
    rw [timeClip, if_pos hstart, setSeconds_zero, localTime_fixed, utc_fixed, hc, timeClip_intCast,
      if_pos ⟨hc ▸ hminute, hceiling⟩]
  unfold firstCursor
  simp only [hcursor, Option.any_some, decide_eq_true_eq]
  by_cases hbefore : (c : ℚ) < start
  · -- the minute of the start has begun before it
    rw [if_pos hbefore, nextMinute_fixed hwhole]
    have hmore : ∀ m : Int, (m + offset) % 60000 = 0 → (start ≤ m ↔ c + 60000 ≤ m) := by
      intro m hm
      constructor
      · intro hle
        have hlt : c < m := by exact_mod_cast hbefore.trans_le hle
        omega
      · intro hle
        have hlt : trunc start + 1 ≤ m := by omega
        have hlt' : ((trunc start + 1 : Int) : ℚ) ≤ m := by exact_mod_cast hlt
        push_cast at hlt'
        linarith
    by_cases hrange : -maxTime ≤ c + 60000 ∧ c + 60000 ≤ maxTime
    · rw [if_pos hrange]
      obtain ⟨ts, hvisits, hpairwise, hmem⟩ :=
        exists_visits_of_whole offset hfinish hrange.1 (by omega)
      refine ⟨ts, hvisits, hpairwise, fun m => ?_⟩
      rw [hmem]
      constructor
      · rintro ⟨hle, hlt, hm⟩
        exact ⟨(hmore m hm).mpr hle, hlt, hm⟩
      · rintro ⟨hle, hlt, hm⟩
        exact ⟨(hmore m hm).mp hle, hlt, hm⟩
    · rw [if_neg hrange]
      refine ⟨[], .invalid, .nil, fun m => ?_⟩
      simp only [List.not_mem_nil, false_iff]
      rintro ⟨hle, hlt, hm⟩
      have hnext := (hmore m hm).mp hle
      have hbelow : m < maxTime := by exact_mod_cast hlt.trans_le hfinish
      omega
  · rw [if_neg hbefore]
    obtain ⟨ts, hvisits, hpairwise, hmem⟩ :=
      exists_visits_of_whole offset hfinish (hc ▸ hminute) hwhole
    refine ⟨ts, hvisits, hpairwise, fun m => ?_⟩
    rw [hmem]
    constructor
    · rintro ⟨hle, hlt, hm⟩
      exact ⟨(not_lt.mp hbefore).trans (by exact_mod_cast hle), hlt, hm⟩
    · rintro ⟨hle, hlt, hm⟩
      refine ⟨?_, hlt, hm⟩
      by_contra hcontra
      have hfar : m + 60000 ≤ c := by omega
      have hfar' : ((m + 60000 : Int) : ℚ) ≤ trunc start := by exact_mod_cast hfar.trans hnear.1
      push_cast at hfar'
      linarith

end

/-- With an offset of whole minutes no minute of a date begins before the range of dates. -/
theorem minuteStart_of_whole {offset t : Int} (hoffset : offset % 60000 = 0)
    (ht : -maxTime ≤ t) : -maxTime ≤ minuteStart (t + offset) - offset := by
  unfold minuteStart
  unfold maxTime at ht ⊢
  omega

/-- At a fixed offset the first local minutes of the range that match are found, in order, if
every step is finite as a number and the minute of the start begins within the range of dates. -/
theorem first_occurrences (offset : Int) (e : Expression) (start finish : ℚ) (max : Nat)
    (hstart : -(maxTime : ℚ) ≤ start ∧ start ≤ maxTime)
    (hfinish : -(maxTime : ℚ) ≤ finish ∧ finish ≤ maxTime) (hmax : 1 ≤ max)
    (hsteps : e.FiniteSteps)
    (hminute : -maxTime ≤ minuteStart (trunc start + offset) - offset) :
    FirstOccurrences offset e start finish max := by
  obtain ⟨enough, parsed, hparsed, hreads⟩ := parseCron_text hsteps
  obtain ⟨ts, hvisits, hpairwise, hmem⟩ :=
    exists_visits_of_start offset hstart hfinish.2 hminute
  refine ⟨ts.filter fun t => isDue parsed ((Zone.fixed offset).localTime t), hpairwise.filter _,
    fun t => ?_, enough + ts.length + 1, fun fuel hfuel => ?_⟩
  · rw [List.mem_filter, hmem, localTime_fixed, hreads.isDue_iff, and_assoc, and_assoc]
  · have hne : String.ofList e.text ≠ "" := by
      intro hempty
      have hnil : e.text = [] := by simpa using congrArg String.toList hempty
      rw [Expression.text, List.append_eq_nil_iff] at hnil
      exact fieldsText_ne_nil e hnil.1
    have hpositive : Number.le (.finite (max : ℚ)) (.finite 0) = false := by
      have hlt : (0 : ℚ) < max := by exact_mod_cast hmax
      simp [Number.le, Number.lt, hlt]
    have hlimit : limit (.finite (max : ℚ)) ts.length = max := by simp [limit]
    rw [getCronOccurrences]
    by_cases hempty : finish ≤ start
    · have hnone : ts = [] := by
        rw [List.eq_nil_iff_forall_not_mem]
        intro m hm
        obtain ⟨hle, hlt, -⟩ := (hmem m).mp hm
        linarith
      rw [if_pos (.inr (.inl hempty)), hnone]
      simp
    · rw [if_neg (by simp [hne, hempty, hpositive]), String.toList_ofList,
        parseCron_mono (by omega) hparsed]
      simp only
      rw [collect_of_visits parsed _ hvisits (by omega) [] ts.length (by simp), hlimit]
      simp

/-! ### Runs -/

def one : Numeral := ⟨['1'], by simp, by simp⟩

def blank : Gap := ⟨[' '], by simp, List.forall_mem_singleton.mpr ⟨rfl, rfl⟩⟩

/-- Every minute whose number the field matches. -/
def everyHour (minute : Field 0 59) : Expression :=
  { minute := minute, afterMinute := blank, hour := ⟨.all none, []⟩, afterHour := blank,
    dayOfMonth := ⟨.all none, []⟩, afterDayOfMonth := blank, month := ⟨.all none, []⟩,
    afterMonth := blank, dayOfWeek := ⟨.all none, []⟩, suffix := none }

theorem finiteSteps_everyHour {minute : Field 0 59} (h : minute.Finite) :
    (everyHour minute).FiniteSteps :=
  ⟨h, by simp [everyHour, Field.Finite, Field.parts, Part.Finite, stepFinite],
    by simp [everyHour, Field.Finite, Field.parts, Part.Finite, stepFinite],
    by simp [everyHour, Field.Finite, Field.parts, Part.Finite, stepFinite],
    by simp [everyHour, Field.Finite, Field.parts, Part.Finite, stepFinite]⟩

/-- `*/30 * * * *` -/
def halfHours : Expression :=
  everyHour ⟨.all (some ⟨⟨['3', '0'], by simp, by simp⟩, by decide⟩), []⟩

/-- Three hours from the middle of a minute on. -/
theorem first_occurrences_halfHours : FirstOccurrences 0 halfHours 30000 10800000 1000 := by
  have hthirty : halfHours.minute.Finite := by
    intro part hpart
    obtain rfl := List.mem_singleton.mp hpart
    exact ⟨30, by decide +kernel⟩
  exact first_occurrences 0 halfHours 30000 10800000 1000 (by norm_num [maxTime])
    (by norm_num [maxTime]) (by norm_num) (finiteSteps_everyHour hthirty) (by decide +kernel)

/-- A step of 310 digits, `10 ^ 309`. -/
def hugeStep : Step :=
  ⟨⟨'1' :: List.replicate 309 '0', List.cons_ne_nil _ _, by
      intro c hc
      rcases List.mem_cons.mp hc with rfl | hc
      · rfl
      · rw [(List.mem_replicate.mp hc).2]
        rfl⟩, by decide +kernel⟩

def hugeSteps : Expression := everyHour ⟨.all (some hugeStep), []⟩

/-- `* * * * *` -/
def everyMinute : Expression := everyHour ⟨.all none, []⟩

theorem matches_everyHour {minute : Field 0 59} {l : Int}
    (h : minute.Matches (minFromTime l).toNat) : (everyHour minute).Matches l := by
  have hhour : (hourFromTime l).toNat ≤ 23 := by
    unfold hourFromTime
    omega
  have hmonth := Calendar.month_lt (Calendar.dayOfTime l)
  refine ⟨h, ⟨.all none, by simp [everyHour, Field.parts], ?_⟩,
    ⟨.all none, by simp [everyHour, Field.parts], ?_⟩, .inl ⟨⟨rfl, rfl⟩, ⟨rfl, rfl⟩⟩⟩
  · simp [Part.Matches, stepValue, Nat.mod_one, hhour]
  · refine ⟨by omega, by omega, by simp [stepValue, Nat.mod_one]⟩

/-- A schedule that is never due has no occurrences. -/
theorem collect_of_never_due {zone : Zone} {parsed : ParsedCron} {rangeEndMs : ℚ} {max : Number}
    (h : ∀ l, isDue parsed l = false) {fuel : Nat} {cursor : Option Int}
    {occurrences rows : List CronOccurrence}
    (hrows : collect zone parsed rangeEndMs max fuel cursor occurrences = some rows) :
    rows = occurrences := by
  induction fuel generalizing cursor with
  | zero => cases hrows
  | succ fuel ih =>
    cases cursor with
    | none => exact (Option.some.inj hrows).symm
    | some t =>
      rw [collect, h] at hrows
      split at hrows
      · exact ih hrows
      · exact (Option.some.inj hrows).symm

theorem parsed_hugeSteps {fuel : Nat} {parsed : ParsedCron}
    (h : parseCron fuel hugeSteps.text = some (some parsed)) (l : Int) :
    isDue parsed l = false := by
  have hpart : parsePart 0 59 (Part.all (some hugeStep) : Part 0 59).text = .nothing := by
    decide +kernel
  have hnostar : hugeSteps.minute.text ≠ ['*'] := by decide
  have hwords := wordsOf_fieldsText hugeSteps
  rw [wordsOf] at hwords
  rw [parseCron, normalize_text, hwords] at h
  simp only [Option.bind_eq_bind, Option.bind_eq_some_iff, Option.pure_def, Option.some.injEq] at h
  obtain ⟨minute, hminute, hour, -, day, -, month, -, weekDay, -, rfl⟩ := h
  have htrim : JsText.trimChars hugeSteps.minute.text = hugeSteps.minute.text :=
    JsText.trimChars_of_words fun c hc => not_whiteSpace_of_isFieldChar (isFieldChar_of_mem hc)
  have hsplit : hugeSteps.minute.text.splitOn ',' = [(Part.all (some hugeStep) : Part 0 59).text] :=
    splitOn_text hugeSteps.minute
  rw [parseToken] at hminute
  simp only [htrim, if_neg hnostar, hsplit, List.mapM_cons, List.mapM_nil, hpart,
    Additions.values, Option.bind_eq_bind, Option.bind_some, Option.pure_def, Option.map_some,
    Option.some.injEq] at hminute
  simp [isDue, ← hminute, ParsedField.matches]

/-- The step is passed over, and so is every minute where the first begins before the dates. -/
theorem occurrences_missed : ¬FirstOccurrences 0 hugeSteps 0 3600000 1 ∧
    ¬FirstOccurrences 1 everyMinute (-maxTime) maxTime 1 := by
  constructor
  · rintro ⟨instants, -, hmem, least, hruns⟩
    have hzero : (0 : Int) ∈ instants := by
      refine (hmem 0).mpr ⟨by norm_num, by norm_num, by norm_num, matches_everyHour ?_⟩
      have hminute : (minFromTime (0 + 0)).toNat = 0 := by decide
      rw [hminute]
      refine ⟨.all (some hugeStep), List.mem_singleton_self _, le_rfl, Nat.zero_le _, ?_⟩
      rw [Nat.sub_self, Nat.zero_mod]
    have hrun := hruns least le_rfl
    rw [getCronOccurrences, if_neg (by decide +kernel), String.toList_ofList] at hrun
    split at hrun
    · cases hrun
    · rename_i hparsed
      have hrows := Option.some.inj hrun
      cases instants with
      | nil => cases hzero
      | cons t instants => simp at hrows
    · rename_i parsed hparsed
      have hrows := collect_of_never_due (parsed_hugeSteps hparsed) hrun
      cases instants with
      | nil => cases hzero
      | cons t instants => simp at hrows
  · rintro ⟨instants, -, hmem, least, hruns⟩
    have hfirst : -maxTime + 59999 ∈ instants := by
      refine (hmem _).mpr ⟨by norm_num, by norm_num [maxTime], by decide, matches_everyHour ?_⟩
      exact ⟨.all none, List.mem_singleton_self _, Nat.zero_le _, by decide, by decide⟩
    have hcursor : firstCursor (.fixed 1) (-(maxTime : ℚ)) = none := by decide +kernel
    have hrun := hruns (least + 1) (Nat.le_succ least)
    rw [getCronOccurrences, if_neg (by decide +kernel), hcursor] at hrun
    split at hrun
    · cases hrun
    · have hrows := Option.some.inj hrun
      cases instants with
      | nil => cases hfirst
      | cons t instants => simp at hrows
    · have hrows := Option.some.inj hrun
      cases instants with
      | nil => cases hfirst
      | cons t instants => simp at hrows

end MissionControl.Cron.FixedOffset
