import Mathlib.Tactic.NormNum
import MissionControl.Cron.Occurrences

/-!
What `getCronOccurrences` returns in a zone whose clock changes: in order and within the range,
unless the range starts when the clock shows a time again that it showed before. The minute of the
start then denotes an earlier instant, and the loop begins there.
-/

set_option autoImplicit false
set_option relaxedAutoImplicit false

namespace MissionControl.Cron.ClockChanges

open MissionControl.Foundations
open Calendar (maxTime timeClip trunc)
open Doubles (double)
open Numbers (Number)
open Occurrences TimeZones

/-- The call comes to an end, what it returns is in the range, and each is later than the last. -/
def Contained (zone : Zone) (schedule : String) (start finish max : Number) : Prop :=
  ∃ rows, (∃ least, ∀ fuel, least ≤ fuel →
      getCronOccurrences fuel zone schedule start finish max = some rows) ∧
    (∀ row ∈ rows, Number.le start (.finite row.atMs) = true ∧
      Number.lt (.finite row.atMs) finish = true) ∧
    rows.Pairwise fun row row' => row.atMs < row'.atMs

/-- The local minute in which a range starts. -/
def startMinute (zone : Zone) (start : ℚ) : Int := minuteStart (zone.localTime (trunc start))

/-- From the minute of the start on local times are read forward, and up to those that denote
instants before the start none is skipped. -/
structure Steady (zone : Zone) (start : ℚ) : Prop where
  forward : ∀ l, startMinute zone start ≤ l → zone.Forward l
  shown : ∀ m m', m % 60000 = 0 → m' % 60000 = 0 → startMinute zone start ≤ m' → m' ≤ m →
    (zone.utc m : ℚ) < start → zone.localTime (zone.utc m') = m'

/-- Where the guards let a call pass, the fields are read to their end, and no minute after the
start's own is due at an instant before the start. -/
def StartsFirst (zone : Zone) (schedule : String) (start finish max : Number) : Prop :=
  ∀ x y, start = .finite x → finish = .finite y → schedule ≠ "" → x < y →
    Number.le max (.finite 0) = false →
    ∃ fuel result, parseCron fuel schedule.toList = some result ∧
      ∀ parsed, result = some parsed → Number.lt (.finite 0) max = true →
        -(maxTime : ℚ) ≤ x → x ≤ maxTime → -maxTime ≤ zone.utc (startMinute zone x) →
        ∀ m, m % 60000 = 0 → startMinute zone x < m → (zone.utc m : ℚ) < x →
          isDue parsed (zone.localTime (zone.utc m)) = false

/-! ### Fields that are read to their end -/

/-- A step that is lost in the sum keeps the loop at one value for good. -/
theorem steps_stuck {step stop i : ℚ} (hlost : double (i + step) = .finite i) (hi : i ≤ stop)
    (fuel : Nat) : steps step stop fuel (.finite i) = none := by
  induction fuel with
  | zero => rfl
  | succ fuel ih => rw [steps, if_pos hi, hlost, ih, Option.map_none]

/-- What a step that is not too small adds is at least half of it. -/
theorem add_half_le_double {step i z : ℚ} (hstep : 1 / 2 ^ 47 ≤ step) (hi : 0 ≤ i)
    (hsum : double (i + step) = .finite z) (hz : z < 60) : i + 1 / 2 ^ 48 ≤ z := by
  have hpositive : (0 : ℚ) < 1 / 2 ^ 47 := by norm_num
  have hbelow : i + step < 2 ^ (6 : Int) := by
    by_contra hnot
    have hlarge : ((60 : Nat) : ℚ) ≤ i + step := by
      norm_num at hnot ⊢
      linarith
    have hcontra := Doubles.natCast_le_of_double (by norm_num) hlarge hsum
    push_cast at hcontra
    linarith
  have hrounded : z = Doubles.rounded (i + step) := by
    unfold double at hsum
    split at hsum
    · exact (Number.finite.inj hsum).symm
    · cases hsum
  have hless := Doubles.sub_le_rounded (k := 6) (by norm_num) (by linarith) hbelow
  rw [← hrounded] at hless
  norm_num at hless hstep ⊢
  linarith

theorem exists_steps_of_le {step stop i : ℚ} (hstep : 1 / 2 ^ 47 ≤ step) (hstop : stop ≤ 59)
    (hi : 0 ≤ i) : ∃ fuel values, steps step stop fuel (.finite i) = some values := by
  obtain ⟨n, hn⟩ : ∃ n, ⌈(60 - i) * 2 ^ 48⌉₊ = n := ⟨_, rfl⟩
  induction n using Nat.strongRecOn generalizing i with
  | ind n ih =>
    by_cases hle : i ≤ stop
    · obtain ⟨fuel, values, hrest⟩ : ∃ fuel values, steps step stop fuel (double (i + step)) =
          some values := by
        cases hsum : double (i + step) with
        | nan => exact ⟨1, [], rfl⟩
        | infinite negative => exact ⟨1, [], rfl⟩
        | finite z =>
          by_cases hz : z ≤ stop
          · have hmore := add_half_le_double hstep hi hsum (by linarith)
            have hnonneg : (0 : ℚ) ≤ z := by
              have hpositive : (0 : ℚ) < 1 / 2 ^ 48 := by norm_num
              linarith
            refine ih ⌈(60 - z) * 2 ^ 48⌉₊ ?_ hnonneg rfl
            have hceil := Nat.ceil_lt_add_one (a := (60 - z) * 2 ^ 48)
              (mul_nonneg (by linarith) (by norm_num))
            rw [← hn, Nat.lt_ceil]
            norm_num at hmore hceil ⊢
            linarith
          · exact ⟨1, [], by rw [steps, if_neg hz]⟩
      exact ⟨fuel + 1, i :: values, by rw [steps, if_pos hle, hrest, Option.map_some]⟩
    · exact ⟨1, [], by rw [steps, if_neg hle]⟩

theorem clamp_bounds {low high : Nat} (h : low ≤ high) (x : ℚ) :
    (low : ℚ) ≤ clamp low high x ∧ clamp low high x ≤ high := by
  have hcast : (low : ℚ) ≤ high := by exact_mod_cast h
  exact ⟨le_max_left _ _, max_le hcast (min_le_left _ _)⟩

theorem parsePart_bounds {low high : Nat} (h : low ≤ high) {part : List Char}
    {step start stop : ℚ} (hpart : parsePart low high part = .loop step start stop) :
    (low : ℚ) ≤ start ∧ stop ≤ high := by
  have hrange : ∀ step' rangePart, parseRange low high step' rangePart = .loop step start stop →
      (low : ℚ) ≤ start ∧ stop ≤ high := by
    intro step' rangePart hread
    unfold parseRange at hread
    split at hread
    · obtain ⟨-, rfl, rfl⟩ := Additions.loop.inj hread
      exact ⟨le_rfl, le_rfl⟩
    · split at hread
      · split at hread
        · obtain ⟨-, rfl, rfl⟩ := Additions.loop.inj hread
          exact ⟨(clamp_bounds h _).1, (clamp_bounds h _).2⟩
        · cases hread
      · split at hread
        · split at hread <;> cases hread
        · cases hread
  simp only [parsePart] at hpart
  split at hpart
  · cases hpart
  · split at hpart
    · split at hpart
      · cases hpart
      · exact hrange _ _ hpart
    · cases hpart

/-- No part of the text has a step that is lost in sums. -/
def LargeSteps (token : List Char) : Prop :=
  ∀ part ∈ (JsText.trimChars token).splitOn ',', ∀ low high step start stop,
    parsePart low high part = .loop step start stop → 1 / 2 ^ 47 ≤ step

theorem exists_parseToken {low high : Nat} (hlow : low ≤ high) (hhigh : high ≤ 59)
    {token : List Char} (h : LargeSteps token) :
    ∃ fuel field, parseToken fuel low high token = some field := by
  have hbound : (high : ℚ) ≤ 59 := by exact_mod_cast hhigh
  unfold parseToken
  simp only
  split
  · obtain ⟨fuel, values, hvalues⟩ := exists_steps_of_le (show (1 : ℚ) / 2 ^ 47 ≤ 1 by norm_num)
      hbound (Nat.cast_nonneg low)
    exact ⟨fuel, _, by rw [hvalues, Option.map_some]⟩
  · have hparts : ∀ part ∈ (JsText.trimChars token).splitOn ',', ∃ fuel,
        ((parsePart low high part).values fuel).isSome = true := by
      intro part hpart
      cases hread : parsePart low high part with
      | nothing => exact ⟨0, rfl⟩
      | single value => exact ⟨0, rfl⟩
      | loop step start stop =>
        obtain ⟨hstart, hstop⟩ := parsePart_bounds hlow hread
        obtain ⟨fuel, values, hvalues⟩ := exists_steps_of_le (h part hpart _ _ _ _ _ hread)
          (hstop.trans hbound) ((Nat.cast_nonneg low).trans hstart)
        exact ⟨fuel, by rw [Additions.values, hvalues]; rfl⟩
    obtain ⟨fuel, hfuel⟩ := exists_fuel
      (P := fun fuel part => ((parsePart low high part).values fuel).isSome = true)
      (by
        intro part n m hnm hsome
        obtain ⟨values, hvalues⟩ := Option.isSome_iff_exists.mp hsome
        rw [values_mono hnm hvalues]
        rfl) hparts
    obtain ⟨lists, hlists⟩ := Lists.exists_mapM.mpr hfuel
    exact ⟨fuel, _, by rw [hlists, Option.map_some]⟩

/-- A schedule without steps that are lost in sums is read to its end. -/
theorem exists_parseCron {raw : List Char}
    (h : ∀ token ∈ (JsText.words (normalizeCronExpression raw)).filter (· ≠ []),
      LargeSteps token) : ∃ fuel result, parseCron fuel raw = some result := by
  unfold parseCron
  split
  · rename_i minute hour dayOfMonth month dayOfWeek hwords
    rw [hwords] at h
    simp only [List.mem_cons, List.not_mem_nil, or_false, forall_eq_or_imp, forall_eq] at h
    obtain ⟨hminute, hhour, hdayOfMonth, hmonth, hdayOfWeek⟩ := h
    obtain ⟨f₁, minute', h₁⟩ := exists_parseToken (show 0 ≤ 59 by omega) le_rfl hminute
    obtain ⟨f₂, hour', h₂⟩ := exists_parseToken (show 0 ≤ 23 by omega) (by omega) hhour
    obtain ⟨f₃, day', h₃⟩ := exists_parseToken (show 1 ≤ 31 by omega) (by omega) hdayOfMonth
    obtain ⟨f₄, month', h₄⟩ := exists_parseToken (show 1 ≤ 12 by omega) (by omega) hmonth
    obtain ⟨f₅, weekDay', h₅⟩ := exists_parseToken (show 0 ≤ 6 by omega) (by omega) hdayOfWeek
    obtain ⟨fuel, hfuel⟩ : ∃ fuel, fuel = f₁ + f₂ + f₃ + f₄ + f₅ := ⟨_, rfl⟩
    refine ⟨fuel, some ⟨minute', hour', day', month', weekDay'⟩, ?_⟩
    rw [parseToken_mono (by omega) h₁, parseToken_mono (by omega) h₂,
      parseToken_mono (by omega) h₃, parseToken_mono (by omega) h₄,
      parseToken_mono (by omega) h₅]
    rfl
  · exact ⟨0, none, rfl⟩

/-! ### Zones that are steady -/

/-- Every change sets the clock to a whole minute. -/
def OnMinutes (zone : Zone) : Prop :=
  ∀ s ∈ zone.stretches, ∀ a, s.start = some a → (a + s.offset) % 60000 = 0

theorem localTime_utc_of_contains {zone : Zone} {s : Stretch} {l : Int} (hs : s ∈ zone.stretches)
    (h : s.contains (l - s.offset) = true) : zone.localTime (zone.utc l) = l := by
  have hmem : l - s.offset ∈ zone.instants l :=
    List.mem_map.mpr ⟨s, List.mem_filter.mpr ⟨hs, h⟩, rfl⟩
  obtain ⟨t, rest, hcons⟩ := List.exists_cons_of_ne_nil (List.ne_nil_of_mem hmem)
  have ht : t ∈ zone.instants l := by simp [hcons]
  obtain ⟨s', hs', rfl⟩ := List.mem_map.mp ht
  obtain ⟨hmem', hcontains⟩ := List.mem_filter.mp hs'
  have hutc : zone.utc l = l - s'.offset := by rw [Zone.utc, hcons]
  rw [hutc, localTime_of_contains hmem' hcontains]
  omega

theorem before_or_eq {ss : List Stretch} (h : ss.Pairwise Before) {q r : Stretch} (hq : q ∈ ss)
    (hr : r ∈ ss) : q = r ∨ Before q r ∨ Before r q := by
  obtain ⟨i, hi, rfl⟩ := List.getElem_of_mem hq
  obtain ⟨j, hj, rfl⟩ := List.getElem_of_mem hr
  rw [List.pairwise_iff_getElem] at h
  rcases lt_trichotomy i j with hlt | rfl | hlt
  · exact .inr (.inl (h i j hi hj hlt))
  · exact .inl rfl
  · exact .inr (.inr (h j i hj hi hlt))

/-- A zone whose changes are spaced and set the clock to whole minutes is steady. -/
theorem steady_of_spaced {zone : Zone} (h : zone.Spaced) (hminutes : OnMinutes zone) (start : ℚ) :
    Steady zone start := by
  refine ⟨fun l _ => h.forward l, ?_⟩
  intro m m' hm hm' hstart hle hbefore
  obtain ⟨r, hr, hrs⟩ := exists_contains none zone.initial (t := trunc start) zone.changes rfl
  obtain ⟨q, hq, hqm⟩ := exists_contains none zone.initial (t := zone.utc m) zone.changes rfl
  have hearlier : zone.utc m ≤ trunc start := by
    have hlt : (zone.utc m : ℚ) < (trunc start + 1 : Int) := by
      have hbound := (trunc_bounds start).1
      push_cast
      linarith
    have hlt' : zone.utc m < trunc start + 1 := by exact_mod_cast hlt
    omega
  -- the minute of the start does not begin before the stretch of the start
  have hrange : ∀ a, r.start = some a → a + r.offset ≤ m' := by
    intro a ha
    have hwhole := hminutes r hr a ha
    have hlocal := localTime_of_contains hr hrs
    simp only [Stretch.contains, ha, Option.all_some, Bool.and_eq_true, decide_eq_true_eq] at hrs
    unfold startMinute minuteStart at hstart
    omega
  have hshown : q.contains (m' - q.offset) = true := by
    rw [Stretch.contains, Bool.and_eq_true, Option.all_eq_true, Option.all_eq_true]
    constructor
    · intro a ha
      refine decide_eq_true ?_
      rcases before_or_eq h.pairwise hq hr with rfl | hbefore | hbefore
      · have hle' := hrange a ha
        omega
      · obtain ⟨stop, b, -, hb, -, hstarts, -⟩ := hbefore
        have hle' := hrange b hb
        have hle'' := hstarts a ha
        omega
      · obtain ⟨stop, b, hstop, hb, hsb, -, -⟩ := hbefore
        simp only [Stretch.contains, hstop, hb, Option.all_some, Bool.and_eq_true,
          decide_eq_true_eq] at hrs hqm
        omega
    · intro e he
      refine decide_eq_true ?_
      have hreached := (h.forward m).reached
      rw [localTime_of_contains hq hqm] at hreached
      simp only [Stretch.contains, he, Option.all_some, Bool.and_eq_true, decide_eq_true_eq] at hqm
      omega
  exact localTime_utc_of_contains hq hshown

/-! ### The instants that are visited -/

section

variable {zone : Zone} {x y : ℚ}

theorem nextMinute_some {t u : Int} (h : nextMinute zone (some t) = some u) :
    u = zone.utc (minuteStart (zone.localTime t) + 60000) := by
  rw [nextMinute, Option.bind_some, setMinutes_succ, timeClip_intCast] at h
  split at h
  · exact (Option.some.inj h).symm
  · cases h

theorem nextMinute_of_range {t : Int}
    (hlow : -maxTime ≤ zone.utc (minuteStart (zone.localTime t) + 60000))
    (hhigh : zone.utc (minuteStart (zone.localTime t) + 60000) ≤ maxTime) :
    nextMinute zone (some t) = some (zone.utc (minuteStart (zone.localTime t) + 60000)) := by
  rw [nextMinute, Option.bind_some, setMinutes_succ, timeClip_intCast, if_pos ⟨hlow, hhigh⟩]

theorem minuteStart_of_whole {m : Int} (h : m % 60000 = 0) : minuteStart m = m := by
  unfold minuteStart
  omega

theorem Steady.utc_lt (h : Steady zone x) {m m' : Int} (hm : m % 60000 = 0) (hm' : m' % 60000 = 0)
    (hstart : startMinute zone x ≤ m') (hlt : m' < m) (hbefore : (zone.utc m : ℚ) < x) :
    zone.utc m' < zone.utc m := by
  have hshown := h.shown m m' hm hm' hstart hlt.le hbefore
  exact utc_lt_utc (h.forward m' hstart) (h.forward m (hstart.trans hlt.le)) (by omega)

/-- From the instant of one whole minute on, the loop comes to that of every later one before the
start. -/
theorem Steady.mem_of_visits (h : Steady zone x) (hx : x ≤ maxTime) (hxy : x < y)
    {cursor : Option Int} {ts : List Int} (hvisits : Visits zone y cursor ts) {m m' : Int}
    (hcursor : cursor = some (zone.utc m')) (hrange : -maxTime ≤ zone.utc m')
    (hm : m % 60000 = 0) (hm' : m' % 60000 = 0) (hstart : startMinute zone x ≤ m') (hle : m' ≤ m)
    (hbefore : (zone.utc m : ℚ) < x) : zone.utc m ∈ ts := by
  induction hvisits generalizing m' with
  | invalid => cases hcursor
  | @ended t hend =>
    obtain rfl := Option.some.inj hcursor
    rcases hle.eq_or_lt with rfl | hlt
    · linarith
    · have hutc : (zone.utc m' : ℚ) < zone.utc m := by
        exact_mod_cast h.utc_lt hm hm' hstart hlt hbefore
      linarith
  | @minute t ts hend hrest ih =>
    obtain rfl := Option.some.inj hcursor
    rcases hle.eq_or_lt with rfl | hlt
    · exact List.mem_cons_self
    · have hnext : m' + 60000 ≤ m := by omega
      have hlocal := h.shown m m' hm hm' hstart hle hbefore
      have hminute : minuteStart (zone.localTime (zone.utc m')) + 60000 = m' + 60000 := by
        rw [hlocal, minuteStart_of_whole hm']
      have hutc : zone.utc (m' + 60000) ≤ zone.utc m := by
        rcases hnext.eq_or_lt with heq | hlt'
        · rw [heq]
        · exact (h.utc_lt hm (by omega) (by omega) hlt' hbefore).le
      have hforward : zone.utc m' < zone.utc (m' + 60000) :=
        utc_lt_utc (h.forward m' hstart) (h.forward _ (by omega)) (by omega)
      have hceiling : zone.utc m < maxTime := by exact_mod_cast hbefore.trans_le hx
      refine List.mem_cons_of_mem _ (ih ?_ (by omega) (by omega) (by omega) hnext)
      rw [nextMinute_of_range (by rw [hminute]; omega) (by rw [hminute]; omega), hminute]

/-- The loop goes forward from the instant of any minute from the start's on. -/
theorem Steady.exists_visits (h : Steady zone x) {l : Int} (hl : startMinute zone x ≤ l)
    (hwhole : l % 60000 = 0) :
    ∃ ts, Visits zone y (some (zone.utc l)) ts ∧ ts.Pairwise (· < ·) ∧
      ∀ u ∈ ts, zone.utc l ≤ u ∧ (u : ℚ) < y ∧ ∃ m, m % 60000 = 0 ∧ l ≤ m ∧ u = zone.utc m := by
  have hstep : ∀ u, (∃ m, m % 60000 = 0 ∧ l ≤ m ∧ u = zone.utc m) → (u : ℚ) < y → ∀ u',
      nextMinute zone (some u) = some u' →
        u < u' ∧ ∃ m, m % 60000 = 0 ∧ l ≤ m ∧ u' = zone.utc m := by
    rintro u ⟨m, hm, hlm, rfl⟩ - u' hnext
    have hforward := h.forward m (hl.trans hlm)
    have hreached := hforward.reached
    obtain rfl := nextMinute_some hnext
    have hlater : zone.localTime (zone.utc m) <
        minuteStart (zone.localTime (zone.utc m)) + 60000 := by
      unfold minuteStart
      omega
    refine ⟨utc_lt_utc hforward (h.forward _ (by omega)) hlater, _, ?_, ?_, rfl⟩
    · unfold minuteStart
      omega
    · omega
  exact Occurrences.exists_visits hstep ⟨l, hwhole, le_rfl, rfl⟩

theorem startMinute_whole (zone : Zone) (x : ℚ) : startMinute zone x % 60000 = 0 := by
  unfold startMinute minuteStart
  omega

theorem firstCursor_of_range (hx : -(maxTime : ℚ) ≤ x ∧ x ≤ maxTime)
    (hlow : -maxTime ≤ zone.utc (startMinute zone x))
    (hhigh : zone.utc (startMinute zone x) ≤ maxTime) :
    firstCursor zone x =
      if (zone.utc (startMinute zone x) : ℚ) < x then
        nextMinute zone (some (zone.utc (startMinute zone x)))
      else some (zone.utc (startMinute zone x)) := by
  have hcursor : setSeconds zone 0 0 (timeClip (.finite x)) =
      some (zone.utc (startMinute zone x)) := by
    rw [timeClip, if_pos hx, setSeconds_zero, timeClip_intCast]
    exact if_pos ⟨hlow, hhigh⟩
  unfold firstCursor
  simp only [hcursor, Option.any_some, decide_eq_true_eq]

theorem firstCursor_of_not_range (h : ¬((-(maxTime : ℚ) ≤ x ∧ x ≤ maxTime) ∧
    -maxTime ≤ zone.utc (startMinute zone x) ∧ zone.utc (startMinute zone x) ≤ maxTime)) :
    firstCursor zone x = none := by
  have hcursor : setSeconds zone 0 0 (timeClip (.finite x)) = none := by
    by_cases hx : -(maxTime : ℚ) ≤ x ∧ x ≤ maxTime
    · rw [timeClip, if_pos hx, setSeconds_zero, timeClip_intCast]
      exact if_neg fun hrange => h ⟨hx, hrange⟩
    · rw [timeClip, if_neg hx]
      rfl
  unfold firstCursor
  simp [hcursor]

/-- The call visits, in order, instants from the start on and, before it, those of the minutes
after the start's own that denote an instant before the start. -/
theorem Steady.visits_start (h : Steady zone x) (hxy : x < y) :
    ∃ ts, Visits zone y (firstCursor zone x) ts ∧ ts.Pairwise (· < ·) ∧
      (∀ u ∈ ts, (u : ℚ) < y ∧ (x ≤ u ∨ ((-(maxTime : ℚ) ≤ x ∧ x ≤ maxTime) ∧
        -maxTime ≤ zone.utc (startMinute zone x) ∧
        ∃ m, m % 60000 = 0 ∧ startMinute zone x < m ∧ u = zone.utc m))) ∧
      (-(maxTime : ℚ) ≤ x ∧ x ≤ maxTime → -maxTime ≤ zone.utc (startMinute zone x) →
        ∀ m, m % 60000 = 0 → startMinute zone x < m → (zone.utc m : ℚ) < x → zone.utc m ∈ ts) := by
  have hstart := startMinute_whole zone x
  by_cases hrange : (-(maxTime : ℚ) ≤ x ∧ x ≤ maxTime) ∧
      -maxTime ≤ zone.utc (startMinute zone x) ∧ zone.utc (startMinute zone x) ≤ maxTime
  · obtain ⟨hx, hlow, hhigh⟩ := hrange
    rw [firstCursor_of_range hx hlow hhigh]
    by_cases hbefore : (zone.utc (startMinute zone x) : ℚ) < x
    · rw [if_pos hbefore]
      obtain ⟨l, hl⟩ : ∃ l, minuteStart (zone.localTime (zone.utc (startMinute zone x))) + 60000 =
        l := ⟨_, rfl⟩
      have hreached := (h.forward _ le_rfl).reached
      have hwhole : l % 60000 = 0 ∧ startMinute zone x < l := by
        unfold minuteStart at hl
        omega
      cases hnext : nextMinute zone (some (zone.utc (startMinute zone x))) with
      | none =>
        refine ⟨[], .invalid, .nil, by simp, ?_⟩
        rintro - - m hm hlt hmx
        have hvisits : Visits zone y (some (zone.utc (startMinute zone x)))
            [zone.utc (startMinute zone x)] := by
          refine .minute (hbefore.trans hxy) ?_
          rw [hnext]
          exact .invalid
        have hmem := h.mem_of_visits hx.2 hxy hvisits rfl hlow hm hstart le_rfl hlt.le hmx
        have hless : zone.utc (startMinute zone x) < zone.utc m :=
          h.utc_lt hm hstart le_rfl hlt hmx
        rw [List.mem_singleton] at hmem
        omega
      | some u =>
        obtain rfl : u = zone.utc l := hl ▸ nextMinute_some hnext
        obtain ⟨ts, hvisits, hpairwise, hall⟩ := h.exists_visits (y := y) hwhole.2.le hwhole.1
        refine ⟨ts, hvisits, hpairwise, ?_, ?_⟩
        · intro u hu
          obtain ⟨-, huy, m, hm, hlm, hum⟩ := hall u hu
          exact ⟨huy, .inr ⟨hx, hlow, m, hm, by omega, hum⟩⟩
        · rintro - - m hm hlt hmx
          have hvisits' : Visits zone y (some (zone.utc (startMinute zone x)))
              (zone.utc (startMinute zone x) :: ts) := by
            refine .minute (hbefore.trans hxy) ?_
            rw [hnext]
            exact hvisits
          have hmem := h.mem_of_visits hx.2 hxy hvisits' rfl hlow hm hstart le_rfl hlt.le hmx
          have hless : zone.utc (startMinute zone x) < zone.utc m :=
            h.utc_lt hm hstart le_rfl hlt hmx
          rcases List.mem_cons.mp hmem with heq | hmem
          · omega
          · exact hmem
    · rw [if_neg hbefore]
      obtain ⟨ts, hvisits, hpairwise, hall⟩ := h.exists_visits (y := y) le_rfl hstart
      refine ⟨ts, hvisits, hpairwise, ?_, ?_⟩
      · intro u hu
        obtain ⟨hle, huy, -⟩ := hall u hu
        exact ⟨huy, .inl ((not_lt.mp hbefore).trans (by exact_mod_cast hle))⟩
      · rintro - - m hm hlt hmx
        have hless : zone.utc (startMinute zone x) < zone.utc m :=
          h.utc_lt hm hstart le_rfl hlt hmx
        have hless' : (zone.utc (startMinute zone x) : ℚ) < zone.utc m := by exact_mod_cast hless
        linarith
  · rw [firstCursor_of_not_range hrange]
    refine ⟨[], .invalid, .nil, by simp, ?_⟩
    rintro hx hlow m hm hlt hmx
    have hless : zone.utc (startMinute zone x) < zone.utc m :=
      h.utc_lt hm hstart le_rfl hlt hmx
    have hceiling : zone.utc m < maxTime := by exact_mod_cast hmx.trans_le hx.2
    exact absurd ⟨hx, hlow, by omega⟩ hrange

end

/-! ### What is returned -/

theorem lt_finite (a b : ℚ) : Number.lt (.finite a) (.finite b) = true ↔ a < b := by
  simp [Number.lt]

theorem le_finite (a b : ℚ) : Number.le (.finite a) (.finite b) = true ↔ a ≤ b := by
  simp [Number.le, Number.lt]

theorem collect_mono {zone : Zone} {parsed : ParsedCron} {y : ℚ} {max : Number} {fuel fuel' : Nat}
    {cursor : Option Int} {occurrences rows : List CronOccurrence} (hfuel : fuel ≤ fuel')
    (h : collect zone parsed y max fuel cursor occurrences = some rows) :
    collect zone parsed y max fuel' cursor occurrences = some rows := by
  induction fuel generalizing fuel' cursor occurrences with
  | zero => cases h
  | succ fuel ih =>
    obtain ⟨fuel', rfl⟩ : ∃ k, fuel' = k + 1 := ⟨fuel' - 1, by omega⟩
    cases cursor with
    | none => exact h
    | some t =>
      rw [collect] at h ⊢
      split at h
      · rename_i hgoes
        rw [if_pos hgoes]
        exact ih (by omega) h
      · rename_i hstops
        rw [if_neg hstops]
        exact h

/-- A call that has ended with some fuel returns the same with more. -/
theorem getCronOccurrences_mono {zone : Zone} {schedule : String} {start finish max : Number}
    {fuel fuel' : Nat} {rows : List CronOccurrence} (hfuel : fuel ≤ fuel')
    (h : getCronOccurrences fuel zone schedule start finish max = some rows) :
    getCronOccurrences fuel' zone schedule start finish max = some rows := by
  cases start with
  | nan => exact h
  | infinite negative => exact h
  | finite x =>
    cases finish with
    | nan => exact h
    | infinite negative => exact h
    | finite y =>
      rw [getCronOccurrences] at h ⊢
      split at h
      · rename_i hguard
        rw [if_pos hguard]
        exact h
      · rename_i hguard
        rw [if_neg hguard]
        split at h
        · cases h
        · rename_i hparsed
          rw [parseCron_mono hfuel hparsed]
          exact h
        · rename_i parsed hparsed
          rw [parseCron_mono hfuel hparsed]
          exact collect_mono hfuel h

theorem contained_nil {zone : Zone} {schedule : String} {start finish max : Number}
    (h : ∃ fuel, getCronOccurrences fuel zone schedule start finish max = some []) :
    Contained zone schedule start finish max := by
  obtain ⟨fuel, hfuel⟩ := h
  exact ⟨[], ⟨fuel, fun fuel' hle => getCronOccurrences_mono hle hfuel⟩, by simp, .nil⟩

/-- What a call with a schedule of five fields returns. -/
theorem getCronOccurrences_of_visits {zone : Zone} {schedule : String} {x y : ℚ} {max : Number}
    (hne : schedule ≠ "") (hxy : x < y) (hmax : Number.le max (.finite 0) = false)
    {fuel : Nat} {parsed : ParsedCron} (hparsed : parseCron fuel schedule.toList = some (some parsed))
    {ts : List Int} (hvisits : Visits zone y (firstCursor zone x) ts) (hfuel : ts.length < fuel) :
    getCronOccurrences fuel zone schedule (.finite x) (.finite y) max =
      some (((ts.filter fun t => isDue parsed (zone.localTime t)).take (limit max ts.length)).map
        (occurrence zone)) := by
  have hguard : ¬(schedule = "" ∨ y ≤ x ∨ Number.le max (.finite 0) = true) := by
    simp [hne, hmax, hxy]
  rw [getCronOccurrences, if_neg hguard, hparsed]
  have hcollect := collect_of_visits parsed max hvisits hfuel [] ts.length (by simp)
  simpa using hcollect

/-- In a zone that is steady a call comes to an end with instants in order and in the range if and
only if the fields are read to their end and no minute after the start's own is due before the
start. -/
theorem contained_iff (zone : Zone) (schedule : String) (start finish max : Number)
    (h : ∀ x, start = .finite x → Steady zone x) :
    Contained zone schedule start finish max ↔ StartsFirst zone schedule start finish max := by
  constructor
  · rintro ⟨rows, ⟨least, hruns⟩, hrange, -⟩ x y rfl rfl hne hxy hmax
    have hguard : ¬(schedule = "" ∨ y ≤ x ∨ Number.le max (.finite 0) = true) := by
      simp [hne, hmax, hxy]
    have hrun := hruns least le_rfl
    rw [getCronOccurrences, if_neg hguard] at hrun
    cases hresult : parseCron least schedule.toList with
    | none =>
      rw [hresult] at hrun
      cases hrun
    | some result =>
      refine ⟨least, result, hresult, ?_⟩
      rintro parsed rfl hpositive hlow hhigh hstart m hm hlt hbefore
      by_contra hdue
      obtain ⟨ts, hvisits, hpairwise, -, hmem⟩ := (h x rfl).visits_start hxy
      have hvisited := hmem ⟨hlow, hhigh⟩ hstart m hm hlt hbefore
      have hrun' := hruns (least + ts.length + 1) (by omega)
      rw [getCronOccurrences_of_visits hne hxy hmax (parseCron_mono (by omega) hresult) hvisits
        (by omega)] at hrun'
      -- the first that is due is not after this one, and it is returned
      have hfound : zone.utc m ∈ ts.filter fun t => isDue parsed (zone.localTime t) :=
        List.mem_filter.mpr ⟨hvisited, by simpa using hdue⟩
      obtain ⟨t, rest, hcons⟩ := List.exists_cons_of_ne_nil (List.ne_nil_of_mem hfound)
      have hfits : 0 < limit max ts.length := by
        have hlength := List.length_pos_of_mem hvisited
        exact (lt_max_iff hlength).mp hpositive
      have hreturned : occurrence zone t ∈ rows := by
        obtain ⟨room, hroom⟩ : ∃ k, limit max ts.length = k + 1 :=
          ⟨limit max ts.length - 1, by omega⟩
        rw [← Option.some.inj hrun', hcons, hroom, List.take_succ_cons, List.map_cons]
        exact List.mem_cons_self
      have hfirst : t ≤ zone.utc m := by
        have hsorted := hpairwise.filter fun t => isDue parsed (zone.localTime t)
        rw [hcons] at hfound hsorted
        rcases List.mem_cons.mp hfound with heq | hrest
        · exact heq.ge
        · exact ((List.pairwise_cons.mp hsorted).1 _ hrest).le
      have hge : x ≤ t := (le_finite x t).mp (hrange _ hreturned).1
      have hcast : (t : ℚ) ≤ zone.utc m := by exact_mod_cast hfirst
      linarith
  · intro hstarts
    cases start with
    | nan => exact contained_nil ⟨0, rfl⟩
    | infinite negative => exact contained_nil ⟨0, rfl⟩
    | finite x =>
      cases finish with
      | nan => exact contained_nil ⟨0, rfl⟩
      | infinite negative => exact contained_nil ⟨0, rfl⟩
      | finite y =>
        by_cases hguard : schedule = "" ∨ y ≤ x ∨ Number.le max (.finite 0) = true
        · exact contained_nil ⟨0, by rw [getCronOccurrences, if_pos hguard]⟩
        · have hnot := hguard
          push Not at hguard
          obtain ⟨hne, hxy, hmax⟩ := hguard
          have hmax' : Number.le max (.finite 0) = false := by simpa using hmax
          obtain ⟨fuel, result, hresult, hcond⟩ := hstarts x y rfl rfl hne hxy hmax'
          cases result with
          | none =>
            exact contained_nil ⟨fuel, by rw [getCronOccurrences, if_neg hnot, hresult]⟩
          | some parsed =>
            obtain ⟨ts, hvisits, hpairwise, hall, -⟩ := (h x rfl).visits_start hxy
            have hrun := getCronOccurrences_of_visits hne hxy hmax'
              (parseCron_mono (show fuel ≤ fuel + ts.length + 1 by omega) hresult) hvisits (by omega)
            refine ⟨_, ⟨_, fun fuel' hle => getCronOccurrences_mono hle hrun⟩, ?_, ?_⟩
            · intro row hrow
              obtain ⟨t, ht, rfl⟩ := List.mem_map.mp hrow
              have hfits : Number.lt (.finite 0) max = true := by
                have hlength : 0 < ts.length :=
                  List.length_pos_of_mem (List.mem_filter.mp (List.mem_of_mem_take ht)).1
                have hlimit : 0 < limit max ts.length := by
                  by_contra hzero
                  rw [Nat.eq_zero_of_not_pos hzero] at ht
                  simp at ht
                exact (lt_max_iff hlength).mpr hlimit
              obtain ⟨hvisited, hdue⟩ := List.mem_filter.mp (List.mem_of_mem_take ht)
              obtain ⟨hty, hx⟩ := hall t hvisited
              refine ⟨(le_finite x t).mpr ?_, (lt_finite t y).mpr hty⟩
              rcases hx with hxt | ⟨hrange, hlow, m, hm, hlt, rfl⟩
              · exact hxt
              · by_contra hbefore
                have hfalse := hcond parsed rfl hfits hrange.1 hrange.2 hlow m hm hlt
                  (not_le.mp hbefore)
                rw [hfalse] at hdue
                cases hdue
            · rw [List.pairwise_map]
              exact (hpairwise.filter _).sublist (List.take_sublist _ _)

/-! ### Runs -/

/-- Five hours behind, four from 8 March 2026 at 7:00 to 1 November at 6:00. -/
def newYork : Zone :=
  ⟨-18000000, [(1772953200000, -14400000), (1793512800000, -18000000)], by decide⟩

theorem steady_newYork (start : ℚ) : Steady newYork start :=
  steady_of_spaced (by unfold Zone.Spaced Beside; decide) (by unfold OnMinutes; decide) start

/-- A quarter to two on 1 November, from midnight on. -/
theorem contained_midnight : Contained newYork "45 1 * * *" (.finite 1793505600000)
    (.finite 1793520000000) (.finite 1000) := by
  refine (contained_iff _ _ _ _ _ fun x _ => steady_newYork x).mpr ?_
  rintro x y hx hy - - -
  obtain rfl := Number.finite.inj hx
  obtain ⟨fuel, result, hresult⟩ : ∃ fuel result,
      parseCron fuel "45 1 * * *".toList = some result := by
    have hread : (parseCron 100 "45 1 * * *".toList).isSome = true := by decide +kernel
    exact ⟨100, Option.isSome_iff_exists.mp hread⟩
  refine ⟨fuel, result, hresult, ?_⟩
  rintro parsed - - - - - m hm hlt hbefore
  have hsteady := steady_newYork 1793505600000
  have hfirst : newYork.utc (startMinute newYork 1793505600000) = 1793505600000 := by
    decide +kernel
  have hless := hsteady.utc_lt hm (startMinute_whole _ _) le_rfl hlt hbefore
  rw [hfirst] at hless
  have hcast : (1793505600000 : ℚ) < newYork.utc m := by exact_mod_cast hless
  linarith

/-- A step of `1e-20` is lost in the sum with the first day of the month. -/
theorem never_read (fuel : Nat) : parseCron fuel "0 0 */1e-20 * *".toList = none := by
  have hwords : (JsText.words (normalizeCronExpression "0 0 */1e-20 * *".toList)).filter
      (· ≠ []) = ["0".toList, "0".toList, "*/1e-20".toList, "*".toList, "*".toList] := by
    decide +kernel
  have hsplit : (JsText.trimChars "*/1e-20".toList).splitOn ',' = ["*/1e-20".toList] := by
    decide +kernel
  have hpart : parsePart 1 31 "*/1e-20".toList = .loop (Doubles.rounded (1 / 10 ^ 20)) 1 31 := by
    decide +kernel
  have hlost : double (1 + Doubles.rounded (1 / 10 ^ 20)) = .finite 1 := by decide +kernel
  have hday : parseToken fuel 1 31 "*/1e-20".toList = none := by
    have hnostar : JsText.trimChars "*/1e-20".toList ≠ ['*'] := by decide
    have hvalues : (parsePart 1 31 "*/1e-20".toList).values fuel = none := by
      rw [hpart]
      exact steps_stuck hlost (by norm_num) fuel
    rw [parseToken]
    simp only [if_neg hnostar, hsplit, List.mapM_cons, hvalues]
    rfl
  rw [Option.eq_none_iff_forall_ne_some]
  intro result hresult
  rw [parseCron, hwords] at hresult
  simp only [Option.bind_eq_bind, Option.bind_eq_some_iff, hday] at hresult
  obtain ⟨minute, -, hour, -, day, hcontra, -⟩ := hresult
  cases hcontra

/-- From half past one on, when the clock shows one o'clock for the second time, the call returns
the quarter to two of the first; and with a step that is lost in sums it does not end. -/
theorem second_pass_missed :
    ¬Contained newYork "45 1 * * *" (.finite 1793514600000) (.finite 1793518200000)
      (.finite 1000) ∧
    ¬Contained newYork "0 0 */1e-20 * *" (.finite 1793505600000) (.finite 1793520000000)
      (.finite 1000) := by
  constructor
  · rintro ⟨rows, ⟨least, hruns⟩, hrange, -⟩
    have hrun : getCronOccurrences 100 newYork "45 1 * * *" (.finite 1793514600000)
        (.finite 1793518200000) (.finite 1000) = some [⟨1793511900000, "2026-11-01"⟩] := by
      decide +kernel
    have hrows := (getCronOccurrences_mono (Nat.le_add_left 100 least) hrun).symm.trans
      (hruns (least + 100) (Nat.le_add_right least 100))
    have hearly := (hrange ⟨1793511900000, "2026-11-01"⟩ (by simp [← Option.some.inj hrows])).1
    exact absurd hearly (by decide +kernel)
  · rintro ⟨rows, ⟨least, hruns⟩, -, -⟩
    have hrun := hruns least le_rfl
    have hguard : ¬("0 0 */1e-20 * *" = "" ∨ (1793520000000 : ℚ) ≤ 1793505600000 ∨
        Number.le (.finite 1000) (.finite 0) = true) := by decide +kernel
    rw [getCronOccurrences, if_neg hguard, never_read] at hrun
    cases hrun

end MissionControl.Cron.ClockChanges
