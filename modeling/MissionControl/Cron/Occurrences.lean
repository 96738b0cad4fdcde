import MissionControl.Foundations.Doubles
import MissionControl.Foundations.Lists
import MissionControl.Foundations.TimeZones

/-!
`getCronOccurrences`: the minutes of a range of time at which a cron schedule is due, found by
setting a local date ahead minute by minute. A result of `none` is a loop that has not ended yet.
-/

set_option autoImplicit false
set_option relaxedAutoImplicit false

namespace MissionControl.Cron.Occurrences

open MissionControl.Foundations
open Calendar (date dayOfTime month timeClip weekDay yearFromDay)
open Doubles (double number)
open JsText (isWhiteSpace padStart trimChars words)
open Numbers (Number)
open TimeZones

structure CronOccurrence where
  atMs : Int
  dayKey : String
  deriving DecidableEq

structure ParsedField where
  any : Bool
  values : List ℚ

/-- `field.matches(value)`. -/
def ParsedField.matches (field : ParsedField) (value : Nat) : Bool :=
  decide ((value : ℚ) ∈ field.values)

structure ParsedCron where
  minute : ParsedField
  hour : ParsedField
  dayOfMonth : ParsedField
  month : ParsedField
  dayOfWeek : ParsedField

/-! ### Reading the schedule -/

/-- What `.` does not match. -/
def isLineTerminator (c : Char) : Bool :=
  c = '\n' || c = '\r' || c.toNat = 0x2028 || c.toNat = 0x2029

/-- `\s+\([^)]+\)$` -/
def isSuffix (cs : List Char) : Bool :=
  cs.takeWhile isWhiteSpace ≠ [] &&
    match cs.dropWhile isWhiteSpace with
    | [] => false
    | c :: body =>
      c = '(' && body.getLast? = some ')' && body.dropLast ≠ [] && !body.dropLast.contains ')'

/-- What the group of `^(.*)\s+\([^)]+\)$` takes: the longest text that leaves a suffix. -/
def tzSuffixMatch (trimmed : List Char) : Option (List Char) :=
  ((List.range (trimmed.length + 1)).reverse.find? fun n =>
    (trimmed.take n).all (!isLineTerminator ·) && isSuffix (trimmed.drop n)).map trimmed.take

def normalizeCronExpression (raw : List Char) : List Char :=
  let trimmed := trimChars raw
  match tzSuffixMatch trimmed with
  | some (c :: cs) => trimChars (c :: cs)
  | _ => trimChars trimmed

/-- `for (let i = start; i <= stop; i += step) valueSet.add(i)`. -/
def steps (step stop : ℚ) : Nat → Number → Option (List ℚ)
  | 0, _ => none
  | fuel + 1, .finite i =>
    if i ≤ stop then (steps step stop fuel (double (i + step))).map (i :: ·) else some []
  | _ + 1, _ => some []

/-- `Math.max(min, Math.min(max, value))`. -/
def clamp (low high : Nat) (value : ℚ) : ℚ := max low (min high value)

/-- What one part of a list adds to the set of values. -/
inductive Additions where
  | nothing
  | single (value : ℚ)
  | loop (step start stop : ℚ)
  deriving DecidableEq

def parseRange (low high : Nat) (step : ℚ) (rangePart : List Char) : Additions :=
  if rangePart = ['*'] then .loop step low high
  else if '-' ∈ rangePart then
    match number ((rangePart.splitOn '-').headD []),
      number ((rangePart.splitOn '-').tail.headD []) with
    | .finite first, .finite last => .loop step (clamp low high first) (clamp low high last)
    | _, _ => .nothing
  else
    match number rangePart with
    | .finite single => if low ≤ single ∧ single ≤ high then .single single else .nothing
    | _ => .nothing

def parsePart (low high : Nat) (part : List Char) : Additions :=
  let trimmed := trimChars part
  let pieces := trimmed.splitOn '/'
  let stepPart := pieces.tail.headD []
  if trimmed = [] then .nothing
  else
    match if stepPart = [] then .finite 1 else number stepPart with
    | .finite step => if step ≤ 0 then .nothing else parseRange low high step (pieces.headD [])
    | _ => .nothing

def Additions.values (fuel : Nat) : Additions → Option (List ℚ)
  | .nothing => some []
  | .single value => some [value]
  | .loop step start stop => steps step stop fuel (.finite start)

def parseToken (fuel low high : Nat) (token : List Char) : Option ParsedField :=
  let trimmed := trimChars token
  if trimmed = ['*'] then
    (steps 1 high fuel (.finite low)).map fun values => ⟨true, values⟩
  else
    ((trimmed.splitOn ',').mapM fun part => (parsePart low high part).values fuel).map fun values =>
      ⟨false, values.flatten⟩

/-- The result is `some none` where `parseCron` returns `null`. -/
def parseCron (fuel : Nat) (raw : List Char) : Option (Option ParsedCron) :=
  match (words (normalizeCronExpression raw)).filter (· ≠ []) with
  | [minute, hour, dayOfMonth, month, dayOfWeek] => do
    let minute ← parseToken fuel 0 59 minute
    let hour ← parseToken fuel 0 23 hour
    let dayOfMonth ← parseToken fuel 1 31 dayOfMonth
    let month ← parseToken fuel 1 12 month
    let dayOfWeek ← parseToken fuel 0 6 dayOfWeek
    return some ⟨minute, hour, dayOfMonth, month, dayOfWeek⟩
  | _ => some none

/-! ### The minutes of the range -/

/-- The day at a local time. -/
def matchesDay (parsed : ParsedCron) (l : Int) : Bool :=
  let dayOfMonthMatches := parsed.dayOfMonth.matches (date (dayOfTime l))
  let dayOfWeekMatches := parsed.dayOfWeek.matches (weekDay (dayOfTime l))
  if parsed.dayOfMonth.any && parsed.dayOfWeek.any then true
  else if parsed.dayOfMonth.any then dayOfWeekMatches
  else if parsed.dayOfWeek.any then dayOfMonthMatches
  else dayOfMonthMatches || dayOfWeekMatches

/-- The condition of the loop on a local time. -/
def isDue (parsed : ParsedCron) (l : Int) : Bool :=
  parsed.month.matches (month (dayOfTime l) + 1) && matchesDay parsed l &&
    parsed.hour.matches (hourFromTime l).toNat && parsed.minute.matches (minFromTime l).toNat

def buildDayKey (l : Int) : String :=
  toString (yearFromDay (dayOfTime l)) ++ "-" ++
    padStart 2 (toString (month (dayOfTime l) + 1)) ++ "-" ++
    padStart 2 (toString (date (dayOfTime l)))

def occurrence (zone : Zone) (t : Int) : CronOccurrence :=
  ⟨t, buildDayKey (zone.localTime t)⟩

/-- `cursor.setMinutes(cursor.getMinutes() + 1, 0, 0)`. -/
def nextMinute (zone : Zone) (cursor : Option Int) : Option Int :=
  cursor.bind fun t => setMinutes zone (minFromTime (zone.localTime t) + 1) 0 0 (some t)

def collect (zone : Zone) (parsed : ParsedCron) (rangeEndMs : ℚ) (max : Number) :
    Nat → Option Int → List CronOccurrence → Option (List CronOccurrence)
  | 0, _, _ => none
  | _ + 1, none, occurrences => some occurrences
  | fuel + 1, some t, occurrences =>
    if t < rangeEndMs ∧ Number.lt (.finite occurrences.length) max = true then
      collect zone parsed rangeEndMs max fuel (nextMinute zone (some t))
        (if isDue parsed (zone.localTime t) then occurrences ++ [occurrence zone t]
          else occurrences)
    else some occurrences

/-- The minute of the start, or the next if that has begun before the start. -/
def firstCursor (zone : Zone) (rangeStartMs : ℚ) : Option Int :=
  let cursor := setSeconds zone 0 0 (timeClip (.finite rangeStartMs))
  if cursor.any (fun t : Int => decide ((t : ℚ) < rangeStartMs)) then nextMinute zone cursor else cursor

def getCronOccurrences (fuel : Nat) (zone : Zone) (schedule : String)
    (rangeStartMs rangeEndMs max : Number) : Option (List CronOccurrence) :=
  match rangeStartMs, rangeEndMs with
  | .finite start, .finite finish =>
    if schedule = "" ∨ finish ≤ start ∨ Number.le max (.finite 0) = true then some []
    else
      match parseCron fuel schedule.toList with
      | none => none
      | some none => some []
      | some (some parsed) => collect zone parsed finish max fuel (firstCursor zone start) []
  | _, _ => some []

/-! ### What the loops over values leave -/

theorem steps_mono {step stop : ℚ} {fuel fuel' : Nat} {i : Number} {values : List ℚ}
    (hfuel : fuel ≤ fuel') (h : steps step stop fuel i = some values) :
    steps step stop fuel' i = some values := by
  induction fuel generalizing fuel' i values with
  | zero => cases h
  | succ fuel ih =>
    obtain ⟨fuel', rfl⟩ : ∃ k, fuel' = k + 1 := ⟨fuel' - 1, by omega⟩
    cases i with
    | nan => exact h
    | infinite negative => exact h
    | finite i =>
      rw [steps] at h ⊢
      split at h
      · rename_i hle
        obtain ⟨rest, hrest, rfl⟩ := Option.map_eq_some_iff.mp h
        rw [if_pos hle, ih (by omega) hrest]
        rfl
      · rename_i hle
        rw [if_neg hle]
        exact h

theorem values_mono {fuel fuel' : Nat} {additions : Additions} {values : List ℚ}
    (hfuel : fuel ≤ fuel') (h : additions.values fuel = some values) :
    additions.values fuel' = some values := by
  cases additions with
  | nothing => exact h
  | single value => exact h
  | loop step start stop => exact steps_mono hfuel h

theorem parseToken_mono {fuel fuel' low high : Nat} {token : List Char} {field : ParsedField}
    (hfuel : fuel ≤ fuel') (h : parseToken fuel low high token = some field) :
    parseToken fuel' low high token = some field := by
  simp only [parseToken] at h ⊢
  split at h
  · rename_i hstar
    obtain ⟨values, hvalues, rfl⟩ := Option.map_eq_some_iff.mp h
    rw [if_pos hstar, steps_mono hfuel hvalues]
    rfl
  · rename_i hstar
    obtain ⟨values, hvalues, rfl⟩ := Option.map_eq_some_iff.mp h
    have hparts := Lists.mapM_eq_some_iff.mp hvalues
    rw [if_neg hstar, Lists.mapM_eq_some_iff.mpr (hparts.imp fun _ _ => values_mono hfuel)]
    rfl

theorem parseCron_mono {fuel fuel' : Nat} {raw : List Char} {parsed : Option ParsedCron}
    (hfuel : fuel ≤ fuel') (h : parseCron fuel raw = some parsed) :
    parseCron fuel' raw = some parsed := by
  unfold parseCron at h ⊢
  split at h
  · simp only [Option.bind_eq_bind, Option.bind_eq_some_iff, Option.pure_def, Option.some.injEq]
      at h ⊢
    obtain ⟨minute, hminute, hour, hhour, day, hday, month, hmonth, weekDay, hweekDay, hparsed⟩ := h
    exact ⟨minute, parseToken_mono hfuel hminute, hour, parseToken_mono hfuel hhour, day,
      parseToken_mono hfuel hday, month, parseToken_mono hfuel hmonth, weekDay,
      parseToken_mono hfuel hweekDay, hparsed⟩
  · exact h

/-- Enough fuel for one part is enough for all. -/
theorem exists_fuel {α : Type} {P : Nat → α → Prop} (hmono : ∀ a n m, n ≤ m → P n a → P m a)
    {l : List α} (h : ∀ a ∈ l, ∃ n, P n a) : ∃ n, ∀ a ∈ l, P n a := by
  induction l with
  | nil => exact ⟨0, by simp⟩
  | cons a l ih =>
    obtain ⟨n, hn⟩ := h a List.mem_cons_self
    obtain ⟨m, hm⟩ := ih fun b hb => h b (List.mem_cons_of_mem a hb)
    refine ⟨max n m, List.forall_mem_cons.mpr ⟨?_, fun b hb => ?_⟩⟩
    · exact hmono a n _ (le_max_left n m) hn
    · exact hmono b m _ (le_max_right n m) (hm b hb)

/-! ### What the loop over the minutes visits -/

/-- The instants that the loop visits before the end of the range, from a cursor on. -/
inductive Visits (zone : Zone) (rangeEndMs : ℚ) : Option Int → List Int → Prop
  | invalid : Visits zone rangeEndMs none []
  | ended {t : Int} : rangeEndMs ≤ t → Visits zone rangeEndMs (some t) []
  | minute {t : Int} {ts : List Int} : (t : ℚ) < rangeEndMs →
      Visits zone rangeEndMs (nextMinute zone (some t)) ts →
      Visits zone rangeEndMs (some t) (t :: ts)

/-- How many occurrences fit, of a number of them. -/
def limit (max : Number) (all : Nat) : Nat :=
  match max with
  | .finite x => ⌈x⌉₊
  | .infinite false => all
  | _ => 0

theorem lt_max_iff {max : Number} {n all : Nat} (h : n < all) :
    Number.lt (.finite n) max = true ↔ n < limit max all := by
  cases max with
  | nan => simp [limit, Number.lt]
  | finite x => simp [limit, Number.lt, Nat.lt_ceil]
  | infinite negative => cases negative <;> simp [limit, Number.lt, h]

section

variable {zone : Zone} {rangeEndMs : ℚ}

/-- The loop returns the first of the instants it visits that are due, as many as fit. -/
theorem collect_of_visits (parsed : ParsedCron) (max : Number) {cursor : Option Int}
    {ts : List Int} (h : Visits zone rangeEndMs cursor ts) {fuel : Nat} (hfuel : ts.length < fuel)
    (occurrences : List CronOccurrence) (all : Nat) (hall : occurrences.length + ts.length ≤ all) :
    collect zone parsed rangeEndMs max fuel cursor occurrences =
      some (occurrences ++ ((ts.filter fun t => isDue parsed (zone.localTime t)).take
        (limit max all - occurrences.length)).map (occurrence zone)) := by
  induction h generalizing fuel occurrences with
  | invalid =>
    obtain ⟨fuel, rfl⟩ : ∃ k, fuel = k + 1 := ⟨fuel - 1, by simp at hfuel; omega⟩
    simp [collect]
  | ended hend =>
    obtain ⟨fuel, rfl⟩ : ∃ k, fuel = k + 1 := ⟨fuel - 1, by simp at hfuel; omega⟩
    rw [collect, if_neg fun hcontra => absurd hcontra.1 (not_lt.mpr hend)]
    simp
  | @minute t ts hbefore hrest ih =>
    rw [List.length_cons] at hfuel hall
    obtain ⟨fuel, rfl⟩ : ∃ k, fuel = k + 1 := ⟨fuel - 1, by omega⟩
    rw [collect]
    by_cases hfits : occurrences.length < limit max all
    · rw [if_pos ⟨hbefore, (lt_max_iff (by omega)).mpr hfits⟩]
      by_cases hdue : isDue parsed (zone.localTime t) = true
      · have hfilter := List.filter_cons_of_pos (p := fun t => isDue parsed (zone.localTime t))
          (l := ts) hdue
        rw [if_pos hdue, ih (by omega) _ (by simp; omega), hfilter]
        obtain ⟨room, hroom⟩ : ∃ k, limit max all - occurrences.length = k + 1 :=
          ⟨limit max all - occurrences.length - 1, by omega⟩
        have hless : limit max all - (occurrences ++ [occurrence zone t]).length = room := by
          rw [List.length_append, List.length_singleton]
          omega
        rw [hroom, hless, List.take_succ_cons, List.map_cons, List.append_assoc]
        rfl
      · have hfilter := List.filter_cons_of_neg (p := fun t => isDue parsed (zone.localTime t))
          (l := ts) hdue
        rw [if_neg hdue, ih (by omega) _ (by omega), hfilter]
    · have hnot : ¬((t : ℚ) < rangeEndMs ∧ Number.lt (.finite occurrences.length) max = true) :=
        fun hcontra => hfits ((lt_max_iff (by omega)).mp hcontra.2)
      rw [if_neg hnot, show limit max all - occurrences.length = 0 by omega]
      simp

/-- A cursor that moves ahead in time comes to the end of the range. -/
theorem exists_visits {P : Int → Prop}
    (hstep : ∀ t, P t → (t : ℚ) < rangeEndMs → ∀ t', nextMinute zone (some t) = some t' →
      t < t' ∧ P t') {t : Int} (h : P t) :
    ∃ ts, Visits zone rangeEndMs (some t) ts ∧ ts.Pairwise (· < ·) ∧
      ∀ u ∈ ts, t ≤ u ∧ (u : ℚ) < rangeEndMs ∧ P u := by
  obtain ⟨n, hn⟩ : ∃ n : Nat, (⌈rangeEndMs⌉ - t).toNat = n := ⟨_, rfl⟩
  induction n using Nat.strongRecOn generalizing t with
  | ind n ih =>
    by_cases hend : (t : ℚ) < rangeEndMs
    · have hceil : t < ⌈rangeEndMs⌉ := Int.lt_ceil.mpr hend
      cases hnext : nextMinute zone (some t) with
      | none =>
        refine ⟨[t], .minute hend (hnext ▸ .invalid), List.pairwise_singleton _ _, ?_⟩
        intro u hu
        obtain rfl := List.mem_singleton.mp hu
        exact ⟨le_rfl, hend, h⟩
      | some t' =>
        obtain ⟨hlt, h'⟩ := hstep t h hend t' hnext
        obtain ⟨ts, hvisits, hpairwise, hall⟩ := ih (⌈rangeEndMs⌉ - t').toNat (by omega) h' rfl
        refine ⟨t :: ts, .minute hend (hnext ▸ hvisits), ?_, ?_⟩
        · refine List.pairwise_cons.mpr ⟨fun u hu => ?_, hpairwise⟩
          have hle := (hall u hu).1
          omega
        · intro u hu
          rcases List.mem_cons.mp hu with rfl | hu
          · exact ⟨le_rfl, hend, h⟩
          · obtain ⟨hle, hrest⟩ := hall u hu
            exact ⟨by omega, hrest⟩
    · exact ⟨[], .ended (not_lt.mp hend), .nil, by simp⟩

end

end MissionControl.Cron.Occurrences
