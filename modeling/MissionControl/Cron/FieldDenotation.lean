import Mathlib.Data.Set.List
import MissionControl.Cron.Expressions
import MissionControl.Foundations.TrimmedSplits

/-!
The tokens of cron fields, with values and ends of ranges that may lie outside the bounds of the
field, and with items that are none: what a token denotes, and what `parseToken` makes of each of
its items.
-/

set_option autoImplicit false
set_option relaxedAutoImplicit false

namespace MissionControl.Cron.FieldTokens

open MissionControl.Foundations
open Doubles (double number)
open JsText (isWhiteSpace trimChars)
open Numbers (Number)
open Expressions Occurrences

/-! ### The grammar -/

inductive Item where
  | all (step : Option Step)
  | single (n : Numeral) (step : Option Step)
  | range (first last : Numeral) (step : Option Step)

def Item.text : Item → List Char
  | .all step => '*' :: stepText step
  | .single n step => n.digits ++ stepText step
  | .range first last step => first.digits ++ '-' :: last.digits ++ stepText step

/-- What stands between commas and is no item. -/
structure Malformed where
  text : List Char
  noComma : ',' ∉ text
  notItem : ∀ item : Item, item.text ≠ text

inductive Piece where
  | item (i : Item)
  | malformed (m : Malformed)

def Piece.text : Piece → List Char
  | .item i => i.text
  | .malformed m => m.text

/-- A list of pieces, of which there is at least one. -/
structure Token where
  head : Piece
  rest : List Piece

def Token.pieces (token : Token) : List Piece := token.head :: token.rest

def Token.text (token : Token) : List Char := [','].intercalate (token.pieces.map Piece.text)

/-! ### Denotations -/

variable (low high : Nat)

/-- `*/s` starts at the lower bound, and `n/s` goes on to the upper one. -/
def Item.Denotes : Item → Nat → Prop
  | .all step, v => low ≤ v ∧ v ≤ high ∧ stepValue step ∣ v - low
  | .single n none, v => v = n.value
  | .single n (some step), v => n.value ≤ v ∧ v ≤ high ∧ step.numeral.value ∣ v - n.value
  | .range first last step, v =>
    first.value ≤ v ∧ v ≤ last.value ∧ stepValue step ∣ v - first.value

/-- The item denotes the value, which is within the bounds. -/
def Item.Gives (item : Item) (v : Nat) : Prop := low ≤ v ∧ v ≤ high ∧ item.Denotes low high v

/-- `parseToken` computes what the items denote within the bounds, and a malformed item alone adds
nothing. -/
structure Computes (token : Token) : Prop where
  values : ∃ fuel parsed, parseToken fuel low high token.text = some parsed ∧
    ∀ value : ℚ, value ∈ parsed.values ↔
      ∃ v : Nat, value = v ∧ ∃ item, .item item ∈ token.pieces ∧ item.Gives low high v
  nothing : ∀ m, .malformed m ∈ token.pieces →
    ∃ fuel parsed, parseToken fuel low high m.text = some parsed ∧ parsed.values = []

/-! ### Where items go wrong -/

/-- The number is not so large as to be infinite. -/
def Numeral.Finite (n : Numeral) : Prop := ∃ y, double n.value = .finite y

/-- `Math.max(min, Math.min(max, n))`. -/
def bound (n : Nat) : Nat := max low (min high n)

/-- All numbers that the item reads are finite. -/
def Item.Finite : Item → Prop
  | .all step => stepFinite step
  | .single _ step => stepFinite step
  | .range first last step => Numeral.Finite first ∧ Numeral.Finite last ∧ stepFinite step

/-- The range begins below the field, which is not a whole number of steps away. -/
def Shifted (first : Numeral) (step : Option Step) : Prop :=
  first.value < low ∧ ¬ stepValue step ∣ low - first.value

/-- A step after a single value is not taken, and steps from below the bounds are taken from the
bound. -/
def Item.Skips : Item → Nat → Prop
  | .all _, _ => False
  | .single n _, v => v ≠ n.value
  | .range first _ step, _ => Shifted low first step

/-- The item denotes the value but does not add it. -/
def Item.Misses (item : Item) (v : Nat) : Prop :=
  item.Gives low high v ∧ (¬ item.Finite ∨ item.Skips low v)

/-- The item adds the value but does not denote it: a range outside the bounds is moved to a bound,
and one from below them is taken from the bound. -/
def Item.Adds : Item → Nat → Prop
  | .range first last step, v =>
    (Item.range first last step).Finite ∧
      ((min last.value high < max first.value low ∧
          bound low high first.value = bound low high last.value ∧
          v = bound low high first.value) ∨
        (Shifted low first step ∧ low ≤ v ∧ v ≤ min last.value high ∧ stepValue step ∣ v - low))
  | _, _ => False

/-- The values that the item adds. -/
def Item.Hits (item : Item) (v : Nat) : Prop :=
  (item.Gives low high v ∧ ¬ item.Misses low high v) ∨ item.Adds low high v

/-- The ends of a range are no finite numbers, or not in order once they are within the bounds. -/
def RangeRejected (first last : Number) : Prop :=
  ∀ a b, first = .finite a → last = .finite b → clamp low high b < clamp low high a

/-- The number is not a finite one within the bounds. -/
def SingleRejected (n : Number) : Prop := ∀ a, n = .finite a → ¬ (low ≤ a ∧ a ≤ high)

/-- The text is empty, or its step is no positive number, or what stands before the step is neither
`*` nor a number within the bounds nor a range that has values. -/
def Rejected (text : List Char) : Prop :=
  let trimmed := trimChars text
  let rangePart := (trimmed.splitOn '/').headD []
  let stepPart := (trimmed.splitOn '/').tail.headD []
  let ends := rangePart.splitOn '-'
  trimmed = [] ∨ (stepPart ≠ [] ∧ ∀ y, number stepPart = .finite y → y ≤ 0) ∨
    (rangePart ≠ ['*'] ∧
      if '-' ∈ rangePart then
        RangeRejected low high (number (ends.headD [])) (number (ends.tail.headD []))
      else SingleRejected low high (number rangePart))

/-- No malformed item is read for one, a value that an item misses is added by another one, and a
value that an item adds is denoted by another one. -/
structure Compensated (token : Token) : Prop where
  rejected : ∀ m, .malformed m ∈ token.pieces → Rejected low high m.text
  regained : ∀ item, .item item ∈ token.pieces → ∀ v, item.Misses low high v →
    ∃ other, .item other ∈ token.pieces ∧ other.Hits low high v
  shared : ∀ item, .item item ∈ token.pieces → ∀ v, item.Adds low high v →
    ∃ other, .item other ∈ token.pieces ∧ other.Gives low high v

end MissionControl.Cron.FieldTokens

/-!
`parseToken` computes what a token denotes exactly where its items go right, or make up for each
other.
-/

namespace MissionControl.Cron.FieldDenotation

open MissionControl.Foundations
open Doubles (double number)
open JsText (isWhiteSpace trimChars)
open Numbers (Number)
open TrimmedSplits (map_trimChars_splitOn)
open Expressions FieldTokens Occurrences

variable {low high : Nat}

/-! ### Ranges within the bounds -/

/-- Steps from the moved start of a range are the steps of the range, where it does not begin below
the bounds or begins a number of steps below; other ranges add what they do not denote. -/
theorem mem_moved_iff (hle : low ≤ high) (a b s v : Nat) :
    (bound low high a ≤ v ∧ v ≤ bound low high b ∧ s ∣ v - bound low high a) ↔
      ((low ≤ v ∧ v ≤ high ∧ a ≤ v ∧ v ≤ b ∧ s ∣ v - a) ∧ ¬ (a < low ∧ ¬ s ∣ low - a)) ∨
        (min b high < max a low ∧ bound low high a = bound low high b ∧ v = bound low high a) ∨
        ((a < low ∧ ¬ s ∣ low - a) ∧ low ≤ v ∧ v ≤ min b high ∧ s ∣ v - low) := by
  by_cases hbelow : a < low
  · have ha : bound low high a = low := by unfold bound; omega
    by_cases hout : b < low
    · have hb : bound low high b = low := by unfold bound; omega
      rw [ha, hb]
      constructor
      · rintro ⟨hv, hv', -⟩
        exact .inr (.inl ⟨by omega, rfl, by omega⟩)
      · rintro (⟨⟨hv, -, -, hvb, -⟩, -⟩ | ⟨-, -, rfl⟩ | ⟨-, hv, hvb, -⟩)
        · omega
        · simp
        · omega
    · have hb : bound low high b = min b high := by unfold bound; omega
      rw [ha, hb]
      by_cases hs : s ∣ low - a
      · have hshift (hv : low ≤ v) : s ∣ v - a ↔ s ∣ v - low := by
          rw [show v - a = v - low + (low - a) by omega]
          exact (Nat.dvd_add_left hs)
        constructor
        · rintro ⟨hv, hvb, hdvd⟩
          exact .inl ⟨⟨hv, by omega, by omega, by omega, (hshift hv).mpr hdvd⟩, fun h => h.2 hs⟩
        · rintro (⟨⟨hv, hvh, -, hvb, hdvd⟩, -⟩ | ⟨hempty, -, -⟩ | ⟨⟨-, hns⟩, -⟩)
          · exact ⟨hv, by omega, (hshift hv).mp hdvd⟩
          · omega
          · exact absurd hs hns
      · constructor
        · rintro ⟨hv, hvb, hdvd⟩
          exact .inr (.inr ⟨⟨hbelow, hs⟩, hv, hvb, hdvd⟩)
        · rintro (⟨-, hright⟩ | ⟨hempty, -, -⟩ | ⟨-, hv, hvb, hdvd⟩)
          · exact absurd ⟨hbelow, hs⟩ hright
          · omega
          · exact ⟨hv, hvb, hdvd⟩
  · by_cases habove : high < a
    · have ha : bound low high a = high := by unfold bound; omega
      rw [ha]
      constructor
      · rintro ⟨hv, hvb, -⟩
        have hb : bound low high b ≤ high := by unfold bound; omega
        exact .inr (.inl ⟨by omega, by omega, by omega⟩)
      · rintro (⟨⟨-, hvh, hav, -⟩, -⟩ | ⟨-, hends, rfl⟩ | ⟨⟨hlow, -⟩, -⟩)
        · omega
        · simp [← hends]
        · omega
    · have ha : bound low high a = a := by unfold bound; omega
      rw [ha]
      by_cases hempty : b < a
      · constructor
        · rintro ⟨hv, hvb, -⟩
          have hb : bound low high b ≤ a := by unfold bound; omega
          exact .inr (.inl ⟨by omega, by omega, by omega⟩)
        · rintro (⟨⟨-, -, hav, hvb, -⟩, -⟩ | ⟨-, hends, rfl⟩ | ⟨⟨hlow, -⟩, -⟩)
          · omega
          · simp [← hends]
          · omega
      · have hb : bound low high b = min b high := by unfold bound; omega
        rw [hb]
        constructor
        · rintro ⟨hv, hvb, hdvd⟩
          exact .inl ⟨⟨by omega, by omega, hv, by omega, hdvd⟩, fun h => hbelow h.1⟩
        · rintro (⟨⟨-, hvh, hav, hvb, hdvd⟩, -⟩ | ⟨hout, -, -⟩ | ⟨⟨hlow, -⟩, -⟩)
          · exact ⟨hav, by omega, hdvd⟩
          · omega
          · omega

/-! ### Numbers -/

theorem double_natCast_cases (n : Nat) :
    (∃ y, double n = .finite y) ∨ ∃ negative, double n = .infinite negative := by
  unfold double
  split
  · exact .inl ⟨_, rfl⟩
  · exact .inr ⟨_, rfl⟩

theorem number_of_not_finite {n : Numeral} (h : ¬ Numeral.Finite n) :
    ∃ negative, number n.digits = .infinite negative := by
  rcases double_natCast_cases n.value with hfinite | ⟨negative, hinfinite⟩
  · exact absurd hfinite h
  · exact ⟨negative, (number_digits n).trans hinfinite⟩

/-- A number is rounded only where it is above the bounds. -/
theorem double_small_or_large (hhigh : high < 2 ^ 53) {n : Nat} {y : ℚ}
    (hy : double n = .finite y) : y = n ∨ (high < n ∧ (high : ℚ) < y) := by
  by_cases hsmall : n < 2 ^ 53
  · rw [Doubles.double_natCast hsmall] at hy
    exact .inl (Number.finite.inj hy).symm
  · have hlarge : ((2 ^ 53 : Nat) : ℚ) ≤ y :=
      Doubles.natCast_le_of_double le_rfl (by exact_mod_cast not_lt.mp hsmall) hy
    have hbelow : (high : ℚ) < (2 ^ 53 : Nat) := by exact_mod_cast hhigh
    exact .inr ⟨by omega, hbelow.trans_le hlarge⟩

theorem lt_of_infinite (hhigh : high < 2 ^ 53) {n : Nat} {negative : Bool}
    (h : double n = .infinite negative) : high < n := by
  by_contra hle
  rw [Doubles.double_natCast (by omega)] at h
  cases h

theorem clamp_double (hhigh : high < 2 ^ 53) {n : Nat} {y : ℚ} (hy : double n = .finite y) :
    clamp low high y = (bound low high n : Nat) := by
  unfold clamp bound
  rcases double_small_or_large hhigh hy with rfl | ⟨habove, habove'⟩
  · push_cast
    rfl
  · rw [min_eq_left habove'.le, min_eq_left habove.le]
    push_cast
    rfl

/-! ### Items -/

theorem parseRange_single_of_infinite {n : Numeral} {negative : Bool}
    (h : number n.digits = .infinite negative) (y : ℚ) :
    parseRange low high y n.digits = .nothing := by
  have hdash : '-' ∉ n.digits := not_mem_digits (by decide)
  rw [parseRange, if_neg (digits_ne_star n), if_neg hdash, h]

theorem parseRange_range_of_infinite {first last : Numeral}
    (h : ¬ Numeral.Finite first ∨ ¬ Numeral.Finite last) (y : ℚ) :
    parseRange low high y (first.digits ++ '-' :: last.digits) = .nothing := by
  rw [parseRange, if_neg (rangeText_ne_star first last), if_pos (by simp), splitOn_rangeText]
  simp only [List.headD_cons, List.tail_cons]
  rcases h with h | h
  · obtain ⟨negative, hnumber⟩ := number_of_not_finite h
    rw [hnumber]
  · obtain ⟨negative, hnumber⟩ := number_of_not_finite h
    rw [hnumber]
    cases number first.digits <;> rfl

theorem parsePart_of_infinite (low high : Nat) {r : List Char} (hne : r ≠ []) (hslash : '/' ∉ r)
    (hwords : ∀ c ∈ r, isWhiteSpace c = false) {step : Option Step} (h : ¬ stepFinite step) :
    parsePart low high (r ++ stepText step) = .nothing := by
  cases step with
  | none => exact absurd trivial h
  | some step =>
    obtain ⟨negative, hnumber⟩ := number_of_not_finite h
    have htrim : trimChars (r ++ stepText (some step)) = r ++ stepText (some step) := by
      refine JsText.trimChars_of_words fun c hc => ?_
      rcases List.mem_append.mp hc with hc | hc
      · exact hwords c hc
      · exact not_whiteSpace_of_isPartChar (isPartChar_of_mem_stepText hc)
    have hpieces : (r ++ stepText (some step)).splitOn '/' = [r, step.numeral.digits] := by
      rw [stepText, List.splitOn_append_cons_self_of_not_mem hslash,
        List.splitOn_eq_singleton (not_mem_digits (by decide))]
    have hfull : r ++ stepText (some step) ≠ [] := List.append_ne_nil_of_left_ne_nil hne _
    unfold parsePart
    simp only [htrim, if_neg hfull, hpieces, List.tail_cons, List.headD_cons,
      if_neg step.numeral.nonempty, hnumber]

theorem not_hits_of_not_finite {item : Item} (h : ¬ item.Finite) (v : Nat) :
    ¬ item.Hits low high v := by
  rintro (⟨hgives, hkept⟩ | hadds)
  · exact hkept ⟨hgives, .inl h⟩
  · cases item with
    | all step => exact hadds
    | single n step => exact hadds
    | range first last step => exact h hadds.1

theorem addsExactly_allItem (hhigh : high < 2 ^ 53) {step : Option Step} (h : stepFinite step) :
    AddsExactly (parsePart low high (Item.all step).text) ((Item.all step).Hits low high) := by
  obtain ⟨hpositive, y, hy⟩ := exists_stepValue h
  have hread : parsePart low high (Item.all step).text = .loop y low high :=
    (parsePart_eq low high (List.cons_ne_nil '*' []) (by decide) not_whiteSpace_star hy).trans
      (parseRange_star y)
  rw [hread]
  refine (addsExactly_loop hpositive hy hhigh low).congr fun v => ?_
  rw [← Nat.dvd_iff_mod_eq_zero]
  have hfinite : (Item.all step).Finite := h
  simp only [Item.Hits, Item.Misses, Item.Gives, Item.Denotes, Item.Skips, Item.Adds, hfinite,
    not_true_eq_false, or_false, and_false, not_false_eq_true, and_true]
  constructor
  · rintro ⟨hlow, hle, hdvd⟩
    exact ⟨hlow, hle, hlow, hle, hdvd⟩
  · rintro ⟨hlow, hle, -, -, hdvd⟩
    exact ⟨hlow, hle, hdvd⟩

theorem addsExactly_singleItem (hhigh : high < 2 ^ 53) (n : Numeral) {step : Option Step}
    (h : stepFinite step) :
    AddsExactly (parsePart low high (Item.single n step).text)
      ((Item.single n step).Hits low high) := by
  obtain ⟨hpositive, y, hy⟩ := exists_stepValue h
  have hread : parsePart low high (Item.single n step).text = parseRange low high y n.digits :=
    parsePart_eq low high n.nonempty (not_mem_digits (by decide))
      (fun c hc => not_whiteSpace_of_mem_digits hc) hy
  have hfinite : (Item.single n step).Finite := h
  have hhits : ∀ v, (v = n.value ∧ low ≤ v ∧ v ≤ high) ↔ (Item.single n step).Hits low high v := by
    intro v
    simp only [Item.Hits, Item.Misses, Item.Gives, Item.Skips, Item.Adds, hfinite,
      not_true_eq_false, false_or, or_false]
    constructor
    · rintro ⟨rfl, hlow, hle⟩
      refine ⟨⟨hlow, hle, ?_⟩, fun hmiss => hmiss.2 rfl⟩
      cases step with
      | none => rfl
      | some step => exact ⟨le_rfl, hle, by simp⟩
    · rintro ⟨hgives, hkept⟩
      have hsame : v = n.value := by
        by_contra hne
        exact hkept ⟨hgives, hne⟩
      exact ⟨hsame, hgives.1, hgives.2.1⟩
  rw [hread]
  refine AddsExactly.congr ?_ hhits
  rcases double_natCast_cases n.value with ⟨z, hz⟩ | ⟨negative, hinfinite⟩
  · rw [parseRange_single ((number_digits n).trans hz)]
    rcases double_small_or_large hhigh hz with rfl | ⟨habove, habove'⟩
    · by_cases hin : low ≤ n.value ∧ n.value ≤ high
      · have hin' : (low : ℚ) ≤ n.value ∧ (n.value : ℚ) ≤ high := by exact_mod_cast hin
        rw [if_pos hin']
        refine (addsExactly_single n.value).congr fun v => ?_
        constructor
        · rintro rfl
          exact ⟨rfl, hin⟩
        · exact fun hv => hv.1
      · have hin' : ¬ ((low : ℚ) ≤ n.value ∧ (n.value : ℚ) ≤ high) := by exact_mod_cast hin
        rw [if_neg hin']
        apply addsExactly_nothing
        rintro v ⟨rfl, hrange⟩
        exact hin hrange
    · rw [if_neg fun hin => absurd hin.2 (not_le.mpr habove')]
      apply addsExactly_nothing
      rintro v ⟨rfl, -, hle⟩
      omega
  · rw [parseRange_single_of_infinite ((number_digits n).trans hinfinite)]
    have habove := lt_of_infinite hhigh hinfinite
    apply addsExactly_nothing
    rintro v ⟨rfl, -, hle⟩
    omega

theorem parsePart_range (low high : Nat) (first last : Numeral) {step : Option Step} {y : ℚ}
    (hy : double (stepValue step) = .finite y) :
    parsePart low high (Item.range first last step).text =
      parseRange low high y (first.digits ++ '-' :: last.digits) :=
  parsePart_eq low high (List.append_ne_nil_of_left_ne_nil first.nonempty _)
    (fun hslash => absurd (range_text hslash) (by decide))
    (fun _ hc => not_whiteSpace_of_range hc) hy

theorem addsExactly_rangeItem (hle : low ≤ high) (hhigh : high < 2 ^ 53) {first last : Numeral}
    {step : Option Step} (h : (Item.range first last step).Finite) :
    AddsExactly (parsePart low high (Item.range first last step).text)
      ((Item.range first last step).Hits low high) := by
  have hfinite := h
  obtain ⟨⟨a, ha⟩, ⟨b, hb⟩, hstep⟩ := h
  obtain ⟨hpositive, y, hy⟩ := exists_stepValue hstep
  have hstop : bound low high last.value < 2 ^ 53 := by
    unfold bound
    omega
  have hmisses (v : Nat) (hgives : (Item.range first last step).Gives low high v) :
      (Item.range first last step).Misses low high v ↔ Shifted low first step := by
    rw [Item.Misses, and_iff_right hgives, or_iff_right (not_not_intro hfinite), Item.Skips]
  rw [parsePart_range low high first last hy,
    parseRange_range ((number_digits first).trans ha) ((number_digits last).trans hb),
    clamp_double hhigh ha, clamp_double hhigh hb]
  refine (addsExactly_loop hpositive hy hstop _).congr fun v => ?_
  rw [← Nat.dvd_iff_mod_eq_zero, mem_moved_iff hle, Item.Hits, Item.Adds, and_iff_right hfinite]
  exact or_congr (and_congr_right fun hgives => not_congr (hmisses v hgives).symm) Iff.rfl

/-- An item adds what it hits. -/
theorem addsExactly_item (hle : low ≤ high) (hhigh : high < 2 ^ 53) (item : Item) :
    AddsExactly (parsePart low high item.text) (item.Hits low high) := by
  by_cases hfinite : item.Finite
  · cases item with
    | all step => exact addsExactly_allItem hhigh hfinite
    | single n step => exact addsExactly_singleItem hhigh n hfinite
    | range first last step => exact addsExactly_rangeItem hle hhigh hfinite
  · have hnothing : parsePart low high item.text = .nothing := by
      cases item with
      | all step =>
        exact parsePart_of_infinite low high (List.cons_ne_nil '*' []) (by decide) not_whiteSpace_star
          hfinite
      | single n step =>
        exact parsePart_of_infinite low high n.nonempty (not_mem_digits (by decide))
          (fun c hc => not_whiteSpace_of_mem_digits hc) hfinite
      | range first last step =>
        by_cases hstep : stepFinite step
        · obtain ⟨-, y, hy⟩ := exists_stepValue hstep
          rw [parsePart_range low high first last hy]
          apply parseRange_range_of_infinite
          by_contra hends
          obtain ⟨hfirst, hlast⟩ := not_or.mp hends
          exact hfinite ⟨not_not.mp hfirst, not_not.mp hlast, hstep⟩
        · exact parsePart_of_infinite low high
            (List.append_ne_nil_of_left_ne_nil first.nonempty _)
            (fun hslash => absurd (range_text hslash) (by decide))
            (fun c hc => not_whiteSpace_of_range hc) hstep
    rw [hnothing]
    exact addsExactly_nothing (not_hits_of_not_finite hfinite)

/-! ### Malformed items -/

theorem loop_nil_iff {step start stop : ℚ} :
    (∃ fuel, (Additions.loop step start stop).values fuel = some []) ↔ stop < start := by
  constructor
  · rintro ⟨fuel, hvalues⟩
    by_contra hle
    cases fuel with
    | zero => cases hvalues
    | succ fuel =>
      rw [Additions.values, steps, if_pos (not_lt.mp hle)] at hvalues
      obtain ⟨rest, -, hcons⟩ := Option.map_eq_some_iff.mp hvalues
      cases hcons
  · intro hlt
    exact ⟨1, if_neg (not_le.mpr hlt)⟩

theorem parseRange_nil_iff (hle : low ≤ high) (step : ℚ) (rangePart : List Char) :
    (∃ fuel, (parseRange low high step rangePart).values fuel = some []) ↔
      rangePart ≠ ['*'] ∧
        if '-' ∈ rangePart then
          RangeRejected low high (number ((rangePart.splitOn '-').headD []))
            (number ((rangePart.splitOn '-').tail.headD []))
        else SingleRejected low high (number rangePart) := by
  unfold parseRange
  by_cases hstar : rangePart = ['*']
  · have hle' : ¬ (high : ℚ) < low := by exact_mod_cast not_lt.mpr hle
    rw [if_pos hstar, loop_nil_iff]
    simp [hstar, hle]
  · rw [if_neg hstar, and_iff_right hstar]
    by_cases hdash : '-' ∈ rangePart
    · rw [if_pos hdash, if_pos hdash, RangeRejected]
      cases number ((rangePart.splitOn '-').headD []) with
      | finite a =>
        cases number ((rangePart.splitOn '-').tail.headD []) with
        | finite b => simp [loop_nil_iff]
        | nan => simp [Additions.values]
        | infinite negative => simp [Additions.values]
      | nan => simp [Additions.values]
      | infinite negative => simp [Additions.values]
    · rw [if_neg hdash, if_neg hdash, SingleRejected]
      cases number rangePart with
      | finite a =>
        by_cases hin : (low : ℚ) ≤ a ∧ a ≤ high
        · simp [hin, Additions.values]
        · have hout : ∀ b, Number.finite a = .finite b → ¬ ((low : ℚ) ≤ b ∧ b ≤ high) := by
            rintro b hb
            exact Number.finite.inj hb ▸ hin
          simp only [if_neg hin, Additions.values, exists_const, true_iff]
          exact hout
      | nan => simp [Additions.values]
      | infinite negative => simp [Additions.values]

theorem parsePart_nil_iff (hle : low ≤ high) (text : List Char) :
    (∃ fuel, (parsePart low high text).values fuel = some []) ↔ Rejected low high text := by
  unfold parsePart Rejected
  dsimp only
  by_cases hempty : trimChars text = []
  · simp [hempty, Additions.values]
  rw [if_neg hempty, or_iff_right hempty]
  generalize ((trimChars text).splitOn '/').tail.headD [] = stepPart
  by_cases hstep : stepPart = []
  · rw [if_pos hstep]
    simp only [hstep, ne_eq, not_true_eq_false, false_and, false_or]
    rw [if_neg (by norm_num)]
    exact parseRange_nil_iff hle 1 _
  · rw [if_neg hstep]
    simp only [ne_eq, hstep, not_false_eq_true, true_and]
    cases number stepPart with
    | finite y =>
      by_cases hy : y ≤ 0
      · simp [hy, Additions.values]
      · simp only [Number.finite.injEq, forall_eq', hy, false_or]
        exact parseRange_nil_iff hle y _
    | nan => simp [Additions.values]
    | infinite negative => simp [Additions.values]

/-! ### Tokens -/

theorem parsePart_trimChars (low high : Nat) (part : List Char) :
    parsePart low high (trimChars part) = parsePart low high part := by
  unfold parsePart
  simp only [JsText.trimChars_trimChars]

theorem parsePart_star (low high : Nat) : parsePart low high ['*'] = .loop 1 low high := by
  have hone : double (stepValue none) = .finite 1 := by
    rw [stepValue, Doubles.double_natCast (by norm_num)]
    simp
  exact (parsePart_eq low high (List.cons_ne_nil '*' []) (by decide) not_whiteSpace_star hone).trans
    (parseRange_star 1)

/-- The values of a token are those of its parts, also where it is `*`. -/
theorem parseToken_values (fuel low high : Nat) (token : List Char) :
    (parseToken fuel low high token).map ParsedField.values =
      ((token.splitOn ',').mapM fun part => (parsePart low high part).values fuel).map
        List.flatten := by
  have htrim (l : List Char) :
      ((l.splitOn ',').mapM fun part => (parsePart low high part).values fuel) =
        (((l.splitOn ',').map trimChars).mapM fun part =>
          (parsePart low high part).values fuel) := by
    rw [List.mapM_map]
    simp only [Function.comp_def, parsePart_trimChars]
  rw [htrim, ← map_trimChars_splitOn (by decide), ← htrim]
  unfold parseToken
  dsimp only
  by_cases hstar : trimChars token = ['*']
  · have hsplit : (['*'] : List Char).splitOn ',' = [['*']] := by decide
    rw [if_pos hstar, hstar, hsplit, List.mapM_cons, parsePart_star, Additions.values]
    cases steps 1 high fuel (.finite low) with
    | none => rfl
    | some values =>
      show some values = some ([values].flatten)
      rw [List.flatten_singleton]
  · rw [if_neg hstar, Option.map_map]
    rfl

theorem isPartChar_of_mem_item {item : Item} {c : Char} (h : c ∈ item.text) :
    isPartChar c = true := by
  cases item with
  | all step =>
    rcases List.mem_cons.mp h with rfl | h
    · rfl
    · exact isPartChar_of_mem_stepText h
  | single n step =>
    rcases List.mem_append.mp h with h | h
    · simp [isPartChar, n.isDigit c h]
    · exact isPartChar_of_mem_stepText h
  | range first last step =>
    rcases List.mem_append.mp h with h | h
    · rcases range_text h with h | rfl
      · simp [isPartChar, h]
      · rfl
    · exact isPartChar_of_mem_stepText h

theorem splitOn_tokenText (token : Token) :
    token.text.splitOn ',' = token.pieces.map Piece.text := by
  refine List.splitOn_intercalate ',' ?_ (by simp [Token.pieces])
  intro text htext hcomma
  obtain ⟨piece, -, rfl⟩ := List.mem_map.mp htext
  cases piece with
  | item item => exact absurd (isPartChar_of_mem_item hcomma) (by decide)
  | malformed m => exact m.noComma hcomma

theorem exists_piece {text : List Char} (h : ',' ∉ text) : ∃ piece : Piece, piece.text = text := by
  by_cases hitem : ∃ item : Item, item.text = text
  · obtain ⟨item, htext⟩ := hitem
    exact ⟨.item item, htext⟩
  · exact ⟨.malformed ⟨text, h, not_exists.mp hitem⟩, rfl⟩

/-- Every text is that of a token. -/
theorem exists_token (text : List Char) : ∃ token : Token, token.text = text := by
  obtain ⟨pieces, hpieces⟩ : ∃ pieces : List Piece, pieces.map Piece.text = text.splitOn ',' := by
    have hall : ∀ part ∈ text.splitOn ',', part ∈ Set.range Piece.text := fun part hpart =>
      exists_piece (Lists.not_mem_of_mem_splitOn ',' text part hpart)
    have hrange : text.splitOn ',' ∈ Set.range (List.map Piece.text) := by
      rw [Set.range_list_map]
      exact hall
    exact hrange
  have hjoined : [','].intercalate (pieces.map Piece.text) = text := by
    rw [hpieces, List.intercalate_splitOn]
  cases pieces with
  | nil => exact absurd hpieces.symm (List.splitOn_ne_nil ',' text)
  | cons head rest => exact ⟨⟨head, rest⟩, hjoined⟩

/-- A malformed item alone adds nothing exactly when it is rejected. -/
theorem malformed_nothing_iff (hle : low ≤ high) (m : Malformed) :
    (∃ fuel parsed, parseToken fuel low high m.text = some parsed ∧ parsed.values = []) ↔
      Rejected low high m.text := by
  rw [← parsePart_nil_iff hle]
  have hone (fuel : Nat) : (parseToken fuel low high m.text).map ParsedField.values =
      (parsePart low high m.text).values fuel := by
    rw [parseToken_values, List.splitOn_eq_singleton m.noComma, List.mapM_cons]
    cases (parsePart low high m.text).values fuel with
    | none => rfl
    | some values =>
      show some ([values].flatten) = some values
      rw [List.flatten_singleton]
  constructor
  · rintro ⟨fuel, parsed, hparsed, hvalues⟩
    refine ⟨fuel, ?_⟩
    rw [← hone, hparsed, Option.map_some, hvalues]
  · rintro ⟨fuel, hvalues⟩
    rw [← hone] at hvalues
    obtain ⟨parsed, hparsed, hnil⟩ := Option.map_eq_some_iff.mp hvalues
    exact ⟨fuel, parsed, hparsed, hnil⟩

/-- The values that a piece of a token adds, if what is malformed is rejected. -/
def Piece.Hits (low high : Nat) : Piece → Nat → Prop
  | .item i, v => i.Hits low high v
  | .malformed _, _ => False

theorem exists_parsed (hle : low ≤ high) (hhigh : high < 2 ^ 53) {token : Token}
    (hrejected : ∀ m, .malformed m ∈ token.pieces → Rejected low high m.text) :
    ∃ fuel parsed, parseToken fuel low high token.text = some parsed ∧
      ∀ value : ℚ, value ∈ parsed.values ↔
        ∃ v : Nat, value = v ∧ ∃ item, .item item ∈ token.pieces ∧ item.Hits low high v := by
  have hpieces : ∀ piece ∈ token.pieces,
      AddsExactly (parsePart low high piece.text) (Piece.Hits low high piece) := by
    intro piece hpiece
    cases piece with
    | item item => exact addsExactly_item hle hhigh item
    | malformed m =>
      obtain ⟨fuel, hvalues⟩ := (parsePart_nil_iff hle m.text).mpr (hrejected m hpiece)
      exact ⟨fuel, [], hvalues, fun value => by simp [Piece.Hits]⟩
  obtain ⟨fuel, lists, hlists, hmem⟩ := exists_flatten Piece.text hpieces
  have hvalues := parseToken_values fuel low high token.text
  rw [splitOn_tokenText, hlists] at hvalues
  obtain ⟨parsed, hparsed, hflatten⟩ := Option.map_eq_some_iff.mp hvalues
  refine ⟨fuel, parsed, hparsed, fun value => ?_⟩
  rw [hflatten, hmem]
  constructor
  · rintro ⟨v, hvalue, piece, hpiece, hhits⟩
    cases piece with
    | item item => exact ⟨v, hvalue, item, hpiece, hhits⟩
    | malformed m => exact absurd hhits id
  · rintro ⟨v, hvalue, item, hitem, hhits⟩
    exact ⟨v, hvalue, .item item, hitem, hhits⟩

/-- Within the bounds of a field, `parseToken` computes what a token denotes exactly when its
malformed items are rejected and its other items make up for what they miss and add. -/
theorem token_computes_iff (hle : low ≤ high) (hhigh : high < 2 ^ 53) (token : Token) :
    Computes low high token ↔ Compensated low high token := by
  constructor
  · rintro ⟨⟨fuel, parsed, hparsed, hvalues⟩, hnothing⟩
    have hrejected : ∀ m, .malformed m ∈ token.pieces → Rejected low high m.text :=
      fun m hm => (malformed_nothing_iff hle m).mp (hnothing m hm)
    obtain ⟨fuel', parsed', hparsed', hvalues'⟩ := exists_parsed hle hhigh hrejected
    obtain rfl : parsed = parsed' := by
      have h := parseToken_mono (le_max_left fuel fuel') hparsed
      rw [parseToken_mono (le_max_right fuel fuel') hparsed'] at h
      exact (Option.some.inj h).symm
    have hboth (v : Nat) : (∃ item, .item item ∈ token.pieces ∧ item.Gives low high v) ↔
        ∃ item, .item item ∈ token.pieces ∧ item.Hits low high v := by
      have hsame := (hvalues v).symm.trans (hvalues' v)
      simpa only [Nat.cast_inj, exists_eq_left'] using hsame
    refine ⟨hrejected, fun item hitem v hmisses => ?_, fun item hitem v hadds => ?_⟩
    · exact (hboth v).mp ⟨item, hitem, hmisses.1⟩
    · exact (hboth v).mpr ⟨item, hitem, .inr hadds⟩
  · rintro ⟨hrejected, hregained, hshared⟩
    obtain ⟨fuel, parsed, hparsed, hvalues⟩ := exists_parsed hle hhigh hrejected
    refine ⟨⟨fuel, parsed, hparsed, fun value => ?_⟩, fun m hm =>
      (malformed_nothing_iff hle m).mpr (hrejected m hm)⟩
    rw [hvalues]
    refine exists_congr fun v => and_congr_right fun _ => ?_
    constructor
    · rintro ⟨item, hitem, ⟨hgives, -⟩ | hadds⟩
      · exact ⟨item, hitem, hgives⟩
      · exact hshared item hitem v hadds
    · rintro ⟨item, hitem, hgives⟩
      by_cases hmisses : item.Misses low high v
      · exact hregained item hitem v hmisses
      · exact ⟨item, hitem, .inl ⟨hgives, hmisses⟩⟩

def five : Numeral := ⟨['5'], List.cons_ne_nil _ _, List.forall_mem_singleton.mpr rfl⟩

def fifteen : Numeral :=
  ⟨['1', '5'], List.cons_ne_nil _ _,
    List.forall_mem_cons.mpr ⟨rfl, List.forall_mem_singleton.mpr rfl⟩⟩

/-- `5/15` -/
def everyFifteenFromFive : Token := ⟨.item (.single five (some ⟨fifteen, by decide⟩)), []⟩

theorem step_from_single_ignored : ¬ Computes 0 59 everyFifteenFromFive := by
  rintro ⟨⟨fuel, parsed, hparsed, hvalues⟩, -⟩
  have hread : (parseToken 0 0 59 everyFifteenFromFive.text).map ParsedField.values = some [5] := by
    decide +kernel
  obtain ⟨read, hread, hfive⟩ := Option.map_eq_some_iff.mp hread
  rw [parseToken_mono (Nat.zero_le fuel) hread] at hparsed
  obtain rfl := Option.some.inj hparsed
  have htwenty : ∃ item, .item item ∈ everyFifteenFromFive.pieces ∧ item.Gives 0 59 20 :=
    ⟨_, List.mem_singleton_self _, by decide, by decide, by decide, by decide, by decide⟩
  have hmem := (hvalues 20).mpr ⟨20, by norm_num, htwenty⟩
  rw [hfive] at hmem
  norm_num at hmem

def zero : Numeral := ⟨['0'], List.cons_ne_nil _ _, List.forall_mem_singleton.mpr rfl⟩

theorem thirty_ne_nil : ['3', '0'] ≠ [] := List.cons_ne_nil _ _

theorem isDigit_thirty : ∀ c ∈ ['3', '0'], c.isDigit = true :=
  List.forall_mem_cons.mpr ⟨rfl, List.forall_mem_singleton.mpr rfl⟩

def thirty : Numeral := ⟨['3', '0'], thirty_ne_nil, isDigit_thirty⟩

/-- `0/30,30` -/
def everyThirtyAndThirty : Token :=
  ⟨.item (.single zero (some ⟨thirty, by decide⟩)), [.item (.single thirty none)]⟩

/-- The second item adds what the first one misses. -/
theorem missed_thirty_added : Computes 0 59 everyThirtyAndThirty := by
  refine (token_computes_iff (by decide) (by norm_num) everyThirtyAndThirty).mpr ⟨?_, ?_, ?_⟩
  · intro m hm
    simp [Token.pieces, everyThirtyAndThirty] at hm
  · intro item hitem v hmisses
    have hthirty : Item.Hits 0 59 (.single thirty none) 30 := by
      have hvalue : 30 = thirty.value := by decide
      refine .inl ⟨⟨by decide, by decide, hvalue⟩, ?_⟩
      rintro ⟨-, hinfinite | hskips⟩
      · exact hinfinite trivial
      · exact hskips hvalue
    obtain rfl : v = 30 := by
      obtain ⟨⟨-, hle, hdenotes⟩, hwrong⟩ := hmisses
      simp only [Token.pieces, everyThirtyAndThirty, List.mem_cons, Piece.item.injEq,
        List.not_mem_nil, or_false] at hitem
      rcases hitem with rfl | rfl
      · have hne : v ≠ 0 := hwrong.resolve_left fun hinfinite => hinfinite ⟨30, by decide +kernel⟩
        have hdvd : 30 ∣ v - 0 := hdenotes.2.2
        omega
      · exact hdenotes
    exact ⟨_, List.mem_cons_of_mem _ List.mem_cons_self, hthirty⟩
  · intro item hitem v hadds
    cases item with
    | all step => exact absurd hadds id
    | single n step => exact absurd hadds id
    | range first last step => simp [Token.pieces, everyThirtyAndThirty] at hitem

end MissionControl.Cron.FieldDenotation
