import Mathlib.Algebra.Order.Archimedean.Basic
import Mathlib.Algebra.Order.Field.Rat
import Mathlib.Data.Int.Log
import Mathlib.Data.Rat.Floor
import Mathlib.Tactic.FieldSimp
import Mathlib.Tactic.Linarith
import Mathlib.Tactic.NormNum
import Mathlib.Tactic.Ring
import MissionControl.Foundations.JsText
import MissionControl.Foundations.Numbers

/-!
Numbers of 64 bits: a real number is taken for the nearest of them, of two that are equally near
for the one with an even last place, and from about `2 ^ 1024` on for an infinite number. Texts are read as numbers the
way ECMAScript reads them.
-/

set_option autoImplicit false
set_option relaxedAutoImplicit false

namespace MissionControl.Foundations.Doubles

open JsText (digitValue trimChars)
open Numbers (Number)

/-! ### Rounding to integers -/

/-- The nearest integer, of two the even one. -/
def roundEven (x : ℚ) : Int :=
  if x - ⌊x⌋ < 1 / 2 then ⌊x⌋
  else if 1 / 2 < x - ⌊x⌋ then ⌊x⌋ + 1
  else if ⌊x⌋ % 2 = 0 then ⌊x⌋
  else ⌊x⌋ + 1

theorem roundEven_cases (x : ℚ) :
    (roundEven x = ⌊x⌋ ∧ x - ⌊x⌋ ≤ 1 / 2) ∨ (roundEven x = ⌊x⌋ + 1 ∧ 1 / 2 ≤ x - ⌊x⌋) := by
  unfold roundEven
  split
  · rename_i h
    exact .inl ⟨rfl, h.le⟩
  · rename_i h
    split
    · rename_i h'
      exact .inr ⟨rfl, h'.le⟩
    · rename_i h'
      split
      · exact .inl ⟨rfl, not_lt.mp h'⟩
      · exact .inr ⟨rfl, not_lt.mp h⟩

theorem le_roundEven {n : Int} {x : ℚ} (h : n ≤ x) : n ≤ roundEven x := by
  have hfloor : n ≤ ⌊x⌋ := Int.le_floor.mpr h
  rcases roundEven_cases x with ⟨heq, -⟩ | ⟨heq, -⟩ <;> omega

@[simp] theorem roundEven_intCast (n : Int) : roundEven n = n := by
  simp [roundEven]

/-- The nearest integer is at most one half away. -/
theorem sub_half_le_roundEven (x : ℚ) : x - 1 / 2 ≤ roundEven x := by
  rcases roundEven_cases x with ⟨heq, hnear⟩ | ⟨heq, hnear⟩
  · rw [heq]
    linarith
  · have hbelow := Int.lt_floor_add_one x
    rw [heq]
    push_cast
    linarith

/-! ### Rounding to places -/

/-- The exponent of the last place that is kept. -/
def lastPlace (x : ℚ) : Int := max (Int.log 2 |x| - 52) (-1074)

def rounded (x : ℚ) : ℚ := roundEven (x / 2 ^ lastPlace x) * 2 ^ lastPlace x

/-- The number that a real number is taken for. -/
def double (x : ℚ) : Number :=
  if |rounded x| < 2 ^ 1024 then .finite (rounded x) else .infinite (rounded x < 0)

theorem place_pos (x : ℚ) : (0 : ℚ) < 2 ^ lastPlace x := zpow_pos (by norm_num) _

/-- What is not above a number is not above what it is taken for, if it has no places beyond. -/
theorem multiple_le_rounded {n : Int} {x : ℚ} (h : n * 2 ^ lastPlace x ≤ x) :
    n * 2 ^ lastPlace x ≤ rounded x := by
  have hquotient : (n : ℚ) ≤ x / 2 ^ lastPlace x := (le_div_iff₀ (place_pos x)).mpr h
  have hround : n ≤ roundEven (x / 2 ^ lastPlace x) := le_roundEven hquotient
  exact mul_le_mul_of_nonneg_right (by exact_mod_cast hround) (place_pos x).le

/-- An integer has no places after the point. -/
theorem exists_multiple (n : Int) {place : Int} (h : place ≤ 0) :
    ∃ m : Int, (n : ℚ) = m * 2 ^ place := by
  obtain ⟨k, rfl⟩ := Int.exists_eq_neg_ofNat h
  refine ⟨n * 2 ^ k, ?_⟩
  push_cast
  rw [zpow_neg, zpow_natCast, mul_assoc, mul_inv_cancel₀ (by positivity), mul_one]

theorem natCast_le_rounded {n : Nat} {x : ℚ} (hn : n ≤ 2 ^ 53) (h : (n : ℚ) ≤ x) :
    (n : ℚ) ≤ rounded x := by
  by_cases hplace : lastPlace x ≤ 0
  · obtain ⟨m, hm⟩ := exists_multiple n hplace
    push_cast at hm
    rw [hm] at h ⊢
    exact multiple_le_rounded h
  · -- the last place is before the point only where the number is above all of these integers
    have hlog : lastPlace x = Int.log 2 |x| - 52 := by
      unfold lastPlace at hplace ⊢
      omega
    have hx : 0 < |x| := by
      rw [abs_pos]
      rintro rfl
      simp at hlog
      omega
    have hnonneg : (0 : ℚ) ≤ x := le_trans (by positivity) h
    have hpower : (2 : ℚ) ^ Int.log 2 |x| ≤ x := by
      have hself := Int.zpow_log_le_self (b := 2) (by norm_num) hx
      rwa [abs_of_nonneg hnonneg] at hself ⊢
    have hsplit : ((2 ^ 52 : Int) : ℚ) * 2 ^ lastPlace x = 2 ^ Int.log 2 |x| := by
      rw [hlog, zpow_sub₀ (by norm_num)]
      norm_num
      field_simp
    have hlarge : (2 : ℚ) ^ (53 : Int) ≤ 2 ^ Int.log 2 |x| :=
      zpow_le_zpow_right₀ (by norm_num) (by omega)
    calc
      (n : ℚ) ≤ 2 ^ (53 : Int) := by exact_mod_cast hn
      _ ≤ ((2 ^ 52 : Int) : ℚ) * 2 ^ lastPlace x := hlarge.trans hsplit.ge
      _ ≤ rounded x := multiple_le_rounded (hsplit.le.trans hpower)

theorem lastPlace_natCast_le {n : Nat} (hn : n < 2 ^ 53) : lastPlace (n : ℚ) ≤ 0 := by
  rw [lastPlace, Nat.abs_cast, Int.log_natCast]
  have hlog : Nat.log 2 n < 53 := Nat.log_lt_of_lt_pow' (by omega) hn
  omega

/-- Small integers are kept. -/
@[simp] theorem rounded_natCast {n : Nat} (hn : n < 2 ^ 53) : rounded n = n := by
  obtain ⟨m, hm⟩ := exists_multiple n (lastPlace_natCast_le hn)
  push_cast at hm
  have hquotient : (n : ℚ) / 2 ^ lastPlace (n : ℚ) = m :=
    (div_eq_iff (place_pos n).ne').mpr hm
  rw [rounded, hquotient, roundEven_intCast, ← hm]

theorem double_natCast {n : Nat} (hn : n < 2 ^ 53) : double n = .finite n := by
  have hbound : |(n : ℚ)| < 2 ^ 1024 := by
    rw [Nat.abs_cast]
    calc
      (n : ℚ) < 2 ^ 53 := by exact_mod_cast hn
      _ < 2 ^ 1024 := pow_lt_pow_right₀ (by norm_num) (by norm_num)
  rw [double, rounded_natCast hn, if_pos hbound]

theorem natCast_le_of_double {n : Nat} {x y : ℚ} (hn : n ≤ 2 ^ 53) (h : (n : ℚ) ≤ x)
    (hy : double x = .finite y) : (n : ℚ) ≤ y := by
  unfold double at hy
  split at hy
  · injection hy with hy
    rw [← hy]
    exact natCast_le_rounded hn h
  · cases hy

/-- A number below `2 ^ k` is taken for one that is less by at most half of its last place. -/
theorem sub_le_rounded {k : Int} {x : ℚ} (hk : -1021 ≤ k) (hx : 0 < x) (h : x < 2 ^ k) :
    x - 2 ^ (k - 54) ≤ rounded x := by
  have hlog : Int.log 2 |x| < k := by
    rw [abs_of_pos hx]
    exact (Int.lt_zpow_iff_log_lt (by norm_num) hx).mp (by exact_mod_cast h)
  have hplace : lastPlace x ≤ k - 53 := by
    unfold lastPlace
    omega
  have hpower : (2 : ℚ) ^ lastPlace x ≤ 2 ^ (k - 53) :=
    zpow_le_zpow_right₀ (by norm_num) hplace
  have hhalf : (2 : ℚ) ^ (k - 54) = 2 ^ (k - 53) / 2 := by
    rw [show k - 54 = k - 53 - 1 by omega, zpow_sub_one₀ (by norm_num)]
    rfl
  have hround := mul_le_mul_of_nonneg_right
    (sub_half_le_roundEven (x / 2 ^ lastPlace x)) (place_pos x).le
  rw [sub_mul, div_mul_cancel₀ _ (place_pos x).ne'] at hround
  have heq : rounded x = roundEven (x / 2 ^ lastPlace x) * 2 ^ lastPlace x := rfl
  rw [heq, hhalf]
  linarith

example : double (1 / 3) = .finite (6004799503160661 / 2 ^ 54) ∧
    double (59 + 1 / 10 ^ 20) = .finite 59 ∧ double (10 ^ 309) = .infinite false := by
  decide +kernel

/-! ### Texts -/

/-- The number of a text of digits. -/
def digitsNumber (base : Nat) (cs : List Char) : Option Nat :=
  if cs ≠ [] ∧ cs.all (fun c => (digitValue c).any (· < base)) = true then
    some (cs.foldl (fun n c => n * base + (digitValue c).getD 0) 0)
  else none

/-- What may follow the digits of a decimal number: nothing, or the exponent. -/
def exponent : List Char → Option Int
  | [] => some 0
  | c :: cs =>
    if c = 'e' ∨ c = 'E' then
      match cs with
      | '+' :: ds => (digitsNumber 10 ds).map fun n => (n : Int)
      | '-' :: ds => (digitsNumber 10 ds).map fun n => -(n : Int)
      | ds => (digitsNumber 10 ds).map fun n => (n : Int)
    else none

/-- A decimal number without its sign. -/
def decimal (cs : List Char) : Option ℚ :=
  let whole := cs.takeWhile Char.isDigit
  let rest := cs.dropWhile Char.isDigit
  let fraction := if rest.head? = some '.' then rest.tail.takeWhile Char.isDigit else []
  let after := if rest.head? = some '.' then rest.tail.dropWhile Char.isDigit else rest
  (digitsNumber 10 (whole ++ fraction)).bind fun n =>
    (exponent after).map fun (e : Int) => (n : ℚ) * (10 : ℚ) ^ (e - (fraction.length : Int))

/-- What may follow the sign of a number. -/
def unsigned (negative : Bool) (cs : List Char) : Number :=
  if cs = "Infinity".toList then .infinite negative
  else
    match decimal cs with
    | some x => double (if negative then -x else x)
    | none => .nan

def integer (base : Nat) (cs : List Char) : Number :=
  match digitsNumber base cs with
  | some n => double n
  | none => .nan

/-- The base that the letter after a leading zero announces. -/
def base (c : Char) : Option Nat :=
  if c = 'x' ∨ c = 'X' then some 16
  else if c = 'o' ∨ c = 'O' then some 8
  else if c = 'b' ∨ c = 'B' then some 2
  else none

/-- `Number(text)`. -/
def number (text : List Char) : Number :=
  match trimChars text with
  | [] => .finite 0
  | c :: cs =>
    if c = '+' then unsigned false cs
    else if c = '-' then unsigned true cs
    else
      match if c = '0' then cs.head?.bind base else none with
      | some b => integer b cs.tail
      | none => unsigned false (c :: cs)

theorem digitValue_of_isDigit {c : Char} (h : c.isDigit = true) :
    digitValue c = some (c.toNat - '0'.toNat) ∧ c.toNat - '0'.toNat < 10 := by
  have hrange : '0' ≤ c ∧ c ≤ '9' := by
    simpa [Char.isDigit, Char.le_def] using h
  refine ⟨if_pos hrange, ?_⟩
  have hlast : c.toNat ≤ '9'.toNat := hrange.2
  have hnine : '9'.toNat = 57 := rfl
  have hzero : '0'.toNat = 48 := rfl
  omega

theorem digitsNumber_ten {cs : List Char} (hne : cs ≠ []) (h : ∀ c ∈ cs, c.isDigit = true) :
    digitsNumber 10 cs = some (Nat.ofDigitChars 10 cs 0) := by
  have hall : cs.all (fun c => (digitValue c).any (· < 10)) = true := by
    rw [List.all_eq_true]
    intro c hc
    obtain ⟨hvalue, hlt⟩ := digitValue_of_isDigit (h c hc)
    rw [hvalue, Option.any_some, decide_eq_true hlt]
  have hfold : ∀ n, cs.foldl (fun n c => n * 10 + (digitValue c).getD 0) n =
      Nat.ofDigitChars 10 cs n := by
    clear hne hall
    induction cs with
    | nil => intro n; rfl
    | cons c cs ih =>
      intro n
      have hvalue := (digitValue_of_isDigit (h c List.mem_cons_self)).1
      rw [List.foldl_cons, Nat.ofDigitChars_cons, hvalue, Option.getD_some, Nat.mul_comm n 10]
      exact ih (fun d hd => h d (List.mem_cons_of_mem c hd)) _
  rw [digitsNumber, if_pos ⟨hne, hall⟩, hfold]

theorem not_whiteSpace_of_isDigit {c : Char} (h : c.isDigit = true) :
    JsText.isWhiteSpace c = false := by
  obtain ⟨-, hlt⟩ := digitValue_of_isDigit h
  have hrange : '0' ≤ c := by
    simp only [Char.isDigit, Bool.and_eq_true, decide_eq_true_eq] at h
    exact h.1
  have hfirst : '0'.toNat ≤ c.toNat := hrange
  have hzero : '0'.toNat = 48 := rfl
  have hvalue : 48 ≤ c.toNat ∧ c.toNat ≤ 57 := by omega
  simp [JsText.isWhiteSpace]
  omega

/-- A text of digits is read as the number that they stand for. -/
theorem number_digits {cs : List Char} (hne : cs ≠ []) (h : ∀ c ∈ cs, c.isDigit = true) :
    number cs = double (Nat.ofDigitChars 10 cs 0 : Nat) := by
  have hwords : trimChars cs = cs :=
    JsText.trimChars_of_words fun c hc => not_whiteSpace_of_isDigit (h c hc)
  have htake : cs.takeWhile Char.isDigit = cs := List.takeWhile_eq_self_iff.mpr h
  have hdrop : cs.dropWhile Char.isDigit = [] := List.dropWhile_eq_nil_iff.mpr h
  have hdecimal : decimal cs = some ((Nat.ofDigitChars 10 cs 0 : Nat) : ℚ) := by
    simp [decimal, htake, hdrop, digitsNumber_ten hne h, exponent]
  have hunsigned : unsigned false cs = double (Nat.ofDigitChars 10 cs 0 : Nat) := by
    have hinfinity : cs ≠ "Infinity".toList := by
      rintro rfl
      exact absurd (h 'I' (by decide)) (by decide)
    rw [unsigned, if_neg hinfinity, hdecimal]
    rfl
  cases cs with
  | nil => exact absurd rfl hne
  | cons c cs =>
    have hfirst := h c List.mem_cons_self
    have hplus : c ≠ '+' := by
      rintro rfl
      exact absurd hfirst (by decide)
    have hminus : c ≠ '-' := by
      rintro rfl
      exact absurd hfirst (by decide)
    have hbase : cs.head?.bind base = none := by
      cases cs with
      | nil => rfl
      | cons d ds =>
        have hnext := h d (List.mem_cons_of_mem _ List.mem_cons_self)
        have hall : ∀ l ∈ ['x', 'X', 'o', 'O', 'b', 'B'], l.isDigit = false := by simp
        have hletters : ∀ l ∈ ['x', 'X', 'o', 'O', 'b', 'B'], d ≠ l := by
          rintro l hl rfl
          rw [hall d hl] at hnext
          cases hnext
        simp only [List.mem_cons, List.not_mem_nil, or_false, forall_eq_or_imp, forall_eq]
          at hletters
        simp [base, hletters]
    unfold number
    rw [hwords]
    simp only [hplus, hminus, hbase, if_false, ite_self]
    exact hunsigned

example : number " 0x1F ".toList = .finite 31 ∧ number "".toList = .finite 0 ∧
    number "-.5e1".toList = .finite (-5) ∧ number "1-2".toList = .nan ∧
    number "Infinity".toList = .infinite false ∧ number "1e400".toList = .infinite false ∧
    number "1e-400".toList = .finite 0 := by decide +kernel

end MissionControl.Foundations.Doubles
