import Mathlib.Data.List.DropRight
import Mathlib.Data.List.Infix

/-!
The string operations of ECMAScript that programs lean on: the falsy empty string, `trim`,
the changes of case, the search for a part, lengths and cuts in code units, padding, and the clock
in whole seconds.
-/

set_option autoImplicit false
set_option relaxedAutoImplicit false

namespace MissionControl.Foundations.JsText

/-- `a || b` on strings: the empty string is falsy. -/
def orElse (a b : String) : String := if a = "" then b else a

/-- `a || null` on an optional string. -/
def truthy (a : Option String) : Option String := a.filter (· ≠ "")

theorem truthy_of_ne {s : String} (h : s ≠ "") : truthy (some s) = some s :=
  Option.filter_eq_some_iff.mpr ⟨rfl, decide_eq_true h⟩

/-- The code points that ECMAScript calls white space or line terminators. -/
def isWhiteSpace (c : Char) : Bool :=
  (9 ≤ c.toNat && c.toNat ≤ 13) || c.toNat = 32 || c.toNat = 0xA0 || c.toNat = 0x1680 ||
    (0x2000 ≤ c.toNat && c.toNat ≤ 0x200A) || c.toNat = 0x2028 || c.toNat = 0x2029 ||
    c.toNat = 0x202F || c.toNat = 0x205F || c.toNat = 0x3000 || c.toNat = 0xFEFF

/-- Drop the white space at both ends of a text. -/
def trimChars (cs : List Char) : List Char :=
  ((cs.dropWhile isWhiteSpace).reverse.dropWhile isWhiteSpace).reverse

/-- `String.prototype.trim`. -/
def trim (s : String) : String := String.ofList (trimChars s.toList)

theorem dropWhile_of_prefix {α : Type} {p : α → Bool} {l l' : List α} (h : l <+: l')
    (hl' : l'.dropWhile p = l') : l.dropWhile p = l := by
  cases l with
  | nil => rfl
  | cons c cs =>
    obtain ⟨t, rfl⟩ := h
    rw [List.dropWhile_eq_self_iff] at hl' ⊢
    intro _
    exact hl' (Nat.succ_pos _)

theorem trimChars_trimChars (cs : List Char) : trimChars (trimChars cs) = trimChars cs := by
  have hright : trimChars cs = (cs.dropWhile isWhiteSpace).rdropWhile isWhiteSpace := rfl
  have hleft : (trimChars cs).dropWhile isWhiteSpace = trimChars cs := by
    rw [hright]
    exact dropWhile_of_prefix (List.rdropWhile_prefix _ _) (List.dropWhile_idempotent _ _)
  calc
    trimChars (trimChars cs) = ((trimChars cs).dropWhile isWhiteSpace).rdropWhile isWhiteSpace := rfl
    _ = (trimChars cs).rdropWhile isWhiteSpace := by rw [hleft]
    _ = trimChars cs := by rw [hright, List.rdropWhile_idempotent]

theorem trimChars_eq_nil_iff {cs : List Char} :
    trimChars cs = [] ↔ ∀ c ∈ cs, isWhiteSpace c = true := by
  constructor
  · intro h c hc
    by_contra hword
    have hright : (cs.dropWhile isWhiteSpace).rdropWhile isWhiteSpace = [] := h
    rw [List.rdropWhile_eq_nil_iff] at hright
    have hmem : c ∈ cs.takeWhile isWhiteSpace ++ cs.dropWhile isWhiteSpace := by
      rw [List.takeWhile_append_dropWhile]
      exact hc
    rcases List.mem_append.mp hmem with hmem | hmem
    · exact hword (List.mem_takeWhile_imp hmem)
    · exact hword (hright c hmem)
  · intro h
    rw [trimChars, List.dropWhile_eq_nil_iff.mpr h]
    rfl

/-- A text that begins with a word keeps its beginning. -/
theorem head?_trimChars {c : Char} {cs : List Char} (h : isWhiteSpace c = false) :
    (trimChars (c :: cs)).head? = some c := by
  have hright : trimChars (c :: cs) = (c :: cs).rdropWhile isWhiteSpace := by
    rw [trimChars, List.dropWhile_cons_of_neg (by simp [h])]
    rfl
  obtain ⟨dropped, hdropped⟩ := List.rdropWhile_prefix isWhiteSpace (c :: cs)
  rw [hright]
  cases hkept : (c :: cs).rdropWhile isWhiteSpace with
  | nil =>
    have hall := List.rdropWhile_eq_nil_iff.mp hkept c List.mem_cons_self
    rw [h] at hall
    cases hall
  | cons d ds =>
    rw [hkept] at hdropped
    obtain ⟨rfl, -⟩ := List.cons.inj hdropped
    rfl

theorem trimChars_of_words {cs : List Char} (h : ∀ c ∈ cs, isWhiteSpace c = false) :
    trimChars cs = cs := by
  have hleft : cs.dropWhile isWhiteSpace = cs := by
    rw [List.dropWhile_eq_self_iff]
    intro hlength
    simp [h _ (List.getElem_mem hlength)]
  have hright : cs.rdropWhile isWhiteSpace = cs := by
    rw [List.rdropWhile_eq_self_iff]
    intro hne
    simp [h _ (List.getLast_mem hne)]
  calc
    trimChars cs = (cs.dropWhile isWhiteSpace).rdropWhile isWhiteSpace := rfl
    _ = cs := by rw [hleft, hright]

theorem trimChars_subset (cs : List Char) : trimChars cs ⊆ cs := by
  have hright : trimChars cs = (cs.dropWhile isWhiteSpace).rdropWhile isWhiteSpace := rfl
  rw [hright]
  exact List.Subset.trans (List.rdropWhile_prefix _ _).subset (List.dropWhile_suffix _).subset

theorem trim_trim (s : String) : trim (trim s) = trim s := by
  rw [trim, trim, String.toList_ofList, trimChars_trimChars]

/-- `String.prototype.toLowerCase`. Beyond ASCII only the two letters with an ASCII letter in
their lower case are mapped; the texts that are lowered here are then compared with ASCII. -/
def lowerChar (c : Char) : List Char :=
  if c.toNat = 0x212A then ['k']
  else if c.toNat = 0x130 then ['i', Char.ofNat 0x307]
  else [c.toLower]

def toLowerCase (s : String) : String := String.ofList (s.toList.flatMap lowerChar)

/-- What `toUpperCase` makes of a character. The letters beyond ASCII that are listed are those
with a letter from A to Z in their upper case. -/
def upperChar (c : Char) : List Char :=
  match c.toNat with
  | 0xDF => ['S', 'S']
  | 0x131 => ['I']
  | 0x149 => [Char.ofNat 0x2BC, 'N']
  | 0x17F => ['S']
  | 0x1F0 => ['J', Char.ofNat 0x30C]
  | 0x1E96 => ['H', Char.ofNat 0x331]
  | 0x1E97 => ['T', Char.ofNat 0x308]
  | 0x1E98 => ['W', Char.ofNat 0x30A]
  | 0x1E99 => ['Y', Char.ofNat 0x30A]
  | 0x1E9A => ['A', Char.ofNat 0x2BE]
  | 0xFB00 => ['F', 'F']
  | 0xFB01 => ['F', 'I']
  | 0xFB02 => ['F', 'L']
  | 0xFB03 => ['F', 'F', 'I']
  | 0xFB04 => ['F', 'F', 'L']
  | 0xFB05 => ['S', 'T']
  | 0xFB06 => ['S', 'T']
  | _ => [c.toUpper]

/-- `String.prototype.toUpperCase`, for texts of which only ASCII is kept afterwards. -/
def toUpperCase (s : String) : String := String.ofList (s.toList.flatMap upperChar)

/-- `text.includes(part)`. -/
def includes (text part : String) : Bool := text.toList.tails.any (part.toList.isPrefixOf ·)

theorem includes_iff {text part : String} : includes text part = true ↔ part.toList <:+: text.toList := by
  simp only [includes, List.any_eq_true, List.mem_tails, List.isPrefixOf_iff_prefix]
  constructor
  · rintro ⟨t, hsuffix, hprefix⟩
    exact hprefix.isInfix.trans hsuffix.isInfix
  · rintro ⟨front, back, hsplit⟩
    refine ⟨part.toList ++ back, ⟨front, ?_⟩, List.prefix_append _ _⟩
    rw [← hsplit, List.append_assoc]

/-- The UTF-16 code units of a character. -/
def codeUnits (c : Char) : Nat := if c.toNat < 0x10000 then 1 else 2

/-- `length` of a text: the number of its UTF-16 code units. -/
def utf16Length (s : String) : Nat := s.toList.foldl (fun n c => n + codeUnits c) 0

/-- The characters within the first `n` code units, without one that they cut in two. -/
def takeUnits : Nat → List Char → List Char
  | _, [] => []
  | n, c :: cs => if codeUnits c ≤ n then c :: takeUnits (n - codeUnits c) cs else []

/-- `text.padStart(width, '0')` on a text of digits. -/
def padStart (width : Nat) (text : String) : String :=
  String.ofList (List.replicate (width - text.length) '0' ++ text.toList)

/-- Padding in front with zeros leaves the number of the digits as it is. -/
theorem padStart_toString_inj {width m n : Nat}
    (h : padStart width (toString m) = padStart width (toString n)) : m = n := by
  have hvalue : ∀ k : Nat, Nat.ofDigitChars 10 (padStart width (toString k)).toList 0 = k := by
    intro k
    simp only [padStart, String.toList_ofList, Nat.toString_eq_repr, Nat.toList_repr,
      Nat.ofDigitChars_append, Nat.ofDigitChars_replicate_zero, Nat.mul_zero,
      Nat.ofDigitChars_ten_toDigits]
  calc
    m = Nat.ofDigitChars 10 (padStart width (toString m)).toList 0 := (hvalue m).symm
    _ = Nat.ofDigitChars 10 (padStart width (toString n)).toList 0 := by rw [h]
    _ = n := hvalue n

theorem isDigit_of_mem_padStart {width n : Nat} {c : Char}
    (h : c ∈ (padStart width (toString n)).toList) : c.isDigit := by
  rw [padStart, String.toList_ofList, Nat.toString_eq_repr, Nat.toList_repr] at h
  rcases List.mem_append.mp h with hzero | hdigit
  · rw [(List.mem_replicate.mp hzero).2]
    rfl
  · exact Nat.isDigit_of_mem_toDigits (by omega) (by omega) hdigit

/-! ### Numbers and words in texts -/

/-- The value of a digit in bases up to sixteen, with letters of either case. -/
def digitValue (c : Char) : Option Nat :=
  if '0' ≤ c ∧ c ≤ '9' then some (c.toNat - '0'.toNat)
  else if 'a' ≤ c ∧ c ≤ 'f' then some (c.toNat - 'a'.toNat + 10)
  else if 'A' ≤ c ∧ c ≤ 'F' then some (c.toNat - 'A'.toNat + 10)
  else none

/-- The number that the longest run of digits in front stands for, unless there is none. -/
def leadingNumber (base : Nat) (cs : List Char) : Option Nat :=
  match cs.takeWhile fun c => (digitValue c).any (· < base) with
  | [] => none
  | digits => some (digits.foldl (fun n c => n * base + (digitValue c).getD 0) 0)

/-- A number with an optional sign in front, after white space; `none` is `NaN`. -/
def signed (unsigned : List Char → Option Nat) (s : String) : Option Int :=
  match s.toList.dropWhile isWhiteSpace with
  | '-' :: cs => (unsigned cs).map fun n => -(n : Int)
  | '+' :: cs => (unsigned cs).map fun n => (n : Int)
  | cs => (unsigned cs).map fun n => (n : Int)

/-- `parseInt(text)`, which knows hexadecimal numbers by their beginning. -/
def parseInt (s : String) : Option Int :=
  signed (fun
    | '0' :: 'x' :: cs => leadingNumber 16 cs
    | '0' :: 'X' :: cs => leadingNumber 16 cs
    | cs => leadingNumber 10 cs) s

/-- `parseInt(text, 10)`. -/
def parseDecimal (s : String) : Option Int := signed (leadingNumber 10) s

/-- `text.split(/\s+/)`. -/
def words : List Char → List (List Char)
  | [] => [[]]
  | c :: cs =>
    match words cs with
    | [] => [[c]]
    | word :: rest =>
      if isWhiteSpace c then
        if word = [] ∧ rest ≠ [] then word :: rest else [] :: word :: rest
      else (c :: word) :: rest

/-- `Math.floor(Date.now() / 1000)`: the reading of a millisecond clock in whole seconds. -/
def seconds (nowMs : Nat) : Nat := nowMs / 1000

end MissionControl.Foundations.JsText
