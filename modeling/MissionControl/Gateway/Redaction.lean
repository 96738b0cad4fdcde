import MissionControl.Foundations.JsText
import MissionControl.Foundations.JsonPlaces
import MissionControl.Foundations.LetterCase

/-!
What an administrator is shown of the configuration. A string under a key that names a secret is
masked. What else may stand under such a key is shown as it is, and so is whatever stands under the
one name that is looked for in mixed case.
-/

set_option autoImplicit false
set_option relaxedAutoImplicit false

namespace MissionControl.Gateway.Redaction

open MissionControl.Foundations.JsText
open MissionControl.Foundations.JsonPlaces
open MissionControl.Foundations.JsonValues
open MissionControl.Foundations.LetterCase
open MissionControl.Foundations.Schema (Json lookup)

/-! ### The redaction -/

def sensitiveKeys : List String := ["password", "secret", "token", "api_key", "apiKey"]

def mask : String := "••••••••"

/-- `sensitiveKeys.some(sk => key.toLowerCase().includes(sk))`. -/
def isSensitive (key : String) : Bool := sensitiveKeys.any fun sk => includes (toLowerCase key) sk

/-- What is assigned to a sensitive key. -/
def redactString : Json → Json
  | .string s => if s ≠ "" then .string mask else .string s
  | v => v

mutual

/-- `redactSensitive`; the keys of an array are the indices of its elements. -/
def redactSensitive : Json → Json
  | .array items => .array (redactItems 0 items)
  | .object fields => .object (redactFields fields)
  | obj => obj

def redactItems : Nat → List Json → List Json
  | _, [] => []
  | i, item :: items =>
    (if isSensitive (toString i) then redactString item else redactSensitive item) ::
      redactItems (i + 1) items

def redactFields : List (String × Json) → List (String × Json)
  | [] => []
  | (key, v) :: fields =>
    (key, if isSensitive key then redactString v else redactSensitive v) :: redactFields fields

end

/-- The configuration that `GET` answers with, from the one that is parsed: a copy is redacted. -/
def redacted {Text : Type} (format : Format Text) (parsed : Json) : Option Json :=
  ((format.print parsed).bind format.parse).map redactSensitive

theorem redacted_of_print {Text : Type} {format : Format Text} {parsed : Json} {text : Text}
    (h : format.print parsed = some text) : redacted format parsed = some (redactSensitive parsed) := by
  rw [redacted, h, Option.bind_some, format.parse_print _ _ h, Option.map_some]

/-! ### Sensitive keys -/

/-- The index of an element has no letters. -/
theorem isSensitive_index (i : Nat) : isSensitive (toString i) = false := by
  have hlower : (toLowerCase (toString i)).toList = (Nat.toDigits 10 i).flatMap lowerChar := by
    rw [toLowerCase, String.toList_ofList, Nat.toString_eq_repr, Nat.toList_repr]
  have hdigits : ∀ c ∈ (toLowerCase (toString i)).toList, c.isDigit = true := by
    intro c hc
    rw [hlower] at hc
    obtain ⟨d, hd, hcd⟩ := List.mem_flatMap.mp hc
    have hdigit : d.isDigit = true := Nat.isDigit_of_mem_toDigits (by omega) (by omega) hd
    have hsmall : d.toNat < 128 := by
      simp only [Char.isDigit, Bool.and_eq_true, decide_eq_true_eq] at hdigit
      have hle : d.toNat ≤ 57 := hdigit.2
      omega
    rw [lowerChar_small hsmall, List.mem_singleton] at hcd
    rw [hcd]
    exact of_small (p := fun d => d.isDigit = true → d.toLower.isDigit = true)
      (by decide +kernel) hsmall hdigit
  have hword : ∀ sk ∈ sensitiveKeys, sk.toList.any (fun c => !c.isDigit) = true := by
    decide +kernel
  rw [isSensitive, List.any_eq_false]
  intro sk hsk
  rw [includes_iff]
  intro hwithin
  obtain ⟨c, hc, hletter⟩ := List.any_eq_true.mp (hword sk hsk)
  rw [hdigits c (hwithin.subset hc)] at hletter
  cases hletter

/-- A lowered text has no capital letter. -/
theorem not_mem_toLowerCase (key : String) : 'K' ∉ (toLowerCase key).toList := by
  rw [toLowerCase, String.toList_ofList, List.mem_flatMap]
  rintro ⟨c, -, hc⟩
  by_cases hsmall : c.toNat < 128
  · rw [lowerChar_small hsmall, List.mem_singleton] at hc
    exact of_small (p := fun c => 'K' ≠ c.toLower) (by decide) hsmall hc
  · unfold lowerChar at hc
    split at hc
    · revert hc
      decide
    · split at hc
      · revert hc
        decide
      · rw [toLower_of_large (by omega), List.mem_singleton] at hc
        subst hc
        revert hsmall
        decide

/-- The last of the names is never found. -/
theorem isSensitive_iff (key : String) : isSensitive key = true ↔
    ∃ sk ∈ ["password", "secret", "token", "api_key"], includes (toLowerCase key) sk = true := by
  have hlast : includes (toLowerCase key) "apiKey" = false := by
    rw [← Bool.not_eq_true, includes_iff]
    intro hwithin
    exact not_mem_toLowerCase key (hwithin.subset (by decide))
  simp [isSensitive, sensitiveKeys, hlast]

/-! ### The redaction as a replacement -/

mutual

theorem redactSensitive_eq : ∀ v : Json, redactSensitive v = replace isSensitive redactString v
  | .null => rfl
  | .bool _ => rfl
  | .number _ => rfl
  | .string _ => rfl
  | .array items => by rw [redactSensitive, replace, redactItems_eq 0 items]
  | .object fields => by rw [redactSensitive, replace, redactFields_eq fields]

theorem redactItems_eq : ∀ (i : Nat) (items : List Json),
    redactItems i items = replaceItems isSensitive redactString items
  | _, [] => rfl
  | i, item :: items => by
    rw [redactItems, replaceItems, isSensitive_index i, if_neg Bool.false_ne_true,
      redactSensitive_eq item, redactItems_eq (i + 1) items]

theorem redactFields_eq : ∀ fields : List (String × Json),
    redactFields fields = replaceFields isSensitive redactString fields
  | [] => rfl
  | (key, v) :: fields => by
    rw [redactFields, replaceFields, redactSensitive_eq v, redactFields_eq fields]

end

/-! ### Completeness -/

/-- The key contains one of the names, in any letter case. -/
def namesSecret (key : String) : Bool :=
  sensitiveKeys.any fun sk => includes (toLowerCase key) (toLowerCase sk)

/-- The place is below a key that names a secret, or is the place of its value. -/
def Below (path : List Step) : Prop := ∃ s ∈ path, s.satisfies namesSecret = true

/-- No string below a key that names a secret is there afterwards, and what is not below such a
key is as it was. -/
def Hides (v v' : Json) : Prop :=
  (∀ path s, Below path → place v path = some (.string s) → s ≠ "" →
    place v' path ≠ some (.string s)) ∧
  ∀ path, ¬ Below path → (place v' path).map outline = (place v path).map outline

/-- The string is the value of a sensitive key that is below no other one, and is not the mask. -/
def Maskable (path : List Step) (s : String) : Prop :=
  s ≠ mask ∧ ∃ front key, path = front ++ [.key key] ∧ isSensitive key = true ∧
    ∀ step ∈ front, step.satisfies isSensitive = false

theorem namesSecret_of_isSensitive {key : String} (h : isSensitive key = true) :
    namesSecret key = true := by
  obtain ⟨sk, hsk, hin⟩ := (isSensitive_iff key).mp h
  have hlower : ∀ sk ∈ ["password", "secret", "token", "api_key"],
      sk ∈ sensitiveKeys ∧ toLowerCase sk = sk := by decide +kernel
  obtain ⟨hmem, hsame⟩ := hlower sk hsk
  exact List.any_eq_true.mpr ⟨sk, hmem, by rwa [hsame]⟩

theorem satisfies_namesSecret {s : Step} (h : s.satisfies isSensitive = true) :
    s.satisfies namesSecret = true := by
  cases s with
  | key name => exact namesSecret_of_isSensitive h
  | index i => cases h

theorem cut_of_not_below {path : List Step} (h : ¬ Below path) : cut isSensitive path = none := by
  rw [cut_eq_none_iff]
  intro s hs
  rw [← Bool.not_eq_true]
  intro hsensitive
  exact h ⟨s, hs, satisfies_namesSecret hsensitive⟩

/-- A string that stands somewhere is replaced exactly if it is the value of a sensitive key. -/
theorem place_redactSensitive_ne_iff {v : Json} {path : List Step} {s : String}
    (hplace : place v path = some (.string s)) (hs : s ≠ "") :
    place (redactSensitive v) path ≠ some (.string s) ↔ Maskable path s := by
  rw [redactSensitive_eq]
  cases hcut : cut isSensitive path with
  | none =>
    have hsame : place (replace isSensitive redactString v) path = some (.string s) := by
      rw [place_replace_of_cut_eq_none hcut, hplace]
      rfl
    have hnot : ¬ Maskable path s := by
      rintro ⟨-, front, key, rfl, hkey, -⟩
      have hnone := cut_eq_none_iff.mp hcut (.key key) (by simp)
      rw [Step.satisfies, hkey] at hnone
      cases hnone
    simp [hsame, hnot]
  | some parts =>
    obtain ⟨front, back⟩ := parts
    obtain ⟨rfl, before, step, rfl, hstep, hbefore⟩ := cut_eq_some_iff.mp hcut
    rw [place_append] at hplace
    obtain ⟨inner, hinner, hback⟩ := Option.bind_eq_some_iff.mp hplace
    rw [place_replace_of_cut_eq_some hcut, hinner, Option.bind_some]
    cases back with
    | nil =>
      obtain rfl : inner = .string s := Option.some.inj hback
      have hmasked : place (redactString (.string s)) [] = some (.string mask) := by
        rw [redactString, if_pos hs]
        rfl
      rw [hmasked, ne_eq, Option.some.injEq, Json.string.injEq]
      constructor
      · intro hne
        cases step with
        | key name =>
          exact ⟨fun hsame => hne hsame.symm, before, name, by simp, hstep, hbefore⟩
        | index i => cases hstep
      · rintro ⟨hne, -⟩ hsame
        exact hne hsame.symm
    | cons next back =>
      -- What has something in it is no string, and is left as it is.
      have hkept : redactString inner = inner := by
        cases inner with
        | string t => cases next <;> cases hback
        | _ => rfl
      have hnot : ¬ Maskable (before ++ [step] ++ next :: back) s := by
        rintro ⟨-, front, key, hpath, -, hfront⟩
        have hmem : step ∈ front := by
          have hdrop := congrArg List.dropLast hpath
          rw [List.dropLast_concat, List.dropLast_append_of_ne_nil (List.cons_ne_nil _ _)] at hdrop
          rw [← hdrop]
          simp
        rw [hfront step hmem] at hstep
        cases hstep
      rw [hkept, hback]
      simp only [ne_eq, not_true_eq_false, hnot]

/-- The redaction hides every secret exactly if each string below a key that names one is the
value of a sensitive key that is below no other one, and is not the mask. -/
theorem redactSensitive_hides_iff (config : Json) :
    Hides config (redactSensitive config) ↔
      ∀ path s, Below path → place config path = some (.string s) → s ≠ "" → Maskable path s := by
  have hothers : ∀ path, ¬ Below path →
      (place (redactSensitive config) path).map outline = (place config path).map outline := by
    intro path hpath
    rw [redactSensitive_eq, place_replace_of_cut_eq_none (cut_of_not_below hpath), Option.map_map]
    apply congrArg fun f => Option.map f _
    funext v
    exact outline_replace v
  constructor
  · rintro ⟨hsecrets, -⟩ path s hbelow hplace hs
    exact (place_redactSensitive_ne_iff hplace hs).mp (hsecrets path s hbelow hplace hs)
  · intro hmaskable
    refine ⟨?_, hothers⟩
    intro path s hbelow hplace hs
    exact (place_redactSensitive_ne_iff hplace hs).mpr (hmaskable path s hbelow hplace hs)

example : redactSensitive (.object [("gateway", .object [("Password", .string "p"),
    ("tokens", .array [.string "t"]), ("apiKey", .string "k"), ("port", .number 1)])]) =
    .object [("gateway", .object [("Password", .string mask),
      ("tokens", .array [.string "t"]), ("apiKey", .string "k"), ("port", .number 1)])] := by
  decide +kernel

/-- A key in the spelling of the list is shown with its value. -/
theorem api_key_shown : ¬ ∀ config : Json, Hides config (redactSensitive config) := by
  intro h
  have hbelow : Below [.key "apiKey"] := ⟨.key "apiKey", List.mem_cons_self, by decide +kernel⟩
  have hhidden := (h (.object [("apiKey", .string "sk-1")])).1 [.key "apiKey"] "sk-1" hbelow
    (by decide +kernel) (by decide)
  exact hhidden (by decide +kernel)

end MissionControl.Gateway.Redaction
