import Mathlib.Algebra.Order.Field.Rat
import Mathlib.Data.List.Find
import Mathlib.Data.List.Infix
import MissionControl.Foundations.JsObjects
import MissionControl.Foundations.JsText
import MissionControl.Foundations.LetterCase
import MissionControl.Foundations.Numbers

/-!
What tokens cost. The price of a model is looked up by its name, and a model whose provider is
subscribed to costs nothing. Prices and token counts are exact.
-/

set_option autoImplicit false
set_option relaxedAutoImplicit false

namespace MissionControl.Tokens.Pricing

open MissionControl.Foundations.JsText
open MissionControl.Foundations.Numbers (Number)

structure ModelPricing where
  inputPerMTok : ℚ
  outputPerMTok : ℚ
  deriving DecidableEq

def defaultModelPricing : ModelPricing := ⟨3, 15⟩

def modelPricing : List (String × ModelPricing) :=
  [("anthropic/claude-3-5-haiku-latest", ⟨4 / 5, 4⟩),
    ("claude-3-5-haiku", ⟨4 / 5, 4⟩),
    ("anthropic/claude-haiku-4-5", ⟨4 / 5, 4⟩),
    ("claude-haiku-4-5", ⟨4 / 5, 4⟩),
    ("anthropic/claude-sonnet-4-20250514", ⟨3, 15⟩),
    ("claude-sonnet-4", ⟨3, 15⟩),
    ("anthropic/claude-sonnet-4-5", ⟨3, 15⟩),
    ("claude-sonnet-4-5", ⟨3, 15⟩),
    ("anthropic/claude-sonnet-4-6", ⟨3, 15⟩),
    ("claude-sonnet-4-6", ⟨3, 15⟩),
    ("anthropic/claude-opus-4-5", ⟨15, 75⟩),
    ("claude-opus-4-5", ⟨15, 75⟩),
    ("anthropic/claude-opus-4-6", ⟨15, 75⟩),
    ("claude-opus-4-6", ⟨15, 75⟩),
    ("groq/llama-3.1-8b-instant", ⟨1 / 20, 1 / 20⟩),
    ("groq/llama-3.3-70b-versatile", ⟨59 / 100, 59 / 100⟩),
    ("moonshot/kimi-k2.5", ⟨1, 1⟩),
    ("minimax/minimax-m2.1", ⟨3 / 10, 3 / 10⟩),
    ("ollama/deepseek-r1:14b", ⟨0, 0⟩),
    ("ollama/qwen2.5-coder:7b", ⟨0, 0⟩),
    ("ollama/qwen2.5-coder:14b", ⟨0, 0⟩)]

def normalizedModelName (modelName : String) : String := toLowerCase (trim modelName)

/-- `model.split('/').pop() || model`. -/
def shortName (model : String) : String :=
  orElse (String.ofList (model.toList.reverse.takeWhile (· ≠ '/')).reverse) model

/-- The first entry of the table whose short name the text includes. -/
def searchPricing (normalized : String) : ModelPricing :=
  ((modelPricing.find? fun entry => includes normalized (shortName entry.1)).map Prod.snd).getD
    defaultModelPricing

/-- The table is an object and answers for the members that every object has; `none` is an answer
that is not a pair of prices. -/
def getModelPricing (modelName : String) : Option ModelPricing :=
  let normalized := normalizedModelName modelName
  match modelPricing.lookup normalized with
  | some pricing => some pricing
  | none =>
    if normalized ∈ Foundations.JsObjects.members then none else some (searchPricing normalized)

def getProviderFromModel (modelName : String) : String :=
  let normalized := normalizedModelName modelName
  if normalized = "" then "unknown"
  else
    let first := String.ofList (normalized.toList.takeWhile (· ≠ '/'))
    if first ≠ "" ∧ ':' ∉ first.toList then
      if first = "claude" then "anthropic"
      else if first = "gpt" ∨ first = "o1" ∨ first = "o3" then "openai"
      else first
    else if includes normalized "claude" then "anthropic"
    else if includes normalized "gpt" ∨ includes normalized "codex" ∨ includes normalized "o1" ∨
        includes normalized "o3" then "openai"
    else "unknown"

/-- What tokens cost at given prices, in dollars. -/
def priced (pricing : Option ModelPricing) (inputTokens outputTokens : ℚ) : Number :=
  match pricing with
  | none => .nan
  | some pricing =>
    .finite ((inputTokens * pricing.inputPerMTok + outputTokens * pricing.outputPerMTok) / 1000000)

/-- `subscribed provider` is whether `options.providerSubscriptions[provider]` holds. -/
def calculateTokenCost (subscribed : String → Bool) (modelName : String)
    (inputTokens outputTokens : ℚ) : Number :=
  let provider := getProviderFromModel modelName
  if provider ≠ "unknown" ∧ subscribed provider = true then .finite 0
  else priced (getModelPricing modelName) inputTokens outputTokens

end MissionControl.Tokens.Pricing

/-!
A model named with its provider in front and without. Both names have one price; the provider of the
name without is the name itself, so that the subscription of its provider is not found.
-/

namespace MissionControl.Tokens.ProviderPrefix

open MissionControl.Foundations
open MissionControl.Foundations.JsText
open MissionControl.Foundations.Numbers (Number)
open Pricing

/-- The provider that a name speaks of. -/
def namedProvider (modelName : String) : Option String :=
  let lowered := toLowerCase modelName
  if includes lowered "claude" then some "anthropic"
  else if includes lowered "gpt" ∨ includes lowered "codex" then some "openai"
  else none

/-! ### Prices -/

theorem mem_of_lookup {α β : Type} [DecidableEq α] {l : List (α × β)} {k : α} {v : β}
    (h : l.lookup k = some v) : (k, v) ∈ l := by
  obtain ⟨front, back, hsplit, -⟩ := List.lookup_eq_some_iff.mp h
  rw [hsplit]
  simp

/-- `shortName` of a name in characters. -/
def shortChars (model : List Char) : List Char :=
  let short := (model.reverse.takeWhile (· ≠ '/')).reverse
  if short = [] then model else short

theorem toList_shortName (model : String) : (shortName model).toList = shortChars model.toList := by
  unfold shortName orElse shortChars
  simp only [String.ofList_eq_empty_iff]
  split
  · rfl
  · exact String.toList_ofList

/-- The table with its names in characters. -/
def spelledTable : List (List Char × ModelPricing) :=
  modelPricing.map fun entry => (entry.1.toList, entry.2)

def spelledSearch (table : List (List Char × ModelPricing)) (normalized : List Char) :
    ModelPricing :=
  ((table.find? fun entry => normalized.tails.any (entry.1.isPrefixOf ·)).map Prod.snd).getD
    defaultModelPricing

/-- A word without a slash that no provider's name has in it. -/
def isShort (short : List Char) : Bool :=
  decide (short ≠ []) && short.all (fun c => !isWhiteSpace c) && !short.contains '/' &&
    !("anthropic".toList.tails.any (short.isPrefixOf ·)) &&
    !("openai".toList.tails.any (short.isPrefixOf ·))

/-- Each name is found with its own prices, and its short name is one. -/
def checkTable (table : List (List Char × ModelPricing)) : Bool :=
  let short := table.map fun entry => (shortChars entry.1, entry.2)
  (table.all fun entry => spelledSearch short entry.1 = entry.2) &&
    short.all fun entry => isShort entry.1

theorem checkTable_spelledTable : checkTable spelledTable = true := by
  simp only [spelledTable, modelPricing, List.map_cons, List.map_nil, String.reduceToList]
  decide +kernel

theorem searchPricing_eq (normalized : String) : searchPricing normalized =
    spelledSearch (spelledTable.map fun entry => (shortChars entry.1, entry.2))
      normalized.toList := by
  unfold searchPricing spelledSearch spelledTable includes
  rw [List.map_map, List.find?_map, Option.map_map]
  simp only [toList_shortName]
  rfl

theorem searchPricing_table :
    (modelPricing.all fun entry => searchPricing entry.1 = entry.2) = true := by
  have hchecked := (Bool.and_eq_true_iff.mp checkTable_spelledTable).1
  simp only [searchPricing_eq]
  rwa [spelledTable, List.all_map] at hchecked

/-- What the table has for a name is what the search finds for it. -/
theorem searchPricing_of_lookup {normalized : String} {pricing : ModelPricing}
    (h : modelPricing.lookup normalized = some pricing) : searchPricing normalized = pricing := by
  have hfound := List.all_eq_true.mp searchPricing_table _ (mem_of_lookup h)
  rwa [decide_eq_true_eq] at hfound

theorem getModelPricing_eq {modelName : String}
    (h : normalizedModelName modelName ∉ JsObjects.members) :
    getModelPricing modelName = some (searchPricing (normalizedModelName modelName)) := by
  unfold getModelPricing
  simp only
  cases hlookup : modelPricing.lookup (normalizedModelName modelName) with
  | none => simp only [if_neg h]
  | some pricing => rw [searchPricing_of_lookup hlookup]

/-! ### Parts of texts -/

/-- Where a character is that a part does not have, the part is before or after it. -/
theorem infix_append_cons_iff {s a b : List Char} {c : Char} (h : c ∉ s) :
    s <:+: a ++ c :: b ↔ s <:+: a ∨ s <:+: b := by
  rw [List.infix_append_iff, List.infix_cons_iff]
  have hnone : ∀ l : List Char, l ⊆ s → l <+: c :: b → l = [] := by
    intro l hl hprefix
    rcases List.prefix_cons_iff.mp hprefix with rfl | ⟨t, rfl, -⟩
    · rfl
    · exact absurd (hl List.mem_cons_self) h
  constructor
  · rintro (ha | (hc | hb) | ⟨l, l', rfl, hl, hl'⟩)
    · exact .inl ha
    · rw [hnone s (List.Subset.refl s) hc]
      exact .inl List.nil_infix
    · exact .inr hb
    · rw [hnone l' (List.subset_append_right l l') hl', List.append_nil]
      exact .inl hl.isInfix
  · rintro (ha | hb)
    · exact .inl ha
    · exact .inr (.inl (.inr hb))

def White (cs : List Char) : Prop := ∀ c ∈ cs, isWhiteSpace c = true

/-- A word: it is there, and has no white space. -/
structure Word (s : List Char) : Prop where
  nonempty : s ≠ []
  solid : ∀ c ∈ s, isWhiteSpace c = false

theorem Word.not_mem {s w : List Char} (hs : Word s) (hw : White w) : ∀ c ∈ w, c ∉ s := by
  intro c hc hcontra
  have hwhite := hw c hc
  rw [hs.solid c hcontra] at hwhite
  cases hwhite

theorem infix_white_append {s w : List Char} (hs : Word s) (hw : White w) (t : List Char) :
    s <:+: w ++ t ↔ s <:+: t := by
  induction w with
  | nil => rfl
  | cons c w ih =>
    have hc : c ∉ s := hs.not_mem hw c List.mem_cons_self
    rw [← ih fun d hd => hw d (List.mem_cons_of_mem c hd)]
    refine (infix_append_cons_iff (a := []) hc).trans ?_
    rw [List.infix_nil]
    exact or_iff_right hs.nonempty

theorem infix_append_white {s w : List Char} (hs : Word s) (hw : White w) (t : List Char) :
    s <:+: t ++ w ↔ s <:+: t := by
  cases w with
  | nil => rw [List.append_nil]
  | cons c w =>
    have hc : c ∉ s := hs.not_mem hw c List.mem_cons_self
    have hrest : ¬s <:+: w := by
      intro hcontra
      obtain ⟨d, hd⟩ := List.exists_mem_of_ne_nil s hs.nonempty
      exact hs.not_mem hw d (List.mem_cons_of_mem c (hcontra.subset hd)) hd
    rw [infix_append_cons_iff hc]
    exact or_iff_left hrest

/-! ### White space and case -/

/-- What trimming takes off a text. -/
theorem trim_split (cs : List Char) :
    ∃ w w', White w ∧ White w' ∧ cs = w ++ trimChars cs ++ w' ∧
      cs.rdropWhile isWhiteSpace = w ++ trimChars cs := by
  have hlast : ∀ l : List Char, ∃ w', White w' ∧ l = l.rdropWhile isWhiteSpace ++ w' := by
    intro l
    refine ⟨l.rtakeWhile isWhiteSpace, fun c hc => List.mem_rtakeWhile_imp hc, ?_⟩
    exact List.rdropWhile_append_rtakeWhile.symm
  have hfirst : White (cs.takeWhile isWhiteSpace) := fun c hc => List.mem_takeWhile_imp hc
  have htrim : trimChars cs = (cs.dropWhile isWhiteSpace).rdropWhile isWhiteSpace := rfl
  by_cases hblank : White cs
  · have hnil : trimChars cs = [] := trimChars_eq_nil_iff.mpr hblank
    refine ⟨[], cs, fun _ hc => absurd hc List.not_mem_nil, hblank, ?_, ?_⟩
    · rw [hnil]
      rfl
    · rw [hnil, List.rdropWhile_eq_nil_iff.mpr hblank]
      rfl
  · have hword : (cs.dropWhile isWhiteSpace).rdropWhile isWhiteSpace ≠ [] := by
      intro hcontra
      exact hblank (trimChars_eq_nil_iff.mp hcontra)
    obtain ⟨w', hw', hsplit⟩ := hlast (cs.dropWhile isWhiteSpace)
    refine ⟨cs.takeWhile isWhiteSpace, w', hfirst, hw', ?_, ?_⟩
    · rw [htrim, List.append_assoc, ← hsplit, List.takeWhile_append_dropWhile]
    · conv_lhs => rw [← List.takeWhile_append_dropWhile (p := isWhiteSpace) (l := cs)]
      rw [List.rdropWhile, List.reverse_append, List.dropWhile_append, if_neg]
      · rw [List.reverse_append, List.reverse_reverse]
        rfl
      · intro hcontra
        refine hword ?_
        rw [List.rdropWhile, List.isEmpty_iff.mp hcontra]
        rfl

theorem lowerChar_white {c : Char} (h : isWhiteSpace c = true) : lowerChar c = [c] := by
  by_cases hsmall : c.toNat < 128
  · rw [LetterCase.lowerChar_small hsmall]
    exact LetterCase.of_small (p := fun c => isWhiteSpace c = true → [c.toLower] = [c])
      (by decide) hsmall h
  · have hlower : c.toLower = c := LetterCase.toLower_of_large (by omega)
    unfold lowerChar
    rw [hlower, if_neg, if_neg]
    · intro hdotted
      simp [isWhiteSpace, hdotted] at h
    · intro hkelvin
      simp [isWhiteSpace, hkelvin] at h

theorem flatMap_lowerChar_white {w : List Char} (h : White w) : w.flatMap lowerChar = w := by
  induction w with
  | nil => rfl
  | cons c w ih =>
    rw [List.flatMap_cons, lowerChar_white (h c List.mem_cons_self),
      ih fun d hd => h d (List.mem_cons_of_mem c hd)]
    rfl

/-- The lower-cased and trimmed characters of a name. -/
def normalizedChars (cs : List Char) : List Char := (trimChars cs).flatMap lowerChar

theorem toList_normalizedModelName (modelName : String) :
    (normalizedModelName modelName).toList = normalizedChars modelName.toList := by
  simp [normalizedModelName, toLowerCase, trim, normalizedChars]

/-- White space around a text is no part of the words in it. -/
theorem infix_lower_iff {s : List Char} (hs : Word s) (cs : List Char) :
    s <:+: cs.flatMap lowerChar ↔ s <:+: normalizedChars cs := by
  obtain ⟨w, w', hw, hw', hsplit, -⟩ := trim_split cs
  have hlower : cs.flatMap lowerChar = w ++ normalizedChars cs ++ w' := by
    conv_lhs => rw [hsplit]
    rw [List.flatMap_append, List.flatMap_append, flatMap_lowerChar_white hw,
      flatMap_lowerChar_white hw']
    rfl
  rw [hlower, infix_append_white hs hw', infix_white_append hs hw]

theorem mem_lowerChar_iff {c d : Char} (hd : d = '/' ∨ d = ':') : d ∈ lowerChar c ↔ c = d := by
  by_cases hsmall : c.toNat < 128
  · rw [LetterCase.lowerChar_small hsmall, List.mem_singleton, eq_comm]
    rcases hd with rfl | rfl
    · exact LetterCase.toLower_eq_iff (by decide)
    · exact LetterCase.toLower_eq_iff (by decide)
  · have hne : c ≠ d := by
      rintro rfl
      rcases hd with rfl | rfl
      · exact hsmall (by decide)
      · exact hsmall (by decide)
    have hlower : c.toLower = c := LetterCase.toLower_of_large (by omega)
    refine iff_of_false ?_ hne
    unfold lowerChar
    rw [hlower]
    split
    · rcases hd with rfl | rfl
      · decide
      · decide
    · split
      · rcases hd with rfl | rfl
        · decide
        · decide
      · simpa using Ne.symm hne

theorem not_mem_normalized {cs : List Char} {d : Char} (hd : d = '/' ∨ d = ':') (h : d ∉ cs) :
    d ∉ normalizedChars cs := by
  intro hcontra
  obtain ⟨c, hc, hmem⟩ := List.mem_flatMap.mp hcontra
  rw [mem_lowerChar_iff hd] at hmem
  exact h (hmem ▸ trimChars_subset cs hc)

/-! ### Names with a provider -/

/-- What holds of the short names in the table of prices. -/
structure Short (s : List Char) : Prop where
  word : Word s
  slashless : '/' ∉ s
  notAnthropic : ¬s <:+: "anthropic".toList
  notOpenai : ¬s <:+: "openai".toList

theorem short_table : ∀ entry ∈ modelPricing, Short (shortName entry.1).toList := by
  intro entry hentry
  have hall := (Bool.and_eq_true_iff.mp checkTable_spelledTable).2
  rw [spelledTable, List.map_map, List.all_map] at hall
  have hone : isShort (shortChars entry.1.toList) = true := List.all_eq_true.mp hall entry hentry
  rw [← toList_shortName] at hone
  simp only [isShort, Bool.and_eq_true, decide_eq_true_eq, Bool.not_eq_true', List.all_eq_true,
    ← Bool.not_eq_true] at hone
  obtain ⟨⟨⟨⟨hne, hsolid⟩, hslash⟩, hanthropic⟩, hopenai⟩ := hone
  refine ⟨⟨hne, ?_⟩, ?_, ?_, ?_⟩
  · intro c hc
    simpa using hsolid c hc
  · simpa using hslash
  · exact fun hpart => hanthropic (includes_iff.mpr hpart)
  · exact fun hpart => hopenai (includes_iff.mpr hpart)

/-- The providers that are put in front. -/
def Vendor (provider : String) : Prop := provider = "anthropic" ∨ provider = "openai"

theorem normalizedChars_prefixed {provider : String} (h : Vendor provider) (cs : List Char) :
    normalizedChars (provider.toList ++ '/' :: cs) =
      provider.toList ++ '/' :: (cs.rdropWhile isWhiteSpace).flatMap lowerChar := by
  have hslash : isWhiteSpace '/' = false := by decide
  have hright : ('/' :: cs).rdropWhile isWhiteSpace = '/' :: cs.rdropWhile isWhiteSpace := by
    rw [List.rdropWhile, List.reverse_cons, List.dropWhile_append]
    split
    · rename_i hempty
      rw [List.rdropWhile, List.isEmpty_iff.mp hempty, List.dropWhile_cons_of_neg (by simp [hslash])]
      rfl
    · rw [List.reverse_append]
      rfl
  have happend : ∀ a : List Char, (a ++ '/' :: cs).rdropWhile isWhiteSpace =
      a ++ '/' :: cs.rdropWhile isWhiteSpace := by
    intro a
    rw [← hright, List.rdropWhile, List.reverse_append, List.dropWhile_append, if_neg,
      List.reverse_append, List.reverse_reverse]
    · rfl
    · intro hempty
      have hnil : ('/' :: cs).rdropWhile isWhiteSpace = [] := by
        rw [List.rdropWhile, List.isEmpty_iff.mp hempty]
        rfl
      rw [hright] at hnil
      cases hnil
  rcases h with rfl | rfl
  · have hfirst : ("anthropic".toList ++ '/' :: cs).dropWhile isWhiteSpace =
        "anthropic".toList ++ '/' :: cs := rfl
    rw [normalizedChars, trimChars, hfirst]
    show (("anthropic".toList ++ '/' :: cs).rdropWhile isWhiteSpace).flatMap lowerChar = _
    rw [happend, List.flatMap_append]
    rfl
  · have hfirst : ("openai".toList ++ '/' :: cs).dropWhile isWhiteSpace =
        "openai".toList ++ '/' :: cs := rfl
    rw [normalizedChars, trimChars, hfirst]
    show (("openai".toList ++ '/' :: cs).rdropWhile isWhiteSpace).flatMap lowerChar = _
    rw [happend, List.flatMap_append]
    rfl

/-- A short name is in the one name if it is in the other. -/
theorem short_infix_iff {s : List Char} (hs : Short s) {provider : String} (h : Vendor provider)
    (cs : List Char) :
    s <:+: normalizedChars (provider.toList ++ '/' :: cs) ↔ s <:+: normalizedChars cs := by
  have hprovider : ¬s <:+: provider.toList := by
    rcases h with rfl | rfl
    · exact hs.notAnthropic
    · exact hs.notOpenai
  obtain ⟨w, w', hw, -, -, hright⟩ := trim_split cs
  rw [normalizedChars_prefixed h, infix_append_cons_iff hs.slashless, hright, List.flatMap_append,
    flatMap_lowerChar_white hw, infix_white_append hs.word hw]
  exact or_iff_right hprovider

theorem searchPricing_congr {normalized normalized' : String}
    (h : ∀ s, Short s → (s <:+: normalized.toList ↔ s <:+: normalized'.toList)) :
    searchPricing normalized = searchPricing normalized' := by
  unfold searchPricing
  rw [List.find?_congr]
  intro entry hentry
  rw [Bool.eq_iff_iff, includes_iff, includes_iff]
  exact h _ (short_table entry hentry)

/-! ### Costs -/

/-- The names that are spoken of here. -/
def familyNames : List String := ["claude", "gpt", "codex"]

theorem word_of_family {part : String} (h : part ∈ familyNames) : Word part.toList := by
  have hall : (familyNames.all fun name => decide (name ≠ "") &&
      name.toList.all fun c => !isWhiteSpace c) = true := by decide
  have hone := List.all_eq_true.mp hall part h
  simp only [Bool.and_eq_true, decide_eq_true_eq, List.all_eq_true] at hone
  refine ⟨fun hcontra => hone.1 (String.toList_eq_nil_iff.mp hcontra), fun c hc => ?_⟩
  simpa using hone.2 c hc

/-- A name with a provider has the name of a family in it, also when it is trimmed. -/
theorem family_of_named {modelName provider : String} (h : namedProvider modelName = some provider) :
    Vendor provider ∧ ∃ part ∈ familyNames,
      includes (normalizedModelName modelName) part = true := by
  have hnormal : ∀ part ∈ familyNames, includes (toLowerCase modelName) part = true →
      includes (normalizedModelName modelName) part = true := by
    intro part hpart hin
    rw [includes_iff] at hin ⊢
    rw [toList_normalizedModelName, ← infix_lower_iff (word_of_family hpart)]
    simpa [toLowerCase] using hin
  unfold namedProvider at h
  simp only at h
  split at h
  · rename_i hclaude
    obtain rfl := Option.some.inj h
    exact ⟨.inl rfl, "claude", by decide, hnormal _ (by decide) hclaude⟩
  · split at h
    · rename_i hopenai
      obtain rfl := Option.some.inj h
      rcases hopenai with hgpt | hcodex
      · exact ⟨.inr rfl, "gpt", by decide, hnormal _ (by decide) hgpt⟩
      · exact ⟨.inr rfl, "codex", by decide, hnormal _ (by decide) hcodex⟩
    · cases h

/-- Such a text is none of a few others. -/
theorem ne_of_family {normalized : String} (h : ∃ part ∈ familyNames, includes normalized part = true) :
    normalized ∉ "" :: "unknown" :: JsObjects.members := by
  have hall : (("" :: "unknown" :: JsObjects.members).all fun name =>
      familyNames.all fun part => !includes name part) = true := by decide
  obtain ⟨part, hpart, hin⟩ := h
  intro hmem
  have hnot := List.all_eq_true.mp (List.all_eq_true.mp hall _ hmem) part hpart
  rw [hin] at hnot
  cases hnot

/-- The provider of a name without a provider is known. -/
theorem getProviderFromModel_ne_unknown {modelName : String} (hslash : '/' ∉ modelName.toList)
    (hcolon : ':' ∉ modelName.toList)
    (h : ∃ part ∈ familyNames, includes (normalizedModelName modelName) part = true) :
    getProviderFromModel modelName ≠ "unknown" := by
  have hne := ne_of_family h
  have hslash' : '/' ∉ (normalizedModelName modelName).toList := by
    rw [toList_normalizedModelName]
    exact not_mem_normalized (.inl rfl) hslash
  have hcolon' : ':' ∉ (normalizedModelName modelName).toList := by
    rw [toList_normalizedModelName]
    exact not_mem_normalized (.inr rfl) hcolon
  unfold getProviderFromModel
  simp only
  generalize normalizedModelName modelName = normalized at *
  rw [List.mem_cons, List.mem_cons, not_or, not_or] at hne
  have hfirst : String.ofList (normalized.toList.takeWhile (· ≠ '/')) = normalized := by
    rw [List.takeWhile_eq_self_iff.mpr, String.ofList_toList]
    intro c hc
    exact decide_eq_true fun hcontra => hslash' (hcontra ▸ hc)
  rw [hfirst, if_neg hne.1, if_pos ⟨hne.1, hcolon'⟩]
  split
  · decide
  · split
    · decide
    · exact hne.2.1

/-- The provider that is put in front is the provider. -/
theorem getProviderFromModel_prefixed {provider : String} (h : Vendor provider) (modelName : String) :
    getProviderFromModel (provider ++ "/" ++ modelName) = provider := by
  have hchars : (normalizedModelName (provider ++ "/" ++ modelName)).toList =
      provider.toList ++ '/' :: (modelName.toList.rdropWhile isWhiteSpace).flatMap lowerChar := by
    rw [toList_normalizedModelName, String.toList_append, String.toList_append, List.append_assoc]
    exact normalizedChars_prefixed h modelName.toList
  have hne : normalizedModelName (provider ++ "/" ++ modelName) ≠ "" := by
    intro hcontra
    rw [hcontra] at hchars
    exact List.append_ne_nil_of_right_ne_nil _ (List.cons_ne_nil _ _) hchars.symm
  have hfirst : String.ofList
      ((normalizedModelName (provider ++ "/" ++ modelName)).toList.takeWhile (· ≠ '/')) =
      provider := by
    have hall : ∀ c ∈ provider.toList, decide (c ≠ '/') = true := by
      rw [← List.all_eq_true]
      rcases h with rfl | rfl
      · decide
      · decide
    rw [hchars, List.takeWhile_append_of_pos hall, List.takeWhile_cons_of_neg (by decide),
      List.append_nil, String.ofList_toList]
  unfold getProviderFromModel
  simp only
  rw [hfirst, if_neg hne]
  rcases h with rfl | rfl
  · rfl
  · rfl

theorem getModelPricing_prefixed {modelName provider : String}
    (h : namedProvider modelName = some provider) :
    getModelPricing (provider ++ "/" ++ modelName) = getModelPricing modelName := by
  obtain ⟨hvendor, hfamily⟩ := family_of_named h
  have hchars : ∀ s, Short s → (s <:+: (normalizedModelName (provider ++ "/" ++ modelName)).toList ↔
      s <:+: (normalizedModelName modelName).toList) := by
    intro s hs
    rw [toList_normalizedModelName, toList_normalizedModelName, String.toList_append,
      String.toList_append, List.append_assoc]
    exact short_infix_iff hs hvendor modelName.toList
  have hmembers : (JsObjects.members.all fun name => !name.toList.contains '/') = true := by
    decide +kernel
  have hnot : normalizedModelName (provider ++ "/" ++ modelName) ∉ JsObjects.members := by
    intro hmem
    have hslashless := List.all_eq_true.mp hmembers _ hmem
    rw [toList_normalizedModelName, String.toList_append, String.toList_append, List.append_assoc]
      at hslashless
    have hslash := normalizedChars_prefixed hvendor modelName.toList
    rw [show "/".toList ++ modelName.toList = '/' :: modelName.toList from rfl, hslash] at hslashless
    simp at hslashless
  have hnot' : normalizedModelName modelName ∉ JsObjects.members := fun hmem =>
    ne_of_family hfamily (List.mem_cons_of_mem _ (List.mem_cons_of_mem _ hmem))
  rw [getModelPricing_eq hnot, getModelPricing_eq hnot', searchPricing_congr hchars]

/-- The cost of a model does not depend on the provider in front of its name if and only if the
subscription of what is taken for its provider is that of the provider, or the tokens are free. -/
theorem cost_prefix_iff (subscribed : String → Bool) (modelName provider : String)
    (inputTokens outputTokens : ℚ) (hslash : '/' ∉ modelName.toList)
    (hcolon : ':' ∉ modelName.toList) (hnamed : namedProvider modelName = some provider) :
    calculateTokenCost subscribed modelName inputTokens outputTokens =
        calculateTokenCost subscribed (provider ++ "/" ++ modelName) inputTokens outputTokens ↔
      subscribed (getProviderFromModel modelName) = subscribed provider ∨
        priced (getModelPricing modelName) inputTokens outputTokens = .finite 0 := by
  obtain ⟨hvendor, hfamily⟩ := family_of_named hnamed
  have hprovider : provider ≠ "unknown" := by
    rcases hvendor with rfl | rfl
    · decide
    · decide
  have hknown := getProviderFromModel_ne_unknown hslash hcolon hfamily
  unfold calculateTokenCost
  simp only
  rw [getProviderFromModel_prefixed hvendor, getModelPricing_prefixed hnamed]
  cases hown : subscribed (getProviderFromModel modelName) with
  | false =>
    cases hthis : subscribed provider with
    | false => simp
    | true => simp [hprovider]
  | true =>
    cases hthis : subscribed provider with
    | false => simp [hknown, eq_comm]
    | true => simp [hprovider, hknown]

/-- A subscription of the provider alone. -/
def anthropicOnly (provider : String) : Bool := provider = "anthropic"

theorem cost_prefix_sample :
    calculateTokenCost anthropicOnly " Claude " 1000 500 =
        calculateTokenCost anthropicOnly ("anthropic" ++ "/" ++ " Claude ") 1000 500 ↔
      anthropicOnly (getProviderFromModel " Claude ") = anthropicOnly "anthropic" ∨
        priced (getModelPricing " Claude ") 1000 500 = .finite 0 :=
  cost_prefix_iff anthropicOnly " Claude " "anthropic" 1000 500 (by decide) (by decide)
    (by decide +kernel)

/-- With a subscription of Anthropic the one name costs something and the other nothing. -/
theorem subscription_missed :
    '/' ∉ "claude-sonnet-4-5".toList ∧ ':' ∉ "claude-sonnet-4-5".toList ∧
      namedProvider "claude-sonnet-4-5" = some "anthropic" ∧
      calculateTokenCost anthropicOnly "claude-sonnet-4-5" 1000000 0 ≠
        calculateTokenCost anthropicOnly ("anthropic" ++ "/" ++ "claude-sonnet-4-5") 1000000 0 := by
  refine ⟨by decide, by decide, by decide +kernel, ?_⟩
  have hpaid : calculateTokenCost anthropicOnly "claude-sonnet-4-5" 1000000 0 = .finite 3 := by
    decide +kernel
  have hfree : calculateTokenCost anthropicOnly ("anthropic" ++ "/" ++ "claude-sonnet-4-5")
      1000000 0 = .finite 0 := by decide +kernel
  rw [hpaid, hfree]
  decide

end MissionControl.Tokens.ProviderPrefix
