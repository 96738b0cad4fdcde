import MissionControl.Gateway.DeepMerge

/-!
The entries for agents in `openclaw.json`, and how a write changes one: it is merged into the
entry with the same id, or becomes the last of them.
-/

set_option autoImplicit false
set_option relaxedAutoImplicit false

namespace MissionControl.Gateway.AgentFile

open MissionControl.Foundations.JsonValues
open MissionControl.Foundations.Schema (Json lookup)
open MissionControl.Gateway.DeepMerge

/-! ### The list of agents -/

/-- `===` between values from different texts. -/
def strictEquals : Json → Json → Bool
  | .array _, _ => false
  | .object _, _ => false
  | v, v' => v = v'

/-- What is written for an agent: an object that starts with its id. -/
structure AgentConfig where
  id : Json
  fields : List (String × Json)
  deriving DecidableEq

def AgentConfig.object (agentConfig : AgentConfig) : List (String × Json) :=
  ("id", agentConfig.id) :: agentConfig.fields

/-- Where the list has the agent; an element `null` has no `id` to ask for. -/
inductive Found where
  | failed
  | missing
  | at (front : List Json) (fields : List (String × Json)) (back : List Json)
  deriving DecidableEq

/-- The first element comes before what was found. -/
def Found.after (a : Json) : Found → Found
  | .failed => .failed
  | .missing => .missing
  | .at front fields back => .at (a :: front) fields back

/-- `list.findIndex((a) => a.id === id)`. -/
def findAgent (id : Json) : List Json → Found
  | [] => .missing
  | a :: list =>
    match a with
    | .null => .failed
    | .object fields =>
      if (lookup fields "id").any fun id' => strictEquals id' id then .at [] fields list
      else (findAgent id list).after (.object fields)
    | a => (findAgent id list).after a

/-- The list with the agent in it. -/
def upsertAgent (agentConfig : AgentConfig) (list : List Json) : Option (List Json) :=
  match findAgent agentConfig.id list with
  | .failed => none
  | .missing => some (list ++ [.object agentConfig.object])
  | .at front fields back =>
    some (front ++ .object (deepMerge fields agentConfig.object) :: back)

/-- The value of a property, where one that is missing or falsy is given another. -/
def orDefault (value : Option Json) (fallback : Json) : Json :=
  (value.filter truthy).getD fallback

/-- What `writeAgentToConfig` makes of the parsed file; `none` is an error. Properties that it
gives to an array do not come into the file. -/
def writeAgent (agentConfig : AgentConfig) : Json → Option Json
  | .array items => some (.array items)
  | .object fields =>
    match orDefault (lookup fields "agents") (.object []) with
    | .array _ => some (.object fields)
    | .object agents =>
      match orDefault (lookup agents "list") (.array []) with
      | .array list =>
        (upsertAgent agentConfig list).map fun list =>
          .object (setField fields "agents" (.object (setField agents "list" (.array list))))
      | _ => none
    | _ => none
  | _ => none

variable {Text : Type}

/-- `writeAgentToConfig` on the text of the file. -/
def writeAgentToConfig (format : Format Text) (agentConfig : AgentConfig) (raw : Text) :
    Option Text :=
  ((format.parse raw).bind (writeAgent agentConfig)).bind format.print

/-! ### What a write does -/

/-- The object has the id of the agent. -/
def HasId (id : Json) (fields : List (String × Json)) : Prop :=
  ∃ id', lookup fields "id" = some id' ∧ strictEquals id' id = true

theorem hasId_iff {id : Json} {fields : List (String × Json)} :
    HasId id fields ↔ ((lookup fields "id").any fun id' => strictEquals id' id) = true := by
  simp [HasId, Option.any_eq_true]

theorem strictEquals_eq {v v' : Json} (h : strictEquals v v' = true) : v = v' := by
  unfold strictEquals at h
  split at h
  · cases h
  · cases h
  · exact of_decide_eq_true h

/-- What is equal is neither an object nor an array. -/
theorem sourceFields_of_strictEquals {v v' : Json} (h : strictEquals v v' = true) :
    sourceFields (some v') = none := by
  obtain rfl := strictEquals_eq h
  cases v with
  | object fields => cases h
  | _ => rfl

variable {id a : Json} {list front back : List Json} {fields fields' : List (String × Json)}

theorem after_eq_at {found : Found} (h : found.after a = .at front fields back) :
    ∃ front', front = a :: front' ∧ found = .at front' fields back := by
  cases found with
  | failed => cases h
  | missing => cases h
  | «at» front' fields' back' =>
    obtain ⟨rfl, rfl, rfl⟩ := Found.at.inj h
    exact ⟨front', rfl, rfl⟩

/-- The agent is the first element, or found after it whatever comes then. -/
theorem findAgent_cons_eq_at (h : findAgent id (a :: list) = .at front fields back) :
    (front = [] ∧ a = .object fields ∧ list = back ∧ HasId id fields) ∨
    ∃ front', front = a :: front' ∧ findAgent id list = .at front' fields back ∧
      ∀ list', findAgent id (a :: list') = (findAgent id list').after a := by
  cases a with
  | null => cases h
  | object inner =>
    by_cases hid : HasId id inner
    · rw [findAgent, if_pos (hasId_iff.mp hid)] at h
      obtain ⟨rfl, rfl, rfl⟩ := Found.at.inj h
      exact .inl ⟨rfl, rfl, rfl, hid⟩
    · have hskip : ∀ list', findAgent id (.object inner :: list') =
          (findAgent id list').after (.object inner) := by
        intro list'
        rw [findAgent, if_neg fun hcontra => hid (hasId_iff.mpr hcontra)]
      rw [hskip] at h
      obtain ⟨front', rfl, hfound⟩ := after_eq_at h
      exact .inr ⟨front', rfl, hfound, hskip⟩
  | bool b =>
    obtain ⟨front', rfl, hfound⟩ := after_eq_at h
    exact .inr ⟨front', rfl, hfound, fun _ => rfl⟩
  | number n =>
    obtain ⟨front', rfl, hfound⟩ := after_eq_at h
    exact .inr ⟨front', rfl, hfound, fun _ => rfl⟩
  | string s =>
    obtain ⟨front', rfl, hfound⟩ := after_eq_at h
    exact .inr ⟨front', rfl, hfound, fun _ => rfl⟩
  | array items =>
    obtain ⟨front', rfl, hfound⟩ := after_eq_at h
    exact .inr ⟨front', rfl, hfound, fun _ => rfl⟩

theorem findAgent_at (h : findAgent id list = .at front fields back) :
    list = front ++ .object fields :: back ∧ HasId id fields := by
  induction list generalizing front with
  | nil => cases h
  | cons a list ih =>
    obtain ⟨rfl, rfl, rfl, hid⟩ | ⟨front', rfl, hfound, -⟩ := findAgent_cons_eq_at h
    · exact ⟨rfl, hid⟩
    · obtain ⟨rfl, hid⟩ := ih hfound
      exact ⟨rfl, hid⟩

/-- The first object with the id is found, unless there is a `null` before it. -/
theorem findAgent_first (hnull : ∀ a ∈ front, a ≠ .null)
    (hfront : ∀ fields', .object fields' ∈ front → ¬ HasId id fields') (hid : HasId id fields) :
    findAgent id (front ++ .object fields :: back) = .at front fields back := by
  induction front with
  | nil => rw [List.nil_append, findAgent, if_pos (hasId_iff.mp hid)]
  | cons a front ih =>
    have hrest := ih (fun b hb => hnull b (List.mem_cons_of_mem a hb))
      fun fields' hmem => hfront fields' (List.mem_cons_of_mem a hmem)
    have hskip : findAgent id (a :: (front ++ .object fields :: back)) =
        (findAgent id (front ++ .object fields :: back)).after a := by
      cases a with
      | null => exact absurd rfl (hnull .null List.mem_cons_self)
      | object inner =>
        have hnot := hfront inner List.mem_cons_self
        rw [findAgent, if_neg fun hcontra => hnot (hasId_iff.mpr hcontra)]
      | _ => rfl
    rw [List.cons_append, hskip, hrest]
    rfl

/-- Another object with the id in the place of the agent is found there. -/
theorem findAgent_replace (h : findAgent id list = .at front fields back) (hid : HasId id fields') :
    findAgent id (front ++ .object fields' :: back) = .at front fields' back := by
  induction list generalizing front with
  | nil => cases h
  | cons a list ih =>
    obtain ⟨rfl, rfl, rfl, -⟩ | ⟨front', rfl, hfound, hskip⟩ := findAgent_cons_eq_at h
    · rw [List.nil_append, findAgent, if_pos (hasId_iff.mp hid)]
    · rw [List.cons_append, hskip, ih hfound]
      rfl

/-- A merge of an agent keeps the id that the entry has. -/
theorem hasId_deepMerge {agentConfig : AgentConfig} (hnodup : (names agentConfig.object).Nodup)
    (h : HasId agentConfig.id fields) : HasId agentConfig.id (deepMerge fields agentConfig.object) := by
  obtain ⟨id', hid', hequal⟩ := h
  have hwritten : lookup agentConfig.object "id" = some agentConfig.id := by
    simp [AgentConfig.object, lookup_cons]
  have hmerged := lookup_deepMerge hnodup hid'
  rw [hwritten, overlay, mergeValue_of_source (sourceFields_of_strictEquals hequal)] at hmerged
  exact ⟨agentConfig.id, hmerged, strictEquals_eq hequal ▸ hequal⟩

/-- A write that succeeds leaves a file whose agents are not in an object alone, or changes the
list of agents. -/
theorem writeAgent_eq_some {agentConfig : AgentConfig} {doc doc' : Json}
    (h : writeAgent agentConfig doc = some doc') :
    (doc' = doc ∧ ((∃ items, doc = .array items) ∨
      ∃ fields items, doc = .object fields ∧ lookup fields "agents" = some (.array items))) ∨
    ∃ fields agents list list', doc = .object fields ∧
      orDefault (lookup fields "agents") (.object []) = .object agents ∧
      orDefault (lookup agents "list") (.array []) = .array list ∧
      upsertAgent agentConfig list = some list' ∧
      doc' = .object (setField fields "agents" (.object (setField agents "list" (.array list')))) := by
  unfold writeAgent at h
  split at h
  · rename_i items
    exact .inl ⟨(Option.some.inj h).symm, .inl ⟨items, rfl⟩⟩
  · rename_i fields
    split at h
    · rename_i items hagents
      refine .inl ⟨(Option.some.inj h).symm, .inr ⟨fields, items, rfl, ?_⟩⟩
      unfold orDefault at hagents
      cases hfilter : (lookup fields "agents").filter truthy with
      | none => simp [hfilter] at hagents
      | some value =>
        rw [hfilter, Option.getD_some] at hagents
        exact hagents ▸ (Option.filter_eq_some_iff.mp hfilter).1
    · rename_i agents hagents
      split at h
      · rename_i list hlist
        obtain ⟨list', hupsert, rfl⟩ := Option.map_eq_some_iff.mp h
        exact .inr ⟨fields, agents, list, list', rfl, hagents, hlist, hupsert, rfl⟩
      · cases h
    · cases h
  · cases h

end MissionControl.Gateway.AgentFile
