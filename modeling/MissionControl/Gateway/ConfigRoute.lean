import MissionControl.Foundations.JsonValues
import Mathlib.Data.List.Infix

/-!
`openclaw.json`, and the request that updates fields of it by dot-paths. A walk along a path can
leave what the text of the file shows: objects inherit properties, arrays have named ones, and
texts and numbers have properties too.
-/

set_option autoImplicit false
set_option relaxedAutoImplicit false

namespace MissionControl.Gateway.ConfigRoute

open MissionControl.Foundations.JsonValues
open MissionControl.Foundations.Schema (Json lookup)

/-! ### Values in memory -/

/-- What a text does not show of its value in memory, by the path to a part of it. -/
structure Unseen where
  /-- Something is found under a key that is no property of this part in the text. -/
  found : List String → String → Bool
  /-- A walk that goes on outside of the document, with these keys, ends without an error. -/
  ends : List String → List String → Bool
  /-- An assignment to a missing property calls an inherited setter. -/
  setter : List String → String → Bool
  setter_name : ∀ path key, setter path key = true → key = "__proto__"
  /-- This element of an array was never assigned; a text shows it as `null`. -/
  hole : List String → Bool
  /-- The length that a value makes of an array. -/
  toLength : Json → Option Nat

/-- Objects that inherit nothing, and arrays without holes. -/
def Unseen.nothing : Unseen where
  found _ _ := false
  ends _ _ := true
  setter _ _ := false
  setter_name _ _ h := absurd h Bool.false_ne_true
  hole _ := false
  toLength _ := none

/-! ### Assignments -/

/-- Assign to an element; elements between the end and a new one are not assigned. -/
def setItem (items : List Json) (i : Nat) (value : Json) : List Json :=
  if i < items.length then items.set i value
  else items ++ List.replicate (i - items.length) .null ++ [value]

def setLength (items : List Json) (length : Nat) : List Json :=
  items.take length ++ List.replicate (length - items.length) .null

/-- A step that changes nothing that the text shows. -/
def outside (current : Json) (ends : Bool) : Option Json := if ends then some current else none

/-- `current[key] = value`, in strict mode; `none` is an error. -/
def assign (unseen : Unseen) (path : List String) (current : Json) (key : String) (value : Json) :
    Option Json :=
  match current with
  | .null => none
  | .bool _ | .number _ | .string _ =>
    if unseen.setter path key then outside current (unseen.ends path [key]) else none
  | .array items =>
    match arrayIndex key with
    | some i => some (.array (setItem items i value))
    | none =>
      if key = "length" then (unseen.toLength value).map fun length => .array (setLength items length)
      else outside current (unseen.ends path [key])
  | .object fields =>
    if lookup fields key = none ∧ unseen.setter path key then
      outside current (unseen.ends path [key])
    else some (.object (setField fields key value))

/-- An element that was assigned. -/
def element (unseen : Unseen) (path : List String) (items : List Json) (key : String) (i : Nat) :
    Option Json :=
  items[i]?.filter fun item => ¬ (item = .null ∧ unseen.hole (path ++ [key]))

/-- Walk along the keys, with an empty object for every one that is missing, and assign to the
last of them. -/
def setNested (unseen : Unseen) (path : List String) (current : Json) :
    List String → Json → Option Json
  | [], _ => none
  | [key], value => assign unseen path current key value
  | key :: next :: rest, value =>
    match current with
    | .null => none
    | .bool _ | .number _ | .string _ =>
      if unseen.found path key then outside current (unseen.ends path (key :: next :: rest))
      else none
    | .array items =>
      match arrayIndex key with
      | none => outside current (unseen.ends path (key :: next :: rest))
      | some i =>
        match element unseen path items key i with
        | some item =>
          (setNested unseen (path ++ [key]) item (next :: rest) value).map fun item' =>
            .array (setItem items i item')
        | none =>
          if unseen.found path key then outside current (unseen.ends path (key :: next :: rest))
          else
            (setNested unseen (path ++ [key]) (.object []) (next :: rest) value).map fun item' =>
              .array (setItem items i item')
    | .object fields =>
      match lookup fields key with
      | some inner =>
        (setNested unseen (path ++ [key]) inner (next :: rest) value).map fun inner' =>
          .object (setField fields key inner')
      | none =>
        if unseen.found path key then outside current (unseen.ends path (key :: next :: rest))
        else
          (setNested unseen (path ++ [key]) (.object []) (next :: rest) value).map fun inner' =>
            .object (setField fields key inner')

/-- `path.split('.')`. -/
def keysOf (path : String) : List String := (path.toList.splitOn '.').map String.ofList

def setNestedValue (unseen : Unseen) (obj : Json) (path : String) (value : Json) : Option Json :=
  setNested unseen [] obj (keysOf path) value

/-- Apply the updates of a request, numbered from the given one, one after the other. -/
def applyUpdates (unseen : Nat → Unseen) : Nat → Json → List (String × Json) → Option Json
  | _, parsed, [] => some parsed
  | n, parsed, (dotPath, value) :: updates =>
    match setNestedValue (unseen n) parsed dotPath value with
    | none => none
    | some parsed => applyUpdates unseen (n + 1) parsed updates

/-! ### The route -/

def blockedPaths : List String := ["gateway.auth.password", "gateway.auth.secret"]

def isBlocked (key : String) : Bool := blockedPaths.any fun path => path.toList <+: key.toList

/-- An object with an object `updates`, from which the property `__proto__` is dropped. -/
def gatewayConfigUpdateSchema (body : Json) : Option (List (String × Json)) :=
  match getField body "updates" with
  | some (.object updates) => some (updates.filter fun update => update.1 ≠ "__proto__")
  | _ => none

inductive Reply where
  | updated (keys : List String)
  | refused (status : Nat) (error : String)
  /-- Status 500, with `Failed to update config: ` and the message of the error. -/
  | failed
  deriving DecidableEq

/-- The request is not answered with success. -/
def Reply.isError : Reply → Bool
  | .updated _ => false
  | .refused _ _ => true
  | .failed => true

/-- What the request meets: a path to the file or none, what the values hide at each of the
updates, and whether the file can be written and the row of the audit log inserted. -/
structure Environment where
  configPath : Bool
  unseen : Nat → Unseen
  writes : Bool
  audits : Bool

/-- No prototype has been tampered with, and nothing fails. -/
def Environment.plain : Environment := ⟨true, fun _ => .nothing, true, true⟩

variable {Text : Type}

/-- Read the text of the file, apply the updates and print the result. -/
def rewrite (format : Format Text) (env : Environment) (updates : List (String × Json))
    (raw : Text) : Option Text :=
  match format.parse raw with
  | none => none
  | some parsed =>
    match applyUpdates env.unseen 0 parsed updates with
    | none => none
    | some parsed => format.print parsed

/-- Write the new text, then the audit log. -/
def save (env : Environment) (updates : List (String × Json)) (file : Option Text) (text : Text) :
    Reply × Option Text :=
  if env.writes = false then (.failed, file)
  else if env.audits = false then (.failed, some text)
  else (.updated (updates.map Prod.fst), some text)

/-- `PUT /api/gateway-config` of an admin, on a body or none that is JSON, and a file or none that
can be read. -/
def put (format : Format Text) (env : Environment) (file : Option Text) (body : Option Json) :
    Reply × Option Text :=
  if env.configPath = false then (.refused 404 "OPENCLAW_CONFIG_PATH not configured", file)
  else
    match body with
    | none => (.refused 400 "Invalid request body", file)
    | some body =>
      match gatewayConfigUpdateSchema body with
      | none => (.refused 400 "Validation failed", file)
      | some updates =>
        match (updates.map Prod.fst).find? isBlocked with
        | some key => (.refused 403 ("Cannot modify protected field: " ++ key), file)
        | none =>
          match file with
          | none => (.failed, file)
          | some raw =>
            match rewrite format env updates raw with
            | none => (.failed, file)
            | some text => save env updates file text

/-! ### What a request can do -/

theorem save_snd {env : Environment} {updates : List (String × Json)} {file : Option Text}
    {text : Text} :
    (save env updates file text).2 = if env.writes then some text else file := by
  unfold save
  cases env.writes <;> cases env.audits <;> rfl

theorem save_isError {env : Environment} {updates : List (String × Json)} {file : Option Text}
    {text : Text} :
    (save env updates file text).1.isError = !(env.writes && env.audits) := by
  unfold save
  cases env.writes <;> cases env.audits <;> rfl

/-- The request gets as far as writing this text to the file. -/
def Reaches (format : Format Text) (env : Environment) (file : Option Text) (body : Option Json)
    (updates : List (String × Json)) (raw text : Text) : Prop :=
  env.configPath = true ∧ body.bind gatewayConfigUpdateSchema = some updates ∧
    (∀ update ∈ updates, isBlocked update.1 = false) ∧ file = some raw ∧
    rewrite format env updates raw = some text

theorem find?_isBlocked_eq_none {updates : List (String × Json)} :
    (updates.map Prod.fst).find? isBlocked = none ↔ ∀ update ∈ updates, isBlocked update.1 = false := by
  simp [List.find?_eq_none]

/-- A request fails and leaves the file alone, or saves a new text. -/
theorem put_cases (format : Format Text) (env : Environment) (file : Option Text)
    (body : Option Json) :
    ((put format env file body).2 = file ∧ (put format env file body).1.isError = true ∧
      ∀ updates raw text, ¬ Reaches format env file body updates raw text) ∨
    ∃ updates raw text, Reaches format env file body updates raw text ∧
      put format env file body = save env updates file text := by
  by_cases hreaches : ∃ updates raw text, Reaches format env file body updates raw text
  · right
    obtain ⟨updates, raw, text, hreaches⟩ := hreaches
    refine ⟨updates, raw, text, hreaches, ?_⟩
    obtain ⟨hpath, hbody, hblocked, rfl, hrewrite⟩ := hreaches
    obtain ⟨body, rfl, hschema⟩ := Option.bind_eq_some_iff.mp hbody
    simp [put, hpath, hschema, find?_isBlocked_eq_none.mpr hblocked, hrewrite]
  · left
    simp only [not_exists] at hreaches
    rw [← and_assoc]
    refine ⟨?_, hreaches⟩
    unfold put
    split
    · exact ⟨rfl, rfl⟩
    · rename_i hpath
      split
      · exact ⟨rfl, rfl⟩
      · rename_i body
        split
        · exact ⟨rfl, rfl⟩
        · rename_i updates hschema
          split
          · exact ⟨rfl, rfl⟩
          · rename_i hblocked
            split
            · exact ⟨rfl, rfl⟩
            · rename_i raw
              split
              · exact ⟨rfl, rfl⟩
              · rename_i text hrewrite
                exact absurd ⟨by simpa using hpath, hschema,
                  find?_isBlocked_eq_none.mp hblocked, rfl, hrewrite⟩ (hreaches updates raw text)

theorem rewrite_eq_some {format : Format Text} {env : Environment}
    {updates : List (String × Json)} {raw text : Text}
    (h : rewrite format env updates raw = some text) :
    ∃ doc doc', format.parse raw = some doc ∧ applyUpdates env.unseen 0 doc updates = some doc' ∧
      format.parse text = some doc' := by
  rw [rewrite] at h
  cases hparse : format.parse raw with
  | none => simp [hparse] at h
  | some doc =>
    cases happly : applyUpdates env.unseen 0 doc updates with
    | none => simp [hparse, happly] at h
    | some doc' =>
      simp only [hparse, happly] at h
      exact ⟨doc, doc', rfl, happly, format.parse_print doc' text h⟩

end MissionControl.Gateway.ConfigRoute
