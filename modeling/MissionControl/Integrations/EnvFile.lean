import MissionControl.Foundations.JsText
import MissionControl.Foundations.JsonValues
import MissionControl.Foundations.KeyedLines

/-!
The `.env` file of the state directory, as `/api/integrations` reads, changes and writes it. Texts
of the file are lists of characters.
-/

set_option autoImplicit false
set_option relaxedAutoImplicit false

namespace MissionControl.Integrations.EnvFile

open MissionControl.Foundations.JsText (trimChars)
open MissionControl.Foundations.JsonValues (getField names spread truthy)
open MissionControl.Foundations.KeyedLines
open MissionControl.Foundations.Schema (Json)

/-! ### Lines -/

inductive EnvLine where
  | comment (raw : List Char)
  | blank (raw : List Char)
  | var (raw key value : List Char)
  deriving DecidableEq

def parseLine (raw : List Char) : EnvLine :=
  if trimChars raw = [] then .blank raw
  else if (trimChars raw).head? = some '#' then .comment raw
  else
    let key := raw.takeWhile (· ≠ '=')
    -- the text has an equals sign, and not in front
    if key ≠ raw ∧ key ≠ [] then
      .var raw (trimChars key) (trimChars (raw.drop (key.length + 1)))
    else .comment raw

def parseEnv (content : List Char) : List EnvLine := (content.splitOn '\n').map parseLine

/-- What `serializeEnv` writes for a line. -/
def EnvLine.text : EnvLine → List Char
  | .comment raw => raw
  | .blank raw => raw
  | .var _ key value => key ++ '=' :: value

def serializeEnv (lines : List EnvLine) : List Char := ['\n'].intercalate (lines.map EnvLine.text)

/-- The entry that a line makes in the map of `GET`, where an empty key counts for nothing. -/
def EnvLine.entry : EnvLine → Option (List Char × List Char)
  | .var _ key value => if key = [] then none else some (key, value)
  | .comment _ | .blank _ => none

/-- `envMap`. -/
def envMap (lines : List EnvLine) (key : List Char) : Option (List Char) :=
  reading EnvLine.entry lines key

/-! ### The file -/

/-- The file, where the state directory is configured. -/
inductive EnvPath where
  | unconfigured
  | missing
  | file (content : List Char)
  deriving DecidableEq

def readEnvFile : EnvPath → Option (List EnvLine)
  | .unconfigured => none
  | .missing => some []
  | .file content => some (parseEnv content)

def writeEnvFile (lines : List EnvLine) : EnvPath := .file (serializeEnv lines)

/-! ### Names -/

def BLOCKED_VARS : List String :=
  ["PATH", "HOME", "USER", "SHELL", "LANG", "TERM", "PWD", "LOGNAME", "HOSTNAME"]

def BLOCKED_PREFIXES : List String := ["LD_", "DYLD_"]

def isVarBlocked (key : List Char) : Bool :=
  BLOCKED_VARS.any (fun blocked => blocked.toList = key) ||
    BLOCKED_PREFIXES.any fun blocked => blocked.toList.isPrefixOf key

def isLetter (c : Char) : Bool := ('a' ≤ c && c ≤ 'z') || ('A' ≤ c && c ≤ 'Z') || c = '_'

def isWordChar (c : Char) : Bool := isLetter c || ('0' ≤ c && c ≤ '9')

/-- `/^[A-Z_][A-Z0-9_]*$/i`. -/
def validName : List Char → Bool
  | [] => false
  | c :: cs => isLetter c && cs.all isWordChar

/-! ### Texts of values -/

section

variable (numberText : Rat → String)

mutual

/-- `String(value)`, which throws where an object brings a `toString` of its own. -/
def toText : Json → Option String
  | .null => some "null"
  | .bool b => some (if b then "true" else "false")
  | .number n => some (numberText n)
  | .string s => some s
  | .array items => (itemTexts items).map fun texts => ",".intercalate texts
  | .object fields => if "toString" ∈ names fields then none else some "[object Object]"

/-- The texts that `join` puts together. -/
def itemTexts : List Json → Option (List String)
  | [] => some []
  | .null :: rest => (itemTexts rest).map ("" :: ·)
  | item :: rest => (toText item).bind fun text => (itemTexts rest).map (text :: ·)

end

/-! ### Requests -/

inductive Reply where
  | updated (keys : List String)
  | removed (keys : List (List Char))
  | error (status : Nat) (message : String)
  /-- An exception that the route does not catch. -/
  | threw
  deriving DecidableEq

/-- `Object.entries`, of an object or an array; other values have no `vars`. -/
def objectEntries : Json → Option (List (String × Json))
  | .object fields => some (spread [] fields)
  | .array items => some (items.mapIdx fun i item => (toString i, item))
  | _ => none

def isVar (key : List Char) : EnvLine → Bool
  | .var _ key' _ => key' = key
  | .comment _ | .blank _ => false

def EnvLine.setValue (value : List Char) : EnvLine → EnvLine
  | .var raw key _ => .var raw key value
  | line => line

def isBlank : EnvLine → Bool
  | .blank _ => true
  | .comment _ | .var _ _ _ => false

/-- One variable of a `PUT`. -/
def setVar (lines : List EnvLine) (key value : List Char) : List EnvLine :=
  if lines.any (isVar key) then
    lines.replaceF fun line => if isVar key line then some (line.setValue value) else none
  else
    let separated :=
      if lines.getLast?.any fun line => !isBlank line then lines ++ [.blank []] else lines
    separated ++ [.var (key ++ '=' :: value) key value]

/-- The loop over the variables, `none` where it throws. -/
def setVars : List EnvLine → List (String × Json) → Option (List EnvLine)
  | lines, [] => some lines
  | lines, (key, value) :: rest =>
    (toText numberText value).bind fun text => setVars (setVar lines key.toList text.toList) rest

/-- The answer to the first key that is not accepted. -/
def refusal (entries : List (String × Json)) : Option Reply :=
  entries.findSome? fun entry =>
    if isVarBlocked entry.1.toList then
      some (.error 403 ("Cannot set protected variable: " ++ entry.1))
    else if ¬ validName entry.1.toList then
      some (.error 400 ("Invalid variable name: " ++ entry.1))
    else none

def putIntegrations (path : EnvPath) (body : Json) : EnvPath × Reply :=
  match (getField body "vars").bind objectEntries with
  | none => (path, .error 400 "vars object required")
  | some entries =>
    match refusal entries with
    | some reply => (path, reply)
    | none =>
      match readEnvFile path with
      | none => (path, .error 404 "OPENCLAW_STATE_DIR not configured")
      | some lines =>
        match setVars numberText lines entries with
        | none => (path, .threw)
        | some lines => (writeEnvFile lines, .updated (entries.map Prod.fst))

/-- The text of the keys of a `DELETE`: `none` where reading it throws. -/
def keysParam (body : Json) : Option (Option String) :=
  match body with
  | .null => none
  | body =>
    match getField body "keys" with
    | some (.array items) => (itemTexts numberText items).map fun texts =>
        some (",".intercalate texts)
    | some (.string s) => some (some s)
    | some value => if truthy value then none else some none
    | none => some none

/-- `keysToRemove`. -/
def keysToRemove (keys : String) : List (List Char) :=
  ((keys.toList.splitOn ',').map trimChars).filter (· ≠ [])

/-- The line stays when these keys are removed. -/
def stays (keys : List (List Char)) : EnvLine → Bool
  | .var _ key _ => key = [] || !keys.contains key
  | .comment _ | .blank _ => true

def deleteIntegrations (path : EnvPath) (body : Json) : EnvPath × Reply :=
  match keysParam numberText body with
  | none => (path, .threw)
  | some none =>
    (path, .error 400 "keys parameter required (comma-separated string or array)")
  | some (some "") =>
    (path, .error 400 "keys parameter required (comma-separated string or array)")
  | some (some text) =>
    let keys := keysToRemove text
    if keys = [] then (path, .error 400 "At least one key required")
    else
      match keys.find? isVarBlocked with
      | some key => (path, .error 403 ("Cannot remove protected variable: " ++ String.ofList key))
      | none =>
        match readEnvFile path with
        | none => (path, .error 404 "OPENCLAW_STATE_DIR not configured")
        | some lines =>
          let removed := (lines.filter fun line => !stays keys line).filterMap fun line =>
            line.entry.map Prod.fst
          let newLines := lines.filter (stays keys)
          (if removed = [] then path else writeEnvFile newLines, .removed removed)

end

end MissionControl.Integrations.EnvFile
