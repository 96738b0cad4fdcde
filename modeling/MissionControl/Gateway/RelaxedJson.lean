import MissionControl.Foundations.JsText
import MissionControl.Foundations.JsonText

/-!
JSON with comments and trailing commas. Two scanners go over the text one after the other, one takes
the comments out and one the commas; both know a string by its quotes and look at the one character
before a quote.
-/

set_option autoImplicit false
set_option relaxedAutoImplicit false

namespace MissionControl.Gateway.RelaxedJson

open MissionControl.Foundations.JsText (isWhiteSpace)
open MissionControl.Foundations.JsonText

/-- `current === stringDelimiter && prev !== '\\'`. -/
def closes (delimiter current : Char) (prev : Option Char) : Bool :=
  current = delimiter ∧ prev ≠ some '\\'

/-- `(current === '"' || current === "'") && prev !== '\\'`. -/
def opens (current : Char) (prev : Option Char) : Bool :=
  (current = '"' ∨ current = '\'') ∧ prev ≠ some '\\'

/-- Where the first scanner is; `skip` passes over a character, as `i += 1` does. -/
inductive Stripping where
  | outside
  | string (delimiter : Char)
  | line
  | block
  | skip (next : Stripping)
  deriving DecidableEq

/-- The rest of the output, where the text has come to a character after `prev`. -/
def stripFrom : Stripping → Option Char → List Char → List Char
  | _, _, [] => []
  | .skip next, _, c :: cs => stripFrom next (some c) cs
  | .line, _, c :: cs =>
    if c = '\n' then c :: stripFrom .outside (some c) cs else stripFrom .line (some c) cs
  | .block, _, c :: cs =>
    if c = '*' ∧ cs.head? = some '/' then stripFrom (.skip .outside) (some c) cs
    else stripFrom .block (some c) cs
  | .string delimiter, prev, c :: cs =>
    c :: if closes delimiter c prev then stripFrom .outside (some c) cs
      else stripFrom (.string delimiter) (some c) cs
  | .outside, prev, c :: cs =>
    if opens c prev then c :: stripFrom (.string c) (some c) cs
    else if c = '/' ∧ cs.head? = some '/' then stripFrom (.skip .line) (some c) cs
    else if c = '/' ∧ cs.head? = some '*' then stripFrom (.skip .block) (some c) cs
    else c :: stripFrom .outside (some c) cs

def stripJsonComments (input : List Char) : List Char := stripFrom .outside none input

/-- Where the second scanner is. -/
inductive Removing where
  | outside
  | string (delimiter : Char)
  deriving DecidableEq

/-- The next character that is no white space closes a bracket. -/
def closesNext (cs : List Char) : Bool :=
  (cs.dropWhile isWhiteSpace).head? = some '}' ∨ (cs.dropWhile isWhiteSpace).head? = some ']'

def removeFrom : Removing → Option Char → List Char → List Char
  | _, _, [] => []
  | .string delimiter, prev, c :: cs =>
    c :: if closes delimiter c prev then removeFrom .outside (some c) cs
      else removeFrom (.string delimiter) (some c) cs
  | .outside, prev, c :: cs =>
    if opens c prev then c :: removeFrom (.string c) (some c) cs
    else if c = ',' ∧ closesNext cs then removeFrom .outside (some c) cs
    else c :: removeFrom .outside (some c) cs

def removeTrailingCommas (input : List Char) : List Char := removeFrom .outside none input

def parseJsonRelaxed (raw : List Char) : Option Value :=
  match parse raw with
  | some v => some v
  | none => parse (removeTrailingCommas (stripJsonComments raw))

end MissionControl.Gateway.RelaxedJson
