import Mathlib.Algebra.Order.Field.Rat
import Mathlib.Data.List.Basic

/-!
Texts of JSON. A text is cut into tokens with white space between them, and the tokens are read one
by one with what is still open on a stack. Strings are sequences of UTF-16 code units, as they may
hold half of a pair; numbers are exact.
-/

set_option autoImplicit false
set_option relaxedAutoImplicit false

namespace MissionControl.Foundations.JsonText

/-! ### Tokens -/

inductive Token where
  | punct (c : Char)
  /-- What stands between the quotes, with its escapes. -/
  | string (raw : List Char)
  /-- A number or one of the three names. -/
  | word (raw : List Char)
  deriving DecidableEq

def Token.text : Token → List Char
  | .punct c => [c]
  | .string raw => '"' :: (raw ++ ['"'])
  | .word raw => raw

def isWhite (c : Char) : Bool := c = ' ' ∨ c = '\t' ∨ c = '\n' ∨ c = '\r'

def isPunct (c : Char) : Bool := c = '{' ∨ c = '}' ∨ c = '[' ∨ c = ']' ∨ c = ':' ∨ c = ','

def isWordChar (c : Char) : Bool := c.isAlphanum || c = '+' || c = '-' || c = '.'

def isControl (c : Char) : Bool := c.toNat < 32

/-- Where the cutting is: between tokens, in a word, in a string, or after a backslash in one. -/
inductive Scan where
  | outside
  | word (acc : List Char)
  | string (acc : List Char)
  | escape (acc : List Char)
  deriving DecidableEq

/-- What a character begins that stands between tokens. -/
def begins (c : Char) : Option (List Token × Scan) :=
  if isWhite c then some ([], .outside)
  else if isPunct c then some ([.punct c], .outside)
  else if c = '"' then some ([], .string [])
  else if isWordChar c then some ([], .word [c])
  else none

def lexFrom : Scan → List Char → Option (List Token)
  | .outside, [] => some []
  | .word acc, [] => some [.word acc]
  | .string _, [] => none
  | .escape _, [] => none
  | .outside, c :: cs => (begins c).bind fun b => (lexFrom b.2 cs).map (b.1 ++ ·)
  | .word acc, c :: cs =>
    if isWordChar c then lexFrom (.word (acc ++ [c])) cs
    else (begins c).bind fun b => (lexFrom b.2 cs).map fun tokens => .word acc :: (b.1 ++ tokens)
  | .string acc, c :: cs =>
    if c = '"' then (lexFrom .outside cs).map (.string acc :: ·)
    else if c = '\\' then lexFrom (.escape acc) cs
    else if isControl c then none
    else lexFrom (.string (acc ++ [c])) cs
  | .escape acc, c :: cs => lexFrom (.string (acc ++ ['\\', c])) cs

def lex (text : List Char) : Option (List Token) := lexFrom .outside text

-- The equations of `lexFrom` are made here, once for all the proofs that rewrite with them.
attribute [local simp] lexFrom

/-! ### Values -/

abbrev Units := List UInt16

inductive Value where
  | null
  | bool (b : Bool)
  | number (n : ℚ)
  | string (units : Units)
  | array (items : List Value)
  | object (fields : List (Units × Value))

abbrev Fields := List (Units × Value)

/-- The code units of a character. -/
def unitsOf (c : Char) : Units :=
  if c.toNat < 0x10000 then [c.toNat.toUInt16]
  else [(0xD800 + (c.toNat - 0x10000) / 1024).toUInt16,
    (0xDC00 + (c.toNat - 0x10000) % 1024).toUInt16]

def hexDigit (c : Char) : Option Nat :=
  if '0' ≤ c ∧ c ≤ '9' then some (c.toNat - '0'.toNat)
  else if 'a' ≤ c ∧ c ≤ 'f' then some (c.toNat - 'a'.toNat + 10)
  else if 'A' ≤ c ∧ c ≤ 'F' then some (c.toNat - 'A'.toNat + 10)
  else none

def hexUnit (a b c d : Char) : Option UInt16 := do
  let a ← hexDigit a
  let b ← hexDigit b
  let c ← hexDigit c
  let d ← hexDigit d
  some (((a * 16 + b) * 16 + c) * 16 + d).toUInt16

/-- What one character after a backslash stands for. -/
def escaped (c : Char) : Option UInt16 :=
  if c = '"' ∨ c = '\\' ∨ c = '/' then some c.toNat.toUInt16
  else if c = 'b' then some 8
  else if c = 'f' then some 12
  else if c = 'n' then some 10
  else if c = 'r' then some 13
  else if c = 't' then some 9
  else none

/-- The code units that the inside of a string literal stands for. -/
def decode : List Char → Option Units
  | [] => some []
  | '\\' :: 'u' :: a :: b :: c :: d :: cs =>
    (hexUnit a b c d).bind fun unit => (decode cs).map (unit :: ·)
  | '\\' :: c :: cs => (escaped c).bind fun unit => (decode cs).map (unit :: ·)
  | c :: cs => if c = '\\' then none else (decode cs).map (unitsOf c ++ ·)

def digitsValue (digits : List Char) : Nat :=
  digits.foldl (fun n c => 10 * n + (c.toNat - '0'.toNat)) 0

def tenTimes : Nat → ℚ
  | 0 => 1
  | n + 1 => 10 * tenTimes n

/-- The exponent of a number, with its sign. -/
def exponentOf : List Char → Option Int
  | [] => some 0
  | e :: cs =>
    if e = 'e' ∨ e = 'E' then
      let negative := cs.head? = some '-'
      let digits := if cs.head? = some '-' ∨ cs.head? = some '+' then cs.tail else cs
      if digits = [] ∨ ¬digits.all Char.isDigit then none
      else some (if negative then -(digitsValue digits : Int) else digitsValue digits)
    else none

/-- The digits after a point, and what follows them. -/
def fractionOf : List Char → Option (List Char × List Char)
  | '.' :: cs =>
    if cs.takeWhile Char.isDigit = [] then none
    else some (cs.takeWhile Char.isDigit, cs.dropWhile Char.isDigit)
  | cs => some ([], cs)

def unsignedNumber (cs : List Char) : Option ℚ := do
  let whole := cs.takeWhile Char.isDigit
  if whole = [] ∨ (whole.head? = some '0' ∧ 1 < whole.length) then none
  else
    let (fraction, rest) ← fractionOf (cs.dropWhile Char.isDigit)
    let exponent ← exponentOf rest
    let mantissa : ℚ := digitsValue (whole ++ fraction) / tenTimes fraction.length
    some (if exponent < 0 then mantissa / tenTimes exponent.natAbs
      else mantissa * tenTimes exponent.natAbs)

def numberOf : List Char → Option ℚ
  | '-' :: cs => (unsignedNumber cs).map fun n => -n
  | cs => unsignedNumber cs

def wordValue (raw : List Char) : Option Value :=
  if raw = "null".toList then some .null
  else if raw = "true".toList then some (.bool true)
  else if raw = "false".toList then some (.bool false)
  else (numberOf raw).map .number

/-! ### Reading tokens -/

/-- The index of an element that a name stands for. -/
def indexOf (key : Units) : Option Nat :=
  let digits := key.map fun unit => Char.ofNat unit.toNat
  if digits ≠ [] ∧ digits.all Char.isDigit ∧ (digits.head? ≠ some '0' ∨ digits.length = 1) ∧
      digitsValue digits < 4294967295 then
    some (digitsValue digits)
  else none

/-- A property that is there gets the new value; a new one comes after those with a smaller index, or
last. -/
def putField (fields : Fields) (key : Units) (value : Value) : Fields :=
  if key ∈ fields.map Prod.fst then
    fields.map fun field => if field.1 = key then (key, value) else field
  else
    match indexOf key with
    | none => fields ++ [(key, value)]
    | some i =>
      let smaller := fun field : Units × Value => (indexOf field.1).any (· < i)
      fields.takeWhile smaller ++ (key, value) :: fields.dropWhile smaller

/-- What is open, with what it has so far. -/
inductive Frame where
  | array (items : List Value)
  | object (fields : Fields) (key : Units)

/-- What may come next. -/
inductive Mode where
  | value
  | valueOrClose
  | keyOrClose
  | key
  | colon
  | after
  deriving DecidableEq

structure State where
  mode : Mode
  stack : List Frame
  result : Option Value

def start : State := ⟨.value, [], none⟩

/-- A value is complete. -/
def deliver (v : Value) : List Frame → State
  | [] => ⟨.after, [], some v⟩
  | .array items :: stack => ⟨.after, .array (items ++ [v]) :: stack, none⟩
  | .object fields key :: stack => ⟨.after, .object (putField fields key v) key :: stack, none⟩

def close (stack : List Frame) (c : Char) : Option State :=
  match stack with
  | .array items :: rest => if c = ']' then some (deliver (.array items) rest) else none
  | .object fields _ :: rest => if c = '}' then some (deliver (.object fields) rest) else none
  | [] => none

def openValue (stack : List Frame) : Token → Option State
  | .string raw => (decode raw).map fun units => deliver (.string units) stack
  | .word raw => (wordValue raw).map fun v => deliver v stack
  | .punct c =>
    if c = '[' then some ⟨.valueOrClose, .array [] :: stack, none⟩
    else if c = '{' then some ⟨.keyOrClose, .object [] [] :: stack, none⟩
    else none

def openKey (stack : List Frame) : Token → Option State
  | .string raw =>
    match stack with
    | .object fields _ :: rest =>
      (decode raw).map fun units => ⟨.colon, .object fields units :: rest, none⟩
    | _ => none
  | _ => none

/-- The token after a value. -/
def proceed (stack : List Frame) : Token → Option State
  | .punct ',' =>
    match stack with
    | .array _ :: _ => some ⟨.value, stack, none⟩
    | .object _ _ :: _ => some ⟨.key, stack, none⟩
    | [] => none
  | .punct c => close stack c
  | _ => none

def step (state : State) (token : Token) : Option State :=
  match state.mode with
  | .value => openValue state.stack token
  | .valueOrClose =>
    if token = .punct ']' then close state.stack ']' else openValue state.stack token
  | .keyOrClose =>
    if token = .punct '}' then close state.stack '}' else openKey state.stack token
  | .key => openKey state.stack token
  | .colon => if token = .punct ':' then some { state with mode := .value } else none
  | .after => proceed state.stack token

def finish (state : State) : Option Value :=
  match state.mode, state.stack with
  | .after, [] => state.result
  | _, _ => none

def parseTokens (tokens : List Token) : Option Value := (tokens.foldlM step start).bind finish

/-- `JSON.parse`; `none` is the exception. -/
def parse (text : List Char) : Option Value := (lex text).bind parseTokens

end MissionControl.Foundations.JsonText
