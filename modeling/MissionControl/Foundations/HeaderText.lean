import MissionControl.Foundations.JsText

/-!
What programs read from the texts of request headers: percent-encoded values, cookies, and
the key behind an authorization scheme.
-/

set_option autoImplicit false
set_option relaxedAutoImplicit false

namespace MissionControl.Foundations.HeaderText

open JsText

/-! ### Percent encoding -/

/-- A piece of an encoded text: a character that stands for itself, or an encoded byte. -/
inductive Piece where
  | plain (c : Char)
  | byte (b : Nat)
  deriving DecidableEq

def pieces : List Char → Option (List Piece)
  | [] => some []
  | '%' :: a :: b :: cs =>
    match digitValue a, digitValue b with
    | some high, some low => (pieces cs).map (.byte (high * 16 + low) :: ·)
    | _, _ => none
  | c :: cs => if c = '%' then none else (pieces cs).map (.plain c :: ·)

/-- A UTF-8 sequence that has begun: the bytes it still lacks, the value so far, and the least
code point that needs a sequence of its length. -/
structure Sequence where
  missing : Nat
  value : Nat
  least : Nat
  deriving DecidableEq

def beginSequence (b : Nat) : Option Sequence :=
  if b < 0xC0 then none
  else if b < 0xE0 then some ⟨1, b - 0xC0, 0x80⟩
  else if b < 0xF0 then some ⟨2, b - 0xE0, 0x800⟩
  else if b < 0xF8 then some ⟨3, b - 0xF0, 0x10000⟩
  else none

def decodePieces : Option Sequence → List Piece → Option (List Char)
  | none, [] => some []
  | some _, [] => none
  | none, .plain c :: rest => (decodePieces none rest).map (c :: ·)
  | some _, .plain _ :: _ => none
  | none, .byte b :: rest =>
    if b < 0x80 then (decodePieces none rest).map (Char.ofNat b :: ·)
    else (beginSequence b).bind fun q => decodePieces (some q) rest
  | some q, .byte b :: rest =>
    let value := q.value * 64 + (b - 0x80)
    if b < 0x80 ∨ 0xC0 ≤ b then none
    else if 1 < q.missing then decodePieces (some ⟨q.missing - 1, value, q.least⟩) rest
    else if value < q.least ∨ (0xD800 ≤ value ∧ value < 0xE000) ∨ 0x110000 ≤ value then none
    else (decodePieces none rest).map (Char.ofNat value :: ·)

/-- `decodeURIComponent`; the error is the text of the exception. -/
def decodeURIComponent (s : String) : Except String String :=
  match (pieces s.toList).bind (decodePieces none) with
  | some cs => .ok (String.ofList cs)
  | none => .error "URI malformed"

/-! ### Cookies -/

/-- The value after the first `;`, white space and `key`. -/
def laterCookie (key : List Char) : List Char → Option (List Char)
  | [] => none
  | c :: cs =>
    match if c = ';' then key.isPrefixOf? (cs.dropWhile isWhiteSpace) else none with
    | some rest => some (rest.takeWhile (· ≠ ';'))
    | none => laterCookie key cs

/-- What `(?:^|;\s*)name=([^;]*)` captures of a cookie header. -/
def cookieText (header name : String) : Option String :=
  let key := name.toList ++ ['=']
  match key.isPrefixOf? header.toList with
  | some rest => some (String.ofList (rest.takeWhile (· ≠ ';')))
  | none => (laterCookie key header.toList).map String.ofList

/-- `parseCookie`. A value that cannot be decoded throws. -/
def parseCookie (header name : String) : Except String (Option String) :=
  match cookieText header name with
  | none => .ok none
  | some text => (decodeURIComponent text).map some

/-! ### Keys -/

/-- The key of an authorization header: the words after a scheme that announces one. -/
def authorizationKey (header : String) : Option String :=
  let authorization := trim header
  if authorization = "" then none
  else
    match (words authorization.toList).map String.ofList with
    | [] => none
    | scheme :: rest =>
      if scheme = "" ∨ rest = [] then none
      else if toLowerCase scheme ∈ ["bearer", "apikey", "token"] then
        truthy (some (trim (" ".intercalate rest)))
      else none

end MissionControl.Foundations.HeaderText
