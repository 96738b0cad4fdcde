import MissionControl.Auth.Accounts

/-!
The proxy in front of all pages and routes: which hosts it lets in, which origins may change
something, which paths are open, and what a request must carry for the others.
-/

set_option autoImplicit false
set_option relaxedAutoImplicit false

namespace MissionControl.Proxy.RequestGate

open MissionControl.Foundations.JsText
open MissionControl.Foundations.HeaderText
open MissionControl.Auth.Accounts

/-- What the proxy takes from the runtime and from the framework. -/
structure Platform where
  /-- The host of `new URL(text)`, unless it throws. -/
  urlHost : String → Option String
  /-- `request.cookies.get(name)?.value`, by the text of the cookie header. -/
  cookie : String → String → Option String

/-- The settings that only the proxy reads. -/
structure Settings where
  /-- `MC_ALLOW_ANY_HOST`. -/
  allowAnyHost : Option String
  /-- `NODE_ENV`. -/
  nodeEnv : Option String
  /-- `MC_ALLOWED_HOSTS`. -/
  allowedHosts : Option String
  deriving DecidableEq

/-- A request; `urlHost`, `pathname` and `search` are those of its address. -/
structure Request where
  method : String
  urlHost : String
  pathname : String
  search : String
  host : Option String
  xForwardedHost : Option String
  xForwardedFor : Option String
  userAgent : Option String
  origin : Option String
  headers : Headers
  deriving DecidableEq

inductive Answer where
  /-- The request goes on, and these headers are added to its response. -/
  | next (headers : List (String × String))
  | text (status : Nat) (body : String)
  | json (status : Nat) (error : String)
  | redirect (pathname search : String)
  deriving DecidableEq

def securityHeaders : List (String × String) :=
  [("X-Content-Type-Options", "nosniff"), ("X-Frame-Options", "DENY"),
    ("Referrer-Policy", "strict-origin-when-cross-origin")]

/-! ### Hosts and origins -/

/-- `envFlag`, on the value of the variable. -/
def envFlag (raw : Option String) : Bool :=
  raw.any fun raw => toLowerCase (trim raw) ∈ ["1", "true", "yes", "on"]

/-- `text.split(separator)[0]`. -/
def firstPart (separator : Char) (text : String) : String :=
  String.ofList (text.toList.takeWhile (· ≠ separator))

def getRequestHostname (r : Request) : String :=
  let raw := orElse (r.xForwardedHost.getD "") (r.host.getD "")
  firstPart ':' (trim (firstPart ',' raw))

def hostMatches (env : Environment) (pattern hostname : String) : Bool :=
  let p := (env.toLowerCase (trim pattern)).toList
  let h := (env.toLowerCase (trim hostname)).toList
  if p = [] ∨ h = [] then false
  else if "*.".toList.isPrefixOf p then ('.' :: p.drop 2).isSuffixOf h
  else if ".*".toList.isSuffixOf p then p.dropLast.isPrefixOf h
  else h = p

def allowedPatterns (s : Settings) : List String :=
  (((s.allowedHosts.getD "").toList.splitOn ',').map fun part => trim (String.ofList part)).filter
    (· ≠ "")

def isAllowedHost (env : Environment) (s : Settings) (r : Request) : Bool :=
  let allowAnyHost := envFlag s.allowAnyHost ∨ s.nodeEnv ≠ some "production"
  let enforceAllowlist := ¬ allowAnyHost ∧ allowedPatterns s ≠ []
  ¬ enforceAllowlist ∨ (allowedPatterns s).any fun p => hostMatches env p (getRequestHostname r)

/-- The host that an origin is compared with. -/
def requestHost (r : Request) : String :=
  orElse (trim (firstPart ',' (r.host.getD ""))) r.urlHost

/-- A request that changes something comes from another host. -/
def originMismatch (p : Platform) (r : Request) : Bool :=
  toUpperCase r.method ∈ ["POST", "PUT", "DELETE", "PATCH"] ∧
    (truthy r.origin).any fun origin =>
      let originHost := (p.urlHost origin).getD ""
      originHost ≠ "" ∧ requestHost r ≠ "" ∧ originHost ≠ requestHost r

/-! ### Keys -/

def extractApiKeyFromRequest (headers : Headers) : String :=
  let direct := trim (headers.xApiKey.getD "")
  if direct ≠ "" then direct
  else
    let authorization := trim (headers.authorization.getD "")
    if authorization = "" then ""
    else
      match (words authorization.toList).map String.ofList with
      | [] => ""
      | scheme :: rest =>
        if scheme = "" ∨ rest = [] then ""
        else if toLowerCase scheme ∈ ["bearer", "apikey", "token"] then
          trim (" ".intercalate rest)
        else ""

/-- The class `[a-f0-9]`. -/
def isLowerHex (c : Char) : Bool := ('a' ≤ c ∧ c ≤ 'f') ∨ ('0' ≤ c ∧ c ≤ '9')

/-- `/^mca_[a-f0-9]{32,}$/`. -/
def hasAgentApiKeyCandidate (apiKey : String) : Bool :=
  ("mca_".toList.isPrefixOf? apiKey.toList).any fun digits =>
    32 ≤ digits.length ∧ digits.all isLowerHex

/-- The key is the one that the installation is configured with. -/
def hasValidApiKey (env : Environment) (apiKey : String) : Bool :=
  let configuredApiKey := trim (env.apiKey.getD "")
  configuredApiKey ≠ "" ∧ apiKey ≠ "" ∧ apiKey = configuredApiKey

/-! ### Paths -/

def isPublicPath (pathname : String) : Bool :=
  pathname = "/login" ∨ "/api/auth/".toList.isPrefixOf pathname.toList ∨
    pathname = "/api/docs" ∨ pathname = "/docs"

def isApiPath (pathname : String) : Bool := "/api/".toList.isPrefixOf pathname.toList

/-- `config.matcher`: the paths that the proxy sees. The dot of `favicon.ico` is any character. -/
def matcher (pathname : String) : Bool :=
  match pathname.toList with
  | '/' :: rest =>
    ¬ ("_next/static".toList.isPrefixOf rest ∨ "_next/image".toList.isPrefixOf rest ∨
      ("favicon".toList.isPrefixOf rest ∧ "ico".toList.isPrefixOf (rest.drop 8)) ∨
      "ctv-mark.png".toList.isPrefixOf rest ∨ "ctvc-assets/".toList.isPrefixOf rest)
  | _ => false

/-! ### Requests -/

def proxy (p : Platform) (s : Settings) (env : Environment) (r : Request) : Answer :=
  if isAllowedHost env s r = false then .text 403 "Forbidden"
  else if originMismatch p r then .json 403 "CSRF origin mismatch"
  else if isPublicPath r.pathname then .next securityHeaders
  else
    let sessionToken := truthy (p.cookie (r.headers.cookie.getD "") "mc-session")
    if isApiPath r.pathname then
      let apiKey := extractApiKeyFromRequest r.headers
      if sessionToken ≠ none ∨ hasValidApiKey env apiKey ∨ hasAgentApiKeyCandidate apiKey then
        .next securityHeaders
      else .json 401 "Unauthorized"
    else if sessionToken ≠ none then .next securityHeaders
    else .redirect "/login" r.search

/-- The request reaches the page or the route that its path names. -/
def passes (p : Platform) (s : Settings) (env : Environment) (r : Request) : Bool :=
  if matcher r.pathname then
    match proxy p s env r with
    | .next _ => true
    | _ => false
  else true

end MissionControl.Proxy.RequestGate
