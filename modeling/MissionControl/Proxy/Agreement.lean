import MissionControl.Proxy.RequestGate
import MissionControl.Auth.AccountSteps
import MissionControl.DataRooms.EntryLimit

/-!
The proxy and the routes behind it. Both read a key from the same headers, and every key that the
installation hands out has the form that the proxy lets through. The proxy knows nothing of the
visitors of data rooms, whose pages and routes ask for no session of a user.
-/

set_option autoImplicit false
set_option relaxedAutoImplicit false

namespace MissionControl.Proxy.Agreement

open MissionControl.Foundations.JsText
open MissionControl.Foundations.HeaderText
open MissionControl.Foundations.Transition (Machine)
open MissionControl.Foundations.Query (FirstBy)
open MissionControl.Auth.Accounts
open MissionControl.Auth.AccountSteps
open MissionControl.Auth.Routes (seeded SeedAdmin plainEnvironment rootAdmin rootUser)
open MissionControl.DataRooms.Rooms (LatestEvent)
open MissionControl.DataRooms.Routes (openRoom beginEnter beginReport getFile)
open RequestGate

/-! ### Keys that are handed out -/

/-- The key that `POST /api/agents/[id]/keys` draws. -/
def mintKey (bytes : List UInt8) : String := "mca_" ++ String.ofList (bytes.flatMap hexDigits)

/-- A new key is made of 24 random bytes. -/
def Draws : Auth.Routes.Event → Prop
  | .postKey _ _ _ rawKey => ∃ bytes : List UInt8, bytes.length = 24 ∧ rawKey = mintKey bytes
  | _ => True

/-- Every digest in the table is that of a key of 24 bytes. -/
def Minted (env : Environment) (w : World) : Prop :=
  ∀ k ∈ w.keys, ∃ bytes : List UInt8, bytes.length = 24 ∧ k.keyHash = env.sha256 (mintKey bytes)

theorem isLowerHex_hexDigits (b : UInt8) : (hexDigits b).all isLowerHex = true := by
  have hdigit : ∀ n < 16,
      isLowerHex (Char.ofNat (if n < 10 then '0'.toNat + n else 'a'.toNat + (n - 10))) = true := by
    decide
  have hlow : b.toNat % 16 < 16 := Nat.mod_lt _ (by omega)
  have hhigh : b.toNat / 16 < 16 := by
    have hbyte := b.toNat_lt
    omega
  simp only [hexDigits, List.all_cons, List.all_nil, hdigit _ hlow, hdigit _ hhigh, Bool.and_self]

theorem length_flatMap_hexDigits (bytes : List UInt8) :
    (bytes.flatMap hexDigits).length = 2 * bytes.length := by
  induction bytes with
  | nil => rfl
  | cons b bytes ih =>
    have hpair : (hexDigits b).length = 2 := rfl
    rw [List.flatMap_cons, List.length_append, List.length_cons, ih, hpair]
    omega

/-- A key of at least sixteen bytes is let through. -/
theorem hasAgentApiKeyCandidate_mintKey {bytes : List UInt8} (h : 16 ≤ bytes.length) :
    hasAgentApiKeyCandidate (mintKey bytes) = true := by
  have hfront : "mca_".toList.isPrefixOf? (mintKey bytes).toList =
      some (bytes.flatMap hexDigits) := by
    have hrest : (String.ofList (bytes.flatMap hexDigits)).toList = bytes.flatMap hexDigits :=
      String.toList_ofList
    rw [mintKey, String.toList_append, hrest]
    rfl
  have hlength : 32 ≤ (bytes.flatMap hexDigits).length := by
    rw [length_flatMap_hexDigits]
    omega
  have hdigits : (bytes.flatMap hexDigits).all isLowerHex = true := by
    rw [List.all_eq_true]
    intro c hc
    obtain ⟨b, -, hcb⟩ := List.mem_flatMap.mp hc
    exact List.all_eq_true.mp (isLowerHex_hexDigits b) c hcb
  rw [hasAgentApiKeyCandidate, hfront]
  exact decide_eq_true ⟨hlength, hdigits⟩

variable {env : Environment}

/-- The digests in the table come from the table before, or from a key that was drawn. -/
theorem keyHash_of_moved {w w' : World} {e : Auth.Routes.Event} (h : Moved env w e w') :
    ∀ k' ∈ w'.keys, (∃ k ∈ w.keys, k'.keyHash = k.keyHash) ∨
      ∃ user ref body rawKey, e = .postKey user ref body rawKey ∧
        k'.keyHash = env.sha256 rawKey := by
  have hold : ∀ k' ∈ w.keys, (∃ k ∈ w.keys, k'.keyHash = k.keyHash) ∨
      ∃ user ref body rawKey, e = .postKey user ref body rawKey ∧
        k'.keyHash = env.sha256 rawKey := fun k' hk' => .inl ⟨k', hk', rfl⟩
  cases h with
  | kept => exact hold
  | waited => exact hold
  | requests => exact hold
  | loggedIn username password token u workspaceId w' user approved created =>
    obtain ⟨-, rfl⟩ := createSession_eq_ok created
    exact hold
  | loggedOut headers token =>
    rw [destroySession]
    split
    · exact hold
    · exact hold
  | adopted => exact hold
  | identified payload token sub email avatar row w' picked created =>
    obtain ⟨-, rfl⟩ := createSession_eq_ok created
    exact hold
  | approved => exact hold
  | inserted => exact hold
  | updated =>
    rw [updateUser]
    split
    · exact hold
    · exact hold
  | profile =>
    rw [updateUser]
    split
    · exact hold
    · exact hold
  | deleted => exact hold
  | agentInserted => exact hold
  | agentRemoved => exact fun k' hk' => hold k' (List.mem_of_mem_filter hk')
  | posted user ref body rawKey k id hash =>
    intro k' hk'
    rcases List.mem_append.mp hk' with hk' | hk'
    · exact hold k' hk'
    · rw [List.mem_singleton.mp hk']
      exact .inr ⟨user, ref, body, rawKey, rfl, hash⟩
  | revoked =>
    intro k' hk'
    obtain ⟨k, hk, rfl⟩ := List.mem_map.mp hk'
    refine .inl ⟨k, hk, ?_⟩
    split
    · rfl
    · rfl

theorem minted_of_step {w w' : World} {e : Auth.Routes.Event} (h : Minted env w) (he : Draws e)
    (hstep : (Auth.Routes.machine env).step w e = some w') : Minted env w' := by
  intro k' hk'
  rcases keyHash_of_moved (moved_of_step hstep) k' hk' with
    ⟨k, hk, hhash⟩ | ⟨user, ref, body, rawKey, rfl, hhash⟩
  · obtain ⟨bytes, hlength, hminted⟩ := h k hk
    exact ⟨bytes, hlength, hhash.trans hminted⟩
  · obtain ⟨bytes, hlength, rfl⟩ := he
    exact ⟨bytes, hlength, hhash⟩

theorem minted_of_run {now : Nat} {admin : Option SeedAdmin} {trace : List Auth.Routes.Event}
    {w : World} (hdraws : (Auth.Routes.machine env).Meets (fun _ => Draws) (seeded now admin) trace)
    (hrun : (Auth.Routes.machine env).run (seeded now admin) trace = some w) : Minted env w := by
  have hkept : ∀ w e w', Minted env w → Draws e →
      (Auth.Routes.machine env).step w e = some w' → Minted env w' :=
    fun w e w' h he hstep => minted_of_step h he hstep
  have hseeded : Minted env (seeded now admin) := by
    intro k hk
    cases admin with
    | none => cases hk
    | some admin => cases hk
  exact Machine.run_invariant hkept hseeded hdraws hrun

/-! ### What a request carries -/

/-- The two readers of a key agree, up to how they say that there is none. -/
theorem extractApiKeyFromRequest_eq (headers : Headers) :
    extractApiKeyFromRequest headers = (extractApiKeyFromHeaders headers).getD "" := by
  rw [extractApiKeyFromRequest, extractApiKeyFromHeaders]
  by_cases hdirect : trim (headers.xApiKey.getD "") = ""
  · rw [if_neg (not_not.mpr hdirect), hdirect]
    show _ = (authorizationKey _).getD ""
    rw [authorizationKey]
    by_cases hempty : trim (headers.authorization.getD "") = ""
    · rw [if_pos hempty, if_pos hempty]
      rfl
    · rw [if_neg hempty, if_neg hempty]
      cases (words (trim (headers.authorization.getD "")).toList).map String.ofList with
      | nil => rfl
      | cons scheme rest =>
        dsimp only
        by_cases hshort : scheme = "" ∨ rest = []
        · rw [if_pos hshort, if_pos hshort]
          rfl
        · rw [if_neg hshort, if_neg hshort]
          by_cases hscheme : toLowerCase scheme ∈ ["bearer", "apikey", "token"]
          · rw [if_pos hscheme, if_pos hscheme]
            by_cases hkey : trim (" ".intercalate rest) = ""
            · rw [hkey]
              rfl
            · rw [truthy_of_ne hkey]
              rfl
          · rw [if_neg hscheme, if_neg hscheme]
            rfl
  · rw [if_pos hdirect, truthy_of_ne hdirect]
    rfl

/-- A key that is read is not empty. -/
theorem extractApiKeyFromHeaders_ne {headers : Headers} {key : String}
    (h : extractApiKeyFromHeaders headers = some key) : key ≠ "" := by
  rw [extractApiKeyFromHeaders] at h
  cases hdirect : truthy (some (trim (headers.xApiKey.getD ""))) with
  | some direct =>
    rw [hdirect] at h
    obtain rfl := Option.some.inj h
    exact of_decide_eq_true (Option.filter_eq_some_iff.mp hdirect).2
  | none =>
    rw [hdirect] at h
    dsimp only at h
    rw [authorizationKey] at h
    split at h
    · cases h
    · split at h
      · cases h
      · split at h
        · cases h
        · split at h
          · exact of_decide_eq_true (Option.filter_eq_some_iff.mp h).2
          · cases h

variable {p : Platform} {s : Settings} {r : Request}

/-- The request has a session cookie of a user, whatever it says. -/
def CarriesSession (p : Platform) (r : Request) : Prop :=
  truthy (p.cookie (r.headers.cookie.getD "") "mc-session") ≠ none

/-- The request has the key of the installation, or a text of the form of an agent's key. -/
def CarriesKey (env : Environment) (r : Request) : Prop :=
  ∃ key, extractApiKeyFromHeaders r.headers = some key ∧
    (key = trim (env.apiKey.getD "") ∨ hasAgentApiKeyCandidate key = true)

/-- An origin that the request names is that of the host that it asks. -/
def SameOrigin (p : Platform) (r : Request) : Prop :=
  ∀ origin, r.origin = some origin → p.urlHost origin = some (requestHost r)

theorem carriesKey_iff : CarriesKey env r ↔
    hasValidApiKey env (extractApiKeyFromRequest r.headers) = true ∨
      hasAgentApiKeyCandidate (extractApiKeyFromRequest r.headers) = true := by
  rw [CarriesKey, extractApiKeyFromRequest_eq]
  cases hkey : extractApiKeyFromHeaders r.headers with
  | none =>
    constructor
    · rintro ⟨key, hsome, -⟩
      cases hsome
    · rintro (hvalid | hform)
      · obtain ⟨-, hne, -⟩ := of_decide_eq_true hvalid
        exact absurd rfl hne
      · cases hform
  | some key =>
    have hne := extractApiKeyFromHeaders_ne hkey
    rw [Option.getD_some]
    constructor
    · rintro ⟨key', hsome, hconfigured | hform⟩
      · obtain rfl := Option.some.inj hsome
        exact .inl (decide_eq_true ⟨hconfigured ▸ hne, hne, hconfigured⟩)
      · obtain rfl := Option.some.inj hsome
        exact .inr hform
    · rintro (hvalid | hform)
      · obtain ⟨-, -, hconfigured⟩ := of_decide_eq_true hvalid
        exact ⟨key, rfl, .inl hconfigured⟩
      · exact ⟨key, rfl, .inr hform⟩

theorem originMismatch_of_sameOrigin (h : SameOrigin p r) : originMismatch p r = false := by
  have hnone : (truthy r.origin).any (fun origin =>
      let originHost := (p.urlHost origin).getD ""
      originHost ≠ "" ∧ requestHost r ≠ "" ∧ originHost ≠ requestHost r) = false := by
    cases horigin : truthy r.origin with
    | none => rfl
    | some origin =>
      have hnamed : r.origin = some origin := (Option.filter_eq_some_iff.mp horigin).1
      simp only [Option.any_some, h origin hnamed, Option.getD_some, ne_eq, not_true_eq_false,
        and_false, decide_false]
  simp only [originMismatch, hnone, Bool.false_eq_true, and_false, decide_false]

/-- What the proxy asks of a request from an allowed host and of the same origin. -/
theorem passes_iff (hhost : isAllowedHost env s r = true) (horigin : SameOrigin p r) :
    passes p s env r = true ↔ matcher r.pathname = false ∨ isPublicPath r.pathname = true ∨
      CarriesSession p r ∨ (isApiPath r.pathname = true ∧ CarriesKey env r) := by
  simp only [passes, proxy, hhost, originMismatch_of_sameOrigin horigin, carriesKey_iff,
    CarriesSession, Bool.true_eq_false, Bool.false_eq_true, if_false]
  cases matcher r.pathname with
  | false => simp only [Bool.false_eq_true, if_false, true_or]
  | true =>
    cases isPublicPath r.pathname with
    | true => simp only [if_true, true_or, or_true]
    | false =>
      cases isApiPath r.pathname with
      | true =>
        simp only [Bool.false_eq_true, Bool.true_eq_false, if_false, if_true, false_or, true_and]
        by_cases hcarries : truthy (p.cookie (r.headers.cookie.getD "") "mc-session") ≠ none ∨
            hasValidApiKey env (extractApiKeyFromRequest r.headers) = true ∨
              hasAgentApiKeyCandidate (extractApiKeyFromRequest r.headers) = true
        · rw [if_pos hcarries]
          exact iff_of_true rfl hcarries
        · rw [if_neg hcarries]
          exact iff_of_false Bool.false_ne_true hcarries
      | false =>
        simp only [Bool.false_eq_true, Bool.true_eq_false, if_false, if_true, false_or, false_and,
          or_false]
        by_cases hcarries : truthy (p.cookie (r.headers.cookie.getD "") "mc-session") ≠ none
        · rw [if_pos hcarries]
          exact iff_of_true rfl hcarries
        · rw [if_neg hcarries]
          exact iff_of_false Bool.false_ne_true hcarries

/-! ### What the routes serve -/

/-- A segment of a path that stands for a token. -/
def Names (segment token : String) : Prop :=
  segment ≠ "" ∧ '/' ∉ segment.toList ∧ decodeURIComponent segment = .ok token

/-- A route gives the request a principal without a session. -/
def KeyServed (env : Environment) (w : World) (r : Request) : Prop :=
  isApiPath r.pathname = true ∧ ∃ user, getUserFromRequest env w r.headers = .ok (some user) ∧
    user.principalType ≠ .user

/-- The page of a data room and the routes behind it, for a visitor whom they do not refuse. -/
inductive VisitorServed (order : FirstBy LatestEvent) (p : Platform)
    (rooms : DataRooms.Routes.World) (r : Request) : Prop where
  | page (segment token : String) (path : r.pathname = "/room/" ++ segment)
      (names : Names segment token)
  /-- `GET /api/room/[token]` refuses nobody for whom the room opens. -/
  | view (segment token : String) (method : r.method = "GET")
      (path : r.pathname = "/api/room/" ++ segment) (names : Names segment token)
      (opens : ∃ linkAndRoom, openRoom rooms.tables token = .ok linkAndRoom)
  | enter (segment token : String) (method : r.method = "POST")
      (path : r.pathname = "/api/room/" ++ (segment ++ "/enter")) (names : Names segment token)
      (begun : (beginEnter rooms token r.xForwardedFor r.userAgent).2 = .pending)
  | report (segment token : String) (method : r.method = "POST")
      (path : r.pathname = "/api/room/" ++ (segment ++ "/events")) (names : Names segment token)
      (begun : (beginReport rooms token
        (p.cookie (r.headers.cookie.getD "") "dr-session")).2 = .pending)
  | file (segment token docSegment : String) (docId : Nat) (download : Bool)
      (content : Option String) (method : r.method = "GET")
      (path : r.pathname = "/api/room/" ++ (segment ++ "/documents/" ++ docSegment ++ "/file"))
      (names : Names segment token)
      (served : ∃ document attachment text, (getFile order rooms.tables token docId
        (p.cookie (r.headers.cookie.getD "") "dr-session") download content).2.1 =
          .served document attachment text)

theorem append_ne {front rest text : String} (h : front.toList.isPrefixOf text.toList = false) :
    front ++ rest ≠ text := by
  rintro rfl
  rw [String.toList_append, List.isPrefixOf_iff_prefix.mpr (List.prefix_append _ _)] at h
  cases h

/-- The proxy sees what is asked for data rooms, and its open paths are others. -/
theorem path_of_visitor {order : FirstBy LatestEvent} {rooms : DataRooms.Routes.World}
    (h : VisitorServed order p rooms r) :
    matcher r.pathname = true ∧ isPublicPath r.pathname = false := by
  have hfront : (∃ rest, r.pathname = "/room/" ++ rest) ∨
      ∃ rest, r.pathname = "/api/room/" ++ rest := by
    cases h with
    | page segment token path => exact .inl ⟨_, path⟩
    | view segment token method path => exact .inr ⟨_, path⟩
    | enter segment token method path => exact .inr ⟨_, path⟩
    | report segment token method path => exact .inr ⟨_, path⟩
    | file segment token docSegment docId download content method path => exact .inr ⟨_, path⟩
  rcases hfront with ⟨rest, hpath⟩ | ⟨rest, hpath⟩
  · rw [hpath]
    constructor
    · rw [matcher, String.toList_append]
      rfl
    · rw [isPublicPath, String.toList_append]
      refine decide_eq_false ?_
      rintro (hlogin | hauth | happ | hdocs)
      · exact append_ne (by decide) hlogin
      · cases hauth
      · exact append_ne (by decide) happ
      · exact append_ne (by decide) hdocs
  · rw [hpath]
    constructor
    · rw [matcher, String.toList_append]
      rfl
    · rw [isPublicPath, String.toList_append]
      refine decide_eq_false ?_
      rintro (hlogin | hauth | happ | hdocs)
      · exact append_ne (by decide) hlogin
      · cases hauth
      · exact append_ne (by decide) happ
      · exact append_ne (by decide) hdocs

/-- No other text has the digest of a key of 24 bytes that the request brings. -/
def Genuine (env : Environment) (r : Request) : Prop :=
  ∀ key, extractApiKeyFromHeaders r.headers = some key → ∀ bytes : List UInt8,
    bytes.length = 24 → env.sha256 key = env.sha256 (mintKey bytes) → key = mintKey bytes

/-- A key that a route accepts is one that the proxy lets through. -/
theorem carriesKey_of_keyServed {w : World} (hminted : Minted env w) (hgenuine : Genuine env r)
    (h : KeyServed env w r) : CarriesKey env r := by
  obtain ⟨-, user, huser, htype⟩ := h
  cases getUserFromRequest_principal huser with
  | session token s cookie opens id type => exact absurd type htype
  | agent apiKey k a unopened key unlocks =>
    obtain ⟨hk, hhash, -⟩ := unlocks
    obtain ⟨bytes, hlength, hdigest⟩ := hminted k hk
    refine ⟨apiKey, key, .inr ?_⟩
    rw [hgenuine apiKey key bytes hlength (hhash.symm.trans hdigest)]
    exact hasAgentApiKeyCandidate_mintKey (by omega)
  | system apiKey unopened key configured => exact ⟨apiKey, key, .inl configured⟩

/-! ### Agreement -/

/-- The routes serve the request without a session of a user. -/
def Served (order : FirstBy LatestEvent) (p : Platform) (env : Environment) (w : World)
    (rooms : DataRooms.Routes.World) (r : Request) : Prop :=
  KeyServed env w r ∨ VisitorServed order p rooms r

def plainPlatform : Platform where
  urlHost text := ("https://".toList.isPrefixOf? text.toList).map String.ofList
  cookie := cookieText

def production : Settings := ⟨none, some "production", some "board.example.com"⟩

def boardRequest (method pathname : String) (headers : Headers) : Request where
  method := method
  urlHost := "board.example.com"
  pathname := pathname
  search := ""
  host := some "board.example.com"
  xForwardedHost := none
  xForwardedFor := some "203.0.113.9"
  userAgent := none
  origin := some "https://board.example.com"
  headers := headers

theorem sameOrigin_boardRequest (method pathname : String) (headers : Headers) :
    SameOrigin plainPlatform (boardRequest method pathname headers) := by
  intro origin horigin
  obtain rfl := Option.some.inj horigin
  show plainPlatform.urlHost "https://board.example.com" =
    some (orElse (trim (firstPart ',' "board.example.com")) "board.example.com")
  decide +kernel

def sampleBytes : List UInt8 := List.replicate 24 0xA7

/-- An agent gets a key. -/
def keyedAgent : List Auth.Routes.Event :=
  [.insertAgent "scout" 1, .postKey rootUser (.name "scout") ⟨none, none, .never⟩ (mintKey sampleBytes)]

def agentRequest : Request :=
  boardRequest "GET" "/api/tasks" ⟨none, none, none, some ("Bearer " ++ mintKey sampleBytes)⟩

/-- An administrator shares a room by a link. -/
def sharedRoom : List DataRooms.Routes.Event :=
  [.createRoom 1 "Series A" "series-a", .postLink 1 none false none "uX3vQ"]

/-- A guest follows the link. -/
def visit : Request := boardRequest "GET" "/room/uX3vQ" ⟨none, none, none, none⟩

/-- A guest enters the room. -/
def entry : Request := boardRequest "POST" "/api/room/uX3vQ/enter" ⟨none, none, none, none⟩

end MissionControl.Proxy.Agreement
