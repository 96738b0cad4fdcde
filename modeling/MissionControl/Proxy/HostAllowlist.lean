import MissionControl.Proxy.RequestGate

/-!
Which hosts the proxy lets in. It reads the name of a host up to the first colon, so it cuts an
address in brackets, and it lets all hosts in when no pattern is configured.
-/

set_option autoImplicit false
set_option relaxedAutoImplicit false

namespace MissionControl.Proxy.HostAllowlist

open MissionControl.Auth.Accounts (Environment)
open MissionControl.Foundations.JsText
open RequestGate

/-! ### Names and patterns -/

/-- The host that a request names: the first that was forwarded, or that of its own header. -/
def firstHost (r : Request) : List Char :=
  trimChars ((((truthy r.xForwardedHost).getD (r.host.getD "")).toList).takeWhile (· ≠ ','))

/-- The address in brackets that a host is, with or without a port. -/
def literal? (host : List Char) : Option (List Char) :=
  let literal := host.takeWhile (· ≠ ']') ++ [']']
  let port := host.drop literal.length
  if host.head? = some '[' ∧ ':' ∈ literal ∧ literal <+: host ∧ (port = [] ∨ port.head? = some ':')
  then some literal else none

/-- What stands before the first colon. -/
def beforeColon (host : List Char) : List Char := trimChars (host.takeWhile (· ≠ ':'))

/-- The name of a host, without its port. -/
def hostnameOf (host : List Char) : List Char := (literal? host).getD (beforeColon host)

/-- The hosts of a pattern. -/
inductive Matches : List Char → List Char → Prop
  | below {sub : List Char} (domain : List Char) (hsub : sub ≠ []) :
      Matches ('*' :: '.' :: domain) (sub ++ '.' :: domain)
  | address {part : List Char} (rest : List Char) (hother : ¬ ['*', '.'] <+: part ++ ['.', '*']) :
      Matches (part ++ ['.', '*']) (part ++ '.' :: rest)
  | name {host : List Char} (hhost : host ≠ []) (hbelow : ¬ ['*', '.'] <+: host)
      (haddress : ¬ ['.', '*'] <:+ host) : Matches host host

def lower (env : Environment) (text : List Char) : List Char :=
  (env.toLowerCase (String.ofList text)).toList

/-- One of the patterns has the host, whatever the case of their letters. -/
def Allowed (env : Environment) (s : Settings) (host : List Char) : Prop :=
  ∃ p ∈ allowedPatterns s, Matches (lower env p.toList) (lower env host)

/-- One of the patterns is an asterisk before the host, which begins with a dot. -/
def Dotted (env : Environment) (s : Settings) (host : List Char) : Prop :=
  (lower env host).head? = some '.' ∧
    ∃ p ∈ allowedPatterns s, lower env p.toList = '*' :: lower env host

/-- There is a pattern, and what stands before the first colon says as much as the name. -/
def Readable (env : Environment) (s : Settings) (host : List Char) : Prop :=
  allowedPatterns s ≠ [] ∧
    (∀ address, literal? host = some address →
      (Allowed env s (beforeColon host) ∨ Dotted env s (beforeColon host) ↔
        Allowed env s address)) ∧
    (literal? host = none → Dotted env s (beforeColon host) → Allowed env s (beforeColon host))

/-! ### Comparing -/

variable {env : Environment} {s : Settings} {r : Request}

theorem matches_below_iff {domain h : List Char} :
    Matches ('*' :: '.' :: domain) h ↔ ∃ sub, sub ≠ [] ∧ h = sub ++ '.' :: domain := by
  constructor
  · intro hmatches
    generalize hp : '*' :: '.' :: domain = p at hmatches
    have hbelow : ['*', '.'] <+: p := ⟨domain, hp⟩
    cases hmatches with
    | @below sub domain' hsub =>
      obtain rfl : domain = domain' := by simpa using hp
      exact ⟨sub, hsub, rfl⟩
    | address _ hother => exact absurd hbelow hother
    | name _ hother => exact absurd hbelow hother
  · rintro ⟨sub, hsub, rfl⟩
    exact .below domain hsub

theorem matches_address_iff {part h : List Char} (hother : ¬ ['*', '.'] <+: part ++ ['.', '*']) :
    Matches (part ++ ['.', '*']) h ↔ part ++ ['.'] <+: h := by
  constructor
  · intro hmatches
    generalize hp : part ++ ['.', '*'] = p at hmatches hother
    cases hmatches with
    | below domain _ => exact absurd ⟨domain, rfl⟩ hother
    | address rest _ =>
      obtain ⟨rfl, -⟩ := List.append_inj' hp rfl
      exact ⟨rest, by simp⟩
    | name _ _ haddress => exact absurd ⟨part, hp⟩ haddress
  · rintro ⟨rest, rfl⟩
    rw [List.append_assoc]
    exact .address rest hother

theorem matches_name_iff {p h : List Char} (hbelow : ¬ ['*', '.'] <+: p)
    (haddress : ¬ ['.', '*'] <:+ p) : Matches p h ↔ h ≠ [] ∧ h = p := by
  constructor
  · intro hmatches
    cases hmatches with
    | below domain _ => exact absurd ⟨domain, rfl⟩ hbelow
    | @address part _ _ => exact absurd ⟨part, rfl⟩ haddress
    | name hhost _ _ => exact ⟨hhost, rfl⟩
  · rintro ⟨hhost, rfl⟩
    exact .name hhost hbelow haddress

/-- What the comparison of a pattern with a host finds. -/
theorem hostMatches_iff (pattern hostname : String) : hostMatches env pattern hostname = true ↔
    Matches (lower env (trimChars pattern.toList)) (lower env (trimChars hostname.toList)) ∨
      (lower env (trimChars hostname.toList)).head? = some '.' ∧
        lower env (trimChars pattern.toList) =
          '*' :: lower env (trimChars hostname.toList) := by
  have hcode : hostMatches env pattern hostname =
      (let p := lower env (trimChars pattern.toList)
      let h := lower env (trimChars hostname.toList)
      if p = [] ∨ h = [] then false
      else if ['*', '.'].isPrefixOf p then ('.' :: p.drop 2).isSuffixOf h
      else if ['.', '*'].isSuffixOf p then p.dropLast.isPrefixOf h
      else h = p) := rfl
  rw [hcode]
  generalize lower env (trimChars pattern.toList) = p
  generalize lower env (trimChars hostname.toList) = h
  dsimp only
  by_cases hbelow : ['*', '.'] <+: p
  · obtain ⟨domain, rfl⟩ := hbelow
    rw [show ['*', '.'] ++ domain = '*' :: '.' :: domain from rfl, matches_below_iff]
    by_cases hh : h = []
    · simp [hh]
    · have hprefix : ['*', '.'].isPrefixOf ('*' :: '.' :: domain) = true := by
        rw [List.isPrefixOf_iff_prefix]
        exact ⟨domain, rfl⟩
      rw [if_neg (by simp [hh]), if_pos hprefix, List.isSuffixOf_iff_suffix]
      constructor
      · rintro ⟨sub, rfl⟩
        by_cases hsub : sub = []
        · exact .inr ⟨by simp [hsub], by simp [hsub]⟩
        · exact .inl ⟨sub, hsub, rfl⟩
      · rintro (⟨sub, -, rfl⟩ | ⟨-, hsame⟩)
        · exact ⟨sub, rfl⟩
        · exact ⟨[], (List.cons.inj hsame).2⟩
  · have hdotted : ¬ (h.head? = some '.' ∧ p = '*' :: h) := by
      rintro ⟨hhead, rfl⟩
      obtain ⟨rest, rfl⟩ := List.head?_eq_some_iff.mp hhead
      exact hbelow ⟨rest, rfl⟩
    rw [or_iff_left hdotted]
    by_cases haddress : ['.', '*'] <:+ p
    · obtain ⟨part, rfl⟩ := haddress
      rw [matches_address_iff hbelow]
      by_cases hh : h = []
      · simp [hh]
      · rw [if_neg (by simp [hh]), if_neg (by rwa [List.isPrefixOf_iff_prefix]),
          if_pos (by rw [List.isSuffixOf_iff_suffix]; exact ⟨part, rfl⟩)]
        rw [show (part ++ ['.', '*']).dropLast = part ++ ['.'] by simp,
          List.isPrefixOf_iff_prefix]
    · rw [matches_name_iff hbelow haddress]
      by_cases hnone : p = [] ∨ h = []
      · rw [if_pos hnone]
        constructor
        · nofun
        · rintro ⟨hh, rfl⟩
          exact absurd hnone (by simp [hh])
      · rw [if_neg hnone, if_neg (by rwa [List.isPrefixOf_iff_prefix]),
          if_neg (by rwa [List.isSuffixOf_iff_suffix]), decide_eq_true_eq]
        exact ⟨fun hsame => ⟨fun hh => hnone (.inr hh), hsame⟩, And.right⟩

/-! ### The check -/

theorem beforeColon_firstHost : trimChars (getRequestHostname r).toList =
    beforeColon (firstHost r) := by
  have hraw : orElse (r.xForwardedHost.getD "") (r.host.getD "") =
      (truthy r.xForwardedHost).getD (r.host.getD "") := by
    cases r.xForwardedHost with
    | none => rfl
    | some forwarded =>
      by_cases hempty : forwarded = ""
      · simp [orElse, truthy, hempty, Option.filter]
      · simp [orElse, truthy, hempty, Option.filter]
  simp only [getRequestHostname, hraw, firstPart, trim, String.toList_ofList, beforeColon, firstHost]

theorem trimChars_of_allowed {p : String} (hp : p ∈ allowedPatterns s) :
    trimChars p.toList = p.toList := by
  obtain ⟨part, -, rfl⟩ := List.mem_map.mp (List.mem_of_mem_filter hp)
  simp only [trim, String.toList_ofList, trimChars_trimChars]

/-- Some pattern matches what stands before the first colon. -/
theorem any_hostMatches_iff :
    ((allowedPatterns s).any fun p => hostMatches env p (getRequestHostname r)) = true ↔
      Allowed env s (beforeColon (firstHost r)) ∨ Dotted env s (beforeColon (firstHost r)) := by
  rw [List.any_eq_true]
  constructor
  · rintro ⟨p, hp, hmatches⟩
    rw [hostMatches_iff, beforeColon_firstHost, trimChars_of_allowed hp] at hmatches
    rcases hmatches with hmatches | ⟨hhead, hsame⟩
    · exact .inl ⟨p, hp, hmatches⟩
    · exact .inr ⟨hhead, p, hp, hsame⟩
  · rintro (⟨p, hp, hmatches⟩ | ⟨hhead, p, hp, hsame⟩)
    · refine ⟨p, hp, ?_⟩
      rw [hostMatches_iff, beforeColon_firstHost, trimChars_of_allowed hp]
      exact .inl hmatches
    · refine ⟨p, hp, ?_⟩
      rw [hostMatches_iff, beforeColon_firstHost, trimChars_of_allowed hp]
      exact .inr ⟨hhead, hsame⟩

/-- The host check is what answers that a request is forbidden. -/
theorem proxy_eq_forbidden_iff (platform : Platform) :
    proxy platform s env r = .text 403 "Forbidden" ↔ isAllowedHost env s r = false := by
  rw [proxy]
  constructor
  · intro hanswer
    by_contra hallowed
    rw [if_neg hallowed] at hanswer
    split at hanswer
    · cases hanswer
    · split at hanswer
      · cases hanswer
      · dsimp only at hanswer
        split at hanswer
        · split at hanswer <;> cases hanswer
        · split at hanswer <;> cases hanswer
  · intro hforbidden
    rw [if_pos hforbidden]

/-- In production the proxy lets in the hosts that a pattern has, where the name of the host can
be read before the first colon and there is a pattern. -/
theorem host_check_iff (platform : Platform) (env : Environment) (s : Settings) (r : Request)
    (hproduction : s.nodeEnv = some "production") (hflag : envFlag s.allowAnyHost = false) :
    (proxy platform s env r ≠ .text 403 "Forbidden" ↔ Allowed env s (hostnameOf (firstHost r))) ↔
      Readable env s (firstHost r) := by
  have hcheck : proxy platform s env r ≠ .text 403 "Forbidden" ↔ allowedPatterns s = [] ∨
      (Allowed env s (beforeColon (firstHost r)) ∨
        Dotted env s (beforeColon (firstHost r))) := by
    rw [ne_eq, proxy_eq_forbidden_iff, Bool.not_eq_false, ← any_hostMatches_iff]
    simp [isAllowedHost, hproduction, hflag]
  have hpattern : ∀ {host : List Char}, Allowed env s host → allowedPatterns s ≠ [] :=
    fun ⟨p, hp, _⟩ => List.ne_nil_of_mem hp
  rw [hcheck, hostnameOf, Readable]
  cases hliteral : literal? (firstHost r) with
  | none =>
    simp only [Option.getD_none, reduceCtorEq, false_implies, implies_true, true_and,
      true_implies]
    constructor
    · intro h
      have hsome : allowedPatterns s ≠ [] := fun hnone => hpattern (h.mp (.inl hnone)) hnone
      exact ⟨hsome, fun hdotted => h.mp (.inr (.inr hdotted))⟩
    · rintro ⟨hsome, hdotted⟩
      constructor
      · rintro (hnone | hallowed | hdotted')
        · exact absurd hnone hsome
        · exact hallowed
        · exact hdotted hdotted'
      · exact fun hallowed => .inr (.inl hallowed)
  | some address =>
    simp only [Option.getD_some, Option.some.injEq, forall_eq', reduceCtorEq, false_implies,
      and_true]
    constructor
    · intro h
      have hsome : allowedPatterns s ≠ [] := fun hnone => hpattern (h.mp (.inl hnone)) hnone
      exact ⟨hsome, by rw [← h, or_iff_right hsome]⟩
    · rintro ⟨hsome, hsame⟩
      rw [or_iff_right hsome, hsame]

/-! ### Hosts of an installation -/

def plainHosting : Platform := ⟨fun _ => none, fun _ _ => none⟩

def noKeys : Environment where
  apiKey := none
  googleClientId := none
  defaultWorkspaceId := 1
  sha256 text := text
  scryptSync _ _ := []
  toLowerCase := toLowerCase

def hosting (allowedHosts : Option String) : Settings := ⟨none, some "production", allowedHosts⟩

/-- A request for the login page. -/
def loginAt (host : String) : Request where
  method := "GET"
  urlHost := host
  pathname := "/login"
  search := ""
  host := some host
  xForwardedHost := none
  xForwardedFor := none
  userAgent := none
  origin := none
  headers := ⟨none, none, none, none⟩

theorem subdomain_let_in :
    proxy plainHosting (hosting (some "localhost, *.Example.com")) noKeys
        (loginAt "board.example.com:3000") ≠ .text 403 "Forbidden" ↔
      Allowed noKeys (hosting (some "localhost, *.Example.com"))
        (hostnameOf (firstHost (loginAt "board.example.com:3000"))) := by
  apply (host_check_iff plainHosting noKeys (hosting (some "localhost, *.Example.com"))
    (loginAt "board.example.com:3000") rfl (by decide)).mpr
  refine ⟨by decide +kernel, fun address haddress => ?_, fun _ hdotted => ?_⟩
  · have hnone : literal? (firstHost (loginAt "board.example.com:3000")) = none := by
      decide +kernel
    exact absurd (hnone.symm.trans haddress) (by simp)
  · have hhead : (lower noKeys (beforeColon (firstHost (loginAt "board.example.com:3000")))).head? =
        some 'b' := by decide +kernel
    exact absurd (hhead.symm.trans hdotted.1) (by decide)

/-- Without a pattern every host is let in. -/
theorem unconfigured_let_in : ¬ ∀ (platform : Platform) (env : Environment) (s : Settings)
    (r : Request), s.nodeEnv = some "production" → envFlag s.allowAnyHost = false →
    (proxy platform s env r ≠ .text 403 "Forbidden" ↔ Allowed env s (hostnameOf (firstHost r))) := by
  intro h
  have hiff := h plainHosting noKeys (hosting none) (loginAt "evil.example") rfl (by decide)
  obtain ⟨p, hp, -⟩ := hiff.mp (by decide +kernel)
  have hnone : allowedPatterns (hosting none) = [] := by decide +kernel
  rw [hnone] at hp
  cases hp

/-- An address in brackets is turned away, though it is a pattern. -/
example : proxy plainHosting (hosting (some "[::1]")) noKeys (loginAt "[::1]:3000") =
    .text 403 "Forbidden" := by decide +kernel

end MissionControl.Proxy.HostAllowlist
