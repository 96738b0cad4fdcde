import MissionControl.Provisioning.Daemon

/-!
The dashboard and the root daemon agree on what a plan may contain: under one environment the
daemon accepts every step of every plan. Both rebuild the same paths, the dashboard by joining
segments and the daemon by joining or by anchored patterns with a quoted directory in them.
-/

set_option autoImplicit false
set_option relaxedAutoImplicit false

namespace MissionControl.Provisioning.PlanAcceptance

open MissionControl.Foundations.PosixPath
open MissionControl.Foundations.RegularExpression
open Plans Daemon

/-- Neither path lies below the other. -/
def Unrelated (a b : String) : Prop :=
  ¬ parts a.toList <+: parts b.toList ∧ ¬ parts b.toList <+: parts a.toList

instance (a b : String) : Decidable (Unrelated a b) := inferInstanceAs (Decidable (_ ∧ _))

/-- Both processes see one environment, and its directories are fit for provisioning. -/
structure SameEnvironment (env : Environment) (denv : DaemonEnvironment) : Prop where
  home : Daemon.tenantHomeRoot denv = getTenantHomeRoot env
  homeNormal : Normal (getTenantHomeRoot env).toList
  homeBelowRoot : (getTenantHomeRoot env).toList ≠ ['/']
  dirname : Daemon.tenantWorkspaceDirname denv = getTenantWorkspaceDirname env
  dirnameSegment : Segment (getTenantWorkspaceDirname env).toList
  template : templateOpenclawJson denv = templateOpenclawJsonPath env
  templateNormal : Normal (templateOpenclawJsonPath env).toList
  repo : Daemon.repoRoot denv = Plans.repoRoot env
  repoNormal : Normal (Plans.repoRoot env).toList
  data : Daemon.dataDir denv = env.dataDir
  dataNormal : Normal env.dataDir.toList
  templateRepo : Unrelated (templateOpenclawJsonPath env) (Plans.repoRoot env)
  templateData : Unrelated (templateOpenclawJsonPath env) env.dataDir
  repoData : Unrelated (Plans.repoRoot env) env.dataDir

/-! ### Names -/

def userHeadRanges : List (Char × Char) := [('a', 'z'), ('_', '_')]

def userTailRanges : List (Char × Char) := [('a', 'z'), ('0', '9'), ('_', '_'), ('-', '-')]

def slugEndRanges : List (Char × Char) := [('a', 'z'), ('0', '9')]

def slugRanges : List (Char × Char) := [('a', 'z'), ('0', '9'), ('-', '-')]

def userRe : List Re := [.oneOf userHeadRanges, .rep (.oneOf userTailRanges) 1 30]

def slugRe : List Re := [.oneOf slugEndRanges, .rep (.oneOf slugRanges) 1 30, .oneOf slugEndRanges]

theorem compile_user : compile "^[a-z_][a-z0-9_-]\x7b1,30\x7d$".toList =
    some (seqAll (.start :: (userRe ++ [.stop]))) := rfl

theorem compile_slug : compile "^[a-z0-9][a-z0-9-]\x7b1,30\x7d[a-z0-9]$".toList =
    some (seqAll (.start :: (slugRe ++ [.stop]))) := rfl

/-- The text of a linux user: one character to begin with and one to thirty more. -/
def UserText (u : List Char) : Prop :=
  ∃ c w, u = c :: w ∧ inRanges userHeadRanges c = true ∧
    (∀ d ∈ w, inRanges userTailRanges d = true) ∧ 1 ≤ w.length ∧ w.length ≤ 30

theorem reads_userText : Reads userRe UserText := by
  intro p q hmatch
  obtain ⟨u, hu, _, w, rfl, ⟨c, rfl, hc⟩, hw⟩ := reads_oneOf.append reads_rep_oneOf p q hmatch
  exact ⟨[c] ++ w, hu, c, w, rfl, hc, hw⟩

theorem user_of_valid {user : String} (h : isValidLinuxUser user = true) :
    UserText user.toList := by
  unfold isValidLinuxUser at h
  rw [testText_of_compile compile_user] at h
  exact reads_userText.of_test h

theorem slug_of_valid {slug : String} (h : isValidSlug slug = true) :
    (∀ c ∈ slug.toList, inRanges slugRanges c = true) ∧ 3 ≤ slug.toList.length ∧
      slug.toList.length ≤ 32 := by
  have hreads : Reads slugRe _ := reads_oneOf.append (reads_rep_oneOf.append reads_oneOf)
  unfold isValidSlug at h
  rw [testText_of_compile compile_slug] at h
  obtain ⟨_, _, hslug, ⟨c, rfl, hcrange⟩, w, _, rfl, ⟨hall, hleast, hmost⟩, d, rfl, hdrange⟩ :=
    hreads.of_test h
  have hwiden : ∀ e, inRanges slugEndRanges e = true → inRanges slugRanges e = true := by
    intro e he
    unfold inRanges slugEndRanges at he
    unfold inRanges slugRanges
    simp only [List.any_cons, List.any_nil, Bool.or_false, Bool.or_eq_true] at he ⊢
    exact he.imp id .inl
  rw [hslug, List.singleton_append]
  refine ⟨?_, ?_, ?_⟩
  · intro e he
    rcases List.mem_cons.mp he with rfl | he
    · exact hwiden e hcrange
    · rcases List.mem_append.mp he with he | he
      · exact hall e he
      · rw [List.mem_singleton.mp he]
        exact hwiden d hdrange
  · simp only [List.length_cons, List.length_append, List.length_nil]
    omega
  · simp only [List.length_cons, List.length_append, List.length_nil]
    omega

theorem consumes_user {user : String} (h : isValidLinuxUser user = true) :
    Consumes userRe user.toList := by
  obtain ⟨c, w, hsplit, hc, hw, hleast, hmost⟩ := user_of_valid h
  rw [hsplit]
  exact (consumes_oneOf hc).append (consumes_rep_oneOf hw hleast hmost)

theorem segment_of_ranges {ranges : List (Char × Char)} {w : List Char} (hne : w ≠ [])
    (hall : ∀ c ∈ w, inRanges ranges c = true) (hslash : inRanges ranges '/' = false)
    (hdot : inRanges ranges '.' = false) : Segment w := by
  refine ⟨hne, ?_, ?_, ?_⟩
  · intro hmem
    rw [hall _ hmem] at hslash
    cases hslash
  · rintro rfl
    rw [hall '.' (by simp)] at hdot
    cases hdot
  · rintro rfl
    rw [hall '.' (by simp)] at hdot
    cases hdot

theorem segment_user {user : String} (h : isValidLinuxUser user = true) :
    Segment user.toList := by
  obtain ⟨c, w, hsplit, hc, hw, -, -⟩ := user_of_valid h
  have hall : ∀ d ∈ c :: w, inRanges userTailRanges d = true := by
    intro d hd
    rcases List.mem_cons.mp hd with rfl | hd
    · unfold inRanges userHeadRanges at hc
      unfold inRanges userTailRanges
      simp only [List.any_cons, List.any_nil, Bool.or_false, Bool.or_eq_true] at hc ⊢
      rcases hc with hc | hc
      · exact .inl hc
      · exact .inr (.inr (.inl hc))
    · exact hw d hd
  rw [hsplit]
  exact segment_of_ranges (by simp) hall (by decide) (by decide)

theorem segment_slug {slug : String} (h : isValidSlug slug = true) : Segment slug.toList := by
  obtain ⟨hall, hleast, -⟩ := slug_of_valid h
  refine segment_of_ranges ?_ hall (by decide) (by decide)
  intro hnil
  rw [hnil] at hleast
  cases hleast

/-- The owner argument of `chown` names the account and its group. -/
theorem splitText_owner {user : String} (h : isValidLinuxUser user = true) :
    splitText ':' (user ++ ":" ++ user) = [user, user] := by
  have hcolon : ':' ∉ user.toList := by
    obtain ⟨c, w, hsplit, hc, hw, -, -⟩ := user_of_valid h
    rw [hsplit]
    intro hmem
    rcases List.mem_cons.mp hmem with rfl | hmem
    · exact absurd hc (by decide)
    · exact absurd (hw _ hmem) (by decide)
  have htext : (user ++ ":" ++ user).toList = user.toList ++ ':' :: user.toList := by
    rw [String.toList_append, String.toList_append, List.append_assoc]
    rfl
  unfold splitText
  rw [htext, List.splitOn_append_cons_self_of_not_mem hcolon, List.splitOn_eq_singleton hcolon]
  simp

/-! ### Paths -/

theorem segments_map {names : List String} (h : ∀ s ∈ names, Segment s.toList) :
    Segments (names.map String.toList) := by
  intro s hs
  obtain ⟨name, hname, rfl⟩ := List.mem_map.mp hs
  exact h name hname

/-- The path of names below a normalized directory other than the root. -/
theorem joinPosix_below {home : String} (hnormal : Normal home.toList)
    (hroot : home.toList ≠ ['/']) {names : List String} (h : ∀ s ∈ names, Segment s.toList) :
    (joinPosix (home :: names)).toList =
      absolute (parts home.toList ++ names.map String.toList) := by
  have hsegments := segments_map h
  have hne := hnormal.parts_ne_nil hroot
  have hstripped := hnormal.stripSlashes hroot
  have habsolute : Normal (absolute (parts home.toList)) :=
    normal_absolute hnormal.segments hne
  have hnames : names.map (fun p => stripSlashes p.toList) = names.map String.toList :=
    List.map_congr_left fun s hs => stripSlashes_of_segment (h s hs)
  have hmap : (home :: names).map (fun p => stripSlashes p.toList) =
      absolute (parts home.toList) :: names.map String.toList := by
    rw [List.map_cons, hstripped, hnames]
  unfold joinPosix
  rw [String.toList_ofList, hmap]
  cases names with
  | nil =>
    rw [List.map_nil, List.append_nil]
    show normalize (['/'].intercalate ([absolute (parts home.toList)].filter (· ≠ []))) = _
    rw [List.filter_cons_of_pos (by simp [absolute]), List.filter_nil, List.intercalate_singleton]
    exact habsolute.fixed
  | cons name names =>
    rw [join_segments habsolute hsegments (by simp), parts_absolute hnormal.segments]

theorem joinText_below {dir : String} (hnormal : Normal dir.toList) {names : List String}
    (h : ∀ s ∈ names, Segment s.toList) (hne : names ≠ []) :
    (joinText (dir :: names)).toList = absolute (parts dir.toList ++ names.map String.toList) := by
  unfold joinText
  rw [String.toList_ofList, List.map_cons,
    join_segments hnormal (segments_map h) (by simpa using hne)]

/-- A path that is related to a directory cannot be one of its entries. -/
theorem ne_below_of_unrelated {path dir : String} (h : Unrelated path dir)
    (hnormal : Normal dir.toList) {segments : List (List Char)} (hs : Segments segments)
    {below : String} (hbelow : below.toList = absolute (parts dir.toList ++ segments)) :
    path ≠ below := by
  rintro rfl
  refine h.2 ?_
  have hall : Segments (parts dir.toList ++ segments) := by
    intro s hmem
    rcases List.mem_append.mp hmem with hmem | hmem
    · exact hnormal.segments s hmem
    · exact hs s hmem
  rw [hbelow, parts_absolute hall]
  exact List.prefix_append _ _

/-! ### The patterns of the daemon -/

section Patterns

variable {env : Environment} {denv : DaemonEnvironment}

/-- A slash and the linux user, as the patterns read them. -/
def slashUserRe : List Re := [.char '/', seqAll userRe]

def userTokens : List Token :=
  [.oneOf userHeadRanges, .oneOf userTailRanges, .count 1 30]

theorem consumes_slashUser {user : String} (h : isValidLinuxUser user = true) :
    Consumes slashUserRe ('/' :: user.toList) :=
  (consumes_chars ['/']).append (consumes_user h).group

theorem home_toList (same : SameEnvironment env denv) :
    (joinPosix [Daemon.tenantHomeRoot denv]).toList =
      absolute (parts (getTenantHomeRoot env).toList) := by
  rw [same.home, joinPosix_below same.homeNormal same.homeBelowRoot (fun _ h => by cases h)]
  simp

/-- An entry of the home directory of a user, as text below the home root. -/
theorem joinPosix_user (same : SameEnvironment env denv) {user entry : String}
    (huser : Segment user.toList) (hentry : Segment entry.toList) :
    (joinPosix [getTenantHomeRoot env, user, entry]).toList =
      absolute (parts (getTenantHomeRoot env).toList) ++
        ('/' :: user.toList ++ '/' :: entry.toList) := by
  have hnames : ∀ s ∈ [user, entry], Segment s.toList := by
    intro s hs
    rcases List.mem_cons.mp hs with rfl | hs
    · exact huser
    · rw [List.mem_singleton.mp hs]
      exact hentry
  rw [joinPosix_below same.homeNormal same.homeBelowRoot hnames,
    absolute_append (same.homeNormal.parts_ne_nil same.homeBelowRoot) (by simp)]
  simp

def openclawJsonRest : List Char := "/.openclaw/openclaw.json".toList

def openclawJsonTail : List Char :=
  "\\/([a-z_][a-z0-9_-]\x7b1,30\x7d)\\/\\.openclaw\\/openclaw\\.json$".toList

theorem openclawJsonPattern_toList : (openclawJsonPattern denv).toList =
    '^' :: (escape (joinPosix [Daemon.tenantHomeRoot denv]).toList ++ openclawJsonTail) := by
  unfold openclawJsonPattern escapeRegExp
  generalize escape (joinPosix [Daemon.tenantHomeRoot denv]).toList = quoted
  rw [String.toList_append, String.toList_append, String.toList_ofList (l := quoted)]
  rfl

theorem tokenize_openclawJsonTail : tokenize .plain openclawJsonTail =
    some (.char '/' :: .open ::
      (userTokens ++ .close :: (openclawJsonRest.map .char ++ [.dollar]))) := by
  decide +kernel

theorem test_openclawJson (same : SameEnvironment env denv) {user : String}
    (h : isValidLinuxUser user = true) :
    testText (openclawJsonPattern denv)
      (joinPosix [getTenantHomeRoot env, user, ".openclaw"] ++ "/openclaw.json") = true := by
  have hpattern := @openclawJsonPattern_toList denv
  rw [home_toList same] at hpattern
  have htext : (joinPosix [getTenantHomeRoot env, user, ".openclaw"] ++ "/openclaw.json").toList =
      absolute (parts (getTenantHomeRoot env).toList) ++
        ('/' :: user.toList ++ openclawJsonRest) := by
    rw [String.toList_append, joinPosix_user same (segment_user h) (by decide)]
    simp only [List.append_assoc, List.cons_append]
    rfl
  exact test_quoted hpattern tokenize_openclawJsonTail (fun items => rfl) htext
    ((consumes_slashUser h).append (consumes_chars openclawJsonRest))

theorem test_provisionerEnv (same : SameEnvironment env denv) {slug : String}
    (h : isValidSlug slug = true) :
    testText (provisionerEnvPattern denv)
      (getProvisionArtifactDir env slug ++ "/openclaw-gateway.env") = true := by
  let dir := absolute (parts env.dataDir.toList ++ ["provisioner".toList])
  let tail := "\\/([a-z0-9-]\x7b3,32\x7d)\\/openclaw-gateway\\.env$".toList
  let rest := "/openclaw-gateway.env".toList
  let slugs : List Re := [.char '/', seqAll [.rep (.oneOf slugRanges) 3 32]]
  have hpattern : (provisionerEnvPattern denv).toList = '^' :: (escape dir ++ tail) := by
    have hname : ∀ s ∈ ["provisioner"], Segment s.toList := by decide
    have hdir := joinText_below same.dataNormal hname (by simp)
    simp only [provisionerEnvPattern, escapeRegExp, String.toList_append, String.toList_ofList,
      same.data, hdir, List.append_assoc]
    rfl
  have htail : tokenize .plain tail =
      some (.char '/' :: .open :: .oneOf slugRanges :: .count 3 32 :: .close ::
        (rest.map .char ++ [.dollar])) := by
    decide +kernel
  have htext : (getProvisionArtifactDir env slug ++ "/openclaw-gateway.env").toList =
      dir ++ ('/' :: slug.toList ++ rest) := by
    have hnames : ∀ s ∈ ["provisioner", slug], Segment s.toList := by
      intro s hs
      rcases List.mem_cons.mp hs with rfl | hs
      · decide
      · rw [List.mem_singleton.mp hs]
        exact segment_slug h
    have hpath := joinText_below same.dataNormal hnames (by simp)
    unfold getProvisionArtifactDir
    rw [String.toList_append, hpath, List.map_cons, List.map_singleton,
      show parts env.dataDir.toList ++ ["provisioner".toList, slug.toList] =
        (parts env.dataDir.toList ++ ["provisioner".toList]) ++ [slug.toList] by simp,
      absolute_concat (by simp)]
    simp only [List.append_assoc, List.cons_append]
    rfl
  obtain ⟨hall, hleast, hmost⟩ := slug_of_valid h
  have hslug : Consumes slugs ('/' :: slug.toList) :=
    (consumes_chars ['/']).append (consumes_rep_oneOf hall hleast hmost).group
  exact test_quoted hpattern htail (fun items => rfl) htext (hslug.append (consumes_chars rest))

/-- The pattern of the removable directories quotes two names as alternatives of one group. -/
theorem parse_tenantDir (dot ws : List Char) (items : List Re) :
    parse ⟨[], items⟩ [] ((.char '/' :: .open :: (userTokens ++ [.close, .char '/', .open])) ++
      (dot.map .char ++ (.bar :: (ws.map .char ++ [.close, .dollar])))) =
    some (seqAll (((slashUserRe ++ [Re.char '/', Re.alt (seqAll (dot.map .char))
      (seqAll (ws.map .char))]) ++ [Re.stop]).reverse ++ items).reverse) := by
  have hfront : ∀ ts, parse ⟨[], items⟩ []
      ((.char '/' :: .open :: (userTokens ++ [.close, .char '/', .open])) ++ ts) =
        parse ⟨[], []⟩ [⟨[], .char '/' :: seqAll userRe :: .char '/' :: items⟩] ts := fun _ => rfl
  rw [hfront, parse_chars, List.append_nil]
  simp only [parse, List.reverse_reverse]
  rw [parse_chars, List.append_nil]
  simp [parse, Group.add, Group.re, slashUserRe]

def tenantDirTail (ws : List Char) : List Char :=
  "\\/([a-z_][a-z0-9_-]\x7b1,30\x7d)\\/(\\.openclaw|".toList ++ (escape ws ++ ")$".toList)

theorem tenantDirPattern_toList : (tenantDirPattern denv).toList =
    '^' :: (escape (joinPosix [Daemon.tenantHomeRoot denv]).toList ++
      tenantDirTail (Daemon.tenantWorkspaceDirname denv).toList) := by
  unfold tenantDirPattern tenantDirTail escapeRegExp
  generalize escape (joinPosix [Daemon.tenantHomeRoot denv]).toList = root
  generalize escape (Daemon.tenantWorkspaceDirname denv).toList = ws
  simp only [String.toList_append, List.append_assoc]
  rw [String.toList_ofList (l := root), String.toList_ofList (l := ws)]
  rfl

theorem tokenize_tenantDirTail (ws : List Char) : tokenize .plain (tenantDirTail ws) =
    some ((.char '/' :: .open :: (userTokens ++ [.close, .char '/', .open])) ++
      (".openclaw".toList.map .char ++ (.bar :: (ws.map .char ++ [.close, .dollar])))) := by
  have hmiddle : tokenize .plain
      "\\/([a-z_][a-z0-9_-]\x7b1,30\x7d)\\/(\\.openclaw|".toList =
        some ((.char '/' :: .open :: (userTokens ++ [.close, .char '/', .open])) ++
          (".openclaw".toList.map .char ++ [.bar])) := by
    decide +kernel
  have hend : tokenize .plain ")$".toList = some [.close, .dollar] := by
    decide
  have htail := tokenize_append hmiddle (tokenize_append (tokenize_escape ws) hend)
  rw [List.append_assoc, List.append_assoc, List.singleton_append] at htail
  exact htail

theorem test_tenantDir (same : SameEnvironment env denv) {user entry : String}
    (h : isValidLinuxUser user = true)
    (hentry : entry = ".openclaw" ∨ entry = getTenantWorkspaceDirname env) :
    testText (tenantDirPattern denv) (joinPosix [getTenantHomeRoot env, user, entry]) = true := by
  let ws := (getTenantWorkspaceDirname env).toList
  let dot := ".openclaw".toList
  have hpattern := @tenantDirPattern_toList denv
  rw [home_toList same, same.dirname] at hpattern
  have hsegment : Segment entry.toList := by
    rcases hentry with rfl | rfl
    · decide
    · exact same.dirnameSegment
  have htext : (joinPosix [getTenantHomeRoot env, user, entry]).toList =
      absolute (parts (getTenantHomeRoot env).toList) ++
        ('/' :: user.toList ++ '/' :: entry.toList) :=
    joinPosix_user same (segment_user h) hsegment
  have hconsumed : Consumes [.alt (seqAll (dot.map .char)) (seqAll (ws.map .char))]
      entry.toList := by
    rcases hentry with rfl | rfl
    · exact (consumes_chars dot).altLeft _
    · exact (consumes_chars ws).altRight _
  exact test_quoted hpattern (tokenize_tenantDirTail ws) (parse_tenantDir dot ws) htext
    ((consumes_slashUser h).append ((consumes_chars ['/']).append hconsumed))

theorem compile_tenantEnv : compile tenantEnvPattern.toList =
    some (seqAll (.start :: (("/etc/openclaw-tenants/".toList.map .char ++ userRe ++
      ".env".toList.map .char) ++ [.stop]))) := by
  decide +kernel

theorem test_tenantEnv {user : String} (h : isValidLinuxUser user = true) :
    testText tenantEnvPattern ("/etc/openclaw-tenants/" ++ user ++ ".env") = true := by
  rw [testText_of_compile compile_tenantEnv, String.toList_append, String.toList_append]
  exact test_of_consumes
    (((consumes_chars "/etc/openclaw-tenants/".toList).append (consumes_user h)).append
      (consumes_chars ".env".toList))

theorem test_gatewayService {user : String} (h : isValidLinuxUser user = true) :
    testText gatewayServicePattern ("openclaw-gateway@" ++ user ++ ".service") = true := by
  let front := "openclaw-gateway@".toList
  let back := ".service".toList
  have hcompile : compile gatewayServicePattern.toList =
      some (seqAll (.start :: ((front.map .char ++ userRe ++ back.map .char) ++ [.stop]))) := by
    decide +kernel
  rw [testText_of_compile hcompile, String.toList_append, String.toList_append]
  exact test_of_consumes
    (((consumes_chars front).append (consumes_user h)).append (consumes_chars back))

end Patterns

/-! ### The steps -/

section Steps

variable {env : Environment} {denv : DaemonEnvironment} {draft : BootstrapDraft}

private theorem accepts_install (same : SameEnvironment env denv) {user entry : String}
    (h : isValidLinuxUser user = true)
    (hentry : entry = ".openclaw" ∨ entry = getTenantWorkspaceDirname env) :
    Accepts denv ["/usr/bin/install", "-d", "-m", "0750", "-o", user, "-g", user,
      joinPosix [getTenantHomeRoot env, user, entry]] := by
  have hsafe : isSafeUser user = true := h
  have hlisted : joinPosix [getTenantHomeRoot env, user, entry] ∈
      [joinPosix [Daemon.tenantHomeRoot denv, user, ".openclaw"],
        joinPosix [Daemon.tenantHomeRoot denv, user, Daemon.tenantWorkspaceDirname denv]] := by
    rw [same.home, same.dirname]
    rcases hentry with rfl | rfl
    · exact List.mem_cons_self
    · exact List.mem_cons_of_mem _ (List.mem_singleton_self _)
  show validateCommand denv "/usr/bin/install" _ = none
  rw [validate_install]
  unfold validateInstall
  dsimp only
  rw [if_neg (by simp), if_neg (by simp), if_neg (by simp [hsafe]), if_neg (not_not.mpr hlisted)]
  exact ite_self _

private theorem accepts_cp_template (same : SameEnvironment env denv) (valid : Validated env draft) :
    Accepts denv ["/usr/bin/cp", "-n", draft.templateOpenclawJsonPath,
      draft.tenant.openclawHome ++ "/openclaw.json"] := by
  have hset : templateOpenclawJson denv ≠ "" := by
    rw [same.template, ← valid.template]
    exact valid.templateSet
  have hsource : draft.templateOpenclawJsonPath = templateOpenclawJson denv := by
    rw [same.template, valid.template]
  have htarget := test_openclawJson same valid.linuxUser
  show validateCommand denv "/usr/bin/cp" _ = none
  rw [validate_cp]
  unfold validateCp
  dsimp only
  rw [if_neg (by simp), if_pos ⟨hset, hsource⟩, if_neg (by simp), valid.openclawHome,
    if_neg (by rw [htarget]; decide)]

private theorem gatewayTemplate_toList (same : SameEnvironment env denv)
    (valid : Validated env draft) : ∃ segments, Segments segments ∧
      draft.gatewaySystemdTemplatePath.toList =
        absolute (parts (Plans.repoRoot env).toList ++ segments) := by
  rw [valid.gatewayTemplate]
  have hnames : ∀ s ∈ ["ops", "templates", "openclaw-gateway@.service"], Segment s.toList := by
    decide
  exact ⟨_, segments_map hnames, joinText_below same.repoNormal hnames (by simp)⟩

private theorem accepts_cp_gateway (same : SameEnvironment env denv) (valid : Validated env draft) :
    Accepts denv ["/usr/bin/cp", "-n", draft.gatewaySystemdTemplatePath,
      "/etc/systemd/system/openclaw-gateway@.service"] := by
  obtain ⟨segments, hsegments, hpath⟩ := gatewayTemplate_toList same valid
  have hother : draft.gatewaySystemdTemplatePath ≠ templateOpenclawJson denv := by
    rw [same.template]
    exact (ne_below_of_unrelated same.templateRepo same.repoNormal hsegments hpath).symm
  have hsource : draft.gatewaySystemdTemplatePath = gatewaySystemdTemplate denv := by
    unfold gatewaySystemdTemplate
    rw [valid.gatewayTemplate, same.repo]
  show validateCommand denv "/usr/bin/cp" _ = none
  rw [validate_cp]
  unfold validateCp
  dsimp only
  rw [if_neg (by simp), if_neg (fun h => hother h.2), if_pos hsource, if_neg (by simp),
    if_neg (by simp)]

private theorem accepts_cp_env (same : SameEnvironment env denv) (valid : Validated env draft) :
    Accepts denv ["/usr/bin/cp", "-f",
      getProvisionArtifactDir env draft.tenant.slug ++ "/openclaw-gateway.env",
      "/etc/openclaw-tenants/" ++ draft.tenant.linuxUser ++ ".env"] := by
  have hnames : ∀ s ∈ ["provisioner", draft.tenant.slug], Segment s.toList := by
    intro s hs
    rcases List.mem_cons.mp hs with rfl | hs
    · decide
    · rw [List.mem_singleton.mp hs]
      exact segment_slug valid.slug
  have hdir := joinText_below same.dataNormal hnames (by simp)
  have hsource : (getProvisionArtifactDir env draft.tenant.slug ++ "/openclaw-gateway.env").toList =
      absolute (parts env.dataDir.toList ++
        (["provisioner", draft.tenant.slug].map String.toList ++ ["openclaw-gateway.env".toList])) := by
    unfold getProvisionArtifactDir
    rw [String.toList_append, hdir, ← List.append_assoc, absolute_concat (by simp)]
    rfl
  have hsegments : Segments
      (["provisioner", draft.tenant.slug].map String.toList ++ ["openclaw-gateway.env".toList]) := by
    intro s hs
    rcases List.mem_append.mp hs with hs | hs
    · exact segments_map hnames s hs
    · rw [List.mem_singleton.mp hs]
      decide
  have htemplate : getProvisionArtifactDir env draft.tenant.slug ++ "/openclaw-gateway.env" ≠
      templateOpenclawJson denv := by
    rw [same.template]
    exact (ne_below_of_unrelated same.templateData same.dataNormal hsegments hsource).symm
  have hgateway : getProvisionArtifactDir env draft.tenant.slug ++ "/openclaw-gateway.env" ≠
      gatewaySystemdTemplate denv := by
    obtain ⟨below, hbelow, hpath⟩ := gatewayTemplate_toList same valid
    have hrepo : gatewaySystemdTemplate denv = draft.gatewaySystemdTemplatePath := by
      unfold gatewaySystemdTemplate
      rw [valid.gatewayTemplate, same.repo]
    rw [hrepo]
    intro heq
    rw [heq, hpath] at hsource
    have hparts := congrArg parts hsource
    rw [parts_absolute, parts_absolute] at hparts
    · have hrepoPrefix := List.prefix_append (parts (Plans.repoRoot env).toList) below
      rw [hparts] at hrepoPrefix
      rcases List.prefix_or_prefix_of_prefix hrepoPrefix (List.prefix_append _ _) with
        hfirst | hsecond
      · exact same.repoData.1 hfirst
      · exact same.repoData.2 hsecond
    · intro s hs
      rcases List.mem_append.mp hs with hs | hs
      · exact same.dataNormal.segments s hs
      · exact hsegments s hs
    · intro s hs
      rcases List.mem_append.mp hs with hs | hs
      · exact same.repoNormal.segments s hs
      · exact hbelow s hs
  have hpattern := test_provisionerEnv same valid.slug
  have htarget := test_tenantEnv valid.linuxUser
  show validateCommand denv "/usr/bin/cp" _ = none
  rw [validate_cp]
  unfold validateCp
  dsimp only
  rw [if_neg (by simp), if_neg (fun h => htemplate h.2), if_neg hgateway, if_pos hpattern,
    if_neg (by simp), if_neg (by rw [htarget]; decide)]

private theorem accepts_chown (same : SameEnvironment env denv) {user : String}
    (h : isValidLinuxUser user = true) :
    Accepts denv ["/usr/bin/chown", "-R", user ++ ":" ++ user,
      joinPosix [getTenantHomeRoot env, user]] := by
  have hsafe : isSafeUser user = true := h
  show validateCommand denv "/usr/bin/chown" _ = none
  rw [validate_chown]
  unfold validateChown
  dsimp only
  rw [if_neg (by simp), splitText_owner h]
  dsimp only [List.getElem?_cons_zero, List.getElem?_cons_succ, Option.getD_some]
  rw [if_neg (by simp [hsafe]), same.home, if_neg (by simp)]

private theorem accepts_rm_env {user : String} (h : isValidLinuxUser user = true) :
    Accepts denv ["/usr/bin/rm", "-f", "/etc/openclaw-tenants/" ++ user ++ ".env"] := by
  have htarget := test_tenantEnv h
  show validateCommand denv "/usr/bin/rm" _ = none
  rw [validate_rm]
  unfold validateRm
  dsimp only
  rw [if_pos rfl, if_neg (by rw [htarget]; decide)]

private theorem accepts_rm_dir (same : SameEnvironment env denv) {user entry : String}
    (h : isValidLinuxUser user = true)
    (hentry : entry = ".openclaw" ∨ entry = getTenantWorkspaceDirname env) :
    Accepts denv ["/usr/bin/rm", "-rf", joinPosix [getTenantHomeRoot env, user, entry]] := by
  have htarget := test_tenantDir same h hentry
  show validateCommand denv "/usr/bin/rm" _ = none
  rw [validate_rm]
  unfold validateRm
  dsimp only
  rw [if_neg (by decide), if_pos rfl, if_neg (by rw [htarget]; decide)]

private theorem accepts_systemctl {user action : String} (h : isValidLinuxUser user = true)
    (haction : action = "enable" ∨ action = "disable") :
    Accepts denv ["/usr/bin/systemctl", action, "--now",
      "openclaw-gateway@" ++ user ++ ".service"] := by
  have hservice := test_gatewayService h
  show validateCommand denv "/usr/bin/systemctl" _ = none
  rw [validate_systemctl]
  unfold validateSystemctl
  rw [if_neg (by simp)]
  dsimp only
  rw [if_pos ⟨haction, rfl⟩, if_pos hservice]

private theorem accepts_user {user : String} (h : isValidLinuxUser user = true) :
    Accepts denv ["/usr/sbin/useradd", "-m", "-s", "/bin/bash", user] ∧
      Accepts denv ["/usr/sbin/userdel", "-r", user] := by
  have hsafe : isSafeUser user = true := h
  constructor
  · show validateCommand denv "/usr/sbin/useradd" _ = none
    rw [validate_useradd]
    simp [validateUseradd, hsafe]
  · show validateCommand denv "/usr/sbin/userdel" _ = none
    rw [validate_userdel]
    simp [validateUserdel, hsafe]

private theorem accepts_fixed : Accepts denv ["/usr/bin/install", "-d", "-m", "0750", "-o", "root",
      "-g", "root", "/etc/openclaw-tenants"] ∧
    Accepts denv ["/usr/bin/systemctl", "daemon-reload"] := by
  constructor
  · show validateCommand denv "/usr/bin/install" _ = none
    rw [validate_install]
    simp [validateInstall]
  · show validateCommand denv "/usr/bin/systemctl" _ = none
    rw [validate_systemctl]
    simp [validateSystemctl]

theorem bootstrap_accepted (same : SameEnvironment env denv) (valid : Validated env draft) :
    ∀ step ∈ draft.plan env, Accepts denv step.command := by
  have huser := valid.linuxUser
  intro step hstep
  unfold BootstrapDraft.plan buildBootstrapPlan at hstep
  simp only [List.mem_cons, List.not_mem_nil, or_false] at hstep
  rcases hstep with rfl | rfl | rfl | rfl | rfl | rfl | rfl | rfl | rfl | rfl
  · exact (accepts_user huser).1
  · rw [valid.openclawHome]
    exact accepts_install same huser (.inl rfl)
  · rw [valid.workspaceRoot]
    exact accepts_install same huser (.inr rfl)
  · exact accepts_cp_template same valid
  · exact accepts_chown same huser
  · exact accepts_fixed.1
  · exact accepts_cp_gateway same valid
  · exact accepts_cp_env same valid
  · exact accepts_fixed.2
  · exact accepts_systemctl huser (.inl rfl)

theorem decommission_accepted (same : SameEnvironment env denv) (valid : Validated env draft)
    (options : DecommissionOptions) :
    ∀ step ∈ buildDecommissionPlan draft.tenant options, Accepts denv step.command := by
  have huser := valid.linuxUser
  intro step hstep
  unfold buildDecommissionPlan at hstep
  dsimp only at hstep
  rcases List.mem_append.mp hstep with hstep | hstep
  · rcases List.mem_append.mp hstep with hstep | hstep
    · simp only [List.mem_cons, List.not_mem_nil, or_false] at hstep
      rcases hstep with rfl | rfl
      · exact accepts_systemctl huser (.inr rfl)
      · exact accepts_rm_env huser
    · split at hstep
      · simp only [List.mem_cons, List.not_mem_nil, or_false] at hstep
        rcases hstep with rfl | rfl
        · show Accepts denv ["/usr/bin/rm", "-rf", draft.tenant.openclawHome]
          rw [valid.openclawHome]
          exact accepts_rm_dir same huser (.inl rfl)
        · show Accepts denv ["/usr/bin/rm", "-rf", draft.tenant.workspaceRoot]
          rw [valid.workspaceRoot]
          exact accepts_rm_dir same huser (.inr rfl)
      · cases hstep
  · split at hstep
    · rw [List.mem_singleton] at hstep
      subst hstep
      exact (accepts_user huser).2
    · cases hstep

end Steps

/-- Under one environment the daemon accepts every step that the dashboard plans for an
accepted tenant, to set it up and to take it down with any options. -/
theorem planned_steps_accepted (env : Environment) (denv : DaemonEnvironment)
    (same : SameEnvironment env denv) (request : TenantBootstrapRequest) (draft : BootstrapDraft)
    (h : validateBootstrap env request = .ok draft) (options : DecommissionOptions) :
    (∀ step ∈ draft.plan env, Accepts denv step.command) ∧
      ∀ step ∈ buildDecommissionPlan draft.tenant options, Accepts denv step.command := by
  have valid := validateBootstrap_validated h
  exact ⟨bootstrap_accepted same valid, decommission_accepted same valid options⟩

def sampleDaemonEnvironment : DaemonEnvironment :=
  { repoRoot := some "/opt/mission-control"
    scriptParent := "/opt/mission-control"
    dataDir := some "/var/lib/mission-control"
    tenantHomeRoot := some "/srv/tenant.homes"
    tenantWorkspaceDirname := some "work (1)"
    superTemplateOpenclawJson := some "/etc/mission-control/openclaw.json"
    openclawHome := none }

/-- A slug with spaces and capitals around it, and directories full of pattern characters. -/
theorem planned_steps_accepted_acme :
    SameEnvironment sampleEnvironment sampleDaemonEnvironment ∧
      ∃ draft, validateBootstrap sampleEnvironment sampleBootstrapRequest = .ok draft ∧
        draft.tenant.linuxUser = "oc-acme-1" ∧
        (∀ step ∈ draft.plan sampleEnvironment, Accepts sampleDaemonEnvironment step.command) ∧
        ∀ step ∈ buildDecommissionPlan draft.tenant ⟨false, true⟩,
          Accepts sampleDaemonEnvironment step.command := by
  have same : SameEnvironment sampleEnvironment sampleDaemonEnvironment := by
    constructor <;> decide +kernel
  refine ⟨same, ?_⟩
  cases h : validateBootstrap sampleEnvironment sampleBootstrapRequest with
  | error e =>
    have hok : (validateBootstrap sampleEnvironment sampleBootstrapRequest).isOk = true := by
      decide +kernel
    rw [h] at hok
    cases hok
  | ok draft =>
    have huser : (validateBootstrap sampleEnvironment sampleBootstrapRequest).toOption.map
        (·.tenant.linuxUser) = some "oc-acme-1" := by
      decide +kernel
    rw [h] at huser
    exact ⟨draft, rfl, Option.some.inj huser,
      planned_steps_accepted sampleEnvironment sampleDaemonEnvironment same
        sampleBootstrapRequest draft h ⟨false, true⟩⟩

end MissionControl.Provisioning.PlanAcceptance
