import MissionControl.Provisioning.PlanAcceptance

/-!
What the allowlist of the root daemon lets through. The arguments of an accepted command keep
every path it writes among the places of the tenants; the program behind it is judged by the last
segment of the command string only, while the daemon spawns the string itself.
-/

set_option autoImplicit false
set_option relaxedAutoImplicit false

namespace MissionControl.Provisioning.Allowlist

open MissionControl.Foundations.PosixPath
open MissionControl.Foundations.RegularExpression
open Plans Daemon PlanAcceptance

/-- What a command meets on the machine: the directory the daemon runs in, the directory of its
search path that holds a program, and the home directory that belongs to an account. -/
structure Host where
  cwd : List (List Char)
  which : String → Option String
  accountHome : String → String

/-- The file that `spawn(command, args, { shell: false })` executes: a name without a slash is
searched for, anything else is taken as it is. -/
def Host.program (host : Host) (command : String) : Option String :=
  if '/' ∈ command.toList then some command
  else (host.which command).map fun dir => dir ++ "/" ++ command

/-- The absolute paths under which the plans name their programs. -/
def plannerPrograms : List String :=
  ["/usr/sbin/useradd", "/usr/sbin/userdel", "/usr/bin/install", "/usr/bin/cp", "/usr/bin/chown",
    "/usr/bin/rm", "/usr/bin/systemctl", "/usr/bin/true"]

/-- `command.split('/').pop()`. -/
def basename (command : String) : String := (splitText '/' command).getLast?.getD ""

/-- The accounts that a program makes or deletes. -/
def accountNames (program : String) (args : List String) : List String :=
  if basename program ∈ ["useradd", "userdel"] then args.getLast?.toList else []

/-- The paths that a program creates, overwrites, gives away or removes: the home directory of an
account, or the last operand. -/
def writtenPaths (host : Host) (program : String) (args : List String) : List String :=
  (accountNames program args).map host.accountHome ++
    (if basename program ∈ ["install", "cp", "chown", "rm"] then args.getLast?.toList else [])

section Places

variable (env : DaemonEnvironment)

/-- `TENANT_HOME_ROOT/<user>`, as `pathJoinPosix` spells it. -/
def userHome (user : String) : String := joinPosix [tenantHomeRoot env, user]

/-- The places that provisioning may touch. -/
inductive TenantPlace (cwd : List (List Char)) : String → Prop
  | home {user path : String} (safe : isSafeUser user = true)
      (below : Below cwd (userHome env user).toList path.toList) : TenantPlace cwd path
  | environments : TenantPlace cwd "/etc/openclaw-tenants"
  | environment {user : String} (safe : isSafeUser user = true) :
      TenantPlace cwd ("/etc/openclaw-tenants/" ++ user ++ ".env")
  | gatewayUnit : TenantPlace cwd "/etc/systemd/system/openclaw-gateway@.service"

/-- Whatever the daemon executes for the command is a program of the plans and writes to the
places of the tenants only. -/
def Sound (host : Host) (command : String) (args : List String) : Prop :=
  ∀ program, host.program command = some program →
    program ∈ plannerPrograms ∧
      ∀ path ∈ writtenPaths host program args, TenantPlace env host.cwd path

/-- The command string names a program of the plans: in full, or by a name without a slash that
the search path leads to one of them, if to anything. -/
def NamesPlannerProgram (host : Host) (command : String) : Prop :=
  command ∈ plannerPrograms ∨
    ('/' ∉ command.toList ∧
      ∀ dir, host.which command = some dir → dir ++ "/" ++ command ∈ plannerPrograms)

end Places

/-! ### Places below a home directory -/

section Homes

variable {cwd : List (List Char)} {home user : String}

theorem segment_safeUser (h : isSafeUser user = true) : Segment user.toList := segment_user h

theorem joinPosix_ne_nil (paths : List String) : (joinPosix paths).toList ≠ [] := by
  unfold joinPosix
  rw [String.toList_ofList]
  exact normalize_ne_nil _

theorem resolve_joinPosix (home : String) (h : Segment user.toList) (names : List String) :
    resolve cwd (joinPosix (home :: user :: names)).toList =
      (names.flatMap fun name => parts name.toList).foldl (pushSegment false)
        (user.toList :: resolve cwd (joinPosix [home]).toList) := by
  have hstripped : ((user :: names).map fun name => stripSlashes name.toList).flatMap parts =
      (user :: names).flatMap fun name => parts name.toList := by
    rw [List.flatMap_map]
    simp only [parts_stripSlashes]
  have hjoined : resolve cwd (joinPosix (home :: user :: names)).toList =
      ((user :: names).flatMap fun name => parts name.toList).foldl (pushSegment false)
        (resolve cwd (joinPosix [home]).toList) := by
    rw [← hstripped]
    unfold joinPosix
    rw [String.toList_ofList, String.toList_ofList, List.map_cons, List.map_cons,
      stripSlashes_of_segment h, resolve_join_cons _ h]
    rfl
  rw [hjoined, List.flatMap_cons, parts_of_segment h, List.singleton_append, List.foldl_cons,
    pushSegment_segment h]

/-- An entry of a home directory, as it is joined. -/
theorem below_joined (h : Segment user.toList) {entry : String} (hentry : Descends entry.toList) :
    Below cwd (joinPosix [home, user]).toList (joinPosix [home, user, entry]).toList := by
  unfold Below
  rw [resolve_joinPosix _ h, resolve_joinPosix _ h, List.flatMap_cons, List.flatMap_nil,
    List.append_nil]
  exact hentry _

/-- An entry of a home directory, as the patterns of the daemon read it. -/
theorem below_matched (h : Segment user.toList) {entry : List Char} (hentry : Descends entry)
    {path : String} (hpath : path.toList = (joinPosix [home]).toList ++
      ('/' :: user.toList ++ '/' :: entry)) :
    Below cwd (joinPosix [home, user]).toList path.toList := by
  unfold Below
  rw [resolve_joinPosix _ h, hpath, List.cons_append, ← List.cons_append, ← List.append_assoc,
    resolve_append_slash (by simp), resolve_append_slash (joinPosix_ne_nil _), parts_of_segment h,
    List.foldl_cons, List.foldl_nil, pushSegment_segment h]
  exact hentry _

/-- The home directories of different users have no place in common. -/
theorem user_of_below {user' : String} {path : List Char} (h : Segment user.toList)
    (h' : Segment user'.toList) (hbelow : Below cwd (joinPosix [home, user]).toList path)
    (hbelow' : Below cwd (joinPosix [home, user']).toList path) : user = user' := by
  unfold Below at hbelow hbelow'
  rw [resolve_joinPosix _ h] at hbelow
  rw [resolve_joinPosix _ h'] at hbelow'
  have hsame := (List.suffix_of_suffix_length_le hbelow hbelow' (by simp)).eq_of_length (by simp)
  exact String.toList_injective (List.cons.inj hsame).1

end Homes

/-! ### What the patterns accept -/

section Patterns

variable {env : DaemonEnvironment} {text : String}

theorem reads_user : Reads userRe (fun w => isSafeUser (String.ofList w) = true) := by
  intro p q hmatch
  obtain ⟨_, hu, c, w, rfl, hc, hall, hleast, hmost⟩ := reads_userText p q hmatch
  refine ⟨c :: w, hu, ?_⟩
  show isSafeUser (String.ofList (c :: w)) = true
  unfold isSafeUser
  rw [testText_of_compile compile_user, String.toList_ofList]
  exact test_of_consumes ((consumes_oneOf hc).append (consumes_rep_oneOf hall hleast hmost))

theorem reads_slashUser : Reads slashUserRe
    (fun w => ∃ user, isSafeUser user = true ∧ w = '/' :: user.toList) := by
  intro p q hmatch
  obtain ⟨w, hw, a, b, hsplit, ha, hb⟩ := (reads_chars ['/']).append reads_user.group p q hmatch
  refine ⟨w, hw, String.ofList b, hb, ?_⟩
  rw [hsplit, ha, String.toList_ofList]
  rfl

theorem tenantEnv_of_test (h : testText tenantEnvPattern text = true) :
    ∃ user, isSafeUser user = true ∧ text = "/etc/openclaw-tenants/" ++ user ++ ".env" := by
  rw [testText_of_compile compile_tenantEnv] at h
  obtain ⟨w, b, hsplit, ⟨a, u, rfl, rfl, huser⟩, rfl⟩ :=
    (((reads_chars _).append reads_user).append (reads_chars _)).of_test h
  refine ⟨String.ofList u, huser, String.toList_injective ?_⟩
  rw [hsplit, String.toList_append, String.toList_append, String.toList_ofList (l := u)]

theorem openclawJson_of_test (h : testText (openclawJsonPattern env) text = true) :
    ∃ user, isSafeUser user = true ∧ text.toList = (joinPosix [tenantHomeRoot env]).toList ++
      ('/' :: user.toList ++ '/' :: ".openclaw/openclaw.json".toList) := by
  obtain ⟨v, htext, a, b, rfl, ⟨user, huser, rfl⟩, rfl⟩ :=
    (reads_slashUser.append (reads_chars openclawJsonRest)).of_test_quoted
      openclawJsonPattern_toList tokenize_openclawJsonTail (fun items => rfl) h
  exact ⟨user, huser, htext⟩

theorem tenantDir_of_test (h : testText (tenantDirPattern env) text = true) :
    ∃ user entry, isSafeUser user = true ∧
      (entry = ".openclaw".toList ∨ entry = (tenantWorkspaceDirname env).toList) ∧
      text.toList = (joinPosix [tenantHomeRoot env]).toList ++
        ('/' :: user.toList ++ '/' :: entry) := by
  let ws := (tenantWorkspaceDirname env).toList
  let dot := ".openclaw".toList
  have hreads := reads_slashUser.append
    ((reads_chars ['/']).append ((reads_chars dot).alt (reads_chars ws)))
  obtain ⟨v, htext, a, b, rfl, ⟨user, huser, rfl⟩, slash, entry, rfl, rfl, hentry⟩ :=
    hreads.of_test_quoted tenantDirPattern_toList (tokenize_tenantDirTail ws)
      (parse_tenantDir dot ws) h
  exact ⟨user, entry, huser, hentry, htext⟩

end Patterns

/-! ### The targets of accepted arguments -/

section Targets

variable {env : DaemonEnvironment} {cwd : List (List Char)} {args : List String}

theorem install_target (hdirname : Descends (tenantWorkspaceDirname env).toList)
    (h : validateInstall env args = none) :
    ∀ target ∈ args.getLast?, TenantPlace env cwd target := by
  have hroot : isSafeUser "root" = true := by
    decide +kernel
  have hopenclaw : Descends ".openclaw".toList := descends_of_segment (by decide)
  unfold validateInstall at h
  split at h
  case h_2 => cases h
  case h_1 d mFlag mode oFlag userA gFlag userB target =>
    intro path hpath
    obtain rfl : target = path := Option.some.inj hpath
    dsimp only at h
    split at h
    · cases h
    · split at h
      · cases h
      · split at h
        · cases h
        · rename_i howner
          have huser : isSafeUser userA = true := by
            by_cases hrootOwned : userA = "root" ∧ userB = "root"
            · rw [hrootOwned.1]
              exact hroot
            · exact (not_not.mp (not_and.mp howner hrootOwned)).1
          split at h
          · rename_i hshared
            rw [hshared.2]
            exact .environments
          · split at h
            · cases h
            · rename_i hlisted
              have hmem := not_not.mp hlisted
              rcases List.mem_cons.mp hmem with rfl | hmem
              · exact .home huser (below_joined (segment_safeUser huser) hopenclaw)
              · rw [List.mem_singleton.mp hmem]
                exact .home huser (below_joined (segment_safeUser huser) hdirname)

theorem cp_target (h : validateCp env args = none) :
    ∀ target ∈ args.getLast?, TenantPlace env cwd target := by
  unfold validateCp at h
  split at h
  case h_2 => cases h
  case h_1 flag source target =>
    intro path hpath
    obtain rfl : target = path := Option.some.inj hpath
    split at h
    · cases h
    · split at h
      · split at h
        · cases h
        · split at h
          · cases h
          · rename_i htest
            obtain ⟨user, huser, htext⟩ := openclawJson_of_test (Bool.of_not_eq_false htest)
            have hnames : ∀ s ∈ parts ".openclaw/openclaw.json".toList, Segment s := by
              decide
            exact .home huser
              (below_matched (segment_safeUser huser) (descends_of_segments hnames) htext)
      · split at h
        · split at h
          · cases h
          · split at h
            · cases h
            · rename_i htarget
              rw [not_not.mp htarget]
              exact .gatewayUnit
        · split at h
          · split at h
            · cases h
            · split at h
              · cases h
              · rename_i htest
                obtain ⟨user, huser, rfl⟩ := tenantEnv_of_test (Bool.of_not_eq_false htest)
                exact .environment huser
          · cases h

theorem chown_target (h : validateChown env args = none) :
    ∀ target ∈ args.getLast?, TenantPlace env cwd target := by
  unfold validateChown at h
  split at h
  case h_2 => cases h
  case h_1 rFlag owner target =>
    intro path hpath
    obtain rfl : target = path := Option.some.inj hpath
    dsimp only at h
    split at h
    · cases h
    · split at h
      · cases h
      · rename_i howner
        split at h
        · cases h
        · rename_i htarget
          have hsafe := Bool.of_not_eq_false (not_or.mp howner).1
          rw [not_not.mp htarget]
          exact .home hsafe (List.suffix_refl _)

theorem rm_target (hdirname : Descends (tenantWorkspaceDirname env).toList)
    (h : validateRm env args = none) : ∀ target ∈ args.getLast?, TenantPlace env cwd target := by
  unfold validateRm at h
  split at h
  case h_2 => cases h
  case h_1 flag target =>
    intro path hpath
    obtain rfl : target = path := Option.some.inj hpath
    split at h
    · split at h
      · cases h
      · rename_i htest
        obtain ⟨user, huser, rfl⟩ := tenantEnv_of_test (Bool.of_not_eq_false htest)
        exact .environment huser
    · split at h
      · split at h
        · cases h
        · rename_i htest
          obtain ⟨user, entry, huser, hentry, htext⟩ :=
            tenantDir_of_test (Bool.of_not_eq_false htest)
          have hdescends : Descends entry := by
            rcases hentry with hentry | hentry
            · rw [hentry]
              exact descends_of_segment (by decide)
            · rw [hentry]
              exact hdirname
          exact .home huser (below_matched (segment_safeUser huser) hdescends htext)
      · cases h

/-- An accepted command that writes to its last operand writes to a place of the tenants. -/
theorem operand_placed (hdirname : Descends (tenantWorkspaceDirname env).toList)
    {command : String} (h : validateCommand env command args = none)
    (hcmd : basename command ∈ ["install", "cp", "chown", "rm"]) :
    ∀ target ∈ args.getLast?, TenantPlace env cwd target := by
  have hne : command ≠ "" := by
    rintro rfl
    exact absurd hcmd (by decide)
  unfold validateCommand at h
  dsimp only at h
  rw [if_neg hne] at h
  unfold basename at hcmd
  generalize (splitText '/' command).getLast?.getD "" = cmd at h hcmd
  simp only [List.mem_cons, List.not_mem_nil, or_false] at hcmd
  rcases hcmd with rfl | rfl | rfl | rfl
  · exact install_target hdirname (by simpa using h)
  · exact cp_target (by simpa using h)
  · exact chown_target (by simpa using h)
  · exact rm_target hdirname (by simpa using h)

end Targets

/-! ### Programs -/

section Programs

variable {host : Host} {command program : String}

theorem basename_of_noSlash (h : '/' ∉ command.toList) : basename command = command := by
  unfold basename splitText
  rw [List.splitOn_eq_singleton h]
  simp

theorem basename_below (dir : String) (h : '/' ∉ command.toList) :
    basename (dir ++ "/" ++ command) = command := by
  have htext : (dir ++ "/" ++ command).toList = dir.toList ++ '/' :: command.toList := by
    rw [String.toList_append, String.toList_append, List.append_assoc]
    rfl
  unfold basename splitText
  rw [htext, List.splitOn_append_cons_self, List.splitOn_eq_singleton h]
  simp

/-- The search for a program keeps the name that the allowlist judges by. -/
theorem basename_program (h : host.program command = some program) :
    basename program = basename command := by
  unfold Host.program at h
  split at h
  · rw [Option.some.inj h]
  · rename_i hslash
    obtain ⟨dir, -, rfl⟩ := Option.map_eq_some_iff.mp h
    rw [basename_below dir hslash, basename_of_noSlash hslash]

theorem namesPlannerProgram_iff : NamesPlannerProgram host command ↔
    ∀ program, host.program command = some program → program ∈ plannerPrograms := by
  have habsolute : ∀ p ∈ plannerPrograms, '/' ∈ p.toList := by
    decide
  unfold NamesPlannerProgram Host.program
  constructor
  · rintro (hlisted | ⟨hslash, hdir⟩) program hprogram
    · rw [if_pos (habsolute _ hlisted)] at hprogram
      rw [← Option.some.inj hprogram]
      exact hlisted
    · rw [if_neg hslash] at hprogram
      obtain ⟨dir, hwhich, rfl⟩ := Option.map_eq_some_iff.mp hprogram
      exact hdir dir hwhich
  · intro hall
    by_cases hslash : '/' ∈ command.toList
    · exact .inl (hall command (if_pos hslash))
    · refine .inr ⟨hslash, ?_⟩
      intro dir hwhich
      apply hall
      rw [if_neg hslash, hwhich]
      rfl

end Programs

/-- An accepted command is confined to the plans' programs and the tenants' places exactly when
its string names such a program, and the home directory of an account that it makes or deletes is
such a place. -/
theorem accepted_command_sound (env : DaemonEnvironment) (host : Host)
    (hdirname : Descends (tenantWorkspaceDirname env).toList) (command : String)
    (args : List String) (h : validateCommand env command args = none) :
    Sound env host command args ↔
      NamesPlannerProgram host command ∧
        ∀ program, host.program command = some program → ∀ user ∈ accountNames program args,
          TenantPlace env host.cwd (host.accountHome user) := by
  rw [namesPlannerProgram_iff]
  constructor
  · intro hsound
    refine ⟨fun program hprogram => (hsound program hprogram).1, ?_⟩
    intro program hprogram user huser
    apply (hsound program hprogram).2
    exact List.mem_append_left _ (List.mem_map_of_mem huser)
  · rintro ⟨hlisted, haccounts⟩ program hprogram
    refine ⟨hlisted program hprogram, ?_⟩
    intro path hpath
    rcases List.mem_append.mp hpath with hpath | hpath
    · obtain ⟨user, huser, rfl⟩ := List.mem_map.mp hpath
      exact haccounts program hprogram user huser
    · split at hpath
      · rename_i hname
        rw [basename_program hprogram] at hname
        exact operand_placed hdirname h hname path (Option.mem_toList.mp hpath)
      · cases hpath

def sampleHost : Host :=
  { cwd := []
    which := fun _ => some "/usr/bin"
    accountHome := fun user => "/srv/tenant.homes/" ++ user }

/-- Deleting a tenant's account, whose home directory stands below the home root. -/
theorem accepted_command_sound_userdel :
    Sound sampleDaemonEnvironment sampleHost "/usr/sbin/userdel" ["-r", "oc-acme"] := by
  have hdirname : Descends (tenantWorkspaceDirname sampleDaemonEnvironment).toList :=
    descends_of_segment (by decide +kernel)
  have haccepted : validateCommand sampleDaemonEnvironment "/usr/sbin/userdel"
      ["-r", "oc-acme"] = none := by
    decide +kernel
  refine (accepted_command_sound sampleDaemonEnvironment sampleHost hdirname
    "/usr/sbin/userdel" ["-r", "oc-acme"] haccepted).mpr ⟨.inl (by decide), ?_⟩
  intro program hprogram user huser
  obtain rfl : "/usr/sbin/userdel" = program := Option.some.inj hprogram
  have hnames : accountNames "/usr/sbin/userdel" ["-r", "oc-acme"] = ["oc-acme"] := by
    decide
  rw [hnames, List.mem_singleton] at huser
  subst huser
  have hsafe : isSafeUser "oc-acme" = true := by
    decide +kernel
  have hbelow : Below sampleHost.cwd (userHome sampleDaemonEnvironment "oc-acme").toList
      (sampleHost.accountHome "oc-acme").toList := by
    decide +kernel
  exact .home hsafe hbelow

/-- A program of its own choice, named like a listed one, passes with arguments that are allowed
for the listed one. -/
theorem accepted_command_not_sound :
    validateCommand sampleDaemonEnvironment "/tmp/payload/rm"
        ["-f", "/etc/openclaw-tenants/oc-acme.env"] = none ∧
      ¬ Sound sampleDaemonEnvironment sampleHost "/tmp/payload/rm"
        ["-f", "/etc/openclaw-tenants/oc-acme.env"] := by
  refine ⟨by decide +kernel, ?_⟩
  intro hsound
  have hprogram : sampleHost.program "/tmp/payload/rm" = some "/tmp/payload/rm" := by
    decide
  have hlisted := (hsound "/tmp/payload/rm" hprogram).1
  exact absurd hlisted (by decide)

end MissionControl.Provisioning.Allowlist
