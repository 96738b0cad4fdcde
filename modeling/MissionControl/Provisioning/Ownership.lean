import MissionControl.Provisioning.Allowlist

/-!
What the command of a step names, and whose it is: the account, the directories, the environment
file and the service of a tenant, or a file that the plans of all tenants share. The plans that
the dashboard builds for a tenant name nothing else.
-/

set_option autoImplicit false
set_option relaxedAutoImplicit false

namespace MissionControl.Provisioning.Ownership

open MissionControl.Foundations.JsText
open MissionControl.Foundations.PosixPath
open Plans Daemon PlanAcceptance Allowlist

/-- How `runProvisionStep` starts the command of a live step. -/
inductive Launch where
  | daemon (command : List String)
  | sudo (command : List String)
  | direct (command : List String)
  deriving DecidableEq

def Launch.command : Launch → List String
  | .daemon command => command
  | .sudo command => command
  | .direct command => command

/-- What `runProvisionStep(step, false)` starts, unless it throws before. -/
def launch (env : Environment) (step : ProvisionStep) : Option Launch :=
  let provisionMode := toLowerCase ((truthy env.provisionMode).getD "daemon")
  if step.command.head?.getD "" = "" then none
  else if step.requiresRoot ∧ provisionMode = "daemon" then some (.daemon step.command)
  else if step.requiresRoot then some (.sudo step.command)
  else some (.direct step.command)

inductive Resource where
  | user (name : String)
  | path (path : String)
  | service (unit : String)
  deriving DecidableEq

/-- What a command line names, read by the usage of the programs of the plans. The superuser that
owns a shared directory is nobody's account. Of any other command line nothing is known. -/
def named : List String → Option (List Resource)
  | ["/usr/sbin/useradd", "-m", "-s", shell, user] => some [.path shell, .user user]
  | ["/usr/sbin/userdel", "-r", user] => some [.user user]
  | ["/usr/bin/install", "-d", "-m", _, "-o", owner, "-g", group, target] =>
    some (([owner, group].filter (· ≠ "root")).map .user ++ [.path target])
  | ["/usr/bin/cp", "-n", source, target] => some [.path source, .path target]
  | ["/usr/bin/cp", "-f", source, target] => some [.path source, .path target]
  | ["/usr/bin/chown", "-R", owner, target] =>
    some ((splitText ':' owner).map .user ++ [.path target])
  | ["/usr/bin/rm", "-f", target] => some [.path target]
  | ["/usr/bin/rm", "-rf", target] => some [.path target]
  | ["/usr/bin/systemctl", "daemon-reload"] => some []
  | ["/usr/bin/systemctl", "enable", "--now", unit] => some [.service unit]
  | ["/usr/bin/systemctl", "disable", "--now", unit] => some [.service unit]
  | ["/usr/bin/true"] => some []
  | _ => none

section Owners

variable (env : Environment) (cwd : List (List Char))

def homeDir (tenant : TenantPaths) : String :=
  joinPosix [getTenantHomeRoot env, tenant.linuxUser]

def tenantEnvFile (tenant : TenantPaths) : String :=
  "/etc/openclaw-tenants/" ++ tenant.linuxUser ++ ".env"

def artifactEnvFile (tenant : TenantPaths) : String :=
  getProvisionArtifactDir env tenant.slug ++ "/openclaw-gateway.env"

def gatewayService (tenant : TenantPaths) : String :=
  "openclaw-gateway@" ++ tenant.linuxUser ++ ".service"

/-- The fixed files that the plans of every tenant name. -/
def sharedFiles : List String :=
  [templateOpenclawJsonPath env,
    joinText [repoRoot env, "ops", "templates", "openclaw-gateway@.service"],
    "/etc/systemd/system/openclaw-gateway@.service", "/etc/openclaw-tenants", "/bin/bash"]

/-- The resource is the tenant's own, by its row, or one of the shared files. -/
inductive Own (tenant : TenantPaths) : Resource → Prop
  | user : Own tenant (.user tenant.linuxUser)
  | home {path : String} (below : Below cwd (homeDir env tenant).toList path.toList) :
      Own tenant (.path path)
  | state {path : String} (below : Below cwd tenant.openclawHome.toList path.toList) :
      Own tenant (.path path)
  | workspace {path : String} (below : Below cwd tenant.workspaceRoot.toList path.toList) :
      Own tenant (.path path)
  | environment : Own tenant (.path (tenantEnvFile tenant))
  | artifact : Own tenant (.path (artifactEnvFile env tenant))
  | service : Own tenant (.service (gatewayService tenant))
  | shared {path : String} (listed : path ∈ sharedFiles env) : Own tenant (.path path)

instance decidableOwn (tenant : TenantPaths) : DecidablePred (Own env cwd tenant)
  | .user name => decidable_of_iff (name = tenant.linuxUser)
      ⟨fun h => h ▸ .user, fun h => by cases h; rfl⟩
  | .path path => decidable_of_iff
      (Below cwd (homeDir env tenant).toList path.toList ∨
        Below cwd tenant.openclawHome.toList path.toList ∨
        Below cwd tenant.workspaceRoot.toList path.toList ∨ path = tenantEnvFile tenant ∨
        path = artifactEnvFile env tenant ∨ path ∈ sharedFiles env) <| by
      constructor
      · rintro (h | h | h | rfl | rfl | h)
        · exact .home h
        · exact .state h
        · exact .workspace h
        · exact .environment
        · exact .artifact
        · exact .shared h
      · intro h
        cases h with
        | home below => exact .inl below
        | state below => exact .inr (.inl below)
        | workspace below => exact .inr (.inr (.inl below))
        | environment => exact .inr (.inr (.inr (.inl rfl)))
        | artifact => exact .inr (.inr (.inr (.inr (.inl rfl))))
        | shared listed => exact .inr (.inr (.inr (.inr (.inr listed))))
  | .service unit => decidable_of_iff (unit = gatewayService tenant)
      ⟨fun h => h ▸ .service, fun h => by cases h; rfl⟩

/-- The resource belongs to the tenant `other`. The shared files and the artifact of `tenant` count
for nobody else, wherever the environment puts them. -/
inductive Foreign (tenant other : TenantPaths) : Resource → Prop
  | user : Foreign tenant other (.user other.linuxUser)
  | home {path : String} (below : Below cwd (homeDir env other).toList path.toList)
      (loose : path ∉ artifactEnvFile env tenant :: sharedFiles env) :
      Foreign tenant other (.path path)
  | environment (loose : tenantEnvFile other ∉ artifactEnvFile env tenant :: sharedFiles env) :
      Foreign tenant other (.path (tenantEnvFile other))
  | service : Foreign tenant other (.service (gatewayService other))

/-- The environment keeps homes apart: the home root is neither `/` nor `/etc`, and a workspace
stands in the home directory of its tenant. -/
structure HomesApart : Prop where
  root : resolve cwd (joinPosix [getTenantHomeRoot env]).toList ∉ [[], ["etc".toList]]
  dirname : Descends (getTenantWorkspaceDirname env).toList

/-- Whatever is started for the step names resources of the tenant only. -/
def Confined (tenant : TenantPaths) (step : ProvisionStep) : Prop :=
  ∀ started ∈ launch env step, ∃ names ∈ named started.command, ∀ r ∈ names, Own env cwd tenant r

instance (tenant : TenantPaths) (step : ProvisionStep) : Decidable (Confined env cwd tenant step) :=
  inferInstanceAs (Decidable (∀ started ∈ launch env step, ∃ names ∈ named started.command,
    ∀ r ∈ names, Own env cwd tenant r))

/-- The columns of a tenant row that `createTenantAndBootstrapJob` has written. -/
def Drafted (tenant : TenantPaths) : Prop :=
  ∃ draft, Validated env draft ∧ draft.tenant = tenant

end Owners

section Plans

variable {env : Environment} {cwd : List (List Char)} {tenant : TenantPaths}

theorem launch_command {step : ProvisionStep} {started : Launch}
    (h : launch env step = some started) : started.command = step.command := by
  unfold launch at h
  dsimp only at h
  split at h
  · cases h
  · split at h
    · rw [← Option.some.inj h]
      rfl
    · split at h
      · rw [← Option.some.inj h]
        rfl
      · rw [← Option.some.inj h]
        rfl

theorem confined_of_named {step : ProvisionStep} {names : List Resource}
    (h : named step.command = some names) (hnames : ∀ r ∈ names, Own env cwd tenant r) :
    Confined env cwd tenant step := by
  intro started hlaunch
  refine ⟨names, ?_, hnames⟩
  rw [launch_command hlaunch]
  exact h

/-! ### The directories of a tenant -/

theorem Drafted.segment (h : Drafted env tenant) : Segment tenant.linuxUser.toList := by
  obtain ⟨draft, valid, rfl⟩ := h
  exact segment_user valid.linuxUser

theorem Drafted.state_below_home (h : Drafted env tenant) :
    Below cwd (homeDir env tenant).toList tenant.openclawHome.toList := by
  have hsegment := h.segment
  obtain ⟨draft, valid, rfl⟩ := h
  rw [valid.openclawHome]
  exact below_joined hsegment (descends_of_segment (by decide))

theorem Drafted.workspace_below_home (h : Drafted env tenant)
    (hdirname : Descends (getTenantWorkspaceDirname env).toList) :
    Below cwd (homeDir env tenant).toList tenant.workspaceRoot.toList := by
  have hsegment := h.segment
  obtain ⟨draft, valid, rfl⟩ := h
  rw [valid.workspaceRoot]
  exact below_joined hsegment hdirname

theorem own_state : Own env cwd tenant (.path tenant.openclawHome) :=
  .state (List.suffix_refl _)

theorem own_workspace : Own env cwd tenant (.path tenant.workspaceRoot) :=
  .workspace (List.suffix_refl _)

theorem Drafted.own_openclawJson (h : Drafted env tenant) :
    Own env cwd tenant (.path (tenant.openclawHome ++ "/openclaw.json")) := by
  have hset : tenant.openclawHome.toList ≠ [] := by
    obtain ⟨draft, valid, rfl⟩ := h
    rw [valid.openclawHome]
    exact joinPosix_ne_nil _
  have htext : (tenant.openclawHome ++ "/openclaw.json").toList =
      tenant.openclawHome.toList ++ '/' :: "openclaw.json".toList := by
    rw [String.toList_append]
    rfl
  have hentry : Descends "openclaw.json".toList := descends_of_segment (by decide)
  refine .state ?_
  unfold Below
  rw [htext, resolve_append_slash hset]
  exact hentry _

/-! ### The plans -/

/-- Directories that are made for the account of a tenant. -/
private theorem confined_install {key title : String} {timeoutMs : Nat} {dir : String}
    (hdir : Own env cwd tenant (.path dir)) :
    Confined env cwd tenant (rootStep key title ["/usr/bin/install", "-d", "-m", "0750", "-o",
      tenant.linuxUser, "-g", tenant.linuxUser, dir] timeoutMs) := by
  refine confined_of_named rfl ?_
  intro r hr
  rcases List.mem_append.mp hr with hr | hr
  · obtain ⟨name, hname, rfl⟩ := List.mem_map.mp hr
    have hmem := List.mem_of_mem_filter hname
    simp only [List.mem_cons, List.not_mem_nil, or_false, or_self] at hmem
    rw [hmem]
    exact .user
  · rw [List.mem_singleton.mp hr]
    exact hdir

private theorem confined_two {step : ProvisionStep} {a b : Resource}
    (h : named step.command = some [a, b]) (ha : Own env cwd tenant a)
    (hb : Own env cwd tenant b) : Confined env cwd tenant step := by
  refine confined_of_named h ?_
  intro r hr
  rcases List.mem_cons.mp hr with rfl | hr
  · exact ha
  · rw [List.mem_singleton.mp hr]
    exact hb

private theorem confined_one {step : ProvisionStep} {a : Resource}
    (h : named step.command = some [a]) (ha : Own env cwd tenant a) :
    Confined env cwd tenant step := by
  refine confined_of_named h ?_
  intro r hr
  rw [List.mem_singleton.mp hr]
  exact ha

theorem bootstrap_confined {draft : BootstrapDraft} (valid : Validated env draft) :
    ∀ step ∈ draft.plan env, Confined env cwd draft.tenant step := by
  have hdrafted : Drafted env draft.tenant := ⟨draft, valid, rfl⟩
  intro step hstep
  unfold BootstrapDraft.plan buildBootstrapPlan at hstep
  simp only [List.mem_cons, List.not_mem_nil, or_false] at hstep
  rcases hstep with rfl | rfl | rfl | rfl | rfl | rfl | rfl | rfl | rfl | rfl
  · exact confined_two rfl (.shared (by simp [sharedFiles])) .user
  · exact confined_install own_state
  · exact confined_install own_workspace
  · refine confined_two rfl (.shared ?_) hdrafted.own_openclawJson
    rw [valid.template]
    exact List.mem_cons_self
  · refine confined_of_named rfl ?_
    rw [splitText_owner valid.linuxUser]
    intro r hr
    simp only [List.map_cons, List.map_nil, List.cons_append, List.nil_append, List.mem_cons,
      List.not_mem_nil, or_false] at hr
    rcases hr with rfl | rfl | rfl
    · exact .user
    · exact .user
    · exact .home (List.suffix_refl _)
  · refine confined_one (a := .path "/etc/openclaw-tenants") rfl (.shared ?_)
    simp [sharedFiles]
  · refine confined_two rfl (.shared ?_) (.shared (by simp [sharedFiles]))
    rw [valid.gatewayTemplate]
    exact List.mem_cons_of_mem _ List.mem_cons_self
  · exact confined_two rfl .artifact .environment
  · have hnothing : named ["/usr/bin/systemctl", "daemon-reload"] = some [] := rfl
    exact confined_of_named hnothing (fun r hr => by cases hr)
  · exact confined_one rfl .service

theorem decommission_confined (options : DecommissionOptions) :
    ∀ step ∈ buildDecommissionPlan tenant options, Confined env cwd tenant step := by
  intro step hstep
  unfold buildDecommissionPlan at hstep
  dsimp only at hstep
  rcases List.mem_append.mp hstep with hstep | hstep
  · rcases List.mem_append.mp hstep with hstep | hstep
    · simp only [List.mem_cons, List.not_mem_nil, or_false] at hstep
      rcases hstep with rfl | rfl
      · exact confined_one rfl .service
      · exact confined_one rfl .environment
    · split at hstep
      · simp only [List.mem_cons, List.not_mem_nil, or_false] at hstep
        rcases hstep with rfl | rfl
        · exact confined_one rfl own_state
        · exact confined_one rfl own_workspace
      · cases hstep
  · split at hstep
    · rw [List.mem_singleton] at hstep
      subst hstep
      exact confined_one rfl .user
    · cases hstep

/-! ### Other tenants -/

theorem tenantEnvFile_injective {other : TenantPaths}
    (h : tenantEnvFile tenant = tenantEnvFile other) : tenant.linuxUser = other.linuxUser := by
  have htext := congrArg String.toList h
  unfold tenantEnvFile at htext
  simp only [String.toList_append] at htext
  exact String.toList_injective (List.append_cancel_left (List.append_cancel_right htext))

theorem gatewayService_injective {other : TenantPaths}
    (h : gatewayService tenant = gatewayService other) : tenant.linuxUser = other.linuxUser := by
  have htext := congrArg String.toList h
  unfold gatewayService at htext
  simp only [String.toList_append] at htext
  exact String.toList_injective (List.append_cancel_left (List.append_cancel_right htext))

theorem Drafted.noDot (h : Drafted env tenant) : '.' ∉ tenant.linuxUser.toList := by
  obtain ⟨draft, valid, rfl⟩ := h
  obtain ⟨c, w, hsplit, hc, hw, -, -⟩ := user_of_valid valid.linuxUser
  rw [hsplit]
  intro hmem
  rcases List.mem_cons.mp hmem with rfl | hmem
  · exact absurd hc (by decide)
  · exact absurd (hw _ hmem) (by decide)

theorem Drafted.resolve_envFile (h : Drafted env tenant) :
    resolve cwd (tenantEnvFile tenant).toList =
      [tenant.linuxUser.toList ++ ".env".toList, "openclaw-tenants".toList, "etc".toList] := by
  have huser := h.segment
  have hsegment : Segment (tenant.linuxUser.toList ++ ".env".toList) := by
    refine ⟨by simp, ?_, ?_, ?_⟩
    · intro hmem
      rcases List.mem_append.mp hmem with hmem | hmem
      · exact huser.noSlash hmem
      · exact absurd hmem (by decide)
    · intro heq
      have hlength := congrArg List.length heq
      simp at hlength
    · intro heq
      have hlength := congrArg List.length heq
      simp at hlength
  have htext : (tenantEnvFile tenant).toList =
      "/etc/openclaw-tenants".toList ++ '/' :: (tenant.linuxUser.toList ++ ".env".toList) := by
    unfold tenantEnvFile
    rw [String.toList_append, String.toList_append, List.append_assoc]
    rfl
  rw [htext, resolve_append_slash (by decide), parts_of_segment hsegment, List.foldl_cons,
    List.foldl_nil, pushSegment_segment hsegment]
  rfl

/-- An environment file stands in no home directory. -/
theorem HomesApart.envFile (hapart : HomesApart env cwd) {other : TenantPaths}
    (h : Drafted env tenant) (h' : Drafted env other) :
    ¬ Below cwd (homeDir env tenant).toList (tenantEnvFile other).toList := by
  have hroot := hapart.root
  simp only [List.mem_cons, List.not_mem_nil, or_false, not_or] at hroot
  unfold Below homeDir
  rw [resolve_joinPosix _ h.segment, h'.resolve_envFile, List.flatMap_nil, List.foldl_nil]
  intro hsuffix
  rcases List.suffix_cons_iff.mp hsuffix with heq | hsuffix
  · apply h.noDot
    rw [(List.cons.inj heq).1]
    exact List.mem_append_right _ (by decide)
  · rcases List.suffix_cons_iff.mp hsuffix with heq | hsuffix
    · exact hroot.2 (List.cons.inj heq).2
    · rcases List.suffix_cons_iff.mp hsuffix with heq | hsuffix
      · exact hroot.1 (List.cons.inj heq).2
      · cases List.suffix_nil.mp hsuffix

/-- What a tenant owns belongs to no tenant with another linux user. -/
theorem Own.not_foreign {other : TenantPaths} {r : Resource} (h : Own env cwd tenant r)
    (hapart : HomesApart env cwd) (hdrafted : Drafted env tenant) (hdrafted' : Drafted env other)
    (hne : tenant.linuxUser ≠ other.linuxUser) : ¬ Foreign env cwd tenant other r := by
  have hhome : ∀ {path : String}, Own env cwd tenant (.path path) →
      path ∉ artifactEnvFile env tenant :: sharedFiles env → path = tenantEnvFile tenant ∨
        Below cwd (homeDir env tenant).toList path.toList := by
    intro path hown hloose
    cases hown with
    | home below => exact .inr below
    | state below => exact .inr (hdrafted.state_below_home.trans below)
    | workspace below => exact .inr ((hdrafted.workspace_below_home hapart.dirname).trans below)
    | environment => exact .inl rfl
    | artifact => exact absurd List.mem_cons_self hloose
    | shared listed => exact absurd (List.mem_cons_of_mem _ listed) hloose
  intro hforeign
  cases hforeign with
  | user =>
    generalize hr : Resource.user other.linuxUser = r at h
    cases h with
    | user => exact hne (Resource.user.inj hr).symm
    | _ => cases hr
  | service =>
    generalize hr : Resource.service (gatewayService other) = r at h
    cases h with
    | service => exact hne (gatewayService_injective (Resource.service.inj hr).symm)
    | _ => cases hr
  | home below loose =>
    rcases hhome h loose with rfl | hbelow
    · exact hapart.envFile hdrafted' hdrafted below
    · exact hne (user_of_below hdrafted.segment hdrafted'.segment hbelow below)
  | environment loose =>
    rcases hhome h loose with heq | hbelow
    · exact hne (tenantEnvFile_injective heq.symm)
    · exact hapart.envFile hdrafted hdrafted' hbelow

end Plans

end MissionControl.Provisioning.Ownership
