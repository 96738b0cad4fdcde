import MissionControl.Foundations.JsText
import MissionControl.Foundations.PosixPath
import MissionControl.Foundations.RegularExpression

/-!
What the dashboard plans for a tenant: the checks of a bootstrap request, the paths derived
from it, and the command lists of the bootstrap and of the decommission job.
-/

set_option autoImplicit false
set_option relaxedAutoImplicit false

namespace MissionControl.Provisioning.Plans

open MissionControl.Foundations.JsText
open MissionControl.Foundations.PosixPath (joinText stripSlashes join)
open MissionControl.Foundations.RegularExpression (testText)

/-- The environment variables, the working directory and the settings of the dashboard. -/
structure Environment where
  tenantHomeRoot : Option String
  tenantWorkspaceDirname : Option String
  superTemplateOpenclawJson : Option String
  openclawHome : Option String
  repoRoot : Option String
  cwd : String
  /-- `appConfig.dataDir`. -/
  dataDir : String
  defaultOwnerGateway : Option String
  defaultGatewayName : Option String
  provisionExec : Option String
  provisionMode : Option String
  hostname : Option String
  deriving DecidableEq

/-- `String(value || fallback).trim() || fallback`. -/
def trimmedOr (value : Option String) (fallback : String) : String :=
  orElse (trim ((truthy value).getD fallback)) fallback

def getTenantHomeRoot (env : Environment) : String := trimmedOr env.tenantHomeRoot "/home"

def getTenantWorkspaceDirname (env : Environment) : String :=
  trimmedOr env.tenantWorkspaceDirname "workspace"

def joinPosix (paths : List String) : String :=
  String.ofList (join (paths.map fun p => stripSlashes p.toList))

def normalizeSlug (input : String) : String := toLowerCase (trim input)

def isValidSlug (slug : String) : Bool := testText "^[a-z0-9][a-z0-9-]\x7b1,30\x7d[a-z0-9]$" slug

/-- The check of the linux user in `createTenantAndBootstrapJob`. -/
def isValidLinuxUser (user : String) : Bool := testText "^[a-z_][a-z0-9_-]\x7b1,30\x7d$" user

/-- A port as it stands in the body of a request. -/
inductive PortValue where
  | absent
  | integer (n : Int)
  | other
  deriving DecidableEq

def ensurePort : PortValue → Except String (Option Nat)
  | .absent => .ok none
  | .integer n =>
    if n < 1024 ∨ n > 65535 then .error "Port must be an integer between 1024 and 65535"
    else .ok (some n.toNat)
  | .other => .error "Port must be an integer between 1024 and 65535"

def normalizeOwnerGateway (env : Environment) (value : Option String) : Except String String :=
  let raw := trim (value.getD "")
  let fallback := orElse (trim ((truthy env.defaultOwnerGateway).getD
    ((truthy env.defaultGatewayName).getD "primary"))) "primary"
  if raw = "" then .ok fallback
  else if utf16Length raw > 120 then .error "owner_gateway is too long"
  else .ok raw

structure ProvisionStep where
  key : String
  title : String
  command : List String
  requiresRoot : Bool
  timeoutMs : Option Nat
  deriving DecidableEq

/-- The fields of a tenant that the plans are built from. -/
structure TenantPaths where
  slug : String
  linuxUser : String
  openclawHome : String
  workspaceRoot : String
  deriving DecidableEq

def getProvisionArtifactDir (env : Environment) (slug : String) : String :=
  joinText [env.dataDir, "provisioner", slug]

/-- A step that runs as root, as all planned steps do. -/
def rootStep (key title : String) (command : List String) (timeoutMs : Nat) : ProvisionStep :=
  ⟨key, title, command, true, some timeoutMs⟩

def buildBootstrapPlan (env : Environment) (tenant : TenantPaths)
    (templateOpenclawJsonPath gatewaySystemdTemplatePath : String) : List ProvisionStep :=
  let artifactDir := getProvisionArtifactDir env tenant.slug
  let homeDir := joinPosix [getTenantHomeRoot env, tenant.linuxUser]
  let user := tenant.linuxUser
  [ rootStep "create-linux-user" s!"Create linux user {user}"
      ["/usr/sbin/useradd", "-m", "-s", "/bin/bash", user] 10000,
    rootStep "create-openclaw-state" ("Create OpenClaw state directory " ++ tenant.openclawHome)
      ["/usr/bin/install", "-d", "-m", "0750", "-o", user, "-g", user, tenant.openclawHome] 10000,
    rootStep "create-workspace-root" ("Create workspace root " ++ tenant.workspaceRoot)
      ["/usr/bin/install", "-d", "-m", "0750", "-o", user, "-g", user, tenant.workspaceRoot] 10000,
    rootStep "seed-openclaw-template" "Seed base OpenClaw config scaffold"
      ["/usr/bin/cp", "-n", templateOpenclawJsonPath, tenant.openclawHome ++ "/openclaw.json"] 12000,
    rootStep "set-owner-home" ("Ensure ownership of " ++ homeDir)
      ["/usr/bin/chown", "-R", user ++ ":" ++ user, homeDir] 20000,
    rootStep "ensure-openclaw-tenants-dir" "Ensure /etc/openclaw-tenants exists"
      ["/usr/bin/install", "-d", "-m", "0750", "-o", "root", "-g", "root", "/etc/openclaw-tenants"]
      5000,
    rootStep "install-gateway-systemd-template" "Install openclaw-gateway@.service template"
      ["/usr/bin/cp", "-n", gatewaySystemdTemplatePath,
        "/etc/systemd/system/openclaw-gateway@.service"] 5000,
    rootStep "install-tenant-gateway-env" "Install tenant gateway env file"
      ["/usr/bin/cp", "-f", artifactDir ++ "/openclaw-gateway.env",
        "/etc/openclaw-tenants/" ++ user ++ ".env"] 5000,
    rootStep "systemd-daemon-reload" "Reload systemd units"
      ["/usr/bin/systemctl", "daemon-reload"] 10000,
    rootStep "enable-start-gateway" s!"Enable/start openclaw-gateway@{user}.service"
      ["/usr/bin/systemctl", "enable", "--now", "openclaw-gateway@" ++ user ++ ".service"] 5000 ]

/-- The options of a decommission request. -/
structure DecommissionOptions where
  removeLinuxUser : Bool
  removeStateDirs : Bool
  deriving DecidableEq

def buildDecommissionPlan (tenant : TenantPaths) (options : DecommissionOptions) :
    List ProvisionStep :=
  let user := tenant.linuxUser
  let envFile := "/etc/openclaw-tenants/" ++ user ++ ".env"
  [ rootStep "disable-stop-gateway" s!"Disable/stop openclaw-gateway@{user}.service"
      ["/usr/bin/systemctl", "disable", "--now", "openclaw-gateway@" ++ user ++ ".service"] 10000,
    rootStep "remove-tenant-gateway-env" ("Remove " ++ envFile)
      ["/usr/bin/rm", "-f", envFile] 5000 ] ++
  (if options.removeStateDirs ∧ ¬ options.removeLinuxUser then
    [ rootStep "remove-openclaw-state-dir" ("Remove " ++ tenant.openclawHome)
        ["/usr/bin/rm", "-rf", tenant.openclawHome] 10000,
      rootStep "remove-workspace-dir" ("Remove " ++ tenant.workspaceRoot)
        ["/usr/bin/rm", "-rf", tenant.workspaceRoot] 10000 ]
  else []) ++
  (if options.removeLinuxUser then
    [ rootStep "remove-linux-user" s!"Remove linux user {user}"
        ["/usr/sbin/userdel", "-r", user] 15000 ]
  else [])

structure TenantBootstrapRequest where
  slug : String
  displayName : String
  linuxUser : Option String
  gatewayPort : PortValue
  dashboardPort : PortValue
  dryRun : Option Bool
  ownerGateway : Option String
  deriving DecidableEq

/-- What `createTenantAndBootstrapJob` has computed when it starts its transaction. -/
structure BootstrapDraft where
  tenant : TenantPaths
  displayName : String
  gatewayPort : Nat
  dashboardPort : Option Nat
  dryRun : Bool
  ownerGateway : String
  templateOpenclawJsonPath : String
  gatewaySystemdTemplatePath : String
  deriving DecidableEq

def templateOpenclawJsonPath (env : Environment) : String :=
  trim ((truthy env.superTemplateOpenclawJson).getD
    (((truthy env.openclawHome).map fun home => joinText [home, "openclaw.json"]).getD ""))

def repoRoot (env : Environment) : String :=
  orElse (trim ((truthy env.repoRoot).getD env.cwd)) env.cwd

/-- The part of `createTenantAndBootstrapJob` before its transaction. -/
def validateBootstrap (env : Environment) (request : TenantBootstrapRequest) :
    Except String BootstrapDraft :=
  let template := templateOpenclawJsonPath env
  if template = "" then
    .error "Missing OpenClaw template config. Set MC_SUPER_TEMPLATE_OPENCLAW_JSON to an openclaw.json to seed new tenants."
  else
    let gatewayTemplate :=
      joinText [repoRoot env, "ops", "templates", "openclaw-gateway@.service"]
    let slug := normalizeSlug request.slug
    if isValidSlug slug = false then
      .error "Invalid slug. Use lowercase letters, numbers, and dashes (3-32 chars)."
    else
      let displayName := trim request.displayName
      if displayName = "" then .error "display_name is required"
      else
        let linuxUser := toLowerCase (trim ((truthy request.linuxUser).getD ("oc-" ++ slug)))
        if isValidLinuxUser linuxUser = false then .error "Invalid linux_user format"
        else
          match ensurePort request.gatewayPort, ensurePort request.dashboardPort,
            normalizeOwnerGateway env request.ownerGateway with
          | .error e, _, _ => .error e
          | .ok _, .error e, _ => .error e
          | .ok _, .ok _, .error e => .error e
          | .ok none, .ok _, .ok _ => .error "gateway_port is required for tenant bootstrap"
          | .ok (some gatewayPort), .ok dashboardPort, .ok ownerGateway =>
            let home := getTenantHomeRoot env
            .ok
              { tenant :=
                  { slug := slug
                    linuxUser := linuxUser
                    openclawHome := joinPosix [home, linuxUser, ".openclaw"]
                    workspaceRoot := joinPosix [home, linuxUser, getTenantWorkspaceDirname env] }
                displayName := displayName
                gatewayPort := gatewayPort
                dashboardPort := dashboardPort
                dryRun := request.dryRun ≠ some false
                ownerGateway := ownerGateway
                templateOpenclawJsonPath := template
                gatewaySystemdTemplatePath := gatewayTemplate }

/-- The plan that is stored with the bootstrap job of a draft. -/
def BootstrapDraft.plan (env : Environment) (draft : BootstrapDraft) : List ProvisionStep :=
  buildBootstrapPlan env draft.tenant draft.templateOpenclawJsonPath
    draft.gatewaySystemdTemplatePath

/-- What a draft is made of once all checks have passed. -/
structure Validated (env : Environment) (draft : BootstrapDraft) : Prop where
  slug : isValidSlug draft.tenant.slug = true
  linuxUser : isValidLinuxUser draft.tenant.linuxUser = true
  openclawHome : draft.tenant.openclawHome =
    joinPosix [getTenantHomeRoot env, draft.tenant.linuxUser, ".openclaw"]
  workspaceRoot : draft.tenant.workspaceRoot =
    joinPosix [getTenantHomeRoot env, draft.tenant.linuxUser, getTenantWorkspaceDirname env]
  template : draft.templateOpenclawJsonPath = templateOpenclawJsonPath env
  templateSet : draft.templateOpenclawJsonPath ≠ ""
  gatewayTemplate : draft.gatewaySystemdTemplatePath =
    joinText [repoRoot env, "ops", "templates", "openclaw-gateway@.service"]

theorem validateBootstrap_validated {env : Environment} {request : TenantBootstrapRequest}
    {draft : BootstrapDraft} (h : validateBootstrap env request = .ok draft) :
    Validated env draft := by
  unfold validateBootstrap at h
  dsimp only at h
  split at h
  · cases h
  · rename_i htemplate
    split at h
    · cases h
    · rename_i hslug
      split at h
      · cases h
      · split at h
        · cases h
        · rename_i huser
          split at h
          · cases h
          · cases h
          · cases h
          · cases h
          · obtain rfl := Except.ok.inj h
            exact ⟨by simpa using hslug, by simpa using huser, rfl, rfl, rfl, htemplate, rfl⟩

def sampleEnvironment : Environment :=
  { tenantHomeRoot := some "/srv/tenant.homes"
    tenantWorkspaceDirname := some "work (1)"
    superTemplateOpenclawJson := some "/etc/mission-control/openclaw.json"
    openclawHome := none
    repoRoot := some "/opt/mission-control"
    cwd := "/opt/mission-control"
    dataDir := "/var/lib/mission-control"
    defaultOwnerGateway := none
    defaultGatewayName := none
    provisionExec := some "true"
    provisionMode := none
    hostname := some "host" }

def sampleBootstrapRequest : TenantBootstrapRequest :=
  ⟨" Acme-1 ", "Acme", none, .integer 18789, .absent, none, none⟩

end MissionControl.Provisioning.Plans
