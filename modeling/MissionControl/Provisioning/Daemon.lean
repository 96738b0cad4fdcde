import MissionControl.Provisioning.Plans

/-!
The root daemon that runs provisioning commands: its constants, computed from its own
environment, and the allowlist `validateCommand`. An answer of `none` accepts the command.
-/

set_option autoImplicit false
set_option relaxedAutoImplicit false

namespace MissionControl.Provisioning.Daemon

open MissionControl.Foundations.JsText
open MissionControl.Foundations.PosixPath (joinText)
open MissionControl.Foundations.RegularExpression (testText escape)
open Plans (trimmedOr joinPosix)

/-- The environment variables of the daemon and the directory above its script. -/
structure DaemonEnvironment where
  repoRoot : Option String
  scriptParent : String
  dataDir : Option String
  tenantHomeRoot : Option String
  tenantWorkspaceDirname : Option String
  superTemplateOpenclawJson : Option String
  openclawHome : Option String
  deriving DecidableEq

section Constants

variable (env : DaemonEnvironment)

def repoRoot : String := (truthy env.repoRoot).getD env.scriptParent

def dataDir : String := (truthy env.dataDir).getD (joinText [repoRoot env, ".data"])

def tenantHomeRoot : String := trimmedOr env.tenantHomeRoot "/home"

def tenantWorkspaceDirname : String := trimmedOr env.tenantWorkspaceDirname "workspace"

def templateOpenclawJson : String :=
  (truthy env.superTemplateOpenclawJson).getD
    (((truthy env.openclawHome).map fun home => joinText [home, "openclaw.json"]).getD "")

def gatewaySystemdTemplate : String :=
  joinText [repoRoot env, "ops", "templates", "openclaw-gateway@.service"]

end Constants

def escapeRegExp (str : String) : String := String.ofList (escape str.toList)

def isSafeUser (user : String) : Bool := testText "^[a-z_][a-z0-9_-]\x7b1,30\x7d$" user

/-- `text.split(separator)` for a separator of one character. -/
def splitText (separator : Char) (text : String) : List String :=
  (text.toList.splitOn separator).map String.ofList

/-- The pattern of the config file of a tenant. -/
def openclawJsonPattern (env : DaemonEnvironment) : String :=
  "^" ++ escapeRegExp (joinPosix [tenantHomeRoot env]) ++
    "\\/([a-z_][a-z0-9_-]\x7b1,30\x7d)\\/\\.openclaw\\/openclaw\\.json$"

/-- The pattern of the gateway environment file among the artifacts. -/
def provisionerEnvPattern (env : DaemonEnvironment) : String :=
  "^" ++ escapeRegExp (joinText [dataDir env, "provisioner"]) ++
    "\\/([a-z0-9-]\x7b3,32\x7d)\\/openclaw-gateway\\.env$"

/-- The pattern of the gateway environment file of a tenant. -/
def tenantEnvPattern : String := "^\\/etc\\/openclaw-tenants\\/[a-z_][a-z0-9_-]\x7b1,30\x7d\\.env$"

/-- The pattern of the directories of a tenant that may be removed. -/
def tenantDirPattern (env : DaemonEnvironment) : String :=
  "^" ++ escapeRegExp (joinPosix [tenantHomeRoot env]) ++
    "\\/([a-z_][a-z0-9_-]\x7b1,30\x7d)\\/(\\.openclaw|" ++
    escapeRegExp (tenantWorkspaceDirname env) ++ ")$"

def gatewayServicePattern : String := "^openclaw-gateway@[a-z_][a-z0-9_-]\x7b1,30\x7d\\.service$"

def validateUseradd : List String → Option String
  | [a, b, shell, user] =>
    if a ≠ "-m" ∨ b ≠ "-s" ∨ shell ≠ "/bin/bash" then some "useradd args not allowed"
    else if isSafeUser user = false then some "Invalid username"
    else none
  | _ => some "useradd argument mismatch"

def validateInstall (env : DaemonEnvironment) : List String → Option String
  | [d, mFlag, mode, oFlag, userA, gFlag, userB, target] =>
    if d ≠ "-d" ∨ mFlag ≠ "-m" ∨ oFlag ≠ "-o" ∨ gFlag ≠ "-g" then some "install args not allowed"
    else if mode ∉ ["0750", "0700"] then some "install mode not allowed"
    else
      let isRootOwned := userA = "root" ∧ userB = "root"
      let isTenantOwned := isSafeUser userA = true ∧ isSafeUser userB = true ∧ userA = userB
      if ¬ isRootOwned ∧ ¬ isTenantOwned then some "install ownership not allowed"
      else
        let openclawPath := joinPosix [tenantHomeRoot env, userA, ".openclaw"]
        let workspacePath := joinPosix [tenantHomeRoot env, userA, tenantWorkspaceDirname env]
        if isRootOwned ∧ target = "/etc/openclaw-tenants" then none
        else if target ∉ [openclawPath, workspacePath] then some "install path not allowed"
        else none
  | _ => some "install argument mismatch"

def validateCp (env : DaemonEnvironment) : List String → Option String
  | [flag, source, target] =>
    if flag ∉ ["-n", "-f"] then some "cp flag not allowed"
    else if templateOpenclawJson env ≠ "" ∧ source = templateOpenclawJson env then
      if flag ≠ "-n" then some "openclaw config copy must use -n"
      else if testText (openclawJsonPattern env) target = false then some "cp target not allowed"
      else none
    else if source = gatewaySystemdTemplate env then
      if flag ≠ "-n" then some "template copy must use -n"
      else if target ≠ "/etc/systemd/system/openclaw-gateway@.service" then
        some "gateway template target not allowed"
      else none
    else if testText (provisionerEnvPattern env) source = true then
      if flag ≠ "-f" then some "tenant env copy must use -f"
      else if testText tenantEnvPattern target = false then some "tenant env target not allowed"
      else none
    else some "cp source not allowed"
  | _ => some "cp argument mismatch"

def validateChown (env : DaemonEnvironment) : List String → Option String
  | [rFlag, owner, target] =>
    if rFlag ≠ "-R" then some "chown must use -R"
    else
      let users := splitText ':' owner
      let userA := users[0]?.getD ""
      if isSafeUser userA = false ∨ users[1]? ≠ some userA then some "chown owner not allowed"
      else if target ≠ joinPosix [tenantHomeRoot env, userA] then some "chown target not allowed"
      else none
  | _ => some "chown argument mismatch"

def validateRm (env : DaemonEnvironment) : List String → Option String
  | [flag, target] =>
    if flag = "-f" then
      if testText tenantEnvPattern target = false then some "rm -f target not allowed" else none
    else if flag = "-rf" then
      if testText (tenantDirPattern env) target = false then some "rm -rf target not allowed"
      else none
    else some "rm flag not allowed"
  | _ => some "rm argument mismatch"

def validateUserdel : List String → Option String
  | [flag, user] =>
    if flag ≠ "-r" then some "userdel must use -r"
    else if isSafeUser user = false then some "Invalid username"
    else none
  | _ => some "userdel argument mismatch"

def validateSystemctl (args : List String) : Option String :=
  if args = ["daemon-reload"] then none
  else
    match args with
    | [action, now, service] =>
      if (action = "enable" ∨ action = "disable") ∧ now = "--now" then
        if testText gatewayServicePattern service = true then none
        else some "systemctl service name not allowed"
      else some "systemctl args not allowed"
    | _ => some "systemctl args not allowed"

def validateCommand (env : DaemonEnvironment) (command : String) (args : List String) :
    Option String :=
  let cmd := (splitText '/' command).getLast?.getD ""
  if command = "" then some "Invalid command payload"
  else if cmd = "useradd" then validateUseradd args
  else if cmd = "install" then validateInstall env args
  else if cmd = "cp" then validateCp env args
  else if cmd = "chown" then validateChown env args
  else if cmd = "rm" then validateRm env args
  else if cmd = "userdel" then validateUserdel args
  else if cmd = "true" then (if args = [] then none else some "true takes no args")
  else if cmd = "systemctl" then validateSystemctl args
  else some ("Command not allowlisted: " ++ command)

/-- The daemon accepts the command list of a planned step. -/
def Accepts (env : DaemonEnvironment) : List String → Prop
  | [] => False
  | command :: args => validateCommand env command args = none

instance decidableAccepts (env : DaemonEnvironment) : DecidablePred (Accepts env)
  | [] => inferInstanceAs (Decidable False)
  | command :: args => inferInstanceAs (Decidable (validateCommand env command args = none))

/-! ### The command behind a path -/

section Commands

variable (env : DaemonEnvironment) (args : List String)

theorem validate_useradd : validateCommand env "/usr/sbin/useradd" args = validateUseradd args :=
  rfl

theorem validate_install :
    validateCommand env "/usr/bin/install" args = validateInstall env args := rfl

theorem validate_cp : validateCommand env "/usr/bin/cp" args = validateCp env args := rfl

theorem validate_chown : validateCommand env "/usr/bin/chown" args = validateChown env args := rfl

theorem validate_rm : validateCommand env "/usr/bin/rm" args = validateRm env args := rfl

theorem validate_userdel : validateCommand env "/usr/sbin/userdel" args = validateUserdel args :=
  rfl

theorem validate_systemctl :
    validateCommand env "/usr/bin/systemctl" args = validateSystemctl args := rfl

end Commands

end MissionControl.Provisioning.Daemon
