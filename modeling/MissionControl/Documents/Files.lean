import MissionControl.Foundations.PathWalks

/-!
The files below the memory directory: the route that reads, writes and deletes them, and the
library that reads documents for the pages. Both ask a gate whether a path is allowed, and then
resolve the path below the directory and look where the symbolic links on it lead. Paths are
lists of characters.
-/

set_option autoImplicit false
set_option relaxedAutoImplicit false

namespace MissionControl.Documents.Files

open MissionControl.Foundations.PosixPath

/-! ### Configuration and disk -/

structure Installation where
  /-- The directory of the process, with its last name first. -/
  cwd : List (List Char)
  cwdNames : Segments cwd
  /-- `config.memoryDir`; empty if there is none. -/
  memoryDir : List Char
  /-- `config.memoryAllowedPrefixes`. -/
  memoryAllowedPrefixes : List (List Char)

inductive FsError where
  | enoent
  | other
  deriving DecidableEq

/-- What the file system answers for an absolute path. -/
structure Disk where
  existsSync : List Char → Bool
  realpath : List Char → Except FsError (List Char)
  /-- Whether the path itself is a symbolic link. -/
  lstat : List Char → Except FsError Bool
  /-- `stat` succeeds. -/
  stat : List Char → Bool
  readFile : List Char → Option String
  /-- `writeFile` succeeds. -/
  writable : List Char → Bool
  /-- `unlink` succeeds. -/
  removable : List Char → Bool

/-- A file that is opened or removed. -/
inductive Access where
  | read (path : List Char)
  | write (path : List Char)
  | unlink (path : List Char)
  deriving DecidableEq

def Access.path : Access → List Char
  | .read path => path
  | .write path => path
  | .unlink path => path

variable (inst : Installation) (disk : Disk)

/-! ### Paths -/

/-- `path.resolve(base)`. -/
def resolveBase (base : List Char) : List Char := absolute (resolve inst.cwd base).reverse

/-- `path.resolve(base, relativePath)`. -/
def resolveBelow (base relativePath : List Char) : List Char :=
  absolute (resolve (resolve inst.cwd base) relativePath).reverse

/-- `path.dirname`, of a path that has been resolved. -/
def dirname (path : List Char) : List Char := absolute (parts path).dropLast

/-- `candidate === base || candidate.startsWith(base + sep)`. -/
def isWithinBase (base candidate : List Char) : Bool :=
  candidate = base ∨ (base ++ ['/']).isPrefixOf candidate

def resolveWithin (baseDir relativePath : List Char) : Except String (List Char) :=
  let base := resolveBase inst baseDir
  let resolved := resolveBelow inst baseDir relativePath
  if ¬ (base ++ ['/']).isPrefixOf resolved ∧ resolved ≠ base then
    .error "Path escapes base directory"
  else .ok resolved

def backslashes (path : List Char) : List Char := path.map fun c => if c = '\\' then '/' else c

def normalizeRelativePath (value : List Char) : List Char :=
  (backslashes value).dropWhile (· = '/')

/-- The checks of the file itself, which both resolvers make at their end. -/
def checkFile (baseReal fullPath : List Char) : Except String (List Char) :=
  match disk.lstat fullPath with
  | .error .enoent => .ok fullPath
  | .error .other => .error "lstat"
  | .ok true => .error "Symbolic links are not allowed"
  | .ok false =>
    match disk.realpath fullPath with
    | .error .enoent => .ok fullPath
    | .error .other => .error "realpath"
    | .ok fileReal =>
      if isWithinBase baseReal fileReal then .ok fullPath
      else .error "Path escapes base directory (symlink)"

/-! ### The memory route -/

/-- `MEMORY_ALLOWED_PREFIXES`. -/
def allowedPrefixes : List (List Char) := inst.memoryAllowedPrefixes.map backslashes

def isPathAllowed (relativePath : List Char) : Bool :=
  let normalized := normalizeRelativePath relativePath
  allowedPrefixes inst = [] ∨
    (allowedPrefixes inst).any fun front => normalized = front.dropLast ∨ front.isPrefixOf normalized

/-- The nearest ancestor that is there, for a directory with its last name first. -/
def nearestReal : List (List Char) → Except String (List Char)
  | [] =>
    match disk.realpath (absolute []) with
    | .ok real => .ok real
    | .error .enoent => .error "Parent directory not found"
    | .error .other => .error "realpath"
  | name :: above =>
    match disk.realpath (absolute (name :: above).reverse) with
    | .ok real => .ok real
    | .error .enoent => nearestReal above
    | .error .other => .error "realpath"

def resolveSafeMemoryPath (baseDir relativePath : List Char) : Except String (List Char) :=
  match disk.realpath baseDir with
  | .error _ => .error "realpath"
  | .ok baseReal =>
    match resolveWithin inst baseDir relativePath with
    | .error e => .error e
    | .ok fullPath =>
      match nearestReal disk (parts (dirname fullPath)).reverse with
      | .error e => .error e
      | .ok parentReal =>
        if isWithinBase baseReal parentReal = false then
          .error "Path escapes base directory (symlink)"
        else checkFile disk baseReal fullPath

inductive Reply where
  | content (text : String)
  | done (message : String)
  | refused (status : Nat) (error : String)
  deriving DecidableEq

/-- The requests with a path, once they are let in: `GET` with the action `content`, `POST` with
`save` or `create`, and `DELETE` with `delete`. `content` is what the body has under that name. -/
inductive MemoryRequest where
  | content (path : List Char)
  | save (path : List Char) (content : Option String)
  | create (path : List Char) (content : Option String)
  | delete (path : List Char)
  deriving DecidableEq

def MemoryRequest.path : MemoryRequest → List Char
  | .content path => path
  | .save path _ => path
  | .create path _ => path
  | .delete path => path

/-- What a request does to the file that its path leads to. -/
def serveFile (request : MemoryRequest) (fullPath : List Char) : Reply × List Access :=
  match request with
  | .content _ =>
    match disk.readFile fullPath with
    | none => (.refused 404 "File not found", [.read fullPath])
    | some text => (.content text, [.read fullPath])
  | .save _ content =>
    match content with
    | none => (.refused 400 "Content is required for save action", [])
    | some _ =>
      if disk.writable fullPath then (.done "File saved successfully", [.write fullPath])
      else (.refused 500 "Internal server error", [.write fullPath])
  | .create _ _ =>
    if disk.stat fullPath then (.refused 409 "File already exists", [])
    else if disk.writable fullPath then (.done "File created successfully", [.write fullPath])
    else (.refused 500 "Internal server error", [.write fullPath])
  | .delete _ =>
    if ¬ disk.stat fullPath then (.refused 404 "File not found", [])
    else if disk.removable fullPath then (.done "File deleted successfully", [.unlink fullPath])
    else (.refused 500 "Internal server error", [.unlink fullPath])

/-- What is said to a request without a path. -/
def withoutPath : MemoryRequest → Reply
  | .content _ => .refused 400 "Invalid action"
  | _ => .refused 400 "Path is required"

/-- The memory route, with the files that it opens or removes. -/
def memoryRoute (request : MemoryRequest) : Reply × List Access :=
  if request.path = [] then (withoutPath request, [])
  else if isPathAllowed inst request.path = false then (.refused 403 "Path not allowed", [])
  else if inst.memoryDir = [] then (.refused 500 "Memory directory not configured", [])
  else
    match resolveSafeMemoryPath inst disk inst.memoryDir request.path with
    | .error _ => (.refused 500 "Internal server error", [])
    | .ok fullPath => serveFile disk request fullPath

/-! ### The documents -/

def docRootCandidates : List (List Char) :=
  ["docs".toList, "knowledge-base".toList, "knowledge".toList, "memory".toList]

/-- `path.replace(/\/$/, '')`. -/
def dropSlash (path : List Char) : List Char := if endsInSlash path then path.dropLast else path

def allowedRoots (baseDir : List Char) : List (List Char) :=
  let candidateRoots := docRootCandidates.filter fun root => disk.existsSync (join [baseDir, root])
  if candidateRoots ≠ [] then candidateRoots
  else
    ((inst.memoryAllowedPrefixes.map fun front => dropSlash (normalizeRelativePath front)).filter
      (· ≠ [])).filter fun root => disk.existsSync (join [baseDir, root])

def isDocsPathAllowed (relativePath : List Char) : Bool :=
  let normalized := normalizeRelativePath relativePath
  if normalized = [] then false
  else if inst.memoryDir = [] ∨ disk.existsSync inst.memoryDir = false then false
  else
    (allowedRoots inst disk inst.memoryDir).any fun root =>
      normalized = root ∨ (root ++ ['/']).isPrefixOf normalized

def resolveSafePath (baseDir relativePath : List Char) : Except String (List Char) :=
  match disk.realpath baseDir with
  | .error _ => .error "realpath"
  | .ok baseReal =>
    match resolveWithin inst baseDir relativePath with
    | .error e => .error e
    | .ok fullPath =>
      match disk.realpath (dirname fullPath) with
      | .error .enoent => .error "Parent directory not found"
      | .error .other => .error "realpath"
      | .ok parentReal =>
        if isWithinBase baseReal parentReal = false then
          .error "Path escapes base directory (symlink)"
        else checkFile disk baseReal fullPath

/-- `readDocsContent`, with the files that it opens. -/
def readDocsContent (relativePath : List Char) :
    Except String (String × List Char) × List Access :=
  if isDocsPathAllowed inst disk relativePath = false then (.error "Path not allowed", [])
  else if inst.memoryDir = [] ∨ disk.existsSync inst.memoryDir = false then
    (.error "Docs directory not configured", [])
  else
    match resolveSafePath inst disk inst.memoryDir relativePath with
    | .error e => (.error e, [])
    | .ok safePath =>
      match disk.readFile safePath with
      | none => (.error "ENOENT", [.read safePath])
      | some content => (.ok (content, normalizeRelativePath relativePath), [.read safePath])

end MissionControl.Documents.Files
