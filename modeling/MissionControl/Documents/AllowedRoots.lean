import MissionControl.Documents.Files

/-!
Where the files lie that are opened. The gate reads the text of a path before it is resolved,
with slashes for backslashes and without slashes in front; the file system reads the path as it
is. A path that has neither and never steps upwards leads where the gate thinks it does.
-/

set_option autoImplicit false
set_option relaxedAutoImplicit false

namespace MissionControl.Documents.AllowedRoots

open MissionControl.Foundations.PosixPath
open MissionControl.Foundations.PathWalks
open Files

inductive Request where
  | memory (request : MemoryRequest)
  | docs (path : List Char)
  deriving DecidableEq

def Request.path : Request → List Char
  | .memory request => request.path
  | .docs path => path

section

variable (inst : Installation) (disk : Disk)

/-- The files that a request opens or removes. -/
def opened : Request → List Access
  | .memory request => (memoryRoute inst disk request).2
  | .docs path => (readDocsContent inst disk path).2

/-- The roots that a request is allowed; without prefixes that is the directory itself. -/
def roots : Request → List (List Char)
  | .memory _ => if allowedPrefixes inst = [] then [[]] else allowedPrefixes inst
  | .docs _ => allowedRoots inst disk inst.memoryDir

/-- The memory directory, with its last name first. -/
def base : List (List Char) := resolve inst.cwd inst.memoryDir

/-- The file is at or below one of the roots. -/
def Lies (request : Request) (file : List Char) : Prop :=
  ∃ root ∈ roots inst disk request, Below (base inst) root file

/-- The directory that the first segment of the path is read from. -/
def start (path : List Char) : List (List Char) := if isAbsolute path then [] else base inst

/-- The path comes to one of the roots and from there on never leaves it. -/
def KeepsToRoot (request : Request) : Prop :=
  ∃ root ∈ roots inst disk request,
    Keeps (resolve (base inst) root) (start inst request.path) (parts request.path)

/-- No prefixes are configured for the memory route. -/
def Unrestricted : Request → Prop
  | .memory _ => allowedPrefixes inst = []
  | .docs _ => False

end

variable {inst : Installation} {disk : Disk}

/-! ### Which file is opened -/

theorem checkFile_eq_ok {baseReal fullPath path : List Char}
    (h : checkFile disk baseReal fullPath = .ok path) : path = fullPath := by
  rw [checkFile] at h
  split at h
  · exact (Except.ok.inj h).symm
  · cases h
  · cases h
  · split at h
    · exact (Except.ok.inj h).symm
    · cases h
    · split at h
      · exact (Except.ok.inj h).symm
      · cases h

theorem resolveSafeMemoryPath_eq_ok {relativePath path : List Char}
    (h : resolveSafeMemoryPath inst disk inst.memoryDir relativePath = .ok path) :
    resolveWithin inst inst.memoryDir relativePath = .ok path := by
  rw [resolveSafeMemoryPath] at h
  split at h
  · cases h
  · split at h
    · cases h
    · rename_i fullPath hfull
      split at h
      · cases h
      · split at h
        · cases h
        · rw [checkFile_eq_ok h]
          exact hfull

theorem resolveSafePath_eq_ok {relativePath path : List Char}
    (h : resolveSafePath inst disk inst.memoryDir relativePath = .ok path) :
    resolveWithin inst inst.memoryDir relativePath = .ok path := by
  rw [resolveSafePath] at h
  split at h
  · cases h
  · split at h
    · cases h
    · rename_i fullPath hfull
      split at h
      · cases h
      · cases h
      · split at h
        · cases h
        · rw [checkFile_eq_ok h]
          exact hfull

theorem path_of_serveFile {request : MemoryRequest} {fullPath : List Char} {access : Access}
    (h : access ∈ (serveFile disk request fullPath).2) : access.path = fullPath := by
  cases request with
  | content path =>
    rw [serveFile] at h
    split at h <;> rw [List.mem_singleton.mp h, Access.path]
  | save path content =>
    simp only [serveFile] at h
    split at h
    · cases h
    · split at h <;> rw [List.mem_singleton.mp h, Access.path]
  | create path content =>
    rw [serveFile] at h
    split at h
    · cases h
    · split at h <;> rw [List.mem_singleton.mp h, Access.path]
  | delete path =>
    rw [serveFile] at h
    split at h
    · cases h
    · split at h <;> rw [List.mem_singleton.mp h, Access.path]

/-- The gate that the path of a request goes through. -/
def Gate (inst : Installation) (disk : Disk) : Request → Prop
  | .memory request => isPathAllowed inst request.path = true
  | .docs path => isDocsPathAllowed inst disk path = true

/-- The gate has let the path in, and the file is the one that the path leads to. -/
theorem path_of_opened {request : Request} {access : Access}
    (h : access ∈ opened inst disk request) : Gate inst disk request ∧
      resolveWithin inst inst.memoryDir request.path = .ok access.path := by
  cases request with
  | memory request =>
    have hmem : access ∈ (memoryRoute inst disk request).2 := h
    rw [memoryRoute] at hmem
    split at hmem
    · cases hmem
    · split at hmem
      · cases hmem
      · rename_i hgate
        refine ⟨eq_true_of_ne_false hgate, ?_⟩
        split at hmem
        · cases hmem
        · split at hmem
          · cases hmem
          · rename_i fullPath hfull
            rw [path_of_serveFile hmem]
            exact resolveSafeMemoryPath_eq_ok hfull
  | docs path =>
    have hmem : access ∈ (readDocsContent inst disk path).2 := h
    rw [readDocsContent] at hmem
    split at hmem
    · cases hmem
    · rename_i hgate
      refine ⟨eq_true_of_ne_false hgate, ?_⟩
      split at hmem
      · cases hmem
      · split at hmem
        · cases hmem
        · rename_i safePath hsafe
          have hpath : access.path = safePath := by
            split at hmem <;> rw [List.mem_singleton.mp hmem, Access.path]
          rw [hpath]
          exact resolveSafePath_eq_ok hsafe

/-! ### Where it lies -/

theorem resolve_absolute {segments : List (List Char)} (h : Segments segments)
    (cwd : List (List Char)) : resolve cwd (absolute segments) = segments.reverse := by
  have habs : isAbsolute (absolute segments) = true := rfl
  rw [resolve_eq, parts_absolute h, habs, if_pos rfl, foldl_pushSegment_segments false h,
    List.append_nil]

theorem segments_resolve {cwd : List (List Char)} (h : Segments cwd) (path : List Char) :
    Segments (resolve cwd path) := by
  rw [resolve]
  refine segments_foldl (noSlash_of_mem_splitOn path) ?_
  split
  · intro s hs
    cases hs
  · exact h

theorem segments_reverse {segments : List (List Char)} (h : Segments segments) :
    Segments segments.reverse := fun s hs => h s (List.mem_reverse.mp hs)

theorem segments_base : Segments (base inst) := segments_resolve inst.cwdNames inst.memoryDir

variable (inst) in
theorem segments_below (relativePath : List Char) :
    Segments (resolve (base inst) relativePath).reverse :=
  segments_reverse (segments_resolve segments_base relativePath)

variable (inst) in
theorem resolve_resolveBelow (cwd : List (List Char)) (relativePath : List Char) :
    resolve cwd (resolveBelow inst inst.memoryDir relativePath) =
      resolve (base inst) relativePath :=
  (resolve_absolute (segments_below inst relativePath) cwd).trans (List.reverse_reverse _)

/-- A path that `resolveWithin` accepts leads to the directory or below it. -/
theorem resolveWithin_eq_ok {relativePath path : List Char}
    (h : resolveWithin inst inst.memoryDir relativePath = .ok path) :
    path = resolveBelow inst inst.memoryDir relativePath ∧
      base inst <:+ resolve (base inst) relativePath := by
  rw [resolveWithin] at h
  by_cases hescapes : ¬ (resolveBase inst inst.memoryDir ++ ['/']).isPrefixOf
      (resolveBelow inst inst.memoryDir relativePath) = true ∧
        resolveBelow inst inst.memoryDir relativePath ≠ resolveBase inst inst.memoryDir
  · rw [if_pos hescapes] at h
    cases h
  · rw [if_neg hescapes] at h
    refine ⟨(Except.ok.inj h).symm, List.reverse_prefix.mp ?_⟩
    have hparts : parts (resolveBelow inst inst.memoryDir relativePath) =
        (resolve (base inst) relativePath).reverse :=
      parts_absolute (segments_below inst relativePath)
    have hbase : parts (resolveBase inst inst.memoryDir) = (base inst).reverse :=
      parts_absolute (segments_reverse segments_base)
    rw [← hparts, ← hbase]
    rcases Classical.not_and_iff_not_or_not.mp hescapes with hprefix | hsame
    · obtain ⟨rest, hrest⟩ := List.isPrefixOf_iff_prefix.mp (not_not.mp hprefix)
      rw [← hrest, List.append_assoc, List.singleton_append, parts_append_slash]
      exact List.prefix_append _ _
    · have hparts := congrArg parts (not_not.mp hsame)
      exact hparts ▸ List.prefix_refl _

/-- Where an opened file lies, by the walk of its path. -/
theorem below_iff {request : Request} {access : Access} (h : access ∈ opened inst disk request)
    (root : List Char) : Below (base inst) root access.path ↔
      Keeps (resolve (base inst) root) (start inst request.path) (parts request.path) := by
  obtain ⟨hpath, -⟩ := resolveWithin_eq_ok (path_of_opened h).2
  have hstart : Segments (start inst request.path) := by
    rw [start]
    split
    · intro s hs
      cases hs
    · exact segments_base
  have hslash : ∀ s ∈ parts request.path, '/' ∉ s :=
    fun s hs => noSlash_of_mem_splitOn request.path s (List.mem_of_mem_filter hs)
  rw [Below, hpath, resolve_resolveBelow, resolve_eq request.path, ← start]
  exact suffix_walk_iff hstart hslash

/-! ### Plain paths -/

/-- A path that the gate and the file system read alike, and that never steps upwards. -/
structure Plain (path : List Char) : Prop where
  relative : isAbsolute path = false
  noBackslash : '\\' ∉ path
  noUp : ['.', '.'] ∉ parts path

/-- The prefixes of the memory route name directories. -/
def Slashed (inst : Installation) : Request → Prop
  | .memory _ => ∀ front ∈ allowedPrefixes inst, ∃ root ≠ [], front = root ++ ['/']
  | .docs _ => True

theorem normalizeRelativePath_of_plain {path : List Char} (h : Plain path) :
    normalizeRelativePath path = path := by
  have hsame : ∀ c ∈ path, (if c = '\\' then '/' else c) = c := by
    intro c hc
    rw [if_neg]
    rintro rfl
    exact h.noBackslash hc
  have hbackslashes : backslashes path = path := by
    rw [backslashes, List.map_congr_left hsame, List.map_id']
  rw [normalizeRelativePath, hbackslashes]
  cases path with
  | nil => rfl
  | cons c rest =>
    have hc : c ≠ '/' := by
      rintro rfl
      have habs := h.relative
      cases habs
    rw [List.dropWhile_cons_of_neg (by simpa using hc)]

/-- A plain path that begins with a root keeps to it. -/
theorem keeps_of_front {root path : List Char} (h : Plain path) (rest : List Char)
    (hpath : path = root ∨ path = root ++ '/' :: rest) (hroot : root ≠ []) :
    Keeps (resolve (base inst) root) (start inst path) (parts path) := by
  have hrelative : isAbsolute root = isAbsolute path := by
    rcases hpath with rfl | rfl
    · rfl
    · exact (isAbsolute_append hroot _).symm
  have hparts : ∃ back, parts path = parts root ++ back := by
    rcases hpath with rfl | rfl
    · exact ⟨[], (List.append_nil _).symm⟩
    · exact ⟨parts rest, parts_append_slash root rest⟩
  obtain ⟨back, hback⟩ := hparts
  refine .inr ⟨parts root, back, hback, ?_, ?_⟩
  · rw [start, ← hrelative]
    exact (resolve_eq root).symm
  · apply staysBelow_of_noUp
    intro hup
    apply h.noUp
    rw [hback]
    exact List.mem_append_right _ hup

/-- Without prefixes every file below the directory is at or below the only root. -/
theorem lies_of_unrestricted {request : Request} (hfree : Unrestricted inst request)
    {access : Access} (haccess : access ∈ opened inst disk request) :
    Lies inst disk request access.path := by
  cases request with
  | docs path => exact hfree.elim
  | memory request =>
    have hroots : roots inst disk (.memory request) = [[]] := if_pos hfree
    obtain ⟨hpath, hbase⟩ := resolveWithin_eq_ok (path_of_opened haccess).2
    refine ⟨[], by rw [hroots]; exact List.mem_singleton_self _, ?_⟩
    rw [Below, hpath, resolve_resolveBelow]
    exact hbase

/-- A file that is opened lies at or below an allowed root exactly if no root is asked for or the
walk of its path, as it is written, comes to a root and keeps to it. -/
theorem roots_respected_iff (inst : Installation) (disk : Disk) (request : Request) :
    ∀ access ∈ opened inst disk request, (Lies inst disk request access.path ↔
      Unrestricted inst request ∨ KeepsToRoot inst disk request) := by
  intro access haccess
  have hlies : Lies inst disk request access.path ↔ KeepsToRoot inst disk request := by
    rw [Lies, KeepsToRoot]
    simp only [below_iff haccess]
  constructor
  · intro h
    exact .inr (hlies.mp h)
  · rintro (hfree | hkeeps)
    · exact lies_of_unrestricted hfree haccess
    · exact hlies.mpr hkeeps

/-- A file that is opened for a plain path lies at or below an allowed root. -/
theorem plain_path_lies {request : Request} (hplain : Plain request.path)
    (hslashed : Slashed inst request) {access : Access}
    (haccess : access ∈ opened inst disk request) : Lies inst disk request access.path := by
  have hgate := (path_of_opened haccess).1
  have hnormal := normalizeRelativePath_of_plain hplain
  cases request with
  | memory request =>
    have hallowed : isPathAllowed inst request.path = true := hgate
    rw [isPathAllowed] at hallowed
    rcases of_decide_eq_true hallowed with hfree | hany
    · have hfree : Unrestricted inst (.memory request) := hfree
      exact lies_of_unrestricted hfree haccess
    · obtain ⟨front, hfront, hbegins⟩ := List.any_eq_true.mp hany
      obtain ⟨root, hroot, rfl⟩ := hslashed front hfront
      have hpath : request.path = root ∨ ∃ rest, request.path = root ++ '/' :: rest := by
        have hnormal : normalizeRelativePath request.path = request.path := hnormal
        rcases of_decide_eq_true hbegins with hsame | hprefix
        · left
          rw [hnormal, List.dropLast_concat] at hsame
          exact hsame
        · right
          rw [hnormal] at hprefix
          obtain ⟨rest, hrest⟩ := List.isPrefixOf_iff_prefix.mp hprefix
          exact ⟨rest, by rw [← hrest, List.append_assoc, List.singleton_append]⟩
      have hroots : roots inst disk (.memory request) = allowedPrefixes inst :=
        if_neg (List.ne_nil_of_mem hfront)
      refine ⟨root ++ ['/'], by rw [hroots]; exact hfront, (below_iff haccess _).mpr ?_⟩
      rw [resolve_append_slash hroot, parts_nil, List.foldl_nil]
      rcases hpath with hsame | ⟨rest, hrest⟩
      · exact keeps_of_front hplain [] (.inl hsame) hroot
      · exact keeps_of_front hplain rest (.inr hrest) hroot
  | docs path =>
    have hallowed : isDocsPathAllowed inst disk path = true := hgate
    have hnormal : normalizeRelativePath path = path := hnormal
    rw [isDocsPathAllowed, hnormal] at hallowed
    by_cases hempty : path = []
    · rw [if_pos hempty] at hallowed
      cases hallowed
    · rw [if_neg hempty] at hallowed
      split at hallowed
      · cases hallowed
      · obtain ⟨root, hmem, hbegins⟩ := List.any_eq_true.mp hallowed
        have hpath : path = root ∨ ∃ rest, path = root ++ '/' :: rest := by
          rcases of_decide_eq_true hbegins with hsame | hprefix
          · exact .inl hsame
          · obtain ⟨rest, hrest⟩ := List.isPrefixOf_iff_prefix.mp hprefix
            exact .inr ⟨rest, by rw [← hrest, List.append_assoc, List.singleton_append]⟩
        have hroot : root ≠ [] := by
          rintro rfl
          rcases hpath with hsame | ⟨rest, hrest⟩
          · exact hempty hsame
          · have habs : isAbsolute path = true := by
              rw [hrest]
              rfl
            exact absurd (hplain.relative.symm.trans habs) Bool.false_ne_true
        refine ⟨root, hmem, (below_iff haccess root).mpr ?_⟩
        rcases hpath with hsame | ⟨rest, hrest⟩
        · exact keeps_of_front hplain [] (.inl hsame) hroot
        · exact keeps_of_front hplain rest (.inr hrest) hroot

/-! ### A small installation -/

/-- A workspace whose memories may be read, with the soul of its agent beside them. -/
def workspace : Installation where
  cwd := []
  cwdNames := fun _ h => nomatch h
  memoryDir := "/home/scout/workspace".toList
  memoryAllowedPrefixes := ["memory/".toList, "knowledge-base/".toList]

/-- All files are there, and no path goes through a symbolic link. -/
def plainDisk : Disk where
  existsSync _ := true
  realpath path := .ok path
  lstat _ := .ok false
  stat _ := true
  readFile _ := some "text"
  writable _ := true
  removable _ := true

theorem memory_read_below_root :
    Lies workspace plainDisk (.memory (.content "memory/x/../today.md".toList))
      "/home/scout/workspace/memory/today.md".toList := by
  have hopened : Access.read "/home/scout/workspace/memory/today.md".toList ∈
      opened workspace plainDisk (.memory (.content "memory/x/../today.md".toList)) := by
    decide +kernel
  apply (roots_respected_iff workspace plainDisk (.memory (.content "memory/x/../today.md".toList))
    _ hopened).mpr
  refine .inr ⟨"memory/".toList, by decide +kernel, .inr ?_⟩
  exact ⟨["memory".toList], ["x".toList, "..".toList, "today.md".toList], by decide +kernel,
    by decide +kernel, by decide +kernel⟩

theorem opened_above_roots :
    opened workspace plainDisk (.memory (.content "memory/../SOUL.md".toList)) =
        [.read "/home/scout/workspace/SOUL.md".toList] ∧
      opened workspace plainDisk (.memory (.save "memory/../SOUL.md".toList (some ""))) =
        [.write "/home/scout/workspace/SOUL.md".toList] ∧
      opened workspace plainDisk (.docs "docs/../SOUL.md".toList) =
        [.read "/home/scout/workspace/SOUL.md".toList] ∧
      ¬ Lies workspace plainDisk (.memory (.content "memory/../SOUL.md".toList))
        "/home/scout/workspace/SOUL.md".toList ∧
      ¬ Lies workspace plainDisk (.docs "docs/../SOUL.md".toList)
        "/home/scout/workspace/SOUL.md".toList := by
  refine ⟨by decide +kernel, by decide +kernel, by decide +kernel, ?_, ?_⟩
  · rw [Lies]
    decide +kernel
  · rw [Lies]
    decide +kernel

end MissionControl.Documents.AllowedRoots
