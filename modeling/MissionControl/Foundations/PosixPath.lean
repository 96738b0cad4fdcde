import Mathlib.Data.List.Basic
import Mathlib.Data.List.Induction
import MissionControl.Foundations.Lists

/-!
The POSIX flavour of the path functions of Node, on lists of characters. A path is read through
its nonempty segments; a normalized absolute path is the slash-separated text of its segments.
-/

set_option autoImplicit false
set_option relaxedAutoImplicit false

namespace MissionControl.Foundations.PosixPath

/-- Resolve one segment against the segments before it, the last one first. -/
def pushSegment (allowAboveRoot : Bool) (stack : List (List Char)) (segment : List Char) :
    List (List Char) :=
  if segment = [] ∨ segment = ['.'] then stack
  else if segment = ['.', '.'] then
    match stack with
    | [] => if allowAboveRoot then [segment] else []
    | top :: rest =>
      if top = ['.', '.'] then (if allowAboveRoot then segment :: top :: rest else top :: rest)
      else rest
  else segment :: stack

def normalizeString (allowAboveRoot : Bool) (path : List Char) : List Char :=
  ['/'].intercalate ((path.splitOn '/').foldl (pushSegment allowAboveRoot) []).reverse

def isAbsolute (path : List Char) : Bool := path.head? = some '/'

def endsInSlash (path : List Char) : Bool := path.getLast? = some '/'

def normalize (path : List Char) : List Char :=
  if path = [] then ['.']
  else
    let body := normalizeString (!isAbsolute path) path
    if body = [] then
      if isAbsolute path then ['/'] else if endsInSlash path then ['.', '/'] else ['.']
    else
      (if isAbsolute path then ['/'] else []) ++ body ++ (if endsInSlash path then ['/'] else [])

def join (paths : List (List Char)) : List Char :=
  normalize (['/'].intercalate (paths.filter (· ≠ [])))

/-- `path.replace(/\/+$/g, '')`. -/
def stripSlashes (path : List Char) : List Char := (path.reverse.dropWhile (· = '/')).reverse

/-- `path.join` on texts. -/
def joinText (paths : List String) : String := String.ofList (join (paths.map String.toList))

/-! ### Segments -/

/-- A segment that names an entry of its directory. -/
structure Segment (s : List Char) : Prop where
  nonempty : s ≠ []
  noSlash : '/' ∉ s
  notHere : s ≠ ['.']
  notUp : s ≠ ['.', '.']

instance (s : List Char) : Decidable (Segment s) :=
  decidable_of_iff (s ≠ [] ∧ '/' ∉ s ∧ s ≠ ['.'] ∧ s ≠ ['.', '.'])
    ⟨fun h => ⟨h.1, h.2.1, h.2.2.1, h.2.2.2⟩, fun h => ⟨h.nonempty, h.noSlash, h.notHere, h.notUp⟩⟩

def Segments (segments : List (List Char)) : Prop := ∀ s ∈ segments, Segment s

/-- The nonempty segments of a path. -/
def parts (path : List Char) : List (List Char) := (path.splitOn '/').filter (· ≠ [])

/-- The absolute path with the given segments. -/
def absolute (segments : List (List Char)) : List Char := '/' :: ['/'].intercalate segments

/-- An absolute path that `normalize` leaves as it is. -/
structure Normal (path : List Char) : Prop where
  rooted : isAbsolute path = true
  fixed : normalize path = path

instance (path : List Char) : Decidable (Normal path) :=
  decidable_of_iff (isAbsolute path = true ∧ normalize path = path)
    ⟨fun h => ⟨h.1, h.2⟩, fun h => ⟨h.rooted, h.fixed⟩⟩

theorem parts_append_slash (a b : List Char) : parts (a ++ '/' :: b) = parts a ++ parts b := by
  unfold parts
  rw [List.splitOn_append_cons_self, List.filter_append]

@[simp] theorem parts_nil : parts [] = [] := by
  simp [parts]

theorem parts_cons_slash (path : List Char) : parts ('/' :: path) = parts path := by
  have h := parts_append_slash [] path
  rw [parts_nil, List.nil_append, List.nil_append] at h
  exact h

theorem parts_of_noSlash {s : List Char} (hne : s ≠ []) (h : '/' ∉ s) : parts s = [s] := by
  unfold parts
  rw [List.splitOn_eq_singleton h]
  simp [hne]

theorem parts_of_segment {s : List Char} (h : Segment s) : parts s = [s] :=
  parts_of_noSlash h.nonempty h.noSlash

theorem parts_intercalate (paths : List (List Char)) :
    parts (['/'].intercalate paths) = paths.flatMap parts := by
  induction paths with
  | nil => simp
  | cons p ps ih =>
    cases ps with
    | nil => simp
    | cons q qs =>
      rw [List.intercalate_cons_cons, List.append_assoc, List.singleton_append,
        parts_append_slash, ih, List.flatMap_cons (x := p)]

theorem flatMap_parts {segments : List (List Char)} (h : Segments segments) :
    segments.flatMap parts = segments := by
  induction segments with
  | nil => rfl
  | cons s ss ih =>
    have hs : Segment s := h s List.mem_cons_self
    have hss : Segments ss := fun t ht => h t (List.mem_cons_of_mem _ ht)
    rw [List.flatMap_cons, parts_of_segment hs, ih hss, List.singleton_append]

theorem noSlash_of_mem_splitOn (path : List Char) : ∀ s ∈ path.splitOn '/', '/' ∉ s :=
  Lists.not_mem_of_mem_splitOn '/' path

/-! ### Resolving segments -/

theorem foldl_pushSegment_filter (allow : Bool) (segments stack : List (List Char)) :
    segments.foldl (pushSegment allow) stack =
      (segments.filter (· ≠ [])).foldl (pushSegment allow) stack := by
  induction segments generalizing stack with
  | nil => rfl
  | cons s ss ih =>
    by_cases hs : s = []
    · subst hs
      rw [List.filter_cons_of_neg (by simp), List.foldl_cons]
      exact ih stack
    · rw [List.filter_cons_of_pos (by simpa using hs), List.foldl_cons, List.foldl_cons]
      exact ih _

theorem pushSegment_segment {allow : Bool} {s : List Char} (h : Segment s)
    (stack : List (List Char)) : pushSegment allow stack s = s :: stack := by
  unfold pushSegment
  rw [if_neg (not_or.mpr ⟨h.nonempty, h.notHere⟩), if_neg h.notUp]

theorem foldl_pushSegment_segments (allow : Bool) {segments : List (List Char)}
    (h : Segments segments) (stack : List (List Char)) :
    segments.foldl (pushSegment allow) stack = segments.reverse ++ stack := by
  induction segments generalizing stack with
  | nil => rfl
  | cons s ss ih =>
    have hs : Segment s := h s List.mem_cons_self
    have hss : Segments ss := fun t ht => h t (List.mem_cons_of_mem _ ht)
    rw [List.foldl_cons, pushSegment_segment hs, ih hss]
    simp

/-- Below an absolute root every resolved segment names an entry. -/
theorem segments_pushSegment {stack : List (List Char)} {s : List Char} (h : Segments stack)
    (hs : '/' ∉ s) : Segments (pushSegment false stack s) := by
  unfold pushSegment
  split
  · exact h
  · rename_i hskip
    obtain ⟨hnil, hdot⟩ := not_or.mp hskip
    split
    · cases stack with
      | nil => exact h
      | cons top rest =>
        have hrest : Segments rest := fun t ht => h t (List.mem_cons_of_mem _ ht)
        dsimp only
        split
        · exact h
        · exact hrest
    · rename_i hup
      intro t ht
      rcases List.mem_cons.mp ht with rfl | ht
      · exact ⟨hnil, hs, hdot, hup⟩
      · exact h t ht

theorem segments_foldl {segments : List (List Char)} (hs : ∀ s ∈ segments, '/' ∉ s)
    {stack : List (List Char)} (h : Segments stack) :
    Segments (segments.foldl (pushSegment false) stack) := by
  induction segments generalizing stack with
  | nil => exact h
  | cons s ss ih =>
    rw [List.foldl_cons]
    exact ih (fun t ht => hs t (List.mem_cons_of_mem _ ht))
      (segments_pushSegment h (hs s List.mem_cons_self))

theorem normalizeString_of_segments {path : List Char} (allow : Bool)
    (h : Segments (parts path)) : normalizeString allow path = ['/'].intercalate (parts path) := by
  have hfold := foldl_pushSegment_segments allow h []
  rw [List.append_nil] at hfold
  unfold normalizeString
  rw [foldl_pushSegment_filter]
  show ['/'].intercalate ((parts path).foldl (pushSegment allow) []).reverse = _
  rw [hfold, List.reverse_reverse]

theorem intercalate_ne_nil {segments : List (List Char)} (h : Segments segments)
    (hne : segments ≠ []) : ['/'].intercalate segments ≠ [] := by
  cases segments with
  | nil => exact absurd rfl hne
  | cons s ss =>
    have hs := (h s List.mem_cons_self).nonempty
    cases ss with
    | nil => simpa using hs
    | cons t ts =>
      rw [List.intercalate_cons_cons]
      simp

/-- An absolute path whose segments all name entries is only stripped of repeated slashes. -/
theorem normalize_of_segments {path : List Char} (habs : isAbsolute path = true)
    (h : Segments (parts path)) (hne : parts path ≠ []) :
    normalize path = absolute (parts path) ++ (if endsInSlash path then ['/'] else []) := by
  have hpath : path ≠ [] := by
    rintro rfl
    exact absurd habs (by decide)
  have hbody := normalizeString_of_segments (!isAbsolute path) h
  unfold normalize
  rw [if_neg hpath]
  dsimp only
  rw [hbody, if_neg (intercalate_ne_nil h hne), if_pos habs]
  rfl

/-- The segments of a normalized absolute path all name entries. -/
theorem Normal.segments {path : List Char} (h : Normal path) : Segments (parts path) := by
  let resolved := ((path.splitOn '/').foldl (pushSegment false) []).reverse
  have hresolved : Segments resolved := by
    intro s hs
    have hfold : Segments ((path.splitOn '/').foldl (pushSegment false) []) :=
      segments_foldl (noSlash_of_mem_splitOn path) (fun t ht => by cases ht)
    exact hfold s (List.mem_reverse.mp hs)
  have hpath : path ≠ [] := by
    rintro rfl
    exact absurd h.rooted (by decide)
  have hbody : normalizeString (!isAbsolute path) path = ['/'].intercalate resolved := by
    unfold normalizeString
    rw [h.rooted]
    rfl
  have hparts : parts (['/'].intercalate resolved) = resolved := by
    rw [parts_intercalate, flatMap_parts hresolved]
  have hfixed := h.fixed
  unfold normalize at hfixed
  rw [if_neg hpath] at hfixed
  dsimp only at hfixed
  rw [hbody, if_pos h.rooted] at hfixed
  have hsame : parts path = resolved := by
    by_cases hnil : ['/'].intercalate resolved = []
    · rw [if_pos hnil] at hfixed
      rw [hnil, parts_nil] at hparts
      rw [← hfixed, parts_cons_slash, parts_nil, hparts]
    · rw [if_neg hnil] at hfixed
      rw [← hfixed, if_pos h.rooted, List.append_assoc, List.singleton_append, parts_cons_slash]
      split
      · rw [parts_append_slash, hparts, parts_nil, List.append_nil]
      · rw [List.append_nil, hparts]
  rw [hsame]
  exact hresolved

theorem Normal.parts_ne_nil {path : List Char} (h : Normal path) (hroot : path ≠ ['/']) :
    parts path ≠ [] := by
  intro hnil
  have hbody := normalizeString_of_segments (!isAbsolute path) h.segments
  have hpath : path ≠ [] := by
    rintro rfl
    exact absurd h.rooted (by decide)
  have hfixed := h.fixed
  unfold normalize at hfixed
  rw [if_neg hpath] at hfixed
  dsimp only at hfixed
  rw [hbody, hnil, List.intercalate_nil, if_pos rfl, if_pos h.rooted] at hfixed
  exact hroot hfixed.symm

theorem getLast?_intercalate {segments : List (List Char)} (h : Segments segments)
    (hne : segments ≠ []) : ∃ c, (['/'].intercalate segments).getLast? = some c ∧ c ≠ '/' := by
  induction segments with
  | nil => exact absurd rfl hne
  | cons s ss ih =>
    have hs : Segment s := h s List.mem_cons_self
    have hss : Segments ss := fun t ht => h t (List.mem_cons_of_mem _ ht)
    cases ss with
    | nil =>
      rw [List.intercalate_singleton]
      refine ⟨s.getLast hs.nonempty, List.getLast?_eq_some_getLast hs.nonempty, ?_⟩
      intro heq
      have hmem := List.getLast_mem hs.nonempty
      rw [heq] at hmem
      exact hs.noSlash hmem
    | cons t ts =>
      obtain ⟨c, hc, hslash⟩ := ih hss (by simp)
      refine ⟨c, ?_, hslash⟩
      rw [List.intercalate_cons_cons, List.getLast?_append, hc]
      rfl

theorem endsInSlash_absolute {segments : List (List Char)} (h : Segments segments)
    (hne : segments ≠ []) : endsInSlash (absolute segments) = false := by
  obtain ⟨c, hc, hslash⟩ := getLast?_intercalate h hne
  have hlast : (absolute segments).getLast? = some c := by
    show ('/' :: ['/'].intercalate segments).getLast? = some c
    rw [List.getLast?_cons, hc]
    rfl
  unfold endsInSlash
  rw [hlast]
  exact decide_eq_false (fun heq => hslash (Option.some.inj heq))

/-- Joining segments below a normalized absolute path appends them. -/
theorem join_segments {path : List Char} (h : Normal path) {segments : List (List Char)}
    (hs : Segments segments) (hne : segments ≠ []) :
    join (path :: segments) = absolute (parts path ++ segments) := by
  have hpath : path ≠ [] := by
    rintro rfl
    exact absurd h.rooted (by decide)
  have hfilter : (path :: segments).filter (· ≠ []) = path :: segments := by
    rw [List.filter_eq_self]
    intro s hmem
    rcases List.mem_cons.mp hmem with rfl | hmem
    · simpa using hpath
    · simpa using (hs s hmem).nonempty
  have hparts : parts (['/'].intercalate (path :: segments)) = parts path ++ segments := by
    rw [parts_intercalate, List.flatMap_cons, flatMap_parts hs]
  have hall : Segments (parts path ++ segments) := by
    intro s hmem
    rcases List.mem_append.mp hmem with hmem | hmem
    · exact h.segments s hmem
    · exact hs s hmem
  have hjoined : ['/'].intercalate (path :: segments) =
      path ++ ['/'] ++ ['/'].intercalate segments := List.intercalate_cons_of_ne_nil hne
  have habs : isAbsolute (['/'].intercalate (path :: segments)) = true := by
    rw [hjoined, List.append_assoc]
    unfold isAbsolute
    rw [List.head?_append_of_ne_nil _ hpath]
    exact h.rooted
  have hends : endsInSlash (['/'].intercalate (path :: segments)) = false := by
    obtain ⟨c, hc, hslash⟩ := getLast?_intercalate hs hne
    unfold endsInSlash
    rw [hjoined, List.getLast?_append, hc]
    exact decide_eq_false (fun heq => hslash (Option.some.inj heq))
  have hnonempty : parts path ++ segments ≠ [] := by
    simp [hne]
  unfold join
  rw [hfilter]
  rw [normalize_of_segments habs (by rw [hparts]; exact hall) (by rw [hparts]; exact hnonempty),
    hparts, hends]
  simp

theorem intercalate_append {front back : List (List Char)} (hfront : front ≠ [])
    (hback : back ≠ []) : ['/'].intercalate (front ++ back) =
      ['/'].intercalate front ++ '/' :: ['/'].intercalate back := by
  induction front with
  | nil => exact absurd rfl hfront
  | cons s ss ih =>
    cases ss with
    | nil =>
      rw [List.singleton_append, List.intercalate_cons_of_ne_nil hback, List.intercalate_singleton]
      simp
    | cons t ts =>
      rw [List.cons_append, List.intercalate_cons_of_ne_nil (by simp),
        List.intercalate_cons_of_ne_nil (by simp), ih (by simp)]
      simp

theorem absolute_append {front back : List (List Char)} (hfront : front ≠ []) (hback : back ≠ []) :
    absolute (front ++ back) = absolute front ++ '/' :: ['/'].intercalate back := by
  unfold absolute
  rw [intercalate_append hfront hback, List.cons_append]

theorem absolute_concat {front : List (List Char)} (hfront : front ≠ []) (s : List Char) :
    absolute (front ++ [s]) = absolute front ++ '/' :: s := by
  rw [absolute_append hfront (by simp), List.intercalate_singleton]

/-! ### Stripped paths -/

theorem stripSlashes_of_last {path : List Char} (h : endsInSlash path = false) :
    stripSlashes path = path := by
  unfold stripSlashes
  unfold endsInSlash at h
  rw [List.getLast?_eq_head?_reverse] at h
  cases hrev : path.reverse with
  | nil =>
    have hnil : path = [] := by simpa using hrev
    rw [hnil]
    rfl
  | cons c cs =>
    rw [hrev] at h
    have hc : c ≠ '/' := by
      intro heq
      rw [heq, List.head?_cons] at h
      exact absurd rfl (of_decide_eq_false h)
    rw [List.dropWhile_cons_of_neg (by simpa using hc), ← hrev, List.reverse_reverse]

theorem stripSlashes_append_slash (path : List Char) :
    stripSlashes (path ++ ['/']) = stripSlashes path := by
  unfold stripSlashes
  rw [List.reverse_append, List.reverse_singleton, List.singleton_append,
    List.dropWhile_cons_of_pos (by simp)]

theorem stripSlashes_of_segment {s : List Char} (h : Segment s) : stripSlashes s = s := by
  refine stripSlashes_of_last ?_
  have hsingle : Segments [s] := by
    intro t ht
    rw [List.mem_singleton.mp ht]
    exact h
  obtain ⟨c, hc, hslash⟩ := getLast?_intercalate hsingle (by simp)
  rw [List.intercalate_singleton] at hc
  unfold endsInSlash
  rw [hc]
  exact decide_eq_false (fun heq => hslash (Option.some.inj heq))

theorem Normal.stripSlashes {path : List Char} (h : Normal path) (hroot : path ≠ ['/']) :
    stripSlashes path = absolute (parts path) := by
  have hne := h.parts_ne_nil hroot
  have hends := endsInSlash_absolute h.segments hne
  have hfixed := normalize_of_segments h.rooted h.segments hne
  rw [h.fixed] at hfixed
  by_cases hslash : endsInSlash path = true
  · rw [if_pos hslash] at hfixed
    calc PosixPath.stripSlashes path
        = PosixPath.stripSlashes (absolute (parts path) ++ ['/']) := by rw [← hfixed]
      _ = PosixPath.stripSlashes (absolute (parts path)) := stripSlashes_append_slash _
      _ = absolute (parts path) := stripSlashes_of_last hends
  · rw [if_neg hslash, List.append_nil] at hfixed
    calc PosixPath.stripSlashes path = PosixPath.stripSlashes (absolute (parts path)) := by
          rw [← hfixed]
      _ = absolute (parts path) := stripSlashes_of_last hends

theorem normal_absolute {segments : List (List Char)} (h : Segments segments)
    (hne : segments ≠ []) : Normal (absolute segments) := by
  have hparts : parts (absolute segments) = segments := by
    unfold absolute
    rw [parts_cons_slash, parts_intercalate, flatMap_parts h]
  refine ⟨rfl, ?_⟩
  rw [normalize_of_segments rfl (by rw [hparts]; exact h) (by rw [hparts]; exact hne), hparts,
    endsInSlash_absolute h hne]
  simp

theorem parts_absolute {segments : List (List Char)} (h : Segments segments) :
    parts (absolute segments) = segments := by
  unfold absolute
  rw [parts_cons_slash, parts_intercalate, flatMap_parts h]

/-! ### Where a path leads -/

section Resolve

variable {cwd : List (List Char)}

/-- The place that a path names for a process whose directory is `cwd`, the last segment first. -/
def resolve (cwd : List (List Char)) (path : List Char) : List (List Char) :=
  (path.splitOn '/').foldl (pushSegment false) (if isAbsolute path then [] else cwd)

/-- The path leads to the directory or to a place below it. -/
def Below (cwd : List (List Char)) (dir path : List Char) : Prop :=
  resolve cwd dir <:+ resolve cwd path

instance (cwd : List (List Char)) (dir path : List Char) : Decidable (Below cwd dir path) :=
  inferInstanceAs (Decidable (_ <:+ _))

/-- From every directory the path leads to that directory or to a place below it. -/
def Descends (path : List Char) : Prop :=
  ∀ stack, stack <:+ (parts path).foldl (pushSegment false) stack

theorem resolve_eq (path : List Char) : resolve cwd path =
    (parts path).foldl (pushSegment false) (if isAbsolute path then [] else cwd) :=
  foldl_pushSegment_filter _ _ _

theorem descends_of_segments {path : List Char} (h : Segments (parts path)) : Descends path := by
  intro stack
  rw [foldl_pushSegment_segments false h]
  exact List.suffix_append _ _

theorem descends_of_segment {s : List Char} (h : Segment s) : Descends s := by
  apply descends_of_segments
  rw [parts_of_segment h]
  intro t ht
  rw [List.mem_singleton.mp ht]
  exact h

/-- What stands on the stack while a relative path is resolved: names and steps upwards. -/
def Steps (stack : List (List Char)) : Prop :=
  ∀ s ∈ stack, s ≠ [] ∧ s ≠ ['.'] ∧ '/' ∉ s

theorem steps_pushSegment {allow : Bool} {stack : List (List Char)} {s : List Char}
    (h : Steps stack) (hs : '/' ∉ s) : Steps (pushSegment allow stack s) := by
  unfold pushSegment
  by_cases hskip : s = [] ∨ s = ['.']
  · rw [if_pos hskip]
    exact h
  · obtain ⟨hnil, hdot⟩ := not_or.mp hskip
    have hcons : Steps (s :: stack) := List.forall_mem_cons.mpr ⟨⟨hnil, hdot, hs⟩, h⟩
    rw [if_neg hskip]
    split
    · cases stack with
      | nil =>
        dsimp only
        split
        · exact hcons
        · exact h
      | cons top rest =>
        have hrest : Steps rest := (List.forall_mem_cons.mp h).2
        dsimp only
        split
        · split
          · exact hcons
          · exact h
        · exact hrest
    · exact hcons

theorem steps_foldl {allow : Bool} {segments : List (List Char)} (hs : ∀ s ∈ segments, '/' ∉ s)
    {stack : List (List Char)} (h : Steps stack) :
    Steps (segments.foldl (pushSegment allow) stack) := by
  induction segments generalizing stack with
  | nil => exact h
  | cons s ss ih =>
    obtain ⟨hhead, htail⟩ := List.forall_mem_cons.mp hs
    rw [List.foldl_cons]
    exact ih htail (steps_pushSegment h hhead)

theorem flatMap_parts_steps {stack : List (List Char)} (h : Steps stack) :
    stack.flatMap parts = stack := by
  induction stack with
  | nil => rfl
  | cons s ss ih =>
    obtain ⟨⟨hne, -, hslash⟩, hss⟩ := List.forall_mem_cons.mp h
    rw [List.flatMap_cons, parts_of_noSlash hne hslash, ih hss, List.singleton_append]

/-- Pushing what is left of a relative path leads where the path itself leads: a step upwards
takes back the name before it. -/
theorem foldl_pushSegment_resolved (base : List (List Char)) {segments : List (List Char)}
    (hs : ∀ s ∈ segments, '/' ∉ s) :
    (segments.foldl (pushSegment true) []).reverse.foldl (pushSegment false) base =
      segments.foldl (pushSegment false) base := by
  induction segments using List.reverseRecOn with
  | nil => rfl
  | append_singleton segments s ih =>
    obtain ⟨hfront, -⟩ := List.forall_mem_append.mp hs
    have hsteps : Steps (segments.foldl (pushSegment true) []) :=
      steps_foldl hfront (fun t ht => by cases ht)
    rw [List.foldl_append, List.foldl_append, List.foldl_cons, List.foldl_nil, List.foldl_cons,
      List.foldl_nil, ← ih hfront]
    generalize segments.foldl (pushSegment true) [] = stack at hsteps
    have hpushed : ∀ t, (t :: stack).reverse.foldl (pushSegment false) base =
        pushSegment false (stack.reverse.foldl (pushSegment false) base) t := by
      intro t
      rw [List.reverse_cons, List.foldl_append, List.foldl_cons, List.foldl_nil]
    conv_lhs => unfold pushSegment
    by_cases hskip : s = [] ∨ s = ['.']
    · rw [if_pos hskip]
      unfold pushSegment
      rw [if_pos hskip]
    · rw [if_neg hskip]
      by_cases hup : s = ['.', '.']
      · rw [if_pos hup]
        cases stack with
        | nil => exact hpushed s
        | cons top rest =>
          obtain ⟨⟨hne, hdot, hslash⟩, -⟩ := List.forall_mem_cons.mp hsteps
          dsimp only
          by_cases htop : top = ['.', '.']
          · rw [if_pos htop]
            exact hpushed s
          · have hname : Segment top := ⟨hne, hslash, hdot, htop⟩
            rw [if_neg htop, List.reverse_cons, List.foldl_append, List.foldl_cons, List.foldl_nil,
              pushSegment_segment hname]
            unfold pushSegment
            rw [if_neg hskip, if_pos hup]
            exact (if_neg htop).symm
      · rw [if_neg hup]
        exact hpushed s

theorem isAbsolute_append {p : List Char} (hp : p ≠ []) (q : List Char) :
    isAbsolute (p ++ q) = isAbsolute p := by
  unfold isAbsolute
  rw [List.head?_append_of_ne_nil _ hp]

theorem isAbsolute_intercalate {p : List Char} (hp : p ≠ []) (ps : List (List Char)) :
    isAbsolute (['/'].intercalate (p :: ps)) = isAbsolute p := by
  cases ps with
  | nil => rw [List.intercalate_singleton]
  | cons q qs =>
    rw [List.intercalate_cons_cons, List.append_assoc]
    exact isAbsolute_append hp _

theorem isAbsolute_of_noSlash {s : List Char} (h : '/' ∉ s) : isAbsolute s = false := by
  unfold isAbsolute
  refine decide_eq_false ?_
  intro hhead
  exact h (List.mem_of_mem_head? hhead)

theorem steps_resolved (allow : Bool) (path : List Char) :
    Steps ((path.splitOn '/').foldl (pushSegment allow) []).reverse := by
  intro s hs
  have hstack : Steps ((path.splitOn '/').foldl (pushSegment allow) []) :=
    steps_foldl (noSlash_of_mem_splitOn path) (fun t ht => by cases ht)
  exact hstack s (List.mem_reverse.mp hs)

theorem parts_normalizeString (allow : Bool) (path : List Char) :
    parts (normalizeString allow path) =
      ((path.splitOn '/').foldl (pushSegment allow) []).reverse := by
  unfold normalizeString
  rw [parts_intercalate, flatMap_parts_steps (steps_resolved allow path)]

theorem isAbsolute_normalizeString (allow : Bool) (path : List Char) :
    isAbsolute (normalizeString allow path) = false := by
  have hsteps := steps_resolved allow path
  unfold normalizeString
  generalize ((path.splitOn '/').foldl (pushSegment allow) []).reverse = stack at hsteps
  cases stack with
  | nil => rfl
  | cons s ss =>
    obtain ⟨⟨hne, -, hslash⟩, -⟩ := List.forall_mem_cons.mp hsteps
    rw [isAbsolute_intercalate hne]
    exact isAbsolute_of_noSlash hslash

theorem foldl_normalizeString (path : List Char) :
    (parts (normalizeString (!isAbsolute path) path)).foldl (pushSegment false)
      (if isAbsolute path then [] else cwd) = resolve cwd path := by
  have hslashes := noSlash_of_mem_splitOn path
  unfold resolve
  rw [parts_normalizeString]
  cases isAbsolute path with
  | true =>
    have hnames : Segments ((path.splitOn '/').foldl (pushSegment false) []) :=
      segments_foldl hslashes (fun t ht => by cases ht)
    have hreversed : Segments ((path.splitOn '/').foldl (pushSegment false) []).reverse :=
      fun t ht => hnames t (List.mem_reverse.mp ht)
    rw [if_pos rfl, Bool.not_true, foldl_pushSegment_segments false hreversed,
      List.reverse_reverse, List.append_nil]
  | false => exact foldl_pushSegment_resolved _ hslashes

theorem isAbsolute_normalize (path : List Char) : isAbsolute (normalize path) = isAbsolute path := by
  by_cases hpath : path = []
  · subst hpath
    rfl
  have hrelative := isAbsolute_normalizeString (!isAbsolute path) path
  unfold normalize
  rw [if_neg hpath]
  dsimp only
  by_cases hnil : normalizeString (!isAbsolute path) path = []
  · rw [if_pos hnil]
    cases isAbsolute path with
    | true => rfl
    | false =>
      rw [if_neg Bool.false_ne_true]
      split <;> rfl
  · rw [if_neg hnil]
    cases habs : isAbsolute path with
    | true => rfl
    | false =>
      rw [habs] at hrelative hnil
      rw [if_neg Bool.false_ne_true, List.nil_append, isAbsolute_append hnil]
      exact hrelative

/-- The slashes and the dot that `normalize` puts around its body lead nowhere. -/
theorem foldl_normalize (path : List Char) (stack : List (List Char)) :
    (parts (normalize path)).foldl (pushSegment false) stack =
      (parts (normalizeString (!isAbsolute path) path)).foldl (pushSegment false) stack := by
  by_cases hpath : path = []
  · subst hpath
    rfl
  have hfront : ∀ (b : Bool) body, parts ((if b then ['/'] else []) ++ body) = parts body := by
    rintro (_ | _) body
    · rfl
    · exact parts_cons_slash body
  have hback : ∀ (b : Bool) body, parts (body ++ (if b then ['/'] else [])) = parts body := by
    rintro (_ | _) body
    · rw [if_neg Bool.false_ne_true, List.append_nil]
    · rw [if_pos rfl, parts_append_slash, parts_nil, List.append_nil]
  unfold normalize
  rw [if_neg hpath]
  dsimp only
  by_cases hnil : normalizeString (!isAbsolute path) path = []
  · rw [if_pos hnil, hnil]
    split
    · rfl
    · split <;> rfl
  · rw [if_neg hnil, hback, hfront]

/-- `normalize` keeps the place that a path leads to. -/
theorem resolve_normalize (path : List Char) : resolve cwd (normalize path) = resolve cwd path := by
  rw [resolve_eq, isAbsolute_normalize, foldl_normalize, foldl_normalizeString]

theorem resolve_append_slash {p : List Char} (hp : p ≠ []) (q : List Char) :
    resolve cwd (p ++ '/' :: q) = (parts q).foldl (pushSegment false) (resolve cwd p) := by
  rw [resolve_eq, resolve_eq, parts_append_slash, isAbsolute_append hp, List.foldl_append]

theorem normalize_ne_nil (path : List Char) : normalize path ≠ [] := by
  unfold normalize
  split
  · simp
  · dsimp only
    split
    · split
      · simp
      · split <;> simp
    · rename_i hbody
      simp [hbody]

theorem flatMap_parts_filter (paths : List (List Char)) :
    (paths.filter (· ≠ [])).flatMap parts = paths.flatMap parts := by
  induction paths with
  | nil => rfl
  | cons p ps ih =>
    by_cases hp : p = []
    · subst hp
      rw [List.filter_cons_of_neg (by simp), List.flatMap_cons, parts_nil, List.nil_append]
      exact ih
    · rw [List.filter_cons_of_pos (by simpa using hp), List.flatMap_cons, List.flatMap_cons, ih]

/-- Joining below a directory, the first name being an entry of it, leads from the place of the
directory through the joined names. -/
theorem resolve_join_cons (p : List Char) {u : List Char} (hu : Segment u)
    (rest : List (List Char)) : resolve cwd (join (p :: u :: rest)) =
      ((u :: rest).flatMap parts).foldl (pushSegment false) (resolve cwd (join [p])) := by
  have hkeep : (u :: rest).filter (· ≠ []) = u :: rest.filter (· ≠ []) :=
    List.filter_cons_of_pos (by simpa using hu.nonempty)
  unfold join
  rw [resolve_normalize, resolve_normalize, resolve_eq, parts_intercalate, flatMap_parts_filter]
  by_cases hp : p = []
  · subst hp
    have hskip : ∀ ps : List (List Char), ([] :: ps).filter (· ≠ []) = ps.filter (· ≠ []) :=
      fun ps => List.filter_cons_of_neg (by simp)
    rw [hskip, hskip, hkeep, isAbsolute_intercalate hu.nonempty, isAbsolute_of_noSlash hu.noSlash,
      List.flatMap_cons, parts_nil, List.nil_append]
    rfl
  · have htake : ∀ ps : List (List Char), (p :: ps).filter (· ≠ []) = p :: ps.filter (· ≠ []) :=
      fun ps => List.filter_cons_of_pos (by simpa using hp)
    rw [htake, htake, isAbsolute_intercalate hp, List.filter_nil, List.intercalate_singleton, List.flatMap_cons,
      List.foldl_append, ← resolve_eq]

theorem parts_stripSlashes (path : List Char) : parts (stripSlashes path) = parts path := by
  induction path using List.reverseRecOn with
  | nil => rfl
  | append_singleton path c ih =>
    by_cases hc : c = '/'
    · subst hc
      rw [stripSlashes_append_slash, ih, parts_append_slash, parts_nil, List.append_nil]
    · rw [stripSlashes_of_last]
      unfold endsInSlash
      rw [List.getLast?_concat]
      exact decide_eq_false (fun heq => hc (Option.some.inj heq))

end Resolve

end MissionControl.Foundations.PosixPath
