import MissionControl.Documents.AllowedRoots

/-!
The test of `resolveWithin` against the segments of the normalized paths. It goes by the text of the
base and a slash, which no path starts with where the base is the root.
-/

set_option autoImplicit false
set_option relaxedAutoImplicit false

namespace MissionControl.Documents.WithinBase

open MissionControl.Foundations.PosixPath
open Files AllowedRoots

variable {inst : Installation} {base relativePath : List Char}

/-! ### What is claimed -/

/-- The path before it is normalized: an absolute one replaces the base. -/
def joined (base relativePath : List Char) : List Char :=
  if isAbsolute relativePath then relativePath else base ++ '/' :: relativePath

def normalSegments (path : List Char) : List (List Char) := parts (normalize path)

/-- The normalized path is the base or has it as a prefix of segments. -/
def Within (base relativePath : List Char) : Prop :=
  normalSegments base <+: normalSegments (joined base relativePath)

instance : Decidable (Within base relativePath) := inferInstanceAs (Decidable (_ <+: _))

/-- `resolveWithin` returns the normalized paths within the base, and throws for all others. -/
structure Decides (inst : Installation) (base relativePath : List Char) : Prop where
  returns : ∀ path, resolveWithin inst base relativePath = .ok path ↔
    Within base relativePath ∧ path = absolute (normalSegments (joined base relativePath))
  throws : (∃ e, resolveWithin inst base relativePath = .error e) ↔ ¬ Within base relativePath

/-! ### Normalized paths -/

theorem parts_normalize {path : List Char} (h : isAbsolute path = true) :
    parts (normalize path) = parts (normalizeString false path) := by
  have hpath : path ≠ [] := by
    rintro rfl
    exact absurd h (by decide)
  unfold Foundations.PosixPath.normalize
  rw [if_neg hpath, h]
  dsimp only
  rw [Bool.not_true]
  by_cases hbody : normalizeString false path = []
  · rw [if_pos hbody, if_pos rfl, hbody]
    rfl
  · rw [if_neg hbody, if_pos rfl, List.singleton_append, List.cons_append, parts_cons_slash]
    split
    · rw [parts_append_slash, parts_nil, List.append_nil]
    · rw [List.append_nil]

/-- Normalizing an absolute path is resolving it. -/
theorem normalSegments_eq {path : List Char} (h : isAbsolute path = true)
    (cwd : List (List Char)) : normalSegments path = (resolve cwd path).reverse := by
  rw [normalSegments, parts_normalize h, parts_normalizeString, resolve, h, if_pos rfl]

theorem isAbsolute_ne_nil {path : List Char} (h : isAbsolute path = true) : path ≠ [] := by
  rintro rfl
  exact absurd h (by decide)

theorem isAbsolute_joined (h : isAbsolute base = true) (relativePath : List Char) :
    isAbsolute (joined base relativePath) = true := by
  unfold joined
  split
  · assumption
  · rw [isAbsolute_append (isAbsolute_ne_nil h), h]

theorem normalSegments_joined (h : isAbsolute base = true) (cwd : List (List Char)) :
    normalSegments (joined base relativePath) =
      (resolve (resolve cwd base) relativePath).reverse := by
  rw [normalSegments_eq (isAbsolute_joined h relativePath) cwd]
  congr 1
  unfold joined
  split
  · rename_i habs
    rw [resolve_eq, resolve_eq, if_pos habs, if_pos habs]
  · rename_i hrelative
    rw [resolve_append_slash (isAbsolute_ne_nil h), resolve_eq relativePath, if_neg hrelative]

/-! ### The test -/

theorem absolute_injective {front back : List (List Char)} (hfront : Segments front)
    (hback : Segments back) (h : absolute front = absolute back) : front = back := by
  rw [← parts_absolute hfront, h, parts_absolute hback]

/-- No normalized path starts with two slashes. -/
theorem not_root_slash_prefix {segments : List (List Char)} (h : Segments segments) :
    ¬ absolute [] ++ ['/'] <+: absolute segments := by
  rintro ⟨rest, hrest⟩
  cases segments with
  | nil => simp [absolute] at hrest
  | cons s ss =>
    have hs : Segment s := h s List.mem_cons_self
    cases s with
    | nil => exact hs.nonempty rfl
    | cons c cs =>
      have hfirst : '/' = c := by
        cases ss with
        | nil =>
          simp only [absolute, List.intercalate_singleton] at hrest
          exact (List.cons.inj (List.cons.inj hrest).2).1
        | cons t ts =>
          simp only [absolute, List.intercalate_cons_cons] at hrest
          exact (List.cons.inj (List.cons.inj hrest).2).1
      exact hs.noSlash (hfirst ▸ List.mem_cons_self)

theorem absolute_slash_prefix_iff {front segments : List (List Char)} (hfront : Segments front)
    (h : Segments segments) : absolute front ++ ['/'] <+: absolute segments ↔
      front <+: segments ∧ front ≠ segments ∧ front ≠ [] := by
  constructor
  · rintro ⟨rest, hrest⟩
    have hparts : front ++ parts rest = segments := by
      rw [← parts_absolute h, ← hrest, List.append_assoc, List.singleton_append,
        parts_append_slash, parts_absolute hfront]
    refine ⟨⟨_, hparts⟩, ?_, ?_⟩
    · rintro rfl
      have hlength := congrArg List.length hrest
      simp at hlength
    · rintro rfl
      exact not_root_slash_prefix h ⟨rest, hrest⟩
  · rintro ⟨⟨back, rfl⟩, hne, hroot⟩
    have hback : back ≠ [] := by
      rintro rfl
      exact hne (List.append_nil front).symm
    rw [absolute_append hroot hback]
    exact ⟨['/'].intercalate back, by rw [List.append_assoc, List.singleton_append]⟩

theorem isWithinBase_iff {front segments : List (List Char)} (hfront : Segments front)
    (h : Segments segments) : isWithinBase (absolute front) (absolute segments) = true ↔
      front <+: segments ∧ (front ≠ [] ∨ segments = []) := by
  rw [isWithinBase, decide_eq_true_eq, List.isPrefixOf_iff_prefix,
    absolute_slash_prefix_iff hfront h]
  constructor
  · rintro (hsame | ⟨hstarts, -, hroot⟩)
    · obtain rfl := absolute_injective h hfront hsame
      exact ⟨List.prefix_refl _, (em _).symm⟩
    · exact ⟨hstarts, Or.inl hroot⟩
  · rintro ⟨hstarts, hroot⟩
    by_cases hsame : front = segments
    · exact Or.inl (congrArg absolute hsame.symm)
    · rcases hroot with hroot | rfl
      · exact Or.inr ⟨hstarts, hsame, hroot⟩
      · exact absurd (List.prefix_nil.mp hstarts) hsame

theorem resolveWithin_eq : resolveWithin inst base relativePath =
    if isWithinBase (resolveBase inst base) (resolveBelow inst base relativePath) then
      .ok (resolveBelow inst base relativePath)
    else .error "Path escapes base directory" := by
  unfold resolveWithin
  dsimp only
  by_cases hwithin :
      isWithinBase (resolveBase inst base) (resolveBelow inst base relativePath) = true
  · rw [if_pos hwithin, if_neg]
    rintro ⟨hstarts, hne⟩
    rcases of_decide_eq_true hwithin with hsame | hbelow
    · exact hne hsame
    · exact hstarts hbelow
  · rw [if_neg hwithin, if_pos]
    refine ⟨fun hstarts => hwithin ?_, fun hsame => hwithin ?_⟩
    · exact decide_eq_true (Or.inr hstarts)
    · exact decide_eq_true (Or.inl hsame)

/-! ### Where it decides -/

theorem segments_normalSegments {path : List Char} (h : isAbsolute path = true) :
    Segments (normalSegments path) := by
  have hnone : Segments [] := fun s hs => by cases hs
  rw [normalSegments_eq h []]
  exact segments_reverse (segments_resolve hnone path)

/-- The test, on the segments of the normalized paths. -/
theorem resolveWithin_of_absolute (inst : Installation) (h : isAbsolute base = true)
    (relativePath : List Char) :
    resolveWithin inst base relativePath =
      if Within base relativePath ∧ (normalSegments base ≠ [] ∨
          normalSegments (joined base relativePath) = []) then
        .ok (absolute (normalSegments (joined base relativePath)))
      else .error "Path escapes base directory" := by
  have hbase : resolveBase inst base = absolute (normalSegments base) := by
    rw [resolveBase, normalSegments_eq h inst.cwd]
  have hbelow : resolveBelow inst base relativePath =
      absolute (normalSegments (joined base relativePath)) := by
    rw [resolveBelow, normalSegments_joined h inst.cwd]
  have hiff := isWithinBase_iff (segments_normalSegments h)
    (segments_normalSegments (isAbsolute_joined h relativePath))
  rw [resolveWithin_eq, hbase, hbelow]
  exact if_congr hiff rfl rfl

/-- For an absolute base, `resolveWithin` decides what is within it exactly when the base is not the
root, or the path leads to the root itself. -/
theorem resolveWithin_decides_iff (inst : Installation) (h : isAbsolute base = true)
    (relativePath : List Char) : Decides inst base relativePath ↔
      normalSegments base ≠ [] ∨ normalSegments (joined base relativePath) = [] := by
  have htest := resolveWithin_of_absolute inst h relativePath
  constructor
  · intro hdecides
    by_contra hroot
    rw [if_neg fun hboth => hroot hboth.2] at htest
    -- everything is within the root, and it throws
    have hwithin : Within base relativePath := by
      rw [Within, not_ne_iff.mp (not_or.mp hroot).1]
      exact List.nil_prefix
    exact hdecides.throws.mp ⟨_, htest⟩ hwithin
  · intro hroot
    by_cases hwithin : Within base relativePath
    · rw [if_pos ⟨hwithin, hroot⟩] at htest
      constructor
      · intro path
        rw [htest, Except.ok.injEq, eq_comm, and_iff_right hwithin]
      · rw [htest]
        exact ⟨fun ⟨e, he⟩ => (by cases he), fun hnot => absurd hwithin hnot⟩
    · rw [if_neg fun hboth => hwithin hboth.1] at htest
      constructor
      · intro path
        rw [htest]
        exact ⟨fun hok => (by cases hok), fun hboth => absurd hboth.1 hwithin⟩
      · exact ⟨fun _ => hwithin, fun _ => ⟨_, htest⟩⟩

/-- Below a directory other than the root, whatever segments it is written with. -/
theorem data_directory_decides :
    Decides workspace "/srv/./docs/../data/".toList "../data/reports//2024".toList :=
  (resolveWithin_decides_iff workspace (by decide +kernel) _).mpr (Or.inl (by decide +kernel))

/-- The root does not contain `/etc`. -/
theorem root_contains_nothing : ¬ Decides workspace "/".toList "etc".toList := by
  intro h
  have hok := (h.returns "/etc".toList).mpr ⟨by decide +kernel, by decide +kernel⟩
  have hthrows : (resolveWithin workspace "/".toList "etc".toList).isOk = false := by
    decide +kernel
  rw [hok] at hthrows
  cases hthrows

end MissionControl.Documents.WithinBase
