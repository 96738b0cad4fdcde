import MissionControl.Foundations.PosixPath

/-!
The walk that a path takes: its segments are read one by one from a starting directory. It ends
at or below a directory exactly if it never leaves that directory, or comes to it and then never
leaves it.
-/

set_option autoImplicit false
set_option relaxedAutoImplicit false

namespace MissionControl.Foundations.PathWalks

open PosixPath

/-- The segments, read from `depth` names below a directory, never step out of it. -/
def staysBelow : Nat → List (List Char) → Bool
  | _, [] => true
  | depth, s :: rest =>
    if s = [] ∨ s = ['.'] then staysBelow depth rest
    else if s = ['.', '.'] then 0 < depth && staysBelow (depth - 1) rest
    else staysBelow (depth + 1) rest

/-- Where the segments lead from a directory; directories have their last name first. -/
def walk (start segments : List (List Char)) : List (List Char) :=
  segments.foldl (pushSegment false) start

/-- The walk never leaves the directory, or comes to it and then never leaves it. -/
def Keeps (dir start segments : List (List Char)) : Prop :=
  (dir <:+ start ∧ staysBelow (start.length - dir.length) segments = true) ∨
    ∃ front back, segments = front ++ back ∧ walk start front = dir ∧ staysBelow 0 back = true

theorem walk_append (start front back : List (List Char)) :
    walk start (front ++ back) = walk (walk start front) back := List.foldl_append

theorem pushSegment_up {top : List Char} {rest : List (List Char)} (h : top ≠ ['.', '.']) :
    pushSegment false (top :: rest) ['.', '.'] = rest := by
  simp [pushSegment, h]

theorem suffix_walk_of_staysBelow {dir start segments : List (List Char)}
    (hnames : Segments start) (hstart : dir <:+ start) (hslash : ∀ s ∈ segments, '/' ∉ s)
    (h : staysBelow (start.length - dir.length) segments = true) :
    dir <:+ walk start segments := by
  induction segments generalizing start with
  | nil => exact hstart
  | cons s rest ih =>
    obtain ⟨hs, hrest⟩ := List.forall_mem_cons.mp hslash
    rw [staysBelow] at h
    show dir <:+ walk (pushSegment false start s) rest
    by_cases hskip : s = [] ∨ s = ['.']
    · rw [if_pos hskip] at h
      have hsame : pushSegment false start s = start := if_pos hskip
      rw [hsame]
      exact ih hnames hstart hrest h
    · rw [if_neg hskip] at h
      by_cases hup : s = ['.', '.']
      · rw [if_pos hup] at h
        cases start with
        | nil =>
          rw [List.length_nil, Nat.zero_sub] at h
          cases h
        | cons top below =>
          obtain ⟨htop, hbelow⟩ := List.forall_mem_cons.mp hnames
          rw [hup, pushSegment_up htop.notUp]
          rcases List.suffix_cons_iff.mp hstart with rfl | hdir
          · rw [Nat.sub_self] at h
            cases h
          · have hle := hdir.length_le
            have hdepth : (top :: below).length - dir.length =
                (below.length - dir.length) + 1 := by
              rw [List.length_cons]
              omega
            rw [hdepth, Nat.add_sub_cancel] at h
            exact ih hbelow hdir hrest (Bool.and_eq_true_iff.mp h).2
      · rw [if_neg hup] at h
        have hname : Segment s := ⟨fun hnil => hskip (.inl hnil), hs,
          fun hdot => hskip (.inr hdot), hup⟩
        rw [pushSegment_segment hname]
        have hle := hstart.length_le
        refine ih (List.forall_mem_cons.mpr ⟨hname, hnames⟩)
          (hstart.trans (List.suffix_cons s start)) hrest ?_
        rw [List.length_cons, Nat.sub_add_comm hle]
        exact h

theorem keeps_of_suffix {dir start segments : List (List Char)} (hnames : Segments start)
    (hslash : ∀ s ∈ segments, '/' ∉ s) (h : dir <:+ walk start segments) :
    Keeps dir start segments := by
  induction segments generalizing start with
  | nil => exact .inl ⟨h, rfl⟩
  | cons s rest ih =>
    obtain ⟨hs, hrest⟩ := List.forall_mem_cons.mp hslash
    have hnext : Segments (pushSegment false start s) := segments_pushSegment hnames hs
    rcases ih hnext hrest h with ⟨hdir, hstays⟩ | ⟨front, back, rfl, hfront, hstays⟩
    · by_cases hskip : s = [] ∨ s = ['.']
      · have hsame : pushSegment false start s = start := if_pos hskip
        rw [hsame] at hdir hstays
        left
        refine ⟨hdir, ?_⟩
        rw [staysBelow, if_pos hskip]
        exact hstays
      · by_cases hup : s = ['.', '.']
        · subst hup
          cases start with
          | nil =>
            -- The root is its own parent.
            have hroot : pushSegment false [] ['.', '.'] = [] := rfl
            rw [hroot] at hdir hstays
            obtain rfl := List.suffix_nil.mp hdir
            exact .inr ⟨[['.', '.']], rest, rfl, rfl, hstays⟩
          | cons top below =>
            have htop := (List.forall_mem_cons.mp hnames).1
            rw [pushSegment_up htop.notUp] at hdir hstays
            have hle := hdir.length_le
            have hdepth : (top :: below).length - dir.length =
                (below.length - dir.length) + 1 := by
              rw [List.length_cons]
              omega
            left
            refine ⟨hdir.trans (List.suffix_cons top below), ?_⟩
            rw [staysBelow, if_neg hskip, if_pos rfl, hdepth, Nat.add_sub_cancel, hstays]
            rfl
        · have hname : Segment s := ⟨fun hnil => hskip (.inl hnil), hs,
            fun hdot => hskip (.inr hdot), hup⟩
          rw [pushSegment_segment hname] at hdir hstays
          rcases List.suffix_cons_iff.mp hdir with rfl | hbelow
          · rw [Nat.sub_self] at hstays
            refine .inr ⟨[s], rest, rfl, ?_, hstays⟩
            exact pushSegment_segment hname start
          · have hle := hbelow.length_le
            rw [List.length_cons, Nat.sub_add_comm hle] at hstays
            left
            refine ⟨hbelow, ?_⟩
            rw [staysBelow, if_neg hskip, if_neg hup]
            exact hstays
    · exact .inr ⟨s :: front, back, rfl, hfront, hstays⟩

/-- A walk ends at or below a directory exactly if it keeps to it. -/
theorem suffix_walk_iff {dir start segments : List (List Char)} (hnames : Segments start)
    (hslash : ∀ s ∈ segments, '/' ∉ s) :
    dir <:+ walk start segments ↔ Keeps dir start segments := by
  constructor
  · exact keeps_of_suffix hnames hslash
  · rintro (⟨hdir, hstays⟩ | ⟨front, back, rfl, hfront, hstays⟩)
    · exact suffix_walk_of_staysBelow hnames hdir hslash hstays
    · have hfrontSlash : ∀ s ∈ front, '/' ∉ s := fun s hs => hslash s (List.mem_append_left _ hs)
      have hbackSlash : ∀ s ∈ back, '/' ∉ s := fun s hs => hslash s (List.mem_append_right _ hs)
      have hreached : Segments (walk start front) := segments_foldl hfrontSlash hnames
      rw [walk_append, hfront]
      rw [hfront] at hreached
      refine suffix_walk_of_staysBelow hreached (List.suffix_refl _) hbackSlash ?_
      rw [Nat.sub_self]
      exact hstays

/-- Segments without a step upwards stay below whatever they start from. -/
theorem staysBelow_of_noUp {segments : List (List Char)} (h : ['.', '.'] ∉ segments)
    (depth : Nat) : staysBelow depth segments = true := by
  induction segments generalizing depth with
  | nil => rfl
  | cons s rest ih =>
    obtain ⟨hs, hrest⟩ := List.ne_and_not_mem_of_not_mem_cons h
    rw [staysBelow]
    split
    · exact ih hrest depth
    · rw [if_neg (Ne.symm hs)]
      exact ih hrest (depth + 1)

end MissionControl.Foundations.PathWalks
