import Mathlib.Algebra.Order.Ring.Int
import Mathlib.Data.List.Chain
import Mathlib.Data.Rat.Floor
import Mathlib.Tactic.Linarith
import Mathlib.Tactic.NormNum
import MissionControl.Foundations.Calendar

/-!
Local time in a zone whose offset changes now and then, and dates that are set by their local time.
A local time that is shown twice denotes its first instant; one that is skipped denotes the instant
that would have shown it without the change.
-/

set_option autoImplicit false
set_option relaxedAutoImplicit false

namespace MissionControl.Foundations.TimeZones

open Calendar
open Numbers (Number)

/-! ### Zones -/

/-- An offset at first, and the instants at which it becomes another. -/
structure Zone where
  initial : Int
  changes : List (Int × Int)
  ordered : (changes.map Prod.fst).Pairwise (· < ·)

def offsetAt (offset : Int) : List (Int × Int) → Int → Int
  | [], _ => offset
  | (instant, next) :: rest, t => if t < instant then offset else offsetAt next rest t

/-- `LocalTime(t)`. -/
def Zone.localTime (zone : Zone) (t : Int) : Int := t + offsetAt zone.initial zone.changes t

/-- The time between two changes. -/
structure Stretch where
  start : Option Int
  stop : Option Int
  offset : Int
  deriving DecidableEq

namespace Stretch

def contains (s : Stretch) (t : Int) : Bool := s.start.all (· ≤ t) && s.stop.all (t < ·)

/-- The stretch is not shorter than a number of milliseconds. -/
def outlasts (s : Stretch) (n : Int) : Bool :=
  match s.start, s.stop with
  | some start, some stop => n ≤ stop - start
  | _, _ => true

/-- The last instant of the stretch that shows an earlier local time. -/
def lastBefore (s : Stretch) (l : Int) : Option Int :=
  let t := s.stop.elim (l - 1 - s.offset) fun stop => min (l - 1 - s.offset) (stop - 1)
  if s.contains t then some t else none

end Stretch

def stretchesFrom (start : Option Int) (offset : Int) : List (Int × Int) → List Stretch
  | [] => [⟨start, none, offset⟩]
  | (instant, next) :: rest => ⟨start, some instant, offset⟩ :: stretchesFrom (some instant) next rest

def Zone.stretches (zone : Zone) : List Stretch := stretchesFrom none zone.initial zone.changes

/-- The instants that show a local time, in their order. -/
def Zone.instants (zone : Zone) (l : Int) : List Int :=
  (zone.stretches.filter fun s => s.contains (l - s.offset)).map (l - ·.offset)

/-- The later of two stretches, unless the earlier shows more before `l`. -/
def later (l : Int) (best : Option Stretch) (s : Stretch) : Option Stretch :=
  match s.lastBefore l with
  | none => best
  | some t =>
    if best.any (fun b => (b.lastBefore l).any fun t' => t + s.offset < t' + b.offset) then best
    else some s

/-- `UTC(l)`. Where no instant shows the local time, the offset is the one at the last instant that
shows the greatest local time before it. -/
def Zone.utc (zone : Zone) (l : Int) : Int :=
  match zone.instants l with
  | t :: _ => t
  | [] => l - ((zone.stretches.foldl (later l) none).map Stretch.offset).getD 0

/-! ### What the stretches show -/

theorem start_le_of_contains {start offset t : Int} {changes : List (Int × Int)} {s : Stretch}
    (hordered : (start :: changes.map Prod.fst).Pairwise (· < ·))
    (hs : s ∈ stretchesFrom (some start) offset changes) (ht : s.contains t = true) :
    start ≤ t := by
  induction changes generalizing start offset with
  | nil =>
    rw [stretchesFrom, List.mem_singleton] at hs
    subst hs
    simpa [Stretch.contains] using ht
  | cons change rest ih =>
    obtain ⟨instant, next⟩ := change
    rcases List.mem_cons.mp hs with rfl | hs
    · simp only [Stretch.contains, Option.all_some, Bool.and_eq_true, decide_eq_true_eq] at ht
      exact ht.1
    · have hafter := ih (List.pairwise_cons.mp hordered).2 hs
      have hlt := (List.pairwise_cons.mp hordered).1 instant List.mem_cons_self
      omega

theorem offsetAt_of_contains {start : Option Int} {offset t : Int} {changes : List (Int × Int)}
    {s : Stretch} (hordered : (changes.map Prod.fst).Pairwise (· < ·))
    (hs : s ∈ stretchesFrom start offset changes) (ht : s.contains t = true) :
    offsetAt offset changes t = s.offset := by
  induction changes generalizing start offset with
  | nil =>
    rw [stretchesFrom, List.mem_singleton] at hs
    rw [hs, offsetAt]
  | cons change rest ih =>
    obtain ⟨instant, next⟩ := change
    rcases List.mem_cons.mp hs with rfl | hs
    · simp only [Stretch.contains, Option.all_some, Bool.and_eq_true, decide_eq_true_eq] at ht
      rw [offsetAt, if_pos ht.2]
    · have hafter := start_le_of_contains hordered hs ht
      rw [offsetAt, if_neg (by omega)]
      exact ih (List.pairwise_cons.mp hordered).2 hs

theorem localTime_of_contains {zone : Zone} {s : Stretch} {t : Int} (hs : s ∈ zone.stretches)
    (ht : s.contains t = true) : zone.localTime t = t + s.offset := by
  rw [Zone.localTime, offsetAt_of_contains zone.ordered hs ht]

theorem exists_contains (start : Option Int) (offset : Int) {t : Int} (changes : List (Int × Int))
    (h : start.all (· ≤ t) = true) :
    ∃ s ∈ stretchesFrom start offset changes, s.contains t = true := by
  induction changes generalizing start offset with
  | nil => exact ⟨_, List.mem_singleton_self _, by simp [Stretch.contains, h]⟩
  | cons change rest ih =>
    obtain ⟨instant, next⟩ := change
    by_cases ht : t < instant
    · exact ⟨_, List.mem_cons_self, by simp [Stretch.contains, h, ht]⟩
    · obtain ⟨s, hs, hst⟩ := ih (some instant) next (by simpa using not_lt.mp ht)
      exact ⟨s, List.mem_cons_of_mem _ hs, hst⟩

/-! ### Zones whose changes are spaced -/

/-- A change between two stretches moves local time by no more than either of them lasts. -/
def Beside (s s' : Stretch) : Prop :=
  s.outlasts |s'.offset - s.offset| = true ∧ s'.outlasts |s'.offset - s.offset| = true

def Zone.Spaced (zone : Zone) : Prop := zone.stretches.IsChain Beside

/-- A stretch is over when another begins, and neither begins nor ends later on the clock. -/
def Before (s s' : Stretch) : Prop :=
  ∃ stop start, s.stop = some stop ∧ s'.start = some start ∧ stop ≤ start ∧
    (∀ a, s.start = some a → a + s.offset ≤ start + s'.offset) ∧
    ∀ e, s'.stop = some e → start < e ∧ stop + s.offset ≤ e + s'.offset

instance : IsTrans Stretch Before := ⟨by
  rintro s s' s'' ⟨m, b, hm, hb, hmb, hstarts, hstops⟩ ⟨m', b', hm', hb', hmb', hstarts', hstops'⟩
  refine ⟨m, b', hm, hb', ?_, fun a ha => ?_, fun e he => ⟨(hstops' e he).1, ?_⟩⟩
  · have hlasts := (hstops m' hm').1
    omega
  · have hfirst := hstarts a ha
    have hsecond := hstarts' b hb
    omega
  · have hfirst := (hstops m' hm').2
    have hsecond := (hstops' e he).2
    omega⟩

theorem linked_stretchesFrom (start : Option Int) (offset : Int) (changes : List (Int × Int)) :
    (stretchesFrom start offset changes).IsChain
      (fun s s' => ∃ m, s.stop = some m ∧ s'.start = some m) := by
  induction changes generalizing start offset with
  | nil => exact .singleton _
  | cons change rest ih =>
    obtain ⟨instant, next⟩ := change
    rw [stretchesFrom]
    refine (ih (some instant) next).cons ?_
    intro s hs
    cases rest with
    | nil =>
      simp only [stretchesFrom, List.head?_cons, Option.mem_some] at hs
      exact ⟨instant, rfl, by rw [← hs]⟩
    | cons change' rest' =>
      simp only [stretchesFrom, List.head?_cons, Option.mem_some] at hs
      exact ⟨instant, rfl, by rw [← hs]⟩

theorem lasts_stretchesFrom (start : Option Int) {offset : Int} {changes : List (Int × Int)}
    (hordered : (start.toList ++ changes.map Prod.fst).Pairwise (· < ·)) {s : Stretch}
    (hs : s ∈ stretchesFrom start offset changes) {a e : Int} (ha : s.start = some a)
    (he : s.stop = some e) : a < e := by
  induction changes generalizing start offset with
  | nil =>
    rw [stretchesFrom, List.mem_singleton] at hs
    subst hs
    cases he
  | cons change rest ih =>
    obtain ⟨instant, next⟩ := change
    rcases List.mem_cons.mp hs with rfl | hs
    · simp only at ha he
      subst ha
      obtain rfl := Option.some.inj he
      exact (List.pairwise_append.mp hordered).2.2 a (by simp) instant (by simp)
    · exact ih (some instant) (by simpa using (List.pairwise_append.mp hordered).2.1) hs

theorem exists_last (start : Option Int) (offset : Int) (changes : List (Int × Int)) :
    ∃ s ∈ stretchesFrom start offset changes, s.stop = none := by
  induction changes generalizing start offset with
  | nil => exact ⟨_, List.mem_singleton_self _, rfl⟩
  | cons change rest ih =>
    obtain ⟨s, hs, hstop⟩ := ih (some change.1) change.2
    exact ⟨s, List.mem_cons_of_mem _ hs, hstop⟩

variable {zone : Zone}

theorem Zone.Spaced.adjacent (h : zone.Spaced) {pre post : List Stretch} {s s' : Stretch}
    (hsplit : zone.stretches = pre ++ s :: s' :: post) :
    Beside s s' ∧ ∃ m, s.stop = some m ∧ s'.start = some m :=
  ⟨List.isChain_iff_forall_rel_of_append_cons_cons.mp h hsplit,
    List.isChain_iff_forall_rel_of_append_cons_cons.mp (linked_stretchesFrom _ _ _) hsplit⟩

theorem Zone.Spaced.pairwise (h : zone.Spaced) : zone.stretches.Pairwise Before := by
  rw [← List.isChain_iff_pairwise, List.isChain_iff_forall_rel_of_append_cons_cons]
  intro s s' pre post hsplit
  obtain ⟨⟨hfirst, hsecond⟩, m, hm, hb⟩ := h.adjacent hsplit
  have hmem : s' ∈ zone.stretches := by simp [hsplit]
  refine ⟨m, m, hm, hb, le_rfl, fun a ha => ?_, fun e he => ⟨?_, ?_⟩⟩
  · simp only [Stretch.outlasts, ha, hm, decide_eq_true_eq] at hfirst
    have hjump := neg_abs_le (s'.offset - s.offset)
    omega
  · exact lasts_stretchesFrom none (by simpa using zone.ordered) hmem hb he
  · simp only [Stretch.outlasts, hb, he, decide_eq_true_eq] at hsecond
    have hjump := neg_abs_le (s'.offset - s.offset)
    omega

/-- A stretch that begins at `l` or later on the clock shows nothing before. -/
theorem lastBefore_eq_none {s : Stretch} {l a : Int} (ha : s.start = some a)
    (h : l - s.offset ≤ a) : s.lastBefore l = none := by
  have hearly : ∀ t, t ≤ l - 1 - s.offset → s.contains t = false := by
    intro t ht
    rw [Stretch.contains, ha, Option.all_some, decide_eq_false (by omega), Bool.false_and]
  cases hstop : s.stop with
  | none =>
    rw [Stretch.lastBefore, hstop]
    exact if_neg (by simp [hearly])
  | some e =>
    rw [Stretch.lastBefore, hstop]
    exact if_neg (by simp [hearly])

/-- A stretch that is over at `l` on the clock shows its end last. -/
theorem lastBefore_eq_some {s : Stretch} {l e : Int} (he : s.stop = some e)
    (h : e + s.offset ≤ l) (hlasts : ∀ a, s.start = some a → a < e) :
    s.lastBefore l = some (e - 1) := by
  have hmin : min (l - 1 - s.offset) (e - 1) = e - 1 := by omega
  have hcontains : s.contains (e - 1) = true := by
    rw [Stretch.contains, he, Option.all_some, Bool.and_eq_true, Option.all_eq_true]
    refine ⟨fun a ha => decide_eq_true ?_, decide_eq_true (by omega)⟩
    have hlt := hlasts a ha
    omega
  rw [Stretch.lastBefore, he]
  simp only [Option.elim_some, hmin, hcontains, if_true]

/-- The last stretch that shows an earlier local time is kept, if none shows more. -/
theorem foldl_later {l t : Int} {pre post : List Stretch} {k : Stretch}
    (hk : k.lastBefore l = some t)
    (hpre : ∀ p ∈ pre, ∀ t', p.lastBefore l = some t' → t' + p.offset ≤ t + k.offset)
    (hpost : ∀ q ∈ post, q.lastBefore l = none) :
    (pre ++ k :: post).foldl (later l) none = some k := by
  have hbest : ∀ b, pre.foldl (later l) none = some b → b ∈ pre := by
    clear hpre
    induction pre using List.reverseRecOn with
    | nil => intro b hb; cases hb
    | append_singleton pre p ih =>
      intro b hb
      rw [List.foldl_append, List.foldl_cons, List.foldl_nil, later] at hb
      split at hb
      · exact List.mem_append_left _ (ih b hb)
      · split at hb
        · exact List.mem_append_left _ (ih b hb)
        · simp [Option.some.inj hb]
  have htaken : later l (pre.foldl (later l) none) k = some k := by
    rw [later, hk]
    refine if_neg ?_
    rw [Bool.not_eq_true, Option.any_eq_false]
    intro b hb
    cases hlast : b.lastBefore l with
    | none => rfl
    | some t' =>
      have hle := hpre b (hbest b hb) t' hlast
      exact decide_eq_false (by omega)
  have hkept : ∀ q ∈ post, later l (some k) q = some k := by
    intro q hq
    rw [later, hpost q hq]
  rw [List.foldl_append, List.foldl_cons, htaken]
  clear hpost
  induction post with
  | nil => rfl
  | cons q post ih =>
    rw [List.foldl_cons, hkept q List.mem_cons_self]
    exact ih fun r hr => hkept r (List.mem_cons_of_mem _ hr)

/-- A local time denotes an instant that shows it or more, and more than all before. -/
structure Zone.Forward (zone : Zone) (l : Int) : Prop where
  reached : l ≤ zone.localTime (zone.utc l)
  first : ∀ t, t < zone.utc l → zone.localTime t < zone.localTime (zone.utc l)

/-- The stretches that are over on the clock before `l`, and the first that is not. -/
structure Split (zone : Zone) (l : Int) (pre : List Stretch) (s : Stretch) (post : List Stretch) :
    Prop where
  whole : zone.stretches = pre ++ s :: post
  ended : ∀ p ∈ pre, ∃ m, p.stop = some m ∧ m + p.offset ≤ l
  running : ∀ m, s.stop = some m → l < m + s.offset

theorem exists_split (zone : Zone) (l : Int) : ∃ pre s post, Split zone l pre s post := by
  let ended : Stretch → Bool := fun s => s.stop.any fun m => m + s.offset ≤ l
  obtain ⟨last, hlast, hstop⟩ := exists_last none zone.initial zone.changes
  cases hdrop : zone.stretches.dropWhile ended with
  | nil =>
    have hover := List.dropWhile_eq_nil_iff.mp hdrop last hlast
    simp [ended, hstop] at hover
  | cons s post =>
    refine ⟨zone.stretches.takeWhile ended, s, post, ?_, fun p hp => ?_, fun m hm => ?_⟩
    · rw [← hdrop, List.takeWhile_append_dropWhile]
    · have hover := List.mem_takeWhile_imp hp
      obtain ⟨m, hm, hle⟩ := Option.any_eq_true _ _ |>.mp hover
      exact ⟨m, hm, of_decide_eq_true hle⟩
    · have hnot : ended s = false := by
        have hhead := List.head?_dropWhile_not ended zone.stretches
        rw [hdrop] at hhead
        simpa using hhead
      simp only [ended, hm, Option.any_some, decide_eq_false_iff_not, not_le] at hnot
      exact hnot

section

variable {l : Int} {pre post : List Stretch} {s : Stretch}

theorem Split.mem (hsplit : Split zone l pre s post) : s ∈ zone.stretches := by
  simp [hsplit.whole]

theorem Split.before (h : zone.Spaced) (hsplit : Split zone l pre s post) :
    pre.Pairwise Before ∧ ∀ q ∈ post, Before s q := by
  have hpairwise := h.pairwise
  rw [hsplit.whole, List.pairwise_append] at hpairwise
  exact ⟨hpairwise.1, (List.pairwise_cons.mp hpairwise.2.1).1⟩

/-- What is over does not show the local time. -/
theorem Split.filter_pre (hsplit : Split zone l pre s post) :
    (pre.filter fun p => p.contains (l - p.offset)) = [] := by
  rw [List.filter_eq_nil_iff]
  intro p hp
  obtain ⟨m, hm, hle⟩ := hsplit.ended p hp
  simp only [Stretch.contains, hm, Option.all_some, Bool.and_eq_true, decide_eq_true_eq]
  omega

/-- An instant of the first stretch that is not over shows more than all before. -/
theorem Split.first (h : zone.Spaced) (hsplit : Split zone l pre s post) {c : Int}
    (hc : s.contains c = true) (hle : l ≤ c + s.offset) :
    l ≤ zone.localTime c ∧ ∀ t, t < c → zone.localTime t < zone.localTime c := by
  have hlocal := localTime_of_contains hsplit.mem hc
  refine ⟨by omega, ?_⟩
  intro t ht
  obtain ⟨r, hr, hrt⟩ := exists_contains none zone.initial (t := t) zone.changes rfl
  have hrlocal := localTime_of_contains hr hrt
  have hwhere : r ∈ pre ∨ r = s ∨ r ∈ post := by
    have hmem : r ∈ zone.stretches := hr
    simpa [hsplit.whole] using hmem
  rcases hwhere with hpre | rfl | hpost
  · obtain ⟨m, hm, hover⟩ := hsplit.ended r hpre
    simp only [Stretch.contains, hm, Option.all_some, Bool.and_eq_true, decide_eq_true_eq] at hrt
    omega
  · omega
  · obtain ⟨m, b, hm, hb, hmb, -⟩ := (hsplit.before h).2 r hpost
    simp only [Stretch.contains, hm, hb, Option.all_some, Bool.and_eq_true, decide_eq_true_eq]
      at hc hrt
    omega

/-- A local time that is shown denotes its first instant. -/
theorem Split.utc_of_shown (hsplit : Split zone l pre s post)
    (hs : s.contains (l - s.offset) = true) : zone.utc l = l - s.offset := by
  have hinstants : zone.instants l = (l - s.offset) ::
      (post.filter fun q => q.contains (l - q.offset)).map (l - ·.offset) := by
    have hfilter := List.filter_cons_of_pos (p := fun q => q.contains (l - q.offset)) (l := post) hs
    rw [Zone.instants, hsplit.whole, List.filter_append, hsplit.filter_pre, List.nil_append,
      hfilter]
    rfl
  rw [Zone.utc, hinstants]

/-- A local time that is skipped denotes an instant of the stretch behind the change. -/
theorem Split.utc_of_skipped (h : zone.Spaced) (hsplit : Split zone l pre s post) {b : Int}
    (hb : s.start = some b) (hskipped : l - s.offset < b) :
    s.contains (zone.utc l) = true ∧ l < zone.utc l + s.offset := by
  obtain ⟨hbefore, hafter⟩ := hsplit.before h
  -- the change is between the last stretch `k` that is over and `s`
  obtain ⟨pre, k, rfl⟩ : ∃ init k, pre = init ++ [k] := by
    rcases pre.eq_nil_or_concat with rfl | ⟨init, k, rfl⟩
    · have hfirst : zone.stretches.head?.bind Stretch.start = none := by
        unfold Zone.stretches
        cases zone.changes <;> rfl
      rw [hsplit.whole] at hfirst
      simp [hb] at hfirst
    · exact ⟨init, k, by simp⟩
  have hwhole : zone.stretches = pre ++ k :: s :: post := by simpa using hsplit.whole
  obtain ⟨⟨-, hlasts⟩, m, hm, hstart⟩ := h.adjacent hwhole
  obtain rfl : b = m := Option.some.inj (hb.symm.trans hstart)
  obtain ⟨m', hm', hover⟩ := hsplit.ended k (by simp)
  obtain rfl : b = m' := Option.some.inj (hm.symm.trans hm')
  have hpost : ∀ q ∈ s :: post, ∃ a, q.start = some a ∧ l - q.offset < a := by
    intro q hq
    rcases List.mem_cons.mp hq with rfl | hq
    · exact ⟨b, hb, hskipped⟩
    · obtain ⟨m', b', hm', hb', -, hstarts, -⟩ := hafter q hq
      have hle := hstarts b hb
      exact ⟨b', hb', by omega⟩
  have hlast : ∀ p ∈ pre ++ [k], ∀ e, p.stop = some e → p.lastBefore l = some (e - 1) := by
    intro p hp e he
    obtain ⟨e', he', hle⟩ := hsplit.ended p hp
    obtain rfl : e = e' := Option.some.inj (he.symm.trans he')
    have hmem : p ∈ zone.stretches := by
      rw [hsplit.whole]
      exact List.mem_append_left _ hp
    exact lastBefore_eq_some he hle fun a ha =>
      lasts_stretchesFrom none (by simpa using zone.ordered) hmem ha he
  have hutc : zone.utc l = l - k.offset := by
    have hinstants : zone.instants l = [] := by
      have hfilter : ((s :: post).filter fun q => q.contains (l - q.offset)) = [] := by
        rw [List.filter_eq_nil_iff]
        intro q hq
        obtain ⟨a, ha, hlt⟩ := hpost q hq
        simp only [Stretch.contains, ha, Option.all_some, Bool.and_eq_true, decide_eq_true_eq]
        omega
      rw [Zone.instants, hsplit.whole, List.filter_append, hsplit.filter_pre, hfilter]
      rfl
    have hfold : zone.stretches.foldl (later l) none = some k := by
      rw [hwhole]
      refine foldl_later (hlast k (by simp) b hm) ?_ ?_
      · intro p hp t' ht'
        obtain ⟨e, b', he, -, -, -, hstops⟩ :=
          (List.pairwise_append.mp hbefore).2.2 p hp k (List.mem_singleton_self k)
        rw [hlast p (List.mem_append_left _ hp) e he] at ht'
        have hle := (hstops b hm).2
        obtain rfl := Option.some.inj ht'
        omega
      · intro q hq
        obtain ⟨a, ha, hlt⟩ := hpost q hq
        exact lastBefore_eq_none ha hlt.le
    rw [Zone.utc, hinstants]
    simp only [hfold, Option.map_some, Option.getD_some]
  rw [hutc]
  refine ⟨?_, by omega⟩
  rw [Stretch.contains, hb, Option.all_some, Bool.and_eq_true, Option.all_eq_true]
  refine ⟨decide_eq_true (by omega), fun e he => decide_eq_true ?_⟩
  simp only [Stretch.outlasts, hb, he, decide_eq_true_eq] at hlasts
  have hjump := le_abs_self (s.offset - k.offset)
  omega

end

/-- Where the changes are spaced, every local time is read forward. -/
theorem Zone.Spaced.forward (h : zone.Spaced) (l : Int) : zone.Forward l := by
  obtain ⟨pre, s, post, hsplit⟩ := exists_split zone l
  by_cases hshown : s.contains (l - s.offset) = true
  · have hutc := hsplit.utc_of_shown hshown
    rw [← hutc] at hshown
    obtain ⟨hreached, hfirst⟩ := hsplit.first h hshown (by omega)
    exact ⟨hreached, hfirst⟩
  · have hstart : ∃ b, s.start = some b ∧ l - s.offset < b := by
      rw [Stretch.contains, Bool.and_eq_true, not_and_or] at hshown
      rcases hshown with hearly | hlate
      · rw [Option.all_eq_true] at hearly
        push Not at hearly
        obtain ⟨b, hb, hlt⟩ := hearly
        exact ⟨b, hb, by simpa using hlt⟩
      · refine absurd ?_ hlate
        rw [Option.all_eq_true]
        intro m hm
        have hlt := hsplit.running m hm
        exact decide_eq_true (by omega)
    obtain ⟨b, hb, hlt⟩ := hstart
    obtain ⟨hcontains, hle⟩ := hsplit.utc_of_skipped h hb hlt
    obtain ⟨hreached, hfirst⟩ := hsplit.first h hcontains hle.le
    exact ⟨hreached, hfirst⟩

/-- A local time that is more than another's instant shows denotes a later instant. -/
theorem utc_lt_utc {l l' : Int} (h : zone.Forward l) (h' : zone.Forward l')
    (hlt : zone.localTime (zone.utc l) < l') : zone.utc l < zone.utc l' := by
  by_contra hnot
  have hreached := h'.reached
  rcases (not_lt.mp hnot).lt_or_eq with hearlier | heq
  · have hshown := h.first _ hearlier
    omega
  · rw [heq] at hreached
    omega

/-- A zone without changes. -/
def Zone.fixed (offset : Int) : Zone := ⟨offset, [], .nil⟩

@[simp] theorem localTime_fixed (offset t : Int) : (Zone.fixed offset).localTime t = t + offset :=
  rfl

@[simp] theorem utc_fixed (offset l : Int) : (Zone.fixed offset).utc l = l - offset := rfl

/-! ### Dates

A date is a time, or `none` if it is invalid. -/

def hourFromTime (time : Int) : Int := time / 3600000 % 24

def minFromTime (time : Int) : Int := time / 60000 % 60

def makeTime (hour minute second millisecond : Int) : Int :=
  hour * 3600000 + minute * 60000 + second * 1000 + millisecond

def makeDate (day time : Int) : Int := day * 86400000 + time

/-- `setMinutes(minute, second, millisecond)`. -/
def setMinutes (zone : Zone) (minute second millisecond : Int) (value : Option Int) : Option Int :=
  value.bind fun t =>
    let l := zone.localTime t
    timeClip (.finite (zone.utc
      (makeDate (dayOfTime l) (makeTime (hourFromTime l) minute second millisecond))))

/-- `setSeconds(second, millisecond)`. -/
def setSeconds (zone : Zone) (second millisecond : Int) (value : Option Int) : Option Int :=
  value.bind fun t =>
    let l := zone.localTime t
    timeClip (.finite (zone.utc
      (makeDate (dayOfTime l) (makeTime (hourFromTime l) (minFromTime l) second millisecond))))

theorem timeClip_intCast (t : Int) :
    timeClip (.finite t) = if -maxTime ≤ t ∧ t ≤ maxTime then some t else none := by
  have htrunc : trunc (t : ℚ) = t := by simp [trunc]
  have hrange : (-(maxTime : ℚ) ≤ (t : ℚ) ∧ (t : ℚ) ≤ maxTime) ↔ -maxTime ≤ t ∧ t ≤ maxTime := by
    norm_cast
  rw [timeClip, htrunc]
  exact if_congr hrange rfl rfl

theorem trunc_bounds (x : ℚ) : x - 1 < trunc x ∧ (trunc x : ℚ) < x + 1 := by
  unfold trunc
  split
  · have hlow : x - 1 < x.floor := Rat.lt_floor
    have hhigh : (x.floor : ℚ) ≤ x := Rat.floor_le x
    exact ⟨hlow, by linarith⟩
  · have hlow : x ≤ x.ceil := Rat.le_ceil
    have hhigh : (x.ceil : ℚ) < x + 1 := Rat.ceil_lt
    exact ⟨by linarith, hhigh⟩

/-- The beginning of a minute. -/
def minuteStart (time : Int) : Int := time - time % 60000

theorem setSeconds_zero (zone : Zone) (t : Int) :
    setSeconds zone 0 0 (some t) = timeClip (.finite (zone.utc (minuteStart (zone.localTime t)))) := by
  have hdate : ∀ l : Int, makeDate (dayOfTime l) (makeTime (hourFromTime l) (minFromTime l) 0 0) =
      minuteStart l := by
    intro l
    unfold makeDate dayOfTime makeTime hourFromTime minFromTime minuteStart
    omega
  rw [← hdate]
  rfl

/-- The minute after the one that the clock shows. -/
theorem setMinutes_succ (zone : Zone) (t : Int) :
    setMinutes zone (minFromTime (zone.localTime t) + 1) 0 0 (some t) =
      timeClip (.finite (zone.utc (minuteStart (zone.localTime t) + 60000))) := by
  have hdate : ∀ l : Int,
      makeDate (dayOfTime l) (makeTime (hourFromTime l) (minFromTime l + 1) 0 0) =
        minuteStart l + 60000 := by
    intro l
    unfold makeDate dayOfTime makeTime hourFromTime minFromTime minuteStart
    omega
  rw [← hdate]
  rfl

end MissionControl.Foundations.TimeZones
