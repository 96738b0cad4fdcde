import Mathlib.Data.List.Basic

/-!
Regular expressions in the syntax of ECMAScript, restricted to literals, escapes, character
sets, counted repetition, groups, alternatives and the two anchors. A pattern is tokenized and
parsed from left to right, so that a pattern with a quoted text in it is read piece by piece.
-/

set_option autoImplicit false
set_option relaxedAutoImplicit false

namespace MissionControl.Foundations.RegularExpression

inductive Re where
  | empty
  | char (c : Char)
  | oneOf (ranges : List (Char × Char))
  | start
  | stop
  | seq (r q : Re)
  | alt (r q : Re)
  | rep (r : Re) (least most : Nat)
  deriving DecidableEq

def inRanges (ranges : List (Char × Char)) (c : Char) : Bool :=
  ranges.any fun range => range.1 ≤ c && c ≤ range.2

/-! ### Matching -/

/-- How many characters were consumed, and those that are left. -/
abbrev Position := Nat × List Char

/-- Between `least` and `most` rounds of `f`. -/
def rounds (f : Position → List Position) : Nat → Nat → Position → List Position
  | 0, 0, p => [p]
  | _ + 1, 0, _ => []
  | 0, most + 1, p => p :: (f p).flatMap (rounds f 0 most)
  | least + 1, most + 1, p => (f p).flatMap (rounds f least most)

/-- Every position that a match from `p` can end at. -/
def run : Re → Position → List Position
  | .empty, p => [p]
  | .char c, (n, d :: cs) => if d = c then [(n + 1, cs)] else []
  | .char _, (_, []) => []
  | .oneOf ranges, (n, d :: cs) => if inRanges ranges d then [(n + 1, cs)] else []
  | .oneOf _, (_, []) => []
  | .start, (n, cs) => if n = 0 then [(n, cs)] else []
  | .stop, (n, cs) => if cs = [] then [(n, cs)] else []
  | .seq r q, p => (run r p).flatMap (run q)
  | .alt r q, p => run r p ++ run q p
  | .rep r least most, p => rounds (run r) least most p

/-- The positions at which a match may begin. -/
def beginnings : Nat → List Char → List Position
  | n, [] => [(n, [])]
  | n, c :: cs => (n, c :: cs) :: beginnings (n + 1) cs

/-- `RegExp.prototype.test`. -/
def test (r : Re) (s : List Char) : Bool := (beginnings 0 s).any fun p => run r p ≠ []

/-- The meaning of a regular expression: it leads from one position to another. -/
inductive Matches : Re → Position → Position → Prop
  | empty (p : Position) : Matches .empty p p
  | char (n : Nat) (c : Char) (cs : List Char) : Matches (.char c) (n, c :: cs) (n + 1, cs)
  | oneOf {ranges : List (Char × Char)} {c : Char} (n : Nat) (cs : List Char)
      (h : inRanges ranges c = true) : Matches (.oneOf ranges) (n, c :: cs) (n + 1, cs)
  | start (cs : List Char) : Matches .start (0, cs) (0, cs)
  | stop (n : Nat) : Matches .stop (n, []) (n, [])
  | seq {r q : Re} {p p' p'' : Position} (hr : Matches r p p') (hq : Matches q p' p'') :
      Matches (.seq r q) p p''
  | altLeft {r q : Re} {p p' : Position} (hr : Matches r p p') : Matches (.alt r q) p p'
  | altRight {r q : Re} {p p' : Position} (hq : Matches q p p') : Matches (.alt r q) p p'
  | done (r : Re) (most : Nat) (p : Position) : Matches (.rep r 0 most) p p
  | again {r : Re} {least most : Nat} {p p' p'' : Position} (hr : Matches r p p')
      (hrest : Matches (.rep r (least - 1) most) p' p'') : Matches (.rep r least (most + 1)) p p''

theorem mem_rounds_iff {r : Re} (h : ∀ p p', p' ∈ run r p ↔ Matches r p p') (least most : Nat)
    (p p' : Position) : p' ∈ rounds (run r) least most p ↔ Matches (.rep r least most) p p' := by
  induction most generalizing least p with
  | zero =>
    cases least with
    | zero =>
      constructor
      · intro hmem
        obtain rfl := List.mem_singleton.mp hmem
        exact .done r 0 _
      · intro hmatch
        cases hmatch
        exact List.mem_singleton_self _
    | succ least =>
      constructor
      · intro hmem
        cases hmem
      · intro hmatch
        cases hmatch
  | succ most ih =>
    cases least with
    | zero =>
      constructor
      · intro hmem
        rcases List.mem_cons.mp hmem with rfl | hmem
        · exact .done r (most + 1) _
        · obtain ⟨q, hq, hrest⟩ := List.mem_flatMap.mp hmem
          exact .again ((h p q).mp hq) ((ih 0 q).mp hrest)
      · intro hmatch
        cases hmatch with
        | done => exact List.mem_cons_self
        | @again _ _ _ _ q _ hr hrest =>
          refine List.mem_cons_of_mem _ (List.mem_flatMap.mpr ⟨q, (h p q).mpr hr, ?_⟩)
          exact (ih 0 q).mpr hrest
    | succ least =>
      constructor
      · intro hmem
        obtain ⟨q, hq, hrest⟩ := List.mem_flatMap.mp hmem
        exact .again ((h p q).mp hq) ((ih least q).mp hrest)
      · intro hmatch
        cases hmatch with
        | @again _ _ _ _ q _ hr hrest =>
          exact List.mem_flatMap.mpr ⟨q, (h p q).mpr hr, (ih least q).mpr hrest⟩

/-- The matcher finds exactly the positions that the meaning allows. -/
theorem mem_run_iff (r : Re) (p p' : Position) : p' ∈ run r p ↔ Matches r p p' := by
  induction r generalizing p p' with
  | empty =>
    constructor
    · intro hmem
      obtain rfl := List.mem_singleton.mp hmem
      exact .empty _
    · intro hmatch
      cases hmatch
      exact List.mem_singleton_self p
  | char c =>
    obtain ⟨n, cs⟩ := p
    cases cs with
    | nil =>
      constructor
      · intro hmem
        cases hmem
      · intro hmatch
        cases hmatch
    | cons d cs =>
      rw [run, List.mem_ite_nil_right, List.mem_singleton]
      constructor
      · rintro ⟨rfl, rfl⟩
        exact .char n d cs
      · intro hmatch
        cases hmatch
        exact ⟨rfl, rfl⟩
  | oneOf ranges =>
    obtain ⟨n, cs⟩ := p
    cases cs with
    | nil =>
      constructor
      · intro hmem
        cases hmem
      · intro hmatch
        cases hmatch
    | cons d cs =>
      rw [run, List.mem_ite_nil_right, List.mem_singleton]
      constructor
      · rintro ⟨hd, rfl⟩
        exact .oneOf n cs hd
      · intro hmatch
        cases hmatch with
        | oneOf _ _ hd => exact ⟨hd, rfl⟩
  | start =>
    obtain ⟨n, cs⟩ := p
    rw [run, List.mem_ite_nil_right, List.mem_singleton]
    constructor
    · rintro ⟨rfl, rfl⟩
      exact .start cs
    · intro hmatch
      cases hmatch
      exact ⟨rfl, rfl⟩
  | stop =>
    obtain ⟨n, cs⟩ := p
    rw [run, List.mem_ite_nil_right, List.mem_singleton]
    constructor
    · rintro ⟨rfl, rfl⟩
      exact .stop n
    · intro hmatch
      cases hmatch
      exact ⟨rfl, rfl⟩
  | seq r q ihr ihq =>
    rw [run, List.mem_flatMap]
    constructor
    · rintro ⟨s, hs, hrest⟩
      exact .seq ((ihr p s).mp hs) ((ihq s p').mp hrest)
    · intro hmatch
      cases hmatch with
      | @seq _ _ _ s _ hr hq => exact ⟨s, (ihr p s).mpr hr, (ihq s p').mpr hq⟩
  | alt r q ihr ihq =>
    rw [run, List.mem_append]
    constructor
    · rintro (hmem | hmem)
      · exact .altLeft ((ihr p p').mp hmem)
      · exact .altRight ((ihq p p').mp hmem)
    · intro hmatch
      cases hmatch with
      | altLeft hr => exact .inl ((ihr p p').mpr hr)
      | altRight hq => exact .inr ((ihq p p').mpr hq)
  | rep r least most ih => exact mem_rounds_iff ih least most p p'

theorem mem_beginnings {n : Nat} {s : List Char} {p : Position} (h : p ∈ beginnings n s) :
    n ≤ p.1 ∧ (p.1 = n → p.2 = s) := by
  induction s generalizing n with
  | nil =>
    obtain rfl := List.mem_singleton.mp h
    exact ⟨Nat.le_refl n, fun _ => rfl⟩
  | cons c cs ih =>
    rcases List.mem_cons.mp h with rfl | h
    · exact ⟨Nat.le_refl n, fun _ => rfl⟩
    · obtain ⟨hle, -⟩ := ih h
      refine ⟨by omega, ?_⟩
      intro heq
      omega

theorem test_of_matches {r : Re} {s : List Char} {p : Position} (h : Matches r (0, s) p) :
    test r s = true := by
  unfold test
  rw [List.any_eq_true]
  refine ⟨(0, s), ?_, ?_⟩
  · cases s <;> exact List.mem_cons_self
  · have hmem := (mem_run_iff r (0, s) p).mpr h
    refine decide_eq_true ?_
    intro hnil
    rw [hnil] at hmem
    cases hmem

/-- An expression that begins with the anchor is tried at the beginning only. -/
theorem matches_of_test {r : Re} {s : List Char} (h : test (.seq .start r) s = true) :
    ∃ p, Matches r (0, s) p := by
  unfold test at h
  obtain ⟨p, hp, hrun⟩ := List.any_eq_true.mp h
  obtain ⟨q, hq⟩ := List.exists_mem_of_ne_nil _ (of_decide_eq_true hrun)
  have hmatch := (mem_run_iff _ p q).mp hq
  obtain ⟨n, cs⟩ := p
  cases hmatch with
  | seq hstart hr =>
    cases hstart
    obtain rfl : cs = s := (mem_beginnings hp).2 rfl
    exact ⟨q, hr⟩

/-! ### Sequences and repeated sets -/

def seqAll (rs : List Re) : Re := rs.foldr .seq .empty

theorem matches_seqAll_nil {p q : Position} : Matches (seqAll []) p q ↔ q = p := by
  constructor
  · intro h
    cases h
    rfl
  · rintro rfl
    exact .empty q

theorem matches_seqAll_cons {r : Re} {rs : List Re} {p q : Position} :
    Matches (seqAll (r :: rs)) p q ↔ ∃ s, Matches r p s ∧ Matches (seqAll rs) s q := by
  constructor
  · intro h
    cases h with
    | seq hr hrs => exact ⟨_, hr, hrs⟩
  · rintro ⟨s, hr, hrs⟩
    exact .seq hr hrs

theorem matches_seqAll_append {rs qs : List Re} {p q : Position} :
    Matches (seqAll (rs ++ qs)) p q ↔ ∃ s, Matches (seqAll rs) p s ∧ Matches (seqAll qs) s q := by
  induction rs generalizing p with
  | nil =>
    constructor
    · intro h
      exact ⟨p, .empty p, h⟩
    · rintro ⟨s, hs, h⟩
      rw [matches_seqAll_nil] at hs
      rw [← hs]
      exact h
  | cons r rs ih =>
    rw [List.cons_append, matches_seqAll_cons]
    constructor
    · rintro ⟨s, hr, hrest⟩
      obtain ⟨t, hrs, hqs⟩ := ih.mp hrest
      exact ⟨t, matches_seqAll_cons.mpr ⟨s, hr, hrs⟩, hqs⟩
    · rintro ⟨t, hrs, hqs⟩
      obtain ⟨s, hr, hrest⟩ := matches_seqAll_cons.mp hrs
      exact ⟨s, hr, ih.mpr ⟨t, hrest, hqs⟩⟩

/-- The literal characters of a text match exactly that text. -/
theorem matches_chars (w cs : List Char) (n : Nat) :
    Matches (seqAll (w.map .char)) (n, w ++ cs) (n + w.length, cs) := by
  induction w generalizing n with
  | nil => exact .empty _
  | cons c w ih =>
    have hrest := ih (n + 1)
    rw [show n + 1 + w.length = n + (c :: w).length by simp; omega] at hrest
    exact .seq (.char n c _) hrest

/-- A repeated character set consumes a run of its characters of an allowed length. -/
theorem matches_rep_oneOf {ranges : List (Char × Char)} {least most : Nat} {p q : Position} :
    Matches (.rep (.oneOf ranges) least most) p q ↔
      ∃ w, p.2 = w ++ q.2 ∧ q.1 = p.1 + w.length ∧ (∀ c ∈ w, inRanges ranges c = true) ∧
        least ≤ w.length ∧ w.length ≤ most := by
  induction most generalizing least p with
  | zero =>
    constructor
    · intro h
      cases h
      exact ⟨[], rfl, rfl, by simp, by simp, by simp⟩
    · rintro ⟨w, hsplit, hcount, -, hleast, hmost⟩
      have hw : w = [] := List.length_eq_zero_iff.mp (by omega)
      subst hw
      have hpq : p = q := Prod.ext hcount.symm hsplit
      have hzero : least = 0 := by simpa using hleast
      rw [hzero, hpq]
      exact .done _ 0 q
  | succ most ih =>
    constructor
    · intro h
      cases h with
      | done => exact ⟨[], rfl, rfl, by simp, by simp, by simp⟩
      | again hr hrest =>
        cases hr with
        | @oneOf _ c n cs hc =>
          obtain ⟨w, hsplit, hcount, hall, hleast, hmost⟩ := ih.mp hrest
          dsimp only at hsplit hcount
          refine ⟨c :: w, ?_, ?_, ?_, ?_, ?_⟩
          · rw [hsplit]
            rfl
          · rw [hcount, List.length_cons]
            show n + 1 + w.length = n + (w.length + 1)
            omega
          · intro d hd
            rcases List.mem_cons.mp hd with rfl | hd
            · exact hc
            · exact hall d hd
          · rw [List.length_cons]
            omega
          · rw [List.length_cons]
            omega
    · rintro ⟨w, hsplit, hcount, hall, hleast, hmost⟩
      obtain ⟨n, cs⟩ := p
      cases w with
      | nil =>
        have hpq : (n, cs) = q := Prod.ext hcount.symm hsplit
        have hzero : least = 0 := by simpa using hleast
        rw [hzero, hpq]
        exact .done _ _ q
      | cons c w =>
        dsimp only at hsplit hcount
        rw [List.length_cons] at hcount hleast hmost
        subst hsplit
        refine .again (.oneOf n (w ++ q.2) (hall c List.mem_cons_self)) (ih.mpr ⟨w, rfl, ?_, ?_, ?_, ?_⟩)
        · show q.1 = n + 1 + w.length
          omega
        · intro d hd
          exact hall d (List.mem_cons_of_mem _ hd)
        · omega
        · omega

theorem matches_oneOf {ranges : List (Char × Char)} {p q : Position} :
    Matches (.oneOf ranges) p q ↔
      ∃ c, p.2 = c :: q.2 ∧ q.1 = p.1 + 1 ∧ inRanges ranges c = true := by
  constructor
  · intro h
    cases h with
    | @oneOf _ c n cs hc => exact ⟨c, rfl, rfl, hc⟩
  · rintro ⟨c, hsplit, hcount, hc⟩
    obtain ⟨n, cs⟩ := p
    obtain ⟨m, ds⟩ := q
    dsimp only at hsplit hcount
    subst hsplit hcount
    exact .oneOf n ds hc

theorem matches_stop {p q : Position} : Matches .stop p q ↔ p.2 = [] ∧ q = p := by
  constructor
  · intro h
    cases h
    exact ⟨rfl, rfl⟩
  · rintro ⟨hnil, rfl⟩
    obtain ⟨n, cs⟩ := q
    dsimp only at hnil
    subst hnil
    exact .stop n

/-! ### Pieces of an anchored pattern -/

/-- The expressions, one after the other, match exactly the text `w` wherever it stands. -/
def Consumes (rs : List Re) (w : List Char) : Prop :=
  ∀ n rest, Matches (seqAll rs) (n, w ++ rest) (n + w.length, rest)

theorem Consumes.append {rs qs : List Re} {w v : List Char} (h : Consumes rs w)
    (h' : Consumes qs v) : Consumes (rs ++ qs) (w ++ v) := by
  intro n rest
  have hfirst := h n (v ++ rest)
  have hsecond := h' (n + w.length) rest
  rw [Nat.add_assoc, ← List.length_append] at hsecond
  rw [List.append_assoc]
  exact matches_seqAll_append.mpr ⟨_, hfirst, hsecond⟩

theorem consumes_single {r : Re} {w : List Char}
    (h : ∀ n rest, Matches r (n, w ++ rest) (n + w.length, rest)) : Consumes [r] w := by
  intro n rest
  exact matches_seqAll_cons.mpr ⟨_, h n rest, .empty _⟩

theorem consumes_chars (w : List Char) : Consumes (w.map .char) w := fun n rest =>
  matches_chars w rest n

theorem Consumes.group {rs : List Re} {w : List Char} (h : Consumes rs w) :
    Consumes [seqAll rs] w := consumes_single h

theorem Consumes.altLeft {rs : List Re} {w : List Char} (h : Consumes rs w) (q : Re) :
    Consumes [.alt (seqAll rs) q] w := consumes_single fun n rest => .altLeft (h n rest)

theorem Consumes.altRight {rs : List Re} {w : List Char} (h : Consumes rs w) (r : Re) :
    Consumes [.alt r (seqAll rs)] w := consumes_single fun n rest => .altRight (h n rest)

theorem consumes_oneOf {ranges : List (Char × Char)} {c : Char} (h : inRanges ranges c = true) :
    Consumes [.oneOf ranges] [c] := consumes_single fun n rest => .oneOf n rest h

theorem consumes_rep_oneOf {ranges : List (Char × Char)} {least most : Nat} {w : List Char}
    (hall : ∀ c ∈ w, inRanges ranges c = true) (hleast : least ≤ w.length)
    (hmost : w.length ≤ most) : Consumes [.rep (.oneOf ranges) least most] w :=
  consumes_single fun _ _ => matches_rep_oneOf.mpr ⟨w, rfl, rfl, hall, hleast, hmost⟩

/-- A text passes an anchored pattern whose expressions match it. -/
theorem test_of_consumes {rs : List Re} {w : List Char} (h : Consumes rs w) :
    test (seqAll (.start :: (rs ++ [.stop]))) w = true := by
  have hbody := h 0 []
  rw [List.append_nil] at hbody
  refine test_of_matches (p := (0 + w.length, [])) ?_
  refine matches_seqAll_cons.mpr ⟨(0, w), .start w, ?_⟩
  refine matches_seqAll_append.mpr ⟨_, hbody, ?_⟩
  exact matches_seqAll_cons.mpr ⟨_, .stop _, .empty _⟩

/-! ### What an anchored pattern accepts -/

/-- Whatever the expressions match, one after the other, is a text of the language. -/
def Reads (rs : List Re) (language : List Char → Prop) : Prop :=
  ∀ p q, Matches (seqAll rs) p q → ∃ w, p.2 = w ++ q.2 ∧ language w

theorem Reads.append {rs qs : List Re} {first second : List Char → Prop} (h : Reads rs first)
    (h' : Reads qs second) :
    Reads (rs ++ qs) (fun w => ∃ a b, w = a ++ b ∧ first a ∧ second b) := by
  intro p q hmatch
  obtain ⟨s, hrs, hqs⟩ := matches_seqAll_append.mp hmatch
  obtain ⟨a, ha, hfirst⟩ := h p s hrs
  obtain ⟨b, hb, hsecond⟩ := h' s q hqs
  refine ⟨a ++ b, ?_, a, b, rfl, hfirst, hsecond⟩
  rw [ha, hb, List.append_assoc]

theorem reads_single {r : Re} {language : List Char → Prop}
    (h : ∀ p q, Matches r p q → ∃ w, p.2 = w ++ q.2 ∧ language w) : Reads [r] language := by
  intro p q hmatch
  obtain ⟨s, hr, hnil⟩ := matches_seqAll_cons.mp hmatch
  obtain rfl := matches_seqAll_nil.mp hnil
  exact h p q hr

theorem Reads.group {rs : List Re} {language : List Char → Prop} (h : Reads rs language) :
    Reads [seqAll rs] language := reads_single h

theorem reads_chars (v : List Char) : Reads (v.map .char) (· = v) := by
  induction v with
  | nil =>
    intro p q hmatch
    rw [matches_seqAll_nil.mp hmatch]
    exact ⟨[], rfl, rfl⟩
  | cons c v ih =>
    intro p q hmatch
    obtain ⟨s, hchar, hrest⟩ := matches_seqAll_cons.mp hmatch
    obtain ⟨w, hw, rfl⟩ := ih s q hrest
    cases hchar
    exact ⟨c :: w, congrArg (c :: ·) hw, rfl⟩

theorem reads_oneOf {ranges : List (Char × Char)} :
    Reads [.oneOf ranges] (fun w => ∃ c, w = [c] ∧ inRanges ranges c = true) := by
  apply reads_single
  intro p q hmatch
  obtain ⟨c, hc, -, hrange⟩ := matches_oneOf.mp hmatch
  exact ⟨[c], hc, c, rfl, hrange⟩

theorem reads_rep_oneOf {ranges : List (Char × Char)} {least most : Nat} :
    Reads [.rep (.oneOf ranges) least most]
      (fun w => (∀ c ∈ w, inRanges ranges c = true) ∧ least ≤ w.length ∧ w.length ≤ most) := by
  apply reads_single
  intro p q hmatch
  obtain ⟨w, hw, -, hlanguage⟩ := matches_rep_oneOf.mp hmatch
  exact ⟨w, hw, hlanguage⟩

theorem Reads.alt {rs qs : List Re} {first second : List Char → Prop} (h : Reads rs first)
    (h' : Reads qs second) :
    Reads [.alt (seqAll rs) (seqAll qs)] (fun w => first w ∨ second w) := by
  apply reads_single
  intro p q hmatch
  cases hmatch with
  | altLeft hrs =>
    obtain ⟨w, hw, hfirst⟩ := h p q hrs
    exact ⟨w, hw, .inl hfirst⟩
  | altRight hqs =>
    obtain ⟨w, hw, hsecond⟩ := h' p q hqs
    exact ⟨w, hw, .inr hsecond⟩

/-- A text that passes an anchored pattern is of the language of its expressions. -/
theorem Reads.of_test {rs : List Re} {language : List Char → Prop} (h : Reads rs language)
    {s : List Char} (htest : test (seqAll (.start :: (rs ++ [.stop]))) s = true) : language s := by
  obtain ⟨p, hp⟩ := matches_of_test htest
  obtain ⟨q, hrs, hend⟩ := matches_seqAll_append.mp hp
  obtain ⟨_, hstop, -⟩ := matches_seqAll_cons.mp hend
  obtain ⟨w, hw, hlanguage⟩ := h (0, s) q hrs
  obtain ⟨hnil, -⟩ := matches_stop.mp hstop
  rw [hnil, List.append_nil] at hw
  rw [show s = w from hw]
  exact hlanguage

/-! ### Patterns -/

inductive Token where
  | char (c : Char)
  | oneOf (ranges : List (Char × Char))
  | «open»
  | close
  | bar
  | caret
  | dollar
  | count (least most : Nat)
  deriving DecidableEq

/-- What the tokenizer is in the middle of. -/
inductive Mode where
  | plain
  | escaped
  | set (ranges : List (Char × Char)) (last : Option Char)
  | range (ranges : List (Char × Char)) (first : Char)
  | least (n : Nat)
  | most (least n : Nat)
  deriving DecidableEq

/-- The characters that have a meaning of their own in a pattern. -/
def isSyntax (c : Char) : Bool :=
  ['.', '*', '+', '?', '^', '$', '\x7b', '\x7d', '(', ')', '|', '[', ']', '\\'].contains c

def single (c : Char) : Char × Char := (c, c)

/-- Read one character: the next mode and the token that is complete, if any. The quantifiers
without a count and the wildcard are not supported. -/
def readChar : Mode → Char → Option (Mode × Option Token)
  | .plain, c =>
    if c = '\\' then some (.escaped, none)
    else if c = '[' then some (.set [] none, none)
    else if c = '\x7b' then some (.least 0, none)
    else if c = '(' then some (.plain, some .open)
    else if c = ')' then some (.plain, some .close)
    else if c = '|' then some (.plain, some .bar)
    else if c = '^' then some (.plain, some .caret)
    else if c = '$' then some (.plain, some .dollar)
    else if isSyntax c then none
    else some (.plain, some (.char c))
  | .escaped, c => if c.isAlphanum then none else some (.plain, some (.char c))
  | .set ranges last, c =>
    let closed := ranges ++ (last.map single).toList
    if c = ']' then some (.plain, some (.oneOf closed))
    else if c = '\\' then none
    else
      match last with
      | some a => if c = '-' then some (.range ranges a, none) else some (.set closed (some c), none)
      | none => some (.set closed (some c), none)
  | .range ranges a, c =>
    if c = ']' then some (.plain, some (.oneOf (ranges ++ [single a, single '-'])))
    else if c = '\\' then none
    else some (.set (ranges ++ [(a, c)]) none, none)
  | .least n, c =>
    if c.isDigit then some (.least (10 * n + (c.toNat - 48)), none)
    else if c = ',' then some (.most n 0, none)
    else if c = '\x7d' then some (.plain, some (.count n n))
    else none
  | .most l n, c =>
    if c.isDigit then some (.most l (10 * n + (c.toNat - 48)), none)
    else if c = '\x7d' then some (.plain, some (.count l n))
    else none

def tokenize : Mode → List Char → Option (List Token)
  | mode, [] => if mode = .plain then some [] else none
  | mode, c :: cs =>
    (readChar mode c).bind fun read => (tokenize read.1 cs).map fun ts => read.2.toList ++ ts

/-- A group that is still open: its finished alternatives and the items of the current one,
both with the last one first. -/
structure Group where
  alternatives : List Re
  items : List Re
  deriving DecidableEq

def Group.empty : Group := ⟨[], []⟩

def Group.add (g : Group) (r : Re) : Group := { g with items := r :: g.items }

def Group.re (g : Group) : Re :=
  g.alternatives.foldl (fun acc r => .alt r acc) (seqAll g.items.reverse)

/-- Parse with the innermost open group first. -/
def parse : Group → List Group → List Token → Option Re
  | g, [], [] => some g.re
  | _, _ :: _, [] => none
  | g, outer, .char c :: ts => parse (g.add (.char c)) outer ts
  | g, outer, .oneOf ranges :: ts => parse (g.add (.oneOf ranges)) outer ts
  | g, outer, .caret :: ts => parse (g.add .start) outer ts
  | g, outer, .dollar :: ts => parse (g.add .stop) outer ts
  | g, outer, .open :: ts => parse .empty (g :: outer) ts
  | _, [], .close :: _ => none
  | g, h :: outer, .close :: ts => parse (h.add g.re) outer ts
  | g, outer, .bar :: ts => parse ⟨seqAll g.items.reverse :: g.alternatives, []⟩ outer ts
  | ⟨_, []⟩, _, .count _ _ :: _ => none
  | ⟨alternatives, r :: items⟩, outer, .count l m :: ts =>
    parse ⟨alternatives, .rep r l m :: items⟩ outer ts

/-- `new RegExp(pattern)`; `none` where the pattern is not in the supported syntax. -/
def compile (pattern : List Char) : Option Re :=
  (tokenize .plain pattern).bind (parse .empty [])

/-- `new RegExp(pattern).test(text)`. -/
def testText (pattern text : String) : Bool :=
  ((compile pattern.toList).map fun r => test r text.toList).getD false

/-- `str.replace(/[.*+?^${}()|[\]\\]/g, '\\$&')`. -/
def escape (cs : List Char) : List Char :=
  cs.flatMap fun c => if isSyntax c then ['\\', c] else [c]

/-- Tokens of a complete piece of a pattern stand before those of the rest. -/
theorem tokenize_append {mode : Mode} {cs ds : List Char} {ts us : List Token}
    (h : tokenize mode cs = some ts) (h' : tokenize .plain ds = some us) :
    tokenize mode (cs ++ ds) = some (ts ++ us) := by
  induction cs generalizing mode ts with
  | nil =>
    unfold tokenize at h
    split at h
    · rename_i hplain
      obtain rfl := Option.some.inj h
      rw [hplain]
      exact h'
    · cases h
  | cons c cs ih =>
    rw [List.cons_append]
    unfold tokenize at h ⊢
    obtain ⟨read, hread, hrest⟩ := Option.bind_eq_some_iff.mp h
    obtain ⟨rest, htokens, rfl⟩ := Option.map_eq_some_iff.mp hrest
    rw [hread, Option.bind_some, ih htokens, Option.map_some, List.append_assoc]

theorem testText_of_compile {pattern text : String} {r : Re}
    (h : compile pattern.toList = some r) : testText pattern text = test r text.toList := by
  unfold testText
  rw [h]
  rfl

theorem not_isAlphanum_of_isSyntax {c : Char} (h : isSyntax c = true) :
    c.isAlphanum = false := by
  unfold isSyntax at h
  rw [List.contains_iff_mem] at h
  revert h
  simp only [List.mem_cons, List.not_mem_nil, or_false]
  rintro (rfl | rfl | rfl | rfl | rfl | rfl | rfl | rfl | rfl | rfl | rfl | rfl | rfl | rfl) <;> decide

theorem readChar_plain {c : Char} (h : isSyntax c = false) :
    readChar .plain c = some (.plain, some (.char c)) := by
  have hne : ∀ d : Char, isSyntax d = true → c ≠ d := by
    rintro d hd rfl
    rw [h] at hd
    cases hd
  simp only [readChar]
  rw [if_neg (hne '\\' rfl), if_neg (hne '[' rfl), if_neg (hne '\x7b' rfl), if_neg (hne '(' rfl),
    if_neg (hne ')' rfl), if_neg (hne '|' rfl), if_neg (hne '^' rfl), if_neg (hne '$' rfl),
    if_neg (by rw [h]; decide)]

/-- A quoted text is read as its own characters. -/
theorem tokenize_escape (w : List Char) : tokenize .plain (escape w) = some (w.map .char) := by
  induction w with
  | nil => rfl
  | cons c w ih =>
    have hhead : tokenize .plain (if isSyntax c then ['\\', c] else [c]) = some [.char c] := by
      by_cases hc : isSyntax c = true
      · rw [if_pos hc]
        simp [tokenize, readChar, not_isAlphanum_of_isSyntax hc]
      · rw [if_neg hc]
        have hread := readChar_plain (c := c) (by simpa using hc)
        simp [tokenize, hread]
    exact tokenize_append hhead ih

/-- The characters of a text are added to the current alternative one by one. -/
theorem parse_chars (w : List Char) (alternatives items : List Re) (outer : List Group)
    (ts : List Token) :
    parse ⟨alternatives, items⟩ outer (w.map .char ++ ts) =
      parse ⟨alternatives, (w.map .char).reverse ++ items⟩ outer ts := by
  induction w generalizing items with
  | nil => rfl
  | cons c w ih =>
    simp only [List.map_cons, List.cons_append, parse, Group.add]
    rw [ih]
    simp

/-- A pattern that quotes a text right after its anchor. -/
theorem compile_quoted {w tail : List Char} {ts : List Token}
    (h : tokenize .plain tail = some ts) :
    compile ('^' :: (escape w ++ tail)) = parse ⟨[], (w.map .char).reverse ++ [.start]⟩ [] ts := by
  have htail := tokenize_append (tokenize_escape w) h
  have hall : tokenize .plain ('^' :: (escape w ++ tail)) =
      some (.caret :: (w.map .char ++ ts)) := by
    show (readChar .plain '^').bind _ = _
    rw [show readChar .plain '^' = some (.plain, some .caret) from rfl, Option.bind_some, htail]
    rfl
  unfold compile
  rw [hall, Option.bind_some]
  exact parse_chars w [] [.start] [] ts

section Quoted

variable {pattern text : String} {w tail : List Char} {ts : List Token} {rs : List Re}

theorem testText_quoted (hpattern : pattern.toList = '^' :: (escape w ++ tail))
    (htail : tokenize .plain tail = some ts)
    (hparse : ∀ items, parse ⟨[], items⟩ [] ts =
      some (seqAll ((rs ++ [Re.stop]).reverse ++ items).reverse)) :
    testText pattern text =
      test (seqAll (.start :: ((w.map .char ++ rs) ++ [.stop]))) text.toList := by
  have hcompile : compile pattern.toList =
      some (seqAll (.start :: ((w.map .char ++ rs) ++ [.stop]))) := by
    rw [hpattern, compile_quoted htail, hparse]
    simp
  exact testText_of_compile hcompile

/-- A text passes an anchored pattern that quotes the front of the text and whose expressions
match the rest. -/
theorem test_quoted {v : List Char} (hpattern : pattern.toList = '^' :: (escape w ++ tail))
    (htail : tokenize .plain tail = some ts)
    (hparse : ∀ items, parse ⟨[], items⟩ [] ts =
      some (seqAll ((rs ++ [Re.stop]).reverse ++ items).reverse))
    (htext : text.toList = w ++ v) (h : Consumes rs v) : testText pattern text = true := by
  rw [testText_quoted hpattern htail hparse, htext]
  exact test_of_consumes ((consumes_chars w).append h)

/-- What passes such a pattern begins with the quoted text and goes on with a text of the language
of the expressions. -/
theorem Reads.of_test_quoted {language : List Char → Prop} (h : Reads rs language)
    (hpattern : pattern.toList = '^' :: (escape w ++ tail))
    (htail : tokenize .plain tail = some ts)
    (hparse : ∀ items, parse ⟨[], items⟩ [] ts =
      some (seqAll ((rs ++ [Re.stop]).reverse ++ items).reverse))
    (htest : testText pattern text = true) : ∃ v, text.toList = w ++ v ∧ language v := by
  rw [testText_quoted hpattern htail hparse] at htest
  obtain ⟨a, v, hsplit, rfl, hlanguage⟩ := ((reads_chars w).append h).of_test htest
  exact ⟨v, hsplit, hlanguage⟩

end Quoted

end MissionControl.Foundations.RegularExpression
