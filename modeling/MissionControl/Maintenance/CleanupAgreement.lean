import MissionControl.Maintenance.CleanupCounts

/-!
The preview, the dry run, the cleanup of the route and that of the scheduler, target by target.
They agree on the tables. On the token usage file the preview does not look whether the retention
is disabled, and it counts what is older than the cutoff where the others remove what is not
younger, which is more when a record has no time. On the session stores what is counted and what
is pruned differ when an entry cannot be read or a file cannot be written. A cutoff that no date
can hold makes three of the four stop early.
-/

set_option autoImplicit false
set_option relaxedAutoImplicit false

namespace MissionControl.Maintenance.CleanupAgreement

open MissionControl.Foundations.Numbers
open MissionControl.Foundations.Schema (Json)
open MissionControl.Auth.Accounts (User)
open Cleanup CleanupCounts

/-! ### Agreement -/

/-- A request that the route lets in; the second part says how it runs. -/
def Admitted (request : CleanupRequest) (dryRun : Bool) : Prop :=
  (∃ user, request.auth = .ok user) ∧ request.limited = false ∧
    dryRunOf request.body = some dryRun

section

variable (rt : Runtime) (now : Nat) (ret : Retention) (w : World)

/-- All four give the same numbers, and a preview and a dry run change nothing. -/
def Agree (look dry real : CleanupRequest) : Prop :=
  ∃ preview dryTotal dryResults realTotal realResults,
    getCleanup rt now ret w look = (w, .preview ret preview) ∧
      postCleanup rt now ret w dry = (w, .cleaned true dryTotal dryResults) ∧
      (postCleanup rt now ret w real).2 = .cleaned false realTotal realResults ∧
      ∀ target, deletedCount dryResults target = staleCount preview target ∧
        deletedCount realResults target = staleCount preview target ∧
        addedCount (runCleanup rt now ret w).2.1 target = staleCount preview target

/-! ### The condition -/

structure TokensSound (times : List Number) : Prop where
  /-- If the records are kept forever, none is in the past. -/
  kept : enabled ret.tokenUsage = false → dateText rt (tokensCutoff now ret) ≠ none →
    ∀ x ∈ times, Number.lt x (tokensCutoff now ret) = false
  /-- Every record has a time. -/
  timed : enabled ret.tokenUsage = true → dateText rt (tokensCutoff now ret) ≠ none →
    ∀ x ∈ times, x ≠ .nan
  /-- Nothing is to be removed from a file that cannot be written. -/
  written : enabled ret.tokenUsage = true → dateText rt (tokensCutoff now ret) ≠ none →
    w.tokensWritable = false → ∀ x ∈ times, Number.le (tokensCutoff now ret) x = true
  /-- Nothing is to be removed if no date can hold the cutoff. -/
  dated : enabled ret.tokenUsage = true → dateText rt (tokensCutoff now ret) = none →
    w.tokensWritable = true → ∀ x ∈ times, Number.le (tokensCutoff now ret) x = true

structure Sound : Prop where
  /-- A table has no stale rows if no date can hold its cutoff. -/
  table : ∀ t, disabled (ret.days t) = false →
    dateText rt ((tableCutoff now ret t).times 1000) = none →
      ∀ r ∈ w.rows t, isStaleRow (tableCutoff now ret t) r = false
  tokens : ∀ times, tokenTimes rt w = some times → TokensSound rt now ret w times
  dated : enabled ret.gatewaySessions = true →
    dateText rt (cutoffMs now ret.gatewaySessions) ≠ none
  stores : enabled ret.gatewaySessions = true → ∀ s ∈ w.stores,
    StoreSound rt (cutoffMs now ret.gatewaySessions) s

end

variable {rt : Runtime} {now : Nat} {ret : Retention}

theorem tableShown_eq_iff (rows : List Row) (t : Table) :
    tableStale now ret rows t = tableShown rt now ret rows t ↔
      (disabled (ret.days t) = false → dateText rt ((tableCutoff now ret t).times 1000) = none →
        ∀ r ∈ rows, isStaleRow (tableCutoff now ret t) r = false) := by
  rw [tableShown, tableStale]
  cases hdisabled : disabled (ret.days t) with
  | true => simp
  | false =>
    cases hdate : dateText rt ((tableCutoff now ret t).times 1000) with
    | some date => simp
    | none => simp [List.countP_eq_zero]

/-- A cutoff that a date can hold is a number. -/
theorem ne_nan_of_date {x : Number} (h : dateText rt x ≠ none) : x ≠ .nan := by
  rintro rfl
  exact h rfl

/-- The records that are not younger are those that are older, if all have times. -/
theorem unfit_eq_older_iff {times : List Number} {cutoff : Number} (hcutoff : cutoff ≠ .nan) :
    (times.countP fun x => !Number.le cutoff x) = times.countP (Number.lt · cutoff) ↔
      ∀ x ∈ times, x ≠ .nan := by
  induction times with
  | nil => simp
  | cons x times ih =>
    have hle : times.countP (Number.lt · cutoff) ≤ times.countP fun x => !Number.le cutoff x := by
      apply List.countP_mono_left
      intro y _ hy
      have hnan : y ≠ .nan := by
        rintro rfl
        cases hy
      rw [Number.le_eq_not_lt hcutoff hnan, hy]
      rfl
    by_cases hx : x = .nan
    · subst hx
      simp
      omega
    · have hsame : (!Number.le cutoff x) = Number.lt x cutoff := by
        rw [Number.le_eq_not_lt hcutoff hx, Bool.not_not]
      simp only [List.countP_cons, hsame, List.forall_mem_cons, hx, ne_eq, not_false_eq_true,
        true_and, ← ih]
      omega

/-- The condition on the token usage file, by the two counts. -/
theorem tokensSound_iff {w : World} {times : List Number} :
    TokensSound rt now ret w times ↔
      (enabled ret.tokenUsage = false → dateText rt (tokensCutoff now ret) ≠ none →
        times.countP (Number.lt · (tokensCutoff now ret)) = 0) ∧
      (enabled ret.tokenUsage = true → dateText rt (tokensCutoff now ret) ≠ none →
        (times.countP fun x => !Number.le (tokensCutoff now ret) x) =
          times.countP (Number.lt · (tokensCutoff now ret))) ∧
      (enabled ret.tokenUsage = true → dateText rt (tokensCutoff now ret) ≠ none →
        w.tokensWritable = false →
          (times.countP fun x => !Number.le (tokensCutoff now ret) x) = 0) ∧
      (enabled ret.tokenUsage = true → dateText rt (tokensCutoff now ret) = none →
        w.tokensWritable = true →
          (times.countP fun x => !Number.le (tokensCutoff now ret) x) = 0) := by
  have holder : times.countP (Number.lt · (tokensCutoff now ret)) = 0 ↔
      ∀ x ∈ times, Number.lt x (tokensCutoff now ret) = false := by
    simp [List.countP_eq_zero]
  have hunfit : (times.countP fun x => !Number.le (tokensCutoff now ret) x) = 0 ↔
      ∀ x ∈ times, Number.le (tokensCutoff now ret) x = true := by
    simp [List.countP_eq_zero]
  rw [holder, hunfit]
  constructor
  · rintro ⟨hkept, htimed, hwritten, hdated⟩
    refine ⟨hkept, fun henabled hdate => ?_, hwritten, hdated⟩
    exact (unfit_eq_older_iff (ne_nan_of_date hdate)).mpr (htimed henabled hdate)
  · rintro ⟨hkept, htimed, hwritten, hdated⟩
    refine ⟨hkept, fun henabled hdate => ?_, hwritten, hdated⟩
    exact (unfit_eq_older_iff (ne_nan_of_date hdate)).mp (htimed henabled hdate)

theorem tokens_agree_iff {w : World} :
    (deleted rt now ret w true .tokenUsage = previewed rt now ret w .tokenUsage ∧
      deleted rt now ret w false .tokenUsage = previewed rt now ret w .tokenUsage ∧
      swept rt now ret w .tokenUsage = previewed rt now ret w .tokenUsage) ↔
        ∀ times, tokenTimes rt w = some times → TokensSound rt now ret w times := by
  simp only [deleted, previewed, swept, tokensDeleted, tokensSwept, unfitTokens, olderTokens]
  cases htimes : tokenTimes rt w with
  | none => simp
  | some times =>
    simp only [Option.some.injEq, forall_eq', tokensSound_iff, Option.map_some, Option.getD_some]
    generalize (times.countP fun x => !Number.le (tokensCutoff now ret) x) = unfit
    generalize times.countP (Number.lt · (tokensCutoff now ret)) = older
    cases enabled ret.tokenUsage with
    | false =>
      cases dateText rt (tokensCutoff now ret) with
      | none => simp
      | some date =>
        simp
        omega
    | true =>
      cases dateText rt (tokensCutoff now ret) with
      | none =>
        cases w.tokensWritable with
        | false => simp
        | true => simp
      | some date =>
        cases w.tokensWritable with
        | false =>
          simp
          omega
        | true => simp

theorem postCleanup_of_ok {w : World} {request : CleanupRequest} {dryRun : Bool}
    (hadmitted : Admitted request dryRun) {p : Progress}
    (h : cleanAll rt now ret dryRun w = .ok p) :
    (postCleanup rt now ret w request).2 = .cleaned dryRun p.totalDeleted p.results ∧
      (dryRun = true → (postCleanup rt now ret w request).1 = p.world) := by
  obtain ⟨⟨user, huser⟩, hlimited, hbody⟩ := hadmitted
  rw [postCleanup, huser]
  dsimp only
  rw [hlimited, if_neg Bool.false_ne_true, hbody]
  dsimp only
  rw [h]
  refine ⟨rfl, ?_⟩
  rintro rfl
  rfl

theorem postCleanup_of_error {w w' : World} {request : CleanupRequest} {dryRun : Bool}
    (hadmitted : Admitted request dryRun) (h : cleanAll rt now ret dryRun w = .error w') :
    (postCleanup rt now ret w request).2 = .thrown := by
  obtain ⟨⟨user, huser⟩, hlimited, hbody⟩ := hadmitted
  rw [postCleanup, huser]
  dsimp only
  rw [hlimited, if_neg Bool.false_ne_true, hbody]
  dsimp only
  rw [h]

/-- What the four say of the targets, where the route answers at all. -/
theorem targets_agree_iff {w : World} (hdate : enabled ret.gatewaySessions = true →
    dateText rt (cutoffMs now ret.gatewaySessions) ≠ none) :
    (∀ target, deleted rt now ret w true target = previewed rt now ret w target ∧
      deleted rt now ret w false target = previewed rt now ret w target ∧
        swept rt now ret w target = previewed rt now ret w target) ↔ Sound rt now ret w := by
  constructor
  · intro h
    refine ⟨fun t => ?_, ?_, hdate, ?_⟩
    · exact (tableShown_eq_iff (w.rows t) t).mp (h (.table t)).2.2
    · exact tokens_agree_iff.mp (h .tokenUsage)
    · exact (sessions_agree_iff hdate).mp (h .gatewaySessions).2.1
  · intro h target
    cases target with
    | table t => exact ⟨rfl, rfl, (tableShown_eq_iff (w.rows t) t).mpr (h.table t)⟩
    | tokenUsage => exact tokens_agree_iff.mpr h.tokens
    | gatewaySessions =>
      have hsessions := (sessions_agree_iff hdate).mpr h.stores
      exact ⟨rfl, hsessions, hsessions⟩

/-- The four agree on every target, and two of them change nothing, exactly if the data and the
configuration are sound. -/
theorem cleanup_agrees_iff (rt : Runtime) (now : Nat) (ret : Retention) (w : World)
    (look dry real : CleanupRequest) (hlook : ∃ user, look.auth = .ok user)
    (hdry : Admitted dry true) (hreal : Admitted real false) :
    Agree rt now ret w look dry real ↔ Sound rt now ret w := by
  obtain ⟨user, huser⟩ := hlook
  have hget : getCleanup rt now ret w look = (w, .preview ret
      (getRetentionTargets.map (previewTable rt now ret w) ++
        [previewTokens rt now ret w, previewSessions rt now ret w])) := by
    rw [getCleanup, huser]
  have hpreview := staleCount_preview rt now ret w
  by_cases hdate : enabled ret.gatewaySessions = true →
      dateText rt (cutoffMs now ret.gatewaySessions) ≠ none
  · obtain ⟨p, hp, hpWorld, hpCount⟩ := cleanAll_spec true w hdate
    obtain ⟨q, hq, -, hqCount⟩ := cleanAll_spec false w hdate
    obtain ⟨hdryReply, hdryWorld⟩ := postCleanup_of_ok hdry hp
    obtain ⟨hrealReply, -⟩ := postCleanup_of_ok hreal hq
    rw [← targets_agree_iff hdate]
    constructor
    · rintro ⟨preview, dryTotal, dryResults, realTotal, realResults, hlooked, hdried, hran, hagree⟩
      rw [hget] at hlooked
      obtain ⟨-, rfl⟩ := Reply.preview.inj (Prod.mk.inj hlooked).2
      rw [hdried] at hdryReply
      obtain ⟨-, -, rfl⟩ := Reply.cleaned.inj hdryReply
      rw [hran] at hrealReply
      obtain ⟨-, -, rfl⟩ := Reply.cleaned.inj hrealReply
      intro target
      obtain ⟨hdryCount, hrealCount, hadded⟩ := hagree target
      rw [hpreview] at hdryCount hrealCount hadded
      exact ⟨(hpCount target).symm.trans hdryCount, (hqCount target).symm.trans hrealCount,
        (runCleanup_spec w target).symm.trans hadded⟩
    · intro hagree
      refine ⟨_, p.totalDeleted, p.results, q.totalDeleted, q.results, hget, ?_, hrealReply, ?_⟩
      · exact Prod.ext ((hdryWorld rfl).trans (hpWorld rfl)) hdryReply
      · intro target
        obtain ⟨hdryCount, hrealCount, hadded⟩ := hagree target
        rw [hpreview]
        exact ⟨(hpCount target).trans hdryCount, (hqCount target).trans hrealCount,
          (runCleanup_spec w target).trans hadded⟩
  · obtain ⟨henabled, hnone⟩ := Classical.not_imp.mp hdate
    obtain ⟨w', hthrown⟩ : ∃ w', cleanAll rt now ret true w = .error w' :=
      cleanSessions_error true _ henabled (not_not.mp hnone)
    constructor
    · rintro ⟨preview, dryTotal, dryResults, realTotal, realResults, -, hdried, -⟩
      have hreply := postCleanup_of_error hdry hthrown
      rw [hdried] at hreply
      cases hreply
    · intro hsound
      exact absurd hsound.dated hdate

/-! ### A small installation -/

/-- On the last of March 1970, which is all that is asked of it. -/
def marchRuntime : Runtime := ⟨⟨fun _ => "0", fun _ => .nan⟩, fun _ => "1970-03-31"⟩

/-- The first of April 1970. -/
def aprilFirst : Nat := 7776000000

def oneDay (tokenUsage : Number) : Retention :=
  ⟨.finite 1, .finite 1, .finite 1, .finite 1, tokenUsage, .finite 1⟩

def maintainer : User where
  id := 1
  username := "root"
  displayName := "Root"
  role := "admin"
  workspaceId := 1
  agentName := none
  principalType := .user
  agentId := none
  authScopes := none

def requestOf (body : Option Json) : CleanupRequest := ⟨.ok maintainer, false, body, none, none⟩

def dryBody : Json := .object [("dry_run", .bool true)]

def tokenRecord (timestamp : Rat) : Json := .object [("timestamp", .number timestamp)]

/-- An old row, an old token record and a new one, and an old session. -/
def sampleWorld : World where
  rows t := if t = .activities then [⟨1000, .null⟩] else []
  tokens := some (.array [tokenRecord 1000, tokenRecord 7775999999])
  tokensWritable := true
  stores := [⟨some (.object [("agent:scout:main", .object [("updatedAt", .number 1000)])]), true⟩]

theorem sample_agrees :
    Agree marchRuntime aprilFirst (oneDay (.finite 1)) sampleWorld (requestOf none)
      (requestOf (some dryBody)) (requestOf none) := by
  have hdry : Admitted (requestOf (some dryBody)) true := ⟨⟨maintainer, rfl⟩, rfl, by decide +kernel⟩
  have hreal : Admitted (requestOf none) false := ⟨⟨maintainer, rfl⟩, rfl, rfl⟩
  apply (cleanup_agrees_iff marchRuntime aprilFirst (oneDay (.finite 1)) sampleWorld
    (requestOf none) (requestOf (some dryBody)) (requestOf none) ⟨maintainer, rfl⟩ hdry hreal).mpr
  have hdate : dateText marchRuntime (tokensCutoff aprilFirst (oneDay (.finite 1))) ≠ none := by
    decide +kernel
  have htimes : tokenTimes marchRuntime sampleWorld =
      some [.finite 1000, .finite 7775999999] := by decide +kernel
  refine ⟨?_, ?_, fun _ => hdate, ?_⟩
  · intro t _ hnone
    have hshown : ∀ t, dateText marchRuntime
        ((tableCutoff aprilFirst (oneDay (.finite 1)) t).times 1000) ≠ none := by
      intro t
      cases t <;> decide +kernel
    exact absurd hnone (hshown t)
  · intro times h
    obtain rfl := Option.some.inj (htimes.symm.trans h)
    refine ⟨fun h => ?_, fun _ _ => by decide, fun _ _ h => (by cases h),
      fun _ hnone => absurd hnone hdate⟩
    exact absurd h (by decide +kernel)
  · intro _ s hs es hes hbad
    obtain rfl := List.mem_singleton.mp hs
    obtain rfl := Option.some.inj hes
    rcases hbad with ⟨e, he, hthrows⟩ | hlocked
    · obtain rfl := List.mem_singleton.mp he
      exact absurd hthrows (by decide +kernel)
    · cases hlocked

/-- A token usage file with one old record, and nothing else. -/
def oldRecord : World where
  rows _ := []
  tokens := some (.array [tokenRecord 1000])
  tokensWritable := true
  stores := []

/-- The records are kept forever, and the preview counts the one that is there. -/
theorem preview_disagrees :
    ¬ Agree marchRuntime aprilFirst (oneDay (.finite 0)) oldRecord (requestOf none)
      (requestOf (some dryBody)) (requestOf none) := by
  rintro ⟨preview, dryTotal, dryResults, realTotal, realResults, hget, hdry, -, hagree⟩
  have hstale : (match (getCleanup marchRuntime aprilFirst (oneDay (.finite 0)) oldRecord
      (requestOf none)).2 with
    | .preview _ preview => decide (staleCount preview .tokenUsage = 1)
    | _ => false) = true := by
    decide +kernel
  have hdeleted : (match (postCleanup marchRuntime aprilFirst (oneDay (.finite 0)) oldRecord
      (requestOf (some dryBody))).2 with
    | .cleaned _ _ results => decide (deletedCount results .tokenUsage = 0)
    | _ => false) = true := by
    decide +kernel
  rw [hget] at hstale
  rw [hdry] at hdeleted
  have hsame := (hagree .tokenUsage).1
  rw [of_decide_eq_true hstale, of_decide_eq_true hdeleted] at hsame
  cases hsame

end MissionControl.Maintenance.CleanupAgreement
