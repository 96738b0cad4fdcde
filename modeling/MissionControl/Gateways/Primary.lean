import MissionControl.Foundations.Lists
import MissionControl.Gateways.Routes

/-!
The primary gateway. A request that makes a gateway the primary one first takes the rank from all
others, in a statement of its own; where the statement after it fails, or writes another value than
the condition looked at, the rank is lost.
-/

set_option autoImplicit false
set_option relaxedAutoImplicit false

namespace MissionControl.Gateways.Primary

open MissionControl.Foundations.JsonValues (getField truthy)
open MissionControl.Foundations.Lists
open MissionControl.Foundations.Schema (Json)
open MissionControl.Foundations.SqlValues
open MissionControl.Foundations.Transition (Machine)
open Routes

def primaries (t : Table) : Nat := t.rows.countP GatewayEntry.primary

/-- The request itself gives `is_primary` a value that counts as false. -/
def SetsFalse : Request → Prop
  | .post _ body | .put _ body => ∃ value, getField body "is_primary" = some value ∧
      truthy value = false
  | .get _ | .delete _ => False

/-- What a request must do to the table. -/
structure Kept (t t' : Table) (request : Request) (reply : Reply) : Prop where
  single : primaries t' ≤ 1
  persists : 0 < primaries t → ¬ SetsFalse request → 0 < primaries t'
  unchanged : reply.isError = true → t' = t

/-- No row has anything but zero in `is_primary`. -/
def Cleared (t : Table) : Prop := ∀ row ∈ t.rows, row.cell .is_primary = .number 0

section

variable (conv : Conversions)

/-- The insertion of a `POST` fails. -/
def postFails (t : Table) (body : Json) : Bool :=
  match addedValues conv body with
  | none => true
  | some values => rejects t.rows values

/-- The `PUT` gets to its statements, with this row. -/
def Updates (t : Table) (body : Json) (existing : GatewayEntry) : Prop :=
  falsy (getField body "id") = false ∧
    selectGateway conv t ((getField body "id").getD .null) = some (some existing)

/-- The update of a `PUT` fails. -/
def putFails (t : Table) (body : Json) : Bool :=
  match updatedValues conv body with
  | none => true
  | some (values, id) => rejects (t.rows.filter fun row => !equalsKey conv row.id id) values

/-- What the update of a `PUT` stores in `is_primary`. -/
def storedPrimary (body : Json) : Option Value :=
  (updatedValues conv body).bind fun written =>
    (written.1.find? fun entry => entry.1 = .is_primary).map Prod.snd

/-- A request that takes the rank from all gateways goes through, unless there is nothing to take;
and a `PUT` stores what counts as it was given, unless the other gateways allow for it. -/
def Safe (t : Table) : Request → Prop
  | .get _ | .delete _ => True
  | .post _ body =>
    falsy (getField body "name") = false → falsy (getField body "host") = false →
      falsy (getField body "port") = false → falsy (getField body "is_primary") = false →
        postFails conv t body = true → Cleared t
  | .put _ body => ∀ existing, Updates conv t body existing →
      if putFails conv t body = true then
        falsy (getField body "is_primary") = false → Cleared t
      else ∀ value, storedPrimary conv body = some value →
        if falsy (getField body "is_primary") = false then 0 < primaries t → value.truthy = true
        else value.truthy = true →
          ∀ row ∈ t.rows, row.primary = true → row.id = existing.id

end

/-! ### Taking the rank -/

@[simp]
theorem assign_nil (cell : Column → Value) : assign [] cell = cell := rfl

theorem assign_other {values : List (Column × Value)} {column : Column}
    (h : ∀ entry ∈ values, entry.1 ≠ column) (cell : Column → Value) :
    assign values cell column = cell column := by
  have hnone : values.find? (fun entry => entry.1 = column) = none := by
    simpa using h
  rw [assign, hnone]
  rfl

section

variable {t : Table}

@[simp]
theorem primaries_clearPrimary : primaries (clearPrimary t) = 0 := by
  simp [primaries, clearPrimary, List.countP_map, GatewayEntry.primary, assign, Value.truthy,
    Function.comp_def]

theorem clearPrimary_eq_iff : clearPrimary t = t ↔ Cleared t := by
  have hrow : ∀ row : GatewayEntry,
      { row with cell := assign [(.is_primary, .number 0)] row.cell } = row ↔
        row.cell .is_primary = .number 0 := by
    rintro ⟨id, cell, created, updated⟩
    simp only [GatewayEntry.mk.injEq, true_and, and_true]
    constructor
    · intro h
      rw [← h]
      rfl
    · intro h
      funext column
      by_cases hcolumn : Column.is_primary = column
      · subst hcolumn
        exact h.symm
      · exact assign_other (by simpa using hcolumn) cell
  unfold clearPrimary Cleared
  constructor
  · intro h
    have hrows := congrArg Table.rows h
    intro row hmem
    rw [← hrow]
    exact List.map_eq_map_iff.mp (hrows.trans (List.map_id t.rows).symm) row hmem
  · intro h
    obtain ⟨rows, nextId⟩ := t
    simp only [Table.mk.injEq, and_true]
    exact (List.map_congr_left fun row hmem => (hrow row).mpr (h row hmem)).trans (List.map_id rows)

theorem primaries_eq_zero_of_cleared (h : Cleared t) : primaries t = 0 := by
  rw [primaries, List.countP_eq_zero]
  intro row hrow
  simp [GatewayEntry.primary, h row hrow, Value.truthy]

theorem taken_clearPrimary (values : List (Column × Value)) :
    taken (clearPrimary t).rows values = taken t.rows values := by
  simp [taken, clearPrimary, assign, Function.comp_def]

end

/-! ### Requests that change nothing, or only take the rank -/

section

variable {t : Table} {request : Request} {reply : Reply}

/-- A request that fails must have left the table alone. -/
theorem kept_iff_of_error (h : primaries t ≤ 1) {t' : Table} (herror : reply.isError = true) :
    Kept t t' request reply ↔ t' = t := by
  constructor
  · intro hkept
    exact hkept.unchanged herror
  · rintro rfl
    exact ⟨h, fun hsome _ => hsome, fun _ => rfl⟩

theorem kept_cleared_iff (h : primaries t ≤ 1) (herror : reply.isError = true) (clear : Bool) :
    Kept t (if clear = true then t else clearPrimary t) request reply ↔ (clear = false → Cleared t) := by
  rw [kept_iff_of_error h herror]
  cases clear with
  | true => simp
  | false => simp [clearPrimary_eq_iff]

end

/-! ### Insertions -/

section

variable {t t' : Table} {now : Nat} {values : List (Column × Value)}

theorem insertGateway_eq_none_iff : insertGateway now t values = none ↔ rejects t.rows values = true := by
  unfold insertGateway
  split <;> simp_all

/-- A row that is added counts if its value does. -/
theorem primaries_insertGateway (h : insertGateway now t values = some t') :
    primaries t' = primaries t +
      if (assign values Column.default .is_primary).truthy = true then 1 else 0 := by
  unfold insertGateway at h
  split at h
  · cases h
  · obtain rfl := Option.some.inj h
    simp only [primaries, List.countP_append, List.countP_singleton, GatewayEntry.primary]
    rfl

/-- A `POST` gives the new row zero or one. -/
theorem primary_addedValues {conv : Conversions} {body : Json}
    (h : addedValues conv body = some values) (cell : Column → Value) :
    (assign values cell .is_primary).truthy = !falsy (getField body "is_primary") := by
  obtain ⟨bound, hbound, rfl⟩ := Option.map_eq_some_iff.mp h
  have hlength := length_of_bindParameters hbound
  obtain ⟨front, rfl⟩ := bindParameters_snoc [_, _, _, _] rfl hbound
  obtain ⟨a, b, c, d, rfl⟩ : ∃ a b c d, front = [a, b, c, d] := by
    have hfour : front.length = 4 := by simpa using hlength
    exact List.length_eq_four.mp hfour
  cases hfalsy : falsy (getField body "is_primary") <;>
    simp [stored, assign, Column.affinity, Affinity.apply, Value.truthy]

end

theorem rejects_cleared (t : Table) (clear : Bool) (values : List (Column × Value)) :
    rejects (if clear = true then t else clearPrimary t).rows values = rejects t.rows values := by
  cases clear with
  | true => rfl
  | false => exact congrArg (lacks values || ·) (taken_clearPrimary values)

theorem post_kept_iff {t : Table} (h : primaries t ≤ 1) (conv : Conversions) (now : Nat)
    (body : Json) :
    Kept t (postGateway conv now t body).1 (.post now body) (postGateway conv now t body).2 ↔
      Safe conv t (.post now body) := by
  unfold postGateway Safe
  by_cases hnull : body = .null
  · subst hnull
    rw [if_pos rfl, kept_iff_of_error h rfl]
    simp [getField, falsy]
  · rw [if_neg hnull]
    by_cases hmissing : falsy (getField body "name") = true ∨ falsy (getField body "host") = true ∨
        falsy (getField body "port") = true
    · rw [if_pos hmissing, kept_iff_of_error h rfl]
      refine iff_of_true rfl fun hname hhost hport => ?_
      simp [hname, hhost, hport] at hmissing
    · rw [if_neg hmissing]
      simp only [not_or, Bool.not_eq_true] at hmissing
      simp only [hmissing.1, hmissing.2.1, hmissing.2.2, true_imp_iff]
      unfold postFails
      cases hvalues : addedValues conv body with
      | none => simpa using kept_cleared_iff h rfl (falsy (getField body "is_primary"))
      | some values =>
        dsimp only
        cases hadded : insertGateway now
            (if falsy (getField body "is_primary") = true then t else clearPrimary t) values with
        | none =>
          have hrejects := insertGateway_eq_none_iff.mp hadded
          rw [rejects_cleared] at hrejects
          simp only [hrejects, true_imp_iff]
          split
          · exact kept_cleared_iff h rfl _
          · exact kept_cleared_iff h rfl _
        | some added =>
          have hrejects : rejects t.rows values = false := by
            have hsome := mt insertGateway_eq_none_iff.mpr (by rw [hadded]; exact Option.some_ne_none _)
            rwa [rejects_cleared, Bool.not_eq_true] at hsome
          have hcount := primaries_insertGateway hadded
          rw [primary_addedValues hvalues] at hcount
          simp only [hrejects, Bool.false_eq_true, false_imp_iff, imp_true_iff, iff_true]
          constructor
          · rw [hcount]
            cases falsy (getField body "is_primary") with
            | true => simpa using h
            | false => simp
          · intro hsome _
            rw [hcount]
            cases falsy (getField body "is_primary") with
            | true => simpa using hsome
            | false => simp
          · intro hcontra
            cases hcontra

/-! ### Seeds -/

theorem get_kept {t : Table} (h : primaries t ≤ 1) (env : Environment) (now : Nat) :
    Kept t (getGateways env now t).1 (.get now) (getGateways env now t).2 := by
  unfold getGateways
  split
  · rename_i hempty
    have hnone : primaries t = 0 := by
      rw [primaries, List.isEmpty_iff.mp hempty]
      rfl
    cases hseeded : insertGateway now t (seed env) with
    | none => exact (kept_iff_of_error h rfl).mpr rfl
    | some seeded =>
      have hcount := primaries_insertGateway hseeded
      have hone : primaries seeded ≤ 1 := by
        rw [hcount, hnone]
        split <;> simp
      refine ⟨hone, fun hsome => ?_, by simp [Reply.isError]⟩
      rw [hnone] at hsome
      exact absurd hsome (Nat.lt_irrefl 0)
  · exact ⟨h, fun hsome _ => hsome, fun _ => rfl⟩

/-! ### The row of an id -/

section

variable {conv : Conversions}

theorem eq_of_equalsKey {key key' : Nat} {value : Value} (h : equalsKey conv key value = true)
    (h' : equalsKey conv key' value = true) : key = key' := by
  cases value with
  | null => cases h
  | number n =>
    simp only [equalsKey, decide_eq_true_eq] at h h'
    exact_mod_cast h.symm.trans h'
  | text s =>
    simp only [equalsKey, decide_eq_true_eq] at h h'
    exact_mod_cast Option.some.inj (h.symm.trans h')

variable {t : Table} (hkeyed : Keyed GatewayEntry.id t.rows t.nextId)
include hkeyed

/-- The row that an id finds is the only one that it stands for. -/
theorem rows_split {value : Value} {existing : GatewayEntry}
    (h : t.rows.find? (fun row => equalsKey conv row.id value) = some existing) :
    ∃ front back, t.rows = front ++ existing :: back ∧ equalsKey conv existing.id value = true ∧
      ∀ row ∈ front ++ back, equalsKey conv row.id value = false := by
  have hfound := List.find?_some h
  obtain ⟨front, back, hsplit⟩ := List.append_of_mem (List.mem_of_find?_eq_some h)
  refine ⟨front, back, hsplit, hfound, ?_⟩
  intro row hrow
  by_contra hmatch
  rw [Bool.not_eq_false] at hmatch
  have hunique := hkeyed.unique
  rw [hsplit, List.map_append, List.map_cons, List.nodup_middle, List.nodup_cons] at hunique
  refine hunique.1 ?_
  rw [← List.map_append, ← eq_of_equalsKey hmatch hfound]
  exact List.mem_map_of_mem hrow

theorem delete_kept (h : primaries t ≤ 1) (body : Json) :
    Kept t (deleteGateway conv t body).1 (.delete body) (deleteGateway conv t body).2 := by
  have hself : ∀ reply : Reply, Kept t t (.delete body) reply :=
    fun reply => ⟨h, fun hsome _ => hsome, fun _ => rfl⟩
  unfold deleteGateway
  split
  · exact hself _
  · split
    · exact hself _
    · split
      · exact hself _
      · rename_i values hvalues
        obtain ⟨value, rfl, -⟩ := bindParameters_singleton hvalues
        simp only [List.all_cons, List.all_nil, Bool.and_true]
        cases hfound : t.rows.find? fun row => equalsKey conv row.id value with
        | none =>
          have hkept : t.rows.filter (fun row => !equalsKey conv row.id value) = t.rows := by
            rw [List.filter_eq_self]
            simpa using List.find?_eq_none.mp hfound
          dsimp only
          rw [hkept]
          exact hself _
        | some gateway =>
          dsimp only
          split
          · exact hself _
          · rename_i hprimary
            obtain ⟨front, back, hrows, hmatch, hothers⟩ := rows_split hkeyed hfound
            have hkept : t.rows.filter (fun row => !equalsKey conv row.id value) = front ++ back := by
              rw [hrows, List.filter_append, List.filter_cons_of_neg (by simp [hmatch]),
                ← List.filter_append, List.filter_eq_self]
              simpa using hothers
            have hcount : (front ++ back).countP GatewayEntry.primary = primaries t := by
              rw [primaries, hrows]
              simp [List.countP_append, hprimary]
            rw [hkept]
            refine ⟨?_, fun hsome _ => ?_, by simp [Reply.isError]⟩
            · rw [primaries, hcount]
              exact h
            · rw [primaries, hcount]
              exact hsome

end

/-! ### Updates -/

section

variable {conv : Conversions} {body : Json}

theorem mem_updates {column : Column} {value : Json} :
    (column, value) ∈ updates body ↔ getField body column.key = some value := by
  have hall : column ∈ Column.all := by cases column <;> simp [Column.all]
  simp only [updates, List.mem_filterMap, Option.map_eq_some_iff, Prod.mk.injEq]
  constructor
  · rintro ⟨_, -, _, hvalue, rfl, rfl⟩
    exact hvalue
  · intro hvalue
    exact ⟨column, hall, value, hvalue, rfl, rfl⟩

theorem is_primary_of_updates_isEmpty (h : (updates body).isEmpty = true) :
    getField body "is_primary" = none := by
  cases hvalue : getField body "is_primary" with
  | none => rfl
  | some value =>
    have hmem : (Column.is_primary, value) ∈ updates body := mem_updates.mpr hvalue
    rw [List.isEmpty_iff.mp h] at hmem
    cases hmem

/-- An update that can be run has a value for each of its columns, and the id that was looked up. -/
theorem updatedValues_spec {values : List (Column × Value)} {id value : Value}
    (h : updatedValues conv body = some (values, id))
    (hid : bindArgument ((getField body "id").getD .null) = some [value]) :
    values.map Prod.fst = (updates body).map Prod.fst ∧ id = value := by
  obtain ⟨bound, hbound, heq⟩ := Option.map_eq_some_iff.mp h
  obtain ⟨hvalues, rfl⟩ := Prod.mk.inj heq
  subst hvalues
  have hlength := length_of_bindParameters hbound
  constructor
  · rw [stored, List.map_map]
    change ((updates body).map Prod.fst |>.zip bound).map Prod.fst = _
    rw [List.map_fst_zip (by rw [List.length_map]; omega)]
  · obtain ⟨front, rfl⟩ := bindParameters_snoc _ hid hbound
    simp

theorem storedPrimary_isSome {values : List (Column × Value)} {id : Value}
    (h : updatedValues conv body = some (values, id))
    (hcolumns : values.map Prod.fst = (updates body).map Prod.fst) :
    (storedPrimary conv body).isSome = (getField body "is_primary").isSome := by
  rw [Bool.eq_iff_iff, storedPrimary, h, Option.bind_some, Option.isSome_map, List.find?_isSome]
  simp only [decide_eq_true_eq]
  constructor
  · rintro ⟨entry, hentry, hprimary⟩
    have hmem : Column.is_primary ∈ (updates body).map Prod.fst := by
      rw [← hcolumns, ← hprimary]
      exact List.mem_map_of_mem hentry
    obtain ⟨⟨column, value⟩, hmem, rfl⟩ := List.mem_map.mp hmem
    have hvalue := mem_updates.mp hmem
    exact Option.isSome_iff_exists.mpr ⟨value, hvalue⟩
  · intro hsome
    obtain ⟨value, hvalue⟩ := Option.isSome_iff_exists.mp hsome
    have hmem : Column.is_primary ∈ values.map Prod.fst := by
      rw [hcolumns]
      exact List.mem_map_of_mem (mem_updates.mpr hvalue)
    obtain ⟨entry, hentry, hprimary⟩ := List.mem_map.mp hmem
    exact ⟨entry, hentry, hprimary⟩

end

section

variable {conv : Conversions} {t t' : Table} {now : Nat} {values : List (Column × Value)}
  {value : Value} {existing : GatewayEntry}

theorem updateGateway_eq_none_iff : updateGateway conv now t values value = none ↔
    rejects (t.rows.filter fun row => !equalsKey conv row.id value) values = true := by
  unfold updateGateway
  dsimp only
  split <;> simp_all

/-- An update writes the row of the id, and finds it again. -/
theorem updateGateway_spec (hkeyed : Keyed GatewayEntry.id t.rows t.nextId)
    (hfound : t.rows.find? (fun row => equalsKey conv row.id value) = some existing)
    (h : updateGateway conv now t values value = some t') :
    ∃ front back written, t.rows = front ++ existing :: back ∧
      t'.rows = front ++ written :: back ∧ t'.nextId = t.nextId ∧ written.id = existing.id ∧
      written.cell = assign values existing.cell ∧
      (∀ row ∈ front ++ back, row.id ≠ existing.id) ∧
      t'.rows.find? (fun row => equalsKey conv row.id value) = some written := by
  obtain ⟨front, back, hrows, hmatch, hothers⟩ := rows_split hkeyed hfound
  unfold updateGateway at h
  dsimp only at h
  split at h
  · cases h
  · obtain rfl := Option.some.inj h
    have hsame : ∀ l : List GatewayEntry, (∀ row ∈ l, equalsKey conv row.id value = false) →
        l.map (fun row => if equalsKey conv row.id value then
          { row with cell := assign values row.cell, updated_at := now } else row) = l := by
      intro l hl
      refine (List.map_congr_left fun row hrow => ?_).trans (List.map_id l)
      simp [hl row hrow]
    refine ⟨front, back, { existing with cell := assign values existing.cell, updated_at := now },
      hrows, ?_, rfl, rfl, rfl, ?_, ?_⟩
    · simp only [hrows, List.map_append, List.map_cons, hmatch, if_true,
        hsame front fun row hrow => hothers row (List.mem_append_left _ hrow),
        hsame back fun row hrow => hothers row (List.mem_append_right _ hrow)]
    · intro row hrow hid
      have hfalse := hothers row hrow
      rw [hid, hmatch] at hfalse
      cases hfalse
    · simp only [hrows, List.map_append, List.map_cons, hmatch, if_true,
        hsame front fun row hrow => hothers row (List.mem_append_left _ hrow),
        hsame back fun row hrow => hothers row (List.mem_append_right _ hrow)]
      rw [List.find?_append, List.find?_eq_none.mpr]
      · simp [hmatch]
      · intro row hrow
        simp [hothers row (List.mem_append_left _ hrow)]

end

/-! ### The table that a `PUT` updates -/

section

variable {conv : Conversions} {t : Table}

theorem keyed_cleared (hkeyed : Keyed GatewayEntry.id t.rows t.nextId) (clear : Bool) :
    Keyed GatewayEntry.id (if clear = true then t else clearPrimary t).rows
      (if clear = true then t else clearPrimary t).nextId := by
  cases clear with
  | true => exact hkeyed
  | false => exact hkeyed.map fun row => rfl

theorem find_cleared {value : Value} {existing : GatewayEntry} (clear : Bool)
    (h : t.rows.find? (fun row => equalsKey conv row.id value) = some existing) :
    ∃ row, (if clear = true then t else clearPrimary t).rows.find?
        (fun row => equalsKey conv row.id value) = some row ∧ row.id = existing.id := by
  cases clear with
  | true => exact ⟨existing, h, rfl⟩
  | false =>
    refine ⟨{ existing with cell := assign [(.is_primary, .number 0)] existing.cell }, ?_, rfl⟩
    simp only [clearPrimary, Bool.false_eq_true, if_false, List.find?_map]
    exact Option.map_eq_some_iff.mpr ⟨existing, h, rfl⟩

variable (conv t) in
theorem rejects_filter_cleared (clear : Bool) (value : Value) (values : List (Column × Value)) :
    rejects ((if clear = true then t else clearPrimary t).rows.filter
        fun row => !equalsKey conv row.id value) values =
      rejects (t.rows.filter fun row => !equalsKey conv row.id value) values := by
  cases clear with
  | true => rfl
  | false =>
    have hfilter : (clearPrimary t).rows.filter (fun row => !equalsKey conv row.id value) =
        (clearPrimary { t with rows := t.rows.filter fun row => !equalsKey conv row.id value }).rows := by
      simp only [clearPrimary, List.filter_map]
      rfl
    simp only [Bool.false_eq_true, if_false, hfilter]
    exact congrArg (lacks values || ·) (taken_clearPrimary values)

end

section

variable {conv : Conversions} {t t' : Table} {body : Json} {now : Nat}

/-- A `PUT` that gets to its end. -/
theorem put_written_iff (hkeyed : Keyed GatewayEntry.id t.rows t.nextId) (h : primaries t ≤ 1)
    {values : List (Column × Value)} {value : Value} {existing : GatewayEntry} {reply : Reply}
    (hfound : t.rows.find? (fun row => equalsKey conv row.id value) = some existing)
    (hvalues : updatedValues conv body = some (values, value))
    (hcolumns : values.map Prod.fst = (updates body).map Prod.fst)
    (hwritten : updateGateway conv now
      (if falsy (getField body "is_primary") = true then t else clearPrimary t) values value = some t')
    (hreply : reply.isError = false) :
    Kept t t' (.put now body) reply ↔ ∀ value, storedPrimary conv body = some value →
      if falsy (getField body "is_primary") = false then 0 < primaries t → value.truthy = true
      else value.truthy = true →
        ∀ row ∈ t.rows, row.primary = true → row.id = existing.id := by
  have hsome := storedPrimary_isSome hvalues hcolumns
  obtain ⟨row, hrow, hid⟩ := find_cleared (falsy (getField body "is_primary")) hfound
  obtain ⟨front, back, written, hrows, hrows', -, -, hcell, hothers, -⟩ :=
    updateGateway_spec (keyed_cleared hkeyed (falsy (getField body "is_primary"))) hrow hwritten
  have hprimary : written.primary =
      ((storedPrimary conv body).getD (row.cell .is_primary)).truthy := by
    rw [GatewayEntry.primary, hcell, storedPrimary, hvalues]
    rfl
  have hcount : primaries t' = front.countP GatewayEntry.primary +
      back.countP GatewayEntry.primary + if written.primary = true then 1 else 0 := by
    rw [primaries, hrows', List.countP_append, List.countP_cons]
    omega
  have hbefore : primaries (if falsy (getField body "is_primary") = true then t
      else clearPrimary t) = front.countP GatewayEntry.primary +
        back.countP GatewayEntry.primary + if row.primary = true then 1 else 0 := by
    rw [primaries, hrows, List.countP_append, List.countP_cons]
    omega
  have hsingle : reply.isError = true → t' = t := by simp [hreply]
  cases hfalsy : falsy (getField body "is_primary") with
  | false =>
    simp only [hfalsy, Bool.false_eq_true, if_false, primaries_clearPrimary] at hbefore
    obtain ⟨given, hgiven⟩ : ∃ given, getField body "is_primary" = some given := by
      cases hgiven : getField body "is_primary" with
      | none => simp [hgiven, falsy] at hfalsy
      | some given => exact ⟨given, rfl⟩
    obtain ⟨stored, hstored⟩ := Option.isSome_iff_exists.mp (hsome.trans (by rw [hgiven]; rfl))
    have htrue : ¬ SetsFalse (.put now body) := by
      rintro ⟨other, hother, hcontra⟩
      simp [hother, falsy, hcontra] at hfalsy
    rw [hstored, Option.getD_some] at hprimary
    simp only [hstored, Option.some.injEq, forall_eq', if_true]
    constructor
    · intro hkept hpositive
      have hnew := hkept.persists hpositive htrue
      by_contra hfalse
      rw [hcount, hprimary, if_neg hfalse] at hnew
      omega
    · intro hstays
      refine ⟨?_, fun hpositive _ => ?_, hsingle⟩
      · rw [hcount]
        split <;> omega
      · rw [hcount, hprimary, if_pos (hstays hpositive)]
        omega
  | true =>
    simp only [hfalsy, if_true] at hbefore hrow hrows
    obtain rfl := Option.some.inj (hfound.symm.trans hrow)
    cases hstored : storedPrimary conv body with
    | none =>
      have hequal : primaries t' = primaries t := by
        rw [hstored] at hprimary
        rw [hcount, hbefore, hprimary]
        rfl
      refine iff_of_true ⟨?_, fun hpositive _ => ?_, hsingle⟩ (by simp)
      · rw [hequal]
        exact h
      · rw [hequal]
        exact hpositive
    | some stored =>
      have hfalse : SetsFalse (.put now body) := by
        rw [hstored] at hsome
        obtain ⟨given, hgiven⟩ := Option.isSome_iff_exists.mp hsome.symm
        exact ⟨given, hgiven, by simpa [hgiven, falsy] using hfalsy⟩
      rw [hstored, Option.getD_some] at hprimary
      have hrest : front.countP GatewayEntry.primary + back.countP GatewayEntry.primary = 0 ↔
          ∀ row ∈ t.rows, row.primary = true → row.id = existing.id := by
        rw [Nat.add_eq_zero_iff, List.countP_eq_zero, List.countP_eq_zero, hrows]
        constructor
        · rintro ⟨hfront, hback⟩ other hother hrank
          rcases List.mem_append.mp hother with hmem | hmem
          · exact absurd hrank (hfront other hmem)
          · rcases List.mem_cons.mp hmem with rfl | hmem
            · rfl
            · exact absurd hrank (hback other hmem)
        · intro hids
          constructor
          · intro other hmem hrank
            exact hothers other (List.mem_append_left _ hmem) ((hids other
              (List.mem_append_left _ hmem) hrank).trans hid.symm)
          · intro other hmem hrank
            exact hothers other (List.mem_append_right _ hmem) ((hids other
              (List.mem_append_right _ (List.mem_cons_of_mem _ hmem)) hrank).trans hid.symm)
      simp only [Option.some.injEq, forall_eq', Bool.true_eq_false, if_false]
      constructor
      · intro hkept htruthy
        have hone := hkept.single
        rw [hcount, hprimary, if_pos htruthy] at hone
        exact hrest.mp (by omega)
      · intro hids
        refine ⟨?_, fun _ hcontra => absurd hfalse hcontra, hsingle⟩
        rw [hcount, hprimary]
        split
        · rename_i htruthy
          have hnone := hrest.mpr (hids htruthy)
          omega
        · split at hbefore <;> omega

theorem selectGateway_eq_some {id : Json} {existing : GatewayEntry}
    (h : selectGateway conv t id = some (some existing)) :
    ∃ value, bindParameters 1 [id] = some [value] ∧ bindArgument id = some [value] ∧
      t.rows.find? (fun row => equalsKey conv row.id value) = some existing := by
  obtain ⟨values, hvalues, hfound⟩ := Option.map_eq_some_iff.mp h
  obtain ⟨value, rfl, hargument⟩ := bindParameters_singleton hvalues
  exact ⟨value, hvalues, hargument, by simpa using hfound⟩

theorem safe_put_iff {existing : GatewayEntry} (hupdates : Updates conv t body existing) :
    Safe conv t (.put now body) ↔
      if putFails conv t body = true then falsy (getField body "is_primary") = false → Cleared t
      else ∀ value, storedPrimary conv body = some value →
        if falsy (getField body "is_primary") = false then 0 < primaries t → value.truthy = true
        else value.truthy = true →
          ∀ row ∈ t.rows, row.primary = true → row.id = existing.id := by
  constructor
  · intro hsafe
    exact hsafe existing hupdates
  · intro hsafe other hother
    obtain rfl := Option.some.inj (Option.some.inj (hupdates.2.symm.trans hother.2))
    exact hsafe

/-- A `PUT` whose id finds a row. -/
theorem put_updates_iff (hkeyed : Keyed GatewayEntry.id t.rows t.nextId) (h : primaries t ≤ 1)
    {existing : GatewayEntry} (hupdates : Updates conv t body existing) :
    Kept t (putGateway conv now t body).1 (.put now body) (putGateway conv now t body).2 ↔
      Safe conv t (.put now body) := by
  rw [safe_put_iff hupdates]
  obtain ⟨hid, hselected⟩ := hupdates
  obtain ⟨value, hbound, hargument, hfound⟩ := selectGateway_eq_some hselected
  have hnull : body ≠ .null := by
    rintro rfl
    cases hid
  unfold putGateway
  rw [if_neg hnull, if_neg (by simp [hid])]
  simp only [hselected]
  by_cases hempty : (updates body).isEmpty = true
  · have hnone := is_primary_of_updates_isEmpty hempty
    have hclear : falsy (getField body "is_primary") = true := by
      rw [hnone]
      rfl
    rw [if_pos hempty, kept_cleared_iff h rfl]
    refine iff_of_true (by simp [hclear]) ?_
    split
    · simp [hclear]
    · rename_i hruns
      unfold putFails at hruns
      cases hvalues : updatedValues conv body with
      | none => simp [hvalues] at hruns
      | some written =>
        have hsome := storedPrimary_isSome hvalues (updatedValues_spec hvalues hargument).1
        rw [hnone] at hsome
        intro stored hstored
        rw [hstored] at hsome
        cases hsome
  · rw [if_neg hempty]
    unfold putFails
    cases hvalues : updatedValues conv body with
    | none => exact kept_cleared_iff h rfl _
    | some written =>
      obtain ⟨values, id⟩ := written
      obtain ⟨hcolumns, rfl⟩ := updatedValues_spec hvalues hargument
      simp only [Option.bind_some]
      have hfails := rejects_filter_cleared conv t (falsy (getField body "is_primary")) id values
      cases hwritten : updateGateway conv now
          (if falsy (getField body "is_primary") = true then t else clearPrimary t) values id with
      | none =>
        rw [if_pos (hfails.symm.trans (updateGateway_eq_none_iff.mp hwritten))]
        exact kept_cleared_iff h rfl _
      | some updated =>
        have hruns : rejects (t.rows.filter fun row => !equalsKey conv row.id id) values = false := by
          rw [← hfails, ← Bool.not_eq_true]
          intro hrejects
          rw [updateGateway_eq_none_iff.mpr hrejects] at hwritten
          cases hwritten
        obtain ⟨row, hrow, -⟩ := find_cleared (falsy (getField body "is_primary")) hfound
        obtain ⟨-, -, written, -, -, -, -, -, -, hfound'⟩ := updateGateway_spec
          (keyed_cleared hkeyed (falsy (getField body "is_primary"))) hrow hwritten
        have hselected' : selectGateway conv updated ((getField body "id").getD .null) =
            some (some written) := by
          rw [selectGateway, hbound]
          simpa using hfound'
        simp only [hselected', hruns, Bool.false_eq_true, if_false]
        exact put_written_iff hkeyed h hfound hvalues hcolumns hwritten rfl

/-- A `PUT` whose id finds no row does not get to its statements. -/
theorem putGateway_refused (now : Nat) (h : ∀ existing, ¬ Updates conv t body existing) :
    ∃ reply, reply.isError = true ∧ putGateway conv now t body = (t, reply) := by
  unfold putGateway
  split
  · exact ⟨_, rfl, rfl⟩
  · by_cases hid : falsy (getField body "id") = true
    · rw [if_pos hid]
      exact ⟨_, rfl, rfl⟩
    · rw [if_neg hid]
      rw [Bool.not_eq_true] at hid
      dsimp only
      cases hselected : selectGateway conv t ((getField body "id").getD .null) with
      | none => exact ⟨_, rfl, rfl⟩
      | some found =>
        cases found with
        | none => exact ⟨_, rfl, rfl⟩
        | some existing => exact absurd ⟨hid, hselected⟩ (h existing)

theorem put_kept_iff (hkeyed : Keyed GatewayEntry.id t.rows t.nextId) (h : primaries t ≤ 1)
    (now : Nat) (body : Json) : Kept t (putGateway conv now t body).1 (.put now body)
      (putGateway conv now t body).2 ↔ Safe conv t (.put now body) := by
  by_cases hexists : ∃ existing, Updates conv t body existing
  · obtain ⟨existing, hupdates⟩ := hexists
    exact put_updates_iff hkeyed h hupdates
  · rw [not_exists] at hexists
    obtain ⟨reply, herror, hreply⟩ := putGateway_refused now hexists
    rw [hreply, kept_iff_of_error h herror]
    exact iff_of_true rfl fun existing hexisting => absurd hexisting (hexists existing)

end

/-! ### Runs -/

section

variable (conv : Conversions) (env : Environment)

/-- What the request comes to is as it must be. -/
def Good (t : Table) (request : Request) : Prop :=
  Kept t (serve conv env t request).1 request (serve conv env t request).2

variable {conv} {env} {t : Table}

theorem good_iff (hkeyed : Keyed GatewayEntry.id t.rows t.nextId) (h : primaries t ≤ 1)
    (request : Request) : Good conv env t request ↔ Safe conv t request := by
  cases request with
  | get now => exact iff_of_true (get_kept h env now) trivial
  | post now body => exact post_kept_iff h conv now body
  | put now body => exact put_kept_iff hkeyed h now body
  | delete body => exact iff_of_true (delete_kept hkeyed h body) trivial

theorem keyed_insertGateway (hkeyed : Keyed GatewayEntry.id t.rows t.nextId) {t' : Table}
    {now : Nat} {values : List (Column × Value)} (h : insertGateway now t values = some t') :
    Keyed GatewayEntry.id t'.rows t'.nextId := by
  unfold insertGateway at h
  split at h
  · cases h
  · obtain rfl := Option.some.inj h
    exact hkeyed.snoc rfl

theorem keyed_updateGateway (hkeyed : Keyed GatewayEntry.id t.rows t.nextId) {t' : Table}
    {now : Nat} {values : List (Column × Value)} {value : Value}
    (h : updateGateway conv now t values value = some t') :
    Keyed GatewayEntry.id t'.rows t'.nextId := by
  unfold updateGateway at h
  dsimp only at h
  split at h
  · cases h
  · obtain rfl := Option.some.inj h
    refine hkeyed.map fun row => ?_
    split <;> rfl

theorem keyed_serve (hkeyed : Keyed GatewayEntry.id t.rows t.nextId) (request : Request) :
    Keyed GatewayEntry.id (serve conv env t request).1.rows (serve conv env t request).1.nextId := by
  cases request with
  | get now =>
    simp only [serve, getGateways]
    split
    · split
      · exact hkeyed
      · rename_i seeded hseeded
        exact keyed_insertGateway hkeyed hseeded
    · exact hkeyed
  | post now body =>
    simp only [serve, postGateway]
    have hcleared := keyed_cleared hkeyed (falsy (getField body "is_primary"))
    split
    · exact hkeyed
    · by_cases hmissing : falsy (getField body "name") = true ∨ falsy (getField body "host") = true ∨
          falsy (getField body "port") = true
      · rw [if_pos hmissing]
        exact hkeyed
      · rw [if_neg hmissing]
        generalize (if falsy (getField body "is_primary") = true then t else clearPrimary t) =
          cleared at hcleared
        split
        · exact hcleared
        · split
          · split <;> exact hcleared
          · rename_i added hadded
            exact keyed_insertGateway hcleared hadded
  | put now body =>
    simp only [serve, putGateway]
    have hcleared := keyed_cleared hkeyed (falsy (getField body "is_primary"))
    split
    · exact hkeyed
    · by_cases hid : falsy (getField body "id") = true
      · rw [if_pos hid]
        exact hkeyed
      · rw [if_neg hid]
        generalize (if falsy (getField body "is_primary") = true then t else clearPrimary t) =
          cleared at hcleared
        split
        · exact hkeyed
        · exact hkeyed
        · split
          · exact hcleared
          · split
            · exact hcleared
            · rename_i updated hupdated
              obtain ⟨written, -, hwritten⟩ := Option.bind_eq_some_iff.mp hupdated
              have hkept := keyed_updateGateway hcleared hwritten
              split <;> exact hkept
  | delete body =>
    simp only [serve, deleteGateway]
    split
    · exact hkeyed
    · split
      · exact hkeyed
      · split
        · exact hkeyed
        · split
          · split
            · exact hkeyed
            · exact hkeyed.filter _
          · exact hkeyed.filter _

/-- What holds between the requests of a run that goes well. -/
structure Sound (t : Table) : Prop where
  keyed : Keyed GatewayEntry.id t.rows t.nextId
  single : primaries t ≤ 1

theorem sound_empty : Sound Table.empty :=
  ⟨⟨List.nodup_nil, fun row hrow => by cases hrow⟩, Nat.zero_le 1⟩

/-- Runs from an empty table: there is at most one primary gateway in every state, the primary one
stays unless a request itself gives it up, and requests that fail leave the table alone, exactly
if all requests are safe. -/
theorem primary_gateway_iff (conv : Conversions) (env : Environment) (trace : List Request) :
    (machine conv env).Meets (Good conv env) Table.empty trace ↔
      (machine conv env).Meets (fun t request => Safe conv t request) Table.empty trace := by
  have hagree : ∀ t, Sound t → ∀ request, Good conv env t request ↔ Safe conv t request :=
    fun t h request => good_iff h.keyed h.single request
  refine Machine.meets_iff hagree ?_ sound_empty trace
  intro t request t' h hgood hstep
  obtain rfl := Option.some.inj hstep
  exact ⟨keyed_serve h.keyed request, hgood.single⟩

end

/-! ### The rank is lost -/

def sampleConversions : Conversions := ⟨fun n => toString n.num, fun _ => none⟩

def sampleEnvironment : Environment := ⟨none, none, none, none, none, none, none⟩

/-- A primary gateway whose name is taken by the seed. -/
def samplePost : Request :=
  .post 2000 (.object [("name", .string "primary"), ("host", .string "10.0.0.2"),
    ("port", .number 18789), ("is_primary", .bool true)])

def seeded : Table := (serve sampleConversions sampleEnvironment Table.empty (.get 1000)).1

theorem failed_post_takes_rank : ¬ (machine sampleConversions sampleEnvironment).Meets
    (Good sampleConversions sampleEnvironment) Table.empty [.get 1000, samplePost] := by
  rintro ⟨-, hrest⟩
  obtain ⟨hgood, -⟩ := hrest seeded rfl
  have herror : (serve sampleConversions sampleEnvironment seeded samplePost).2.isError = true := by
    decide +kernel
  have hbefore : primaries seeded = 1 := by decide +kernel
  have hafter : primaries (serve sampleConversions sampleEnvironment seeded samplePost).1 = 0 := by
    decide +kernel
  have hsame := congrArg primaries (hgood.unchanged herror)
  rw [hbefore, hafter] at hsame
  cases hsame

end MissionControl.Gateways.Primary
