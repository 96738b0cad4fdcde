import Mathlib.Data.List.Induction
import Mathlib.Data.List.Nodup
import Mathlib.Data.List.Perm.Basic
import Mathlib.Tactic.IntervalCases
import MissionControl.Foundations.JsText
import MissionControl.Foundations.JsonText

/-!
The office floor: agents sit in the zone of their role, in rows of a few desks. The rows are
lettered, and the name of a desk is the label of its seat in lower case.
-/

set_option autoImplicit false
set_option relaxedAutoImplicit false

namespace MissionControl.Office.Layout

open MissionControl.Foundations.JsText (includes toLowerCase)
open MissionControl.Foundations.JsonText (Units unitsOf)

/-! ### Zones -/

inductive OfficeZoneType where
  | engineering
  | operations
  | research
  | product
  | quality
  | general
  deriving DecidableEq

structure OfficeZoneDefinition where
  id : OfficeZoneType
  label : String
  icon : String
  accentClass : String
  roleKeywords : List String
  deriving DecidableEq

def generalWorkspace : OfficeZoneDefinition where
  id := .general
  label := "General Workspace"
  icon := "🏢"
  accentClass := "border-slate-500/30 bg-slate-500/10"
  roleKeywords := []

/-- `OFFICE_ZONES`. -/
def officeZones : List OfficeZoneDefinition :=
  [{  id := .engineering
      label := "Engineering Bay"
      icon := "🧑‍💻"
      accentClass := "border-cyan-500/30 bg-cyan-500/10"
      roleKeywords := ["engineer", "dev", "frontend", "backend", "fullstack", "software"] },
    { id := .operations
      label := "Operations Pod"
      icon := "🛠️"
      accentClass := "border-amber-500/30 bg-amber-500/10"
      roleKeywords := ["ops", "sre", "infra", "platform", "reliability"] },
    { id := .research
      label := "Research Corner"
      icon := "🔬"
      accentClass := "border-violet-500/30 bg-violet-500/10"
      roleKeywords := ["research", "science", "analyst", "ai"] },
    { id := .product
      label := "Product Studio"
      icon := "📐"
      accentClass := "border-emerald-500/30 bg-emerald-500/10"
      roleKeywords := ["product", "pm", "design", "ux", "ui"] },
    { id := .quality
      label := "Quality Lab"
      icon := "🧪"
      accentClass := "border-rose-500/30 bg-rose-500/10"
      roleKeywords := ["qa", "test", "quality"] },
    generalWorkspace]

def normalizeRole (role : Option String) : String := toLowerCase (role.getD "")

def getZoneByRole (role : Option String) : OfficeZoneDefinition :=
  let normalized := normalizeRole role
  (officeZones.find? fun zone =>
    zone.id ≠ .general && zone.roleKeywords.any (includes normalized)).getD generalWorkspace

/-! ### Seats -/

/-- What `toLowerCase` makes of a code unit that stands before a digit. Beyond ASCII it is for the
tables of Unicode to say. -/
structure LowerCase where
  unit : UInt16 → Units
  ascii : ∀ u, u < 128 → unit u = [if 65 ≤ u ∧ u ≤ 90 then u + 32 else u]

def LowerCase.apply (lower : LowerCase) (units : Units) : Units := units.flatMap lower.unit

def textUnits (text : String) : Units := text.toList.flatMap unitsOf

/-- `String.fromCharCode`, which takes its argument modulo the number of code units. -/
def fromCharCode (code : Nat) : Units := [code.toUInt16]

structure WorkstationAnchor where
  deskId : Units
  seatLabel : Units
  row : Nat
  col : Nat
  x : Nat
  y : Nat
  deriving DecidableEq

def buildAnchor (lower : LowerCase) (index columnCount : Nat) : WorkstationAnchor :=
  let row := index / columnCount
  let col := index % columnCount
  let rowLabel := fromCharCode (65 + row)
  let seatLabel := rowLabel ++ textUnits (toString (col + 1))
  { deskId := textUnits "desk-" ++ lower.apply seatLabel
    seatLabel, row, col
    x := col * 220 + 110
    y := row * 160 + 80 }

/-! ### The layout -/

section

variable {Agent : Type}

structure ZonedAgent (Agent : Type) where
  agent : Agent
  anchor : WorkstationAnchor

structure OfficeZoneLayout (Agent : Type) where
  zone : OfficeZoneDefinition
  workers : List (ZonedAgent Agent)

/-- `zoneMap`, where every zone has an entry. -/
abbrev ZoneMap (Agent : Type) := OfficeZoneType → List Agent

def ZoneMap.push (zones : ZoneMap Agent) (id : OfficeZoneType) (agent : Agent) : ZoneMap Agent :=
  fun zone => if zone = id then zones zone ++ [agent] else zones zone

def zoneMap (role : Agent → Option String) (agents : List Agent) : ZoneMap Agent :=
  agents.foldl (fun zones agent => zones.push (getZoneByRole (role agent)).id agent) fun _ => []

/-- The number of columns of a zone with this many workers. -/
def columns (workers : Nat) : Nat := if 8 ≤ workers then 4 else if 4 ≤ workers then 3 else 2

def zoneLayout (lower : LowerCase) (zone : OfficeZoneDefinition) (workers : List Agent) :
    OfficeZoneLayout Agent where
  zone := zone
  workers := workers.mapIdx fun i agent => ⟨agent, buildAnchor lower i (columns workers.length)⟩

def buildOfficeLayout (lower : LowerCase) (role : Agent → Option String) (agents : List Agent) :
    List (OfficeZoneLayout Agent) :=
  let result := officeZones.filterMap fun zone =>
    let workers := zoneMap role agents zone.id
    if workers.isEmpty then none else some (zoneLayout lower zone workers)
  result.mergeSort fun a b => b.workers.length ≤ a.workers.length

end

end MissionControl.Office.Layout

/-!
Every agent has one seat, and no two of a zone have the same. Their desks have different names up to
the row before `a`, whose desks are called like those of the row `A`.
-/

namespace MissionControl.Office.Placement

open MissionControl.Foundations.JsonText (Units)
open Layout

variable {Agent : Type} {lower : LowerCase} {role : Agent → Option String} {agents : List Agent}

/-- The layout is a placement of the agents. -/
structure Seated (role : Agent → Option String) (agents : List Agent)
    (layout : List (OfficeZoneLayout Agent)) : Prop where
  /-- Every agent is placed once, in the zone of its role. -/
  placed : (layout.flatMap fun z => z.workers.map ZonedAgent.agent).Perm agents
  zoned : ∀ z ∈ layout, ∀ w ∈ z.workers, z.zone = getZoneByRole (role w.agent)
  zones : (layout.map OfficeZoneLayout.zone).Nodup
  occupied : ∀ z ∈ layout, z.workers ≠ []
  ordered : layout.Pairwise fun a b => b.workers.length ≤ a.workers.length
  desks : ∀ z ∈ layout, (z.workers.map fun w => w.anchor.deskId).Nodup
  seats : ∀ z ∈ layout, (z.workers.map fun w => (w.anchor.row, w.anchor.col)).Nodup

/-- The agents that sit in a zone. -/
def membersOf (role : Agent → Option String) (agents : List Agent) (zone : OfficeZoneDefinition) :
    List Agent :=
  agents.filter fun agent => getZoneByRole (role agent) = zone

/-! ### Zones -/

theorem find?_getD_mem {α : Type} {p : α → Bool} {xs : List α} {d : α} (hd : d ∈ xs) :
    (xs.find? p).getD d ∈ xs := by
  cases hfound : xs.find? p with
  | none => exact hd
  | some x => exact List.mem_of_find?_eq_some hfound

theorem getZoneByRole_mem (role : Option String) : getZoneByRole role ∈ officeZones := by
  have hgeneral : generalWorkspace ∈ officeZones := by simp [officeZones]
  exact find?_getD_mem hgeneral

theorem officeZones_nodup : (officeZones.map OfficeZoneDefinition.id).Nodup := by decide

theorem zone_eq_of_id {zone other : OfficeZoneDefinition} (hzone : zone ∈ officeZones)
    (hother : other ∈ officeZones) (h : zone.id = other.id) : zone = other :=
  List.inj_on_of_nodup_map officeZones_nodup hzone hother h

theorem zoneMap_eq (id : OfficeZoneType) :
    zoneMap role agents id = agents.filter fun agent => (getZoneByRole (role agent)).id = id := by
  induction agents using List.reverseRecOn with
  | nil => rfl
  | append_singleton agents agent ih =>
    rw [zoneMap, List.foldl_append, List.foldl_cons, List.foldl_nil, ← zoneMap, ZoneMap.push, ih,
      List.filter_append]
    by_cases h : id = (getZoneByRole (role agent)).id
    · simp [h]
    · simp [h, Ne.symm h]

theorem zoneMap_eq_membersOf {zone : OfficeZoneDefinition} (hzone : zone ∈ officeZones) :
    zoneMap role agents zone.id = membersOf role agents zone := by
  rw [zoneMap_eq, membersOf]
  apply List.filter_congr
  intro agent _
  have hiff : (getZoneByRole (role agent)).id = zone.id ↔ getZoneByRole (role agent) = zone :=
    ⟨zone_eq_of_id (getZoneByRole_mem _) hzone, congrArg _⟩
  simp only [hiff]

/-! ### Everyone is placed -/

/-- Where each of `xs` has one of the keys, the lists of the keys together are `xs`. -/
theorem flatMap_filter_perm {α κ : Type} [DecidableEq κ] (key : α → κ) (xs : List α)
    {keys : List κ} (hkeys : keys.Nodup) :
    (keys.flatMap fun k => xs.filter fun x => key x = k).Perm
      (xs.filter fun x => key x ∈ keys) := by
  induction keys with
  | nil => simp
  | cons k keys ih =>
    obtain ⟨hnew, hkeys⟩ := List.nodup_cons.mp hkeys
    rw [List.flatMap_cons]
    refine ((ih hkeys).append_left _).trans ?_
    have hsplit := List.filter_append_perm (fun x => decide (key x = k))
      (xs.filter fun x => key x ∈ k :: keys)
    have hfirst : (xs.filter fun x => key x ∈ k :: keys).filter (fun x => key x = k) =
        xs.filter fun x => key x = k := by
      rw [List.filter_filter]
      apply List.filter_congr
      intro x _
      by_cases h : key x = k
      · simp [h]
      · simp [h]
    have hrest : (xs.filter fun x => key x ∈ k :: keys).filter (fun x => !decide (key x = k)) =
        xs.filter fun x => key x ∈ keys := by
      rw [List.filter_filter]
      apply List.filter_congr
      intro x _
      by_cases h : key x = k
      · simp [h, hnew]
      · simp [h]
    rwa [hfirst, hrest] at hsplit

/-- The zones that someone is in. -/
def occupied (role : Agent → Option String) (agents : List Agent) : List OfficeZoneDefinition :=
  officeZones.filter fun zone => !(membersOf role agents zone).isEmpty

theorem filterMap_ite {α β : Type} (p : α → Bool) (f : α → β) (xs : List α) :
    (xs.filterMap fun x => if p x then none else some (f x)) = (xs.filter fun x => !p x).map f := by
  induction xs with
  | nil => rfl
  | cons x xs ih => cases h : p x <;> simp [h, ih]

theorem buildOfficeLayout_perm (lower : LowerCase) (role : Agent → Option String)
    (agents : List Agent) : (buildOfficeLayout lower role agents).Perm
    ((occupied role agents).map fun zone =>
      zoneLayout lower zone (membersOf role agents zone)) := by
  refine (List.mergeSort_perm _ _).trans ?_
  rw [occupied, ← filterMap_ite]
  apply List.Perm.of_eq
  apply List.filterMap_congr
  intro zone hzone
  simp only [zoneMap_eq_membersOf hzone]

theorem mem_layout {z : OfficeZoneLayout Agent} (h : z ∈ buildOfficeLayout lower role agents) :
    ∃ zone ∈ occupied role agents, zoneLayout lower zone (membersOf role agents zone) = z :=
  List.mem_map.mp ((buildOfficeLayout_perm lower role agents).mem_iff.mp h)

theorem zoneLayout_agents (lower : LowerCase) (zone : OfficeZoneDefinition) (workers : List Agent) :
    (zoneLayout lower zone workers).workers.map ZonedAgent.agent = workers := by
  apply List.ext_getElem
  · simp [zoneLayout]
  · intro i h h'
    simp [zoneLayout]

theorem zoneLayout_anchors (lower : LowerCase) (zone : OfficeZoneDefinition)
    (workers : List Agent) :
    (zoneLayout lower zone workers).workers.map ZonedAgent.anchor =
      (List.range workers.length).map fun i => buildAnchor lower i (columns workers.length) := by
  apply List.ext_getElem
  · simp [zoneLayout]
  · intro i h h'
    simp [zoneLayout]

/-- Empty lists add nothing. -/
theorem flatMap_filter_isEmpty {α β : Type} (f : α → List β) (xs : List α) :
    (xs.filter fun x => !(f x).isEmpty).flatMap f = xs.flatMap f := by
  induction xs with
  | nil => rfl
  | cons x xs ih =>
    cases hx : f x with
    | nil => simp [hx, ih]
    | cons y ys => simp [hx, ih]

theorem layout_placed : ((buildOfficeLayout lower role agents).flatMap fun z =>
    z.workers.map ZonedAgent.agent).Perm agents := by
  refine ((buildOfficeLayout_perm lower role agents).flatMap_right _).trans ?_
  have hmembers : (((occupied role agents).map fun zone =>
      zoneLayout lower zone (membersOf role agents zone)).flatMap fun z =>
        z.workers.map ZonedAgent.agent) = officeZones.flatMap (membersOf role agents) := by
    simp only [List.flatMap_map, zoneLayout_agents]
    exact flatMap_filter_isEmpty (membersOf role agents) officeZones
  have hall : (agents.filter fun agent => getZoneByRole (role agent) ∈ officeZones) = agents := by
    rw [List.filter_eq_self]
    intro agent _
    exact decide_eq_true (getZoneByRole_mem _)
  have hperm := flatMap_filter_perm (fun agent => getZoneByRole (role agent)) agents
    officeZones_nodup.of_map
  rw [hall] at hperm
  rw [hmembers]
  exact hperm

/-! ### Seats and desks -/

theorem seat_injective {columns i j : Nat}
    (h : (i / columns, i % columns) = (j / columns, j % columns)) : i = j := by
  obtain ⟨hrow, hcol⟩ := Prod.mk.inj h
  calc i = columns * (i / columns) + i % columns := (Nat.div_add_mod i columns).symm
    _ = columns * (j / columns) + j % columns := by rw [hrow, hcol]
    _ = j := Nat.div_add_mod j columns

/-- The letter of a row before the row `a`, in lower case. -/
def rowLetter (row : Nat) : UInt16 :=
  if 65 ≤ (65 + row).toUInt16 ∧ (65 + row).toUInt16 ≤ 90 then (65 + row).toUInt16 + 32
  else (65 + row).toUInt16

theorem rowLetter_injective : ∀ row < 32, ∀ row' < 32, rowLetter row = rowLetter row' →
    row = row' := by
  decide +kernel

theorem lower_row {row : Nat} (h : row < 63) :
    lower.apply (fromCharCode (65 + row)) = [rowLetter row] := by
  have hascii : ∀ row < 63, (65 + row).toUInt16 < 128 := by decide +kernel
  rw [LowerCase.apply, fromCharCode, List.flatMap_singleton, lower.ascii _ (hascii row h),
    rowLetter]

theorem lower_number {col : Nat} (h : col < 4) :
    lower.apply (textUnits (toString (col + 1))) = [(49 + col).toUInt16] := by
  have hdigit : ∀ col < 4, textUnits (toString (col + 1)) = [(49 + col).toUInt16] ∧
      (49 + col).toUInt16 < 128 ∧ ¬ 65 ≤ (49 + col).toUInt16 := by decide +kernel
  obtain ⟨hunits, hascii, hdigit⟩ := hdigit col h
  rw [hunits, LowerCase.apply, List.flatMap_singleton, lower.ascii _ hascii,
    if_neg fun hletter => hdigit hletter.1]

theorem deskId_eq {index columns : Nat} (hrow : index / columns < 63)
    (hcol : index % columns < 4) : (buildAnchor lower index columns).deskId =
      textUnits "desk-" ++ [rowLetter (index / columns), (49 + index % columns).toUInt16] := by
  have happend (front back : Units) :
      lower.apply (front ++ back) = lower.apply front ++ lower.apply back :=
    List.flatMap_append
  simp only [buildAnchor]
  rw [happend, lower_row hrow, lower_number hcol, List.singleton_append]

theorem number_injective : ∀ col < 4, ∀ col' < 4, (49 + col).toUInt16 = (49 + col').toUInt16 →
    col = col' := by
  decide

theorem columns_of_lt {n i : Nat} (hn : n ≤ 128) (hi : i < n) :
    i / columns n < 32 ∧ i % columns n < 4 := by
  unfold columns
  split
  · omega
  · split <;> omega

/-- In a zone of this size, no two desks are called alike. -/
theorem desks_nodup_iff (lower : LowerCase) (n : Nat) :
    ((List.range n).map fun i => (buildAnchor lower i (columns n)).deskId).Nodup ↔ n ≤ 128 := by
  constructor
  · intro hnodup
    by_contra hmany
    have hcolumns : columns n = 4 := if_pos (by omega)
    -- the desks of the first and of the hundred and twenty-ninth worker
    have hsame : (buildAnchor lower 0 (columns n)).deskId =
        (buildAnchor lower 128 (columns n)).deskId := by
      rw [hcolumns, deskId_eq (by decide) (by decide), deskId_eq (by decide) (by decide)]
      rfl
    have heq := List.inj_on_of_nodup_map hnodup (List.mem_range.mpr (by omega))
      (List.mem_range.mpr (by omega)) hsame
    cases heq
  · intro hn
    refine List.Nodup.map_on ?_ List.nodup_range
    intro i hi j hj hdesk
    obtain ⟨hrow, hcol⟩ := columns_of_lt hn (List.mem_range.mp hi)
    obtain ⟨hrow', hcol'⟩ := columns_of_lt hn (List.mem_range.mp hj)
    rw [deskId_eq (by omega) hcol, deskId_eq (by omega) hcol'] at hdesk
    have hname := List.append_cancel_left hdesk
    simp only [List.cons.injEq, and_true] at hname
    apply seat_injective
    rw [rowLetter_injective _ hrow _ hrow' hname.1, number_injective _ hcol _ hcol' hname.2]

theorem seats_nodup (lower : LowerCase) (n : Nat) : ((List.range n).map fun i =>
    ((buildAnchor lower i (columns n)).row, (buildAnchor lower i (columns n)).col)).Nodup := by
  refine List.Nodup.map_on ?_ List.nodup_range
  intro i _ j _ hseat
  exact seat_injective hseat

theorem zoneLayout_desks_iff (zone : OfficeZoneDefinition) (workers : List Agent) :
    ((zoneLayout lower zone workers).workers.map fun w => w.anchor.deskId).Nodup ↔
      workers.length ≤ 128 := by
  have hanchors := congrArg (List.map WorkstationAnchor.deskId)
    (zoneLayout_anchors lower zone workers)
  rw [List.map_map, List.map_map] at hanchors
  rw [← desks_nodup_iff lower]
  exact iff_of_eq (congrArg List.Nodup hanchors)

theorem zoneLayout_seats (zone : OfficeZoneDefinition) (workers : List Agent) :
    ((zoneLayout lower zone workers).workers.map fun w => (w.anchor.row, w.anchor.col)).Nodup := by
  have hanchors := congrArg (List.map fun anchor => (anchor.row, anchor.col))
    (zoneLayout_anchors lower zone workers)
  rw [List.map_map, List.map_map] at hanchors
  have hseats := seats_nodup lower workers.length
  exact (congrArg List.Nodup hanchors).mpr hseats

/-! ### The layout -/

theorem mem_occupied {zone : OfficeZoneDefinition} : zone ∈ occupied role agents ↔
    zone ∈ officeZones ∧ membersOf role agents zone ≠ [] := by
  simp [occupied]

theorem layout_zoned {z : OfficeZoneLayout Agent} (hz : z ∈ buildOfficeLayout lower role agents)
    {w : ZonedAgent Agent} (hw : w ∈ z.workers) : z.zone = getZoneByRole (role w.agent) := by
  obtain ⟨zone, -, rfl⟩ := mem_layout hz
  have hmember : w.agent ∈ membersOf role agents zone := by
    rw [← zoneLayout_agents lower zone (membersOf role agents zone)]
    exact List.mem_map.mpr ⟨w, hw, rfl⟩
  have hzone := (List.mem_filter.mp hmember).2
  exact (of_decide_eq_true hzone).symm

theorem layout_zones : ((buildOfficeLayout lower role agents).map
    OfficeZoneLayout.zone).Nodup := by
  have hperm := (buildOfficeLayout_perm lower role agents).map
    OfficeZoneLayout.zone
  rw [List.map_map] at hperm
  have hid : OfficeZoneLayout.zone ∘ (fun zone =>
      zoneLayout lower zone (membersOf role agents zone)) = id := rfl
  rw [hid, List.map_id] at hperm
  exact hperm.nodup_iff.mpr (officeZones_nodup.of_map.filter _)

theorem layout_occupied {z : OfficeZoneLayout Agent}
    (hz : z ∈ buildOfficeLayout lower role agents) : z.workers ≠ [] := by
  obtain ⟨zone, hzone, rfl⟩ := mem_layout hz
  intro hnone
  apply (mem_occupied.mp hzone).2
  rw [← zoneLayout_agents lower zone (membersOf role agents zone), hnone, List.map_nil]

theorem layout_ordered : (buildOfficeLayout lower role agents).Pairwise fun a b =>
    b.workers.length ≤ a.workers.length := by
  have hsorted : (buildOfficeLayout lower role agents).Pairwise fun a b =>
      decide (b.workers.length ≤ a.workers.length) = true := by
    apply List.pairwise_mergeSort
    · intro a b c hab hbc
      exact decide_eq_true ((of_decide_eq_true hbc).trans (of_decide_eq_true hab))
    · intro a b
      rw [Bool.or_eq_true, decide_eq_true_eq, decide_eq_true_eq]
      exact Nat.le_total _ _
  exact hsorted.imp of_decide_eq_true

/-- Two desks of a zone with more than 128 agents are called alike. -/
theorem not_seated_of_lt {zone : OfficeZoneDefinition} (hzone : zone ∈ officeZones)
    (hmany : 128 < (membersOf role agents zone).length) :
    ¬ Seated role agents (buildOfficeLayout lower role agents) := by
  intro h
  have hsome : membersOf role agents zone ≠ [] := by
    intro hnone
    rw [hnone] at hmany
    exact absurd hmany (Nat.not_lt_zero _)
  have hmem : zoneLayout lower zone (membersOf role agents zone) ∈
      buildOfficeLayout lower role agents :=
    (buildOfficeLayout_perm lower role agents).mem_iff.mpr
      (List.mem_map.mpr ⟨zone, mem_occupied.mpr ⟨hzone, hsome⟩, rfl⟩)
  have hle := (zoneLayout_desks_iff zone _).mp (h.desks _ hmem)
  omega

/-- The layout seats everyone as it should exactly when no zone has more than 128 agents. -/
theorem office_seated_iff (lower : LowerCase) (role : Agent → Option String)
    (agents : List Agent) : Seated role agents (buildOfficeLayout lower role agents) ↔
      ∀ zone ∈ officeZones, (membersOf role agents zone).length ≤ 128 := by
  constructor
  · intro h zone hzone
    by_contra hmany
    exact not_seated_of_lt hzone (not_le.mp hmany) h
  · intro hfew
    constructor
    case placed => exact layout_placed
    case zoned => exact fun z hz w hw => layout_zoned hz hw
    case zones => exact layout_zones
    case occupied => exact fun z hz => layout_occupied hz
    case ordered => exact layout_ordered
    case desks =>
      intro z hz
      obtain ⟨zone, hzone, rfl⟩ := mem_layout hz
      exact (zoneLayout_desks_iff zone _).mpr (hfew zone (mem_occupied.mp hzone).1)
    case seats =>
      intro z hz
      obtain ⟨zone, -, rfl⟩ := mem_layout hz
      exact zoneLayout_seats zone _

/-- The tables of ASCII. -/
def asciiLower : LowerCase where
  unit u := [if 65 ≤ u ∧ u ≤ 90 then u + 32 else u]
  ascii _ _ := rfl

/-- Of 129 agents without a role, the last shares the desk of the first. -/
theorem full_workspace_shares_desk :
    ¬ Seated (fun _ => none) (List.replicate 129 ())
      (buildOfficeLayout asciiLower (fun _ => none) (List.replicate 129 ())) := by
  have hgeneral : getZoneByRole none = generalWorkspace := by decide +kernel
  have hmembers : membersOf (fun _ => none) (List.replicate 129 ()) generalWorkspace =
      List.replicate 129 () := by
    rw [membersOf, List.filter_eq_self]
    exact fun _ _ => decide_eq_true hgeneral
  have hzone : generalWorkspace ∈ officeZones := by simp [officeZones]
  apply not_seated_of_lt hzone
  rw [hmembers, List.length_replicate]
  decide

end MissionControl.Office.Placement
